import ContentStore.CommandLine.Run
import Std.Time.DateTime.Timestamp
/-!
# The command line

Reads the data directory from the disk, runs the request of the arguments, and writes the files that
have changed back.
-/

namespace ContentStore.Main

open ContentStore.CommandLine

/-- The text of a file, if there is one that holds a text. -/
def readText (path : String) : IO (Option String) := do
  try
    return String.fromUTF8? (← IO.FS.readBinFile path)
  catch _ => return none

/-- What stands at the path of the data directory, which is made if nothing stands there. -/
def readPlace (root : String) : IO Place := do
  try
    IO.FS.createDirAll root
    let path ← IO.FS.realPath root
    let mut d := Directory.empty
    for entry in ← path.readDir do
      let bytes ← try pure (some (← IO.FS.readBinFile entry.path)) catch _ => pure none
      d := d.set entry.fileName (bytes.elim .folder .file)
    return .directory d
  catch _ => return .file

/-- A new file takes the place of an old one in one step, or the old one is overwritten. -/
def writeFile (config : Config) (path : String) (bytes : ByteArray) : IO Unit := do
  if config.atomicWrites then
    let beside := path ++ ".new"
    IO.FS.writeBinFile beside bytes
    IO.FS.rename beside path
  else
    IO.FS.writeBinFile path bytes

/-- Writes the files that differ between two states of the directory. -/
def writeChanges (root : String) (before after : Directory) : IO Unit := do
  match after.config with
  | .error _ => return
  | .ok config =>
    for (name, entry) in after.entries do
      match before.find? name, entry with
      | some (.file old), .file new =>
        if old != new then writeFile config (root ++ "/" ++ name) new
      | none, .file new => writeFile config (root ++ "/" ++ name) new
      | _, _ => pure ()

/-- The present time. -/
def presentTime : IO Instant := do
  let t ← Std.Time.Timestamp.now
  let nanoseconds := t.toNanosecondsSinceUnixEpoch.val
  return ⟨nanoseconds / 1000000000, (nanoseconds % 1000000000).toNat⟩

/-- A number of 128 random bits. -/
def chance : IO Nat := do
  return (← IO.getRandomBytes 16).foldl (fun n b => 256 * n + b.toNat) 0

/-- Runs a request on the disk. -/
def runRequest (r : Request) : IO Reply := do
  let root := r.root (← IO.getEnv "SITESTORE_DATA_DIR")
  let place ← readPlace root
  let snapshot ← match r.command with
    | .restore _ file => readText file
    | _ => pure none
  let before := match place with
    | .directory d => d
    | _ => .empty
  let now ← presentTime
  let draw ← chance
  let world : World := ⟨before, fun _ => now, 0, fun _ => draw, 0⟩
  let (reply, world) := (r.run root place fun _ => snapshot).run world
  try
    writeChanges root before world.directory
    return reply
  catch _ => return .ofFailure (.store .io)

end ContentStore.Main

open ContentStore ContentStore.CommandLine in
/-- Runs the request of the arguments. -/
def main (arguments : List String) : IO UInt32 := do
  let reply ← match Request.ofArguments arguments with
    | .ok r => Main.runRequest r
    | .error stop => pure (Reply.ofStop stop)
  (← IO.getStdout).putStr reply.out
  (← IO.getStderr).putStr reply.err
  return reply.code.toUInt32
