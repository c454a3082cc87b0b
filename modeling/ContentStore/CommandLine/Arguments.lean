import ContentStore.Text.Digits
/-!
# The arguments of the command line

Options that hold for every command stand before the command, and each command has its own
positional arguments, options and flags.  An option has its value after an equals sign or as the
next argument, which must not look like an option itself; after `--` every argument is positional.
Arguments are checked from the left, so that a request for help or the version counts only where
nothing before it is wrong.
-/

namespace ContentStore.CommandLine

/-- How results are written. -/
inductive OutputFormat where
  | yaml
  | json
deriving DecidableEq, Repr

/-- What is to be done. -/
inductive Command where
  | get (table id : String)
  | list (table : String) (page limit : Nat)
  | search (table term : String) (fields : List String)
  | insert (table : String) (fields : List (String × String))
  | update (table id : String) (fields : List (String × String))
  | delete (table id : String) (dryRun : Bool)
  | sql (statement : String) (params : List String)
  | backup (table : String)
  | restore (table file : String)
  | truncate (table : String)
  | status
deriving DecidableEq, Repr

/-- A command with the options that stand before it. -/
structure Request where
  dataDir : Option String
  format : OutputFormat
  command : Command
deriving DecidableEq, Repr

/-- Why the arguments give no request. -/
inductive Stop where
  | misuse
  | help
  | version
deriving DecidableEq, Repr

/-! ## Words -/

/-- The kinds of arguments. -/
inductive Word where
  /-- Two hyphens alone. -/
  | divider
  /-- A name after two hyphens, and a value after an equals sign. -/
  | long (name : String) (value : Option String)
  /-- The letters after one hyphen. -/
  | short (letters : List Char)
  | plain (text : String)
deriving DecidableEq, Repr

/-- The parts of a text before and after its first equals sign. -/
def splitAtEquals? (text : String) : Option (String × String) :=
  let cs := text.toList
  match cs.dropWhile (· ≠ '=') with
  | _ :: after => some (String.ofList (cs.takeWhile (· ≠ '=')), String.ofList after)
  | [] => none

namespace Word

/-- The kind of an argument. -/
def ofArgument (argument : String) : Word :=
  match argument.toList with
  | ['-', '-'] => divider
  | '-' :: '-' :: name =>
    match splitAtEquals? (String.ofList name) with
    | some (name, value) => long name (some value)
    | none => long (String.ofList name) none
  | '-' :: c :: letters => short (c :: letters)
  | _ => plain argument

end Word

/-- The value of an option, after its equals sign or as the next argument, and what is left. -/
def takeValue (value : Option String) (rest : List String) : Except Stop (String × List String) :=
  match value, rest with
  | some v, _ => .ok (v, rest)
  | none, next :: rest =>
    match Word.ofArgument next with
    | .plain v => .ok (v, rest)
    | _ => .error .misuse
  | none, [] => .error .misuse

/-- The arguments left are no more than there were. -/
theorem takeValue_length {value : Option String} {rest : List String} {v : String}
    {left : List String} (h : takeValue value rest = .ok (v, left)) :
    left.length ≤ rest.length := by
  unfold takeValue at h
  split at h
  · cases h; exact Nat.le_refl _
  · split at h
    · cases h; exact Nat.le_succ _
    · cases h
  · cases h

/-! ## Commands -/

/-- An option of a command. -/
structure OptionShape where
  name : String
  /-- The option may stand more than once. -/
  repeated : Bool
  /-- A value that the option may have. -/
  admits : String → Bool

/-- What a command takes: how many positional arguments, its options, and its flags. -/
structure Shape where
  positional : Nat
  options : List OptionShape
  flags : List String

/-- What a command has been given, in the order of the arguments. -/
structure Given where
  positional : List String
  options : List (String × String)
  flags : List String

namespace Given

/-- Nothing has been given. -/
def none : Given := ⟨[], [], []⟩

/-- One more positional argument. -/
def addPositional (g : Given) (shape : Shape) (text : String) : Except Stop Given :=
  if g.positional.length < shape.positional then
    .ok { g with positional := g.positional ++ [text] }
  else .error .misuse

/-- One more flag. -/
def addFlag (g : Given) (name : String) : Except Stop Given :=
  if g.flags.contains name then .error .misuse else .ok { g with flags := g.flags ++ [name] }

/-- One more option. -/
def addOption (g : Given) (option : OptionShape) (value : String) : Except Stop Given :=
  let given := g.options.any fun o => o.1 = option.name
  if option.admits value && (option.repeated || !given) then
    .ok { g with options := g.options ++ [(option.name, value)] }
  else .error .misuse

/-- The values of an option. -/
def values (g : Given) (name : String) : List String :=
  (g.options.filter fun o => o.1 = name).map Prod.snd

/-- The number of an option, or its default. -/
def number (g : Given) (name : String) (default : Nat) : Nat :=
  ((g.values name).head?.bind fun v => Text.natural? v.toList).getD default

/-- The fields of an option whose values have an equals sign. -/
def fields (g : Given) (name : String) : List (String × String) :=
  (g.values name).filterMap splitAtEquals?

end Given

/-- Takes the arguments of a command. -/
def takeArguments (shape : Shape) (given : Given) : List String → Except Stop Given
  | [] => .ok given
  | argument :: rest =>
    match Word.ofArgument argument with
    | .divider => rest.foldlM (fun g text => g.addPositional shape text) given
    | .plain text => do takeArguments shape (← given.addPositional shape text) rest
    | .short letters => .error (if letters.head? = some 'h' then .help else .misuse)
    | .long name value =>
      if shape.flags.contains name && value.isNone then do
        takeArguments shape (← given.addFlag name) rest
      else
        match shape.options.find? fun o => o.name = name with
        | some option =>
          match h : takeValue value rest with
          | .ok (v, left) => do
            have : left.length ≤ rest.length := takeValue_length h
            takeArguments shape (← given.addOption option v) left
          | .error stop => .error stop
        | none => .error (if name = "help" ∧ value.isNone then .help else .misuse)
termination_by arguments => arguments.length
decreasing_by all_goals (simp only [List.length_cons]; omega)

/-- A text is a number of 64 bits. -/
def isCount (text : String) : Bool := (Text.natural? text.toList).isSome

/-- The option that gives the fields of a record. -/
def fieldsOption : OptionShape := ⟨"field", true, fun v => (splitAtEquals? v).isSome⟩

/-- The names of the commands. -/
def commandNames : List String :=
  ["get", "list", "search", "insert", "update", "delete", "sql", "backup", "restore", "truncate",
   "status"]

/-- Reads the arguments of a command; what is left out without a default is a misuse. -/
def readCommand (name : String) (arguments : List String) : Except Stop Command := do
  let take := fun positional options flags =>
    takeArguments ⟨positional, options, flags⟩ .none arguments
  match name with
  | "get" => do
    match (← take 2 [] []).positional with
    | [table, id] => .ok (.get table id)
    | _ => .error .misuse
  | "list" => do
    let given ← take 1 [⟨"page", false, isCount⟩, ⟨"limit", false, isCount⟩] []
    match given.positional with
    | [table] => .ok (.list table (given.number "page" 1) (given.number "limit" 20))
    | _ => .error .misuse
  | "search" => do
    let given ← take 2 [⟨"field", true, fun _ => true⟩] []
    match given.positional, given.values "field" with
    | _, [] => .error .misuse
    | [table, term], fields => .ok (.search table term fields)
    | _, _ => .error .misuse
  | "insert" => do
    let given ← take 1 [fieldsOption] []
    match given.positional with
    | [table] => .ok (.insert table (given.fields "field"))
    | _ => .error .misuse
  | "update" => do
    let given ← take 2 [fieldsOption] []
    match given.positional with
    | [table, id] => .ok (.update table id (given.fields "field"))
    | _ => .error .misuse
  | "delete" => do
    let given ← take 2 [] ["dry-run"]
    match given.positional with
    | [table, id] => .ok (.delete table id (given.flags.contains "dry-run"))
    | _ => .error .misuse
  | "sql" => do
    let given ← take 1 [⟨"param", true, fun _ => true⟩] []
    match given.positional with
    | [statement] => .ok (.sql statement (given.values "param"))
    | _ => .error .misuse
  | "backup" => do
    match (← take 1 [] []).positional with
    | [table] => .ok (.backup table)
    | _ => .error .misuse
  | "restore" => do
    match (← take 2 [] []).positional with
    | [table, file] => .ok (.restore table file)
    | _ => .error .misuse
  | "truncate" => do
    match (← take 1 [] []).positional with
    | [table] => .ok (.truncate table)
    | _ => .error .misuse
  | "status" => do
    match (← take 0 [] []).positional with
    | [] => .ok .status
    | _ => .error .misuse
  | _ => .error .misuse

/-- Reads what help is asked for: all commands, or one of them. -/
def readHelp : List String → Stop
  | [] => .help
  | [name] => if ("help" :: commandNames).contains name then .help else .misuse
  | _ => .misuse

/-! ## Requests -/

/-- The format of a name. -/
def formatOfName? : String → Option OutputFormat
  | "yaml" => some .yaml
  | "json" => some .json
  | _ => none

/-- Reads a request after the options that have been given. -/
def readRequest (dataDir : Option String) (format : Option OutputFormat) :
    List String → Except Stop Request
  | [] => .error .misuse
  | argument :: rest =>
    match Word.ofArgument argument with
    | .divider => .error .misuse
    | .short letters =>
      .error (match letters.head? with
        | some 'h' => .help
        | some 'V' => .version
        | _ => .misuse)
    | .plain "help" => .error (readHelp rest)
    | .plain name => do
      .ok ⟨dataDir, format.getD .yaml, ← readCommand name rest⟩
    | .long name value =>
      match name, value with
      | "help", none => .error .help
      | "version", none => .error .version
      | "data-dir", _ =>
        match h : takeValue value rest with
        | .ok (v, left) =>
          have : left.length ≤ rest.length := takeValue_length h
          if dataDir.isSome then .error .misuse else readRequest (some v) format left
        | .error stop => .error stop
      | "format", _ =>
        match h : takeValue value rest with
        | .ok (v, left) =>
          have : left.length ≤ rest.length := takeValue_length h
          match format, formatOfName? v with
          | none, some f => readRequest dataDir (some f) left
          | _, _ => .error .misuse
        | .error stop => .error stop
      | _, _ => .error .misuse
termination_by arguments => arguments.length
decreasing_by all_goals (simp only [List.length_cons]; omega)

/-- The request of the arguments. -/
def Request.ofArguments (arguments : List String) : Except Stop Request :=
  readRequest none none arguments

/-- What the help tells. -/
def helpText : String :=
  "Inspect and edit a data directory\n\n" ++
  "Usage: sitestore [--data-dir <DIR>] [--format yaml|json] <COMMAND>\n\n" ++
  "Commands: " ++ String.intercalate ", " commandNames ++ "\n"

/-- What the version is. -/
def versionText : String := "sitestore 0.3.0\n"

end ContentStore.CommandLine
