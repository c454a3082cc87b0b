import ContentStore.Proofs.CommandLine.Run
import ContentStore.Proofs.Directory
/-!
# Backup and restore

A backup is the list of a table's entries, and these leave room for the array around them.  So where
every number in them is read from its text as it is, that is as the nearest double, a table that is
restored from its backup holds the same entries again, whatever bytes its file held before
(`run_restoreBackup`).  The text that the command line prints for a backup reads to the same list,
so the way through a printed text does the same (`run_restorePrinted`).  Once a file has been
written in this way its bytes are those of its entries in the layout of the configuration, and a
further backup and restore writes the same bytes.
-/

namespace ContentStore

open Json (Ordered Settled)

/-! ## Writing a file again -/

namespace Directory

theorem setIn_setIn (name : String) (entry : Entry) (entries : List (String × Entry)) :
    setIn name entry (setIn name entry entries) = setIn name entry entries := by
  induction entries with
  | nil => rw [setIn, setIn, if_pos rfl]
  | cons head rest ih =>
    obtain ⟨n, e⟩ := head
    rw [setIn]
    split
    · rw [setIn, if_pos rfl]
    split
    · rw [setIn, if_pos rfl]
    · next differ notBefore => rw [setIn, if_neg differ, if_neg notBefore, ih]

theorem set_set (name : String) (entry : Entry) (d : Directory) :
    (d.set name entry).set name entry = d.set name entry :=
  congrArg Directory.mk (setIn_setIn name entry d.entries)

/-- The directory after a table has been written with its own entries. -/
def rewritten (config : Config) (t : Table) (d : Directory) : Directory :=
  d.set t.fileName (.file (bytesOfEntries config.layout (d.tableEntries t)))

theorem writeTable_own (config : Config) {t : Table} {d : Directory} (writable : d.Writable t) :
    d.writeTable config t (d.tableEntries t) = .ok (d.rewritten config t) :=
  writeTable_of_writable config _ writable

/-- No table changes when one of them is written with its own entries. -/
theorem tableEntries_rewritten (config : Config) {t : Table} {d : Directory}
    (writable : d.Writable t) (settled : ∀ v ∈ d.tableEntries t, Settled v) (other : Table) :
    (d.rewritten config t).tableEntries other = d.tableEntries other := by
  have written := writeTable_own config writable
  by_cases here : t = other
  · subst here
    rw [tableEntries_writeTable (d.tableEntries_ordered t) written,
      rereadEntries_of_storable (tableEntries_storable settled)]
  · exact tableEntries_writeTable_other here written

theorem writable_rewritten (config : Config) (t : Table) (d : Directory) :
    (d.rewritten config t).Writable t := by
  rw [Writable, rewritten, find?_set, if_pos rfl]
  exact fun h => nomatch h

/-- A table that has been written with its own entries stays as it is when this is done again. -/
theorem rewritten_rewritten (config : Config) {t : Table} {d : Directory}
    (writable : d.Writable t) (settled : ∀ v ∈ d.tableEntries t, Settled v) :
    (d.rewritten config t).rewritten config t = d.rewritten config t := by
  have same := tableEntries_rewritten config writable settled t
  rw [rewritten, same]
  exact set_set _ _ d

/-- The files of the tables are not the configuration file. -/
theorem config_rewritten (config : Config) (t : Table) (d : Directory) :
    (d.rewritten config t).config = d.config := by
  have differ : t.fileName ≠ Config.fileName := by cases t <;> decide
  rw [Directory.config, rewritten, find?_set, if_neg differ]
  rfl

end Directory

/-! ## Through a handle -/

/-- Restores a table from its backup. -/
def Store.restoreBackup (s : Store) (t : Table) : Action Unit := do s.restore t (← Store.load t)

theorem World.run_restoreBackup (s : Store) {t : Table} {w : World}
    (writable : w.directory.Writable t) :
    w.run (s.restoreBackup t) =
      (.ok (), { w with directory := w.directory.rewritten s.config t }) := by
  rw [Store.restoreBackup, run_bind_ok _ (run_load t w), Store.restore, run_save,
    Directory.writeTable_own s.config writable]

/-! ## Through a printed text -/

namespace CommandLine

/-- A backup is printed as JSON and saved, and the table is restored from the saved text. -/
def restorePrinted (format : OutputFormat) (root name file : String) :
    StateM World (Reply × Reply) := do
  let backup : Request := ⟨none, .json, .backup name⟩
  let restore : Request := ⟨none, format, .restore name file⟩
  let printed ← backup.run root (.directory (← get).directory) fun _ => none
  let restored ← restore.run root (.directory (← get).directory) fun path =>
    if path = file then some printed.out else none
  return (printed, restored)

/-- The text of a printed backup is a snapshot of its entries. -/
theorem snapshotOf_printed (file : String) {items : List Json} (ordered : OrderedEntries items)
    (storable : Storable items) :
    snapshotOf file (some (output .json (.array items))) = .ok items := by
  have read : Json.read? (output .json (.array items)) = some (.array items) := by
    rw [output, Json.read?, Json.readWithin_write_newline _ _ ordered.array,
      if_pos (roomy_iff.mp storable.roomy)]
    exact congrArg (Option.map Json.array) (rereadItems?_of_storable storable)
  rw [snapshotOf]
  simp only [read]

theorem run_backup (root : String) {name : String} {t : Table} {w : World} {config : Config}
    (texts : String → Option String) (configured : w.directory.config = .ok config)
    (named : Table.lookup? name = some t) :
    ((⟨none, .json, .backup name⟩ : Request).run root (.directory w.directory) texts).run w =
      (⟨0, output .json (.array (w.directory.tableEntries t)), ""⟩, w) := by
  rw [run_request _ root texts configured, perform, run_named named]
  rfl

theorem run_restore (format : OutputFormat) (root file : String) {name : String} {t : Table}
    {w : World} {config : Config} {texts : String → Option String} {items : List Json}
    {d : Directory}
    (configured : w.directory.config = .ok config) (named : Table.lookup? name = some t)
    (snapshot : snapshotOf file (texts file) = .ok items)
    (written : w.directory.writeTable config t items = .ok d) :
    ∃ out, ((⟨none, format, .restore name file⟩ : Request).run root (.directory w.directory)
      texts).run w = (⟨0, out, ""⟩, { w with directory := d }) := by
  have restored : w.run (Store.restore ⟨root, config⟩ t items) =
      (.ok (), { w with directory := d }) := by
    rw [Store.restore, World.run_save, written]
  have performed : ∃ v, w.run (perform ⟨root, config⟩ texts (.restore name file)) =
      (.ok v, { w with directory := d }) := by
    rw [perform, run_named named, snapshot]
    dsimp only
    rw [World.run_bind_ok _ (run_ofAction_ok restored)]
    exact ⟨_, rfl⟩
  obtain ⟨v, performed⟩ := performed
  rw [run_request _ root texts configured, performed]
  exact ⟨_, rfl⟩

/-- The way through a printed text writes the table with its own entries. -/
theorem run_restorePrinted (format : OutputFormat) (root file : String) {name : String} {t : Table}
    {w : World} {config : Config} (configured : w.directory.config = .ok config)
    (named : Table.lookup? name = some t) (writable : w.directory.Writable t)
    (settled : ∀ v ∈ w.directory.tableEntries t, Settled v) :
    ∃ printed restored, (restorePrinted format root name file).run w =
      ((printed, restored), { w with directory := w.directory.rewritten config t }) ∧
        printed.code = 0 ∧ restored.code = 0 := by
  have twoRuns : (restorePrinted format root name file).run w =
      (let printed := ((⟨none, .json, .backup name⟩ : Request).run root (.directory w.directory)
        fun _ => none).run w
      let restored := ((⟨none, format, .restore name file⟩ : Request).run root
        (.directory printed.2.directory) fun path =>
          if path = file then some printed.1.out else none).run printed.2
      ((printed.1, restored.1), restored.2)) := rfl
  have printed := run_backup root (fun _ => none) configured named
  let texts : String → Option String := fun path =>
    if path = file then some (output .json (.array (w.directory.tableEntries t))) else none
  have snapshot : snapshotOf file (texts file) = .ok (w.directory.tableEntries t) := by
    rw [show texts file = _ from if_pos rfl]
    exact snapshotOf_printed file (w.directory.tableEntries_ordered t)
      (Directory.tableEntries_storable settled)
  obtain ⟨out, restored⟩ := run_restore format root file configured named snapshot
    (Directory.writeTable_own config writable)
  rw [twoRuns, printed]
  dsimp only
  rw [restored]
  exact ⟨_, _, rfl, rfl, rfl⟩

end CommandLine

/-! ## Both ways -/

open CommandLine (OutputFormat restorePrinted)

/-- A table whose numbers are read from their texts as they are, and that is restored from its
backup, through a handle or through a printed text, holds what it held, as every other table does;
and doing so once more changes nothing at all. -/
theorem restore_backup_inverse (s : Store) (t : Table) (w : World)
    (writable : w.directory.Writable t)
    (settled : ∀ v ∈ w.directory.tableEntries t, Settled v) :
    (∃ w', w.run (s.restoreBackup t) = (.ok (), w') ∧
      (∀ other, w'.directory.tableEntries other = w.directory.tableEntries other) ∧
      w'.run (s.restoreBackup t) = (.ok (), w')) ∧
    ∀ (config : Config) (format : OutputFormat) (root name file : String),
      w.directory.config = .ok config → Table.lookup? name = some t →
      ∃ printed restored w', (restorePrinted format root name file).run w =
          ((printed, restored), w') ∧ printed.code = 0 ∧ restored.code = 0 ∧
        (∀ other, w'.directory.tableEntries other = w.directory.tableEntries other) ∧
        ∃ printed restored, (restorePrinted format root name file).run w' =
          ((printed, restored), w') ∧ printed.code = 0 ∧ restored.code = 0 := by
  constructor
  · refine ⟨_, World.run_restoreBackup s writable,
      Directory.tableEntries_rewritten s.config writable settled, ?_⟩
    rw [World.run_restoreBackup s (Directory.writable_rewritten s.config t w.directory)]
    dsimp only
    rw [Directory.rewritten_rewritten s.config writable settled]
  · intro config format root name file configured named
    obtain ⟨printed, restored, run, code, code'⟩ :=
      CommandLine.run_restorePrinted format root file configured named writable settled
    refine ⟨printed, restored, _, run, code, code',
      Directory.tableEntries_rewritten config writable settled, ?_⟩
    obtain ⟨printed', restored', run', codes⟩ :=
      CommandLine.run_restorePrinted format root file
        (w := { w with directory := w.directory.rewritten config t })
        ((Directory.config_rewritten config t w.directory).trans configured) named
        (Directory.writable_rewritten config t w.directory)
        (by rwa [Directory.tableEntries_rewritten config writable settled t])
    rw [Directory.rewritten_rewritten config writable settled] at run'
    exact ⟨printed', restored', run', codes⟩

/-- A file with a repeated key, an escape and a number beyond 64 bits. -/
theorem restore_backup_inverse_odd_file :
    let bytes := "[ \x7b\"a\":1, \"a\":\"\\u0041\"\x7d ,-0.0,18446744073709551616]".toUTF8
    let d := Directory.empty.set Table.pages.fileName (.file bytes)
    let w : World := ⟨d, fun _ => ⟨0, 0⟩, 0, fun _ => 0, 0⟩
    d.Writable .pages ∧ (∀ v ∈ d.tableEntries .pages, Settled v) ∧
    (∃ w', w.run (Store.restoreBackup ⟨"data", .default⟩ .pages) = (.ok (), w') ∧
      (∀ other, w'.directory.tableEntries other = d.tableEntries other) ∧
      w'.run (Store.restoreBackup ⟨"data", .default⟩ .pages) = (.ok (), w')) ∧
    ∃ printed restored w', (restorePrinted .yaml "data" "PAGES" "pages.bak").run w =
        ((printed, restored), w') ∧ printed.code = 0 ∧ restored.code = 0 ∧
      (∀ other, w'.directory.tableEntries other = d.tableEntries other) ∧
      ∃ printed restored, (restorePrinted .yaml "data" "PAGES" "pages.bak").run w' =
        ((printed, restored), w') ∧ printed.code = 0 ∧ restored.code = 0 := by
  intro bytes d w
  have writable : d.Writable .pages := by
    rw [Directory.Writable, Directory.find?_set, if_pos rfl]
    exact fun h => nomatch h
  have settled : ∀ v ∈ d.tableEntries .pages, Settled v := by decide +kernel
  have both := restore_backup_inverse ⟨"data", .default⟩ .pages w writable settled
  exact ⟨writable, settled, both.1,
    both.2 .default .yaml "data" "PAGES" "pages.bak" rfl (by decide)⟩

end ContentStore
