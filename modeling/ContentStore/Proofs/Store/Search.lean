import ContentStore.Proofs.Directory
import ContentStore.Proofs.Text.Lowercase
import ContentStore.Store.Query
/-!
# What a search finds

A search gives the records of a table that pass a test, as they stand in the table.  The test
compares lower cases, so it lets a record through that shows the term as it is written, wherever the
term stands steady in the text around it, and this is so in all texts exactly if the term is not
exposed (`search_finds_iff`).  A term with a capital sigma that its neighbours can make a final one,
or keep from being one, is missed in some records that show it (`search_misses`).
-/

namespace ContentStore

open Text (Steady Exposed)

namespace Directory

/-- The text of a field that a search sees. -/
def fieldText? (field : String) (r : Record) : Option String :=
  (Json.Members.get? field r).bind Json.searchText?

/-- A record shows a term as it is written in one of its fields. -/
def ShowsAsWritten (term : String) (fields : List String) (r : Record) : Prop :=
  ∃ field ∈ fields, ∃ text, fieldText? field r = some text ∧ term.toList <:+: text.toList

/-- A record shows a term in one of its fields where the term stands steady. -/
def ShowsSteady (term : String) (fields : List String) (r : Record) : Prop :=
  ∃ field ∈ fields, ∃ text, fieldText? field r = some text ∧
    ∃ front back, text.toList = front ++ term.toList ++ back ∧ Steady front term.toList back

/-- A record is found exactly if the lower case of one of its fields holds that of the term. -/
theorem shows_iff (term : String) (fields : List String) (r : Record) :
    shows (Text.lower term.toList) fields r = true ↔
      ∃ field ∈ fields, ∃ text, fieldText? field r = some text ∧
        Text.lower term.toList <:+: Text.lower text.toList := by
  unfold shows
  rw [List.any_eq_true]
  refine exists_congr fun field => and_congr_right fun _ => ?_
  rw [← fieldText?]
  cases fieldText? field r with
  | none => simp
  | some text => simp [Text.holds_iff]

theorem mem_search_iff {t : Table} {term : String} {fields : List String} {d : Directory}
    {r : Record} : r ∈ d.search t term fields ↔
      r ∈ d.records t ∧ shows (Text.lower term.toList) fields r = true :=
  List.mem_filter

theorem shows_of_steady {term : String} {fields : List String} {r : Record}
    (steady : ShowsSteady term fields r) :
    shows (Text.lower term.toList) fields r = true := by
  obtain ⟨field, listed, text, shown, front, back, split, steady⟩ := steady
  exact (shows_iff term fields r).mpr ⟨field, listed, text, shown, split ▸ steady.isInfix⟩

theorem ShowsAsWritten.steady {term : String} {fields : List String} {r : Record}
    (shown : ShowsAsWritten term fields r) (settled : ¬Exposed term.toList) :
    ShowsSteady term fields r := by
  obtain ⟨field, listed, text, shown, front, back, split⟩ := shown
  exact ⟨field, listed, text, shown, front, back, split.symm,
    Text.steady_of_not_exposed settled front back⟩

/-- A directory in which a table has one record of one field. -/
def single (t : Table) (field text : String) : Directory :=
  Directory.empty.set t.fileName
    (.file (bytesOfEntries .oneLine [.object [(field, .text text)]]))

theorem records_single (t : Table) (field text : String) :
    (single t field text).records t = [[(field, .text text)]] := by
  rw [records, single, tableEntries_set .oneLine, rereadEntries_of_storable]
  · rfl
  · exact List.forall_mem_singleton.mpr ⟨show 1 < Json.nestingLimit by decide, rfl⟩
  · exact List.forall_mem_singleton.mpr ⟨List.pairwise_singleton _ _, trivial, trivial⟩

theorem fieldText?_single {field other text shown : String} :
    fieldText? other [(field, .text text)] = some shown ↔ field = other ∧ text = shown := by
  rw [fieldText?, Json.Members.get?]
  by_cases same : field = other
  · rw [if_pos same, and_iff_right same]
    exact Option.some_inj
  · rw [if_neg same]
    exact iff_of_false (Option.some_ne_none shown).symm fun both => same both.1

/-- A record that shows a term is missed where the lower case of its text does not hold that of the
term. -/
theorem missed_single (t : Table) {term field text : String} {fields : List String}
    (listed : field ∈ fields) (stands : term.toList <:+: text.toList)
    (lost : ¬Text.lower term.toList <:+: Text.lower text.toList) :
    ∃ r ∈ (single t field text).records t, ShowsAsWritten term fields r ∧
      r ∉ (single t field text).search t term fields := by
  have here : [(field, .text text)] ∈ (single t field text).records t :=
    records_single t field text ▸ List.mem_singleton_self _
  refine ⟨_, here, ⟨field, listed, text, fieldText?_single.mpr ⟨rfl, rfl⟩, stands⟩, fun found => ?_⟩
  obtain ⟨other, -, shown, has, holds⟩ := (shows_iff term fields _).mp (mem_search_iff.mp found).2
  obtain ⟨-, rfl⟩ := fieldText?_single.mp has
  exact lost holds

/-- A search gives the records of a table that pass a test, as they stand in the table.  Records in
which the term stands steady pass it, and all that show the term as it is written do, whatever the
table holds, exactly if the term is not exposed. -/
theorem search_finds_iff (t : Table) (term : String) (fields : List String) :
    ∃ found : Record → Bool,
      (∀ d : Directory, d.search t term fields = (d.records t).filter found) ∧
      (∀ r, ShowsSteady term fields r → found r = true) ∧
      ((∀ d : Directory, ∀ r ∈ d.records t, ShowsAsWritten term fields r → found r = true) ↔
        fields = [] ∨ ¬Exposed term.toList) := by
  refine ⟨shows (Text.lower term.toList) fields, fun d => rfl, fun r => shows_of_steady, ?_⟩
  constructor
  · intro all
    by_contra fails
    obtain ⟨nonempty, exposed⟩ := not_or.mp fails
    obtain ⟨field, listed⟩ := List.exists_mem_of_ne_nil fields nonempty
    obtain ⟨cs, stands, lost⟩ := Text.exposed_iff.mp (not_not.mp exposed)
    rw [← String.toList_ofList (l := cs)] at stands lost
    obtain ⟨r, here, shown, missed⟩ := missed_single t listed stands lost
    exact missed (mem_search_iff.mpr ⟨here, all _ r here shown⟩)
  · rintro (rfl | settled) d r - shown
    · obtain ⟨field, listed, -⟩ := shown
      cases listed
    · exact shows_of_steady (shown.steady settled)

/-- Two records that show a term as it is written and are not found: the sigma of the term ends a
word only in the record, and only in the term. -/
theorem search_misses :
    (∃ r ∈ (single .pages "title" "\u0391\u03a3").records .pages,
      ShowsAsWritten "\u03a3" ["title"] r ∧
        r ∉ (single .pages "title" "\u0391\u03a3").search .pages "\u03a3" ["title"]) ∧
    ∃ r ∈ (single .pages "title" "\u0391\u03a3\u0391").records .pages,
      ShowsAsWritten "\u0391\u03a3" ["title"] r ∧
        r ∉ (single .pages "title" "\u0391\u03a3\u0391").search .pages "\u0391\u03a3" ["title"] :=
  ⟨missed_single .pages (List.mem_singleton_self _) (by decide +kernel) (by decide +kernel),
    missed_single .pages (List.mem_singleton_self _) (by decide +kernel) (by decide +kernel)⟩

end Directory

end ContentStore
