import ContentStore.Proofs.Sql.Grammar
import ContentStore.Proofs.Sql.Readers
/-!
# Readers and the languages that they take

A reader that is followed by others takes the tokens of a language, and takes all of them in front
of what may follow (`Reads`); a reader to the end succeeds on the tokens of a language and on no
others (`Succeeds`).  Both are proved along the composition of the readers.  The readers choose
greedily, so each rule asks that what follows does not begin with what the reader would take in
addition: a comma behind a list, a period behind a name.
-/

namespace ContentStore.Sql

open Computability
open Grammar (mark one other listed)

namespace Parser

variable {α β σ : Type} {p : Parser α} {accept : Token → Bool} {L M Q R Before : Language Token}

/-! ## Readers and languages -/

/-- A reader takes tokens of the language of what it gives, seen in a certain way, and takes all
tokens of the language in front of what may follow them. -/
structure Reads (p : Parser α) (view : α → σ) (L Before : σ → Language Token) : Prop where
  sound {ts : List Token} {k : Nat} {a : α} {c : Cursor} :
    p.run ⟨ts, k⟩ = .ok (a, c) → ∃ taken ∈ L (view a), taken ++ c.rest = ts
  complete {s : σ} {taken rest : List Token} : taken ∈ L s → rest ∈ Before s →
    ∀ k, ∃ a k', view a = s ∧ p.run ⟨taken ++ rest, k⟩ = .ok (a, ⟨rest, k'⟩)

/-- A reader takes the tokens of a language, whatever it gives. -/
abbrev Takes (p : Parser α) (L Before : Language Token) : Prop :=
  Reads p (fun _ => ()) (fun _ => L) (fun _ => Before)

/-- A reader succeeds on the tokens of a language and on no others. -/
def Succeeds (p : Parser α) (Q : Language Token) : Prop :=
  ∀ ts k, (∃ found, p.run ⟨ts, k⟩ = .ok found) ↔ ts ∈ Q

/-- Where a composition succeeds, both of its readers do. -/
theorem run_bind_ok {f : α → Parser β} {c : Cursor} {found : β × Cursor}
    (runs : (p >>= f).run c = .ok found) :
    ∃ a c', p.run c = .ok (a, c') ∧ (f a).run c' = .ok found := by
  rw [StateT.run_bind] at runs
  cases reads : p.run c with
  | error e =>
    rw [reads] at runs
    cases runs
  | ok first =>
    rw [reads] at runs
    exact ⟨first.1, first.2, rfl, runs⟩

theorem run_eatIf_true {c c' : Cursor} (eats : (eatIf accept).run c = .ok (true, c')) :
    ∃ t, accept t = true ∧ c.rest = t :: c'.rest := by
  obtain ⟨ts, k⟩ := c
  cases ts with
  | nil => cases eats
  | cons t rest =>
    rw [run_eatIf] at eats
    split at eats
    · next accepted =>
      cases eats
      exact ⟨t, accepted, rfl⟩
    · cases eats

theorem run_eatIf_false {c c' : Cursor} (eats : (eatIf accept).run c = .ok (false, c')) :
    c' = c := by
  obtain ⟨ts, k⟩ := c
  cases ts with
  | nil =>
    cases eats
    rfl
  | cons t rest =>
    rw [run_eatIf] at eats
    split at eats
    · cases eats
    · cases eats
      rfl

theorem run_eatIf_other {rest : List Token} (others : rest ∈ other accept) (k : Nat) :
    (eatIf accept).run ⟨rest, k⟩ = .ok (false, ⟨rest, k⟩) := by
  cases rest with
  | nil => rfl
  | cons t rest =>
    rw [run_eatIf, Grammar.cons_mem_other.mp others]
    rfl

/-! ## Readers to the end -/

theorem succeeds_pure (a : α) : Succeeds (pure a : Parser α) ⊤ :=
  fun _ _ => iff_of_true ⟨_, rfl⟩ trivial

theorem succeeds_never (fails : ∀ c, ∃ e, p.run c = .error e) : Succeeds p 0 := by
  intro ts k
  obtain ⟨e, fails⟩ := fails ⟨ts, k⟩
  rw [fails]
  exact iff_of_false nofun (Language.notMem_zero ts)

theorem succeeds_throw (e : StoreError) : Succeeds (throw e : Parser α) 0 :=
  succeeds_never fun _ => ⟨e, rfl⟩

theorem Succeeds.map {g : α → β} (succeeds : Succeeds p Q) :
    Succeeds (p >>= fun a => pure (g a)) Q := by
  intro ts k
  rw [← succeeds ts k]
  constructor
  · rintro ⟨found, runs⟩
    obtain ⟨a, c, reads, _⟩ := run_bind_ok runs
    exact ⟨(a, c), reads⟩
  · rintro ⟨⟨a, c⟩, reads⟩
    exact ⟨(g a, c), run_then _ reads⟩

/-- A token is taken wherever it is accepted, so the rest is read without it only before others. -/
theorem succeeds_eatIf {f : Bool → Parser α} (yes : Succeeds (f true) Q)
    (no : Succeeds (f false) R) :
    Succeeds (eatIf accept >>= f) (one accept * Q + R ⊓ other accept) := by
  intro ts k
  cases ts with
  | nil =>
    have none : (eatIf accept >>= f).run ⟨[], k⟩ = (f false).run ⟨[], k⟩ := rfl
    rw [none, no [] k, Language.mem_add, Language.mem_inf]
    simp only [Grammar.nil_not_mem_one_mul, Grammar.nil_mem_other, and_true, false_or]
  | cons t rest =>
    have eats := run_eatIf accept t rest k
    rw [Language.mem_add, Language.mem_inf, Grammar.cons_mem_one_mul, Grammar.cons_mem_other]
    cases accepted : accept t with
    | true =>
      rw [if_pos accepted] at eats
      rw [run_then f eats, yes rest k]
      simp only [true_and, Bool.true_eq_false, and_false, or_false]
    | false =>
      rw [accepted] at eats
      rw [run_then f eats, no (t :: rest) k]
      simp only [Bool.false_eq_true, false_and, and_true, false_or]

/-- A token that must come. -/
theorem succeeds_required {f : Bool → Parser α} (yes : Succeeds (f true) Q)
    (no : Succeeds (f false) 0) : Succeeds (eatIf accept >>= f) (one accept * Q) := by
  have none : (0 : Language Token) ⊓ other accept = 0 := bot_inf_eq _
  rw [← add_zero (one accept * Q), ← none]
  exact succeeds_eatIf yes no

theorem Succeeds.run' (succeeds : Succeeds p Q) (ts : List Token) (k : Nat) :
    (∃ a, p.run' ⟨ts, k⟩ = .ok a) ↔ ts ∈ Q := by
  rw [← succeeds ts k, StateT.run'_eq]
  cases p.run ⟨ts, k⟩ with
  | error e => exact iff_of_false nofun nofun
  | ok found => exact iff_of_true ⟨_, rfl⟩ ⟨_, rfl⟩

/-! ## Composition -/

section Composition

variable {view : α → σ} {K Behind : σ → Language Token}

theorem Reads.succeeds {f : α → Parser β} {P : σ → Language Token}
    (first : Reads p view K Behind) (next : ∀ a, Succeeds (f a) (P (view a)))
    (ends : ∀ s, P s ≤ Behind s) : Succeeds (p >>= f) (⨆ s, K s * P s) := by
  intro ts k
  rw [Language.mem_iSup]
  constructor
  · rintro ⟨found, runs⟩
    obtain ⟨a, c, reads, later⟩ := run_bind_ok runs
    obtain ⟨taken, mem, rfl⟩ := first.sound reads
    exact ⟨view a, Language.append_mem_mul mem ((next a c.rest c.bound).mp ⟨found, later⟩)⟩
  · rintro ⟨s, inBoth⟩
    obtain ⟨taken, mem, rest, memRest, rfl⟩ := Language.mem_mul.mp inBoth
    obtain ⟨a, k', rfl, reads⟩ := first.complete mem (ends s memRest) k
    rw [run_then f reads]
    exact (next a rest k').mpr memRest

theorem Takes.succeeds {f : α → Parser β} (first : Takes p L Before)
    (next : ∀ a, Succeeds (f a) Q) (ends : Q ≤ Before) : Succeeds (p >>= f) (L * Q) := by
  have both := Reads.succeeds first next fun _ => ends
  rwa [iSup_const] at both

theorem Takes.bind {f : α → Parser β} (first : Takes p L Before)
    (next : ∀ a, Takes (f a) M Q) (ends : M * Q ≤ Before) : Takes (p >>= f) (L * M) Q where
  sound runs := by
    obtain ⟨a, c, reads, later⟩ := run_bind_ok runs
    obtain ⟨front, mem, rfl⟩ := first.sound reads
    obtain ⟨back, memBack, whole⟩ := (next a).sound later
    exact ⟨front ++ back, Language.append_mem_mul mem memBack, by rw [List.append_assoc, whole]⟩
  complete inBoth follows k := by
    obtain ⟨front, mem, back, memBack, rfl⟩ := Language.mem_mul.mp inBoth
    obtain ⟨a, k₁, -, reads⟩ :=
      first.complete (s := ()) mem (ends (Language.append_mem_mul memBack follows)) k
    obtain ⟨b, k₂, -, later⟩ := (next a).complete (s := ()) memBack follows k₁
    refine ⟨b, k₂, rfl, ?_⟩
    rw [List.append_assoc, run_then f reads, later]

theorem Takes.map {g : α → β} (takes : Takes p L Before) :
    Takes (p >>= fun a => pure (g a)) L Before where
  sound runs := by
    obtain ⟨a, c, reads, gives⟩ := run_bind_ok runs
    cases gives
    exact takes.sound reads
  complete mem follows k := by
    obtain ⟨a, k', -, reads⟩ := takes.complete (s := ()) mem follows k
    exact ⟨g a, k', rfl, run_then _ reads⟩

/-- A reader takes its languages together, in front of what may follow each. -/
theorem Reads.takes (reads : Reads p view K Behind) (ends : ∀ s, Before ≤ Behind s) :
    Takes p (⨆ s, K s) Before where
  sound runs := by
    obtain ⟨taken, mem, whole⟩ := reads.sound runs
    exact ⟨taken, Language.mem_iSup.mpr ⟨_, mem⟩, whole⟩
  complete mem follows k := by
    obtain ⟨s, mem⟩ := Language.mem_iSup.mp mem
    obtain ⟨a, k', -, runs⟩ := reads.complete mem (ends s follows) k
    exact ⟨a, k', rfl, runs⟩

end Composition

/-! ## Single tokens -/

theorem takes_required {refuse : Parser Unit} (refuses : Succeeds refuse 0) :
    Takes (do unless ← eatIf accept do refuse) (one accept) ⊤ where
  sound {ts k a c} runs := by
    obtain ⟨found, c', eats, gives⟩ := run_bind_ok runs
    cases found with
    | false => exact ((refuses c'.rest c'.bound).mp ⟨(a, c), gives⟩).elim
    | true =>
      cases gives
      obtain ⟨t, accepted, rfl⟩ := run_eatIf_true eats
      exact ⟨[t], ⟨t, accepted, rfl⟩, rfl⟩
  complete {_ taken rest} mem _ k := by
    obtain ⟨t, accepted, rfl⟩ := mem
    have eats := run_eatIf accept t rest k
    rw [if_pos accepted] at eats
    exact ⟨(), k, rfl, run_then _ eats⟩

theorem takes_expectKeyword (name : String) :
    Takes (expectKeyword name) (Grammar.keyword name) ⊤ :=
  takes_required (succeeds_never fun _ => ⟨_, rfl⟩)

theorem takes_expectToken (t : Token) : Takes (expectToken t) (mark t) ⊤ :=
  takes_required (succeeds_never fun _ => ⟨_, rfl⟩)

theorem takes_expectEqual : Takes expectEqual Grammar.equal ⊤ := by
  have either : Grammar.equal = one fun t => t == .equal || t == .doubleEqual := by
    ext ts
    simp only [Grammar.equal, mark, Language.mem_add]
    constructor
    · rintro (⟨t, accepted, rfl⟩ | ⟨t, accepted, rfl⟩)
      · exact ⟨t, Bool.or_eq_true_iff.mpr (.inl accepted), rfl⟩
      · exact ⟨t, Bool.or_eq_true_iff.mpr (.inr accepted), rfl⟩
    · rintro ⟨t, accepted, rfl⟩
      exact (Bool.or_eq_true_iff.mp accepted).imp (fun h => ⟨t, h, rfl⟩) fun h => ⟨t, h, rfl⟩
  rw [either]
  exact takes_required (succeeds_never fun _ => ⟨_, rfl⟩)

/-! ## Lists -/

section List

variable {item : Parser α} (takes : Takes item L Before)
include takes

theorem sound_commaSeparated {fuel : Nat} {ts : List Token} {k : Nat} {as : List α} {c : Cursor}
    (runs : (commaSeparated item fuel).run ⟨ts, k⟩ = .ok (as, c)) :
    ∃ taken ∈ listed L as.length, taken ++ c.rest = ts := by
  induction fuel generalizing ts k as with
  | zero =>
    obtain ⟨a, c₁, reads, gives⟩ := run_bind_ok runs
    cases gives
    rw [List.length_singleton, Grammar.listed_one]
    exact takes.sound reads
  | succ fuel ih =>
    obtain ⟨a, c₁, reads, later⟩ := run_bind_ok runs
    obtain ⟨found, c₂, eats, later⟩ := run_bind_ok later
    cases found with
    | false =>
      cases run_eatIf_false eats
      cases later
      rw [List.length_singleton, Grammar.listed_one]
      exact takes.sound reads
    | true =>
      obtain ⟨as', c₃, readsOthers, gives⟩ := run_bind_ok later
      cases gives
      obtain ⟨front, mem, rfl⟩ := takes.sound reads
      obtain ⟨t, isComma, split⟩ := run_eatIf_true eats
      obtain ⟨back, memBack, whole⟩ := ih readsOthers
      obtain ⟨n, length⟩ : ∃ n, as'.length = n + 1 := by
        cases as' with
        | nil => exact absurd memBack (Language.notMem_zero back)
        | cons b others => exact ⟨others.length, rfl⟩
      rw [length] at memBack
      refine ⟨front ++ t :: back, ?_, ?_⟩
      · rw [List.length_cons, length, Grammar.listed_succ]
        exact Language.append_mem_mul mem (Grammar.cons_mem_one_mul.mpr ⟨isComma, memBack⟩)
      · rw [List.append_assoc, List.cons_append, whole, split]

theorem complete_commaSeparated (comma : mark .comma * ⊤ ≤ Before) {n fuel : Nat}
    {taken rest : List Token} (mem : taken ∈ listed L n) (enough : taken.length ≤ fuel)
    (others : rest ∈ other (· == .comma)) (ends : rest ∈ Before) (k : Nat) :
    ∃ as k', as.length = n ∧
      (commaSeparated item fuel).run ⟨taken ++ rest, k⟩ = .ok (as, ⟨rest, k'⟩) := by
  induction n generalizing fuel taken k with
  | zero => exact absurd mem (Language.notMem_zero taken)
  | succ n ih =>
    cases n with
    | zero =>
      rw [Grammar.listed_one] at mem
      obtain ⟨a, k', -, reads⟩ := takes.complete (s := ()) mem ends k
      refine ⟨[a], k', rfl, ?_⟩
      cases fuel with
      | zero => exact run_then _ reads
      | succ fuel => exact (run_then _ reads).trans (run_then _ (run_eatIf_other others k'))
    | succ n =>
      rw [Grammar.listed_succ] at mem
      obtain ⟨front, memFront, back, memBack, rfl⟩ := Language.mem_mul.mp mem
      cases back with
      | nil => exact absurd memBack Grammar.nil_not_mem_one_mul
      | cons t back =>
        obtain ⟨isComma, memOthers⟩ := Grammar.cons_mem_one_mul.mp memBack
        rw [List.length_append, List.length_cons] at enough
        obtain ⟨fuel, rfl⟩ : ∃ m, fuel = m + 1 := ⟨fuel - 1, by omega⟩
        have behind : t :: (back ++ rest) ∈ Before :=
          comma (Grammar.cons_mem_one_mul.mpr ⟨isComma, trivial⟩)
        obtain ⟨a, k₁, -, reads⟩ := takes.complete (s := ()) memFront behind k
        have enough : back.length ≤ fuel := by omega
        obtain ⟨as, k₂, length, later⟩ := ih memOthers enough k₁
        have eats := run_eatIf (· == .comma) t (back ++ rest) k₁
        rw [if_pos isComma] at eats
        refine ⟨a :: as, k₂, congrArg Nat.succ length, ?_⟩
        rw [List.append_assoc, List.cons_append]
        refine (run_then _ reads).trans ?_
        refine (run_then _ eats).trans ?_
        exact run_then _ later

/-- Items are read as long as commas follow. -/
theorem reads_list (comma : mark .comma * ⊤ ≤ Before) :
    Reads (list item) List.length (listed L) fun _ => other (· == .comma) ⊓ Before where
  sound runs := sound_commaSeparated takes runs
  complete {_ taken rest} mem follows k := by
    have enough : taken.length ≤ (taken ++ rest).length := by
      rw [List.length_append]
      exact Nat.le_add_right _ _
    exact complete_commaSeparated takes comma mem enough follows.1 follows.2 k

end List

/-! ## Names -/

theorem sound_nameParts {first last : String} {ts left : List Token} (quote : Option Char)
    (reads : nameParts first ts = .ok (last, left)) :
    ∃ parts ∈ (mark .period * one Grammar.isWord)∗, parts ++ left = ts ∧
      ∃ q, (Token.word quote first :: parts).getLast? = some (.word q last) := by
  induction first, ts using nameParts.induct generalizing quote with
  | case1 first q part rest ih =>
    obtain ⟨parts, mem, rfl, r, ends⟩ := ih q reads
    refine ⟨.period :: .word q part :: parts, Grammar.cons_mem_parts q part mem, rfl, r, ?_⟩
    rw [List.getLast?_cons_cons, List.getLast?_cons_cons, ends]
  | case2 first rest noWord =>
    rw [nameParts.eq_2 _ _ noWord] at reads
    cases reads
  | case3 first ts noPart noPeriod =>
    rw [nameParts.eq_3 _ _ noPart noPeriod] at reads
    cases reads
    exact ⟨[], Language.nil_mem_kstar _, rfl, quote, rfl⟩

theorem complete_nameParts {parts rest : List Token}
    (mem : parts ∈ (mark .period * one Grammar.isWord)∗) (others : rest ∈ other (· == .period))
    (quote : Option Char) (first : String) :
    ∃ last, nameParts first (parts ++ rest) = .ok (last, rest) ∧
      ∃ q, (Token.word quote first :: parts).getLast? = some (.word q last) := by
  obtain ⟨words, rfl, each⟩ := Language.mem_kstar.mp mem
  induction words generalizing quote first with
  | nil =>
    refine ⟨first, ?_, quote, rfl⟩
    cases rest with
    | nil => rfl
    | cons t rest =>
      have refused := Grammar.cons_mem_other.mp others
      have noPeriod := beq_eq_false_iff_ne.mp refused
      refine nameParts.eq_3 first _ ?_ ?_
      · rintro q part rest' same
        exact noPeriod (List.cons.inj same).1
      · rintro rest' same
        exact noPeriod (List.cons.inj same).1
  | cons part words ih =>
    obtain ⟨isPart, eachOthers⟩ := List.forall_mem_cons.mp each
    obtain ⟨_, ⟨t, isPeriod, rfl⟩, _, ⟨u, isWord, rfl⟩, rfl⟩ := isPart
    cases eq_of_beq isPeriod
    cases u with
    | word q part =>
      obtain ⟨last, reads, r, ends⟩ := ih q part eachOthers (Language.join_mem_kstar eachOthers)
      exact ⟨last, reads, r, ends⟩
    | _ => cases isWord

theorem sound_name {ts : List Token} {k : Nat} {last : String} {c : Cursor}
    (reads : name.run ⟨ts, k⟩ = .ok (last, c)) :
    ∃ taken ∈ Grammar.name, taken ++ c.rest = ts ∧
      ∃ q, taken.getLast? = some (.word q last) := by
  cases ts with
  | nil => cases reads
  | cons t rest =>
    cases t with
    | word quote first =>
      rw [run_name_word] at reads
      cases parts : nameParts first rest with
      | error e =>
        rw [parts] at reads
        cases reads
      | ok found =>
        rw [parts] at reads
        cases reads
        obtain ⟨further, mem, rfl, ends⟩ := sound_nameParts quote parts
        exact ⟨.word quote first :: further, Grammar.cons_mem_one_mul.mpr ⟨rfl, mem⟩, rfl, ends⟩
    | _ => cases reads

theorem complete_name {taken rest : List Token} (mem : taken ∈ Grammar.name)
    (others : rest ∈ other (· == .period)) (k : Nat) :
    ∃ last, name.run ⟨taken ++ rest, k⟩ = .ok (last, ⟨rest, k⟩) ∧
      ∃ q, taken.getLast? = some (.word q last) := by
  obtain ⟨_, ⟨t, isWord, rfl⟩, further, memFurther, rfl⟩ := mem
  cases t with
  | word quote first =>
    obtain ⟨last, parts, ends⟩ := complete_nameParts memFurther others quote first
    refine ⟨last, ?_, ends⟩
    change name.run ⟨.word quote first :: (further ++ rest), k⟩ = _
    rw [run_name_word, parts]
    rfl
  | _ => cases isWord

/-- A name is read to its last word. -/
theorem reads_lastWord :
    Reads name id (fun last => Grammar.nameWith (· == last)) fun _ => other (· == .period) where
  sound reads := by
    obtain ⟨taken, mem, whole, q, ends⟩ := sound_name reads
    exact ⟨taken, ⟨mem, q, _, ends, beq_self_eq_true _⟩, whole⟩
  complete mem others k := by
    obtain ⟨mem, q, last, ends, same⟩ := mem
    obtain ⟨found, reads, r, endsFound⟩ := complete_name mem others k
    cases ends.symm.trans endsFound
    exact ⟨last, k, eq_of_beq same, reads⟩

theorem takes_name : Takes name Grammar.name (other (· == .period)) where
  sound reads := by
    obtain ⟨taken, mem, whole, -⟩ := sound_name reads
    exact ⟨taken, mem, whole⟩
  complete mem others k := by
    obtain ⟨last, reads, -⟩ := complete_name mem others k
    exact ⟨last, k, rfl, reads⟩

/-- A name that must be accepted. -/
theorem succeeds_name {f : String → Parser α} {accept : String → Bool}
    (yes : ∀ n, accept n = true → Succeeds (f n) Q)
    (no : ∀ n, accept n = false → Succeeds (f n) 0) (ends : Q ≤ other (· == .period)) :
    Succeeds (name >>= f) (Grammar.nameWith accept * Q) := by
  have each : ∀ n, Succeeds (f n) (if accept n then Q else 0) := by
    intro n
    split
    · next accepted => exact yes n accepted
    · next refused => exact no n (Bool.eq_false_iff.mpr refused)
  rw [← Grammar.iSup_nameWith_mul]
  refine reads_lastWord.succeeds each fun n => ?_
  split
  · exact ends
  · exact bot_le

/-- The name of a table must be known. -/
theorem succeeds_table {f : Table → Parser α} (next : ∀ t, Succeeds (f t) Q)
    (ends : Q ≤ other (· == .period)) : Succeeds (table >>= f) (Grammar.tableName * Q) := by
  rw [table, bind_assoc]
  refine succeeds_name (fun n known => ?_) (fun n unknown => ?_) ends
  · obtain ⟨t, known⟩ := Option.isSome_iff_exists.mp known
    rw [known]
    exact next t
  · rw [Option.isSome_eq_false_iff, Option.isNone_iff_eq_none] at unknown
    rw [unknown]
    exact succeeds_never fun _ => ⟨_, rfl⟩

end Parser

end ContentStore.Sql
