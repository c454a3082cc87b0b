import Mathlib.Data.List.Sort
/-!
# Stable sorts

A stable sort of a list by a key has the same items, its keys never descend, and items of one key
stand as they stood (`StableSort`).  A key and an order of keys leave one such list (`unique`), and
a merge sort gives it (`stableSort_mergeSort`).  Of two items it puts first the one that stood first
exactly if their keys allow it (`pair_sublist_iff`), so a stable sort by one key is one by another
key exactly if the two agree on every two items as they stood (`other_key_iff`).
-/

namespace ContentStore

variable {α κ κ' : Type} [DecidableEq κ] [DecidableEq κ']

/-- Items in the order of their keys; items of one key stand as they stood. -/
structure StableSort (key : α → κ) (le : κ → κ → Prop) (items sorted : List α) : Prop where
  perm : sorted.Perm items
  ascending : sorted.Pairwise fun a b => le (key a) (key b)
  stable : ∀ k, (sorted.filter fun a => key a = k) = items.filter fun a => key a = k

/-- Of two different items of a list one stands before the other. -/
theorem pair_sublist_or {a b : α} {items : List α} (differ : a ≠ b) (memA : a ∈ items)
    (memB : b ∈ items) : [a, b].Sublist items ∨ [b, a].Sublist items := by
  induction items with
  | nil => cases memA
  | cons first rest ih =>
    rcases List.mem_cons.mp memA with rfl | laterA
    · have laterB : b ∈ rest := (List.mem_cons.mp memB).resolve_left (Ne.symm differ)
      exact .inl ((List.singleton_sublist.mpr laterB).cons_cons a)
    rcases List.mem_cons.mp memB with rfl | laterB
    · exact .inr ((List.singleton_sublist.mpr laterA).cons_cons b)
    · exact (ih laterA laterB).imp (List.Sublist.cons first) (List.Sublist.cons first)

namespace StableSort

variable {key : α → κ} {le : κ → κ → Prop} {items sorted : List α}

/-- The items that pass a test are sorted as all items are. -/
theorem filter (sorts : StableSort key le items sorted) (test : α → Bool) :
    StableSort key le (items.filter test) (sorted.filter test) where
  perm := sorts.perm.filter test
  ascending := sorts.ascending.filter test
  stable k := by
    rw [List.filter_comm, sorts.stable k, List.filter_comm]

/-- A list whose keys never descend is sorted. -/
theorem self (ascending : items.Pairwise fun a b => le (key a) (key b)) :
    StableSort key le items items :=
  ⟨.refl items, ascending, fun _ => rfl⟩

section Antisymm

variable [Std.Antisymm le]

/-- One list is the stable sort of another. -/
theorem unique {sorted' : List α} (sorts : StableSort key le items sorted)
    (sorts' : StableSort key le items sorted') : sorted = sorted' := by
  obtain ⟨perm, ascending, stable⟩ := sorts
  obtain ⟨perm', ascending', stable'⟩ := sorts'
  replace perm := perm.trans perm'.symm
  replace stable := fun k => (stable k).trans (stable' k).symm
  clear perm' stable'
  induction sorted generalizing sorted' with
  | nil => exact perm.nil_eq
  | cons a rest ih =>
    cases sorted' with
    | nil => exact absurd perm.symm (List.not_perm_nil_cons a rest)
    | cons b rest' =>
      obtain ⟨leA, later⟩ := List.pairwise_cons.mp ascending
      obtain ⟨leB, later'⟩ := List.pairwise_cons.mp ascending'
      have sameKey : key a = key b := by
        rcases List.mem_cons.mp (perm.mem_iff.mpr List.mem_cons_self) with rfl | memB
        · rfl
        rcases List.mem_cons.mp (perm.mem_iff.mp List.mem_cons_self) with rfl | memA
        · rfl
        · exact Std.Antisymm.antisymm _ _ (leA b memB) (leB a memA)
      have heads := stable (key b)
      rw [List.filter_cons_of_pos (by simpa using sameKey), List.filter_cons_of_pos (by simp)]
        at heads
      obtain ⟨rfl, tails⟩ := List.cons.inj heads
      refine congrArg (a :: ·) (ih later later' perm.cons_inv fun k => ?_)
      by_cases here : key a = k
      · exact here ▸ tails
      · have others := stable k
        rwa [List.filter_cons_of_neg (by simpa using here),
          List.filter_cons_of_neg (by simpa using here)] at others

/-- Of two items the first one stays first exactly if its key may stand before the other's. -/
theorem pair_sublist_iff (sorts : StableSort key le items sorted) {a b : α}
    (before : [a, b].Sublist items) : [a, b].Sublist sorted ↔ le (key a) (key b) := by
  refine ⟨fun still => List.pairwise_iff_forall_sublist.mp sorts.ascending still, fun may => ?_⟩
  by_cases sameKey : key a = key b
  · have kept : [a, b].Sublist (items.filter fun c => key c = key b) := by
      simpa [sameKey] using before.filter fun c => key c = key b
    rw [← sorts.stable] at kept
    exact kept.trans List.filter_sublist
  · have memA := sorts.perm.mem_iff.mpr (before.subset List.mem_cons_self)
    have memB := sorts.perm.mem_iff.mpr (before.subset (List.mem_cons_of_mem a List.mem_cons_self))
    refine (pair_sublist_or (fun same => sameKey (congrArg key same)) memA memB).resolve_right ?_
    intro swapped
    have must := List.pairwise_iff_forall_sublist.mp sorts.ascending swapped
    exact sameKey (Std.Antisymm.antisymm _ _ may must)

end Antisymm

/-- A stable sort by one key is one by another exactly if the two agree on any two items. -/
theorem other_key_iff [Std.Antisymm le] {key' : α → κ'} {le' : κ' → κ' → Prop}
    [Std.Antisymm le'] [Std.Total le'] (sorts : StableSort key le items sorted) :
    StableSort key' le' items sorted ↔
      ∀ a b, [a, b].Sublist items → (le' (key' a) (key' b) ↔ le (key a) (key b)) := by
  constructor
  · intro sorts' a b before
    exact (sorts'.pair_sublist_iff before).symm.trans (sorts.pair_sublist_iff before)
  intro agree
  have refl : ∀ k, le' k k := fun k => or_self_iff.mp (Std.Total.total k k)
  refine ⟨sorts.perm, List.pairwise_iff_forall_sublist.mpr ?_, fun k => ?_⟩
  · intro a b still
    by_cases same : a = b
    · exact same ▸ refl _
    have memA := sorts.perm.mem_iff.mp (still.subset List.mem_cons_self)
    have memB := sorts.perm.mem_iff.mp (still.subset (List.mem_cons_of_mem a List.mem_cons_self))
    have may := List.pairwise_iff_forall_sublist.mp sorts.ascending still
    rcases pair_sublist_or same memA memB with before | swapped
    · exact (agree a b before).mpr may
    · by_cases both : le (key b) (key a)
      · have sameKey : key a = key b := Std.Antisymm.antisymm _ _ may both
        have kept : [a, b].Sublist (sorted.filter fun c => key c = key b) := by
          simpa [sameKey] using still.filter fun c => key c = key b
        rw [sorts.stable] at kept
        exact (agree a b (kept.trans List.filter_sublist)).mpr may
      · have not' := mt (agree b a swapped).mp both
        exact (Std.Total.total (key' a) (key' b)).resolve_right not'
  · have level : (items.filter fun c => key' c = k).Pairwise fun a b => le (key a) (key b) := by
      refine List.pairwise_iff_forall_sublist.mpr fun {a b} within => ?_
      have keyOf : ∀ c ∈ [a, b], key' c = k := fun c mem => by
        simpa using (List.mem_filter.mp (within.subset mem)).2
      have sameKey : key' a = key' b :=
        (keyOf a List.mem_cons_self).trans (keyOf b (by simp)).symm
      exact (agree a b (within.trans List.filter_sublist)).mp (sameKey ▸ refl _)
    exact (sorts.filter fun c => key' c = k).unique (self level)

end StableSort

/-- A merge sort is a stable sort. -/
theorem stableSort_mergeSort {key : α → κ} {le : κ → κ → Prop} [Std.Total le] [IsTrans κ le]
    {test : α → α → Bool} (tests : ∀ a b, test a b = true ↔ le (key a) (key b))
    (items : List α) : StableSort key le items (items.mergeSort test) := by
  have trans : ∀ a b c, test a b = true → test b c = true → test a c = true := by
    intro a b c first second
    exact (tests a c).mpr (IsTrans.trans _ _ _ ((tests a b).mp first) ((tests b c).mp second))
  have total : ∀ a b, (test a b || test b a) = true := by
    intro a b
    rw [Bool.or_eq_true, tests, tests]
    exact Std.Total.total (key a) (key b)
  refine ⟨List.mergeSort_perm items test, ?_, fun k => ?_⟩
  · exact (List.pairwise_mergeSort trans total items).imp fun {a b} => (tests a b).mp
  · have level : (items.filter fun a => key a = k).Pairwise fun a b => test a b = true := by
      refine List.pairwise_of_forall_mem_list fun a memA b memB => ?_
      have keyA := (List.mem_filter.mp memA).2
      have keyB := (List.mem_filter.mp memB).2
      rw [decide_eq_true_eq] at keyA keyB
      rw [tests, keyA, keyB]
      exact or_self_iff.mp (Std.Total.total k k)
    have kept := (List.sublist_mergeSort trans total level List.filter_sublist).filter
      fun a => key a = k
    rw [List.filter_filter] at kept
    simp only [Bool.and_self] at kept
    refine (kept.eq_of_length ?_).symm
    exact ((List.mergeSort_perm items test).filter _).length_eq.symm

end ContentStore
