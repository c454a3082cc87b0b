import ContentStore.Proofs.Json.Members
import ContentStore.Json.Reader
/-!
# What a reader can give

A value that is read from a text is ordered and nests within the limit (`readWithin_fits`).  Both
are carried through the reading machine by one invariant on its states: every value that waits in a
frame is ordered and fits under the limit together with the frames around it (`FramesFit`).  A step
keeps the invariant (`step_fits`), and so does a run over any tokens (`foldlM_fits`).
-/

namespace ContentStore.Json

/-- A value that stands `level` arrays and objects deep is ordered and nests within the limit. -/
def FitsAt (limit level : Nat) (v : Json) : Prop := Ordered v ∧ level + depth v ≤ limit

theorem fitsAt_scalar {limit level : Nat} {v : Json} (ordered : Ordered v) (scalar : depth v = 0)
    (room : level ≤ limit) : FitsAt limit level v :=
  ⟨ordered, by rw [scalar]; exact room⟩

theorem fitsAt_array {limit level : Nat} {items : List Json} (room : level < limit)
    (fit : ∀ v ∈ items, FitsAt limit (level + 1) v) : FitsAt limit level (.array items) := by
  refine ⟨orderedItems_iff.mpr fun v mem => (fit v mem).1, ?_⟩
  have deepest : depthOfItems items ≤ limit - (level + 1) :=
    depthOfItems_le_iff.mpr fun v mem => Nat.le_sub_of_add_le' (fit v mem).2
  simp only [depth]
  omega

theorem fitsAt_object {limit level : Nat} {members : Members} (room : level < limit)
    (ascend : KeysAscend members) (fit : ∀ m ∈ members, FitsAt limit (level + 1) m.2) :
    FitsAt limit level (.object members) := by
  refine ⟨⟨ascend, orderedMembers_iff.mpr fun m mem => (fit m mem).1⟩, ?_⟩
  have deepest : depthOfMembers members ≤ limit - (level + 1) :=
    depthOfMembers_le_iff.mpr fun m mem => Nat.le_sub_of_add_le' (fit m mem).2
  simp only [depth]
  omega

/-! ## The invariant of the machine -/

/-- The values that wait in one frame fit behind the frames around it. -/
def Frame.Fits (limit level : Nat) : Frame → Prop
  | .array items => ∀ v ∈ items, FitsAt limit (level + 1) v
  | .object members _ => KeysAscend members ∧ ∀ m ∈ members, FitsAt limit (level + 1) m.2

/-- The frames open within the limit, and the values that wait in them fit. -/
def FramesFit (limit : Nat) : List Frame → Prop
  | [] => True
  | frame :: frames =>
    frames.length < limit ∧ frame.Fits limit frames.length ∧ FramesFit limit frames

theorem FramesFit.room {limit : Nat} {frames : List Frame} (fit : FramesFit limit frames) :
    frames.length ≤ limit := by
  cases frames with
  | nil => exact Nat.zero_le _
  | cons frame frames => exact fit.1

namespace Reading

/-- The values that a reading has gathered are ordered and fit under the limit. -/
def Fits (limit : Nat) : Reading → Prop
  | value frames => FramesFit limit frames
  | firstItem frames => FramesFit limit (.array [] :: frames)
  | afterItem items frames => FramesFit limit (.array items :: frames)
  | firstKey frames => FramesFit limit (.object [] "" :: frames)
  | key members frames => FramesFit limit (.object members "" :: frames)
  | colon members k frames => FramesFit limit (.object members k :: frames)
  | afterMember members frames => FramesFit limit (.object members "" :: frames)
  | done v => FitsAt limit 0 v

theorem supply_fits {limit : Nat} {v : Json} {frames : List Frame}
    (fitsValue : FitsAt limit frames.length v) (fit : FramesFit limit frames) :
    (supply v frames).Fits limit := by
  cases frames with
  | nil => exact fitsValue
  | cons frame frames =>
    obtain ⟨room, fitsFrame, fitsRest⟩ := fit
    cases frame with
    | array items => exact ⟨room, List.forall_mem_cons.mpr ⟨fitsValue, fitsFrame⟩, fitsRest⟩
    | object members k =>
      obtain ⟨ascend, fitsMembers⟩ := fitsFrame
      refine ⟨room, ⟨ascend.set k v, fun m mem => ?_⟩, fitsRest⟩
      rcases Members.mem_set mem with rfl | old
      · exact fitsValue
      · exact fitsMembers m old

theorem beginValue_fits {limit : Nat} {frames : List Frame} {token : Token} {next : Reading}
    (fit : FramesFit limit frames) (begins : beginValue limit frames token = some next) :
    next.Fits limit := by
  unfold beginValue at begins
  split at begins
  case h_5 =>
    split at begins
    · next room =>
      cases begins
      exact ⟨room, fun _ mem => absurd mem List.not_mem_nil, fit⟩
    · cases begins
  case h_6 =>
    split at begins
    · next room =>
      cases begins
      exact ⟨room, ⟨keysAscend_nil, fun _ mem => absurd mem List.not_mem_nil⟩, fit⟩
    · cases begins
  case h_7 => cases begins
  all_goals
    cases begins
    exact supply_fits (fitsAt_scalar trivial rfl fit.room) fit

/-- A step keeps the invariant. -/
theorem step_fits {limit : Nat} {state next : Reading} {token : Token}
    (fits : state.Fits limit) (moves : step limit state token = some next) : next.Fits limit := by
  unfold step at moves
  split at moves
  case h_1 => exact beginValue_fits fits moves
  case h_2 =>
    cases moves
    exact supply_fits (fitsAt_array fits.1 fits.2.1) fits.2.2
  case h_3 => exact beginValue_fits fits moves
  case h_5 =>
    cases moves
    refine supply_fits (fitsAt_array fits.1 fun v mem => ?_) fits.2.2
    exact fits.2.1 v (List.mem_reverse.mp mem)
  case h_6 =>
    cases moves
    exact supply_fits (fitsAt_object fits.1 fits.2.1.1 fits.2.1.2) fits.2.2
  case h_11 =>
    cases moves
    exact supply_fits (fitsAt_object fits.1 fits.2.1.1 fits.2.1.2) fits.2.2
  case h_12 => cases moves
  all_goals
    cases moves
    exact fits

/-- A run over any tokens keeps the invariant. -/
theorem foldlM_fits {limit : Nat} {tokens : List Token} {state final : Reading}
    (fits : state.Fits limit) (run : tokens.foldlM (step limit) state = some final) :
    final.Fits limit := by
  induction tokens generalizing state with
  | nil =>
    cases run
    exact fits
  | cons token rest ih =>
    rw [List.foldlM_cons] at run
    obtain ⟨next, moves, run⟩ := Option.bind_eq_some_iff.mp run
    exact ih (step_fits fits moves) run

end Reading

/-! ## Values that have been read -/

theorem ofTokens?_fits {limit : Nat} {tokens : List Token} {v : Json}
    (read : ofTokens? limit tokens = some v) : FitsAt limit 0 v := by
  obtain ⟨final, run, value⟩ := Option.bind_eq_some_iff.mp read
  have start : (Reading.value []).Fits limit := trivial
  have fits : final.Fits limit := Reading.foldlM_fits start run
  cases final with
  | done v' =>
    cases value
    exact fits
  | _ => cases value

/-- A value that is read from a text is ordered and nests within the limit. -/
theorem readWithin_fits {limit : Nat} {text : String} {v : Json}
    (read : readWithin limit text = some v) : Ordered v ∧ depth v ≤ limit := by
  obtain ⟨tokens, -, read⟩ := Option.bind_eq_some_iff.mp read
  have fits := ofTokens?_fits read
  exact ⟨fits.1, by simpa using fits.2⟩

end ContentStore.Json
