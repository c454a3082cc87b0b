import ContentStore.Json.Printer
import ContentStore.Proofs.Json.Members
import ContentStore.Proofs.Json.Scan
/-!
# What is read of a written value

The tokens of an ordered value drive the reading machine from the state that waits for a value to
the state that has handed this value to the innermost frame, if the value fits under the limit
together with the frames around it; otherwise the machine stops (`foldlM_value`, by induction on
the value).  So a written value is read exactly if it nests within the limit and each of its numbers
is read, and what is read is the value with its numbers as they are read (`readWithin_write`).
-/

namespace ContentStore.Json

open Reading (step supply beginValue)

/-! ## The machine on the tokens of a value -/

theorem foldlM_openArray (limit : Nat) (frames : List Frame) (ts : List Token) :
    (Token.openArray :: ts).foldlM (step limit) (.value frames) =
      if frames.length < limit then ts.foldlM (step limit) (.firstItem frames) else none := by
  rw [List.foldlM_cons, step, beginValue]
  split <;> rfl

theorem foldlM_openObject (limit : Nat) (frames : List Frame) (ts : List Token) :
    (Token.openObject :: ts).foldlM (step limit) (.value frames) =
      if frames.length < limit then ts.foldlM (step limit) (.firstKey frames) else none := by
  rw [List.foldlM_cons, step, beginValue]
  split <;> rfl

/-- A value at the place of the first item of an array is read like one behind a comma. -/
theorem foldlM_firstItem (limit : Nat) (frames : List Frame) (v : Json) (rest : List Token) :
    (tokens v ++ rest).foldlM (step limit) (.firstItem frames) =
      (tokens v ++ rest).foldlM (step limit) (.value (.array [] :: frames)) := by
  cases v with
  | array items => cases items <;> rfl
  | object members => cases members <;> rfl
  | _ => rfl

mutual

theorem foldlM_value (limit : Nat) : ∀ (v : Json) (frames : List Frame) (rest : List Token),
    frames.length ≤ limit → Ordered v →
    (tokens v ++ rest).foldlM (step limit) (.value frames) =
      if frames.length + depth v ≤ limit then rest.foldlM (step limit) (supply v frames) else none
  | .null, frames, rest, room, _ => (if_pos room).symm
  | .bool b, frames, rest, room, _ => (if_pos room).symm
  | .number n, frames, rest, room, _ => (if_pos room).symm
  | .text s, frames, rest, room, _ => (if_pos room).symm
  | .array [], frames, rest, room, _ => by
    rw [tokens, List.cons_append, foldlM_openArray]
    rfl
  | .array (item :: items), frames, rest, room, ordered => by
    obtain ⟨orderedItem, orderedItems⟩ := ordered
    have depthEq : depth (.array (item :: items)) = max (depth item) (depthOfItems items) + 1 := rfl
    rw [tokens, List.cons_append, foldlM_openArray, List.append_assoc, List.append_assoc]
    by_cases opens : frames.length < limit
    · rw [if_pos opens, foldlM_firstItem, foldlM_value limit item (.array [] :: frames) _ opens
        orderedItem, List.length_cons]
      by_cases fits : frames.length + 1 + depth item ≤ limit
      · rw [if_pos fits]
        refine (foldlM_items limit items [item] frames rest opens orderedItems).trans ?_
        exact ite_congr (propext (by omega)) (fun _ => rfl) fun _ => rfl
      · rw [if_neg fits, if_neg (by omega)]
    · rw [if_neg opens, if_neg (by omega)]
  | .object [], frames, rest, room, _ => by
    rw [tokens, List.cons_append, foldlM_openObject]
    rfl
  | .object ((key, value) :: members), frames, rest, room, ordered => by
    obtain ⟨ascend, orderedValue, orderedMembers⟩ := ordered
    have depthEq : depth (.object ((key, value) :: members)) =
      max (depth value) (depthOfMembers members) + 1 := rfl
    rw [tokens, List.cons_append, foldlM_openObject]
    by_cases opens : frames.length < limit
    · have first := foldlM_value limit value (.object [] key :: frames)
        (tokensOfMembers members ++ .closeObject :: rest) opens orderedValue
      rw [if_pos opens, List.cons_append, List.cons_append, List.append_assoc, List.append_assoc]
      refine first.trans ?_
      rw [List.length_cons]
      by_cases fits : frames.length + 1 + depth value ≤ limit
      · rw [if_pos fits]
        refine (foldlM_members limit members [(key, value)] frames rest opens ascend
          orderedMembers).trans ?_
        exact ite_congr (propext (by omega)) (fun _ => rfl) fun _ => rfl
      · rw [if_neg fits, if_neg (by omega)]
    · rw [if_neg opens, if_neg (by omega)]

theorem foldlM_items (limit : Nat) : ∀ (items done : List Json) (frames : List Frame)
    (rest : List Token), frames.length < limit → OrderedItems items →
    (tokensOfItems items ++ (.closeArray :: rest)).foldlM (step limit) (.afterItem done frames) =
      if frames.length + 1 + depthOfItems items ≤ limit then
        rest.foldlM (step limit) (supply (.array (done.reverse ++ items)) frames)
      else none
  | [], done, frames, rest, room, _ => by
    rw [List.append_nil]
    exact (if_pos room).symm
  | item :: items, done, frames, rest, room, ordered => by
    obtain ⟨orderedItem, orderedItems⟩ := ordered
    have depthEq : depthOfItems (item :: items) = max (depth item) (depthOfItems items) := rfl
    have first := foldlM_value limit item (.array done :: frames)
      (tokensOfItems items ++ .closeArray :: rest) room orderedItem
    rw [tokensOfItems, List.cons_append, List.append_assoc]
    refine first.trans ?_
    rw [List.length_cons]
    by_cases fits : frames.length + 1 + depth item ≤ limit
    · rw [if_pos fits]
      refine (foldlM_items limit items (item :: done) frames rest room orderedItems).trans ?_
      rw [List.reverse_cons, List.append_assoc, List.singleton_append]
      exact ite_congr (propext (by omega)) (fun _ => rfl) fun _ => rfl
    · rw [if_neg fits, if_neg (by omega)]

theorem foldlM_members (limit : Nat) : ∀ (members done : Members) (frames : List Frame)
    (rest : List Token), frames.length < limit → KeysAscend (done ++ members) →
    OrderedMembers members →
    (tokensOfMembers members ++ (.closeObject :: rest)).foldlM (step limit)
        (.afterMember done frames) =
      if frames.length + 1 + depthOfMembers members ≤ limit then
        rest.foldlM (step limit) (supply (.object (done ++ members)) frames)
      else none
  | [], done, frames, rest, room, _, _ => by
    rw [List.append_nil]
    exact (if_pos room).symm
  | (key, value) :: members, done, frames, rest, room, ascend, ordered => by
    obtain ⟨orderedValue, orderedMembers⟩ := ordered
    have depthEq : depthOfMembers ((key, value) :: members) =
      max (depth value) (depthOfMembers members) := rfl
    have greatest : Members.set key value done = done ++ [(key, value)] :=
      Members.set_of_greater fun m mem =>
        (List.pairwise_append.mp ascend).2.2 m mem (key, value) List.mem_cons_self
    have first := foldlM_value limit value (.object done key :: frames)
      (tokensOfMembers members ++ .closeObject :: rest) room orderedValue
    rw [tokensOfMembers, List.cons_append, List.cons_append, List.cons_append, List.append_assoc]
    refine first.trans ?_
    rw [List.length_cons]
    by_cases fits : frames.length + 1 + depth value ≤ limit
    · rw [if_pos fits, supply, greatest,
        foldlM_members limit members (done ++ [(key, value)]) frames rest room
          (by rwa [List.append_assoc]) orderedMembers, List.append_assoc, List.singleton_append]
      exact ite_congr (propext (by omega)) (fun _ => rfl) fun _ => rfl
    · rw [if_neg fits, if_neg (by omega)]

end

/-! ## Whole texts -/

theorem ofTokens?_tokens (limit : Nat) {v : Json} (ordered : Ordered v) :
    ofTokens? limit (tokens v) = if depth v ≤ limit then some v else none := by
  have run := foldlM_value limit v [] [] (Nat.zero_le _) ordered
  rw [List.append_nil, List.length_nil, Nat.zero_add] at run
  rw [ofTokens?, run]
  split <;> rfl

theorem ofTokens?_reread (limit : Nat) {v : Json} (ordered : Ordered v) :
    ((reread? v).map tokens).bind (ofTokens? limit) =
      if depth v ≤ limit then reread? v else none := by
  cases read : reread? v with
  | none => exact (ite_self none).symm
  | some v' =>
    rw [Option.map_some, Option.bind_some, ofTokens?_tokens limit (ordered_reread read ordered),
      depth_reread read]

/-- A written value is read, number by number, exactly if it nests within the limit. -/
theorem readWithin_write (limit : Nat) (layout : Layout) {v : Json} (ordered : Ordered v) :
    readWithin limit (write layout v) = if depth v ≤ limit then reread? v else none := by
  rw [readWithin, scan?_write, ofTokens?_reread limit ordered]

/-- A line feed behind a written value changes nothing. -/
theorem readWithin_write_newline (limit : Nat) (layout : Layout) {v : Json}
    (ordered : Ordered v) :
    readWithin limit (write layout v ++ "\n") = if depth v ≤ limit then reread? v else none := by
  rw [readWithin, scan?_write_newline, ofTokens?_reread limit ordered]

end ContentStore.Json
