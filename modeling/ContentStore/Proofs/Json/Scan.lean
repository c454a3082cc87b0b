import ContentStore.Proofs.Json.Reread
/-!
# Scanning what is written

Every token takes a character, so the fuel of `scanWithin` never shows: `scan?` skips a blank or
reads a token and goes on with the rest (`scan?_space`, `scan?_token`).  A value that is written in
either layout scans to its tokens, each number as it is read from its text (`spells_compact`,
`spells_indented`), so it scans to the tokens of the value as it is read (`scan?_write`).  A piece
of text that scans to given tokens whatever follows `Spells` them.
-/

namespace ContentStore.Json

open Text (isDigit spanDigits digitsValue hexValue?)

namespace Token

/-! ## Every token takes a character -/

theorem readText?_of_cons {c : Char} {rest text after : List Char}
    (h : (do
      let (cs, after) ← readText? rest
      some (c :: cs, after)) = some (text, after)) : ∃ cs, readText? rest = some (cs, after) := by
  obtain ⟨⟨cs, after'⟩, read, same⟩ := Option.bind_eq_some_iff.mp h
  cases same
  exact ⟨cs, read⟩

theorem readText?_length {cs text after : List Char} (h : readText? cs = some (text, after)) :
    after.length < cs.length := by
  induction cs using readText?.induct generalizing text after with
  | case1 => simp [readText?] at h
  | case2 rest =>
    rw [readText?] at h
    cases h
    simp
  | case3 a b c d rest ihLow ih =>
    rw [readText?] at h
    obtain ⟨unit, -, h⟩ := Option.bind_eq_some_iff.mp h
    split at h
    · split at h
      · next e f g k rest =>
        obtain ⟨low, -, h⟩ := Option.bind_eq_some_iff.mp h
        split at h
        · obtain ⟨_, read⟩ := readText?_of_cons h
          have := ihLow read
          simp only [List.length_cons]
          omega
        · cases h
      · cases h
    · split at h
      · cases h
      · obtain ⟨_, read⟩ := readText?_of_cons h
        have := ih read
        simp only [List.length_cons]
        omega
  | case4 letter rest noUnit ih =>
    rw [readText?.eq_4 letter rest noUnit] at h
    obtain ⟨c, -, h⟩ := Option.bind_eq_some_iff.mp h
    obtain ⟨_, read⟩ := readText?_of_cons h
    have := ih read
    simp only [List.length_cons]
    omega
  | case5 c rest quote unit escape bad =>
    rw [readText?.eq_5 c rest quote unit escape, if_pos bad] at h
    cases h
  | case6 c rest quote unit escape good ih =>
    rw [readText?.eq_5 c rest quote unit escape, if_neg good] at h
    obtain ⟨_, read⟩ := readText?_of_cons h
    exact Nat.lt_succ_of_lt (ih read)

theorem spanDigits_length (cs : List Char) :
    (spanDigits cs).1.length + (spanDigits cs).2.length = cs.length := by
  rw [← List.length_append, Text.spanDigits_append]

theorem readFraction?_length {cs digits after : List Char}
    (h : readFraction? cs = some (digits, after)) : after.length ≤ cs.length := by
  unfold readFraction? at h
  split at h
  · next rest =>
    have := spanDigits_length rest
    dsimp only at h
    split at h
    · cases h
    · cases h
      simp only [List.length_cons]
      omega
  · cases h
    exact Nat.le_refl _

theorem readExponent?_length {cs after : List Char} {exponent : Option Int}
    (h : readExponent? cs = some (exponent, after)) : after.length ≤ cs.length := by
  unfold readExponent? at h
  split at h
  · next c rest =>
    split at h
    · split at h
      next negative body sign =>
        have bodyLength : body.length ≤ rest.length := by
          split at sign <;> cases sign <;> simp
        have := spanDigits_length body
        dsimp only at h
        split at h
        · cases h
        · cases h
          simp only [List.length_cons]
          omega
    · cases h
      exact Nat.le_refl _
  · cases h
    exact Nat.le_refl _

theorem readNumber?_length {cs after : List Char} {n : Number}
    (h : readNumber? cs = some (n, after)) : after.length < cs.length := by
  unfold readNumber? at h
  split at h
  next negative unsigned sign =>
    have unsignedLength : unsigned.length ≤ cs.length := by
      split at sign <;> cases sign <;> simp
    have spanned := spanDigits_length unsigned
    dsimp only at h
    split at h
    · cases h
    · next lead =>
      obtain ⟨⟨fraction, afterFraction⟩, readFraction, h⟩ := Option.bind_eq_some_iff.mp h
      obtain ⟨⟨exponent, afterExponent⟩, readExponent, h⟩ := Option.bind_eq_some_iff.mp h
      obtain ⟨_, _, h⟩ := Option.bind_eq_some_iff.mp h
      cases h
      have : afterFraction.length ≤ _ := readFraction?_length readFraction
      have : afterExponent.length ≤ afterFraction.length := readExponent?_length readExponent
      have : (spanDigits unsigned).1.length ≠ 0 := by
        intro none
        exact lead (.inl (List.isEmpty_iff.mpr (List.length_eq_zero_iff.mp none)))
      dsimp only
      omega

theorem read?_length {cs after : List Char} {t : Token} (h : read? cs = some (t, after)) :
    after.length < cs.length := by
  unfold read? at h
  split at h
  case h_10 rest =>
    obtain ⟨⟨text, after'⟩, read, same⟩ := Option.map_eq_some_iff.mp h
    cases same
    exact Nat.lt_succ_of_lt (readText?_length read)
  case h_11 =>
    obtain ⟨⟨n, after'⟩, read, same⟩ := Option.map_eq_some_iff.mp h
    cases same
    exact readNumber?_length read
  all_goals
    cases h
    simp only [List.length_cons]
    omega

/-! ## Scanning without fuel -/

/-- Fuel beyond the length of the text changes nothing. -/
theorem scanWithin_eq {fuel fuel' : Nat} {cs : List Char} (enough : cs.length ≤ fuel)
    (enough' : cs.length ≤ fuel') : scanWithin fuel cs = scanWithin fuel' cs := by
  induction fuel generalizing cs fuel' with
  | zero =>
    rw [List.length_eq_zero_iff.mp (Nat.le_zero.mp enough)]
    cases fuel' <;> rfl
  | succ fuel ih =>
    cases cs with
    | nil => cases fuel' <;> rfl
    | cons c rest =>
      simp only [List.length_cons] at enough enough'
      obtain ⟨fuel', rfl⟩ := Nat.exists_eq_succ_of_ne_zero (show fuel' ≠ 0 by omega)
      unfold scanWithin
      split
      · exact ih (by omega) (by omega)
      · cases read : read? (c :: rest) with
        | none => rfl
        | some found =>
          obtain ⟨t, after⟩ := found
          have shorter := read?_length read
          simp only [List.length_cons] at shorter
          simp only [Option.bind_eq_bind, Option.bind_some]
          have same : scanWithin fuel after = scanWithin fuel' after := ih (by omega) (by omega)
          rw [same]

@[simp] theorem scan?_nil : scan? [] = some [] := rfl

/-- A blank is skipped. -/
theorem scan?_space {c : Char} (cs : List Char) (space : isSpace c = true) :
    scan? (c :: cs) = scan? cs := by
  rw [scan?, List.length_cons, scanWithin, if_pos space]
  rfl

/-- A token is read, and scanning goes on behind it. -/
theorem scan?_token {c : Char} {cs after : List Char} {t : Token} (dark : isSpace c = false)
    (read : read? (c :: cs) = some (t, after)) :
    scan? (c :: cs) = (scan? after).map fun ts => t :: ts := by
  have shorter := read?_length read
  simp only [List.length_cons] at shorter
  rw [scan?, List.length_cons, scanWithin, if_neg (by simp [dark]), read]
  simp only [Option.bind_eq_bind, Option.bind_some]
  have enough : scanWithin cs.length after = scanWithin after.length after :=
    scanWithin_eq (by omega) (Nat.le_refl _)
  rw [enough]
  exact Option.map_eq_bind.symm

/-- Where no token is read, nothing is scanned. -/
theorem scan?_unread {c : Char} {cs : List Char} (dark : isSpace c = false)
    (unread : read? (c :: cs) = none) : scan? (c :: cs) = none := by
  rw [scan?, List.length_cons, scanWithin, if_neg (by simp [dark]), unread]
  rfl

/-! ## Texts -/

theorem hexValue?_digitChar : ∀ n < 16, hexValue? n.digitChar = some n := by decide

theorem hexValue?_hexDigit (n : Nat) : hexValue? (hexDigit n) = some (n % 16) :=
  hexValue?_digitChar _ (Nat.mod_lt _ (by decide))

/-- The four digits that are written for a control character. -/
theorem unit?_control {n : Nat} (h : n < 0x20) :
    unit? '0' '0' (hexDigit (n / 16)) (hexDigit n) = some n := by
  have zero : hexValue? '0' = some 0 := by decide
  have value : ((0 * 16 + 0) * 16 + n / 16 % 16) * 16 + n % 16 = n := by omega
  simp only [unit?, zero, hexValue?_hexDigit, Option.bind_eq_bind, Option.bind_some, value]

/-- Reading undoes the escape of a character. -/
theorem readText?_escape (c : Char) (rest : List Char) :
    readText? (escape c ++ rest) = (readText? rest).map fun (cs, after) => (c :: cs, after) := by
  have goOn : ∀ d : Char, (do
      let (cs, after) ← readText? rest
      some (d :: cs, after)) = (readText? rest).map fun (cs, after) => (d :: cs, after) := by
    intro d
    rw [Option.map_eq_bind]
    rfl
  unfold escape
  split
  · next h => subst h; exact goOn '"'
  split
  · next h => subst h; exact goOn '\\'
  split
  · next h => subst h; exact goOn '\n'
  split
  · next h => subst h; exact goOn '\r'
  split
  · next h => subst h; exact goOn '\t'
  split
  · next h => subst h; exact goOn '\x08'
  split
  · next h => subst h; exact goOn '\x0c'
  split
  · next control =>
    simp only [List.cons_append, List.nil_append]
    rw [readText?, unit?_control control]
    have below : ¬(0xD800 ≤ c.toNat ∧ c.toNat < 0xDC00) := by omega
    have below' : ¬(0xDC00 ≤ c.toNat ∧ c.toNat < 0xE000) := by omega
    simp only [Option.bind_eq_bind, Option.bind_some, below, below', if_false, Char.ofNat_toNat]
    exact goOn c
  · next quote backslash _ _ _ _ _ plain =>
    have allowed : ¬(c.toNat < 0x20 ∨ c = '\\') := by simp [plain, backslash]
    rw [List.singleton_append, readText?.eq_5 c rest quote (fun _ _ _ _ _ h => absurd h backslash)
      (fun _ _ h => absurd h backslash), if_neg allowed]
    exact goOn c

/-- A text in quotes is read to its closing quote. -/
theorem readText?_escaped (cs rest : List Char) :
    readText? (cs.flatMap escape ++ '"' :: rest) = some (cs, rest) := by
  induction cs with
  | nil => rw [List.flatMap_nil, List.nil_append, readText?]
  | cons c cs ih => rw [List.flatMap_cons, List.append_assoc, readText?_escape, ih]; rfl

theorem read?_quote (s : String) (rest : List Char) :
    read? (quote s ++ rest) = some (.text s, rest) := by
  rw [quote, List.cons_append, List.cons_append, List.append_assoc, List.singleton_append, read?,
    readText?_escaped, Option.map_some]
  dsimp only
  rw [String.ofList_toList]

/-! ## Numbers -/

/-- A digit or a minus sign begins a number. -/
theorem read?_of_number {c : Char} {cs : List Char} (number : isDigit c = true ∨ c = '-') :
    read? (c :: cs) = (readNumber? (c :: cs)).map fun (n, after) => (.number n, after) := by
  have other : ∀ d : Char, isDigit d = false → d ≠ '-' → c ≠ d := by
    rintro d digit minus rfl
    rcases number with h | h
    · rw [digit] at h
      cases h
    · exact minus h
  have head : ∀ {d : Char} {ds : List Char}, isDigit d = false → d ≠ '-' → c :: cs = d :: ds →
      False := fun digit minus same => other _ digit minus (List.cons.inj same).1
  refine read?.eq_11 (c :: cs) ?_ ?_ ?_ ?_ ?_ ?_ ?_ ?_ ?_ ?_ <;>
    exact fun _ => head (by decide) (by decide)

theorem read?_numberText (n : Number) {rest : List Char} (stop : NumberEnds rest) :
    read? (numberText n ++ rest) = n.reread?.map fun m => (.number m, rest) := by
  obtain ⟨c, cs, text, number⟩ := numberText_head n
  have reads := readNumber?_numberText n stop
  rw [text, List.cons_append] at reads ⊢
  rw [read?_of_number number, reads, Option.map_map]
  rfl

/-- A token as it is read from its text. -/
def reread? : Token → Option Token
  | .number n => n.reread?.map .number
  | t => some t

/-- Tokens as they are read from their texts. -/
def rereadAll? (ts : List Token) : Option (List Token) := ts.mapM reread?

theorem rereadAll?_cons (t : Token) (ts : List Token) :
    rereadAll? (t :: ts) = (reread? t).bind fun u => (rereadAll? ts).map (u :: ·) := by
  rw [rereadAll?, rereadAll?, List.mapM_cons]
  cases reread? t with
  | none => rfl
  | some u => cases ts.mapM reread? <;> rfl

theorem rereadAll?_append (ts us : List Token) :
    rereadAll? (ts ++ us) = (rereadAll? ts).bind fun vs => (rereadAll? us).map (vs ++ ·) := by
  rw [rereadAll?, rereadAll?, rereadAll?, List.mapM_append]
  cases ts.mapM reread? with
  | none => rfl
  | some vs => cases us.mapM reread? <;> rfl

end Token

/-! ## The tokens of a value -/

mutual

/-- The tokens of a value in either layout. -/
def tokens : Json → List Token
  | .null => [.null]
  | .bool b => [.bool b]
  | .number n => [.number n]
  | .text s => [.text s]
  | .array [] => [.openArray, .closeArray]
  | .array (item :: rest) => .openArray :: (tokens item ++ (tokensOfItems rest ++ [.closeArray]))
  | .object [] => [.openObject, .closeObject]
  | .object ((key, value) :: rest) =>
    .openObject :: .text key :: .colon :: (tokens value ++ (tokensOfMembers rest ++ [.closeObject]))

/-- The tokens of the items after the first. -/
def tokensOfItems : List Json → List Token
  | [] => []
  | item :: rest => .comma :: (tokens item ++ tokensOfItems rest)

/-- The tokens of the members after the first. -/
def tokensOfMembers : List (String × Json) → List Token
  | [] => []
  | (key, value) :: rest =>
    .comma :: .text key :: .colon :: (tokens value ++ tokensOfMembers rest)

end

/-! ## Pieces of text -/

/-- The text scans to the tokens as they are read, whatever follows that does not go on with a
number. -/
def Spells (text : List Char) (ts : List Token) : Prop :=
  ∀ rest, NumberEnds rest → Token.scan? (text ++ rest) =
    (Token.rereadAll? ts).bind fun us => (Token.scan? rest).map (us ++ ·)

/-- The text may also stand behind a number. -/
structure SpellsBehind (text : List Char) (ts : List Token) : Prop where
  spells : Spells text ts
  ends : ∀ rest, NumberEnds rest → NumberEnds (text ++ rest)

/-- The character is a token by itself. -/
structure IsMark (c : Char) (t : Token) : Prop where
  stays : t.reread? = some t
  dark : Token.isSpace c = false
  reads : ∀ rest, Token.read? (c :: rest) = some (t, rest)
  digit : isDigit c = false
  point : c ≠ '.'
  lower : c ≠ 'e'
  upper : c ≠ 'E'

theorem isMark_comma : IsMark ',' .comma :=
  ⟨rfl, rfl, fun _ => rfl, rfl, by decide, by decide, by decide⟩

theorem isMark_colon : IsMark ':' .colon :=
  ⟨rfl, rfl, fun _ => rfl, rfl, by decide, by decide, by decide⟩

theorem isMark_openArray : IsMark '[' .openArray :=
  ⟨rfl, rfl, fun _ => rfl, rfl, by decide, by decide, by decide⟩

theorem isMark_closeArray : IsMark ']' .closeArray :=
  ⟨rfl, rfl, fun _ => rfl, rfl, by decide, by decide, by decide⟩

theorem isMark_openObject : IsMark '{' .openObject :=
  ⟨rfl, rfl, fun _ => rfl, rfl, by decide, by decide, by decide⟩

theorem isMark_closeObject : IsMark '}' .closeObject :=
  ⟨rfl, rfl, fun _ => rfl, rfl, by decide, by decide, by decide⟩

theorem spellsBehind_nil : SpellsBehind [] [] := by
  refine ⟨fun rest _ => ?_, fun _ stop => stop⟩
  exact Option.map_id'.symm

theorem Spells.append {a b : List Char} {ts us : List Token} (first : Spells a ts)
    (second : SpellsBehind b us) : Spells (a ++ b) (ts ++ us) := by
  intro rest stop
  rw [List.append_assoc, first _ (second.ends rest stop), second.spells rest stop,
    Token.rereadAll?_append]
  cases Token.rereadAll? ts with
  | none => rfl
  | some ts' =>
    cases Token.rereadAll? us with
    | none => rfl
    | some us' =>
      simp only [Option.bind_some, Option.map_some, Option.map_map]
      congr 1
      funext tail
      exact (List.append_assoc ts' us' tail).symm

/-- A token that is read at the front of a text is spelled in front of what follows. -/
theorem scan?_spelled {t : Token} {ts : List Token} {rest : List Char}
    {scanned : Option (List Token)} (stays : t.reread? = some t)
    (spelled : scanned = (Token.rereadAll? ts).bind fun us => (Token.scan? rest).map (us ++ ·)) :
    scanned.map (t :: ·) =
      (Token.rereadAll? (t :: ts)).bind fun us => (Token.scan? rest).map (us ++ ·) := by
  rw [spelled, Token.rereadAll?_cons, stays]
  cases Token.rereadAll? ts with
  | none => rfl
  | some us =>
    simp only [Option.bind_some, Option.map_some, Option.map_map]
    rfl

theorem SpellsBehind.append {a b : List Char} {ts us : List Token} (first : SpellsBehind a ts)
    (second : SpellsBehind b us) : SpellsBehind (a ++ b) (ts ++ us) := by
  refine ⟨first.spells.append second, fun rest stop => ?_⟩
  rw [List.append_assoc]
  exact first.ends _ (second.ends rest stop)

/-- A mark in front of a piece of text. -/
theorem Spells.mark {c : Char} {t : Token} {text : List Char} {ts : List Token} (mark : IsMark c t)
    (h : Spells text ts) : SpellsBehind (c :: text) (t :: ts) := by
  refine ⟨fun rest stop => ?_, fun rest stop => ?_⟩
  · rw [List.cons_append, Token.scan?_token mark.dark (mark.reads _)]
    exact scan?_spelled mark.stays (h rest stop)
  · exact numberEnds_cons mark.digit mark.point mark.lower mark.upper

/-- Blank space in front of a piece of text. -/
theorem Spells.space {c : Char} {text : List Char} {ts : List Token}
    (space : Token.isSpace c = true) (h : Spells text ts) : SpellsBehind (c :: text) ts := by
  refine ⟨fun rest stop => ?_, fun rest stop => ?_⟩
  · rw [List.cons_append, Token.scan?_space _ space, h rest stop]
  · simp only [Token.isSpace, Bool.or_eq_true, beq_iff_eq] at space
    rcases space with ((rfl | rfl) | rfl) | rfl <;>
      exact numberEnds_cons rfl (by decide) (by decide) (by decide)

theorem Spells.newLine {text : List Char} {ts : List Token} (level : Nat) (h : Spells text ts) :
    SpellsBehind (newLine level ++ text) ts := by
  have blanks : ∀ n, Spells (List.replicate n ' ' ++ text) ts := by
    intro n
    induction n with
    | zero => exact h
    | succ n ih => exact (Spells.space rfl ih).spells
  exact (blanks (2 * level)).space rfl

/-! ## Scalars -/

theorem spells_null : Spells nullText [.null] := by
  intro rest _
  exact @Token.scan?_token 'n' ('u' :: 'l' :: 'l' :: rest) rest .null rfl rfl

theorem spells_bool (b : Bool) : Spells (boolText b) [.bool b] := by
  intro rest _
  cases b with
  | true => exact @Token.scan?_token 't' ('r' :: 'u' :: 'e' :: rest) rest (.bool true) rfl rfl
  | false =>
    exact @Token.scan?_token 'f' ('a' :: 'l' :: 's' :: 'e' :: rest) rest (.bool false) rfl rfl

theorem spells_quote (s : String) : Spells (quote s) [.text s] := by
  intro rest _
  exact Token.scan?_token rfl (Token.read?_quote s rest)

theorem spells_number (n : Number) : Spells (numberText n) [.number n] := by
  intro rest stop
  obtain ⟨c, cs, text, number⟩ := numberText_head n
  have reads := Token.read?_numberText n stop
  have tokens : Token.rereadAll? [.number n] = n.reread?.map fun m => [.number m] := by
    rw [Token.rereadAll?_cons, Token.reread?]
    cases n.reread? <;> rfl
  have dark : Token.isSpace c = false := by
    rw [Bool.eq_false_iff]
    intro space
    simp only [Token.isSpace, Bool.or_eq_true, beq_iff_eq] at space
    rcases space with ((rfl | rfl) | rfl) | rfl <;> revert number <;> decide
  rw [text, List.cons_append] at reads ⊢
  rw [tokens]
  cases again : n.reread? with
  | none =>
    rw [again] at reads
    exact Token.scan?_unread dark reads
  | some m =>
    rw [again] at reads
    exact Token.scan?_token dark reads

/-! ## Values on one line -/

theorem spells_closeArray : SpellsBehind [']'] [.closeArray] :=
  spellsBehind_nil.spells.mark isMark_closeArray

theorem spells_closeObject : SpellsBehind ['}'] [.closeObject] :=
  spellsBehind_nil.spells.mark isMark_closeObject

mutual

theorem spells_compact : ∀ v : Json, Spells (compact v) (tokens v)
  | .null => spells_null
  | .bool b => spells_bool b
  | .number n => spells_number n
  | .text s => spells_quote s
  | .array [] => (spells_closeArray.spells.mark isMark_openArray).spells
  | .array (item :: rest) => by
    have body := (spells_compact item).append ((spells_compactItems rest).append spells_closeArray)
    simpa only [compact, tokens, List.cons_append, List.append_assoc] using
      (body.mark isMark_openArray).spells
  | .object [] => (spells_closeObject.spells.mark isMark_openObject).spells
  | .object ((key, value) :: rest) => by
    have body :=
      (spells_compact value).append ((spells_compactMembers rest).append spells_closeObject)
    simpa only [compact, tokens, List.cons_append, List.append_assoc, List.nil_append] using
      (((spells_quote key).append (body.mark isMark_colon)).mark isMark_openObject).spells

theorem spells_compactItems :
    ∀ items : List Json, SpellsBehind (compactItems items) (tokensOfItems items)
  | [] => spellsBehind_nil
  | item :: rest => by
    have body := (spells_compact item).append (spells_compactItems rest)
    simpa only [compactItems, tokensOfItems, List.cons_append] using body.mark isMark_comma

theorem spells_compactMembers : ∀ members : List (String × Json),
    SpellsBehind (compactMembers members) (tokensOfMembers members)
  | [] => spellsBehind_nil
  | (key, value) :: rest => by
    have body := (spells_compact value).append (spells_compactMembers rest)
    simpa only [compactMembers, tokensOfMembers, List.cons_append, List.append_assoc,
      List.nil_append] using ((spells_quote key).append (body.mark isMark_colon)).mark isMark_comma

end

/-! ## Values over several lines -/

mutual

theorem spells_indented : ∀ (level : Nat) (v : Json), Spells (indented level v) (tokens v)
  | _, .null => spells_null
  | _, .bool b => spells_bool b
  | _, .number n => spells_number n
  | _, .text s => spells_quote s
  | _, .array [] => (spells_closeArray.spells.mark isMark_openArray).spells
  | level, .array (item :: rest) => by
    have body := (spells_indented (level + 1) item).append
      ((spells_indentedItems level rest).append (spells_closeArray.spells.newLine level))
    simpa only [indented, tokens, List.cons_append, List.append_assoc] using
      ((body.newLine (level + 1)).spells.mark isMark_openArray).spells
  | _, .object [] => (spells_closeObject.spells.mark isMark_openObject).spells
  | level, .object ((key, value) :: rest) => by
    have body := (spells_indented (level + 1) value).append
      ((spells_indentedMembers level rest).append (spells_closeObject.spells.newLine level))
    have spaced := Spells.space (c := ' ') rfl body
    have member := (spells_quote key).append (spaced.spells.mark isMark_colon)
    simpa only [indented, tokens, List.cons_append, List.append_assoc, List.nil_append] using
      ((member.newLine (level + 1)).spells.mark isMark_openObject).spells

theorem spells_indentedItems : ∀ (level : Nat) (items : List Json),
    SpellsBehind (indentedItems level items) (tokensOfItems items)
  | _, [] => spellsBehind_nil
  | level, item :: rest => by
    have body := (spells_indented (level + 1) item).append (spells_indentedItems level rest)
    simpa only [indentedItems, tokensOfItems, List.cons_append, List.append_assoc] using
      (body.newLine (level + 1)).spells.mark isMark_comma

theorem spells_indentedMembers : ∀ (level : Nat) (members : List (String × Json)),
    SpellsBehind (indentedMembers level members) (tokensOfMembers members)
  | _, [] => spellsBehind_nil
  | level, (key, value) :: rest => by
    have body := (spells_indented (level + 1) value).append (spells_indentedMembers level rest)
    have spaced := Spells.space (c := ' ') rfl body
    have member := (spells_quote key).append (spaced.spells.mark isMark_colon)
    simpa only [indentedMembers, tokensOfMembers, List.cons_append, List.append_assoc,
      List.nil_append] using (member.newLine (level + 1)).spells.mark isMark_comma

end

/-! ## Whole texts -/

/-- The text of a value in a layout, as characters. -/
def layoutChars (layout : Layout) (v : Json) : List Char :=
  match layout with
  | .oneLine => compact v
  | .indentedLines => indented 0 v

theorem toList_write (layout : Layout) (v : Json) :
    (write layout v).toList = layoutChars layout v :=
  String.toList_ofList

theorem spells_layout (layout : Layout) (v : Json) : Spells (layoutChars layout v) (tokens v) := by
  cases layout with
  | oneLine => exact spells_compact v
  | indentedLines => exact spells_indented 0 v

mutual

/-- The tokens of a value are read as the tokens of the value as it is read. -/
theorem rereadAll?_tokens : ∀ v : Json, Token.rereadAll? (tokens v) = (reread? v).map tokens
  | .null | .bool _ | .text _ => rfl
  | .number n => by
    rw [tokens, Token.rereadAll?_cons, Token.reread?, reread?]
    cases n.reread? <;> rfl
  | .array [] | .object [] => rfl
  | .array (item :: rest) => by
    rw [tokens, Token.rereadAll?_cons, Token.rereadAll?_append, Token.rereadAll?_append,
      rereadAll?_tokens item, rereadAll?_tokensOfItems rest, reread?, rereadItems?]
    cases reread? item with
    | none => rfl
    | some v => cases rereadItems? rest <;> rfl
  | .object ((key, value) :: rest) => by
    rw [tokens, Token.rereadAll?_cons, Token.rereadAll?_cons, Token.rereadAll?_cons,
      Token.rereadAll?_append, Token.rereadAll?_append, rereadAll?_tokens value,
      rereadAll?_tokensOfMembers rest, reread?, rereadMembers?]
    cases reread? value with
    | none => rfl
    | some v => cases rereadMembers? rest <;> rfl

theorem rereadAll?_tokensOfItems : ∀ items : List Json,
    Token.rereadAll? (tokensOfItems items) = (rereadItems? items).map tokensOfItems
  | [] => rfl
  | item :: rest => by
    rw [tokensOfItems, Token.rereadAll?_cons, Token.rereadAll?_append, rereadAll?_tokens item,
      rereadAll?_tokensOfItems rest, rereadItems?]
    cases reread? item with
    | none => rfl
    | some v => cases rereadItems? rest <;> rfl

theorem rereadAll?_tokensOfMembers : ∀ members : List (String × Json),
    Token.rereadAll? (tokensOfMembers members) = (rereadMembers? members).map tokensOfMembers
  | [] => rfl
  | (key, value) :: rest => by
    rw [tokensOfMembers, Token.rereadAll?_cons, Token.rereadAll?_cons, Token.rereadAll?_cons,
      Token.rereadAll?_append, rereadAll?_tokens value, rereadAll?_tokensOfMembers rest,
      rereadMembers?]
    cases reread? value with
    | none => rfl
    | some v => cases rereadMembers? rest <;> rfl

end

/-- A value that is written in a layout scans to the tokens of the value as it is read. -/
theorem scan?_write (layout : Layout) (v : Json) :
    Token.scan? (write layout v).toList = (reread? v).map tokens := by
  have scanned := spells_layout layout v [] numberEnds_nil
  rw [List.append_nil] at scanned
  rw [toList_write, scanned, rereadAll?_tokens]
  cases reread? v with
  | none => rfl
  | some v' => simp

/-- A line feed at the end of a written value changes nothing. -/
theorem scan?_write_newline (layout : Layout) (v : Json) :
    Token.scan? (write layout v ++ "\n").toList = (reread? v).map tokens := by
  have scanned := spells_layout layout v ['\n'] (numberEnds_cons rfl (by decide) (by decide)
    (by decide))
  rw [String.toList_append, toList_write]
  refine scanned.trans ?_
  rw [Token.scan?_space _ rfl, rereadAll?_tokens]
  cases reread? v with
  | none => rfl
  | some v' => simp

end ContentStore.Json
