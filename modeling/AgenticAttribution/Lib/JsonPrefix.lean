import AgenticAttribution.Lib.JsonRead

/-!
# Lib.JsonPrefix — a JSON text that is cut short

What the reader has made of the front of a text stands however the text goes on (`readValue_append`); a number
alone has to be followed by something.  So an object that is cut off anywhere is not read at all (`parse_of_cut`),
and behind a limit on its bytes it is read as a whole or not (`parse_text_take`).
-/

namespace Json

/-! ## Strings -/

section Strings

variable {n m : ℕ} {c : Char} {x y : List Char}

theorem readUnit_append {u : ℕ} (h : readUnit x = some (u, y)) (z : List Char) :
    readUnit (x ++ z) = some (u, y ++ z) := by
  unfold readUnit at h
  split at h
  · rename_i a b c d x
    simp only [Option.bind_eq_bind, Option.bind_eq_some_iff, Option.pure_def, Option.some.injEq] at h
    obtain ⟨a', ha, b', hb, c', hc, d', hd, h⟩ := h
    obtain ⟨rfl, rfl⟩ := Prod.mk.inj h
    simp [readUnit, ha, hb, hc, hd]
  · cases h

theorem readPair_append {high : ℕ} (h : readPair high x = some (c, y)) (z : List Char) :
    readPair high (x ++ z) = some (c, y ++ z) := by
  unfold readPair at h
  split at h
  · rename_i x
    obtain ⟨⟨low, w⟩, hlow, h⟩ := Option.bind_eq_some_iff.mp h
    dsimp only at h
    split_ifs at h with hrange
    obtain ⟨rfl, rfl⟩ := Prod.mk.inj (Option.some.inj h)
    simp [readPair, readUnit_append hlow, hrange]
  · cases h

/-- A second half that is missing from a literal is missing however the text goes on. -/
theorem readPair_none_append {high : ℕ} (h : readPair high x = none) (hgo : readChars n x ≠ none) (z : List Char) :
    readPair high (x ++ z) = none := by
  cases n with
  | zero => exact absurd rfl hgo
  | succ n =>
    match x, h, hgo with
    | [], h, hgo => exact absurd rfl hgo
    | d :: x, h, hgo =>
      by_cases hd : d = '\\'
      · subst hd
        match x, h, hgo with
        | [], h, hgo => exact absurd rfl hgo
        | e :: x, h, hgo =>
          by_cases he : e = 'u'
          · subst he
            cases hu : readUnit x with
            | none =>
              -- the escape itself is cut short
              refine absurd ?_ hgo
              simp [readChars, readChar, readEscape, readUnicode, hu]
            | some out =>
              obtain ⟨low, w⟩ := out
              simp only [readPair, hu, Option.bind_eq_bind, Option.bind_some] at h
              simp only [List.cons_append, readPair, readUnit_append hu, Option.bind_eq_bind, Option.bind_some]
              split_ifs at h ⊢
              rfl
          · simp [readPair, he]
      · simp [readPair, hd]

theorem readUnicode_append (h : readUnicode x = some (c, y)) (hgo : readChars n y ≠ none) (z : List Char) :
    readUnicode (x ++ z) = some (c, y ++ z) := by
  obtain ⟨⟨u, w⟩, hu, h⟩ := Option.bind_eq_some_iff.mp h
  dsimp only at h
  simp only [readUnicode, readUnit_append hu, Option.bind_eq_bind, Option.bind_some]
  split_ifs at h ⊢ with hs
  · have h := Option.some.inj h
    cases hp : readPair u w with
    | none =>
      rw [hp] at h
      obtain ⟨rfl, rfl⟩ := Prod.mk.inj h
      simp [readPair_none_append hp hgo]
    | some out =>
      rw [hp] at h
      obtain rfl : out = (c, y) := h
      simp [readPair_append hp]
  · obtain ⟨rfl, rfl⟩ := Prod.mk.inj (Option.some.inj h)
    rfl

theorem readChar_append (h : readChar x = some (c, y)) (hgo : readChars n y ≠ none) (z : List Char) :
    readChar (x ++ z) = some (c, y ++ z) := by
  cases x with
  | nil => cases h
  | cons d x =>
    simp only [readChar, List.cons_append] at h ⊢
    split_ifs at h ⊢ with hd hlow
    · cases x with
      | nil => cases h
      | cons e x =>
        simp only [readEscape, List.cons_append] at h ⊢
        split_ifs at h ⊢ with he
        · exact readUnicode_append h hgo z
        · obtain ⟨e', he', h⟩ := Option.map_eq_some_iff.mp h
          obtain ⟨rfl, rfl⟩ := Prod.mk.inj h
          simp [he']
    · obtain ⟨rfl, rfl⟩ := Prod.mk.inj (Option.some.inj h)
      rfl

/-- A literal ends at its quote. -/
theorem readChars_append {cs : List Char} (h : readChars n x = some (cs, y)) (hnm : n ≤ m) (z : List Char) :
    readChars m (x ++ z) = some (cs, y ++ z) := by
  induction n generalizing m x cs with
  | zero => cases h
  | succ n ih =>
    obtain ⟨m, rfl⟩ : ∃ k, m = k + 1 := ⟨m - 1, by omega⟩
    match x, h with
    | d :: x, h =>
      rw [readChars] at h
      rw [List.cons_append, readChars]
      split_ifs at h ⊢ with hd
      · obtain ⟨rfl, rfl⟩ := Prod.mk.inj (Option.some.inj h)
        rfl
      · obtain ⟨⟨e, w⟩, he, h⟩ := Option.bind_eq_some_iff.mp h
        obtain ⟨⟨es, v⟩, hes, h⟩ := Option.bind_eq_some_iff.mp h
        obtain ⟨rfl, rfl⟩ := Prod.mk.inj (Option.some.inj h)
        have hchar := readChar_append he (hes ▸ Option.some_ne_none _) z
        rw [List.cons_append] at hchar
        simp [hchar, ih hes (Nat.le_of_succ_le_succ hnm)]

theorem readString_append {cs : List Char} (h : readString x = some (cs, y)) (z : List Char) :
    readString (x ++ z) = some (cs, y ++ z) :=
  readChars_append h (by simp) z

end Strings

/-! ## Numbers -/

section Numbers

variable {c : Char} {x y text : List Char}

theorem readDigits_cons_append (h : readDigits x = some (text, c :: y)) (z : List Char) :
    readDigits (x ++ z) = some (text, c :: y ++ z) := by
  unfold readDigits at h ⊢
  split_ifs at h with hne
  obtain ⟨rfl, hrest⟩ := Prod.mk.inj (Option.some.inj h)
  have hlen : (x.takeWhile Char.isDigit).length ≠ x.length := by
    intro hlen
    have hsum := congrArg List.length (List.takeWhile_append_dropWhile (p := Char.isDigit) (l := x))
    rw [List.length_append, hrest, List.length_cons] at hsum
    omega
  have htake : (x ++ z).takeWhile Char.isDigit = x.takeWhile Char.isDigit := by
    rw [List.takeWhile_append, if_neg hlen]
  have hdrop : (x ++ z).dropWhile Char.isDigit = c :: y ++ z := by
    rw [List.dropWhile_append, hrest]
    rfl
  rw [htake, hdrop, if_neg hne]

theorem readInteger_cons_append (h : readInteger x = some (text, c :: y)) (z : List Char) :
    readInteger (x ++ z) = some (text, c :: y ++ z) := by
  unfold readInteger at h
  split at h
  · obtain ⟨rfl, rfl⟩ := Prod.mk.inj (Option.some.inj h)
    rfl
  · rename_i hzero
    match x, h with
    | d :: x, h =>
      have hd : d ≠ '0' := fun hd => hzero x (by rw [hd])
      have hread := readDigits_cons_append h z
      simpa [readInteger, hd] using hread

theorem readFraction_cons_append (h : readFraction x = some (text, c :: y)) (z : List Char) :
    readFraction (x ++ z) = some (text, c :: y ++ z) := by
  unfold readFraction at h
  split at h
  · rename_i x
    obtain ⟨⟨ds, w⟩, hds, h⟩ := Option.map_eq_some_iff.mp h
    obtain ⟨rfl, rfl⟩ := Prod.mk.inj h
    simp [readFraction, readDigits_cons_append hds]
  · rename_i hdot
    obtain ⟨rfl, rfl⟩ := Prod.mk.inj (Option.some.inj h)
    have hc : c ≠ '.' := fun hc => hdot y (by rw [hc])
    simp [readFraction, hc]

theorem readExponent_cons_append (h : readExponent x = some (text, c :: y)) (z : List Char) :
    readExponent (x ++ z) = some (text, c :: y ++ z) := by
  cases x with
  | nil => cases h
  | cons e x =>
    simp only [readExponent, List.cons_append] at h ⊢
    split_ifs at h ⊢ with he
    · obtain ⟨⟨ds, w⟩, hds, h⟩ := Option.map_eq_some_iff.mp h
      obtain ⟨rfl, rfl⟩ := Prod.mk.inj h
      have hsign : readSign (x ++ z) = ((readSign x).1, (readSign x).2 ++ z) := by
        cases x with
        | nil => cases hds
        | cons d x =>
          by_cases hplus : d = '+'
          · rw [hplus]
            rfl
          · by_cases hminus : d = '-'
            · rw [hminus]
              rfl
            · simp [readSign, hplus, hminus]
      simp [hsign, readDigits_cons_append hds]
    · obtain ⟨rfl, hrest⟩ := Prod.mk.inj (Option.some.inj h)
      obtain ⟨rfl, rfl⟩ := List.cons.inj hrest
      rfl

theorem readUnsigned_cons_append (h : readUnsigned x = some (text, c :: y)) (z : List Char) :
    readUnsigned (x ++ z) = some (text, c :: y ++ z) := by
  obtain ⟨⟨i, x₁⟩, hi, h⟩ := Option.bind_eq_some_iff.mp h
  obtain ⟨⟨f, x₂⟩, hf, h⟩ := Option.bind_eq_some_iff.mp h
  obtain ⟨⟨e, x₃⟩, he, h⟩ := Option.bind_eq_some_iff.mp h
  obtain ⟨rfl, rfl⟩ := Prod.mk.inj (Option.some.inj h)
  -- what a part leaves to the next is not empty, since the last leaves something
  match x₂, he with
  | d :: x₂, he =>
    match x₁, hf with
    | b :: x₁, hf =>
      simp only [readUnsigned, readInteger_cons_append hi, readFraction_cons_append hf, readExponent_cons_append he,
        Option.bind_eq_bind, Option.bind_some]
      rfl

theorem readNumber_cons_append (h : readNumber x = some (text, c :: y)) (z : List Char) :
    readNumber (x ++ z) = some (text, c :: y ++ z) := by
  unfold readNumber at h
  split at h
  · rename_i x
    obtain ⟨⟨ds, w⟩, hds, h⟩ := Option.map_eq_some_iff.mp h
    obtain ⟨rfl, rfl⟩ := Prod.mk.inj h
    simp [readNumber, readUnsigned_cons_append hds]
  · rename_i hminus
    match x, h with
    | d :: x, h =>
      have hd : d ≠ '-' := fun hd => hminus x (by rw [hd])
      have hread := readUnsigned_cons_append h z
      simpa [readNumber, hd] using hread

end Numbers

/-! ## What is left -/

section Suffixes

variable {n : ℕ} {c : Char} {x y text : List Char}

theorem suffix_of_readUnit {u : ℕ} (h : readUnit x = some (u, y)) : y <:+ x := by
  unfold readUnit at h
  split at h
  · rename_i a b c d x
    simp only [Option.bind_eq_bind, Option.bind_eq_some_iff, Option.pure_def, Option.some.injEq] at h
    obtain ⟨a', -, b', -, c', -, d', -, h⟩ := h
    obtain ⟨-, rfl⟩ := Prod.mk.inj h
    exact ⟨[a, b, c, d], rfl⟩
  · cases h

theorem suffix_of_readPair {high : ℕ} (h : readPair high x = some (c, y)) : y <:+ x := by
  unfold readPair at h
  split at h
  · rename_i x
    obtain ⟨⟨low, w⟩, hlow, h⟩ := Option.bind_eq_some_iff.mp h
    dsimp only at h
    split_ifs at h
    obtain ⟨-, rfl⟩ := Prod.mk.inj (Option.some.inj h)
    exact (suffix_of_readUnit hlow).trans ⟨['\\', 'u'], rfl⟩
  · cases h

theorem suffix_of_readUnicode (h : readUnicode x = some (c, y)) : y <:+ x := by
  obtain ⟨⟨u, w⟩, hu, h⟩ := Option.bind_eq_some_iff.mp h
  dsimp only at h
  split_ifs at h
  · refine List.IsSuffix.trans ?_ (suffix_of_readUnit hu)
    have h := Option.some.inj h
    cases hp : readPair u w with
    | none =>
      rw [hp] at h
      exact (Prod.mk.inj h).2 ▸ List.suffix_rfl
    | some out =>
      rw [hp] at h
      obtain rfl : out = (c, y) := h
      exact suffix_of_readPair hp
  · obtain ⟨-, rfl⟩ := Prod.mk.inj (Option.some.inj h)
    exact suffix_of_readUnit hu

theorem suffix_of_readChar (h : readChar x = some (c, y)) : y <:+ x := by
  cases x with
  | nil => cases h
  | cons d x =>
    refine List.IsSuffix.trans ?_ (List.suffix_cons d x)
    rw [readChar] at h
    split_ifs at h
    · cases x with
      | nil => cases h
      | cons e x =>
        refine List.IsSuffix.trans ?_ (List.suffix_cons e x)
        rw [readEscape] at h
        split_ifs at h
        · exact suffix_of_readUnicode h
        · obtain ⟨e', -, h⟩ := Option.map_eq_some_iff.mp h
          exact (Prod.mk.inj h).2 ▸ List.suffix_rfl
    · exact (Prod.mk.inj (Option.some.inj h)).2 ▸ List.suffix_rfl

theorem suffix_of_readChars {cs : List Char} (h : readChars n x = some (cs, y)) : y <:+ x := by
  induction n generalizing x cs with
  | zero => cases h
  | succ n ih =>
    match x, h with
    | d :: x, h =>
      rw [readChars] at h
      split_ifs at h
      · obtain ⟨-, rfl⟩ := Prod.mk.inj (Option.some.inj h)
        exact List.suffix_cons d x
      · obtain ⟨⟨e, w⟩, he, h⟩ := Option.bind_eq_some_iff.mp h
        obtain ⟨⟨es, v⟩, hes, h⟩ := Option.bind_eq_some_iff.mp h
        obtain ⟨-, rfl⟩ := Prod.mk.inj (Option.some.inj h)
        exact (ih hes).trans (suffix_of_readChar he)

theorem suffix_of_readDigits (h : readDigits x = some (text, y)) : y <:+ x := by
  unfold readDigits at h
  split_ifs at h
  rw [← (Prod.mk.inj (Option.some.inj h)).2]
  exact List.dropWhile_suffix _

theorem suffix_of_readInteger (h : readInteger x = some (text, y)) : y <:+ x := by
  unfold readInteger at h
  split at h
  · rename_i x
    obtain ⟨-, rfl⟩ := Prod.mk.inj (Option.some.inj h)
    exact List.suffix_cons '0' x
  · exact suffix_of_readDigits h

theorem suffix_of_readFraction (h : readFraction x = some (text, y)) : y <:+ x := by
  unfold readFraction at h
  split at h
  · rename_i x
    obtain ⟨⟨ds, w⟩, hds, h⟩ := Option.map_eq_some_iff.mp h
    obtain ⟨-, rfl⟩ := Prod.mk.inj h
    exact (suffix_of_readDigits hds).trans (List.suffix_cons '.' x)
  · exact (Prod.mk.inj (Option.some.inj h)).2 ▸ List.suffix_rfl

theorem suffix_readSign (x : List Char) : (readSign x).2 <:+ x := by
  unfold readSign
  split
  · exact List.suffix_cons _ _
  · exact List.suffix_cons _ _
  · exact List.suffix_refl x

theorem suffix_of_readExponent (h : readExponent x = some (text, y)) : y <:+ x := by
  match x, h with
  | [], h => exact (Prod.mk.inj (Option.some.inj h)).2 ▸ List.suffix_rfl
  | e :: x, h =>
    rw [readExponent] at h
    split_ifs at h
    · obtain ⟨⟨ds, w⟩, hds, h⟩ := Option.map_eq_some_iff.mp h
      obtain ⟨-, rfl⟩ := Prod.mk.inj h
      exact ((suffix_of_readDigits hds).trans (suffix_readSign x)).trans (List.suffix_cons e x)
    · exact (Prod.mk.inj (Option.some.inj h)).2 ▸ List.suffix_rfl

theorem suffix_of_readUnsigned (h : readUnsigned x = some (text, y)) : y <:+ x := by
  obtain ⟨⟨i, x₁⟩, hi, h⟩ := Option.bind_eq_some_iff.mp h
  obtain ⟨⟨f, x₂⟩, hf, h⟩ := Option.bind_eq_some_iff.mp h
  obtain ⟨⟨e, x₃⟩, he, h⟩ := Option.bind_eq_some_iff.mp h
  obtain ⟨-, rfl⟩ := Prod.mk.inj (Option.some.inj h)
  exact ((suffix_of_readExponent he).trans (suffix_of_readFraction hf)).trans (suffix_of_readInteger hi)

theorem suffix_of_readNumber (h : readNumber x = some (text, y)) : y <:+ x := by
  unfold readNumber at h
  split at h
  · rename_i x
    obtain ⟨⟨ds, w⟩, hds, h⟩ := Option.map_eq_some_iff.mp h
    obtain ⟨-, rfl⟩ := Prod.mk.inj h
    exact (suffix_of_readUnsigned hds).trans (List.suffix_cons '-' x)
  · exact suffix_of_readUnsigned h

theorem suffix_of_behind {word : String} (h : behind word x = some y) : y <:+ x := by
  unfold behind at h
  split_ifs at h
  rw [← Option.some.inj h]
  exact List.drop_suffix _ x

theorem suffix_of_readScalar {v : Json} (h : readScalar x = some (v, y)) : y <:+ x := by
  unfold readScalar at h
  split at h
  · rename_i w hw
    obtain ⟨-, rfl⟩ := Prod.mk.inj (Option.some.inj h)
    exact suffix_of_behind hw
  · split at h
    · rename_i w hw
      obtain ⟨-, rfl⟩ := Prod.mk.inj (Option.some.inj h)
      exact suffix_of_behind hw
    · split at h
      · rename_i w hw
        obtain ⟨-, rfl⟩ := Prod.mk.inj (Option.some.inj h)
        exact suffix_of_behind hw
      · obtain ⟨⟨ds, w⟩, hds, h⟩ := Option.map_eq_some_iff.mp h
        obtain ⟨-, rfl⟩ := Prod.mk.inj h
        exact suffix_of_readNumber hds

/-- A character is taken with the white space before it. -/
theorem suffix_of_take (h : take c x = some y) : c :: y <:+ x := by
  unfold take at h
  split at h
  · cases h
  · rename_i d w hskip
    split_ifs at h with hd
    rw [← Option.some.inj h, ← hd, ← hskip]
    exact List.dropWhile_suffix isSpace

mutual

theorem suffix_of_readValue : ∀ {n : ℕ} {x y : List Char} {v : Json}, readValue n x = some (v, y) → y <:+ x
  | 0, _, _, _, h => by cases h
  | n + 1, x, y, v, h => by
    rw [readValue] at h
    cases hskip : skipSpace x with
    | nil =>
      rw [hskip] at h
      cases h
    | cons c w =>
      rw [hskip] at h
      have hw : c :: w <:+ x := hskip ▸ List.dropWhile_suffix isSpace
      simp only at h
      split_ifs at h
      · obtain ⟨⟨cs, u⟩, hcs, h⟩ := Option.map_eq_some_iff.mp h
        obtain ⟨-, rfl⟩ := Prod.mk.inj h
        exact ((suffix_of_readChars hcs).trans (List.suffix_cons c w)).trans hw
      · cases htake : take ']' w with
        | some u =>
          simp only [htake, Option.some.injEq] at h
          obtain ⟨-, rfl⟩ := Prod.mk.inj h
          exact (((List.suffix_cons _ u).trans (suffix_of_take htake)).trans (List.suffix_cons c w)).trans hw
        | none =>
          simp only [htake] at h
          obtain ⟨⟨vs, u⟩, hvs, h⟩ := Option.map_eq_some_iff.mp h
          obtain ⟨-, rfl⟩ := Prod.mk.inj h
          exact ((suffix_of_readElems hvs).trans (List.suffix_cons c w)).trans hw
      · cases htake : take '\x7d' w with
        | some u =>
          simp only [htake, Option.some.injEq] at h
          obtain ⟨-, rfl⟩ := Prod.mk.inj h
          exact (((List.suffix_cons _ u).trans (suffix_of_take htake)).trans (List.suffix_cons c w)).trans hw
        | none =>
          simp only [htake] at h
          obtain ⟨⟨ms, u⟩, hms, h⟩ := Option.map_eq_some_iff.mp h
          obtain ⟨-, rfl⟩ := Prod.mk.inj h
          have hclose := suffix_of_readMembers hms
          exact (((List.suffix_cons _ u).trans hclose).trans (List.suffix_cons c w)).trans hw
      · exact (suffix_of_readScalar h).trans hw

theorem suffix_of_readElems : ∀ {n : ℕ} {x y : List Char} {vs : List Json}, readElems n x = some (vs, y) → y <:+ x
  | 0, _, _, _, h => by cases h
  | n + 1, x, y, vs, h => by
    obtain ⟨⟨v, w⟩, hv, h⟩ := Option.bind_eq_some_iff.mp h
    dsimp only at h
    refine List.IsSuffix.trans ?_ (suffix_of_readValue hv)
    cases hcomma : take ',' w with
    | some w' =>
      simp only [hcomma] at h
      obtain ⟨⟨us, u⟩, hus, h⟩ := Option.bind_eq_some_iff.mp h
      obtain ⟨-, rfl⟩ := Prod.mk.inj (Option.some.inj h)
      exact (suffix_of_readElems hus).trans ((List.suffix_cons _ w').trans (suffix_of_take hcomma))
    | none =>
      simp only [hcomma] at h
      obtain ⟨u, hclose, h⟩ := Option.bind_eq_some_iff.mp h
      obtain ⟨-, rfl⟩ := Prod.mk.inj (Option.some.inj h)
      exact (List.suffix_cons _ u).trans (suffix_of_take hclose)

/-- The members of an object end with its brace. -/
theorem suffix_of_readMembers : ∀ {n : ℕ} {x y : List Char} {ms : List (List Char × Json)},
    readMembers n x = some (ms, y) → '\x7d' :: y <:+ x
  | 0, _, _, _, h => by cases h
  | n + 1, x, y, ms, h => by
    obtain ⟨x₁, hquote, h⟩ := Option.bind_eq_some_iff.mp h
    obtain ⟨⟨key, x₂⟩, hkey, h⟩ := Option.bind_eq_some_iff.mp h
    obtain ⟨x₃, hcolon, h⟩ := Option.bind_eq_some_iff.mp h
    obtain ⟨⟨v, w⟩, hv, h⟩ := Option.bind_eq_some_iff.mp h
    dsimp only at h
    have h₁ : x₁ <:+ x := (List.suffix_cons _ x₁).trans (suffix_of_take hquote)
    have h₂ : x₂ <:+ x := (suffix_of_readChars hkey).trans h₁
    have h₃ : x₃ <:+ x := ((List.suffix_cons _ x₃).trans (suffix_of_take hcolon)).trans h₂
    have hw : w <:+ x := (suffix_of_readValue hv).trans h₃
    refine List.IsSuffix.trans ?_ hw
    cases hcomma : take ',' w with
    | some w' =>
      simp only [hcomma] at h
      obtain ⟨⟨us, u⟩, hus, h⟩ := Option.bind_eq_some_iff.mp h
      obtain ⟨-, rfl⟩ := Prod.mk.inj (Option.some.inj h)
      exact (suffix_of_readMembers hus).trans ((List.suffix_cons _ w').trans (suffix_of_take hcomma))
    | none =>
      simp only [hcomma] at h
      obtain ⟨u, hclose, h⟩ := Option.bind_eq_some_iff.mp h
      obtain ⟨-, rfl⟩ := Prod.mk.inj (Option.some.inj h)
      exact suffix_of_take hclose

end

end Suffixes

/-! ## Values -/

section Values

variable {n m : ℕ} {c : Char} {x y : List Char} {v : Json}

theorem skipSpace_append (h : skipSpace x = c :: y) (z : List Char) : skipSpace (x ++ z) = c :: y ++ z := by
  unfold skipSpace at h ⊢
  rw [List.dropWhile_append, h]
  rfl

theorem take_append (h : take c x = some y) (z : List Char) : take c (x ++ z) = some (y ++ z) := by
  unfold take at h
  split at h
  · cases h
  · rename_i d w hskip
    split_ifs at h with hd
    obtain rfl := Option.some.inj h
    simp [take, skipSpace_append hskip, hd]

theorem take_none_append {d : Char} (h : take c x = none) (hskip : skipSpace x = d :: y) (z : List Char) :
    take c (x ++ z) = none := by
  simp only [take, hskip, ite_eq_right_iff, reduceCtorEq] at h
  simpa [take, skipSpace_append hskip z] using h

/-- What can be taken off a text stands behind white space. -/
theorem skipSpace_of_take (h : take c x = some y) : skipSpace x = c :: y := by
  unfold take at h
  split at h
  · cases h
  · rename_i d w hskip
    split_ifs at h with hd
    rw [hskip, hd, Option.some.inj h]

theorem behind_append {word : String} (h : behind word x = some y) (z : List Char) :
    behind word (x ++ z) = some (y ++ z) := by
  unfold behind at h
  split_ifs at h with hprefix
  obtain ⟨w, rfl⟩ := hprefix
  rw [List.drop_left] at h
  rw [List.append_assoc, behind_self, Option.some.inj h]

/-- A text begins with a word. -/
theorem eq_of_behind {word : String} (h : behind word x = some y) : x = word.toList ++ y := by
  unfold behind at h
  split_ifs at h with hprefix
  obtain ⟨w, rfl⟩ := hprefix
  rw [List.drop_left] at h
  rw [Option.some.inj h]

/-- A scalar that is not a number, or that is followed by something, stays what it is. -/
theorem readScalar_append (h : readScalar x = some (v, y)) (hy : y = [] → ∀ text, v ≠ .num text) (z : List Char) :
    readScalar (x ++ z) = some (v, y ++ z) := by
  unfold readScalar at h
  split at h
  · rename_i w hw
    obtain ⟨rfl, rfl⟩ := Prod.mk.inj (Option.some.inj h)
    simp [readScalar, behind_append hw]
  · split at h
    · rename_i w hw
      obtain ⟨rfl, rfl⟩ := Prod.mk.inj (Option.some.inj h)
      rw [eq_of_behind hw]
      rfl
    · split at h
      · rename_i w hw
        obtain ⟨rfl, rfl⟩ := Prod.mk.inj (Option.some.inj h)
        rw [eq_of_behind hw]
        rfl
      · obtain ⟨⟨text, w⟩, hread, h⟩ := Option.map_eq_some_iff.mp h
        obtain ⟨rfl, rfl⟩ := Prod.mk.inj h
        obtain ⟨c, r, rfl, hc⟩ := readNumber_head hread
        obtain ⟨-, -, -, -, -, -, hn, ht, hf⟩ := number_head hc
        obtain ⟨d, w, rfl⟩ := List.exists_cons_of_ne_nil fun hw => hy hw text rfl
        have hread := readNumber_cons_append hread z
        rw [List.cons_append] at hread ⊢
        simp only [readScalar, behind_of_ne "null" rfl hn, behind_of_ne "true" rfl ht, behind_of_ne "false" rfl hf,
          hread, Option.map_some]

theorem skipSpace_of_readValue {out : Json × List Char} (h : readValue n x = some out) :
    ∃ c y, skipSpace x = c :: y := by
  cases n with
  | zero => cases h
  | succ n =>
    rw [readValue] at h
    cases hskip : skipSpace x with
    | nil =>
      rw [hskip] at h
      cases h
    | cons c y => exact ⟨c, y, rfl⟩

theorem skipSpace_of_readElems {out : List Json × List Char} (h : readElems n x = some out) :
    ∃ c y, skipSpace x = c :: y := by
  cases n with
  | zero => cases h
  | succ n =>
    obtain ⟨r, hv, -⟩ := Option.bind_eq_some_iff.mp h
    exact skipSpace_of_readValue hv

theorem skipSpace_of_readMembers {out : List (List Char × Json) × List Char} (h : readMembers n x = some out) :
    ∃ c y, skipSpace x = c :: y := by
  cases n with
  | zero => cases h
  | succ n =>
    obtain ⟨y, hquote, -⟩ := Option.bind_eq_some_iff.mp h
    exact ⟨'"', y, skipSpace_of_take hquote⟩

mutual

/-- **What was read stands**, with any larger bound and however the text goes on. -/
theorem readValue_append : ∀ {n m : ℕ} {x y : List Char} {v : Json}, readValue n x = some (v, y) → n ≤ m →
    (y = [] → ∀ text, v ≠ .num text) → ∀ z, readValue m (x ++ z) = some (v, y ++ z)
  | 0, _, _, _, _, h, _, _, _ => by cases h
  | n + 1, m, x, y, v, h, hnm, hy, z => by
    obtain ⟨m, rfl⟩ : ∃ k, m = k + 1 := ⟨m - 1, by omega⟩
    have hnm : n ≤ m := Nat.le_of_succ_le_succ hnm
    rw [readValue] at h ⊢
    cases hskip : skipSpace x with
    | nil =>
      rw [hskip] at h
      cases h
    | cons c x =>
      rw [hskip] at h
      rw [skipSpace_append hskip]
      simp only [List.cons_append] at h ⊢
      split_ifs at h ⊢ with hquote hbracket hbrace
      · obtain ⟨⟨cs, w⟩, hcs, h⟩ := Option.map_eq_some_iff.mp h
        obtain ⟨rfl, rfl⟩ := Prod.mk.inj h
        simp [readString_append hcs]
      · cases htake : take ']' x with
        | some w =>
          simp only [htake, Option.some.injEq] at h
          obtain ⟨rfl, rfl⟩ := Prod.mk.inj h
          simp [take_append htake]
        | none =>
          simp only [htake] at h
          obtain ⟨⟨vs, w⟩, hvs, h⟩ := Option.map_eq_some_iff.mp h
          obtain ⟨rfl, rfl⟩ := Prod.mk.inj h
          have hopen : take ']' (x ++ z) = none := by
            obtain ⟨d, r, hd⟩ := skipSpace_of_readElems hvs
            exact take_none_append htake hd z
          simp [hopen, readElems_append hvs hnm z]
      · cases htake : take '\x7d' x with
        | some w =>
          simp only [htake, Option.some.injEq] at h
          obtain ⟨rfl, rfl⟩ := Prod.mk.inj h
          simp [take_append htake]
        | none =>
          simp only [htake] at h
          obtain ⟨⟨ms, w⟩, hms, h⟩ := Option.map_eq_some_iff.mp h
          obtain ⟨rfl, rfl⟩ := Prod.mk.inj h
          have hopen : take '\x7d' (x ++ z) = none := by
            obtain ⟨d, r, hd⟩ := skipSpace_of_readMembers hms
            exact take_none_append htake hd z
          simp [hopen, readMembers_append hms hnm z]
      · have hscalar := readScalar_append h hy z
        rwa [List.cons_append] at hscalar

theorem readElems_append : ∀ {n m : ℕ} {x y : List Char} {vs : List Json}, readElems n x = some (vs, y) → n ≤ m →
    ∀ z, readElems m (x ++ z) = some (vs, y ++ z)
  | 0, _, _, _, _, h, _, _ => by cases h
  | n + 1, m, x, y, vs, h, hnm, z => by
    obtain ⟨m, rfl⟩ : ∃ k, m = k + 1 := ⟨m - 1, by omega⟩
    have hnm : n ≤ m := Nat.le_of_succ_le_succ hnm
    obtain ⟨⟨v, w⟩, hv, h⟩ := Option.bind_eq_some_iff.mp h
    dsimp only at h
    cases hcomma : take ',' w with
    | some w' =>
      simp only [hcomma] at h
      obtain ⟨⟨us, u⟩, hus, h⟩ := Option.bind_eq_some_iff.mp h
      obtain ⟨rfl, rfl⟩ := Prod.mk.inj (Option.some.inj h)
      have hv := readValue_append hv hnm (fun hw => by simp [hw, take, skipSpace] at hcomma) z
      simp [readElems, hv, take_append hcomma, readElems_append hus hnm z]
    | none =>
      simp only [hcomma] at h
      obtain ⟨u, hclose, h⟩ := Option.bind_eq_some_iff.mp h
      obtain ⟨rfl, rfl⟩ := Prod.mk.inj (Option.some.inj h)
      have hv := readValue_append hv hnm (fun hw => by simp [hw, take, skipSpace] at hclose) z
      simp [readElems, hv, take_none_append hcomma (skipSpace_of_take hclose), take_append hclose]

theorem readMembers_append : ∀ {n m : ℕ} {x y : List Char} {ms : List (List Char × Json)},
    readMembers n x = some (ms, y) → n ≤ m → ∀ z, readMembers m (x ++ z) = some (ms, y ++ z)
  | 0, _, _, _, _, h, _, _ => by cases h
  | n + 1, m, x, y, ms, h, hnm, z => by
    obtain ⟨m, rfl⟩ : ∃ k, m = k + 1 := ⟨m - 1, by omega⟩
    have hnm : n ≤ m := Nat.le_of_succ_le_succ hnm
    obtain ⟨x₁, hquote, h⟩ := Option.bind_eq_some_iff.mp h
    obtain ⟨⟨key, x₂⟩, hkey, h⟩ := Option.bind_eq_some_iff.mp h
    obtain ⟨x₃, hcolon, h⟩ := Option.bind_eq_some_iff.mp h
    obtain ⟨⟨v, w⟩, hv, h⟩ := Option.bind_eq_some_iff.mp h
    dsimp only at h
    cases hcomma : take ',' w with
    | some w' =>
      simp only [hcomma] at h
      obtain ⟨⟨us, u⟩, hus, h⟩ := Option.bind_eq_some_iff.mp h
      obtain ⟨rfl, rfl⟩ := Prod.mk.inj (Option.some.inj h)
      have hv := readValue_append hv hnm (fun hw => by simp [hw, take, skipSpace] at hcomma) z
      simp [readMembers, take_append hquote, readString_append hkey, take_append hcolon, hv, take_append hcomma,
        readMembers_append hus hnm z]
    | none =>
      simp only [hcomma] at h
      obtain ⟨u, hclose, h⟩ := Option.bind_eq_some_iff.mp h
      obtain ⟨rfl, rfl⟩ := Prod.mk.inj (Option.some.inj h)
      have hv := readValue_append hv hnm (fun hw => by simp [hw, take, skipSpace] at hclose) z
      simp [readMembers, take_append hquote, readString_append hkey, take_append hcolon, hv,
        take_none_append hcomma (skipSpace_of_take hclose), take_append hclose]

end

/-- What begins with a brace is an object. -/
theorem readValue_brace (h : readValue n ('\x7b' :: x) = some (v, y)) : ∃ ms, v = .obj ms := by
  cases n with
  | zero => cases h
  | succ n =>
    rw [readValue, skipSpace_cons (by decide)] at h
    simp only [Char.reduceEq, if_false, if_true] at h
    split at h
    · exact ⟨[], (Prod.mk.inj (Option.some.inj h)).1.symm⟩
    · obtain ⟨⟨ms, w⟩, -, h⟩ := Option.map_eq_some_iff.mp h
      exact ⟨ms, (Prod.mk.inj h).1.symm⟩

/-- An object ends with its brace. -/
theorem suffix_of_readObject {ms : List (List Char × Json)} (h : readValue n x = some (.obj ms, y)) :
    '\x7d' :: y <:+ x := by
  cases n with
  | zero => cases h
  | succ n =>
    rw [readValue] at h
    cases hskip : skipSpace x with
    | nil =>
      rw [hskip] at h
      cases h
    | cons c w =>
      rw [hskip] at h
      refine List.IsSuffix.trans ?_ (hskip ▸ List.dropWhile_suffix isSpace : c :: w <:+ x)
      refine List.IsSuffix.trans ?_ (List.suffix_cons c w)
      simp only at h
      split_ifs at h
      · simp at h
      · split at h <;> simp at h
      · split at h
        · rename_i u htake
          obtain ⟨-, rfl⟩ := Prod.mk.inj (Option.some.inj h)
          exact suffix_of_take htake
        · obtain ⟨⟨us, u⟩, hus, h⟩ := Option.map_eq_some_iff.mp h
          obtain ⟨-, rfl⟩ := Prod.mk.inj h
          exact suffix_of_readMembers hus
      · unfold readScalar at h
        split at h
        · simp at h
        · split at h
          · simp at h
          · split at h <;> simp at h

/-- **An object that is cut short is not read**, not even with characters in place of the rest that are no brace and
no white space. -/
theorem parse_of_cut {q : List Char → List Char} {ms : List (List Char × Json)} (h : Legible q (.obj ms))
    (hx : x ≠ []) (hcut : x <+: write q (.obj ms)) (hne : x ≠ write q (.obj ms))
    (hrest : ∀ d ∈ y, d ≠ '\x7d' ∧ isSpace d = false) : parse (x ++ y) = none := by
  by_contra hparse
  obtain ⟨u, hu⟩ := Option.ne_none_iff_exists'.mp hparse
  obtain ⟨⟨u', r⟩, hread, hend⟩ := Option.bind_eq_some_iff.mp hu
  dsimp only at hend
  split_ifs at hend with hspace
  obtain ⟨z, hz⟩ := hcut
  have hobject : ∃ us, u' = .obj us := by
    match x, hx, hz, hread with
    | c :: x, _, hz, hread =>
      have hc : c = '\x7b' := (List.cons.inj hz).1
      exact readValue_brace (hc ▸ hread)
  obtain ⟨us, rfl⟩ := hobject
  obtain ⟨pre, hpre⟩ := suffix_of_readObject hread
  rcases List.eq_nil_or_concat' y with rfl | ⟨ys, d, rfl⟩
  · -- one bound that is enough for both readings
    rw [List.append_nil] at hread
    have hlong := readValue_append hread (le_max_left _ (weight (.obj ms))) (fun _ _ => Json.noConfusion) z
    have hfull := readValue_write (.obj ms) h (le_max_right (x.length + 1) (weight (.obj ms))) stops_nil
    rw [List.append_nil, ← hz, hlong, Option.some.injEq, Prod.mk.injEq] at hfull
    have hnil : z = [] := (List.append_eq_nil_iff.mp hfull.2).2
    rw [hnil, List.append_nil] at hz
    exact hne hz
  · -- the last character is neither the brace nor behind it
    obtain ⟨hbrace, hd⟩ := hrest d (List.mem_append_right ys List.mem_cons_self)
    have hlast : d ∈ '\x7d' :: r := by
      have hlast := congrArg List.getLast? hpre
      rw [List.getLast?_append_cons, ← List.append_assoc, List.getLast?_concat] at hlast
      exact List.mem_of_getLast? hlast
    rcases List.mem_cons.mp hlast with rfl | hr
    · exact hbrace rfl
    · rw [List.dropWhile_eq_nil_iff.mp hspace d hr] at hd
      cases hd

/-- **An object within a limit on its bytes is read, and no other.** -/
theorem parse_text_take {q : List Char → List Char} {ms : List (List Char × Json)} {k : ℕ} (h : Legible q (.obj ms))
    (hk : 4 ≤ k) : parse (Utf8.text ((Utf8.encode (write q (.obj ms))).take k)) =
      if (Utf8.encode (write q (.obj ms))).length ≤ k then some (.obj ms) else none := by
  split_ifs with hfits
  · rw [List.take_of_length_le hfits, Utf8.text_encode, parse_write h]
  · obtain ⟨ps, ws, htext, hprefix, hne, hnear, hws⟩ := Utf8.text_take (Nat.lt_of_not_le hfits)
    have hps : ps ≠ [] := by
      rintro rfl
      rw [Utf8.encode_nil, List.length_nil] at hnear
      omega
    rw [htext]
    refine parse_of_cut h hps hprefix hne fun d hd => ?_
    rw [hws d hd]
    decide

end Values

end Json
