import AgenticAttribution.Lib.Json
import Mathlib.Data.List.TakeWhile

/-!
# Lib.JsonRead — JSON texts, read and written

`parse` reads a JSON text (RFC 8259) the way `json.Unmarshal` reads it into a value of any type: white space between
the tokens, escapes with surrogate pairs, no control character in a string, nothing behind the value.  A number is
kept as its literal.  `write q` is the compact text of a value, with `q` for the string literals.

`parse_write` is the round trip: a text is read back if its string literals are (`ReadsBack`) and its numbers are
numbers (`IsNumber`).
-/

namespace Json

open Digits

/-! ## Characters -/

section Characters

/-- The character behind a two-character escape. -/
def unescape (e : Char) : Option Char :=
  if e = '"' then some '"' else if e = '\\' then some '\\' else if e = '/' then some '/'
  else if e = 'b' then some '\x08' else if e = 'f' then some '\x0c' else if e = 'n' then some '\n'
  else if e = 'r' then some '\r' else if e = 't' then some '\t' else none

/-- The value of a hexadecimal digit. -/
def hexDigit (c : Char) : Option ℕ :=
  if '0' ≤ c ∧ c ≤ '9' then some (c.toNat - 48) else if 'a' ≤ c ∧ c ≤ 'f' then some (c.toNat - 87)
  else if 'A' ≤ c ∧ c ≤ 'F' then some (c.toNat - 55) else none

/-- Four hexadecimal digits. -/
def readUnit : List Char → Option (ℕ × List Char)
  | a :: b :: c :: d :: x => do
    let a ← hexDigit a
    let b ← hexDigit b
    let c ← hexDigit c
    let d ← hexDigit d
    return (a * 4096 + b * 256 + c * 16 + d, x)
  | _ => none

/-- Half of a surrogate pair. -/
def isSurrogate (n : ℕ) : Bool := 0xD800 ≤ n && n < 0xE000

/-- The second half of a pair, behind the first. -/
def readPair (high : ℕ) : List Char → Option (Char × List Char)
  | '\\' :: 'u' :: x => do
    let (low, y) ← readUnit x
    if high < 0xDC00 ∧ 0xDC00 ≤ low ∧ low < 0xE000 then
      return (Char.ofNat (0x10000 + (high - 0xD800) * 0x400 + (low - 0xDC00)), y)
    else none
  | _ => none

/-- What stands behind `\u`; half a pair alone is replaced. -/
def readUnicode (x : List Char) : Option (Char × List Char) := do
  let (n, y) ← readUnit x
  if isSurrogate n then return (readPair n y).getD ('\ufffd', y) else return (Char.ofNat n, y)

/-- What stands behind a backslash. -/
def readEscape : List Char → Option (Char × List Char)
  | [] => none
  | e :: x => if e = 'u' then readUnicode x else (unescape e).map fun c => (c, x)

/-- One character inside a string literal. -/
def readChar : List Char → Option (Char × List Char)
  | [] => none
  | c :: x => if c = '\\' then readEscape x else if c.toNat < 0x20 then none else some (c, x)

/-- A string literal behind its opening quote, with a bound on its characters. -/
def readChars : ℕ → List Char → Option (List Char × List Char)
  | 0, _ => none
  | _ + 1, [] => none
  | n + 1, c :: x =>
    if c = '"' then some ([], x)
    else do
      let (d, y) ← readChar (c :: x)
      let (ds, z) ← readChars n y
      return (d :: ds, z)

def readString (x : List Char) : Option (List Char × List Char) := readChars (x.length + 1) x

end Characters

/-! ## Numbers -/

section Numbers

def readDigits (x : List Char) : Option (List Char × List Char) :=
  if x.takeWhile Char.isDigit = [] then none else some (x.takeWhile Char.isDigit, x.dropWhile Char.isDigit)

/-- No numeral but zero begins with a zero. -/
def readInteger : List Char → Option (List Char × List Char)
  | '0' :: x => some (['0'], x)
  | x => readDigits x

def readFraction : List Char → Option (List Char × List Char)
  | '.' :: x => (readDigits x).map fun (ds, y) => ('.' :: ds, y)
  | x => some ([], x)

def readSign : List Char → List Char × List Char
  | '+' :: x => (['+'], x)
  | '-' :: x => (['-'], x)
  | x => ([], x)

def readExponent : List Char → Option (List Char × List Char)
  | [] => some ([], [])
  | e :: x =>
    if e = 'e' ∨ e = 'E' then
      let (sign, y) := readSign x
      (readDigits y).map fun (ds, z) => (e :: (sign ++ ds), z)
    else some ([], e :: x)

/-- A number without its sign. -/
def readUnsigned (x : List Char) : Option (List Char × List Char) := do
  let (i, x) ← readInteger x
  let (f, x) ← readFraction x
  let (e, x) ← readExponent x
  return (i ++ (f ++ e), x)

def readNumber : List Char → Option (List Char × List Char)
  | '-' :: x => (readUnsigned x).map fun (ds, y) => ('-' :: ds, y)
  | x => readUnsigned x

/-- The text is a number. -/
def IsNumber (text : List Char) : Prop := readNumber text = some (text, [])

instance (text : List Char) : Decidable (IsNumber text) := inferInstanceAs (Decidable (_ = _))

end Numbers

/-! ## Values -/

section Values

def isSpace (c : Char) : Bool := c = ' ' || c = '\t' || c = '\n' || c = '\r'

def skipSpace (x : List Char) : List Char := x.dropWhile isSpace

/-- The text behind a word that it begins with. -/
def behind (word : String) (x : List Char) : Option (List Char) :=
  if word.toList <+: x then some (x.drop word.toList.length) else none

/-- A value that is no string, array or object. -/
def readScalar (x : List Char) : Option (Json × List Char) :=
  match behind "null" x with
  | some y => some (.null, y)
  | none =>
    match behind "true" x with
    | some y => some (.bool true, y)
    | none =>
      match behind "false" x with
      | some y => some (.bool false, y)
      | none => (readNumber x).map fun (text, y) => (.num text, y)

/-- The text begins with the character, white space apart. -/
def take (c : Char) (x : List Char) : Option (List Char) :=
  match skipSpace x with
  | [] => none
  | d :: y => if d = c then some y else none

mutual

/-- A value, with a bound on how far it is nested and how long it goes on. -/
def readValue : ℕ → List Char → Option (Json × List Char)
  | 0, _ => none
  | n + 1, x =>
    match skipSpace x with
    | [] => none
    | c :: x =>
      if c = '"' then (readString x).map fun (cs, y) => (.str cs, y)
      else if c = '[' then
        match take ']' x with
        | some y => some (.arr [], y)
        | none => (readElems n x).map fun (vs, y) => (.arr vs, y)
      else if c = '{' then
        match take '}' x with
        | some y => some (.obj [], y)
        | none => (readMembers n x).map fun (ms, y) => (.obj ms, y)
      else readScalar (c :: x)

/-- The elements of an array, behind its bracket or a comma. -/
def readElems : ℕ → List Char → Option (List Json × List Char)
  | 0, _ => none
  | n + 1, x => do
    let (v, y) ← readValue n x
    match take ',' y with
    | some z => do
      let (vs, z) ← readElems n z
      return (v :: vs, z)
    | none => do
      let z ← take ']' y
      return ([v], z)

/-- The members of an object, behind its brace or a comma. -/
def readMembers : ℕ → List Char → Option (List (List Char × Json) × List Char)
  | 0, _ => none
  | n + 1, x => do
    let x ← take '"' x
    let (key, x) ← readString x
    let x ← take ':' x
    let (v, y) ← readValue n x
    match take ',' y with
    | some z => do
      let (ms, z) ← readMembers n z
      return ((key, v) :: ms, z)
    | none => do
      let z ← take '}' y
      return ([(key, v)], z)

end

/-- `json.Unmarshal` into a value of any type. -/
def parse (x : List Char) : Option Json := do
  let (v, y) ← readValue (x.length + 1) x
  if skipSpace y = [] then return v else none

end Values

/-! ## Writing -/

mutual

/-- The compact text of a value. -/
def write (q : List Char → List Char) : Json → List Char
  | null => "null".toList
  | bool b => if b then "true".toList else "false".toList
  | num text => text
  | str cs => q cs
  | arr elems => '[' :: commaSep (writeAll q elems) ++ [']']
  | obj members => '{' :: commaSep (writeMembers q members) ++ ['}']

def writeAll (q : List Char → List Char) : List Json → List (List Char)
  | [] => []
  | v :: r => write q v :: writeAll q r

def writeMembers (q : List Char → List Char) : List (List Char × Json) → List (List Char)
  | [] => []
  | (key, v) :: r => (q key ++ ':' :: write q v) :: writeMembers q r

end

/-! ## Strings are read back -/

section Strings

/-- The reader takes the escape for the character that it stands for. -/
def Reads (escape : Char → List Char) (c : Char) : Prop :=
  (∃ b w, escape c = b :: w ∧ b ≠ '"') ∧ ∀ x, readChar (escape c ++ x) = some (c, x)

/-- The reader does not take the escape for anything. -/
def Spoils (escape : Char → List Char) (c : Char) : Prop :=
  (∃ b w, escape c = b :: w ∧ b ≠ '"') ∧ ∀ x, readChar (escape c ++ x) = none

/-- The reader takes the literal for the text. -/
def ReadsBack (q : List Char → List Char) (cs : List Char) : Prop :=
  ∀ y, ∃ x, q cs ++ y = '"' :: x ∧ readString x = some (cs, y)

/-- A literal, with an escape for each character. -/
def literal (escape : Char → List Char) (cs : List Char) : List Char := '"' :: cs.flatMap escape ++ ['"']

variable {escape : Char → List Char} {c : Char} {cs : List Char} {n : ℕ}

theorem readChars_cons (h : ∃ b w, escape c = b :: w ∧ b ≠ '"') (x : List Char) :
    readChars (n + 1) (escape c ++ x) =
      (readChar (escape c ++ x)).bind fun r => (readChars n r.2).map fun s => (r.1 :: s.1, s.2) := by
  obtain ⟨b, w, hb, hne⟩ := h
  rw [hb, List.cons_append, readChars, if_neg hne, Option.bind_eq_bind]
  refine congrArg _ (funext fun ⟨d, y⟩ => ?_)
  cases hy : readChars n y <;> simp [hy]

theorem readChars_of_reads (h : ∀ c ∈ cs, Reads escape c) (hn : cs.length < n) (y : List Char) :
    readChars n (cs.flatMap escape ++ '"' :: y) = some (cs, y) := by
  induction cs generalizing n with
  | nil =>
    cases n with
    | zero => exact absurd hn (Nat.not_lt_zero _)
    | succ n => rfl
  | cons c cs ih =>
    obtain ⟨hhead, hread⟩ := h c List.mem_cons_self
    cases n with
    | zero => exact absurd hn (Nat.not_lt_zero _)
    | succ n =>
      rw [List.flatMap_cons, List.append_assoc, readChars_cons hhead, hread, Option.bind_some,
        ih (fun d hd => h d (List.mem_cons_of_mem _ hd)) (Nat.lt_of_succ_lt_succ hn)]
      rfl

/-- The first escape that the reader does not know ends the reading. -/
theorem readChars_of_spoils (hspoils : ∃ c ∈ cs, Spoils escape c) (h : ∀ c ∈ cs, Reads escape c ∨ Spoils escape c)
    (y : List Char) : readChars n (cs.flatMap escape ++ y) = none := by
  induction cs generalizing n with
  | nil => exact absurd hspoils (by simp)
  | cons c cs ih =>
    rw [List.flatMap_cons, List.append_assoc]
    cases n with
    | zero => rfl
    | succ n =>
      rcases h c List.mem_cons_self with ⟨hhead, hread⟩ | ⟨hhead, hread⟩
      · obtain ⟨d, hd, hspoils⟩ := hspoils
        have htail : ∃ c ∈ cs, Spoils escape c := by
          rcases List.mem_cons.mp hd with rfl | hd
          · exact absurd ((hread []).symm.trans (hspoils.2 [])) (Option.some_ne_none _)
          · exact ⟨d, hd, hspoils⟩
        rw [readChars_cons hhead, hread, Option.bind_some, ih htail fun d hd => h d (List.mem_cons_of_mem _ hd)]
        rfl
      · rw [readChars_cons hhead, hread, Option.bind_none]

theorem length_le_flatMap (h : ∀ c ∈ cs, Reads escape c) : cs.length ≤ (cs.flatMap escape).length := by
  induction cs with
  | nil => exact le_rfl
  | cons c cs ih =>
    obtain ⟨⟨b, w, hb, -⟩, -⟩ := h c List.mem_cons_self
    have htail := ih fun d hd => h d (List.mem_cons_of_mem _ hd)
    rw [List.flatMap_cons, hb, List.length_append, List.length_cons, List.length_cons]
    omega

theorem readsBack_literal (h : ∀ c ∈ cs, Reads escape c) : ReadsBack (literal escape) cs := by
  intro y
  refine ⟨cs.flatMap escape ++ '"' :: y, by simp [literal], readChars_of_reads h ?_ y⟩
  have hlen := length_le_flatMap h
  rw [List.length_append]
  omega

theorem readString_of_spoils (hspoils : ∃ c ∈ cs, Spoils escape c) (h : ∀ c ∈ cs, Reads escape c ∨ Spoils escape c)
    (y : List Char) : readString (cs.flatMap escape ++ y) = none := readChars_of_spoils hspoils h y

end Strings

/-! ## Numbers are read back -/

section Numbers

/-- A number does not go on with the text. -/
def Stops (y : List Char) : Prop := ∀ c z, y = c :: z → c.isDigit = false ∧ c ≠ '.' ∧ c ≠ 'e' ∧ c ≠ 'E'

theorem stops_nil : Stops [] := by
  intro c z h
  cases h

theorem stops_cons {c : Char} (h : c = ',' ∨ c = ']' ∨ c = '}') (y : List Char) : Stops (c :: y) := by
  intro d z hd
  obtain ⟨rfl, -⟩ := List.cons.inj hd
  rcases h with rfl | rfl | rfl <;> decide

variable {x y r text : List Char}

theorem Stops.takeWhile (hy : Stops y) : y.takeWhile Char.isDigit = [] ∧ y.dropWhile Char.isDigit = y := by
  cases y with
  | nil => exact ⟨rfl, rfl⟩
  | cons c z =>
    have hc := (hy c z rfl).1
    simp [hc]

theorem readDigits_append (hy : Stops y) (h : readDigits x = some (text, r)) :
    readDigits (x ++ y) = some (text, r ++ y) := by
  unfold readDigits at h ⊢
  split_ifs at h with hne
  obtain ⟨rfl, rfl⟩ := Prod.mk.inj (Option.some.inj h)
  have htake : (x ++ y).takeWhile Char.isDigit = x.takeWhile Char.isDigit := by
    rw [List.takeWhile_append, hy.takeWhile.1, List.append_nil]
    split_ifs with hlen
    · exact ((List.takeWhile_prefix _).eq_of_length hlen).symm
    · rfl
  have hdrop : (x ++ y).dropWhile Char.isDigit = x.dropWhile Char.isDigit ++ y := by
    rw [List.dropWhile_append, hy.takeWhile.2]
    split_ifs with hempty
    · rw [List.isEmpty_iff.mp hempty, List.nil_append]
    · rfl
  rw [htake, hdrop, if_neg hne]

theorem readInteger_append (hy : Stops y) (h : readInteger x = some (text, r)) :
    readInteger (x ++ y) = some (text, r ++ y) := by
  unfold readInteger at h
  split at h
  · obtain ⟨rfl, rfl⟩ := Prod.mk.inj (Option.some.inj h)
    rfl
  · rename_i hzero
    have hdigits := readDigits_append hy h
    unfold readInteger
    split
    · rename_i z hz
      cases x with
      | nil => cases h
      | cons c x =>
        obtain ⟨rfl, -⟩ := List.cons.inj hz
        exact absurd rfl (hzero x)
    · exact hdigits

theorem readFraction_append (hy : Stops y) (h : readFraction x = some (text, r)) :
    readFraction (x ++ y) = some (text, r ++ y) := by
  unfold readFraction at h
  split at h
  · rename_i x
    obtain ⟨⟨ds, z⟩, hds, he⟩ := Option.map_eq_some_iff.mp h
    obtain ⟨rfl, rfl⟩ := Prod.mk.inj he
    show (readDigits (x ++ y)).map _ = _
    rw [readDigits_append hy hds]
    rfl
  · rename_i hpoint
    obtain ⟨rfl, rfl⟩ := Prod.mk.inj (Option.some.inj h)
    unfold readFraction
    split
    · rename_i z hz
      cases x with
      | nil => exact absurd rfl (hy '.' z hz).2.1
      | cons c x =>
        obtain ⟨rfl, -⟩ := List.cons.inj hz
        exact absurd rfl (hpoint x)
    · rfl

theorem readExponent_append (hy : Stops y) (h : readExponent x = some (text, r)) :
    readExponent (x ++ y) = some (text, r ++ y) := by
  cases x with
  | nil =>
    obtain ⟨rfl, rfl⟩ := Prod.mk.inj (Option.some.inj h)
    cases y with
    | nil => rfl
    | cons c z =>
      have hc := hy c z rfl
      exact if_neg (not_or.mpr ⟨hc.2.2.1, hc.2.2.2⟩)
  | cons e x =>
    rw [List.cons_append]
    simp only [readExponent] at h ⊢
    split_ifs at h ⊢ with he
    · obtain ⟨⟨ds, z⟩, hds, heq⟩ := Option.map_eq_some_iff.mp h
      obtain ⟨rfl, rfl⟩ := Prod.mk.inj heq
      have hsign : readSign (x ++ y) = ((readSign x).1, (readSign x).2 ++ y) := by
        cases x with
        | nil => cases hds
        | cons c x =>
          by_cases hplus : c = '+'
          · subst hplus
            rfl
          · by_cases hminus : c = '-'
            · subst hminus
              rfl
            · simp [readSign, hplus, hminus]
      simp only [hsign, readDigits_append hy hds, Option.map_some]
    · obtain ⟨rfl, rfl⟩ := Prod.mk.inj (Option.some.inj h)
      rfl

theorem readUnsigned_append (hy : Stops y) (h : readUnsigned x = some (text, r)) :
    readUnsigned (x ++ y) = some (text, r ++ y) := by
  unfold readUnsigned at h ⊢
  obtain ⟨⟨i, x₁⟩, hi, h⟩ := Option.bind_eq_some_iff.mp h
  obtain ⟨⟨f, x₂⟩, hf, h⟩ := Option.bind_eq_some_iff.mp h
  obtain ⟨⟨e, x₃⟩, he, h⟩ := Option.bind_eq_some_iff.mp h
  obtain ⟨rfl, rfl⟩ := Prod.mk.inj (Option.some.inj h)
  simp only [readInteger_append hy hi, readFraction_append hy hf, readExponent_append hy he, Option.bind_eq_bind,
    Option.bind_some]
  rfl

/-- A number is read up to where it stops. -/
theorem IsNumber.readNumber_append (h : IsNumber text) (hy : Stops y) :
    readNumber (text ++ y) = some (text, y) := by
  unfold IsNumber readNumber at h
  split at h
  · rename_i x
    obtain ⟨⟨ds, z⟩, hds, he⟩ := Option.map_eq_some_iff.mp h
    obtain ⟨hds', rfl⟩ := Prod.mk.inj he
    show (readUnsigned (x ++ y)).map _ = _
    rw [readUnsigned_append hy hds]
    exact congrArg (fun t => some (t, y)) hds'
  · rename_i hminus
    have hread := readUnsigned_append hy h
    rw [List.nil_append] at hread
    unfold readNumber
    split
    · rename_i z hz
      cases text with
      | nil => cases h
      | cons c t =>
        obtain ⟨rfl, -⟩ := List.cons.inj hz
        exact absurd rfl (hminus t)
    · exact hread

/-- A number begins with a sign or a digit. -/
theorem readNumber_head {out : List Char × List Char} (h : readNumber x = some out) :
    ∃ c r, x = c :: r ∧ (c = '-' ∨ c.isDigit = true) := by
  cases x with
  | nil => cases h
  | cons c r =>
    refine ⟨c, r, rfl, ?_⟩
    by_cases hminus : c = '-'
    · exact Or.inl hminus
    · refine Or.inr ?_
      by_contra hdigit
      have hint : readInteger (c :: r) = none := by
        unfold readInteger
        split
        · rename_i hz
          obtain ⟨rfl, -⟩ := List.cons.inj hz
          exact absurd rfl hdigit
        · simp [readDigits, hdigit]
      unfold readNumber at h
      split at h
      · rename_i hz
        exact hminus (List.cons.inj hz).1
      · unfold readUnsigned at h
        rw [hint] at h
        cases h

theorem IsNumber.head (h : IsNumber text) : ∃ c r, text = c :: r ∧ (c = '-' ∨ c.isDigit = true) := readNumber_head h

/-- What a number is made of. -/
def IsNumberChar (c : Char) : Prop := c.isDigit = true ∨ c = '-' ∨ c = '+' ∨ c = '.' ∨ c = 'e' ∨ c = 'E'

theorem chars_readDigits (h : readDigits x = some (text, r)) : ∀ c ∈ text, IsNumberChar c := by
  unfold readDigits at h
  split_ifs at h
  obtain ⟨rfl, -⟩ := Prod.mk.inj (Option.some.inj h)
  exact fun c hc => Or.inl (List.mem_takeWhile_imp hc)

theorem chars_readUnsigned (h : readUnsigned x = some (text, r)) : ∀ c ∈ text, IsNumberChar c := by
  unfold readUnsigned at h
  obtain ⟨⟨i, x₁⟩, hi, h⟩ := Option.bind_eq_some_iff.mp h
  obtain ⟨⟨f, x₂⟩, hf, h⟩ := Option.bind_eq_some_iff.mp h
  obtain ⟨⟨e, x₃⟩, he, h⟩ := Option.bind_eq_some_iff.mp h
  obtain ⟨rfl, -⟩ := Prod.mk.inj (Option.some.inj h)
  have hinteger : ∀ c ∈ i, IsNumberChar c := by
    unfold readInteger at hi
    split at hi
    · obtain ⟨rfl, -⟩ := Prod.mk.inj (Option.some.inj hi)
      exact fun c hc => by rw [List.mem_singleton.mp hc]; exact Or.inl rfl
    · exact chars_readDigits hi
  have hfraction : ∀ c ∈ f, IsNumberChar c := by
    unfold readFraction at hf
    split at hf
    · obtain ⟨⟨ds, z⟩, hds, heq⟩ := Option.map_eq_some_iff.mp hf
      obtain ⟨rfl, -⟩ := Prod.mk.inj heq
      exact List.forall_mem_cons.mpr ⟨by simp [IsNumberChar], chars_readDigits hds⟩
    · obtain ⟨rfl, -⟩ := Prod.mk.inj (Option.some.inj hf)
      exact List.forall_mem_nil _
  have hexponent : ∀ c ∈ e, IsNumberChar c := by
    cases x₂ with
    | nil =>
      obtain ⟨rfl, -⟩ := Prod.mk.inj (Option.some.inj he)
      exact List.forall_mem_nil _
    | cons d x₂ =>
      simp only [readExponent] at he
      split_ifs at he with hd
      · obtain ⟨⟨ds, z⟩, hds, heq⟩ := Option.map_eq_some_iff.mp he
        obtain ⟨rfl, -⟩ := Prod.mk.inj heq
        have hsign : ∀ c ∈ (readSign x₂).1, IsNumberChar c := by
          unfold readSign
          split <;> simp [IsNumberChar]
        refine List.forall_mem_cons.mpr ⟨?_, List.forall_mem_append.mpr ⟨hsign, chars_readDigits hds⟩⟩
        rcases hd with rfl | rfl <;> simp [IsNumberChar]
      · obtain ⟨rfl, -⟩ := Prod.mk.inj (Option.some.inj he)
        exact List.forall_mem_nil _
  exact List.forall_mem_append.mpr ⟨hinteger, List.forall_mem_append.mpr ⟨hfraction, hexponent⟩⟩

theorem IsNumber.chars (h : IsNumber text) : ∀ c ∈ text, IsNumberChar c := by
  unfold IsNumber readNumber at h
  split at h
  · obtain ⟨⟨ds, z⟩, hds, heq⟩ := Option.map_eq_some_iff.mp h
    obtain ⟨heq, -⟩ := Prod.mk.inj heq
    rw [← heq]
    exact List.forall_mem_cons.mpr ⟨by simp [IsNumberChar], chars_readUnsigned hds⟩
  · exact chars_readUnsigned h

theorem isNumber_of_unsigned (h : readUnsigned text = some (text, [])) : IsNumber text ∧ IsNumber ('-' :: text) := by
  refine ⟨?_, ?_⟩
  · unfold IsNumber readNumber
    split
    · rename_i x
      exact absurd h (by simp [readUnsigned, readInteger, readDigits])
    · exact h
  · show (readUnsigned text).map _ = _
    rw [h]
    rfl

/-- The numeral of an integer is a number. -/
theorem isNumber_intChars (n : ℤ) : IsNumber (intChars n) := by
  have hnat : ∀ k : ℕ, readUnsigned (natChars k) = some (natChars k, []) := by
    intro k
    have hint : readInteger (natChars k) = some (natChars k, []) := by
      by_cases hk : 0 < k
      · obtain ⟨c, r, hr, hc⟩ := natChars_head hk
        have hdigits : ∀ d ∈ natChars k, d.isDigit = true := fun d hd => isDigit_of_mem_natChars hd
        have hread : readDigits (natChars k) = some (natChars k, []) := by
          have htake : (natChars k).takeWhile Char.isDigit = natChars k := List.takeWhile_eq_self_iff.mpr hdigits
          rw [readDigits, htake, List.dropWhile_eq_nil_iff.mpr hdigits, if_neg (natChars_ne_nil k)]
        rw [hr] at hread ⊢
        unfold readInteger
        split
        · rename_i hz
          exact absurd (List.cons.inj hz).1 hc
        · exact hread
      · obtain rfl : k = 0 := by omega
        rfl
    rw [readUnsigned, hint]
    simp [readFraction, readExponent]
  cases n with
  | ofNat k => exact (isNumber_of_unsigned (hnat k)).1
  | negSucc k => exact (isNumber_of_unsigned (hnat (k + 1))).2

end Numbers

/-! ## Values are read back -/

mutual

/-- The literals in the text of a value are read back. -/
def Legible (q : List Char → List Char) : Json → Prop
  | str cs => ReadsBack q cs
  | num text => IsNumber text
  | arr elems => LegibleAll q elems
  | obj members => LegibleMembers q members
  | _ => True

def LegibleAll (q : List Char → List Char) : List Json → Prop
  | [] => True
  | v :: r => Legible q v ∧ LegibleAll q r

def LegibleMembers (q : List Char → List Char) : List (List Char × Json) → Prop
  | [] => True
  | (key, v) :: r => ReadsBack q key ∧ Legible q v ∧ LegibleMembers q r

end

mutual

/-- How much the reader needs for the text of a value. -/
def weight : Json → ℕ
  | arr elems => 1 + weightAll elems
  | obj members => 1 + weightMembers members
  | _ => 1

def weightAll : List Json → ℕ
  | [] => 0
  | v :: r => 1 + weight v + weightAll r

def weightMembers : List (List Char × Json) → ℕ
  | [] => 0
  | (_, v) :: r => 1 + weight v + weightMembers r

end

section Values

variable {q : List Char → List Char} {n : ℕ} {c : Char} {x y : List Char}

theorem skipSpace_cons (h : isSpace c = false) (x : List Char) : skipSpace (c :: x) = c :: x := by
  rw [skipSpace, List.dropWhile_cons, h]
  rfl

theorem take_self (h : isSpace c = false) (x : List Char) : take c (c :: x) = some x := by
  rw [take, skipSpace_cons h]
  exact if_pos rfl

theorem take_of_ne {d : Char} (h : isSpace d = false) (hne : d ≠ c) (x : List Char) : take c (d :: x) = none := by
  rw [take, skipSpace_cons h]
  exact if_neg hne

/-- The text of a value begins with none of these. -/
def Begins (x : List Char) : Prop := ∃ c r, x = c :: r ∧ isSpace c = false ∧ c ≠ ']' ∧ c ≠ '}'

theorem Begins.take (h : Begins x) : take ']' (x ++ y) = none := by
  obtain ⟨c, r, rfl, hc, hne, -⟩ := h
  exact take_of_ne hc hne _

theorem behind_of_ne (word : String) {d : Char} {w : List Char} (hw : word.toList = d :: w) (hne : c ≠ d)
    (x : List Char) : behind word (c :: x) = none := by
  refine if_neg fun hprefix => ?_
  rw [hw] at hprefix
  exact hne (List.cons_prefix_cons.mp hprefix).1.symm

theorem behind_self (word : String) (y : List Char) : behind word (word.toList ++ y) = some y := by
  rw [behind, if_pos (List.prefix_append _ _), List.drop_left]

theorem ReadsBack.cons {cs : List Char} (h : ReadsBack q cs) : ∃ x, q cs = '"' :: x := by
  obtain ⟨x, hx, -⟩ := h []
  exact ⟨x, by rwa [List.append_nil] at hx⟩

/-- What the characters of a number are not. -/
theorem number_head (h : c = '-' ∨ c.isDigit = true) : isSpace c = false ∧ c ≠ '"' ∧ c ≠ '[' ∧ c ≠ ']' ∧ c ≠ '{' ∧
    c ≠ '}' ∧ c ≠ 'n' ∧ c ≠ 't' ∧ c ≠ 'f' := by
  have hne : ∀ d : Char, d ≠ '-' → d.isDigit = false → c ≠ d := by
    rintro d hminus hdigit rfl
    rcases h with h | h
    · exact hminus h
    · rw [hdigit] at h
      cases h
  refine ⟨?_, hne _ (by decide) (by decide), hne _ (by decide) (by decide), hne _ (by decide) (by decide),
    hne _ (by decide) (by decide), hne _ (by decide) (by decide), hne _ (by decide) (by decide),
    hne _ (by decide) (by decide), hne _ (by decide) (by decide)⟩
  simp [isSpace, hne ' ' (by decide) (by decide), hne '\t' (by decide) (by decide), hne '\n' (by decide) (by decide),
    hne '\r' (by decide) (by decide)]

theorem begins_write {v : Json} (h : Legible q v) : Begins (write q v) := by
  cases v with
  | null => exact ⟨'n', _, rfl, by decide⟩
  | bool b => cases b <;> exact ⟨_, _, rfl, by decide⟩
  | num text =>
    obtain ⟨c, r, rfl, hc⟩ := IsNumber.head h
    obtain ⟨hspace, -, -, hbracket, -, hbrace, -⟩ := number_head hc
    exact ⟨c, r, rfl, hspace, hbracket, hbrace⟩
  | str cs =>
    obtain ⟨x, hx⟩ := ReadsBack.cons h
    exact ⟨'"', x, hx, by decide⟩
  | arr elems => exact ⟨'[', _, rfl, by decide⟩
  | obj members => exact ⟨'{', _, rfl, by decide⟩

theorem readScalar_number {text : List Char} (h : IsNumber text) (hy : Stops y) :
    readScalar (text ++ y) = some (.num text, y) := by
  obtain ⟨c, r, rfl, hc⟩ := h.head
  obtain ⟨-, -, -, -, -, -, hn, ht, hf⟩ := number_head hc
  have hread := h.readNumber_append hy
  rw [List.cons_append] at hread ⊢
  simp only [readScalar, behind_of_ne "null" rfl hn, behind_of_ne "true" rfl ht,
    behind_of_ne "false" rfl hf, hread, Option.map_some]

theorem readValue_scalar {r : List Char} (hspace : isSpace c = false) (hquote : c ≠ '"') (hbracket : c ≠ '[')
    (hbrace : c ≠ '{') : readValue (n + 1) (c :: r) = readScalar (c :: r) := by
  rw [readValue, skipSpace_cons hspace]
  simp only [if_neg hquote, if_neg hbracket, if_neg hbrace]

theorem readValue_string {cs : List Char} (h : ReadsBack q cs) (y : List Char) :
    readValue (n + 1) (q cs ++ y) = some (.str cs, y) := by
  obtain ⟨x, hx, hread⟩ := h y
  rw [hx, readValue, skipSpace_cons (by decide)]
  simp only [if_true, hread, Option.map_some]

theorem readValue_array (h : take ']' x = none) :
    readValue (n + 1) ('[' :: x) = (readElems n x).map fun r => (.arr r.1, r.2) := by
  rw [readValue, skipSpace_cons (by decide)]
  simp only [h, if_true]
  rfl

theorem readValue_object (h : take '}' x = none) :
    readValue (n + 1) ('{' :: x) = (readMembers n x).map fun r => (.obj r.1, r.2) := by
  rw [readValue, skipSpace_cons (by decide)]
  simp only [h, if_true]
  rfl

theorem readElems_last {v : Json} (h : readValue n x = some (v, ']' :: y)) :
    readElems (n + 1) x = some ([v], y) := by
  rw [readElems, h]
  simp [take_of_ne (c := ',') (d := ']') (by decide) (by decide), take_self (c := ']') (by decide)]

theorem readElems_more {v : Json} {vs : List Json} {z : List Char} (h : readValue n x = some (v, ',' :: y))
    (hvs : readElems n y = some (vs, z)) : readElems (n + 1) x = some (v :: vs, z) := by
  rw [readElems, h]
  simp [take_self (c := ',') (by decide), hvs]

theorem readMembers_cons {key : List Char} (hkey : ReadsBack q key) (x : List Char) :
    readMembers (n + 1) (q key ++ ':' :: x) = (readValue n x).bind fun r =>
      match take ',' r.2 with
      | some z => (readMembers n z).map fun s => ((key, r.1) :: s.1, s.2)
      | none => (take '}' r.2).map fun z => ([(key, r.1)], z) := by
  obtain ⟨w, hw, hread⟩ := hkey (':' :: x)
  rw [readMembers, hw, take_self (by decide)]
  simp only [Option.bind_eq_bind, Option.bind_some, hread, take_self (c := ':') (by decide)]
  refine congrArg _ (funext fun ⟨v, y⟩ => ?_)
  cases take ',' y with
  | some z => cases hz : readMembers n z <;> simp [hz]
  | none => cases take '}' y <;> simp

/-! What cannot be read spoils what it is in, whatever the bound. -/

theorem readValue_spoiled {escape : Char → List Char} {cs : List Char} (hspoils : ∃ c ∈ cs, Spoils escape c)
    (h : ∀ c ∈ cs, Reads escape c ∨ Spoils escape c) (y : List Char) : readValue n (literal escape cs ++ y) = none := by
  cases n with
  | zero => rfl
  | succ n =>
    have hread := readString_of_spoils hspoils h (['"'] ++ y)
    rw [literal, List.append_assoc, List.cons_append, readValue, skipSpace_cons (by decide)]
    simp only [if_true, hread, Option.map_none]

theorem readValue_object_none (hopen : take '}' x = none) (h : ∀ n, readMembers n x = none) :
    readValue n ('{' :: x) = none := by
  cases n with
  | zero => rfl
  | succ n => rw [readValue_object hopen, h, Option.map_none]

theorem readMembers_none {key : List Char} (hkey : ReadsBack q key) (h : ∀ n, readValue n x = none) :
    readMembers n (q key ++ ':' :: x) = none := by
  cases n with
  | zero => rfl
  | succ n => rw [readMembers_cons hkey, h, Option.bind_none]

/-- A member is read, and the rest is not. -/
theorem readMembers_rest_none {key cs : List Char} (hkey : ReadsBack q key) (hcs : ReadsBack q cs)
    (h : ∀ n, readMembers n y = none) : readMembers n (q key ++ ':' :: (q cs ++ ',' :: y)) = none := by
  cases n with
  | zero => rfl
  | succ n =>
    rw [readMembers_cons hkey]
    cases n with
    | zero => rfl
    | succ n =>
      rw [readValue_string hcs, Option.bind_some]
      simp only [take_self (c := ',') (by decide), h, Option.map_none]

theorem commaSep_cons_cons (a b : List Char) (r : List (List Char)) :
    commaSep (a :: b :: r) = a ++ ',' :: commaSep (b :: r) := rfl

/-- The words are scalars. -/
theorem readScalar_word (y : List Char) : readScalar ("null".toList ++ y) = some (.null, y) ∧
    readScalar ("true".toList ++ y) = some (.bool true, y) ∧
    readScalar ("false".toList ++ y) = some (.bool false, y) := by
  have hnull : ∀ w, w ≠ 'n' → ∀ x, behind "null" (w :: x) = none := fun w hw => behind_of_ne "null" rfl hw
  have htrue : ∀ w, w ≠ 't' → ∀ x, behind "true" (w :: x) = none := fun w hw => behind_of_ne "true" rfl hw
  refine ⟨?_, ?_, ?_⟩
  · rw [readScalar, behind_self]
  · have hskip : behind "null" ("true".toList ++ y) = none := hnull 't' (by decide) _
    rw [readScalar, hskip, behind_self]
  · have hskip : behind "null" ("false".toList ++ y) = none := hnull 'f' (by decide) _
    have hskip' : behind "true" ("false".toList ++ y) = none := htrue 'f' (by decide) _
    rw [readScalar, hskip, hskip', behind_self]

mutual

/-- **A value is read back from its text**, whatever follows it. -/
theorem readValue_write : ∀ (v : Json) {n : ℕ} {y : List Char}, Legible q v → weight v ≤ n → Stops y →
    readValue n (write q v ++ y) = some (v, y)
  | v, 0, y, _, hn, _ => by
    exfalso
    cases v <;> simp [weight] at hn
  | null, n + 1, y, _, _, _ => by
    have hscalar := (readScalar_word y).1
    rw [write]
    exact (readValue_scalar (by decide) (by decide) (by decide) (by decide)).trans hscalar
  | bool true, n + 1, y, _, _, _ => by
    have hscalar := (readScalar_word y).2.1
    rw [write, if_pos rfl]
    exact (readValue_scalar (by decide) (by decide) (by decide) (by decide)).trans hscalar
  | bool false, n + 1, y, _, _, _ => by
    have hscalar := (readScalar_word y).2.2
    rw [write, if_neg (by decide)]
    exact (readValue_scalar (by decide) (by decide) (by decide) (by decide)).trans hscalar
  | num text, n + 1, y, h, _, hy => by
    obtain ⟨c, r, rfl, hc⟩ := IsNumber.head h
    obtain ⟨hspace, hquote, hbracket, -, hbrace, -⟩ := number_head hc
    exact (readValue_scalar hspace hquote hbracket hbrace).trans (readScalar_number h hy)
  | str cs, n + 1, y, h, _, _ => readValue_string h y
  | arr [], n + 1, y, _, _, _ => by
    show readValue (n + 1) ('[' :: ']' :: y) = _
    rw [readValue, skipSpace_cons (by decide)]
    simp only [take_self (c := ']') (by decide), if_true, Char.reduceEq, if_false]
  | arr (v :: vs), n + 1, y, h, hn, _ => by
    have hopen : Begins (commaSep (writeAll q (v :: vs))) := by
      cases vs with
      | nil => exact begins_write h.1
      | cons w vs =>
        obtain ⟨c, r, hr, hc⟩ := begins_write h.1
        exact ⟨c, r ++ ',' :: commaSep (writeAll q (w :: vs)),
          by rw [writeAll, writeAll, commaSep_cons_cons, hr]; rfl, hc⟩
    have helems := readElems_write v vs (n := n) (y := y) h (by rw [weight] at hn; omega)
    have htext : write q (arr (v :: vs)) ++ y = '[' :: (commaSep (writeAll q (v :: vs)) ++ ']' :: y) := by
      simp [write]
    rw [htext, readValue_array hopen.take, helems]
    rfl
  | obj [], n + 1, y, _, _, _ => by
    show readValue (n + 1) ('{' :: '}' :: y) = _
    rw [readValue, skipSpace_cons (by decide)]
    simp only [take_self (c := '}') (by decide), if_true, Char.reduceEq, if_false]
  | obj (m :: ms), n + 1, y, h, hn, _ => by
    have hopen : take '}' (commaSep (writeMembers q (m :: ms)) ++ '}' :: y) = none := by
      obtain ⟨key, v⟩ := m
      obtain ⟨x, hx⟩ := ReadsBack.cons h.1
      cases ms with
      | nil =>
        rw [writeMembers, writeMembers, commaSep, hx]
        exact take_of_ne (by decide) (by decide) _
      | cons m ms =>
        rw [writeMembers, writeMembers, commaSep_cons_cons, hx]
        exact take_of_ne (by decide) (by decide) _
    have hmembers := readMembers_write m ms (n := n) (y := y) h (by rw [weight] at hn; omega)
    have htext : write q (obj (m :: ms)) ++ y = '{' :: (commaSep (writeMembers q (m :: ms)) ++ '}' :: y) := by
      simp [write]
    rw [htext, readValue_object hopen, hmembers]
    rfl

theorem readElems_write : ∀ (v : Json) (vs : List Json) {n : ℕ} {y : List Char}, LegibleAll q (v :: vs) →
    weightAll (v :: vs) ≤ n → readElems n (commaSep (writeAll q (v :: vs)) ++ ']' :: y) = some (v :: vs, y)
  | v, vs, 0, y, _, hn => by
    exfalso
    rw [weightAll] at hn
    omega
  | v, [], n + 1, y, h, hn => by
    rw [weightAll, weightAll] at hn
    exact readElems_last (readValue_write v h.1 (by omega) (stops_cons (by decide) y))
  | v, w :: vs, n + 1, y, h, hn => by
    have hrest : weightAll (w :: vs) ≤ n ∧ weight v ≤ n := by
      rw [weightAll] at hn
      omega
    have hvalue := readValue_write v (y := ',' :: (commaSep (writeAll q (w :: vs)) ++ ']' :: y)) h.1 hrest.2
      (stops_cons (by decide) _)
    have htext : commaSep (writeAll q (v :: w :: vs)) ++ ']' :: y =
        write q v ++ ',' :: (commaSep (writeAll q (w :: vs)) ++ ']' :: y) := by
      simp only [writeAll, commaSep_cons_cons, List.append_assoc, List.cons_append]
    rw [htext]
    exact readElems_more hvalue (readElems_write w vs h.2 hrest.1)

theorem readMembers_write : ∀ (m : List Char × Json) (ms : List (List Char × Json)) {n : ℕ} {y : List Char},
    LegibleMembers q (m :: ms) → weightMembers (m :: ms) ≤ n →
      readMembers n (commaSep (writeMembers q (m :: ms)) ++ '}' :: y) = some (m :: ms, y)
  | (key, v), ms, 0, y, _, hn => by
    exfalso
    rw [weightMembers] at hn
    omega
  | (key, v), [], n + 1, y, h, hn => by
    rw [weightMembers, weightMembers] at hn
    have hvalue := readValue_write v (n := n) (y := '}' :: y) h.2.1 (by omega) (stops_cons (by decide) y)
    have htext : commaSep (writeMembers q [(key, v)]) ++ '}' :: y = q key ++ ':' :: (write q v ++ '}' :: y) := by
      simp only [writeMembers, commaSep, List.append_assoc, List.cons_append]
    rw [htext, readMembers_cons h.1, hvalue, Option.bind_some]
    simp only [take_of_ne (c := ',') (d := '}') (by decide) (by decide), take_self (c := '}') (by decide),
      Option.map_some]
  | (key, v), m :: ms, n + 1, y, h, hn => by
    have hrest : weightMembers (m :: ms) ≤ n ∧ weight v ≤ n := by
      rw [weightMembers] at hn
      omega
    have hvalue := readValue_write v (y := ',' :: (commaSep (writeMembers q (m :: ms)) ++ '}' :: y)) h.2.1 hrest.2
      (stops_cons (by decide) _)
    have htext : commaSep (writeMembers q ((key, v) :: m :: ms)) ++ '}' :: y =
        q key ++ ':' :: (write q v ++ ',' :: (commaSep (writeMembers q (m :: ms)) ++ '}' :: y)) := by
      obtain ⟨key', v'⟩ := m
      simp only [writeMembers, commaSep_cons_cons, List.append_assoc, List.cons_append]
    rw [htext, readMembers_cons h.1, hvalue, Option.bind_some]
    simp only [take_self (c := ',') (by decide), readMembers_write m ms h.2.2 hrest.1, Option.map_some]

end

mutual

theorem weight_le : ∀ v : Json, Legible q v → weight v ≤ (write q v).length
  | null, _ => by simp [weight, write]
  | bool true, _ => by simp [weight, write]
  | bool false, _ => by simp [weight, write]
  | num text, h => by
    obtain ⟨c, r, rfl, -⟩ := IsNumber.head h
    simp [weight, write]
  | str cs, h => by
    obtain ⟨x, hx⟩ := ReadsBack.cons h
    simp [weight, write, hx]
  | arr elems, h => by
    have helems := weightAll_le elems h
    rw [weight, write, List.cons_append, List.length_cons, List.length_append, List.length_singleton]
    omega
  | obj members, h => by
    have hmembers := weightMembers_le members h
    rw [weight, write, List.cons_append, List.length_cons, List.length_append, List.length_singleton]
    omega

theorem weightAll_le : ∀ vs : List Json, LegibleAll q vs → weightAll vs ≤ (commaSep (writeAll q vs)).length + 1
  | [], _ => Nat.zero_le _
  | [v], h => by
    have hv := weight_le v h.1
    rw [weightAll, weightAll, writeAll, writeAll, commaSep]
    omega
  | v :: w :: vs, h => by
    have hv := weight_le v h.1
    have hrest := weightAll_le (w :: vs) h.2
    rw [weightAll, writeAll, writeAll, commaSep_cons_cons, List.length_append, List.length_cons, ← writeAll]
    omega

theorem weightMembers_le : ∀ ms : List (List Char × Json), LegibleMembers q ms →
    weightMembers ms ≤ (commaSep (writeMembers q ms)).length + 1
  | [], _ => Nat.zero_le _
  | [(key, v)], h => by
    have hv := weight_le v h.2.1
    rw [weightMembers, weightMembers, writeMembers, writeMembers, commaSep, List.length_append, List.length_cons]
    omega
  | (key, v) :: (key', v') :: ms, h => by
    have hv := weight_le v h.2.1
    have hrest := weightMembers_le ((key', v') :: ms) h.2.2
    rw [weightMembers, writeMembers, writeMembers, commaSep_cons_cons, List.length_append, List.length_append,
      List.length_cons, List.length_cons, ← writeMembers]
    omega

end

/-- **The round trip.** -/
theorem parse_write {v : Json} (h : Legible q v) : parse (write q v) = some v := by
  have hread := readValue_write v (n := (write q v).length + 1) h (Nat.le_succ_of_le (weight_le v h)) stops_nil
  rw [List.append_nil] at hread
  rw [parse, hread]
  rfl

/-- White space, an escape, a pair of surrogates and a number with an exponent. -/
example : (parse " \x7b \"a\\n\" : [ null , \"\\ud83d\\ude00\" , -1.5e+3 ] \x7d ".toList).map (write JsonText.jsQuote) =
    some "\x7b\"a\\n\":[null,\"😀\",-1.5e+3]\x7d".toList := by decide +kernel

/-- A control character, an escape of Go's and a comma too many. -/
example : (["\"\x01\"", "\"\\x01\"", "[1,]"].filterMap fun s => parse s.toList).map (write JsonText.jsQuote) = [] := by
  decide +kernel

end Values

end Json
