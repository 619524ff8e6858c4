import AgenticAttribution.Lib.Digits

/-!
# Lib.BigInt — integers out of texts, the way JavaScript reads them

`bigInt` is `BigInt(text)`: blanks around an integer literal are ignored, a decimal may carry a sign, and a blank
text is zero.  `none` is the `SyntaxError`.  `bigInt_natChars` says that the numeral of a number is read back.
-/

namespace BigInt

open Digits

/-- White space and line terminators. -/
def isSpace (c : Char) : Bool :=
  let n := c.toNat
  (9 ≤ n && n ≤ 13) || n = 0x20 || n = 0xA0 || n = 0x1680 || (0x2000 ≤ n && n ≤ 0x200A) || n = 0x2028 ||
    n = 0x2029 || n = 0x202F || n = 0x205F || n = 0x3000 || n = 0xFEFF

/-- `String.prototype.trim`. -/
def trim (cs : List Char) : List Char := ((cs.dropWhile isSpace).reverse.dropWhile isSpace).reverse

/-- The value of a digit, in any base up to sixteen. -/
def digitVal (c : Char) : ℕ :=
  if c.isDigit then c.toNat - 48 else if c.isLower then c.toNat - 87 else c.toNat - 55

/-- A digit of the base `b`. -/
def isDigitOf (b : ℕ) (c : Char) : Bool := (c.isDigit || c.isAlpha) && digitVal c < b

/-- A run of digits in the base `b`. -/
def digits (b : ℕ) (cs : List Char) : Option ℕ :=
  if cs = [] ∨ !cs.all (isDigitOf b) then none else some (cs.foldl (fun n c => n * b + digitVal c) 0)

/-- The base that stands behind a leading zero. -/
def radixOf (p : Char) : Option ℕ :=
  if p = 'x' ∨ p = 'X' then some 16 else if p = 'o' ∨ p = 'O' then some 8 else if p = 'b' ∨ p = 'B' then some 2
  else none

/-- A literal without a sign. -/
def unsigned : List Char → Option ℕ
  | c :: p :: cs =>
    match radixOf p with
    | some b => if c = '0' then digits b cs else none
    | none => digits 10 (c :: p :: cs)
  | cs => digits 10 cs

/-- An integer literal. -/
def literal : List Char → Option ℤ
  | [] => none
  | c :: cs =>
    if c = '+' then (digits 10 cs).map Int.ofNat
    else if c = '-' then (digits 10 cs).map fun n => -Int.ofNat n
    else (unsigned (c :: cs)).map Int.ofNat

/-- `BigInt` of a text. -/
def bigInt (cs : List Char) : Option ℤ := if trim cs = [] then some 0 else literal (trim cs)

/-! ## Numerals -/

theorem isSpace_of_isDigit {c : Char} (h : c.isDigit = true) : isSpace c = false := by
  simp only [Char.isDigit, Bool.and_eq_true, decide_eq_true_eq] at h
  have hlo : 48 ≤ c.toNat := UInt32.le_iff_toNat_le.mp h.1
  have hhi : c.toNat ≤ 57 := UInt32.le_iff_toNat_le.mp h.2
  simp only [isSpace, Bool.or_eq_false_iff, Bool.and_eq_false_iff, decide_eq_false_iff_not]
  omega

/-- A text of digits has nothing to trim. -/
theorem trim_of_digits {cs : List Char} (h : ∀ c ∈ cs, c.isDigit = true) : trim cs = cs := by
  have hkeep : ∀ ds : List Char, (∀ c ∈ ds, c.isDigit = true) → ds.dropWhile isSpace = ds := by
    intro ds hds
    cases ds with
    | nil => rfl
    | cons d ds => exact List.dropWhile_cons_of_neg (by simp [isSpace_of_isDigit (hds d List.mem_cons_self)])
  rw [trim, hkeep cs h, hkeep cs.reverse fun c hc => h c (List.mem_reverse.mp hc), List.reverse_reverse]

theorem isDigitOf_ten {c : Char} (h : c.isDigit = true) : isDigitOf 10 c = true := by
  have h' := h
  simp only [Char.isDigit, Bool.and_eq_true, decide_eq_true_eq] at h'
  have hlo : 48 ≤ c.toNat := UInt32.le_iff_toNat_le.mp h'.1
  have hhi : c.toNat ≤ 57 := UInt32.le_iff_toNat_le.mp h'.2
  have hval : digitVal c < 10 := by
    rw [digitVal, if_pos h]
    omega
  simp [isDigitOf, h, hval]

theorem foldl_digitVal : ∀ (cs : List Char) (n : ℕ), (∀ c ∈ cs, c.isDigit = true) →
    cs.foldl (fun n c => n * 10 + digitVal c) n = Nat.ofDigitChars 10 cs n
  | [], _, _ => rfl
  | c :: cs, n, h => by
    have hc : digitVal c = c.toNat - '0'.toNat := if_pos (h c List.mem_cons_self)
    rw [List.foldl_cons, Nat.ofDigitChars_cons, foldl_digitVal cs _ fun d hd => h d (List.mem_cons_of_mem c hd), hc]
    rw [Nat.mul_comm]

theorem radixOf_of_isDigit {c : Char} (h : c.isDigit = true) : radixOf c = none := by
  unfold radixOf
  split_ifs with hx ho hb
  · rcases hx with rfl | rfl <;> cases h
  · rcases ho with rfl | rfl <;> cases h
  · rcases hb with rfl | rfl <;> cases h
  · rfl

theorem unsigned_of_digits {cs : List Char} (h : ∀ c ∈ cs, c.isDigit = true) : unsigned cs = digits 10 cs := by
  unfold unsigned
  split
  · rename_i c p ds
    rw [radixOf_of_isDigit (h p (by simp))]
  · rfl

/-- A text of decimal digits is the number that it writes. -/
theorem bigInt_of_digits {cs : List Char} (hne : cs ≠ []) (h : ∀ c ∈ cs, c.isDigit = true) :
    bigInt cs = some (Int.ofNat (Nat.ofDigitChars 10 cs 0)) := by
  have hall : cs.all (isDigitOf 10) = true := List.all_eq_true.mpr fun c hc => isDigitOf_ten (h c hc)
  have hdigits : digits 10 cs = some (Nat.ofDigitChars 10 cs 0) := by
    rw [digits, if_neg (by simp [hne, hall]), foldl_digitVal cs 0 h]
  rw [bigInt, trim_of_digits h, if_neg hne]
  obtain ⟨c, ds, rfl⟩ := List.exists_cons_of_ne_nil hne
  have hc : c.isDigit = true := h c List.mem_cons_self
  have hplus : c ≠ '+' := by
    rintro rfl
    cases hc
  have hminus : c ≠ '-' := by
    rintro rfl
    cases hc
  rw [literal, if_neg hplus, if_neg hminus, unsigned_of_digits h, hdigits, Option.map_some]

theorem bigInt_natChars (n : ℕ) : bigInt (natChars n) = some (Int.ofNat n) := by
  rw [bigInt_of_digits (natChars_ne_nil n) fun _ hc => isDigit_of_mem_natChars hc]
  exact congrArg (fun k => some (Int.ofNat k)) Nat.ofDigitChars_ten_toDigits

end BigInt
