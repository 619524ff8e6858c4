import AgenticAttribution.Lib.BigInt
import Mathlib.Algebra.Order.Floor.Ring
import Mathlib.Data.Int.Log
import Mathlib.Data.List.TakeWhile
import Mathlib.Data.Rat.Floor

/-!
# Lib.JsNumber — numbers out of texts, the way JavaScript reads them

`number` is `Number(text)`: blanks around a literal are ignored, a decimal may carry a sign, a fraction and an
exponent, and a blank text is zero.  The value is rounded to a double.  Up to `2 ^ 53` a comparison does not see the
rounding (`exceeds_number_natChars`).
-/

namespace JsNumber

open BigInt Digits

/-- A Number.  The two zeros are one. -/
inductive Num where
  | nan
  | finite (q : ℚ)
  | infinite (negative : Bool)
  deriving DecidableEq

def Num.neg : Num → Num
  | nan => nan
  | finite q => finite (-q)
  | infinite negative => infinite !negative

/-- `x > m`. -/
def Num.exceeds : Num → ℕ → Bool
  | nan, _ => false
  | finite q, m => m < q
  | infinite negative, _ => !negative

/-! ## Rounding -/

/-- The nearest integer, half to even. -/
def roundEven (q : ℚ) : ℤ :=
  if q - ⌊q⌋ < 1 / 2 then ⌊q⌋ else if 1 / 2 < q - ⌊q⌋ then ⌊q⌋ + 1 else ⌊q⌋ + ⌊q⌋ % 2

/-- The exponent of the last of the 53 bits. -/
def lastPlace (q : ℚ) : ℤ := max (Int.log 2 q - 52) (-1074)

/-- The double nearest to a number that is not negative. -/
def toDouble (q : ℚ) : Num :=
  let rounded : ℚ := roundEven (q / 2 ^ lastPlace q) * 2 ^ lastPlace q
  if rounded < 2 ^ 1024 then .finite rounded else .infinite false

/-! ## Literals -/

/-- The exponent of a decimal literal. -/
def exponent : List Char → Option ℤ
  | [] => some 0
  | c :: cs =>
    if c = 'e' ∨ c = 'E' then
      match cs with
      | '+' :: ds => (digits 10 ds).map Int.ofNat
      | '-' :: ds => (digits 10 ds).map fun n => -Int.ofNat n
      | ds => (digits 10 ds).map Int.ofNat
    else none

/-- The digits behind a decimal point, and what is left. -/
def fraction : List Char → List Char × List Char
  | '.' :: cs => (cs.takeWhile Char.isDigit, cs.dropWhile Char.isDigit)
  | cs => ([], cs)

/-- A decimal literal without a sign. -/
def decimal (cs : List Char) : Num :=
  let whole := cs.takeWhile Char.isDigit
  let (part, rest) := fraction (cs.dropWhile Char.isDigit)
  if cs = "Infinity".toList then .infinite false
  else if whole ++ part = [] then .nan
  else
    match exponent rest with
    | none => .nan
    | some e => toDouble (Nat.ofDigitChars 10 (whole ++ part) 0 * 10 ^ (e - part.length))

/-- A literal without blanks around it. -/
def literal (cs : List Char) : Num :=
  match cs with
  | [] => .finite 0
  | '+' :: ds => decimal ds
  | '-' :: ds => (decimal ds).neg
  | '0' :: p :: ds =>
    match radixOf p with
    | some b => ((digits b ds).map fun n : ℕ => toDouble n).getD .nan
    | none => decimal cs
  | _ => decimal cs

/-- `Number` of a text. -/
def number (cs : List Char) : Num := literal (trim cs)

example : number " 1.5e1 ".toList = .finite 15 := by decide +kernel
example : number "0x10".toList = .finite 16 := by decide +kernel
example : number "12a".toList = .nan := by decide +kernel
example : number "262144.000000000001".toList = .finite 262144 := by decide +kernel

/-! ## Numerals -/

section Numerals

theorem floor_le_roundEven (q : ℚ) : ⌊q⌋ ≤ roundEven q := by
  have hrest := Int.emod_nonneg ⌊q⌋ (by decide : (2 : ℤ) ≠ 0)
  unfold roundEven
  split_ifs <;> omega

theorem roundEven_intCast (z : ℤ) : roundEven (z : ℚ) = z := by
  rw [roundEven, Int.floor_intCast, sub_self, if_pos (by norm_num)]

/-- A number with at most 53 bits is a double. -/
theorem toDouble_of_lt {n : ℕ} (h : n < 2 ^ 53) : toDouble n = .finite n := by
  have hlog : Nat.log 2 n < 53 := Nat.log_lt_of_lt_pow' (by decide) h
  obtain ⟨k, hk⟩ : ∃ k : ℕ, lastPlace n = -(k : ℤ) := by
    refine ⟨(-lastPlace n).toNat, ?_⟩
    have hle : lastPlace n ≤ 0 := by
      rw [lastPlace, Int.log_natCast]
      exact max_le (by omega) (by decide)
    omega
  have hscaled : (n : ℚ) / 2 ^ lastPlace n = ((n * 2 ^ k : ℕ) : ℤ) := by
    rw [hk, zpow_neg, zpow_natCast, div_inv_eq_mul]
    push_cast
    rfl
  have hrounded : (roundEven ((n : ℚ) / 2 ^ lastPlace n) : ℚ) * 2 ^ lastPlace n = n := by
    rw [hscaled, roundEven_intCast, ← hscaled]
    exact div_mul_cancel₀ _ (zpow_ne_zero _ (by norm_num))
  have hfits : (n : ℚ) < 2 ^ 1024 := by
    calc (n : ℚ) < ((2 ^ 53 : ℕ) : ℚ) := by exact_mod_cast h
      _ ≤ 2 ^ 1024 := by
        rw [Nat.cast_pow, Nat.cast_ofNat]
        exact pow_le_pow_right₀ (by norm_num) (by norm_num)
  simp only [toDouble, hrounded, if_pos hfits]

/-- Rounding does not go below a power of two. -/
theorem le_rounded {n : ℕ} (h : 2 ^ 53 ≤ n) :
    (2 ^ 53 : ℚ) ≤ roundEven ((n : ℚ) / 2 ^ lastPlace n) * 2 ^ lastPlace n := by
  have hn : n ≠ 0 := by
    rintro rfl
    norm_num at h
  have hlog : 53 ≤ Nat.log 2 n := (Nat.le_log_iff_pow_le (by decide) hn).mpr h
  have hplace : lastPlace n = (Nat.log 2 n : ℤ) - 52 := by
    rw [lastPlace, Int.log_natCast]
    exact max_eq_left (by omega)
  have hpos : (0 : ℚ) < 2 ^ lastPlace n := zpow_pos (by norm_num) _
  have hpow : (2 : ℚ) ^ (52 : ℕ) * 2 ^ lastPlace n = 2 ^ Nat.log 2 n := by
    rw [hplace, ← zpow_natCast, ← zpow_natCast, ← zpow_add₀ (by norm_num : (2 : ℚ) ≠ 0)]
    congr 1
    push_cast
    ring
  have hle : (2 : ℚ) ^ Nat.log 2 n ≤ n := by exact_mod_cast Nat.pow_log_le_self 2 hn
  have hfloor : (2 ^ 52 : ℤ) ≤ ⌊(n : ℚ) / 2 ^ lastPlace n⌋ := by
    rw [Int.le_floor, le_div_iff₀ hpos, Int.cast_pow, Int.cast_ofNat, hpow]
    exact hle
  have hround : ((2 ^ 52 : ℤ) : ℚ) ≤ roundEven ((n : ℚ) / 2 ^ lastPlace n) :=
    Int.cast_le.mpr (hfloor.trans (floor_le_roundEven _))
  calc (2 ^ 53 : ℚ) ≤ 2 ^ Nat.log 2 n := pow_le_pow_right₀ (by norm_num) hlog
    _ = 2 ^ 52 * 2 ^ lastPlace n := hpow.symm
    _ ≤ _ := mul_le_mul_of_nonneg_right (by exact_mod_cast hround) (le_of_lt hpos)

theorem exceeds_toDouble {m n : ℕ} (hm : m < 2 ^ 53) : (toDouble n).exceeds m = true ↔ m < n := by
  by_cases h : n < 2 ^ 53
  · rw [toDouble_of_lt h]
    simp only [Num.exceeds, decide_eq_true_eq]
    exact Nat.cast_lt
  · have hle := le_rounded (Nat.le_of_not_lt h)
    have hlt : (m : ℚ) < 2 ^ 53 := by exact_mod_cast hm
    refine iff_of_true ?_ (lt_of_lt_of_le hm (Nat.le_of_not_lt h))
    simp only [toDouble]
    split_ifs
    · exact decide_eq_true (lt_of_lt_of_le hlt hle)
    · rfl

/-- A numeral is the number that it writes. -/
theorem number_natChars (n : ℕ) : number (natChars n) = toDouble n := by
  have hdigit : ∀ c ∈ natChars n, c.isDigit = true := fun _ hc => isDigit_of_mem_natChars hc
  have htake : (natChars n).takeWhile Char.isDigit = natChars n := List.takeWhile_eq_self_iff.mpr hdigit
  have hdrop : (natChars n).dropWhile Char.isDigit = [] := List.dropWhile_eq_nil_iff.mpr hdigit
  have hvalue : Nat.ofDigitChars 10 (natChars n) 0 = n := Nat.ofDigitChars_ten_toDigits
  have hdecimal : decimal (natChars n) = toDouble n := by
    have hword : natChars n ≠ "Infinity".toList := by
      intro h
      have := hdigit 'I' (h ▸ List.mem_cons_self)
      cases this
    simp only [decimal, htake, hdrop, fraction, exponent, if_neg hword, List.append_nil, natChars_ne_nil, if_false,
      hvalue, List.length_nil, Nat.cast_zero, sub_zero, zpow_zero, mul_one]
  rw [number, trim_of_digits hdigit, ← hdecimal]
  unfold literal
  split
  · rename_i h
    exact absurd h (natChars_ne_nil n)
  · rename_i ds h
    have := hdigit '+' (h ▸ List.mem_cons_self)
    cases this
  · rename_i ds h
    have := hdigit '-' (h ▸ List.mem_cons_self)
    cases this
  · rename_i p ds h
    have hp : p.isDigit = true := hdigit p (h ▸ List.mem_cons_of_mem _ List.mem_cons_self)
    rw [radixOf_of_isDigit hp]
  · rfl

/-- **A numeral exceeds a bound** exactly if its number does. -/
theorem exceeds_number_natChars {m n : ℕ} (hm : m < 2 ^ 53) :
    (number (natChars n)).exceeds m = true ↔ m < n := by
  rw [number_natChars, exceeds_toDouble hm]

end Numerals

end JsNumber
