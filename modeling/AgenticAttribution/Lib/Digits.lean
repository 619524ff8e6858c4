import Mathlib.Data.List.Basic
import Mathlib.Data.Int.Notation
import Mathlib.Tactic.IntervalCases

/-!
# Lib.Digits — decimal numerals

`intChars` is the numeral that `strconv.AppendInt` and JavaScript's `BigInt` print for an integer;
`padInt w` is the numeral padded with zeros to `w` digits, as Go's time formatting writes a field.
-/

namespace Digits

/-- The decimal numeral of a natural number. -/
def natChars (n : ℕ) : List Char := Nat.toDigits 10 n

/-- The decimal numeral of an integer. -/
def intChars : ℤ → List Char
  | .ofNat n => natChars n
  | .negSucc n => '-' :: natChars (n + 1)

/-- The numeral of `n` behind as many zeros as it takes to fill `w` places. -/
def padNat (w n : ℕ) : List Char := List.replicate (w - (natChars n).length) '0' ++ natChars n

/-- `padNat` behind a sign. -/
def padInt (w : ℕ) : ℤ → List Char
  | .ofNat n => padNat w n
  | .negSucc n => '-' :: padNat w (n + 1)

/-- Takes a numeral of exactly `w` digits off the front. -/
def readNat (w : ℕ) (cs : List Char) : Option (ℕ × List Char) :=
  if (cs.take w).length = w ∧ (cs.take w).all Char.isDigit then
    some (Nat.ofDigitChars 10 (cs.take w) 0, cs.drop w)
  else none

theorem natChars_injective : Function.Injective natChars := by
  intro n m h
  have hn := Nat.ofDigitChars_ten_toDigits (n := n)
  have hm := Nat.ofDigitChars_ten_toDigits (n := m)
  unfold natChars at h
  rw [← hn, ← hm, h]

theorem isDigit_of_mem_natChars {n : ℕ} {c : Char} (h : c ∈ natChars n) : c.isDigit = true :=
  Nat.isDigit_of_mem_toDigits (by decide) (by decide) h

theorem toNat_lt_of_isDigit {c : Char} (h : c.isDigit = true) : c.toNat < 128 := by
  simp only [Char.isDigit, Bool.and_eq_true, decide_eq_true_eq] at h
  exact Nat.lt_of_le_of_lt (UInt32.le_iff_toNat_le.mp h.2) (by decide)

theorem natChars_ne_nil (n : ℕ) : natChars n ≠ [] := Nat.toDigits_ne_nil

/-- A numeral but zero's does not begin with a zero. -/
theorem natChars_head {n : ℕ} (h : 0 < n) : ∃ c r, natChars n = c :: r ∧ c ≠ '0' := by
  induction n using Nat.strongRecOn with
  | ind n ih =>
    rw [natChars, Nat.toDigits_eq_if (by decide)]
    by_cases hn : n < 10
    · rw [if_pos hn]
      refine ⟨_, _, rfl, ?_⟩
      interval_cases n <;> decide
    · rw [if_neg hn]
      obtain ⟨c, r, hr, hc⟩ := ih (n / 10) (by omega) (by omega)
      rw [natChars] at hr
      exact ⟨c, r ++ [(n % 10).digitChar], by rw [hr, List.cons_append], hc⟩

theorem minus_notMem_natChars (n : ℕ) : '-' ∉ natChars n := by
  intro h
  exact absurd (isDigit_of_mem_natChars h) (by decide)

theorem intChars_injective : Function.Injective intChars := by
  intro n m h
  cases n with
  | ofNat n =>
    cases m with
    | ofNat m => rw [natChars_injective h]
    | negSucc m =>
      exact absurd (show '-' ∈ natChars n by rw [show natChars n = '-' :: natChars (m + 1) from h]; simp)
        (minus_notMem_natChars n)
  | negSucc n =>
    cases m with
    | ofNat m =>
      exact absurd (show '-' ∈ natChars m by rw [show natChars m = '-' :: natChars (n + 1) from h.symm]; simp)
        (minus_notMem_natChars m)
    | negSucc m =>
      have hnm := natChars_injective (List.cons.inj h).2
      rw [Nat.succ.inj hnm]

/-- A numeral holds digits and at most a sign. -/
theorem notMem_intChars {c : Char} (hc : c.isDigit = false) (hs : c ≠ '-') (n : ℤ) : c ∉ intChars n := by
  intro h
  cases n with
  | ofNat n => rw [isDigit_of_mem_natChars h] at hc; cases hc
  | negSucc n =>
    rcases List.mem_cons.mp h with h | h
    · exact hs h
    · rw [isDigit_of_mem_natChars h] at hc; cases hc

/-! ## Padded numerals -/

section Padded

theorem length_natChars_le {n w : ℕ} (h : n < 10 ^ w) (hw : 0 < w) : (natChars n).length ≤ w :=
  (Nat.length_toDigits_le_iff (by decide) hw).mpr h

theorem length_padNat {n w : ℕ} (h : n < 10 ^ w) (hw : 0 < w) : (padNat w n).length = w := by
  have hle := length_natChars_le h hw
  rw [padNat, List.length_append, List.length_replicate]
  omega

theorem isDigit_of_mem_padNat {w n : ℕ} {c : Char} (h : c ∈ padNat w n) : c.isDigit = true := by
  rcases List.mem_append.mp h with h | h
  · rw [List.eq_of_mem_replicate h]
    rfl
  · exact isDigit_of_mem_natChars h

theorem toNat_lt_of_mem_padInt {w : ℕ} {n : ℤ} {c : Char} (h : c ∈ padInt w n) : c.toNat < 128 := by
  cases n with
  | ofNat n => exact toNat_lt_of_isDigit (isDigit_of_mem_padNat h)
  | negSucc n =>
    rcases List.mem_cons.mp h with rfl | h
    · decide
    · exact toNat_lt_of_isDigit (isDigit_of_mem_padNat h)

theorem ofDigitChars_padNat (w n : ℕ) : Nat.ofDigitChars 10 (padNat w n) 0 = n := by
  rw [padNat, Nat.ofDigitChars_append, Nat.ofDigitChars_replicate_zero, Nat.mul_zero]
  exact Nat.ofDigitChars_ten_toDigits

/-- A padded field is read back. -/
theorem readNat_padNat {n w : ℕ} (h : n < 10 ^ w) (hw : 0 < w) (cs : List Char) :
    readNat w (padNat w n ++ cs) = some (n, cs) := by
  have hlen := length_padNat h hw
  have htake : (padNat w n ++ cs).take w = padNat w n := List.take_left' hlen
  have hall : (padNat w n).all Char.isDigit = true :=
    List.all_eq_true.mpr fun c hc => isDigit_of_mem_padNat hc
  rw [readNat, htake, if_pos ⟨hlen, hall⟩, ofDigitChars_padNat, List.drop_left' hlen]

/-- A number too long for its field goes on with a digit. -/
theorem readNat_padNat_of_le {n w : ℕ} (h : 10 ^ w ≤ n) (hw : 0 < w) (cs : List Char) :
    ∃ m c r, readNat w (padNat w n ++ cs) = some (m, c :: r) ∧ c.isDigit = true := by
  have hlt : w < (natChars n).length := by
    by_contra hle
    have := (Nat.length_toDigits_le_iff (b := 10) (by decide) hw).mp (Nat.le_of_not_lt hle)
    omega
  have hpad : padNat w n = natChars n := by
    rw [padNat, Nat.sub_eq_zero_of_le (Nat.le_of_lt hlt), List.replicate_zero, List.nil_append]
  have hall : ((natChars n ++ cs).take w).all Char.isDigit = true := by
    rw [List.take_append_of_le_length (Nat.le_of_lt hlt)]
    exact List.all_eq_true.mpr fun c hc => isDigit_of_mem_natChars (List.mem_of_mem_take hc)
  have hlen : ((natChars n ++ cs).take w).length = w := by
    rw [List.length_take, List.length_append]
    omega
  obtain ⟨c, r, hr⟩ : ∃ c r, (natChars n).drop w = c :: r :=
    List.exists_cons_of_ne_nil fun h0 => by
      have := List.length_drop (l := natChars n) (i := w)
      rw [h0, List.length_nil] at this
      omega
  refine ⟨Nat.ofDigitChars 10 ((natChars n ++ cs).take w) 0, c, r ++ cs, ?_, ?_⟩
  · rw [hpad, readNat, if_pos ⟨hlen, hall⟩, List.drop_append_of_le_length (Nat.le_of_lt hlt), hr]
    rfl
  · exact isDigit_of_mem_natChars (List.mem_of_mem_drop (by rw [hr]; exact List.mem_cons_self))

end Padded

end Digits
