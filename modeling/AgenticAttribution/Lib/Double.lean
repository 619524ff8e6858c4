import Mathlib.Data.Nat.Log
import Mathlib.Data.Nat.Bitwise

/-!
# Lib.Double — integers as double-precision numbers

What `Number(text)` and `JSON.parse` make of an integer literal: the nearest integer with 53 significant bits, and of
two that are equally near the even one.  The model is of integers that a double can reach, those below `2 ^ 1024` in
magnitude.  Rounding keeps the order (`round_mono`), and it is exact up to `2 ^ 53`.  `shown` is what the number is
printed as, again its own digits up to `2 ^ 53` (`shown_of_lt`).
-/

namespace Double

/-- The nearest multiple of `2 ^ u`, half to even. -/
def nearest (u n : ℕ) : ℕ :=
  let quotient := n / 2 ^ u
  let rest := n % 2 ^ u
  (if 2 * rest > 2 ^ u ∨ (2 * rest = 2 ^ u ∧ quotient % 2 = 1) then quotient + 1 else quotient) * 2 ^ u

/-- The exponent of the last of the 53 bits. -/
def lastPlace (n : ℕ) : ℕ := n.log2 - 52

def roundNat (n : ℕ) : ℕ := nearest (lastPlace n) n

/-- `Number(n)`. -/
def round (n : ℤ) : ℤ := if 0 ≤ n then roundNat n.toNat else -roundNat (-n).toNat

theorem le_nearest (u n : ℕ) : n / 2 ^ u * 2 ^ u ≤ nearest u n := by
  unfold nearest
  refine Nat.mul_le_mul_right _ ?_
  split_ifs <;> omega

theorem nearest_le (u n : ℕ) : nearest u n ≤ (n / 2 ^ u + 1) * 2 ^ u := by
  unfold nearest
  refine Nat.mul_le_mul_right _ ?_
  split_ifs <;> omega

theorem nearest_zero (n : ℕ) : nearest 0 n = n := by
  unfold nearest
  simp only [pow_zero, Nat.div_one, Nat.mod_one, Nat.mul_one]
  exact if_neg (by omega)

theorem nearest_mono (u : ℕ) {m n : ℕ} (h : m ≤ n) : nearest u m ≤ nearest u n := by
  have hq : m / 2 ^ u ≤ n / 2 ^ u := Nat.div_le_div_right h
  rcases Nat.lt_or_eq_of_le hq with hlt | heq
  · calc nearest u m ≤ (m / 2 ^ u + 1) * 2 ^ u := nearest_le u m
      _ ≤ n / 2 ^ u * 2 ^ u := Nat.mul_le_mul_right _ hlt
      _ ≤ nearest u n := le_nearest u n
  · -- the quotients are equal, so the rests are in order
    have hr : m % 2 ^ u ≤ n % 2 ^ u := by
      have hm := Nat.div_add_mod m (2 ^ u)
      have hn := Nat.div_add_mod n (2 ^ u)
      rw [heq] at hm
      omega
    unfold nearest
    refine Nat.mul_le_mul_right _ ?_
    rw [heq]
    split_ifs <;> omega

theorem roundNat_of_lt {n : ℕ} (h : n < 2 ^ 53) : roundNat n = n := by
  have hlog : lastPlace n = 0 := by
    unfold lastPlace
    by_cases hn : n = 0
    · subst hn
      rfl
    · have := (Nat.log2_lt hn).mpr h
      omega
  rw [roundNat, hlog, nearest_zero]

/-- A number below a power of two is not rounded beyond it. -/
theorem roundNat_le_pow {n e : ℕ} (h : n < 2 ^ e) : roundNat n ≤ 2 ^ e := by
  by_cases hsmall : n < 2 ^ 53
  · rw [roundNat_of_lt hsmall]
    exact Nat.le_of_lt h
  · have hn : n ≠ 0 := by
      rintro rfl
      exact hsmall (by decide)
    have hlog : n.log2 < e := (Nat.log2_lt hn).mpr h
    have hlow : 53 ≤ n.log2 := (Nat.le_log2 hn).mpr (by omega)
    have hplace : lastPlace n ≤ e := by
      unfold lastPlace
      omega
    have hquot : n / 2 ^ lastPlace n < 2 ^ (e - lastPlace n) := by
      rw [Nat.div_lt_iff_lt_mul (Nat.two_pow_pos _), ← pow_add, Nat.sub_add_cancel hplace]
      exact h
    calc roundNat n ≤ (n / 2 ^ lastPlace n + 1) * 2 ^ lastPlace n := nearest_le _ n
      _ ≤ 2 ^ (e - lastPlace n) * 2 ^ lastPlace n := Nat.mul_le_mul_right _ hquot
      _ = 2 ^ e := by rw [← pow_add, Nat.sub_add_cancel hplace]

/-- A number from a power of two on is not rounded below it. -/
theorem pow_le_roundNat {n : ℕ} (hn : n ≠ 0) : 2 ^ n.log2 ≤ roundNat n := by
  have hself : 2 ^ n.log2 ≤ n := Nat.log2_self_le hn
  have hplace : lastPlace n ≤ n.log2 := by
    unfold lastPlace
    omega
  have hquot : 2 ^ (n.log2 - lastPlace n) ≤ n / 2 ^ lastPlace n := by
    rw [Nat.le_div_iff_mul_le (Nat.two_pow_pos _), ← pow_add, Nat.sub_add_cancel hplace]
    exact hself
  calc 2 ^ n.log2 = 2 ^ (n.log2 - lastPlace n) * 2 ^ lastPlace n := by rw [← pow_add, Nat.sub_add_cancel hplace]
    _ ≤ n / 2 ^ lastPlace n * 2 ^ lastPlace n := Nat.mul_le_mul_right _ hquot
    _ ≤ roundNat n := le_nearest _ n

theorem roundNat_mono {m n : ℕ} (h : m ≤ n) : roundNat m ≤ roundNat n := by
  by_cases hm : m = 0
  · subst hm
    exact Nat.zero_le _
  · have hn : n ≠ 0 := by omega
    have hlogs : m.log2 ≤ n.log2 := (Nat.le_log2 hn).mpr ((Nat.log2_self_le hm).trans h)
    rcases Nat.lt_or_eq_of_le hlogs with hlt | heq
    · have hpow : m < 2 ^ (m.log2 + 1) := Nat.lt_log2_self
      calc roundNat m ≤ 2 ^ (m.log2 + 1) := roundNat_le_pow hpow
        _ ≤ 2 ^ n.log2 := Nat.pow_le_pow_right (by decide) hlt
        _ ≤ roundNat n := pow_le_roundNat hn
    · have hplace : lastPlace m = lastPlace n := by rw [lastPlace, lastPlace, heq]
      rw [roundNat, roundNat, hplace]
      exact nearest_mono _ h

/-- **Rounding keeps the order.** -/
theorem round_mono {a b : ℤ} (h : a ≤ b) : round a ≤ round b := by
  unfold round
  split_ifs with ha hb hb
  · exact Int.ofNat_le.mpr (roundNat_mono (Int.toNat_le_toNat h))
  · omega
  · omega
  · exact Int.neg_le_neg (Int.ofNat_le.mpr (roundNat_mono (Int.toNat_le_toNat (by omega))))

theorem round_of_lt {n : ℤ} (h0 : 0 ≤ n) (h : n < 2 ^ 53) : round n = n := by
  rw [round, if_pos h0, roundNat_of_lt (by omega)]
  omega

theorem round_nonneg {n : ℤ} (h : 0 ≤ n) : 0 ≤ round n := by
  rw [round, if_pos h]
  exact Int.natCast_nonneg _

/-- The first integer that a double cannot hold. -/
example : round (2 ^ 53 + 1) = 2 ^ 53 := by decide

/-! ## The digits of a number

`Number::toString` prints the shortest numeral that is read back: the one with the most zeros at its end.  The model
is of the integers below `10 ^ 21`, which are printed without an exponent.
-/

section Shown

/-- The `s` for which `s` with `j` zeros behind it is read as `x`: the nearer to `x` of the two next to it, and of two
that are equally near the even one. -/
def significand (j x : ℕ) : Option ℕ :=
  let low := x / 10 ^ j
  let rest := x % 10 ^ j
  if roundNat (low * 10 ^ j) = x then
    if roundNat ((low + 1) * 10 ^ j) = x ∧ (2 * rest > 10 ^ j ∨ (2 * rest = 10 ^ j ∧ low % 2 = 1)) then some (low + 1)
    else some low
  else if roundNat ((low + 1) * 10 ^ j) = x then some (low + 1)
  else none

/-- The numeral with the most zeros at its end, `j` of them at most, that is read as `x`. -/
def shortestFrom : ℕ → ℕ → ℕ
  | 0, x => x
  | j + 1, x => ((significand (j + 1) x).map (· * 10 ^ (j + 1))).getD (shortestFrom j x)

def shortest (x : ℕ) : ℕ := shortestFrom 21 x

/-- The integer that `Number::toString` prints for `n`. -/
def shown (n : ℤ) : ℤ := if 0 ≤ n then shortest n.toNat else -shortest (-n).toNat

theorem roundNat_significand {j x s : ℕ} (h : significand j x = some s) : roundNat (s * 10 ^ j) = x := by
  simp only [significand] at h
  split_ifs at h with hlow hhigh hhigh
  · obtain rfl := Option.some.inj h
    exact hhigh.1
  · obtain rfl := Option.some.inj h
    exact hlow
  · obtain rfl := Option.some.inj h
    exact hhigh

theorem roundNat_shortestFrom {x : ℕ} (hx : roundNat x = x) (j : ℕ) : roundNat (shortestFrom j x) = x := by
  induction j with
  | zero =>
    rw [shortestFrom]
    exact hx
  | succ j ih =>
    rw [shortestFrom]
    cases hs : significand (j + 1) x with
    | some s => exact roundNat_significand hs
    | none => exact ih

/-- Up to `2 ^ 53` nothing else is read as the number. -/
theorem eq_of_roundNat_lt {m x : ℕ} (hx : x < 2 ^ 53) (h : roundNat m = x) : m = x := by
  by_cases hm : m < 2 ^ 53
  · rw [← h, roundNat_of_lt hm]
  · have hpow : roundNat (2 ^ 53) = 2 ^ 53 := by decide
    have hle : roundNat (2 ^ 53) ≤ roundNat m := roundNat_mono (by omega)
    omega

theorem shown_of_lt {n : ℤ} (h0 : 0 ≤ n) (h : n < 2 ^ 53) : shown n = n := by
  have hlt : n.toNat < 2 ^ 53 := by omega
  have hshort : shortest n.toNat = n.toNat :=
    eq_of_roundNat_lt hlt (roundNat_shortestFrom (roundNat_of_lt hlt) 21)
  rw [shown, if_pos h0, hshort]
  omega

/-- A number that a double holds, and that is not printed with its own digits. -/
example : round (2 ^ 55) = 2 ^ 55 ∧ shown (2 ^ 55) = 36028797018963970 := by decide

end Shown

end Double
