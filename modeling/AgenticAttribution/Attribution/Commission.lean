import AgenticAttribution.Attribution.Assertion

/-!
# Attribution.Commission — how far the commission split is exact

`calculateCommission` multiplies before it divides, and the product wraps at 64 bits.  Up to `2 ^ 63` the split is
the one of exact arithmetic (`calculateCommission_of_fits`), with all that follows for its parts; from there on the
commission is wrong (`tdiv_int64_eq_iff`), and it may be negative (`split_nonneg_iff`).
-/

namespace Attribution

/-! ## Wrapped products -/

section Wrapping

/-- A wrapped value is in range, and off by a multiple of `2 ^ 64`. -/
theorem int64_spec (n : ℤ) : -2 ^ 63 ≤ int64 n ∧ int64 n < 2 ^ 63 ∧ ∃ k, int64 n = n - k * 2 ^ 64 := by
  unfold int64
  rw [Int.bmod_def]
  split
  · exact ⟨by omega, by omega, n / 2 ^ 64, by omega⟩
  · exact ⟨by omega, by omega, n / 2 ^ 64 + 1, by omega⟩

/-- Truncating division by a positive number, on either side of zero. -/
theorem tdiv_cases (w : ℤ) :
    (0 ≤ w ∧ w.tdiv basisPointsDivisor = w / 10000) ∨ (w < 0 ∧ w.tdiv basisPointsDivisor = -(-w / 10000)) := by
  by_cases h : 0 ≤ w
  · exact Or.inl ⟨h, Int.tdiv_eq_ediv_of_nonneg h⟩
  · refine Or.inr ⟨by omega, ?_⟩
    have hneg : w.tdiv basisPointsDivisor = -(-w).tdiv basisPointsDivisor := by rw [Int.neg_tdiv, Int.neg_neg]
    rw [hneg, Int.tdiv_eq_ediv_of_nonneg (by omega)]
    rfl

/-- The quotient of a wrapped product is the exact one as long as the product fits, and never again. -/
theorem tdiv_int64_eq_iff {n : ℤ} (hn : 0 ≤ n) : (int64 n).tdiv basisPointsDivisor = n / 10000 ↔ n < 2 ^ 63 := by
  constructor
  · intro h
    by_contra hbig
    obtain ⟨-, hhi, k, hk⟩ := int64_spec n
    have hwrapped : int64 n ≤ n - 2 ^ 64 := by omega
    rcases tdiv_cases (int64 n) with ⟨hpos, hq⟩ | ⟨hneg, hq⟩ <;> omega
  · intro h
    rw [int64_of_bounds (by omega) h, Int.tdiv_eq_ediv_of_nonneg hn]
    rfl

end Wrapping

/-! ## The split -/

section Split

/-- Each part of a split is at most the matching part of another. -/
structure CommissionSplit.LE (s t : CommissionSplit) : Prop where
  commission : s.commissionAmountCents ≤ t.commissionAmountCents
  platformFee : s.platformFeeCents ≤ t.platformFeeCents
  publisherAmount : s.publisherAmountCents ≤ t.publisherAmountCents

/-- The split that exact arithmetic makes of a commission. -/
def CommissionSplit.ofCommission (commission : ℤ) : CommissionSplit :=
  ⟨commission, commission * 3000 / 10000, commission - commission * 3000 / 10000⟩

/-- Neither floor takes more than it leaves: a larger commission gives both parties at least as much. -/
theorem CommissionSplit.ofCommission_mono {c d : ℤ} (h : c ≤ d) : (ofCommission c).LE (ofCommission d) where
  commission := h
  platformFee := by
    simp only [ofCommission]
    omega
  publisherAmount := by
    simp only [ofCommission]
    omega

theorem calculateCommission_eq_ofCommission {gross bps : ℤ} (hgross : 0 ≤ gross) (hbps : 0 ≤ bps)
    (hfits : gross * bps < 2 ^ 63) :
    calculateCommission gross bps = CommissionSplit.ofCommission (gross * bps / 10000) :=
  calculateCommission_of_fits (Int.mul_nonneg hgross hbps) hfits

/-- A commission of at most 10000 basis points does not exceed the amount it is taken from. -/
theorem commission_le_gross {gross bps : ℤ} (hgross : 0 ≤ gross) (hbps : bps ≤ 10000) :
    gross * bps / 10000 ≤ gross := by
  have hmul : gross * bps ≤ gross * 10000 := Int.mul_le_mul_of_nonneg_left hbps hgross
  omega

/-- What the split of an amount should be: both floors exact, the parts adding up within the amount, and no split
of a smaller amount at a smaller rate larger in any part. -/
structure ExactSplit (gross bps : ℤ) (s : CommissionSplit) : Prop where
  commission : s.commissionAmountCents = gross * bps / 10000
  platformFee : s.platformFeeCents = s.commissionAmountCents * 3000 / 10000
  total : s.platformFeeCents + s.publisherAmountCents = s.commissionAmountCents
  le_gross : s.commissionAmountCents ≤ gross
  platformFee_nonneg : 0 ≤ s.platformFeeCents
  publisherAmount_nonneg : 0 ≤ s.publisherAmountCents
  mono : ∀ gross' bps', 0 ≤ gross' → gross' ≤ gross → 0 ≤ bps' → bps' ≤ bps → (calculateCommission gross' bps').LE s

theorem exactSplit_of_fits {gross bps : ℤ} (hgross : 0 ≤ gross) (hbps : 0 ≤ bps) (hrange : bps ≤ 10000)
    (hfits : gross * bps < 2 ^ 63) : ExactSplit gross bps (calculateCommission gross bps) := by
  have hproduct : 0 ≤ gross * bps := Int.mul_nonneg hgross hbps
  have hle := commission_le_gross hgross hrange
  rw [calculateCommission_eq_ofCommission hgross hbps hfits]
  refine ⟨rfl, rfl, ?_, hle, ?_, ?_, ?_⟩
  · simp only [CommissionSplit.ofCommission]
    omega
  · simp only [CommissionSplit.ofCommission]
    omega
  · simp only [CommissionSplit.ofCommission]
    omega
  · intro gross' bps' hg hgross' hb hbps'
    have hmul : gross' * bps' ≤ gross * bps := Int.mul_le_mul hgross' hbps' hb hgross
    rw [calculateCommission_eq_ofCommission hg hb (by omega)]
    exact CommissionSplit.ofCommission_mono (by omega)

/-- **Where the split is exact**: exactly as long as the price in cents times the rate stays below `2 ^ 63`. -/
theorem exactSplit_iff_fits {gross bps : ℤ} (hgross : 0 ≤ gross) (hbps : 0 ≤ bps) (hrange : bps ≤ 10000) :
    ExactSplit gross bps (calculateCommission gross bps) ↔ gross * bps < 2 ^ 63 := by
  constructor
  · intro h
    exact (tdiv_int64_eq_iff (Int.mul_nonneg hgross hbps)).mp h.commission
  · intro h
    exact exactSplit_of_fits hgross hbps hrange h

theorem exactSplit_iff_fits_sample : (0 : ℤ) ≤ 1999 ∧
    (ExactSplit 1999 850 (calculateCommission 1999 850) ↔ (1999 : ℤ) * 850 < 2 ^ 63) :=
  ⟨by omega, exactSplit_iff_fits (by omega) (by omega) (by omega)⟩

/-- A price near the top of the column, all of it commission: the product wraps to 8384, and nothing is left of
it. -/
theorem exactSplit_overflow : calculateCommission 1844674407370956 10000 = ⟨0, 0, 0⟩ ∧
    ¬ExactSplit 1844674407370956 10000 (calculateCommission 1844674407370956 10000) := by
  have hsplit : calculateCommission 1844674407370956 10000 = ⟨0, 0, 0⟩ := by decide
  refine ⟨hsplit, ?_⟩
  intro h
  have hcommission := h.commission
  rw [hsplit] at hcommission
  simp only at hcommission
  omega

/-- Only the first product can wrap: what division by 10000 leaves is small. -/
theorem calculateCommission_eq (gross bps : ℤ) :
    calculateCommission gross bps =
      ⟨(int64 (gross * bps)).tdiv basisPointsDivisor,
        ((int64 (gross * bps)).tdiv basisPointsDivisor * 3000).tdiv basisPointsDivisor,
        (int64 (gross * bps)).tdiv basisPointsDivisor
          - ((int64 (gross * bps)).tdiv basisPointsDivisor * 3000).tdiv basisPointsDivisor⟩ := by
  obtain ⟨hlo, hhi, -⟩ := int64_spec (gross * bps)
  have hcommission := tdiv_cases (int64 (gross * bps))
  set c := (int64 (gross * bps)).tdiv basisPointsDivisor with hc
  have hfee := tdiv_cases (c * 3000)
  have hshare : int64 (c * platformFeeShareBps) = c * 3000 := int64_of_bounds
    (show -2 ^ 63 ≤ c * 3000 by omega) (show c * 3000 < 2 ^ 63 by omega)
  have hrest : int64 (c - (c * 3000).tdiv basisPointsDivisor) = c - (c * 3000).tdiv basisPointsDivisor :=
    int64_of_bounds (by omega) (by omega)
  simp only [calculateCommission, ← hc, hshare, hrest]

/-- The parts of a split add up, whatever wrapped. -/
theorem calculateCommission_total (gross bps : ℤ) :
    (calculateCommission gross bps).platformFeeCents + (calculateCommission gross bps).publisherAmountCents
      = (calculateCommission gross bps).commissionAmountCents := by
  rw [calculateCommission_eq]
  simp only
  omega

/-- The 64-bit product is not negative, or so little that the division cuts it off. -/
def NonnegativeProduct (gross bps : ℤ) : Prop :=
  gross * bps % 2 ^ 64 < 2 ^ 63 ∨ 2 ^ 64 - 10000 < gross * bps % 2 ^ 64

instance (gross bps : ℤ) : Decidable (NonnegativeProduct gross bps) :=
  inferInstanceAs (Decidable (_ ∨ _))

theorem nonnegativeProduct_iff {gross bps : ℤ} : NonnegativeProduct gross bps ↔ -10000 < int64 (gross * bps) := by
  unfold NonnegativeProduct
  obtain ⟨hlo, hhi, k, hk⟩ := int64_spec (gross * bps)
  omega

/-- No part of a split is negative exactly if the product is not; no part is too large for its column. -/
theorem split_nonneg_iff (gross bps : ℤ) :
    (0 ≤ (calculateCommission gross bps).commissionAmountCents ∧
      (calculateCommission gross bps).commissionAmountCents < 2 ^ 63 ∧
      0 ≤ (calculateCommission gross bps).platformFeeCents ∧
      0 ≤ (calculateCommission gross bps).publisherAmountCents) ↔ NonnegativeProduct gross bps := by
  obtain ⟨hlo, hhi, -⟩ := int64_spec (gross * bps)
  have hcommission := tdiv_cases (int64 (gross * bps))
  rw [nonnegativeProduct_iff, calculateCommission_eq]
  set c := (int64 (gross * bps)).tdiv basisPointsDivisor
  have hfee := tdiv_cases (c * 3000)
  simp only
  omega

end Split

end Attribution
