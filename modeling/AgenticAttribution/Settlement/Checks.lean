import AgenticAttribution.Attribution.Commission
import AgenticAttribution.Settlement.Progress

/-!
# Settlement.Checks — the service's checks against the schema's

Between the listing's price, which may be any non-negative `BIGINT`, and the `CHECK`s of `settlements` stand the
checks of `Service.Settle` and the 64-bit arithmetic of the commission.  `pending_checks_iff` says for which prices
and rates the pending row meets the `CHECK`s.
-/

namespace Settlement

open Attribution

/-- What `Settle` has established when it calls `Begin`. -/
structure Cleared (svc : Service) (req : Request) (now : ℤ) (listing : Listing)
    (answer : Except Err VerifyResponse) : Prop where
  verified : svc.verify req now = none
  listed : req.checkListing listing = none
  accepted : checkVerified answer = none

/-- A minted rate is in range. -/
theorem rate_of_mint {E : Ed25519} {sk : E.PrivateKey} {m : MintArgs} {a : Assertion} (h : mint E sk m = .ok a) :
    a.commissionBps = m.commissionBps ∧ 0 ≤ m.commissionBps ∧ m.commissionBps ≤ 10000 := by
  obtain ⟨hrange, rfl⟩ := (mint_eq_ok_iff E).mp h
  simp only [MintArgs.inRange, Bool.not_eq_true', Bool.or_eq_false_iff, decide_eq_false_iff_not] at hrange
  exact ⟨rfl, Int.not_lt.mp hrange.1, Int.not_lt.mp hrange.2⟩

/-- The numbers of a row that the `listings` table admits. -/
theorem ListingRow.bounds_of_ok {l : ListingRow} (h : l.ok = true) :
    0 ≤ l.priceCents ∧ l.priceCents < 2 ^ 63 ∧ 0 ≤ l.commissionBps ∧ l.commissionBps ≤ 10000 := by
  simp only [ListingRow.ok, Bool.and_eq_true, decide_eq_true_eq] at h
  exact ⟨h.1.1.1.2, h.1.1.2, h.1.2, h.2⟩

/-- The `CHECK`s of the row that `Begin` inserts, for a rate in range. -/
theorem checks_row_iff {p : PendingSettlement} (hlo : 0 ≤ p.commissionBps) (hhi : p.commissionBps ≤ 10000)
    (hsplit : p.split = calculateCommission p.grossAmountCents p.commissionBps) (hgross : p.grossAmountCents < 2 ^ 63) :
    p.row.checks = true ↔ 0 < p.grossAmountCents ∧ NonnegativeProduct p.grossAmountCents p.commissionBps := by
  rw [← split_nonneg_iff, ← hsplit]
  have htotal : p.split.platformFeeCents + p.split.publisherAmountCents = p.split.commissionAmountCents := by
    rw [hsplit]
    exact calculateCommission_total _ _
  simp only [SettlementRow.checks, Bool.and_eq_true, decide_eq_true_eq]
  simp only [PendingSettlement.row]
  constructor
  · intro h
    exact ⟨h.1.1.1.1.1.1.1.1, h.1.1.1.1.2, h.1.1.1.2, h.1.1.2, h.1.2⟩
  · rintro ⟨hpos, hcommission, hmax, hfee, hpublisher⟩
    exact ⟨⟨⟨⟨⟨⟨⟨⟨hpos, hgross⟩, hlo⟩, hhi⟩, hcommission⟩, hmax⟩, hfee⟩, hpublisher⟩, htotal⟩

/-- **When the service's checks imply the schema's**: exactly when the listing has a price at all and the 64-bit
product of price and rate is not negative. -/
theorem pending_checks_iff (svc : Service) {sk : svc.ed25519.PrivateKey} {m : MintArgs} {req : Request} {now : ℤ}
    {row : ListingRow} {answer : Except Err VerifyResponse} (newID : Bytes) (hrow : row.ok = true)
    (hmint : mint svc.ed25519 sk m = .ok req.assertion) (h : Cleared svc req now row.listing answer) :
    (req.pending row.listing newID).row.checks = true ↔
      0 < row.priceCents ∧ NonnegativeProduct row.priceCents (min m.commissionBps row.commissionBps) := by
  obtain ⟨hrate, hlo, hhi⟩ := rate_of_mint hmint
  obtain ⟨-, hmax, hrowlo, hrowhi⟩ := ListingRow.bounds_of_ok hrow
  obtain ⟨-, -, hprice⟩ := Request.checkListing_eq_none.mp h.listed
  have hgross : req.grossAmountCents = row.priceCents := hprice.symm
  have hbps : (req.pending row.listing newID).commissionBps = min m.commissionBps row.commissionBps := by
    rw [← hrate]
    exact effectiveCommissionBps_eq_min _ _
  have hchecks := checks_row_iff (p := req.pending row.listing newID) (by omega) (by omega) rfl
    (show req.grossAmountCents < 2 ^ 63 by omega)
  have hpending : (req.pending row.listing newID).grossAmountCents = row.priceCents := hgross
  rw [hchecks, hbps, hpending]

theorem pending_checks_iff_sample :
    (Sample.pending.row.checks = true ↔ (0 : ℤ) < 12999 ∧ NonnegativeProduct 12999 (min 1500 1200)) := by
  have hcleared : Cleared Sample.service Sample.request 0 Sample.listingRow.listing (.ok Sample.verified) :=
    ⟨Sample.verify_eq_none, by decide, rfl⟩
  have hmint : mint Sample.service.ed25519 () Sample.mintArgs = .ok Sample.request.assertion := Sample.mint_eq
  exact pending_checks_iff Sample.service Sample.settlementID (by decide) hmint hcleared

namespace Sample

/-- The sample listing, for nothing. -/
def freeRow : ListingRow := { listingRow with priceCents := 0 }

/-- The sample listing at a price of which 1200 basis points overflow. -/
def dearRow : ListingRow := { listingRow with priceCents := 7686143364045647 }

/-- The sample request at the price of a listing. -/
def requestFor (row : ListingRow) : Request := { request with grossAmountCents := row.priceCents }

theorem cleared_requestFor {row : ListingRow} (hstock : row.inStock = true)
    (hcurrency : row.currency = Utf8.str "USD") :
    Cleared service (requestFor row) 0 row.listing (.ok verified) :=
  ⟨verify_eq_none, Request.checkListing_eq_none.mpr ⟨hstock, hcurrency, rfl⟩, rfl⟩

/-- A purchase of the listing passes every check of the service, with the assertion minted and the payment verified,
and its pending row fails the `CHECK`s. -/
structure Slips (row : ListingRow) : Prop where
  ok : row.ok = true
  minted : mint paddedScheme () mintArgs = .ok (requestFor row).assertion
  cleared : Cleared service (requestFor row) 0 row.listing (.ok verified)
  refused : ((requestFor row).pending row.listing settlementID).row.checks = false

end Sample

/-- A listing for nothing slips through, and one whose commission overflows. -/
theorem pending_checks_fail : Sample.Slips Sample.freeRow ∧ Sample.Slips Sample.dearRow :=
  ⟨⟨by decide, Sample.mint_eq, Sample.cleared_requestFor rfl rfl, by decide⟩,
    ⟨by decide, Sample.mint_eq, Sample.cleared_requestFor rfl rfl, by decide⟩⟩

end Settlement
