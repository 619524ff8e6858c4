import AgenticAttribution.Settlement.Store
import AgenticAttribution.Settlement.X402

/-!
# Settlement.Service — the steps of one settlement

`internal/settlement/service.go`.  `Service.Settle` alternates local computation with calls to the database and to
the facilitator.  The local parts are the functions here; `Settlement.System` runs them, one atomic step at a time,
for any number of calls at once.
-/

namespace Settlement

open Attribution Digits

structure Request where
  assertion : Assertion
  merchantID : Bytes
  grossAmountCents : ℤ
  currency : Bytes
  paymentPayload : PaymentPayload
  paymentRequirements : PaymentRequirements
  deriving DecidableEq

structure Result where
  settlementID : Bytes
  status : Status
  txHash : Bytes
  network : Bytes
  payer : Bytes
  commissionBps : ℤ
  commissionAmountCents : ℤ
  platformFeeCents : ℤ
  publisherAmountCents : ℤ
  deriving DecidableEq

/-- What a service is built from, with the wording of the errors of the libraries it calls. -/
structure Service where
  ed25519 : Ed25519
  publicKey : ed25519.PublicKey
  wording : Wording
  driver : Driver

/-- The lower of the signed rate and the rate of the listing. -/
def effectiveCommissionBps (signedBps listingBps : ℤ) : ℤ := if listingBps < signedBps then listingBps else signedBps

theorem effectiveCommissionBps_eq_min (signedBps listingBps : ℤ) :
    effectiveCommissionBps signedBps listingBps = min signedBps listingBps := by
  unfold effectiveCommissionBps
  split_ifs <;> omega

/-- The first step: the assertion is verified at the time of entry. -/
def Service.verify (svc : Service) (req : Request) (now : ℤ) : Option Err :=
  (Attribution.verify svc.ed25519 svc.wording svc.publicKey req.assertion now).map
    (GoError.wrap (Utf8.str "verify assertion: "))

/-- The checks of the request against the listing. -/
def Request.checkListing (req : Request) (listing : Listing) : Option Err :=
  if !listing.inStock then some Sentinel.outOfStock.err
  else if listing.currency ≠ req.currency then
    some (Sentinel.currencyMismatch.err.annotate
      (Utf8.str ": listing " ++ listing.currency ++ Utf8.str ", payment " ++ req.currency))
  else if listing.priceCents ≠ req.grossAmountCents then
    some (Sentinel.amountMismatch.err.annotate
      (Utf8.str ": listing " ++ Utf8.encode (intChars listing.priceCents) ++ Utf8.str ", payment " ++
        Utf8.encode (intChars req.grossAmountCents)))
  else none

theorem Request.checkListing_eq_none {req : Request} {listing : Listing} :
    req.checkListing listing = none ↔ listing.inStock = true ∧ listing.currency = req.currency ∧
      listing.priceCents = req.grossAmountCents := by
  unfold Request.checkListing
  split_ifs with hs hc hp <;> simp_all

/-- The outcome of the facilitator's check. -/
def checkVerified : Except Err VerifyResponse → Option Err
  | .error e => some e
  | .ok v =>
    if !v.isValid then some (Sentinel.paymentInvalid.err.annotate (Utf8.str ": " ++ v.invalidReason)) else none

/-- The pending settlement of a request, under a new identifier. -/
def Request.pending (req : Request) (listing : Listing) (newID : Bytes) : PendingSettlement :=
  let bps := effectiveCommissionBps req.assertion.commissionBps listing.commissionBps
  { settlementID := newID
    assertionID := req.assertion.assertionID
    searchRequestID := req.assertion.searchRequestID
    publisherID := req.assertion.publisherID
    merchantID := req.merchantID
    productID := req.assertion.productID
    grossAmountCents := req.grossAmountCents
    currency := req.currency
    commissionBps := bps
    split := calculateCommission req.grossAmountCents bps
    chainNetwork := req.paymentRequirements.network }

/-- The error that makes a settlement fail, if the facilitator's answer is one. -/
def settleFailure : Except Err SettleResponse → Except Err SettleResponse
  | .error e => .error e
  | .ok s =>
    if !s.success then .error (Sentinel.settlementFailed.err.annotate (Utf8.str ": " ++ s.errorReason)) else .ok s

/-- The answer settles the payment. -/
def succeeded (answer : Except Err SettleResponse) : Bool :=
  match answer with
  | .error _ => false
  | .ok s => s.success

theorem settleFailure_eq_ok {answer : Except Err SettleResponse} {s : SettleResponse}
    (h : settleFailure answer = .ok s) : succeeded answer = true := by
  cases answer with
  | error e => cases h
  | ok s' =>
    simp only [settleFailure] at h
    split_ifs at h with hs
    simpa [succeeded] using hs

theorem settleFailure_eq_error {answer : Except Err SettleResponse} {e : Err}
    (h : settleFailure answer = .error e) : succeeded answer = false := by
  cases answer with
  | error e' => rfl
  | ok s' =>
    simp only [settleFailure] at h
    split_ifs at h with hs
    simpa [succeeded] using hs

/-- The result of a confirmed settlement. -/
def PendingSettlement.result (p : PendingSettlement) (settled : SettleResponse) : Result where
  settlementID := p.settlementID
  status := .confirmed
  txHash := settled.transaction
  network := settled.network
  payer := settled.payer
  commissionBps := p.commissionBps
  commissionAmountCents := p.split.commissionAmountCents
  platformFeeCents := p.split.platformFeeCents
  publisherAmountCents := p.split.publisherAmountCents

end Settlement
