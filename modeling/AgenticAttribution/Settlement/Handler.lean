import AgenticAttribution.Settlement.Service

/-!
# Settlement.Handler — the answers of the settlement service

`internal/settlement/handler.go`, the two routes that write: `POST /settle` journals what it refuses, and
`POST /rejections` journals what another service refused.  A request body that does not decode, or is longer than
256 KiB, is `none`.
-/

namespace Settlement

open Attribution

/-- The reasons of `statusFor`. -/
inductive Reason where
  | assertionReused
  | assertionExpired
  | assertionSignatureInvalid
  | listingNotFound
  | listingMismatch
  | paymentInvalid
  | settlementFailed
  | facilitatorUnavailable
  | internalError
  deriving DecidableEq

def Reason.name : Reason → String
  | assertionReused => "assertion_reused"
  | assertionExpired => "assertion_expired"
  | assertionSignatureInvalid => "assertion_signature_invalid"
  | listingNotFound => "listing_not_found"
  | listingMismatch => "listing_mismatch"
  | paymentInvalid => "payment_invalid"
  | settlementFailed => "settlement_failed"
  | facilitatorUnavailable => "facilitator_unavailable"
  | internalError => "internal_error"

def Reason.text (r : Reason) : Bytes := Utf8.str r.name

/-- `statusFor`. -/
def statusFor (err : Err) : ℕ × Reason :=
  if err.is .assertionReused then (409, .assertionReused)
  else if err.is .expired then (401, .assertionExpired)
  else if err.is .invalidSignature || err.is .malformedSignature then (401, .assertionSignatureInvalid)
  else if err.is .listingNotFound then (404, .listingNotFound)
  else if err.is .outOfStock || err.is .amountMismatch || err.is .currencyMismatch then (422, .listingMismatch)
  else if err.is .paymentInvalid then (402, .paymentInvalid)
  else if err.is .settlementFailed then (402, .settlementFailed)
  else if err.is .facilitatorUnavailable then (502, .facilitatorUnavailable)
  else (500, .internalError)

/-- Every answer of `statusFor`. -/
def statuses : List (ℕ × Reason) :=
  [(409, .assertionReused), (401, .assertionExpired), (401, .assertionSignatureInvalid), (404, .listingNotFound),
    (422, .listingMismatch), (402, .paymentInvalid), (402, .settlementFailed), (502, .facilitatorUnavailable),
    (500, .internalError)]

theorem statusFor_mem (err : Err) : statusFor err ∈ statuses := by
  unfold statusFor
  split_ifs <;> simp [statuses]

/-- The rejection that a refused settlement is journalled as. -/
def Request.rejection (req : Request) (err : Err) : Rejection where
  publisherID := req.assertion.publisherID
  assertionID := req.assertion.assertionID
  merchantID := req.merchantID
  reason := (statusFor err).2.text
  detail := err.text

/-- What `handleSettle` writes after an error; a failure to write is logged and dropped. -/
def Handler.journal (d : Driver) (db : DB) (req : Request) (err : Err) (fate : Fate) : DB :=
  if (statusFor err).2 = .internalError then db
  else (Store.recordRejection d db (req.rejection err) fate).1

/-- `handleRecordRejection`: the database behind it and the status it answers. -/
def Handler.recordRejection (d : Driver) (db : DB) (body : Option Rejection) (fate : Fate) : DB × ℕ :=
  match body with
  | none => (db, 400)
  | some r =>
    if r.publisherID = [] ∨ r.reason = [] then (db, 400)
    else
      match Store.recordRejection d db r fate with
      | (db', some _) => (db', 500)
      | (db', none) => (db', 202)

/-- Journalling touches `rejected_attempts` and nothing else. -/
theorem Handler.journal_frame (d : Driver) (db : DB) (req : Request) (err : Err) (fate : Fate) :
    ∃ rows, Handler.journal d db req err fate = { db with rejected := rows } := by
  unfold Handler.journal
  split_ifs with h
  · exact ⟨db.rejected, rfl⟩
  · rcases Store.recordRejection_cases rfl with ⟨h, -⟩ | h
    · exact ⟨db.rejected, h⟩
    · exact ⟨_, h⟩

theorem Handler.recordRejection_frame (d : Driver) (db : DB) (body : Option Rejection) (fate : Fate) :
    ∃ rows, (Handler.recordRejection d db body fate).1 = { db with rejected := rows } := by
  cases body with
  | none => exact ⟨db.rejected, rfl⟩
  | some r =>
    simp only [Handler.recordRejection]
    split_ifs with h
    · exact ⟨db.rejected, rfl⟩
    · obtain ⟨db', e, he⟩ : ∃ db' e, Store.recordRejection d db r fate = (db', e) := ⟨_, _, rfl⟩
      have hrows : ∃ rows, db' = { db with rejected := rows } := by
        rcases Store.recordRejection_cases he with ⟨h, -⟩ | h
        · exact ⟨db.rejected, h⟩
        · exact ⟨_, h⟩
      rw [he]
      cases e <;> exact hrows

end Settlement
