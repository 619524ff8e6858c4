import AgenticAttribution.Facilitator.Predicts
import AgenticAttribution.Lib.Stringify

/-!
# Facilitator.Server — the server around the handler

`facilitator/src/index.ts`.  It reads the body of a request, answers with what `handle` says or with a 500 where that
throws, and starts over with an empty ledger and no fault armed when the process is started again.

A `/settle` request is granted, and leaves a nonce and a record behind, or it is declined and leaves nothing
(`handle_settling_cases`).
-/

namespace Facilitator

open Types JsonText

def MAX_BODY_BYTES : ℕ := 64 * 1024

/-- `readJson`; `parse` is `JSON.parse` of the bytes as text, which may throw. -/
def readJson (parse : Bytes → Option Json) (raw : Bytes) : Json :=
  if raw.length > MAX_BODY_BYTES then .null else (parse raw).getD .null

/-- What is answered where `handle` throws. -/
def serverError : FacilitatorResponse :=
  respond 500 [("error", text "facilitator error"), ("reason", text "facilitator_error")]

/-- `writeJson`: the status and the body on the connection. -/
def FacilitatorResponse.wire (r : FacilitatorResponse) : ℕ × Bytes := (r.status, Utf8.encode r.body.stringify)

/-- The response of the server. -/
def served (response : Option FacilitatorResponse) : FacilitatorResponse := response.getD serverError

/-- The process ends and is started again.  The records were logged, and the log stays. -/
def State.restarted (s : State) : State :=
  { s with consumed := [], fault := s.fault.map fun _ => .none }

/-! ## What `/settle` does -/

section Settle

variable (p : Platform)

/-- The record of a settlement. -/
def recordOf (payload : Json) (payer : Option Json) : SettlementRecord :=
  let authorization := (payload.prop "authorization").getD .null
  ⟨orEmpty payer, authorization.prop "to", authorization.prop "value", simulatedTransactionHash p authorization⟩

/-- The answer to a payment that is settled. -/
def granted (payload : Json) (payer : Option Json) : FacilitatorResponse :=
  respond 200 [("success", Json.bool true),
    ("transaction", Json.str (simulatedTransactionHash p ((payload.prop "authorization").getD .null))),
    ("network", payload.prop "network"), ("payer", payer)]

/-- The ledger and the log behind a settlement. -/
def State.grant (s : State) (payload : Json) (payer : Option Json) : State :=
  { s with
    consumed := s.consumed ++ [((payload.prop "authorization").getD .null).prop "nonce"]
    settled := s.settled ++ [recordOf p payload payer] }

/-- An answer that is no success. -/
inductive Declines : FacilitatorResponse → Prop where
  | failed {r : FacilitatorResponse} (h : r.status ≠ 200) (hs : r.success = false) : Declines r
  | refused (reason : String) : Declines (refused reason)
  | injected : Declines (respond 200 [("success", Json.bool false), ("errorReason", text "injected_fault"),
      ("injected", Json.bool true)])

/-- The payment is in order, and its nonce is new. -/
structure Grants (s : State) (r : HttpRequest) (payload requirements : Json) (message : Eip3009Message)
    (domain : Eip712Domain) : Prop where
  valid : validateRequest r.body = .ok (payload, requirements)
  accepted : Accepted p payload requirements (nowSeconds r.clock) message domain
  fresh : s.has r.nonce = false
  handled : handle p s r = (s.grant p payload message.from_, some (granted p payload message.from_))

end Settle

section Cases

variable {p : Platform} {s : State} {r : HttpRequest}

theorem settle_eq (p : Platform) (s : State) (payload : Json) (payer : Option Json) : settle p s payload payer =
    if s.has (((payload.prop "authorization").getD .null).prop "nonce") then (s, refused "nonce_already_used")
    else (s.grant p payload payer, granted p payload payer) := rfl

theorem nonce_of_valid {payload requirements : Json} (h : validateRequest r.body = .ok (payload, requirements)) :
    ((payload.prop "authorization").getD .null).prop "nonce" = r.nonce := by
  rw [(validateRequest_eq_ok h).1]
  rfl

theorem declines_serverError : Declines serverError := by
  refine .failed (by simp [serverError, respond]) ?_
  rw [FacilitatorResponse.success, serverError, respond, Json.prop_ofProps_of_ne (by decide),
    Json.prop_ofProps_of_ne (by decide)]
  rfl

/-- What a fault answers on the way to `/settle` is no success. -/
theorem declines_of_injected {response : FacilitatorResponse} (hset : r.Settling)
    (h : injected s r = some response) : Declines response := by
  have hverify : r.path ≠ ROUTE.Verify := by
    rw [hset.2]
    decide
  unfold injected at h
  split at h
  · rw [← Option.some.inj h]
    refine .failed (by simp [respond]) ?_
    rw [FacilitatorResponse.success, respond, Json.prop_ofProps_of_ne (by decide), Json.prop_ofProps_of_ne (by decide)]
    rfl
  · rw [if_neg hverify] at h
    cases h
  · rw [if_pos hset.2] at h
    rw [← Option.some.inj h]
    exact .injected
  · cases h

/-- **A request for settlement is granted or declined.** -/
theorem handle_settling_cases (p : Platform) (s : State) (hset : r.Settling) :
    (∃ payload requirements message domain, Grants p s r payload requirements message domain) ∨
      ((handle p s r).1 = s ∧ Declines (served (handle p s r).2)) := by
  cases hi : injected s r with
  | some response =>
    right
    have hverify : r.path ≠ ROUTE.Fault ∧ ¬(r.method = "GET" ∧ r.path = ROUTE.Health) := by
      rw [hset.1, hset.2]
      decide
    rw [handle, if_neg hverify.2, if_neg hverify.1, hi]
    exact ⟨rfl, declines_of_injected hset hi⟩
  | none =>
    have hroute : r.path ≠ ROUTE.Verify := by
      rw [hset.2]
      decide
    rw [handle_of_route hi hset.1 (Or.inr hset.2)]
    unfold handlePayment
    cases hv : validateRequest r.body with
    | error error => exact Or.inr ⟨rfl, .failed (by simp [served, respond]) (success_malformed error)⟩
    | ok request =>
      obtain ⟨payload, requirements⟩ := request
      cases hout : verifyPayment p payload requirements (nowSeconds r.clock) with
      | none =>
        simp only [hout]
        exact Or.inr ⟨trivial, declines_serverError⟩
      | some outcome =>
        simp only [hout, if_neg hroute]
        cases outcome with
        | invalid reason => exact Or.inr ⟨rfl, .refused reason.text⟩
        | valid payer =>
          obtain ⟨message, domain, hacc, rfl⟩ := verifyPayment_eq_valid_iff.mp hout
          simp only [settle_eq, nonce_of_valid hv]
          by_cases hhas : s.has r.nonce = true
          · rw [if_pos hhas]
            exact Or.inr ⟨rfl, .refused "nonce_already_used"⟩
          · left
            refine ⟨payload, requirements, message, domain, hv, hacc, Bool.not_eq_true _ ▸ hhas, ?_⟩
            rw [handle_of_route hi hset.1 (Or.inr hset.2)]
            simp only [handlePayment, hv, hout, if_neg hroute, settle_eq, nonce_of_valid hv, if_neg hhas]
            rfl

theorem Declines.success {r : FacilitatorResponse} (h : Declines r) : r.success = false := by
  cases h with
  | failed _ hs => exact hs
  | refused reason => exact success_refused reason
  | injected =>
    rw [FacilitatorResponse.success, respond, Json.prop_ofProps_self]
    rfl

theorem success_granted (payload : Json) (payer : Option Json) : (granted p payload payer).success = true := by
  rw [FacilitatorResponse.success, granted, respond, Json.prop_ofProps_self]
  rfl

end Cases

end Facilitator
