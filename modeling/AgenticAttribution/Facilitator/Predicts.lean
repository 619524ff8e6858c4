import AgenticAttribution.Facilitator.Answers

/-!
# Facilitator.Predicts — a verification and the settlement behind it

`Service.Settle` of `internal/settlement/service.go` has a payment verified before it claims the assertion, and
settled afterwards.  In `facilitator/src/handler.ts` both routes run `verifyPayment`, and only `/settle` asks the
ledger for the nonce.
-/

namespace Facilitator

open Types Once

/-- A payment that is posted to a route. -/
def post (path : String) (body : Json) (clock : ℤ) : HttpRequest := ⟨"POST", path, body, clock⟩

/-- The answer to `/verify` says that the payment is valid. -/
def saysValid (response : Option FacilitatorResponse) : Bool :=
  response.any fun r => Json.strictEq (r.body.prop "isValid") (some (.bool true))

section Predictions

variable (p : Platform)

/-- `/verify` says that a payment is valid exactly if `/settle`, which comes next, settles it. -/
def Predicts (s : State) (body : Json) (clock : ℤ) : Prop :=
  let verified := handle p s (post ROUTE.Verify body clock)
  saysValid verified.2 = true ↔ succeeds (handle p verified.1 (post ROUTE.Settle body clock)).2 = true

/-- The request is well formed, and its payment has everything that is checked of it. -/
def Payable (body : Json) (clock : ℤ) : Prop :=
  ∃ payload requirements message domain, validateRequest body = .ok (payload, requirements) ∧
    Accepted p payload requirements (nowSeconds clock) message domain

end Predictions

section Routes

variable {p : Platform} {s : State} {body : Json} {clock : ℤ}

theorem paying_verify (body : Json) (clock : ℤ) : (post ROUTE.Verify body clock).Paying := ⟨rfl, Or.inl rfl⟩

theorem payable_iff : Payable p body clock ↔ ∃ payload requirements payer,
    validateRequest body = .ok (payload, requirements) ∧
    verifyPayment p payload requirements (nowSeconds clock) = some (.valid payer) := by
  constructor
  · rintro ⟨payload, requirements, message, domain, hv, hacc⟩
    exact ⟨payload, requirements, message.from_, hv, verifyPayment_eq_valid_iff.mpr ⟨message, domain, hacc, rfl⟩⟩
  · rintro ⟨payload, requirements, payer, hv, hp⟩
    obtain ⟨message, domain, hacc, -⟩ := verifyPayment_eq_valid_iff.mp hp
    exact ⟨payload, requirements, message, domain, hv, hacc⟩

/-- What passes at `/settle` is what is payable. -/
theorem verifying_settle : Verifying p (post ROUTE.Settle body clock) ↔ Payable p body clock := by
  rw [payable_iff]
  exact and_iff_right ⟨rfl, rfl⟩

theorem saysValid_props (outcome : VerifyOutcome) : saysValid (some (respond 200 outcome.props)) = outcome.isValid := by
  cases outcome <;>
    simp only [saysValid, Option.any_some, respond, VerifyOutcome.props, Json.prop_ofProps_self] <;> rfl

/-- `/verify` leaves the state as it is, and says what `verifyPayment` finds. -/
theorem handle_verify (p : Platform) (body : Json) (clock : ℤ) (hs : s.Unarmed) :
    (handle p s (post ROUTE.Verify body clock)).1 = s ∧
    (saysValid (handle p s (post ROUTE.Verify body clock)).2 = true ↔ Payable p body clock) := by
  rw [handle_of_paying (injected_of_unarmed hs _) (paying_verify body clock), payable_iff]
  unfold handlePayment
  cases hv : validateRequest (post ROUTE.Verify body clock).body with
  | error error =>
    have hbody : validateRequest body = .error error := hv
    refine ⟨rfl, ?_⟩
    rw [hbody]
    have hno : saysValid
        (some (respond 400 [("error", text error), ("reason", text "malformed_request")])) = false := by
      rw [saysValid, Option.any_some, respond, Json.prop_ofProps_of_ne (by decide), Json.prop_ofProps_of_ne (by decide)]
      rfl
    simp [hno]
  | ok request =>
    obtain ⟨payload, requirements⟩ := request
    have hbody : validateRequest body = .ok (payload, requirements) := hv
    cases hout : verifyPayment p payload requirements (nowSeconds clock) with
    | none =>
      have hout' : verifyPayment p payload requirements (nowSeconds (post ROUTE.Verify body clock).clock) = none := hout
      simp only [hout']
      simp [hbody, hout, saysValid]
    | some outcome =>
      have hout' : verifyPayment p payload requirements (nowSeconds (post ROUTE.Verify body clock).clock)
          = some outcome := hout
      have hpath : (post ROUTE.Verify body clock).path = ROUTE.Verify := rfl
      simp only [hout', if_pos hpath, saysValid_props]
      refine ⟨trivial, ?_⟩
      cases outcome <;> simp [hbody, hout, VerifyOutcome.isValid]

/-- `/settle` settles what is payable under a nonce that is not in the ledger. -/
theorem succeeds_settle (hs : s.Unarmed) : succeeds (handle p s (post ROUTE.Settle body clock)).2 = true ↔
    Payable p body clock ∧ s.has (post ROUTE.Settle body clock).nonce = false := by
  rw [← verifying_settle]
  rcases handle_cases p hs (post ROUTE.Settle body clock) with ⟨hno, -, hsucc⟩ | ⟨hv, hhas, -, hsucc⟩ |
    ⟨hv, hhas, -, hsucc⟩
  · simp [hno, hsucc ⟨rfl, rfl⟩]
  · simp [hhas, hsucc]
  · simp [hv, hhas, hsucc]

/-- **A verification predicts the settlement unless the nonce of a payable payment is in the ledger.** -/
theorem predicts_iff_has (hs : s.Unarmed) :
    Predicts p s body clock ↔ ¬(Payable p body clock ∧ s.has (post ROUTE.Settle body clock).nonce = true) := by
  obtain ⟨hstate, hvalid⟩ := handle_verify p body clock hs
  unfold Predicts
  simp only [hstate]
  rw [hvalid, succeeds_settle hs]
  cases s.has (post ROUTE.Settle body clock).nonce <;> simp

end Routes

/-- **Behind any requests, `/verify` predicts `/settle` exactly if** the payment is not payable or no payable
settlement among them spelled its nonce. -/
theorem predicts_iff (p : Platform) {s : State} (hs : s.consumed = []) {rs : List HttpRequest}
    (h : ∀ l, l <+: rs → (serve p s l).Unarmed) (body : Json) (clock : ℤ) :
    Predicts p (serve p s rs) body clock ↔ ¬(Payable p body clock ∧
      ∃ y ∈ rs, y.Settling ∧ Payable p y.body y.clock ∧ SameSpelling (post ROUTE.Settle body clock) y) := by
  rw [predicts_iff_has (h rs (List.prefix_refl rs)), has_serve hs rs h]
  have hverifying : ∀ y, Verifying p y ↔ y.Settling ∧ Payable p y.body y.clock := by
    intro y
    rw [payable_iff]
    exact Iff.rfl
  simp only [hverifying, and_assoc]
  exact Iff.rfl

theorem predicts_iff_sample :
    Predicts plainPlatform (serve plainPlatform Sample.fresh [Sample.first]) Sample.first.body 5000 ↔
      ¬(Payable plainPlatform Sample.first.body 5000 ∧ ∃ y ∈ [Sample.first], y.Settling ∧
        Payable plainPlatform y.body y.clock ∧ SameSpelling (post ROUTE.Settle Sample.first.body 5000) y) :=
  predicts_iff plainPlatform rfl (fun l _ => Sample.unarmed l) Sample.first.body 5000

/-- A payment that was settled is valid for `/verify`, and `/settle` refuses it. -/
theorem settled_still_valid :
    ¬Predicts plainPlatform (serve plainPlatform Sample.fresh [Sample.first]) Sample.first.body 5000 := by
  intro h
  have hsettles := h.mp (by decide)
  exact absurd hsettles (by decide)

end Facilitator
