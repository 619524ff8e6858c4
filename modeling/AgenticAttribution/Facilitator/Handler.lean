import AgenticAttribution.Facilitator.Verify

/-!
# Facilitator.Handler — one call of the facilitator

`facilitator/src/handler.ts`.  `handle` answers a request and leaves a new state: the nonces it has settled, the
fault it has been told to inject, and the records it has given to `onSettled`.
-/

namespace Facilitator

open Types

namespace ROUTE

def Verify : String := "/verify"
def Settle : String := "/settle"
def Health : String := "/healthz"
def Fault : String := "/fault"

end ROUTE

inductive FaultMode where
  | none
  | verify_rejects
  | settle_fails
  | unavailable
  deriving DecidableEq

def FaultMode.text : FaultMode → String
  | none => "none"
  | verify_rejects => "verify_rejects"
  | settle_fails => "settle_fails"
  | unavailable => "unavailable"

/-- `Object.values(FAULT)`. -/
def FaultMode.values : List FaultMode := [none, verify_rejects, settle_fails, unavailable]

/-- A request that the server hands over; the body is `null` if there is none or it does not parse. -/
structure HttpRequest where
  method : String
  path : String
  body : Json
  /-- `Date.now()` when the request is handled. -/
  clock : ℤ

structure FacilitatorResponse where
  status : ℕ
  body : Json

structure SettlementRecord where
  payer : Json
  to_ : Option Json
  value : Option Json
  transaction : List Char

structure State where
  /-- The set of the `NonceLedger`. -/
  consumed : List (Option Json)
  /-- `none` where fault injection is not available. -/
  fault : Option FaultMode
  settled : List SettlementRecord

def nowSeconds (clock : ℤ) : ℤ := clock / 1000

/-- `NonceLedger.has`. -/
def State.has (s : State) (nonce : Option Json) : Bool := s.consumed.any (Json.strictEq nonce)

/-! ## The request -/

/-- `THROWING_REQUIREMENT_FIELDS`. -/
def throwingRequirementFields : List String := ["asset", "payTo", "maxAmountRequired"]

/-- `/^\d+$/` on a string. -/
def decimalInteger : Option Json → Bool
  | some (.str cs) => cs ≠ [] ∧ cs.all Char.isDigit
  | _ => false

/-- `validateRequest`: payload and requirements, or what is wrong. -/
def validateRequest (body : Json) : Except String (Json × Json) :=
  let payload := body.prop "paymentPayload"
  let requirements := body.prop "paymentRequirements"
  if !body.isObject then .error "request body is not an object"
  else if !payload.any Json.isObject then .error "request carries no paymentPayload"
  else if !requirements.any Json.isObject then .error "request carries no paymentRequirements"
  else if !((payload.getD .null).prop "authorization").any Json.isObject then
    .error "paymentPayload carries no authorization"
  else
    match throwingRequirementFields.find? fun field => !Json.isString ((requirements.getD .null).prop field) with
    | some field => .error ("paymentRequirements." ++ field ++ " is missing or not a string")
    | none =>
      if !decimalInteger ((requirements.getD .null).prop "maxAmountRequired") then
        .error "paymentRequirements.maxAmountRequired is not a decimal integer"
      else .ok (payload.getD .null, requirements.getD .null)

/-! ## The answers -/

def text (s : String) : Json := .str s.toList

/-- A response with a body of the given members. -/
def respond (status : ℕ) (props : List (String × Option Json)) : FacilitatorResponse := ⟨status, Json.ofProps props⟩

def notFound : FacilitatorResponse := respond 404 [("error", text "not found")]

def VerifyOutcome.props : VerifyOutcome → List (String × Option Json)
  | .invalid reason => [("isValid", Json.bool false), ("invalidReason", text reason.text)]
  | .valid payer => [("isValid", Json.bool true), ("payer", payer)]

/-- A settlement refused. -/
def refused (reason : String) : FacilitatorResponse :=
  respond 200 [("success", Json.bool false), ("errorReason", text reason)]

/-- `GET /healthz`. -/
def health (s : State) : FacilitatorResponse :=
  respond 200 [("status", text "ok"), ("mode", text "mock"), ("fault", s.fault.map fun mode => text mode.text)]

/-- The `/fault` route. -/
def handleFault (s : State) (r : HttpRequest) : State × FacilitatorResponse :=
  match s.fault with
  | none => (s, notFound)
  | some mode =>
    if r.method = "GET" then (s, respond 200 [("mode", text mode.text)])
    else if r.method = "POST" then
      match FaultMode.values.find? fun m => Json.isText (r.body.prop "mode") m.text with
      | none =>
        (s, respond 400 [("error", text "unknown fault mode"),
          ("known", Json.arr (FaultMode.values.map fun m => text m.text))])
      | some requested => ({ s with fault := some requested }, respond 200 [("mode", text requested.text)])
    else (s, notFound)

/-- What an armed fault answers. -/
def injected (s : State) (r : HttpRequest) : Option FacilitatorResponse :=
  match s.fault with
  | some .unavailable =>
    some (respond 503 [("error", text "facilitator unavailable"), ("injected", Json.bool true)])
  | some .verify_rejects =>
    if r.path = ROUTE.Verify then
      some (respond 200 [("isValid", Json.bool false), ("invalidReason", text "injected_fault"),
        ("injected", Json.bool true)])
    else none
  | some .settle_fails =>
    if r.path = ROUTE.Settle then
      some (respond 200 [("success", Json.bool false), ("errorReason", text "injected_fault"),
        ("injected", Json.bool true)])
    else none
  | _ => none

section Handle

variable (p : Platform)

/-- What `join` makes of a member; every one of an accepted authorization is a string. -/
def joined : Option Json → List Char
  | some (.str cs) => cs
  | _ => []

/-- `simulatedTransactionHash`. -/
def simulatedTransactionHash (authorization : Json) : List Char :=
  p.keccak256 ("|".toList.intercalate
    (["from", "to", "value", "validAfter", "validBefore", "nonce"].map fun field => joined (authorization.prop field)))

/-- `value ?? ''`. -/
def orEmpty : Option Json → Json
  | none | some .null => text ""
  | some v => v

/-- The settlement of a payment that verified. -/
def settle (s : State) (payload : Json) (payer : Option Json) : State × FacilitatorResponse :=
  let authorization := (payload.prop "authorization").getD .null
  let nonce := authorization.prop "nonce"
  if s.has nonce then (s, refused "nonce_already_used")
  else
    let transaction := simulatedTransactionHash p authorization
    let record : SettlementRecord := ⟨orEmpty payer, authorization.prop "to", authorization.prop "value", transaction⟩
    ({ s with consumed := s.consumed ++ [nonce], settled := s.settled ++ [record] },
      respond 200 [("success", Json.bool true), ("transaction", Json.str transaction),
        ("network", payload.prop "network"), ("payer", payer)])

/-- The two routes that take a payment. -/
def handlePayment (s : State) (r : HttpRequest) : State × Option FacilitatorResponse :=
  match validateRequest r.body with
  | .error error => (s, respond 400 [("error", text error), ("reason", text "malformed_request")])
  | .ok (payload, requirements) =>
    match verifyPayment p payload requirements (nowSeconds r.clock) with
    | none => (s, none)
    | some outcome =>
      if r.path = ROUTE.Verify then (s, respond 200 outcome.props)
      else
        match outcome with
        | .invalid reason => (s, refused reason.text)
        | .valid payer => (settle p s payload payer).map id some

/-- `handle`; no response when the promise rejects. -/
def handle (s : State) (r : HttpRequest) : State × Option FacilitatorResponse :=
  if r.method = "GET" ∧ r.path = ROUTE.Health then (s, health s)
  else if r.path = ROUTE.Fault then (handleFault s r).map id some
  else
    match injected s r with
    | some response => (s, response)
    | none =>
      if r.method ≠ "POST" ∨ (r.path ≠ ROUTE.Verify ∧ r.path ≠ ROUTE.Settle) then (s, notFound)
      else handlePayment p s r

/-- The state behind a sequence of requests. -/
def serve (s : State) (rs : List HttpRequest) : State := rs.foldl (fun s r => (handle p s r).1) s

/-- The answer to a request behind a sequence of them. -/
def answer (s : State) (l : List HttpRequest) (r : HttpRequest) : Option FacilitatorResponse :=
  (handle p (serve p s l) r).2

end Handle

/-- The answer says that the payment was settled. -/
def FacilitatorResponse.success (response : FacilitatorResponse) : Bool :=
  Json.strictEq (response.body.prop "success") (some (.bool true))

end Facilitator
