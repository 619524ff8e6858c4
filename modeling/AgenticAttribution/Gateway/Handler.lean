import AgenticAttribution.Types.Http

/-!
# Gateway.Handler — the edge

`gateway/src/handler.ts`.  `handle` answers a request itself or passes it on to an origin, whose answer goes back
untouched.  A refusal may come with a report to the settlement service.  What it throws, `gateway/src/node.ts`
answers with 502.
-/

namespace Gateway

open Types Attribution

/-- The environment, with `ATTRIBUTION_PUBLIC_KEY` as the text that it is or as the key that is imported from it. -/
structure GatewayEnv (K : Type) where
  /-- Empty where it is not set. -/
  SETTLEMENT_URL : List Char
  key : K

namespace ROUTE

def Search : String := "/search"
def Purchase : String := "/purchase"
def Health : String := "/healthz"

end ROUTE

def MAX_BODY_BYTES : ℕ := 256 * 1024

structure HttpRequest where
  method : String
  path : String
  /-- The `content-length` header, where it is a number. -/
  contentLength : Option ℕ
  /-- The body, as it arrives. -/
  chunks : List Bytes
  /-- The header `x-attribution-assertion`. -/
  assertion : Option (List Char)
  /-- The header `payment-signature`. -/
  payment : Option (List Char)

inductive Origin where
  | search
  | merchant

/-- What `handle` comes to. -/
inductive Outcome where
  | answer (response : Response) (report : Option RejectionReport)
  | proxy (origin : Origin) (body : List Char)
  | throws (message : List Char)

/-! ## The body -/

/-- The loop that counts the body as it arrives, behind `total` bytes of it. -/
def readChunks (total : ℕ) : List Bytes → Option Bytes
  | [] => some []
  | chunk :: rest =>
    if total + chunk.length > MAX_BODY_BYTES then none
    else (readChunks (total + chunk.length) rest).map (chunk ++ ·)

/-- `readBoundedText`. -/
def readBoundedText (rt : Runtime) (r : HttpRequest) : Option (List Char) :=
  if r.contentLength.any (· > MAX_BODY_BYTES) then none else (readChunks 0 r.chunks).map rt.textDecode

theorem readChunks_eq (total : ℕ) (chunks : List Bytes) (h : total ≤ MAX_BODY_BYTES) :
    readChunks total chunks =
      if total + chunks.flatten.length ≤ MAX_BODY_BYTES then some chunks.flatten else none := by
  induction chunks generalizing total with
  | nil => simpa [readChunks] using h
  | cons chunk rest ih =>
    rw [List.flatten_cons, List.length_append, readChunks]
    by_cases hover : total + chunk.length > MAX_BODY_BYTES
    · rw [if_pos hover, if_neg (by omega)]
    · rw [if_neg hover, ih _ (by omega), ← Nat.add_assoc]
      split_ifs <;> rfl

/-- The body is within the limit, and is said to be. -/
def HttpRequest.bounded (r : HttpRequest) : Bool :=
  !r.contentLength.any (· > MAX_BODY_BYTES) && r.chunks.flatten.length ≤ MAX_BODY_BYTES

theorem readBoundedText_eq (rt : Runtime) (r : HttpRequest) :
    readBoundedText rt r = if r.bounded then some (rt.textDecode r.chunks.flatten) else none := by
  unfold readBoundedText HttpRequest.bounded
  rw [readChunks_eq 0 r.chunks (Nat.zero_le _), Nat.zero_add]
  by_cases hdeclared : r.contentLength.any (· > MAX_BODY_BYTES) = true
  · simp only [hdeclared, if_true, Bool.not_true, Bool.false_and, Bool.false_eq_true, if_false]
  · by_cases hlength : r.chunks.flatten.length ≤ MAX_BODY_BYTES
    · simp only [hdeclared, hlength, if_true, Bool.not_false, Bool.true_and, decide_true, Bool.false_eq_true, if_false,
        Option.map_some]
    · simp only [hdeclared, hlength, Bool.not_false, Bool.true_and, decide_false, Bool.false_eq_true, if_false,
        Option.map_none]

/-! ## The request -/

section Handle

/-- `reportRejection`. -/
def reportRejection {K : Type} (env : GatewayEnv K) (report : RejectionReport) : Option RejectionReport :=
  if env.SETTLEMENT_URL = [] then none else some report

/-- A refusal that is reported. -/
def reject {K : Type} (env : GatewayEnv K) (status : ℕ) (publisher assertion : Json) (reason detail : List Char) :
    Outcome :=
  .answer (refuse status detail reason) (reportRejection env
    { publisher_id := publisher
      assertion_id := assertion
      merchant_id := .str []
      reason := .str reason
      detail := .str detail })

variable {E : Ed25519} (env : GatewayEnv E.PublicKey) (rt : Runtime)

/-- A purchase that carries both headers. -/
def handleAssertion (header body : List Char) (nowMs : ℤ) : Outcome :=
  match rt.decodeHeaderJson header with
  | none =>
    reject env 400 unknownPublisher (.str []) "malformed_headers".toList "assertion header is not base64 JSON".toList
  | some assertion =>
    match verifyAssertion E env.key rt.otherDate (.ofJson assertion) nowMs with
    | .ok () => .proxy .merchant body
    | .error (.verification reason message) =>
      reject env 401 (Json.orElse (assertion.prop "publisher_id") unknownPublisher)
        (Json.orDefault (assertion.prop "assertion_id") (.str [])) reason.text.toList message
    | .error .typeError => .throws rt.typeError

/-- A header that is there and not empty. -/
def presented (header : Option (List Char)) : List Char := header.getD []

/-- `handle`, behind the routing. -/
def handlePurchase (r : HttpRequest) (body : List Char) (nowMs : ℤ) : Outcome :=
  -- without a payment this is the first half of the exchange
  if presented r.payment = [] then .proxy .merchant body
  else if presented r.assertion = [] then
    reject env 400 unknownPublisher (.str []) "assertion_missing".toList
      "payment supplied without an assertion".toList
  else handleAssertion env rt (presented r.assertion) body nowMs

/-- `handle`. -/
def handle (r : HttpRequest) (nowMs : ℤ) : Outcome :=
  if r.method = "GET" ∧ r.path = ROUTE.Health then
    .answer ⟨200, Json.ofProps [("status", some (.str "ok".toList))]⟩ none
  else if r.method ≠ "POST" then .answer (fault 405 "method not allowed".toList) none
  else
    match readBoundedText rt r with
    | none => .answer (refuse 413 "request body exceeds 262144 bytes".toList "body_too_large".toList) none
    | some body =>
      if r.path = ROUTE.Search then .proxy .search body
      else if r.path ≠ ROUTE.Purchase then .answer (fault 404 "not found".toList) none
      else handlePurchase env rt r body nowMs

/-- What the server answers when `handle` throws. -/
def crashed (message : List Char) : Response := refuse 502 message "gateway_error".toList

end Handle

end Gateway
