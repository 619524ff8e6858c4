import AgenticAttribution.Attribution.Assertion
import AgenticAttribution.Lib.Json

/-!
# Settlement.X402 — the facilitator as settlement sees it

`internal/settlement/x402.go`.  A `Wire` is what a request to the facilitator comes to on the connection;
`HTTPFacilitator.post` folds it into a decoded body or one error.  `encoding/json`'s `Unmarshal` is a parameter,
with the wording of its error.
-/

namespace Settlement

open Attribution Digits

structure Eip3009Authorization where
  from_ : Bytes
  to_ : Bytes
  value : Bytes
  validAfter : Bytes
  validBefore : Bytes
  nonce : Bytes
  deriving DecidableEq

structure PaymentPayload where
  x402Version : ℤ
  scheme : Bytes
  network : Bytes
  authorization : Eip3009Authorization
  signature : Bytes
  deriving DecidableEq

structure PaymentRequirements where
  scheme : Bytes
  network : Bytes
  asset : Bytes
  maxAmountRequired : Bytes
  payTo : Bytes
  maxTimeoutSeconds : ℤ
  resource : Bytes
  description : Bytes
  deriving DecidableEq

structure VerifyResponse where
  isValid : Bool
  invalidReason : Bytes
  payer : Bytes
  deriving DecidableEq

structure SettleResponse where
  success : Bool
  errorReason : Bytes
  transaction : Bytes
  network : Bytes
  payer : Bytes
  deriving DecidableEq

/-! ## On the wire -/

/-- A Go string behind `json.Marshal` and `JSON.parse`. -/
def wireText (s : Bytes) : List Char := (Utf8.decode s).map fun r => r.getD '\uFFFD'

theorem wireText_encode (cs : List Char) : wireText (Utf8.encode cs) = cs := by
  rw [wireText, Utf8.decode_encode, List.map_map]
  exact List.map_id cs

def jsonText (s : Bytes) : Option Json := some (.str (wireText s))

def jsonInt (n : ℤ) : Option Json := some (.num (intChars n))

def Eip3009Authorization.toJson (a : Eip3009Authorization) : Json :=
  Json.ofProps [("from", jsonText a.from_), ("to", jsonText a.to_), ("value", jsonText a.value),
    ("validAfter", jsonText a.validAfter), ("validBefore", jsonText a.validBefore), ("nonce", jsonText a.nonce)]

def PaymentPayload.toJson (p : PaymentPayload) : Json :=
  Json.ofProps [("x402Version", jsonInt p.x402Version), ("scheme", jsonText p.scheme),
    ("network", jsonText p.network), ("authorization", some p.authorization.toJson),
    ("signature", jsonText p.signature)]

def PaymentRequirements.toJson (r : PaymentRequirements) : Json :=
  Json.ofProps [("scheme", jsonText r.scheme), ("network", jsonText r.network), ("asset", jsonText r.asset),
    ("maxAmountRequired", jsonText r.maxAmountRequired), ("payTo", jsonText r.payTo),
    ("maxTimeoutSeconds", jsonInt r.maxTimeoutSeconds), ("resource", jsonText r.resource),
    ("description", jsonText r.description)]

/-! ## Requests -/

def maxFacilitatorResponseBytes : ℕ := 64 * 1024

/-- What becomes of one request to the facilitator. -/
inductive Wire where
  /-- The request could not be built, so nothing was sent. -/
  | unsent (why : Bytes)
  /-- No response: the connection was refused or lost, or the client's timeout ran out. -/
  | unreachable (why : Bytes)
  /-- The response broke off while its body was read. -/
  | cut (why : Bytes)
  /-- A whole response. -/
  | answered (status : ℕ) (body : Bytes)
  deriving DecidableEq

/-- `HTTPFacilitator.post`. -/
def HTTPFacilitator.post {α : Type} (unmarshal : Bytes → Except Bytes α) : Wire → Except Err α
  | .unsent why => .error (GoError.wrap (Utf8.str "build facilitator request: ") (GoError.plain why))
  | .unreachable why => .error (Sentinel.facilitatorUnavailable.err.annotate (Utf8.str ": " ++ why))
  | .cut why => .error (Sentinel.facilitatorUnavailable.err.annotate (Utf8.str ": read body: " ++ why))
  | .answered status body =>
    -- the limited reader ends the body without an error
    let raw := body.take maxFacilitatorResponseBytes
    if status ≠ 200 then
      .error (Sentinel.facilitatorUnavailable.err.annotate
        (Utf8.str ": status " ++ Utf8.encode (natChars status) ++ Utf8.str ": " ++ raw))
    else
      match unmarshal raw with
      | .error why => .error (Sentinel.facilitatorUnavailable.err.annotate (Utf8.str ": decode body: " ++ why))
      | .ok out => .ok out

/-- A request has an outcome other than an error exactly if a 200 comes back whole and its first 64 KiB decode. -/
theorem HTTPFacilitator.post_eq_ok_iff {α : Type} {unmarshal : Bytes → Except Bytes α} {wire : Wire} {out : α} :
    HTTPFacilitator.post unmarshal wire = .ok out ↔
      ∃ body, wire = .answered 200 body ∧ unmarshal (body.take maxFacilitatorResponseBytes) = .ok out := by
  constructor
  · intro h
    cases wire with
    | answered status body =>
      simp only [HTTPFacilitator.post] at h
      split_ifs at h with hstatus
      have hstatus : status = 200 := not_not.mp hstatus
      split at h
      · cases h
      · rename_i raw hraw
        refine ⟨body, by rw [hstatus], ?_⟩
        rw [hraw, Except.ok.inj h]
    | _ => cases h
  · rintro ⟨body, rfl, h⟩
    simp only [HTTPFacilitator.post, ne_eq, not_true, if_false, h]

end Settlement
