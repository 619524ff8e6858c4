import AgenticAttribution.Gateway.Handler
import AgenticAttribution.Settlement.X402
import AgenticAttribution.Simulator.Payment
import AgenticAttribution.Types.CrossLanguage

/-!
# Simulator.Fraud — assertions that are to be refused

`simulator/src/fraud.ts`: what the simulator makes of a genuine assertion, and the reason it expects the platform to
refuse that for.  The gateway has reasons of its own (`reason_of_handle`), and none of them is expected.
-/

namespace Simulator

open Attribution Calendar Digits Types

/-! ## The modes -/

section Modes

inductive FraudMode where
  | tampered_publisher
  | tampered_commission
  | expired
  | forged_signature
  | unknown_publisher
  deriving DecidableEq

def EXPECTED_REJECTION : FraudMode → String
  | .tampered_publisher => "assertion_signature_invalid"
  | .tampered_commission => "assertion_signature_invalid"
  | .expired => "assertion_expired"
  | .forged_signature => "assertion_signature_invalid"
  | .unknown_publisher => "assertion_signature_invalid"

def ATTACKER_PUBLISHER : Json := .str "pub_999999".toList

def INFLATED_COMMISSION_BPS : Json := .num (intChars 9999)

def SIGNATURE_BODY_LENGTH : ℕ := 86

def MILLIS_PER_HOUR : ℤ := 3600000

/-- `hoursAgo`, in a year of four digits. -/
def hoursAgo (nowMs hours : ℤ) : Json := .str (formatRFC3339 ((nowMs - hours * MILLIS_PER_HOUR) * 1000000))

def forgedSignature : List Char :=
  signaturePrefix ++ (List.replicate SIGNATURE_BODY_LENGTH 'A' ++ ['=', '='])

/-- `applyFraud`, with `Date.now()`. -/
def applyFraud (assertion : AttributionAssertion) (mode : FraudMode) (nowMs : ℤ) : AttributionAssertion :=
  match mode with
  | .tampered_publisher => { assertion with publisher_id := some ATTACKER_PUBLISHER }
  | .tampered_commission => { assertion with commission_bps := some INFLATED_COMMISSION_BPS }
  | .expired => { assertion with issued_at := some (hoursAgo nowMs 3), expires_at := some (hoursAgo nowMs 2) }
  | .forged_signature => { assertion with signature := some (.str forgedSignature) }
  | .unknown_publisher =>
    { assertion with publisher_id := some ATTACKER_PUBLISHER, commission_bps := some INFLATED_COMMISSION_BPS }

end Modes

/-! ## The purchase -/

section Purchase

/-- The assertion as an object. -/
def toJson (a : AttributionAssertion) : Json :=
  Json.ofProps
    [("assertion_id", a.assertion_id), ("publisher_id", a.publisher_id), ("product_id", a.product_id),
     ("search_request_id", a.search_request_id), ("issued_at", a.issued_at), ("expires_at", a.expires_at),
     ("commission_bps", a.commission_bps), ("signature", a.signature)]

/-- The request of `completePurchase`. -/
def completePurchase (productId : List Char) (assertion : AttributionAssertion) (payment : Json) :
    Gateway.HttpRequest :=
  let body := Utf8.encode (Json.stringify (Json.ofProps [("product_id", some (.str productId))]))
  { method := "POST"
    path := Gateway.ROUTE.Purchase
    contentLength := some body.length
    chunks := [body]
    assertion := some (encodeHeaderJson (toJson assertion))
    payment := some (encodeHeaderJson payment) }

/-- **The gateway refuses for the reason that the mode expects.** -/
def RefusedAsExpected (mode : FraudMode) (outcome : Gateway.Outcome) : Prop :=
  ∃ response report, outcome = .answer response report ∧
    response.reason = some (.str (EXPECTED_REJECTION mode).toList)

end Purchase

/-! ## The reasons of the gateway -/

section Reasons

variable {E : Ed25519} {env : Gateway.GatewayEnv E.PublicKey} {rt : Runtime} {r : Gateway.HttpRequest} {nowMs : ℤ}
  {response : Response} {report : Option RejectionReport}

/-- What the gateway gives as a reason. -/
def gatewayReasons : List String :=
  ["malformed_signature", "invalid_signature", "expired", "malformed_headers", "assertion_missing", "body_too_large"]

theorem reason_of_handleAssertion {header body : List Char}
    (h : Gateway.handleAssertion env rt header body nowMs = .answer response report) :
    ∃ reason ∈ gatewayReasons, response.reason = some (.str reason.toList) := by
  unfold Gateway.handleAssertion at h
  split at h
  · obtain ⟨rfl, -⟩ := Gateway.Outcome.answer.inj h
    exact ⟨"malformed_headers", by decide, reason_refuse _ _ _⟩
  · split at h
    · cases h
    · rename_i reason message _
      obtain ⟨rfl, -⟩ := Gateway.Outcome.answer.inj h
      exact ⟨reason.text, by cases reason <;> decide, reason_refuse _ _ _⟩
    · cases h

theorem reason_of_handlePurchase {body : List Char}
    (h : Gateway.handlePurchase env rt r body nowMs = .answer response report) :
    ∃ reason ∈ gatewayReasons, response.reason = some (.str reason.toList) := by
  unfold Gateway.handlePurchase at h
  split_ifs at h
  · obtain ⟨rfl, -⟩ := Gateway.Outcome.answer.inj h
    exact ⟨"assertion_missing", by decide, reason_refuse _ _ _⟩
  · exact reason_of_handleAssertion h

/-- **Every refusal of the gateway has one of its reasons**, if any. -/
theorem reason_of_handle (h : Gateway.handle env rt r nowMs = .answer response report) :
    response.reason = none ∨ ∃ reason ∈ gatewayReasons, response.reason = some (.str reason.toList) := by
  unfold Gateway.handle at h
  by_cases hhealth : r.method = "GET" ∧ r.path = Gateway.ROUTE.Health
  · rw [if_pos hhealth] at h
    obtain ⟨rfl, -⟩ := Gateway.Outcome.answer.inj h
    exact Or.inl rfl
  · rw [if_neg hhealth] at h
    by_cases hpost : r.method ≠ "POST"
    · rw [if_pos hpost] at h
      obtain ⟨rfl, -⟩ := Gateway.Outcome.answer.inj h
      exact Or.inl (reason_fault _ _)
    · rw [if_neg hpost] at h
      cases hbody : Gateway.readBoundedText rt r with
      | none =>
        rw [hbody] at h
        obtain ⟨rfl, -⟩ := Gateway.Outcome.answer.inj h
        exact Or.inr ⟨"body_too_large", by decide, reason_refuse _ _ _⟩
      | some body =>
        rw [hbody] at h
        dsimp only at h
        split_ifs at h
        · obtain ⟨rfl, -⟩ := Gateway.Outcome.answer.inj h
          exact Or.inl (reason_fault _ _)
        · exact Or.inr (reason_of_handlePurchase h)

theorem expected_notMem (mode : FraudMode) : EXPECTED_REJECTION mode ∉ gatewayReasons := by
  cases mode <;> decide

theorem not_refusedAsExpected (mode : FraudMode) (r : Gateway.HttpRequest) (nowMs : ℤ) :
    ¬RefusedAsExpected mode (Gateway.handle env rt r nowMs) := by
  rintro ⟨response, report, hanswer, hreason⟩
  rcases reason_of_handle hanswer with hnone | ⟨reason, hmem, hsome⟩
  · cases hnone.symm.trans hreason
  · have hsame : reason.toList = (EXPECTED_REJECTION mode).toList :=
      Json.str.inj (Option.some.inj (hsome.symm.trans hreason))
    exact expected_notMem mode (String.toList_inj.mp hsame ▸ hmem)

end Reasons

/-! ## What a forgery is refused for -/

section Refused

variable {E : Ed25519} {key : E.PublicKey} {other : Option Json → Option ℤ} {a : AttributionAssertion} {nowMs t : ℤ}

theorem forgiving_forged : Base64.forgiving (Base64.symsOfText (forgedSignature.drop signaturePrefix.length)) =
    some (List.replicate 64 0) := by
  decide +kernel

/-- The signature that is presented covers nothing. -/
def Unsigned (E : Ed25519) (key : E.PublicKey) (a : AttributionAssertion) : Prop :=
  ∀ signature raw, a.signature = some (.str signature) →
    Base64.forgiving (Base64.symsOfText (signature.drop signaturePrefix.length)) = some raw →
      E.verify key (Utf8.encode (canonicalizeForSigning a)) raw = false

theorem invalid_of_unsigned {signature : List Char} {raw : Bytes} (hsig : a.signature = some (.str signature))
    (hlead : signaturePrefix.isPrefixOf signature = true)
    (hraw : Base64.forgiving (Base64.symsOfText (signature.drop signaturePrefix.length)) = some raw)
    (hlen : raw.length = 64) (h : Unsigned E key a) : verifyAssertion E key other a nowMs =
      .error (.verification .invalid_signature "signature does not verify against the public key".toList) := by
  have hver := h signature raw hsig hraw
  unfold verifyAssertion
  simp only [hsig, hlead, hraw, hlen, hver, Bool.not_true, Bool.not_false, Bool.false_eq_true, if_false, if_true,
    ne_eq, not_true]

/-- **Whatever was done to a genuine assertion, it is refused for its signature**, its deadline included. -/
theorem fraud_invalid (hgenuine : verifyAssertion E key other a nowMs = .ok ()) (mode : FraudMode)
    (h : Unsigned E key (applyFraud a mode t)) : verifyAssertion E key other (applyFraud a mode t) nowMs =
      .error (.verification .invalid_signature "signature does not verify against the public key".toList) := by
  obtain ⟨signature, raw, expires, haccepts⟩ := verifyAssertion_eq_ok_iff.mp hgenuine
  have hlen : raw.length = 64 := E.length_of_verify haccepts.verifies
  cases mode with
  | forged_signature =>
    exact invalid_of_unsigned rfl (List.isPrefixOf_iff_prefix.mpr (List.prefix_append _ _)) forgiving_forged rfl h
  | tampered_publisher => exact invalid_of_unsigned haccepts.presents haccepts.lead haccepts.base64 hlen h
  | tampered_commission => exact invalid_of_unsigned haccepts.presents haccepts.lead haccepts.base64 hlen h
  | expired => exact invalid_of_unsigned haccepts.presents haccepts.lead haccepts.base64 hlen h
  | unknown_publisher => exact invalid_of_unsigned haccepts.presents haccepts.lead haccepts.base64 hlen h

/-- What is attacked may be there already. -/
theorem fraud_idle (hpublisher : a.publisher_id = some ATTACKER_PUBLISHER) :
    applyFraud a .tampered_publisher t = a := by
  rw [applyFraud, ← hpublisher]

end Refused

/-- The assertion is read as it was written. -/
theorem ofJson_toJson (a : AttributionAssertion) : AttributionAssertion.ofJson (toJson a) = a := by
  simp [AttributionAssertion.ofJson, toJson, Json.prop_ofProps_of_ne, Json.prop_ofProps_head]

/-- The request comes to the verification of what it presents. -/
theorem handle_completePurchase {E : Ed25519} {env : Gateway.GatewayEnv E.PublicKey} {rt : Runtime}
    {productId : List Char} {payment : Json} (hpayment : payment.stringify ≠ [])
    (hbounded : (completePurchase productId a payment).bounded = true) :
    ∃ body, Gateway.handle env rt (completePurchase productId a payment) nowMs =
      Gateway.handleAssertion env rt (encodeHeaderJson (toJson a)) body nowMs := by
  have hmethod : (completePurchase productId a payment).method = "POST" := rfl
  have hpath : (completePurchase productId a payment).path = Gateway.ROUTE.Purchase := rfl
  have hpaid : Gateway.presented (completePurchase productId a payment).payment ≠ [] := encodeHeaderJson_ne_nil hpayment
  have hasserted : Gateway.presented (completePurchase productId a payment).assertion ≠ [] :=
    encodeHeaderJson_ne_nil (List.cons_ne_nil _ _)
  have hhealth : ¬((completePurchase productId a payment).method = "GET" ∧
      (completePurchase productId a payment).path = Gateway.ROUTE.Health) := fun h =>
    absurd (hmethod.symm.trans h.1) (by decide)
  have hsearch : (completePurchase productId a payment).path ≠ Gateway.ROUTE.Search := fun h =>
    absurd (hpath.symm.trans h) (by decide)
  refine ⟨rt.textDecode (completePurchase productId a payment).chunks.flatten, ?_⟩
  rw [Gateway.handle, if_neg hhealth, if_neg (not_not_intro hmethod), Gateway.readBoundedText_eq, if_pos hbounded]
  dsimp only
  rw [if_neg hsearch, if_neg (not_not_intro hpath), Gateway.handlePurchase, if_neg hpaid, if_neg hasserted]
  rfl

/-- **What the gateway answers to an attempt**: its signature is invalid, whatever was attacked. -/
theorem handle_fraud {E : Ed25519} {env : Gateway.GatewayEnv E.PublicKey} {rt : Runtime} {mode : FraudMode}
    {productId : List Char} {payment : Json} (hpayment : payment.stringify ≠ [])
    (hbounded : (completePurchase productId (applyFraud a mode t) payment).bounded = true)
    (hread : rt.decodeHeaderJson (encodeHeaderJson (toJson (applyFraud a mode t)))
      = some (toJson (applyFraud a mode t)))
    (hgenuine : verifyAssertion E env.key rt.otherDate a nowMs = .ok ())
    (hunsigned : Unsigned E env.key (applyFraud a mode t)) :
    ∃ publisher assertion,
      Gateway.handle env rt (completePurchase productId (applyFraud a mode t) payment) nowMs
        = Gateway.reject env 401 publisher assertion "invalid_signature".toList
            "signature does not verify against the public key".toList := by
  obtain ⟨body, hhandle⟩ := handle_completePurchase hpayment hbounded
  refine ⟨Json.orElse ((toJson (applyFraud a mode t)).prop "publisher_id") unknownPublisher,
    Json.orDefault ((toJson (applyFraud a mode t)).prop "assertion_id") (.str []), ?_⟩
  rw [hhandle, Gateway.handleAssertion, hread]
  dsimp only
  rw [ofJson_toJson, fraud_invalid hgenuine mode hunsigned]
  rfl

/-- **No fraud mode is refused for the reason it expects**, of whatever assertion it is made. -/
theorem fraud_never_expected (E : Ed25519) (env : Gateway.GatewayEnv E.PublicKey) (rt : Runtime)
    (a : AttributionAssertion) (mode : FraudMode) (productId : List Char) (payment : Json) (t nowMs : ℤ) :
    ¬RefusedAsExpected mode (Gateway.handle env rt (completePurchase productId (applyFraud a mode t) payment) nowMs) :=
  not_refusedAsExpected mode _ nowMs

/-! ## A redirected commission -/

namespace Tampered

def genuine : AttributionAssertion := Types.Sample.tsAssertion (signaturePrefix ++ Base64.encodeStd Types.Sample.raw)

def presented : AttributionAssertion := applyFraud genuine .tampered_publisher 0

theorem head_presented : (toJson presented).stringify.head? = some '\x7b' := rfl

/-- A platform that parses what is presented. -/
def rt : Runtime where
  parse text := if text = (toJson presented).stringify then some (toJson presented) else none
  readText := Settlement.wireText
  bufferFrom text := (Base64.forgiving (Base64.symsOfText text)).getD []
  otherDate _ := none
  typeError := []
  syntaxError := []
  parse_mark text := by
    refine if_neg fun h => ?_
    have hhead := head_presented
    rw [← h] at hhead
    exact absurd (Option.some.inj hhead) (by decide)
  readText_mark := text_mark
  bufferFrom_of_forgiving := @getD_forgiving

def env : Gateway.GatewayEnv paddedScheme.PublicKey := ⟨[], ()⟩

theorem verifies : verifyAssertion paddedScheme () rt.otherDate genuine 0 = .ok () := by
  have hraw : Base64.forgiving (Base64.symsOfText (Base64.encodeStd Types.Sample.raw)) = some Types.Sample.raw :=
    Base64.forgiving_of_decodeStd (Base64.decodeStd_encodeStd _)
  have hver : paddedScheme.verify () (canonicalize
      (Types.Sample.goAssertion (signaturePrefix ++ Base64.encodeStd Types.Sample.raw))) Types.Sample.raw = true :=
    paddedScheme.verify_sign () _
  have hyear : fourDigitYear ttl = true := by decide
  show verifyAssertion _ _ _ _ (getTime 0) = .ok ()
  exact (ts_accepts_iff (Types.Sample.same _)).mpr
    ⟨_, Types.Sample.raw, ttl / second * 1000, rfl, hraw, hver, dateParse_format hyear, by decide⟩

theorem unsigned : Unsigned paddedScheme () presented := by
  intro signature raw hsig hraw
  obtain rfl := Json.str.inj (Option.some.inj hsig)
  have hsame : Base64.forgiving (Base64.symsOfText (Base64.encodeStd Types.Sample.raw)) = some Types.Sample.raw :=
    Base64.forgiving_of_decodeStd (Base64.decodeStd_encodeStd _)
  obtain rfl := Option.some.inj (hraw.symm.trans hsame)
  decide +kernel

theorem parse_presented : rt.parse (toJson presented).stringify = some (toJson presented) := by
  simp only [rt, if_true]

theorem decode_header {v : Json} (hhead : v.stringify.head? = some '\x7b') (hparse : rt.parse v.stringify = some v) :
    rt.decodeHeaderJson (encodeHeaderJson v) = some v :=
  Runtime.decodeHeaderJson_encode (Runtime.textDecode_text Settlement.wireText_encode hhead) hparse

theorem decodes : rt.decodeHeaderJson (encodeHeaderJson (toJson presented)) = some (toJson presented) :=
  decode_header head_presented parse_presented

/-- The redirected commission is refused, and for another reason than the one that is expected. -/
theorem refused_otherwise :
    verifyAssertion paddedScheme () rt.otherDate genuine 0 = .ok () ∧ Unsigned paddedScheme () presented ∧
      (∃ publisher assertion, Gateway.handle env rt (completePurchase "prod_1".toList presented (.obj [])) 0
        = Gateway.reject env 401 publisher assertion "invalid_signature".toList
            "signature does not verify against the public key".toList) ∧
      ¬RefusedAsExpected .tampered_publisher
        (Gateway.handle env rt (completePurchase "prod_1".toList presented (.obj [])) 0) :=
  ⟨verifies, unsigned, handle_fraud (by decide) (by decide) decodes verifies unsigned, not_refusedAsExpected _ _ _⟩

end Tampered

end Simulator
