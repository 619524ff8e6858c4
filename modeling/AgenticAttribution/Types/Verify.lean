import AgenticAttribution.Attribution.Assertion
import AgenticAttribution.Lib.Json

/-!
# Types.Verify — the TypeScript half of the assertion

`packages/types/src/index.ts` (`canonicalizeForSigning`) and `verify.ts` (`verifyAssertion`), which the gateway and
the merchant run.  The assertion is what `JSON.parse` made of a header, so any of its properties may be missing or
of another type; what TypeScript's types promise is not checked at run time.

`Date.parse` follows ECMAScript on `YYYY-MM-DDTHH:mm:ssZ` and is a parameter on everything else, where the
standard leaves it to the implementation.
-/

namespace Types

open Attribution Calendar Digits

structure AttributionAssertion where
  assertion_id : Option Json
  publisher_id : Option Json
  product_id : Option Json
  search_request_id : Option Json
  issued_at : Option Json
  expires_at : Option Json
  commission_bps : Option Json
  signature : Option Json

/-- The properties that TypeScript reads off a decoded value. -/
def AttributionAssertion.ofJson (v : Json) : AttributionAssertion where
  assertion_id := v.prop "assertion_id"
  publisher_id := v.prop "publisher_id"
  product_id := v.prop "product_id"
  search_request_id := v.prop "search_request_id"
  issued_at := v.prop "issued_at"
  expires_at := v.prop "expires_at"
  commission_bps := v.prop "commission_bps"
  signature := v.prop "signature"

/-- `canonicalizeForSigning`. -/
def canonicalizeForSigning (a : AttributionAssertion) : List Char :=
  Json.stringify (Json.ofProps
    [("assertion_id", a.assertion_id),
     ("publisher_id", a.publisher_id),
     ("product_id", a.product_id),
     ("search_request_id", a.search_request_id),
     ("issued_at", a.issued_at),
     ("expires_at", a.expires_at),
     ("commission_bps", a.commission_bps)])

inductive VerificationFailure where
  | malformed_signature
  | invalid_signature
  | expired
  deriving DecidableEq

def VerificationFailure.text : VerificationFailure → String
  | malformed_signature => "malformed_signature"
  | invalid_signature => "invalid_signature"
  | expired => "expired"

/-- What `verifyAssertion` throws. -/
inductive Thrown where
  | verification (reason : VerificationFailure) (message : List Char)
  /-- A `TypeError`: the signature is no string, or the deadline has no text. -/
  | typeError
  deriving DecidableEq

/-- `Date.parse`, with the implementation's own reading of other forms; `none` is NaN. -/
def dateParse (other : Option Json → Option ℤ) (v : Option Json) : Option ℤ :=
  match v with
  | some (.str cs) =>
    match parseIso cs with
    | some ms => some ms
    | none => other v
  | _ => other v

/-- `Date.now()` at an instant: whole milliseconds. -/
def getTime (now : ℤ) : ℤ := now / 1000000

def malformed (message : List Char) : Thrown := .verification .malformed_signature message

/-- `verifyAssertion`, at the time value `nowMs`. -/
def verifyAssertion (E : Ed25519) (key : E.PublicKey) (other : Option Json → Option ℤ) (a : AttributionAssertion)
    (nowMs : ℤ) : Except Thrown Unit :=
  match a.signature with
  | some (.str signature) =>
    if !signaturePrefix.isPrefixOf signature then
      .error (malformed ("signature missing the ".toList ++ signaturePrefix ++ " prefix".toList))
    else
      match Base64.forgiving (Base64.symsOfText (signature.drop signaturePrefix.length)) with
      | none => .error (malformed "signature is not valid base64".toList)
      | some raw =>
        if raw.length ≠ 64 then
          .error (malformed ("signature holds ".toList ++ natChars raw.length ++ " bytes, expected 64".toList))
        else if !E.verify key (Utf8.encode (canonicalizeForSigning a)) raw then
          .error (.verification .invalid_signature "signature does not verify against the public key".toList)
        else if !Json.displayable a.expires_at then .error .typeError
        else
          match dateParse other a.expires_at with
          | none =>
            .error (malformed ("expires_at is not a parseable timestamp: ".toList ++ Json.display a.expires_at))
          | some expires =>
            if nowMs ≥ expires then
              .error (.verification .expired ("assertion expired at ".toList ++ Json.display a.expires_at))
            else .ok ()
  | _ => .error .typeError

/-- What `verifyAssertion` has established when it does not throw. -/
structure Accepts (E : Ed25519) (key : E.PublicKey) (other : Option Json → Option ℤ) (a : AttributionAssertion)
    (nowMs : ℤ) (signature : List Char) (raw : Bytes) (expires : ℤ) : Prop where
  presents : a.signature = some (.str signature)
  lead : signaturePrefix.isPrefixOf signature = true
  base64 : Base64.forgiving (Base64.symsOfText (signature.drop signaturePrefix.length)) = some raw
  verifies : E.verify key (Utf8.encode (canonicalizeForSigning a)) raw = true
  displays : Json.displayable a.expires_at = true
  parses : dateParse other a.expires_at = some expires
  unexpired : nowMs < expires

theorem verifyAssertion_eq_ok_iff {E : Ed25519} {key : E.PublicKey} {other : Option Json → Option ℤ}
    {a : AttributionAssertion} {nowMs : ℤ} :
    verifyAssertion E key other a nowMs = .ok () ↔
      ∃ signature raw expires, Accepts E key other a nowMs signature raw expires := by
  constructor
  · intro h
    unfold verifyAssertion at h
    split at h
    · rename_i signature hsig
      split_ifs at h with hlead hdisp
      · -- a deadline without a text is found out behind the signature
        split at h
        · cases h
        · split_ifs at h
      split at h
      · cases h
      · rename_i raw hraw
        split_ifs at h with hlen hver
        split at h
        · cases h
        · rename_i expires hexp
          split_ifs at h with hnow
          refine ⟨signature, raw, expires, hsig, ?_, hraw, ?_, ?_, hexp, not_le.mp hnow⟩
          · simpa using hlead
          · simpa using hver
          · simpa using hdisp
    · cases h
  · rintro ⟨signature, raw, expires, hsig, hlead, hraw, hver, hdisp, hexp, hnow⟩
    have hlen : raw.length = 64 := E.length_of_verify hver
    unfold verifyAssertion
    simp only [hsig, hlead, hraw, hlen, hver, hdisp, hexp, ne_eq, not_true, Bool.not_true, Bool.false_eq_true, if_false,
      if_neg (not_le.mpr hnow)]

/-- The signature is no string, or it covers a deadline that has no text. -/
def Unreadable (E : Ed25519) (key : E.PublicKey) (a : AttributionAssertion) : Prop :=
  (∀ signature, a.signature ≠ some (.str signature)) ∨
    ∃ signature raw, a.signature = some (.str signature) ∧ signaturePrefix.isPrefixOf signature = true ∧
      Base64.forgiving (Base64.symsOfText (signature.drop signaturePrefix.length)) = some raw ∧
      E.verify key (Utf8.encode (canonicalizeForSigning a)) raw = true ∧ Json.displayable a.expires_at = false

/-- **Where `verifyAssertion` throws a `TypeError`.** -/
theorem verifyAssertion_eq_typeError_iff {E : Ed25519} {key : E.PublicKey} {other : Option Json → Option ℤ}
    {a : AttributionAssertion} {nowMs : ℤ} :
    verifyAssertion E key other a nowMs = .error .typeError ↔ Unreadable E key a := by
  constructor
  · intro h
    unfold verifyAssertion at h
    split at h
    · rename_i signature hsig
      refine Or.inr ⟨signature, ?_⟩
      split_ifs at h with hlead hdisp
      · cases h
      · split at h
        · cases h
        · rename_i raw hraw
          split_ifs at h with hlen hver
          · cases h
          · cases h
          · exact ⟨raw, hsig, by simpa using hlead, hraw, by simpa using hver, by simpa using hdisp⟩
      · split at h
        · cases h
        · split_ifs at h
          · cases h
          · cases h
          · split at h
            · cases h
            · split_ifs at h
              cases h
    · rename_i hno
      exact Or.inl hno
  · rintro (hno | ⟨signature, raw, hsig, hlead, hraw, hver, hdisp⟩)
    · unfold verifyAssertion
      split
      · rename_i signature hsig
        exact absurd hsig (hno signature)
      · rfl
    · have hlen : raw.length = 64 := E.length_of_verify hver
      unfold verifyAssertion
      simp only [hsig, hlead, hraw, hlen, hver, hdisp, ne_eq, not_true, Bool.not_true, Bool.not_false,
        Bool.false_eq_true, if_false, if_true]

end Types
