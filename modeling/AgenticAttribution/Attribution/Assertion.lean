import AgenticAttribution.Lib.Base64
import AgenticAttribution.Lib.Calendar
import AgenticAttribution.Lib.GoError
import AgenticAttribution.Lib.JsonText

/-!
# Attribution.Assertion — minting and verifying signed assertions

The Go package `internal/attribution`.  Strings are byte strings, `int` and `int64` are integers (the only place
where 64 bits matter is the multiplication in `calculateCommission`), an instant is a number of nanoseconds.
Ed25519 is a parameter with the laws its documentation gives.
-/

/-- The sentinel errors of `internal/attribution` and `internal/settlement`. -/
inductive Sentinel where
  | malformedSignature
  | invalidSignature
  | expired
  | commissionRange
  | listingNotFound
  | assertionReused
  | outOfStock
  | amountMismatch
  | currencyMismatch
  | facilitatorUnavailable
  | paymentInvalid
  | settlementFailed
  deriving DecidableEq

/-- The text a sentinel was made with. -/
def Sentinel.text : Sentinel → Bytes
  | malformedSignature => Utf8.str "signature missing the ed25519 prefix"
  | invalidSignature => Utf8.str "signature does not verify against the public key"
  | expired => Utf8.str "assertion expired"
  | commissionRange => Utf8.str "commission_bps outside 0..10000"
  | listingNotFound => Utf8.str "no listing for that product and merchant"
  | assertionReused => Utf8.str "assertion already consumed"
  | outOfStock => Utf8.str "listing is out of stock"
  | amountMismatch => Utf8.str "gross amount does not match the listing price"
  | currencyMismatch => Utf8.str "currency does not match the listing currency"
  | facilitatorUnavailable => Utf8.str "facilitator unreachable"
  | paymentInvalid => Utf8.str "facilitator rejected the payment payload"
  | settlementFailed => Utf8.str "facilitator failed to settle"

abbrev Err := GoError Sentinel

/-- A sentinel returned as it is. -/
def Sentinel.err (e : Sentinel) : Err := ⟨[e], e.text⟩

@[simp] theorem Sentinel.wraps_err (e : Sentinel) : e.err.wraps = [e] := rfl

namespace Attribution

open JsonText Digits Calendar

/-- An Ed25519 implementation. -/
structure Ed25519 where
  PrivateKey : Type
  PublicKey : Type
  publicKey : PrivateKey → PublicKey
  sign : PrivateKey → Bytes → Bytes
  verify : PublicKey → Bytes → Bytes → Bool
  /-- A signature is 64 bytes long; `Verify` refuses any other length. -/
  length_of_verify : ∀ {pk msg sig}, verify pk msg sig = true → sig.length = 64
  verify_sign : ∀ sk msg, verify (publicKey sk) msg (sign sk msg) = true

/-- A signature scheme whose signatures are the padded message, for runs on concrete requests. -/
def paddedScheme : Ed25519 where
  PrivateKey := Unit
  PublicKey := Unit
  publicKey _ := ()
  sign _ msg := (msg ++ List.replicate 64 0).take 64
  verify _ msg sig := sig == (msg ++ List.replicate 64 0).take 64
  length_of_verify := by
    intro _ msg sig h
    rw [eq_of_beq h, List.length_take, List.length_append, List.length_replicate]
    omega
  verify_sign _ _ := beq_self_eq_true _

def ttl : ℤ := hour

def basisPointsDivisor : ℤ := 10000

def platformFeeShareBps : ℤ := 3000

def signaturePrefix : List Char := "ed25519:".toList

structure Assertion where
  assertionID : Bytes
  publisherID : Bytes
  productID : Bytes
  searchRequestID : Bytes
  issuedAt : Bytes
  expiresAt : Bytes
  commissionBps : ℤ
  signature : Bytes
  deriving DecidableEq

/-! ## Signing -/

section Sign

/-- One string member of the signing document, behind the text that opens it. -/
def member (lead : String) (value : Bytes) (rest : List Char) : List Char :=
  lead.toList ++ (goString value ++ rest)

/-- The document that the signature covers: `unsigned` as `encoding/json` writes it. -/
def canonicalChars (a : Assertion) : List Char :=
  member "\x7b\"assertion_id\":" a.assertionID <|
  member ",\"publisher_id\":" a.publisherID <|
  member ",\"product_id\":" a.productID <|
  member ",\"search_request_id\":" a.searchRequestID <|
  member ",\"issued_at\":" a.issuedAt <|
  member ",\"expires_at\":" a.expiresAt <|
  ",\"commission_bps\":".toList ++ (intChars a.commissionBps ++ ['}'])

/-- The bytes of the signing document.  The encoder cannot fail on strings and an `int`. -/
def canonicalize (a : Assertion) : Bytes := Utf8.encode (canonicalChars a)

variable (E : Ed25519)

/-- What `Mint` is called with. -/
structure MintArgs where
  assertionID : Bytes
  publisherID : Bytes
  productID : Bytes
  searchRequestID : Bytes
  commissionBps : ℤ
  issuedAt : ℤ
  deriving DecidableEq

/-- The assertion of a `Mint` call before it is signed. -/
def MintArgs.assertion (m : MintArgs) : Assertion where
  assertionID := m.assertionID
  publisherID := m.publisherID
  productID := m.productID
  searchRequestID := m.searchRequestID
  issuedAt := Utf8.encode (formatRFC3339 m.issuedAt)
  expiresAt := Utf8.encode (formatRFC3339 (m.issuedAt + ttl))
  commissionBps := m.commissionBps
  signature := []

def MintArgs.inRange (m : MintArgs) : Bool := !(m.commissionBps < 0 || m.commissionBps > basisPointsDivisor)

/-- The bytes that a `Mint` call signs. -/
def MintArgs.payload (m : MintArgs) : Bytes := canonicalize m.assertion

/-- `Signer.Mint`. -/
def mint (sk : E.PrivateKey) (m : MintArgs) : Except Err Assertion :=
  if m.inRange then
    .ok { m.assertion with
      signature := Utf8.encode (signaturePrefix ++ Base64.encodeStd (E.sign sk m.payload)) }
  else .error Sentinel.commissionRange.err

end Sign

/-! ## Verifying -/

section Verify

variable (E : Ed25519)

/-- The wording of `time.ParseError`, which no caller looks into. -/
structure Wording where
  timeParse : Bytes → Bytes

/-- The text of `base64.CorruptInputError`. -/
def corruptInput (offset : ℕ) : Bytes :=
  Utf8.encode ("illegal base64 data at input byte ".toList ++ natChars offset)

/-- `Verifier.Verify`. -/
def verify (w : Wording) (pk : E.PublicKey) (a : Assertion) (now : ℤ) : Option Err :=
  let lead := Utf8.encode signaturePrefix
  if ¬lead.isPrefixOf a.signature then some Sentinel.malformedSignature.err
  else
    match Base64.decodeStd (Base64.symsOfBytes (a.signature.drop lead.length)) with
    | .error offset => some (Sentinel.malformedSignature.err.annotate (Utf8.str ": " ++ corruptInput offset))
    | .ok raw =>
      if ¬E.verify pk (canonicalize a) raw then some Sentinel.invalidSignature.err
      else
        match parseRFC3339 (Utf8.latin1 a.expiresAt) with
        | none => some (GoError.plain (Utf8.str "parse expires_at: " ++ w.timeParse a.expiresAt))
        | some expires => if now < expires then none else some Sentinel.expired.err

/-- What `Verify` has established when it reports no error. -/
structure Accepts (pk : E.PublicKey) (a : Assertion) (now : ℤ) (raw : Bytes) (expires : ℤ) : Prop where
  lead : (Utf8.encode signaturePrefix).isPrefixOf a.signature = true
  base64 : Base64.decodeStd
    (Base64.symsOfBytes (a.signature.drop (Utf8.encode signaturePrefix).length)) = .ok raw
  verifies : E.verify pk (canonicalize a) raw = true
  parses : parseRFC3339 (Utf8.latin1 a.expiresAt) = some expires
  unexpired : now < expires

/-- **`Verify` accepts** what carries a signature of its document and an expiry that lies ahead, and nothing
else. -/
theorem verify_eq_none_iff {w : Wording} {pk : E.PublicKey} {a : Assertion} {now : ℤ} :
    verify E w pk a now = none ↔ ∃ raw expires, Accepts E pk a now raw expires := by
  constructor
  · intro h
    simp only [verify] at h
    split_ifs at h with hlead
    split at h
    · cases h
    · rename_i raw hraw
      split_ifs at h with hver
      split at h
      · cases h
      · rename_i expires hexp
        split_ifs at h with hnow
        exact ⟨raw, expires, hlead, hraw, hver, hexp, hnow⟩
  · rintro ⟨raw, expires, hlead, hraw, hver, hexp, hnow⟩
    simp only [verify, hlead, hraw, hver, hexp, if_pos hnow, not_true, if_false]

theorem mint_eq_ok_iff {sk : E.PrivateKey} {m : MintArgs} {a : Assertion} :
    mint E sk m = .ok a ↔ m.inRange = true ∧ a = { m.assertion with
      signature := Utf8.encode (signaturePrefix ++ Base64.encodeStd (E.sign sk m.payload)) } := by
  by_cases h : m.inRange = true
  · rw [mint, if_pos h, Except.ok.injEq, eq_comm, and_iff_right h]
  · rw [mint, if_neg h]
    constructor
    · intro he
      cases he
    · intro he
      exact absurd he.1 h

theorem latin1_formatRFC3339 (t : ℤ) : Utf8.latin1 (Utf8.encode (formatRFC3339 t)) = formatRFC3339 t :=
  Utf8.latin1_encode (ascii_formatRFC3339 t)

/-- **A minted assertion verifies** under the matching key until its expiry, cut to the second. -/
theorem verify_mint {w : Wording} {sk : E.PrivateKey} {m : MintArgs} {a : Assertion} {now : ℤ}
    (h : mint E sk m = .ok a) (hy : fourDigitYear (m.issuedAt + ttl) = true)
    (hnow : now < (m.issuedAt + ttl) / second * second) : verify E w (E.publicKey sk) a now = none := by
  obtain ⟨-, rfl⟩ := (mint_eq_ok_iff E).mp h
  refine (verify_eq_none_iff E).mpr ⟨E.sign sk m.payload, (m.issuedAt + ttl) / second * second, ?_, ?_, ?_, ?_, hnow⟩
  · rw [Utf8.encode_append]
    exact List.isPrefixOf_iff_prefix.mpr (List.prefix_append _ _)
  · rw [Utf8.encode_append, List.drop_left]
    exact Base64.decodeStd_symsOfBytes.mpr (Base64.decodeStd_encodeStd _)
  · exact E.verify_sign sk m.payload
  · show parseRFC3339 (Utf8.latin1 (Utf8.encode (formatRFC3339 (m.issuedAt + ttl)))) = _
    rw [latin1_formatRFC3339, parseRFC3339_format, if_pos hy]

end Verify

/-! ## Commission -/

section Commission

/-- Two's-complement wrapping of an `int64` result. -/
def int64 (n : ℤ) : ℤ := n.bmod (2 ^ 64)

theorem int64_of_bounds {n : ℤ} (hlo : -2 ^ 63 ≤ n) (hhi : n < 2 ^ 63) : int64 n = n := by
  unfold int64
  rw [Int.bmod_eq_of_le] <;> omega

structure CommissionSplit where
  commissionAmountCents : ℤ
  platformFeeCents : ℤ
  publisherAmountCents : ℤ
  deriving DecidableEq

/-- `CalculateCommission`; Go's division truncates towards zero. -/
def calculateCommission (grossAmountCents commissionBps : ℤ) : CommissionSplit :=
  let commission := int64 (grossAmountCents * commissionBps) |>.tdiv basisPointsDivisor
  let platformFee := int64 (commission * platformFeeShareBps) |>.tdiv basisPointsDivisor
  ⟨commission, platformFee, int64 (commission - platformFee)⟩

/-- Without overflow the commission is the exact quotient, and so is the platform's share of it. -/
theorem calculateCommission_of_fits {gross bps : ℤ} (hlo : 0 ≤ gross * bps) (hhi : gross * bps < 2 ^ 63) :
    calculateCommission gross bps =
      ⟨gross * bps / 10000, gross * bps / 10000 * 3000 / 10000,
        gross * bps / 10000 - gross * bps / 10000 * 3000 / 10000⟩ := by
  have hcommission : (int64 (gross * bps)).tdiv basisPointsDivisor = gross * bps / 10000 := by
    rw [int64_of_bounds (by omega) hhi, Int.tdiv_eq_ediv_of_nonneg hlo]
    rfl
  have hfee : (int64 (gross * bps / 10000 * platformFeeShareBps)).tdiv basisPointsDivisor
      = gross * bps / 10000 * 3000 / 10000 := by
    have hshare : gross * bps / 10000 * platformFeeShareBps = gross * bps / 10000 * 3000 := rfl
    rw [hshare, int64_of_bounds (by omega) (by omega), Int.tdiv_eq_ediv_of_nonneg (by omega)]
    rfl
  have hrest : int64 (gross * bps / 10000 - gross * bps / 10000 * 3000 / 10000)
      = gross * bps / 10000 - gross * bps / 10000 * 3000 / 10000 := int64_of_bounds (by omega) (by omega)
  simp only [calculateCommission, hcommission, hfee, hrest]

end Commission

end Attribution
