import AgenticAttribution.Lib.Utf8
import AgenticAttribution.Types.Eip3009

/-!
# Facilitator.Verify — the check of a payment

`facilitator/src/verify.ts`.  Payload and requirements are what `JSON.parse` made of a request body.  What comes
from the platform is a parameter: the case mapping of Unicode, `viem`'s `verifyTypedData` and its hash.

`verifyPayment_eq_valid_iff` is all that an accepted payment has been checked for.
-/

namespace Facilitator

open Types BigInt

/-- What the facilitator runs on. -/
structure Platform where
  /-- `String.prototype.toLowerCase`. -/
  toLowerCase : List Char → List Char
  /-- The bytes that the typed data holds for an address written in hex. -/
  addressOf : List Char → Option Bytes
  /-- The 32 bytes that the typed data holds for a nonce written in hex. -/
  nonceOf : List Char → Option Bytes
  /-- `verifyTypedData`, with the payer of the message as the address; `none` when it throws. -/
  verifyTypedData : Eip712Domain → Eip3009Message → Option Json → Option Bool
  /-- `keccak256(toHex(text))`. -/
  keccak256 : List Char → List Char
  toLowerCase_ascii : ∀ cs, (∀ c ∈ cs, c.toNat < 128) → toLowerCase cs = cs.map Char.toLower
  addressOf_case : ∀ cs ds, cs.map Char.toLower = ds.map Char.toLower →
    addressOf ('0' :: 'x' :: cs) = addressOf ('0' :: 'x' :: ds)
  nonceOf_case : ∀ cs ds, cs.map Char.toLower = ds.map Char.toLower →
    nonceOf ('0' :: 'x' :: cs) = nonceOf ('0' :: 'x' :: ds)
  /-- What verifies has a payer and a nonce that were read. -/
  reads : ∀ domain m signature, verifyTypedData domain m signature = some true →
    ∃ f a n b, m.from_ = some (.str f) ∧ addressOf f = some a ∧ m.nonce = some (.str n) ∧ nonceOf n = some b

inductive InvalidReason where
  | unsupported_scheme
  | network_mismatch
  | asset_mismatch
  | payee_mismatch
  | insufficient_amount
  | authorization_not_yet_valid
  | authorization_expired
  | invalid_signature
  | malformed_payload
  deriving DecidableEq

def InvalidReason.text : InvalidReason → String
  | unsupported_scheme => "unsupported_scheme"
  | network_mismatch => "network_mismatch"
  | asset_mismatch => "asset_mismatch"
  | payee_mismatch => "payee_mismatch"
  | insufficient_amount => "insufficient_amount"
  | authorization_not_yet_valid => "authorization_not_yet_valid"
  | authorization_expired => "authorization_expired"
  | invalid_signature => "invalid_signature"
  | malformed_payload => "malformed_payload"

/-- A `VerifyOutcome`, by its `isValid`. -/
inductive VerifyOutcome where
  | invalid (reason : InvalidReason)
  | valid (payer : Option Json)

def VerifyOutcome.isValid : VerifyOutcome → Bool
  | invalid _ => false
  | valid _ => true

def SCHEME_EXACT : String := "exact"

section Verify

variable (p : Platform)

/-- `sameAddress`; `none` when a side is no string, and has no `toLowerCase`. -/
def sameAddress (left right : Option Json) : Option Bool :=
  match left, right with
  | some (.str l), some (.str r) => some (p.toLowerCase l = p.toLowerCase r)
  | _, _ => none

/-- `BigInt` of a requirement; only strings get there, see `validateRequest`. -/
def bigIntOf : Option Json → Option ℤ
  | some (.str cs) => bigInt cs
  | _ => none

/-- `message` and `domain` in `verifyPayment`; `none` when one of the conversions throws. -/
def typedData (payload : Json) : Option (Eip3009Message × Eip712Domain) :=
  match payload.prop "authorization" with
  | none => none
  | some authorization =>
    match toTypedMessage authorization, eip712Domain (payload.prop "network") with
    | .ok message, some domain => some (message, domain)
    | _, _ => none

/-- The check of the signature. -/
def verifySignature (message : Eip3009Message) (domain : Eip712Domain) (signature : Option Json) : VerifyOutcome :=
  match p.verifyTypedData domain message signature with
  | none => .invalid .malformed_payload
  | some false => .invalid .invalid_signature
  | some true => .valid message.from_

/-- The last checks, of the window and the signature. -/
def verifyWindow (message : Eip3009Message) (domain : Eip712Domain) (signature : Option Json) (nowSeconds : ℤ) :
    VerifyOutcome :=
  if nowSeconds < message.validAfter then .invalid .authorization_not_yet_valid
  else if nowSeconds ≥ message.validBefore then .invalid .authorization_expired
  else verifySignature p message domain signature

/-- The checks of a typed message against the requirements. -/
def verifyMessage (message : Eip3009Message) (domain : Eip712Domain) (signature : Option Json) (requirements : Json)
    (nowSeconds : ℤ) : Option VerifyOutcome := do
  let sameAsset ← sameAddress p (requirements.prop "asset")
    (domain.verifyingContract.map fun address => .str address.toList)
  if !sameAsset then return .invalid .asset_mismatch
  let samePayee ← sameAddress p message.to_ (requirements.prop "payTo")
  if !samePayee then return .invalid .payee_mismatch
  let required ← bigIntOf (requirements.prop "maxAmountRequired")
  if message.value ≠ required then return .invalid .insufficient_amount
  return verifyWindow p message domain signature nowSeconds

/-- `verifyPayment`; `none` when it throws. -/
def verifyPayment (payload requirements : Json) (nowSeconds : ℤ) : Option VerifyOutcome :=
  if !Json.isText (payload.prop "scheme") SCHEME_EXACT || !Json.isText (requirements.prop "scheme") SCHEME_EXACT then
    some (.invalid .unsupported_scheme)
  else if !Json.strictEq (payload.prop "network") (requirements.prop "network") then
    some (.invalid .network_mismatch)
  else
    match typedData payload with
    | none => some (.invalid .malformed_payload)
    | some (message, domain) =>
      verifyMessage p message domain (payload.prop "signature") requirements nowSeconds

end Verify

/-- What the checks of a typed message establish. -/
structure MessageAccepted (p : Platform) (message : Eip3009Message) (domain : Eip712Domain) (signature : Option Json)
    (requirements : Json) (nowSeconds : ℤ) : Prop where
  asset : sameAddress p (requirements.prop "asset")
    (domain.verifyingContract.map fun address => .str address.toList) = some true
  payee : sameAddress p message.to_ (requirements.prop "payTo") = some true
  amount : bigIntOf (requirements.prop "maxAmountRequired") = some message.value
  notBefore : message.validAfter ≤ nowSeconds
  notAfter : nowSeconds < message.validBefore
  signed : p.verifyTypedData domain message signature = some true

variable {p : Platform} {payload requirements : Json} {nowSeconds : ℤ} {payer : Option Json}

theorem verifySignature_eq_valid_iff {message : Eip3009Message} {domain : Eip712Domain} {signature : Option Json} :
    verifySignature p message domain signature = .valid payer ↔
      p.verifyTypedData domain message signature = some true ∧ payer = message.from_ := by
  unfold verifySignature
  split <;> rename_i h <;> simp [h, eq_comm]

theorem verifyWindow_eq_valid_iff {message : Eip3009Message} {domain : Eip712Domain} {signature : Option Json} :
    verifyWindow p message domain signature nowSeconds = .valid payer ↔
      message.validAfter ≤ nowSeconds ∧ nowSeconds < message.validBefore ∧
        p.verifyTypedData domain message signature = some true ∧ payer = message.from_ := by
  unfold verifyWindow
  split_ifs with hnb hna
  · simp [not_le.mpr hnb]
  · simp [not_lt.mpr hna]
  · rw [verifySignature_eq_valid_iff]
    simp [not_lt.mp hnb, not_le.mp hna]

theorem verifyMessage_eq_valid_iff {message : Eip3009Message} {domain : Eip712Domain} {signature : Option Json} :
    verifyMessage p message domain signature requirements nowSeconds = some (.valid payer) ↔
      MessageAccepted p message domain signature requirements nowSeconds ∧ payer = message.from_ := by
  constructor
  · intro h
    obtain ⟨sameAsset, hasset, h⟩ := Option.bind_eq_some_iff.mp h
    split_ifs at h with ha
    · cases h
    obtain ⟨samePayee, hpayee, h⟩ := Option.bind_eq_some_iff.mp h
    split_ifs at h with hp
    · cases h
    obtain ⟨required, hreq, h⟩ := Option.bind_eq_some_iff.mp h
    split_ifs at h with hv
    · cases h
    obtain ⟨hnb, hna, hsigned, hpayer⟩ := verifyWindow_eq_valid_iff.mp (Option.some.inj h)
    have hA : sameAsset = true := by simpa using ha
    have hP : samePayee = true := by simpa using hp
    exact ⟨⟨hA ▸ hasset, hP ▸ hpayee, (not_not.mp hv) ▸ hreq, hnb, hna, hsigned⟩, hpayer⟩
  · rintro ⟨⟨hasset, hpayee, hreq, hnb, hna, hsigned⟩, hpayer⟩
    have hwindow := verifyWindow_eq_valid_iff.mpr ⟨hnb, hna, hsigned, hpayer⟩
    simp only [verifyMessage, hasset, hpayee, hreq, Option.bind_eq_bind, Option.bind_some, Bool.not_true,
      Bool.false_eq_true, if_false, ne_eq, not_true, hwindow]
    rfl

/-- What an accepted payment has been checked for. -/
structure Accepted (p : Platform) (payload requirements : Json) (nowSeconds : ℤ) (message : Eip3009Message)
    (domain : Eip712Domain) : Prop where
  scheme : payload.prop "scheme" = some (.str SCHEME_EXACT.toList)
  required : requirements.prop "scheme" = some (.str SCHEME_EXACT.toList)
  network : Json.strictEq (payload.prop "network") (requirements.prop "network") = true
  typed : typedData payload = some (message, domain)
  accepted : MessageAccepted p message domain (payload.prop "signature") requirements nowSeconds

/-- **What `verifyPayment` accepts.** -/
theorem verifyPayment_eq_valid_iff :
    verifyPayment p payload requirements nowSeconds = some (.valid payer) ↔
      ∃ message domain, Accepted p payload requirements nowSeconds message domain ∧ payer = message.from_ := by
  unfold verifyPayment
  constructor
  · intro h
    split_ifs at h with hscheme hnet
    · rw [Option.some.injEq] at h
      cases h
    · rw [Option.some.injEq] at h
      cases h
    · simp only [Bool.or_eq_true, Bool.not_eq_true', not_or, Bool.not_eq_false] at hscheme
      split at h
      · rw [Option.some.injEq] at h
        cases h
      · rename_i message domain htyped
        obtain ⟨hacc, hpayer⟩ := verifyMessage_eq_valid_iff.mp h
        have hnet : Json.strictEq (payload.prop "network") (requirements.prop "network") = true := by
          simpa using hnet
        exact ⟨message, domain, ⟨Json.isText_iff.mp hscheme.1, Json.isText_iff.mp hscheme.2, hnet, htyped, hacc⟩,
          hpayer⟩
  · rintro ⟨message, domain, ⟨hs, hr, hnet, htyped, hacc⟩, hpayer⟩
    have hs : Json.isText (payload.prop "scheme") SCHEME_EXACT = true := Json.isText_iff.mpr hs
    have hr : Json.isText (requirements.prop "scheme") SCHEME_EXACT = true := Json.isText_iff.mpr hr
    simp only [hs, hr, hnet, htyped, Bool.not_true, Bool.or_self, Bool.false_eq_true, if_false]
    exact verifyMessage_eq_valid_iff.mpr ⟨hacc, hpayer⟩

/-! ## A platform for concrete runs -/

/-- What `digits` hex digits stand for. -/
def hexValue (digits : ℕ) : List Char → Option Bytes
  | '0' :: 'x' :: cs =>
    let ds := cs.map Char.toLower
    if ds.length = digits ∧ ds.all (isDigitOf 16) then some (ds.map fun d => UInt8.ofNat (digitVal d)) else none
  | _ => none

theorem hexValue_case (digits : ℕ) (cs ds : List Char) (h : cs.map Char.toLower = ds.map Char.toLower) :
    hexValue digits ('0' :: 'x' :: cs) = hexValue digits ('0' :: 'x' :: ds) := by
  simp only [hexValue, h]

/-- A payer signs by writing its address and the nonce in lower case. -/
def plainSignature (address nonce : List Char) : List Char := (address ++ nonce).map Char.toLower

/-- `verifyTypedData` for plain signatures. -/
def plainVerify (m : Eip3009Message) (signature : Option Json) : Option Bool :=
  match m.from_, m.nonce with
  | some (.str f), some (.str n) =>
    if (hexValue 40 f).isSome && (hexValue 64 n).isSome then
      some (Json.strictEq signature (some (.str (plainSignature f n))))
    else none
  | _, _ => none

def plainPlatform : Platform where
  toLowerCase cs := cs.map Char.toLower
  addressOf := hexValue 40
  nonceOf := hexValue 64
  verifyTypedData _ m signature := plainVerify m signature
  keccak256 cs := cs
  toLowerCase_ascii _ _ := rfl
  addressOf_case := hexValue_case 40
  nonceOf_case := hexValue_case 64
  reads := by
    intro _ m signature h
    unfold plainVerify at h
    split at h
    · rename_i f n hf hn
      split_ifs at h with hread
      obtain ⟨ha, hb⟩ := Bool.and_eq_true_iff.mp hread
      obtain ⟨a, ha⟩ := Option.isSome_iff_exists.mp ha
      obtain ⟨b, hb⟩ := Option.isSome_iff_exists.mp hb
      exact ⟨f, a, n, b, hf, ha, hn, hb⟩
    · cases h

end Facilitator
