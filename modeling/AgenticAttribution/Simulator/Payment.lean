import AgenticAttribution.Types.Eip3009
import AgenticAttribution.Types.Http

/-!
# Simulator.Payment — the payment that the agent signs

`simulator/src/agent.ts`, from the 402 on.  The account is `viem`'s: which texts are addresses and how typed data is
signed are parameters.  `signAuthorization_eq_some` gives the payload for requirements whose amount is a numeral.
-/

namespace Simulator

open Types Digits BigInt

structure PaymentRequirements where
  scheme : List Char
  network : List Char
  asset : List Char
  maxAmountRequired : List Char
  payTo : List Char
  maxTimeoutSeconds : ℤ
  resource : List Char
  description : List Char

/-- A property of the type `string`. -/
def textOf (v : Json) (key : String) : Option (List Char) :=
  match v.prop key with
  | some (.str cs) => some cs
  | _ => none

/-- A property of the type `number`, where it is an integer. -/
def integerOf (v : Json) (key : String) : Option ℤ :=
  match v.prop key with
  | some (.num cs) => bigInt cs
  | _ => none

/-- A value that is what its type says. -/
def PaymentRequirements.ofJson (v : Json) : Option PaymentRequirements := do
  return {
    scheme := ← textOf v "scheme"
    network := ← textOf v "network"
    asset := ← textOf v "asset"
    maxAmountRequired := ← textOf v "maxAmountRequired"
    payTo := ← textOf v "payTo"
    maxTimeoutSeconds := ← integerOf v "maxTimeoutSeconds"
    resource := ← textOf v "resource"
    description := ← textOf v "description" }

/-- `requestChallenge`, from the response on; `none` if it throws. -/
def requestChallenge (response : Response) : Option PaymentRequirements :=
  if response.status ≠ 402 then none
  else
    match response.body.prop "accepts" with
    | some (.arr (requirements :: _)) => PaymentRequirements.ofJson requirements
    | _ => none

def VALID_AFTER_BACKDATE_SECONDS : ℤ := 60

/-- `b.toString(16).padStart(2, '0')`. -/
def hexByte (b : UInt8) : List Char :=
  let digits := Nat.toDigits 16 b.toNat
  List.replicate (2 - digits.length) '0' ++ digits

/-- `randomNonce`, of the 32 bytes that were drawn. -/
def randomNonce (bytes : Bytes) : List Char := '0' :: 'x' :: bytes.flatMap hexByte

/-- An account: its address, and `signTypedData`, which may throw. -/
structure Account (isAddress : List Char → Bool) where
  address : List Char
  signTypedData : Eip712Domain → Eip3009Message → Option (List Char)
  isAddress_address : isAddress address = true

section Sign

variable {isAddress : List Char → Bool} (account : Account isAddress)

/-- The `authorization` at a time in seconds. -/
def authorizationAt (requirements : PaymentRequirements) (nonce : Bytes) (nowSeconds : ℤ) : Json :=
  Json.ofProps
    [("from", Json.str account.address), ("to", Json.str requirements.payTo),
     ("value", Json.str requirements.maxAmountRequired),
     ("validAfter", Json.str (intChars (nowSeconds - VALID_AFTER_BACKDATE_SECONDS))),
     ("validBefore", Json.str (intChars (nowSeconds + requirements.maxTimeoutSeconds))),
     ("nonce", Json.str (randomNonce nonce))]

/-- What `signAuthorization` returns once the signature is there. -/
def payload (requirements : PaymentRequirements) (authorization : Json) (signature : List Char) : Json :=
  Json.ofProps
    [("x402Version", Json.num (intChars 1)), ("scheme", Json.str requirements.scheme),
     ("network", Json.str requirements.network), ("authorization", authorization), ("signature", Json.str signature)]

/-- `signAuthorization` with the clock in milliseconds; `none` if it throws. -/
def signAuthorization (requirements : PaymentRequirements) (nonce : Bytes) (nowMs : ℤ) : Option Json :=
  let authorization := authorizationAt account requirements nonce (nowMs / 1000)
  match eip712Domain (some (.str requirements.network)), toTypedMessage authorization with
  | some domain, .ok message =>
    (account.signTypedData domain message).map fun signature => payload requirements authorization signature
  | _, _ => none

/-- `encodeHeaderJson`. -/
def encodeHeaderJson (v : Json) : List Char := Base64.encodeStd (Utf8.encode v.stringify)

theorem encodeHeaderJson_ne_nil {v : Json} (h : v.stringify ≠ []) : encodeHeaderJson v ≠ [] := by
  intro hnil
  have hbytes := Base64.decodeStd_encodeStd (Utf8.encode v.stringify)
  rw [show Base64.encodeStd (Utf8.encode v.stringify) = [] from hnil] at hbytes
  have hencode : Utf8.encode v.stringify = Utf8.encode [] := (Except.ok.inj hbytes).symm
  exact h (Utf8.encode_injective hencode)

end Sign

/-! ## What is signed -/

section Signed

variable {isAddress : List Char → Bool} {account : Account isAddress} {requirements : PaymentRequirements}
  {nonce : Bytes} {nowSeconds nowMs : ℤ}

@[simp] theorem authorizationAt_from :
    (authorizationAt account requirements nonce nowSeconds).prop "from" = some (.str account.address) :=
  Json.prop_ofProps_self _ _ _

@[simp] theorem authorizationAt_to :
    (authorizationAt account requirements nonce nowSeconds).prop "to" = some (.str requirements.payTo) := by
  rw [authorizationAt, Json.prop_ofProps_of_ne (by decide), Json.prop_ofProps_self]

@[simp] theorem authorizationAt_value : (authorizationAt account requirements nonce nowSeconds).prop "value"
    = some (.str requirements.maxAmountRequired) := by
  rw [authorizationAt, Json.prop_ofProps_of_ne (by decide), Json.prop_ofProps_of_ne (by decide),
    Json.prop_ofProps_self]

@[simp] theorem authorizationAt_validAfter : (authorizationAt account requirements nonce nowSeconds).prop "validAfter"
    = some (.str (intChars (nowSeconds - VALID_AFTER_BACKDATE_SECONDS))) := by
  simp only [authorizationAt, Json.prop_ofProps_of_ne, Json.prop_ofProps_self, ne_eq, String.reduceEq,
    not_false_eq_true]

@[simp] theorem authorizationAt_validBefore : (authorizationAt account requirements nonce nowSeconds).prop "validBefore"
    = some (.str (intChars (nowSeconds + requirements.maxTimeoutSeconds))) := by
  simp only [authorizationAt, Json.prop_ofProps_of_ne, Json.prop_ofProps_self, ne_eq, String.reduceEq,
    not_false_eq_true]

@[simp] theorem authorizationAt_nonce :
    (authorizationAt account requirements nonce nowSeconds).prop "nonce" = some (.str (randomNonce nonce)) := by
  simp only [authorizationAt, Json.prop_ofProps_of_ne, Json.prop_ofProps_self, ne_eq, String.reduceEq,
    not_false_eq_true]

theorem intChars_of_nonneg {n : ℤ} (h : 0 ≤ n) : intChars n = natChars n.toNat := by
  obtain ⟨k, rfl⟩ := Int.eq_ofNat_of_zero_le h
  rfl

theorem bigInt_intChars {n : ℤ} (h : 0 ≤ n) : bigInt (intChars n) = some n := by
  rw [intChars_of_nonneg h, bigInt_natChars]
  exact congrArg some (Int.toNat_of_nonneg h)

/-- The numeral of a `uint256` is converted to it. -/
theorem toUint256_intChars {n : ℤ} {field : String} (hlo : 0 ≤ n) (hhi : n ≤ MAX_UINT256) :
    toUint256 (some (.str (intChars n))) field = .ok n := by
  have hdigits : ∀ c ∈ intChars n, c.isDigit = true := by
    rw [intChars_of_nonneg hlo]
    exact fun c hc => isDigit_of_mem_natChars hc
  have hne : intChars n ≠ [] := by
    rw [intChars_of_nonneg hlo]
    exact natChars_ne_nil _
  exact toUint256_of_bigInt (by rwa [trim_of_digits hdigits]) (bigInt_intChars hlo) hlo hhi

/-- The typed data of a payment over `value`. -/
def messageAt (account : Account isAddress) (requirements : PaymentRequirements) (nonce : Bytes)
    (nowSeconds value : ℤ) : Eip3009Message where
  from_ := some (.str account.address)
  to_ := some (.str requirements.payTo)
  value := value
  validAfter := nowSeconds - VALID_AFTER_BACKDATE_SECONDS
  validBefore := nowSeconds + requirements.maxTimeoutSeconds
  nonce := some (.str (randomNonce nonce))

theorem toTypedMessage_authorizationAt {value : ℤ} (hamount : requirements.maxAmountRequired = intChars value)
    (hvalue : 0 ≤ value ∧ value ≤ MAX_UINT256) (hafter : VALID_AFTER_BACKDATE_SECONDS ≤ nowSeconds)
    (htimeout : 0 ≤ requirements.maxTimeoutSeconds)
    (hbefore : nowSeconds + requirements.maxTimeoutSeconds ≤ MAX_UINT256) :
    toTypedMessage (authorizationAt account requirements nonce nowSeconds)
      = .ok (messageAt account requirements nonce nowSeconds value) := by
  have hbackdate : (0 : ℤ) ≤ VALID_AFTER_BACKDATE_SECONDS := by decide
  have hv : toUint256 (some (.str requirements.maxAmountRequired)) "value" = .ok value := by
    rw [hamount]
    exact toUint256_intChars hvalue.1 hvalue.2
  have ha : toUint256 (some (.str (intChars (nowSeconds - VALID_AFTER_BACKDATE_SECONDS)))) "validAfter"
      = .ok (nowSeconds - VALID_AFTER_BACKDATE_SECONDS) := toUint256_intChars (by omega) (by omega)
  have hb : toUint256 (some (.str (intChars (nowSeconds + requirements.maxTimeoutSeconds)))) "validBefore"
      = .ok (nowSeconds + requirements.maxTimeoutSeconds) := toUint256_intChars (by omega) hbefore
  rw [toTypedMessage]
  simp only [authorizationAt_from, authorizationAt_to, authorizationAt_value, authorizationAt_validAfter,
    authorizationAt_validBefore, authorizationAt_nonce, hv, ha, hb]
  rfl

/-- **What the agent sends.** -/
theorem signAuthorization_eq_some {domain : Eip712Domain} {value : ℤ} {signature : List Char}
    (hdomain : eip712Domain (some (.str requirements.network)) = some domain)
    (hmessage : toTypedMessage (authorizationAt account requirements nonce (nowMs / 1000))
      = .ok (messageAt account requirements nonce (nowMs / 1000) value))
    (hsigned : account.signTypedData domain (messageAt account requirements nonce (nowMs / 1000) value)
      = some signature) :
    signAuthorization account requirements nonce nowMs
      = some (payload requirements (authorizationAt account requirements nonce (nowMs / 1000)) signature) := by
  simp only [signAuthorization, hdomain, hmessage, hsigned, Option.map_some]

section Payload

variable {authorization : Json} {signature : List Char}

@[simp] theorem payload_scheme :
    (payload requirements authorization signature).prop "scheme" = some (.str requirements.scheme) := by
  rw [payload, Json.prop_ofProps_of_ne (by decide), Json.prop_ofProps_self]

@[simp] theorem payload_network :
    (payload requirements authorization signature).prop "network" = some (.str requirements.network) := by
  simp only [payload, Json.prop_ofProps_of_ne, Json.prop_ofProps_self, ne_eq, String.reduceEq, not_false_eq_true]

@[simp] theorem payload_authorization :
    (payload requirements authorization signature).prop "authorization" = some authorization := by
  simp only [payload, Json.prop_ofProps_of_ne, Json.prop_ofProps_self, ne_eq, String.reduceEq, not_false_eq_true]

@[simp] theorem payload_signature :
    (payload requirements authorization signature).prop "signature" = some (.str signature) := by
  simp only [payload, Json.prop_ofProps_of_ne, Json.prop_ofProps_self, ne_eq, String.reduceEq, not_false_eq_true]

end Payload

end Signed

end Simulator
