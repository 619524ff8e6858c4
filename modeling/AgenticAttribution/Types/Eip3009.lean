import AgenticAttribution.Lib.BigInt
import AgenticAttribution.Lib.Json

/-!
# Types.Eip3009 — the typed data of a payment

`packages/types/src/eip3009.ts`.  The fields of an authorization are what `JSON.parse` made of them; the conversion
to typed data reads three of them as integers and passes the others on as they are.
-/

namespace Types

open BigInt

structure Eip3009Message where
  from_ : Option Json
  to_ : Option Json
  value : ℤ
  validAfter : ℤ
  validBefore : ℤ
  nonce : Option Json

structure NetworkParameters where
  chainId : ℕ
  usdcAddress : String
  domainName : String
  domainVersion : String

def BASE_SEPOLIA : NetworkParameters where
  chainId := 84532
  usdcAddress := "0x036CbD53842c5426634e7929541eC2318f3dCF7e"
  domainName := "USDC"
  domainVersion := "2"

/-- The properties that an object literal has from `Object.prototype`. -/
def inherited : List String :=
  ["constructor", "__defineGetter__", "__defineSetter__", "hasOwnProperty", "__lookupGetter__", "__lookupSetter__",
    "isPrototypeOf", "propertyIsEnumerable", "toString", "valueOf", "__proto__", "toLocaleString"]

/-- What `NETWORKS[network]` holds. -/
inductive NetworkEntry where
  | parameters (p : NetworkParameters)
  /-- A value of `Object.prototype`, which has none of the properties. -/
  | inherited
  | undefined

/-- The lookup in `NETWORKS`. -/
def NETWORKS (network : List Char) : NetworkEntry :=
  if network = "base-sepolia".toList then .parameters BASE_SEPOLIA
  else if inherited.any fun name => network = name.toList then .inherited
  else .undefined

structure Eip712Domain where
  name : Option String
  version : Option String
  chainId : Option ℕ
  verifyingContract : Option String

/-- `eip712Domain`; `none` when it throws. -/
def eip712Domain (network : Option Json) : Option Eip712Domain :=
  match network with
  | some (.str cs) =>
    match NETWORKS cs with
    | .parameters p => some ⟨some p.domainName, some p.domainVersion, some p.chainId, some p.usdcAddress⟩
    | .inherited => some ⟨none, none, none, none⟩
    | .undefined => none
  -- of the other values only an array of one name reads as a property there is, and `===` lets no array get here
  | _ => none

/-- Why a conversion throws. -/
inductive ConversionError where
  /-- The value has no method `trim`. -/
  | typeError
  | message (text : List Char)

def MAX_UINT256 : ℤ := 2 ^ 256 - 1

/-- `toUint256`. -/
def toUint256 (raw : Option Json) (field : String) : Except ConversionError ℤ :=
  match raw with
  | some (.str cs) =>
    if trim cs = [] then
      .error (.message (field.toList ++ " is empty; a uint256 field needs a decimal string".toList))
    else
      match bigInt cs with
      | none => .error (.message (field.toList ++ " is not a valid uint256: ".toList ++ JsonText.jsQuote cs))
      | some value =>
        if value < 0 then .error (.message (field.toList ++ " is negative: ".toList ++ cs))
        else if value > MAX_UINT256 then .error (.message (field.toList ++ " exceeds uint256: ".toList ++ cs))
        else .ok value
  | _ => .error .typeError

/-- `toTypedMessage`. -/
def toTypedMessage (authorization : Json) : Except ConversionError Eip3009Message := do
  let value ← toUint256 (authorization.prop "value") "value"
  let validAfter ← toUint256 (authorization.prop "validAfter") "validAfter"
  let validBefore ← toUint256 (authorization.prop "validBefore") "validBefore"
  return {
    from_ := authorization.prop "from"
    to_ := authorization.prop "to"
    value, validAfter, validBefore
    nonce := authorization.prop "nonce" }

/-- The converted number is in the range of the type, and is the one that the text writes. -/
theorem toUint256_eq_ok {raw : Option Json} {field : String} {value : ℤ} (h : toUint256 raw field = .ok value) :
    ∃ cs, raw = some (.str cs) ∧ bigInt cs = some value ∧ 0 ≤ value ∧ value ≤ MAX_UINT256 := by
  unfold toUint256 at h
  split at h
  · rename_i cs
    split_ifs at h
    split at h
    · cases h
    · rename_i v hv
      split_ifs at h with hneg hbig
      obtain rfl := Except.ok.inj h
      exact ⟨cs, rfl, hv, not_lt.mp hneg, not_lt.mp hbig⟩
  · cases h

theorem toUint256_of_bigInt {cs : List Char} {field : String} {value : ℤ} (hcs : trim cs ≠ [])
    (hv : bigInt cs = some value) (hlo : 0 ≤ value) (hhi : value ≤ MAX_UINT256) :
    toUint256 (some (.str cs)) field = .ok value := by
  simp only [toUint256, if_neg hcs, hv, if_neg (not_lt.mpr hlo), gt_iff_lt, if_neg (not_lt.mpr hhi)]

/-- The message is the authorization, with its integers read. -/
theorem toTypedMessage_eq_ok {authorization : Json} {m : Eip3009Message} (h : toTypedMessage authorization = .ok m) :
    m.from_ = authorization.prop "from" ∧ m.to_ = authorization.prop "to" ∧
      toUint256 (authorization.prop "value") "value" = .ok m.value ∧ m.nonce = authorization.prop "nonce" := by
  unfold toTypedMessage at h
  cases hv : toUint256 (authorization.prop "value") "value" with
  | error e =>
    rw [hv] at h
    cases h
  | ok value =>
    cases ha : toUint256 (authorization.prop "validAfter") "validAfter" with
    | error e =>
      rw [hv, ha] at h
      cases h
    | ok validAfter =>
      cases hb : toUint256 (authorization.prop "validBefore") "validBefore" with
      | error e =>
        rw [hv, ha, hb] at h
        cases h
      | ok validBefore =>
        rw [hv, ha, hb] at h
        obtain rfl := Except.ok.inj h
        exact ⟨rfl, rfl, rfl, rfl⟩

end Types
