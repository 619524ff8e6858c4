import AgenticAttribution.Facilitator.Verify
import AgenticAttribution.Purchase.Once
import AgenticAttribution.Simulator.Payment

/-!
# Purchase.Honest — a payment that is made out of what the merchant asked for

The merchant states its requirements, the agent signs an authorization for them, and the merchant and the
facilitator check it: the amount as a text and as an integer, the payee with its case folded, the asset against the
network's, the window by the second.  `honest_payment_accepted` takes one payment through all of them.
-/

namespace Purchase

open Types Attribution Digits Simulator

/-- The configuration of a merchant that can be paid. -/
structure Payable (p : Facilitator.Platform) (isAddress : List Char → Bool) (config : Merchant.MerchantConfig)
    (np : NetworkParameters) : Prop where
  network : NETWORKS config.network = .parameters np
  asset : p.toLowerCase config.assetAddress = p.toLowerCase np.usdcAddress.toList
  payTo : isAddress config.payToAddress = true

/-- The domain of a network. -/
def domainOf (np : NetworkParameters) : Eip712Domain :=
  ⟨some np.domainName, some np.domainVersion, some np.chainId, some np.usdcAddress⟩

/-- A message whose fields are of the types that are signed. -/
structure WellTyped (isAddress : List Char → Bool) (m : Eip3009Message) : Prop where
  to_ : ∃ cs, m.to_ = some (.str cs) ∧ isAddress cs = true
  value : 0 ≤ m.value ∧ m.value ≤ MAX_UINT256
  validAfter : 0 ≤ m.validAfter ∧ m.validAfter ≤ MAX_UINT256
  validBefore : 0 ≤ m.validBefore ∧ m.validBefore ≤ MAX_UINT256
  nonce : ∃ bytes : Bytes, bytes.length = 32 ∧ m.nonce = some (.str (randomNonce bytes))

/-- The signature scheme is correct: what the account signs verifies as its own. -/
def Signs (p : Facilitator.Platform) {isAddress : List Char → Bool} (account : Account isAddress) : Prop :=
  ∀ np m, WellTyped isAddress m → m.from_ = some (.str account.address) →
    ∃ signature, signature ≠ [] ∧ account.signTypedData (domainOf np) m = some signature ∧
      p.verifyTypedData (domainOf np) m (some (.str signature)) = some true

/-- The platform reads a value back out of the text that it wrote for it. -/
structure ReadsBack (rt : Runtime) (v : Json) : Prop where
  text : rt.textDecode (Utf8.encode v.stringify) = v.stringify
  parse : rt.parse v.stringify = some v

/-- The latest time of a `Date`, in milliseconds. -/
def maxTime : ℤ := 8640000000000000

/-- `Number.MAX_SAFE_INTEGER`. -/
def maxSafeInteger : ℤ := 2 ^ 53 - 1

/-- The body asks for a listing that is in stock. -/
def Offers (findListing : Json → Except (List Char) (Option Merchant.Listing)) (body : Json)
    (listing : Merchant.Listing) : Prop :=
  ∃ product, body.prop "product_id" = some product ∧ Json.truthy (some product) = true ∧
    findListing product = .ok (some listing) ∧ listing.inStock = true

/-- The requirements as the agent reads them. -/
def asked (config : Merchant.MerchantConfig) (listing : Merchant.Listing) : PaymentRequirements where
  scheme := "exact".toList
  network := config.network
  asset := config.assetAddress
  maxAmountRequired := intChars (listing.priceCents * Merchant.ATOMIC_UNITS_PER_CENT)
  payTo := config.payToAddress
  maxTimeoutSeconds := Merchant.PAYMENT_TIMEOUT_SECONDS
  resource := "/purchase/".toList ++ listing.productId
  description := listing.listingTitle

/-! ## The challenge -/

section Challenge

variable {config : Merchant.MerchantConfig} {listing : Merchant.Listing}

theorem units_of_nonneg (config : Merchant.MerchantConfig) (h : 0 ≤ listing.priceCents) :
    Merchant.centsToAtomicUnits listing.priceCents = .ok (asked config listing).maxAmountRequired := by
  rw [Merchant.centsToAtomicUnits, if_neg (not_lt.mpr h)]
  rfl

theorem ofJson_requirementsFor : PaymentRequirements.ofJson
    (Merchant.requirementsFor config listing (asked config listing).maxAmountRequired)
      = some (asked config listing) := by
  have htimeout : BigInt.bigInt (intChars Merchant.PAYMENT_TIMEOUT_SECONDS) = some Merchant.PAYMENT_TIMEOUT_SECONDS :=
    BigInt.bigInt_natChars 120
  simp only [PaymentRequirements.ofJson, textOf, integerOf, Merchant.requirementsFor, Merchant.text,
    Json.prop_ofProps_of_ne, Json.prop_ofProps_self, ne_eq, String.reduceEq, not_false_eq_true, htimeout]
  rfl

theorem requestChallenge_challenge : requestChallenge (Merchant.challenge
    (Merchant.requirementsFor config listing (asked config listing).maxAmountRequired))
      = some (asked config listing) := by
  have haccepts : ∀ v, (Merchant.challenge v).body.prop "accepts" = some (.arr [v]) := fun v => by
    rw [Merchant.challenge, Json.prop_ofProps_of_ne (by decide), Json.prop_ofProps_self]
  have hstatus : ∀ v, ¬(Merchant.challenge v).status ≠ 402 := fun v => not_not.mpr rfl
  rw [requestChallenge, if_neg (hstatus _), haccepts]
  exact ofJson_requirementsFor

end Challenge

/-! ## The merchant's checks -/

section Merchant

variable {E : Ed25519} {config : Merchant.MerchantConfig} {key : E.PublicKey} {rt : Runtime}
  {listing : Merchant.Listing} {findListing : Json → Except (List Char) (Option Merchant.Listing)} {body : Json}

/-- A request that is answered for its listing. -/
theorem checkPurchase_of_offers (ho : Offers findListing body listing) (payment assertion : List Char) (nowMs : ℤ) :
    Merchant.checkPurchase config key rt findListing body payment assertion nowMs
      = Merchant.checkListing config key rt listing payment assertion nowMs := by
  obtain ⟨product, hproduct, htruthy, hfind, hstock⟩ := ho
  simp only [Merchant.checkPurchase, hproduct, htruthy, hfind, hstock, Bool.not_true, Bool.false_eq_true, if_false]

theorem checkPurchase_unpaid (ho : Offers findListing body listing) (hprice : 0 ≤ listing.priceCents)
    (assertion : List Char) (nowMs : ℤ) :
    Merchant.checkPurchase config key rt findListing body [] assertion nowMs = .answers (Merchant.challenge
      (Merchant.requirementsFor config listing (asked config listing).maxAmountRequired)) := by
  rw [checkPurchase_of_offers ho, Merchant.checkListing, units_of_nonneg config hprice]
  rfl

/-- What the merchant asks of a payment before it looks at the listing's product. -/
structure Fits (rt : Runtime) (config : Merchant.MerchantConfig) (units header : List Char) (payment : Json) :
    Prop where
  ne_nil : header ≠ []
  decodes : rt.decodeHeaderJson header = some payment
  formed : Merchant.malformedPayment payment = none
  amount : Merchant.authorizationText payment "value" = units
  payee : Merchant.toLowerCase (Merchant.authorizationText payment "to") = Merchant.toLowerCase config.payToAddress

/-- The reasons for which a payment is refused. -/
def paymentReasons : List String := ["malformed_payment", "amount_mismatch", "payee_mismatch"]

theorem text_notMem_paymentReasons (reason : VerificationFailure) : reason.text ∉ paymentReasons := by
  cases reason <;> decide

/-- The payment goes on as it is, or something else than the payment stops the purchase. -/
inductive PaymentStands (listing : Merchant.Listing) (payment requirements : Json) : Merchant.Admission → Prop where
  | settles (assertion : Json) : PaymentStands listing payment requirements
      (.settles ⟨listing, assertion, payment, requirements⟩)
  | refuses (status : ℕ) (error : List Char) {reason : String} (h : reason ∉ paymentReasons) :
      PaymentStands listing payment requirements (.answers (refuse status error reason.toList))
  | throws (message : List Char) : PaymentStands listing payment requirements (.throws message)

variable {units header : List Char} {payment : Json}

theorem checkSale_of_fits (hf : Fits rt config units header payment) (assertion : Json) :
    PaymentStands listing payment (Merchant.requirementsFor config listing units)
      (Merchant.checkSale config rt listing assertion payment units) := by
  simp only [Merchant.checkSale, hf.amount, hf.payee, ne_eq, not_true, if_false]
  split_ifs with hproduct hdisplay
  · exact .throws rt.typeError
  · exact .refuses 422 _ (by decide : "assertion_product_mismatch" ∉ paymentReasons)
  · exact .settles assertion

theorem checkHeaders_of_fits (hf : Fits rt config units header payment) (assertionHeader : List Char) (nowMs : ℤ) :
    PaymentStands listing payment (Merchant.requirementsFor config listing units)
      (Merchant.checkHeaders config key rt listing units header assertionHeader nowMs) := by
  rw [Merchant.checkHeaders, hf.decodes]
  cases rt.decodeHeaderJson assertionHeader with
  | none => exact .refuses 400 _ (by decide : "malformed_headers" ∉ paymentReasons)
  | some assertion =>
    simp only [hf.formed]
    split
    · rename_i reason message _
      exact .refuses 401 message (text_notMem_paymentReasons reason)
    · exact .throws rt.typeError
    · exact checkSale_of_fits hf assertion

/-- With a payment that fits, whatever stops the purchase is not the payment. -/
theorem checkPurchase_of_fits (ho : Offers findListing body listing)
    (hunits : Merchant.centsToAtomicUnits listing.priceCents = .ok units) (hf : Fits rt config units header payment)
    (assertionHeader : List Char) (nowMs : ℤ) :
    PaymentStands listing payment (Merchant.requirementsFor config listing units)
      (Merchant.checkPurchase config key rt findListing body header assertionHeader nowMs) := by
  rw [checkPurchase_of_offers ho, Merchant.checkListing, hunits]
  dsimp only
  rw [if_neg hf.ne_nil]
  split_ifs with hassertion
  · exact .refuses 400 _ (by decide : "assertion_missing" ∉ paymentReasons)
  · exact checkHeaders_of_fits hf assertionHeader nowMs

/-- With an assertion that verifies for the product, the purchase is settled. -/
theorem checkPurchase_of_verified {assertion : Json} {assertionHeader : List Char} {nowMs : ℤ}
    (ho : Offers findListing body listing) (hunits : Merchant.centsToAtomicUnits listing.priceCents = .ok units)
    (hf : Fits rt config units header payment) (hne : assertionHeader ≠ [])
    (hdecode : rt.decodeHeaderJson assertionHeader = some assertion)
    (hverify : verifyAssertion E key rt.otherDate (.ofJson assertion) nowMs = .ok ())
    (hproduct : assertion.prop "product_id" = some (.str listing.productId)) :
    Merchant.checkPurchase config key rt findListing body header assertionHeader nowMs
      = .settles ⟨listing, assertion, payment, Merchant.requirementsFor config listing units⟩ := by
  have hsame : Json.strictEq (assertion.prop "product_id") (some (.str listing.productId)) = true :=
    Json.strictEq_str.mpr hproduct
  rw [checkPurchase_of_offers ho, Merchant.checkListing, hunits]
  dsimp only
  rw [if_neg hf.ne_nil, if_neg hne, Merchant.checkHeaders, hdecode, hf.decodes]
  simp only [hf.formed, hverify, Merchant.checkSale, hsame, hf.amount, hf.payee, Bool.not_true, Bool.false_eq_true,
    ne_eq, not_true, if_false]

/-- A refusal does not name the payment. -/
theorem reason_of_stands {requirements : Json} {r : Response} {reason : String}
    (h : PaymentStands listing payment requirements (.answers r)) (hr : reason ∈ paymentReasons) :
    r.reason ≠ some (.str reason.toList) := by
  cases h with
  | refuses status error hother =>
    rw [reason_refuse]
    intro he
    have hsame := String.toList_inj.mp (Json.str.inj (Option.some.inj he))
    exact hother (hsame ▸ hr)

end Merchant

/-! ## One payment through every check -/

section Payment

variable {E : Ed25519} {config : Merchant.MerchantConfig} {key : E.PublicKey} {rt : Runtime}
  {p : Facilitator.Platform} {isAddress : List Char → Bool} {account : Account isAddress} {np : NetworkParameters}
  {listing : Merchant.Listing} {nonce : Bytes} {nowMs : ℤ}

/-- The integers of the authorization are in the range of their type. -/
theorem wellTyped_messageAt (hc : Payable p isAddress config np)
    (hprice : 0 ≤ listing.priceCents ∧ listing.priceCents ≤ maxSafeInteger) (hnonce : nonce.length = 32)
    (hnow : 60000 ≤ nowMs ∧ nowMs ≤ maxTime) :
    WellTyped isAddress (messageAt account (asked config listing) nonce (nowMs / 1000)
      (listing.priceCents * Merchant.ATOMIC_UNITS_PER_CENT)) := by
  have hunit : Merchant.ATOMIC_UNITS_PER_CENT = 10000 := rfl
  have hbackdate : VALID_AFTER_BACKDATE_SECONDS = 60 := rfl
  have htimeout : (asked config listing).maxTimeoutSeconds = 120 := rfl
  have hmax : MAX_UINT256 = 2 ^ 256 - 1 := rfl
  have hsafe : maxSafeInteger = 2 ^ 53 - 1 := rfl
  have htime : maxTime = 8640000000000000 := rfl
  have hvalue : 0 ≤ listing.priceCents * Merchant.ATOMIC_UNITS_PER_CENT ∧
      listing.priceCents * Merchant.ATOMIC_UNITS_PER_CENT ≤ MAX_UINT256 := by
    rw [hunit]
    omega
  have hafter : 0 ≤ nowMs / 1000 - VALID_AFTER_BACKDATE_SECONDS ∧
      nowMs / 1000 - VALID_AFTER_BACKDATE_SECONDS ≤ MAX_UINT256 := by omega
  have hbefore : 0 ≤ nowMs / 1000 + (asked config listing).maxTimeoutSeconds ∧
      nowMs / 1000 + (asked config listing).maxTimeoutSeconds ≤ MAX_UINT256 := by omega
  exact ⟨⟨_, rfl, hc.payTo⟩, hvalue, hafter, hbefore, nonce, hnonce, rfl⟩

theorem eip712Domain_of_payable (hc : Payable p isAddress config np) :
    eip712Domain (some (.str config.network)) = some (domainOf np) := by
  simp only [eip712Domain, hc.network, domainOf]

/-- The payment over what was asked, once it is signed. -/
def paid (account : Account isAddress) (config : Merchant.MerchantConfig) (listing : Merchant.Listing) (nonce : Bytes)
    (nowMs : ℤ) (signature : List Char) : Json :=
  payload (asked config listing) (authorizationAt account (asked config listing) nonce (nowMs / 1000)) signature

theorem toTypedMessage_asked (hw : WellTyped isAddress (messageAt account (asked config listing) nonce (nowMs / 1000)
      (listing.priceCents * Merchant.ATOMIC_UNITS_PER_CENT))) :
    toTypedMessage (authorizationAt account (asked config listing) nonce (nowMs / 1000))
      = .ok (messageAt account (asked config listing) nonce (nowMs / 1000)
          (listing.priceCents * Merchant.ATOMIC_UNITS_PER_CENT)) := by
  have hafter : VALID_AFTER_BACKDATE_SECONDS ≤ nowMs / 1000 := Int.sub_nonneg.mp hw.validAfter.1
  have htimeout : 0 ≤ (asked config listing).maxTimeoutSeconds := by
    show (0 : ℤ) ≤ 120
    decide
  exact toTypedMessage_authorizationAt rfl hw.value hafter htimeout hw.validBefore.2

/-- The merchant's checks of the payment. -/
theorem fits_paid {signature : List Char} (hne : signature ≠ [])
    (hread : ReadsBack rt (paid account config listing nonce nowMs signature)) :
    Fits rt config (asked config listing).maxAmountRequired
      (encodeHeaderJson (paid account config listing nonce nowMs signature))
      (paid account config listing nonce nowMs signature) where
  ne_nil := encodeHeaderJson_ne_nil (List.cons_ne_nil _ _)
  decodes := Runtime.decodeHeaderJson_encode hread.text hread.parse
  formed := by
    have hsignature : Json.isText (some (.str signature)) "" = false := by
      refine Bool.eq_false_iff.mpr fun h => hne ?_
      exact Json.str.inj (Option.some.inj (Json.isText_iff.mp h))
    have hobject : (paid account config listing nonce nowMs signature).isObject = true := rfl
    have hinner : (authorizationAt account (asked config listing) nonce (nowMs / 1000)).isObject = true := rfl
    rw [Merchant.malformedPayment, hobject]
    simp only [paid, payload_authorization, payload_signature, Option.any_some, hinner, hsignature,
      Merchant.authorizationFields, List.find?_cons, List.find?_nil, Option.getD_some, authorizationAt_from,
      authorizationAt_to, authorizationAt_value, authorizationAt_validAfter, authorizationAt_validBefore,
      authorizationAt_nonce, Json.isString, Bool.not_true, Bool.false_eq_true, if_false, Bool.or_self]
  amount := by
    simp only [Merchant.authorizationText, paid, payload_authorization, Option.getD_some, authorizationAt_value]
  payee := by
    simp only [Merchant.authorizationText, paid, payload_authorization, Option.getD_some, authorizationAt_to]
    rfl

/-- The facilitator's checks of the payment, against the requirements for a listing of the same price. -/
theorem accepted_paid {signature : List Char} {listing' : Merchant.Listing} {now : ℤ}
    (hc : Payable p isAddress config np)
    (hw : WellTyped isAddress (messageAt account (asked config listing) nonce (nowMs / 1000)
      (listing.priceCents * Merchant.ATOMIC_UNITS_PER_CENT)))
    (hverify : p.verifyTypedData (domainOf np) (messageAt account (asked config listing) nonce (nowMs / 1000)
      (listing.priceCents * Merchant.ATOMIC_UNITS_PER_CENT)) (some (.str signature)) = some true)
    (hlo : nowMs / 1000 - 60 ≤ now) (hhi : now ≤ nowMs / 1000 + 119) :
    Facilitator.Accepted p (paid account config listing nonce nowMs signature)
      (Merchant.requirementsFor config listing' (asked config listing).maxAmountRequired) now
      (messageAt account (asked config listing) nonce (nowMs / 1000)
        (listing.priceCents * Merchant.ATOMIC_UNITS_PER_CENT)) (domainOf np) := by
  have hscheme : (paid account config listing nonce nowMs signature).prop "scheme" = some (.str "exact".toList) :=
    payload_scheme
  have hnetwork : (paid account config listing nonce nowMs signature).prop "network" = some (.str config.network) :=
    payload_network
  have hauthorization : (paid account config listing nonce nowMs signature).prop "authorization"
      = some (authorizationAt account (asked config listing) nonce (nowMs / 1000)) := payload_authorization
  have hsignature : (paid account config listing nonce nowMs signature).prop "signature" = some (.str signature) :=
    payload_signature
  refine ⟨hscheme, Json.prop_ofProps_self _ _ _, ?_, ?_, ?_, ?_, ?_, hlo, ?_, ?_⟩
  · rw [hnetwork, Merchant.requirementsFor, Json.prop_ofProps_of_ne (by decide), Json.prop_ofProps_self]
    exact Json.strictEq_str.mpr rfl
  · simp only [Facilitator.typedData, hauthorization, toTypedMessage_asked hw, hnetwork, eip712Domain_of_payable hc]
  · rw [Merchant.requirementsFor, Json.prop_ofProps_of_ne (by decide), Json.prop_ofProps_of_ne (by decide),
      Json.prop_ofProps_self]
    exact congrArg some (decide_eq_true hc.asset)
  · simp only [Merchant.requirementsFor, Json.prop_ofProps_of_ne, Json.prop_ofProps_self, ne_eq, String.reduceEq,
      not_false_eq_true]
    exact congrArg some (decide_eq_true rfl)
  · simp only [Merchant.requirementsFor, Json.prop_ofProps_of_ne, Json.prop_ofProps_self, ne_eq, String.reduceEq,
      not_false_eq_true, Facilitator.bigIntOf]
    exact bigInt_intChars hw.value.1
  · show now < nowMs / 1000 + 120
    omega
  · rw [hsignature]
    exact hverify

/-- What a payment meets at the merchant that asked for it, as long as the price is the same. -/
structure AcceptedByMerchant (config : Merchant.MerchantConfig) (key : E.PublicKey) (rt : Runtime)
    (listing : Merchant.Listing) (payment : Json) : Prop where
  decodes : rt.decodeHeaderJson (encodeHeaderJson payment) = some payment
  formed : Merchant.malformedPayment payment = none
  settles : ∀ {findListing body listing' assertionHeader assertion t},
    Offers findListing body listing' → listing'.priceCents = listing.priceCents → assertionHeader ≠ [] →
    rt.decodeHeaderJson assertionHeader = some assertion →
    verifyAssertion E key rt.otherDate (.ofJson assertion) t = .ok () →
    assertion.prop "product_id" = some (.str listing'.productId) →
    Merchant.checkPurchase config key rt findListing body (encodeHeaderJson payment) assertionHeader t
      = .settles ⟨listing', assertion, payment,
          Merchant.requirementsFor config listing' (asked config listing).maxAmountRequired⟩
  notRefused : ∀ {findListing body listing' assertionHeader t r reason},
    Offers findListing body listing' → listing'.priceCents = listing.priceCents → reason ∈ paymentReasons →
    Merchant.checkPurchase config key rt findListing body (encodeHeaderJson payment) assertionHeader t = .answers r →
    r.reason ≠ some (.str reason.toList)

theorem acceptedByMerchant_of_fits {payment : Json} (hprice : 0 ≤ listing.priceCents)
    (hf : Fits rt config (asked config listing).maxAmountRequired (encodeHeaderJson payment) payment) :
    AcceptedByMerchant config key rt listing payment := by
  have hunits : ∀ {listing' : Merchant.Listing}, listing'.priceCents = listing.priceCents →
      Merchant.centsToAtomicUnits listing'.priceCents = .ok (asked config listing).maxAmountRequired := by
    intro listing' hsame
    rw [hsame]
    exact units_of_nonneg config hprice
  refine ⟨hf.decodes, hf.formed, ?_, ?_⟩
  · intro findListing body listing' assertionHeader assertion t ho hsame hne hdecode hverify hproduct
    exact checkPurchase_of_verified ho (hunits hsame) hf hne hdecode hverify hproduct
  · intro findListing body listing' assertionHeader t r reason ho hsame hreason hanswer
    have hstands : PaymentStands listing' payment
        (Merchant.requirementsFor config listing' (asked config listing).maxAmountRequired)
        (Merchant.checkPurchase config key rt findListing body (encodeHeaderJson payment) assertionHeader t) :=
      checkPurchase_of_fits ho (hunits hsame) hf assertionHeader t
    rw [hanswer] at hstands
    exact reason_of_stands hstands hreason

/-- **An honest payment is accepted by every check.** -/
theorem honest_payment_accepted (E : Ed25519) (config : Merchant.MerchantConfig) (key : E.PublicKey) (rt : Runtime)
    (p : Facilitator.Platform) {isAddress : List Char → Bool} (account : Account isAddress) (np : NetworkParameters)
    (listing : Merchant.Listing) (nonce : Bytes) (nowMs : ℤ) (hc : Payable p isAddress config np)
    (hs : Signs p account) (hprice : 0 ≤ listing.priceCents ∧ listing.priceCents ≤ maxSafeInteger)
    (hnonce : nonce.length = 32) (hnow : 60000 ≤ nowMs ∧ nowMs ≤ maxTime)
    (hread : ∀ payment, signAuthorization account (asked config listing) nonce nowMs = some payment →
      ReadsBack rt payment) :
    (∀ findListing body assertion t, Offers findListing body listing →
      ∃ r, Merchant.checkPurchase config key rt findListing body [] assertion t = .answers r ∧
        requestChallenge r = some (asked config listing)) ∧
    ∃ payment, signAuthorization account (asked config listing) nonce nowMs = some payment ∧
      AcceptedByMerchant config key rt listing payment ∧
      ∀ (listing' : Merchant.Listing) (now : ℤ), nowMs / 1000 - 60 ≤ now → now ≤ nowMs / 1000 + 119 →
        Facilitator.verifyPayment p payment
            (Merchant.requirementsFor config listing' (asked config listing).maxAmountRequired) now
          = some (.valid (some (.str account.address))) := by
  have hw : WellTyped isAddress (messageAt account (asked config listing) nonce (nowMs / 1000)
      (listing.priceCents * Merchant.ATOMIC_UNITS_PER_CENT)) := wellTyped_messageAt hc hprice hnonce hnow
  obtain ⟨signature, hne, hsigned, hverify⟩ := hs np _ hw rfl
  have hpayment := signAuthorization_eq_some (eip712Domain_of_payable hc) (toTypedMessage_asked hw) hsigned
  have hfits := fits_paid hne (hread _ hpayment)
  refine ⟨?_, _, hpayment, acceptedByMerchant_of_fits hprice.1 hfits, ?_⟩
  · intro findListing body assertion t ho
    exact ⟨_, checkPurchase_unpaid ho hprice.1 assertion t, requestChallenge_challenge⟩
  · intro listing' now hlo hhi
    exact Facilitator.verifyPayment_eq_valid_iff.mpr ⟨_, _, accepted_paid hc hw hverify hlo hhi, rfl⟩

end Payment

/-! ## A payment on plain signatures -/

namespace Honest

/-- A text of forty hex digits. -/
def isAddress (cs : List Char) : Bool := (Facilitator.hexValue 40 cs).isSome

def signPlain (m : Eip3009Message) : Option (List Char) :=
  match m.from_, m.nonce with
  | some (.str f), some (.str n) => some (Facilitator.plainSignature f n)
  | _, _ => none

def account : Account isAddress where
  address := '0' :: 'x' :: List.replicate 40 'a'
  signTypedData _ m := signPlain m
  isAddress_address := by decide

def config : Merchant.MerchantConfig where
  merchantId := []
  payToAddress := '0' :: 'x' :: List.replicate 40 'B'
  assetAddress := "0x036CbD53842c5426634e7929541eC2318f3dCF7e".toList
  network := "base-sepolia".toList

theorem payable : Payable Facilitator.plainPlatform isAddress config BASE_SEPOLIA := ⟨rfl, rfl, by decide⟩

theorem hexByte_digits (b : UInt8) : (hexByte b).length = 2 ∧
    (((hexByte b).map Char.toLower).all (BigInt.isDigitOf 16)) = true := by
  have hall : ∀ n < 256, (hexByte (UInt8.ofNat n)).length = 2 ∧
      (((hexByte (UInt8.ofNat n)).map Char.toLower).all (BigInt.isDigitOf 16)) = true := by decide +kernel
  have hb := hall b.toNat b.toNat_lt
  rwa [UInt8.ofNat_toNat] at hb

/-- A nonce of 32 bytes is read. -/
theorem isSome_randomNonce {bytes : Bytes} (h : bytes.length = 32) :
    (Facilitator.hexValue 64 (randomNonce bytes)).isSome = true := by
  have hlength : ((bytes.flatMap hexByte).map Char.toLower).length = 64 := by
    rw [List.length_map, List.length_flatMap, List.map_congr_left fun b _ => (hexByte_digits b).1]
    simp [h]
  have hdigits : ((bytes.flatMap hexByte).map Char.toLower).all (BigInt.isDigitOf 16) = true := by
    refine List.all_eq_true.mpr fun c hc => ?_
    obtain ⟨d, hd, rfl⟩ := List.mem_map.mp hc
    obtain ⟨b, -, hb⟩ := List.mem_flatMap.mp hd
    exact List.all_eq_true.mp (hexByte_digits b).2 _ (List.mem_map_of_mem hb)
  simp only [Facilitator.hexValue, randomNonce, hlength, hdigits, and_self, if_true, Option.isSome_some]

theorem signs : Signs Facilitator.plainPlatform account := by
  intro np m hw hfrom
  obtain ⟨bytes, hlength, hnonce⟩ := hw.nonce
  refine ⟨Facilitator.plainSignature account.address (randomNonce bytes), ?_, ?_, ?_⟩
  · exact List.cons_ne_nil _ _
  · show signPlain m = _
    rw [signPlain, hfrom, hnonce]
  · show Facilitator.plainVerify m _ = some true
    have haddress : (Facilitator.hexValue 40 account.address).isSome = true := account.isAddress_address
    rw [Facilitator.plainVerify, hfrom, hnonce]
    simp only [haddress, isSome_randomNonce hlength, Bool.and_self, if_true]
    exact congrArg some (Json.strictEq_str.mpr rfl)

def nonce : Bytes := List.replicate 32 7

/-- The first minute that a clock may show. -/
def nowMs : ℤ := 60000

def payment : Json :=
  paid account config Sample.listing nonce nowMs (Facilitator.plainSignature account.address (randomNonce nonce))

theorem head_payment : payment.stringify.head? = some '\x7b' := rfl

def rt : Runtime :=
  { Sample.rt with
    parse := fun text => if text = payment.stringify then some payment else none
    parse_mark := by
      intro text
      refine if_neg fun h => ?_
      have hhead := head_payment
      rw [← h] at hhead
      exact absurd (Option.some.inj hhead) (by decide) }

theorem signed : signAuthorization account (asked config Sample.listing) nonce nowMs = some payment :=
  signAuthorization_eq_some (eip712Domain_of_payable payable)
    (toTypedMessage_asked (wellTyped_messageAt payable (by decide) (by decide) (by decide))) rfl

theorem readsBack : ReadsBack rt payment := by
  have hsame : ∀ bs, rt.textDecode bs = Sample.rt.textDecode bs := fun bs => rfl
  have hparse : rt.parse payment.stringify = some payment := by simp only [rt, if_true]
  exact ⟨(hsame _).trans (Sample.textDecode_text head_payment), hparse⟩

end Honest

theorem honest_payment_accepted_sample :
    ∃ payment, signAuthorization Honest.account (asked Honest.config Sample.listing) Honest.nonce Honest.nowMs
        = some payment ∧
      Facilitator.verifyPayment Facilitator.plainPlatform payment (Merchant.requirementsFor Honest.config Sample.listing
          (asked Honest.config Sample.listing).maxAmountRequired) 179
        = some (.valid (some (.str Honest.account.address))) := by
  obtain ⟨-, payment, hsigned, -, hvalid⟩ := honest_payment_accepted paddedScheme Honest.config () Honest.rt
    Facilitator.plainPlatform Honest.account BASE_SEPOLIA Sample.listing Honest.nonce Honest.nowMs Honest.payable
    Honest.signs (by decide) (by decide) (by decide) fun payment h => by
      obtain rfl := Option.some.inj (Honest.signed.symm.trans h)
      exact Honest.readsBack
  exact ⟨payment, hsigned, hvalid Sample.listing 179 (by decide) (by decide)⟩

end Purchase
