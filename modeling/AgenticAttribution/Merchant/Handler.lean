import AgenticAttribution.Lib.Double
import AgenticAttribution.Types.Http

/-!
# Merchant.Handler — a purchase at the merchant

`merchant/src/handler.ts`, `x402.ts` and the request handling of `index.ts`.  A request is answered on the spot, or
it is admitted and the settlement service decides (`Sale`).  The listings are read from Postgres; what a query
returns is given.  A price is a `bigint` there and a number here, so where it is printed its digits are those of
`Double.shown`.
-/

namespace Merchant

open Types Attribution Digits

structure MerchantConfig where
  merchantId : List Char
  payToAddress : List Char
  assetAddress : List Char
  network : List Char

structure Listing where
  productId : List Char
  merchantId : List Char
  listingTitle : List Char
  priceCents : ℤ
  currency : List Char
  inStock : Bool

def ATOMIC_UNITS_PER_CENT : ℤ := 10000

def X402_VERSION : ℤ := 1

def PAYMENT_TIMEOUT_SECONDS : ℤ := 120

/-- `centsToAtomicUnits`; the error is thrown. -/
def centsToAtomicUnits (cents : ℤ) : Except (List Char) (List Char) :=
  if cents < 0 then
    .error ("price must be a non-negative integer number of cents, got ".toList ++ intChars (Double.shown cents))
  else .ok (intChars (cents * ATOMIC_UNITS_PER_CENT))

def text (s : String) : Option Json := some (.str s.toList)

/-- `#requirementsFor`, with the price in atomic units. -/
def requirementsFor (config : MerchantConfig) (listing : Listing) (units : List Char) : Json :=
  Json.ofProps
    [("scheme", text "exact"), ("network", Json.str config.network), ("asset", Json.str config.assetAddress),
     ("maxAmountRequired", Json.str units), ("payTo", Json.str config.payToAddress),
     ("maxTimeoutSeconds", Json.num (intChars PAYMENT_TIMEOUT_SECONDS)),
     ("resource", Json.str ("/purchase/".toList ++ listing.productId)), ("description", Json.str listing.listingTitle)]

/-! ## The payment header -/

section Payment

/-- `AUTHORIZATION_FIELDS`. -/
def authorizationFields : List String := ["from", "to", "value", "validAfter", "validBefore", "nonce"]

/-- The message of the `MalformedPaymentError` for a decoded payload, if it is one. -/
def malformedPayment (decoded : Json) : Option String :=
  let authorization := decoded.prop "authorization"
  if !decoded.isObject then some "payment payload is not an object"
  else if !authorization.any Json.isObject then some "payment payload carries no authorization"
  else
    match authorizationFields.find? fun field => !Json.isString ((authorization.getD .null).prop field) with
    | some field => some ("authorization." ++ field ++ " is missing or not a string")
    | none =>
      let signature := decoded.prop "signature"
      if !Json.isString signature || Json.isText signature "" then some "payment payload carries no signature" else none

/-- `payment.authorization[field]`, a string wherever the payload is not malformed. -/
def authorizationText (payment : Json) (field : String) : List Char :=
  match ((payment.prop "authorization").getD .null).prop field with
  | some (.str cs) => cs
  | _ => []

end Payment

/-! ## The request -/

section Handle

/-- A purchase that is left to the settlement service. -/
structure Sale where
  listing : Listing
  assertion : Json
  payment : Json
  requirements : Json

/-- What becomes of a request before settlement. -/
inductive Admission where
  | throws (message : List Char)
  | answers (response : Response)
  | settles (sale : Sale)

variable {E : Ed25519} (config : MerchantConfig) (key : E.PublicKey) (rt : Runtime)

/-- `toLowerCase` on the characters of an address.  JavaScript lowers letters beyond ASCII as well, and none of those
becomes a hexadecimal digit or an `x`; the model leaves them as they are. -/
def toLowerCase (cs : List Char) : List Char := cs.map Char.toLower

/-- The checks of a verified assertion and its payment against the listing, which costs `units`. -/
def checkSale (listing : Listing) (assertion payment : Json) (units : List Char) : Admission :=
  let product := assertion.prop "product_id"
  let value := authorizationText payment "value"
  if !Json.strictEq product (some (.str listing.productId)) then
    if !Json.displayable product then .throws rt.typeError
    else
      .answers (refuse 422
        ("assertion covers ".toList ++ Json.display product ++ ", purchase covers ".toList ++ listing.productId)
        "assertion_product_mismatch".toList)
  else if value ≠ units then
    .answers (refuse 422 ("authorization pays ".toList ++ value ++ ", listing requires ".toList ++ units)
      "amount_mismatch".toList)
  else if toLowerCase (authorizationText payment "to") ≠ toLowerCase config.payToAddress then
    .answers (refuse 422 "authorization pays a different address".toList "payee_mismatch".toList)
  else .settles ⟨listing, assertion, payment, requirementsFor config listing units⟩

/-- A purchase whose headers are both there. -/
def checkHeaders (listing : Listing) (units paymentHeader assertionHeader : List Char) (nowMs : ℤ) : Admission :=
  match rt.decodeHeaderJson assertionHeader, rt.decodeHeaderJson paymentHeader with
  | some assertion, some payment =>
    match malformedPayment payment with
    | some message => .answers (refuse 400 message.toList "malformed_payment".toList)
    | none =>
      match verifyAssertion E key rt.otherDate (.ofJson assertion) nowMs with
      | .error (.verification reason message) => .answers (refuse 401 message reason.text.toList)
      | .error .typeError => .throws rt.typeError
      | .ok () => checkSale config rt listing assertion payment units
  | _, _ => .answers (refuse 400 "headers are not base64-encoded JSON".toList "malformed_headers".toList)

/-- `402`, with what a payment has to look like. -/
def challenge (requirements : Json) : Response :=
  ⟨402, Json.ofProps [("x402Version", Json.num (intChars X402_VERSION)), ("accepts", Json.arr [requirements])]⟩

/-- A purchase of a listing in stock. -/
def checkListing (listing : Listing) (payment assertion : List Char) (nowMs : ℤ) : Admission :=
  match centsToAtomicUnits listing.priceCents with
  | .error message => .throws message
  | .ok units =>
    if payment = [] then .answers (challenge (requirementsFor config listing units))
    else if assertion = [] then
      .answers (refuse 400 "payment supplied without x-attribution-assertion".toList "assertion_missing".toList)
    else checkHeaders config key rt listing units payment assertion nowMs

/-- `PurchaseHandler.handle` up to its call of `settle`.  `findListing` is what the query for the product gives:
a row or none, or a message that it throws. -/
def checkPurchase (findListing : Json → Except (List Char) (Option Listing)) (body : Json)
    (payment assertion : List Char) (nowMs : ℤ) : Admission :=
  match body.prop "product_id" with
  | none => .answers (fault 400 "product_id required".toList)
  | some product =>
    if !Json.truthy (some product) then .answers (fault 400 "product_id required".toList)
    else
      match findListing product with
      | .error message => .throws message
      | .ok none =>
        if !product.printable then .throws rt.typeError
        else .answers (fault 404 ("no listing for ".toList ++ product.toText))
      | .ok (some listing) =>
        if !listing.inStock then .answers (fault 422 "listing out of stock".toList)
        else checkListing config key rt listing payment assertion nowMs

/-- The body that is posted to `/settle`. -/
def Sale.body (sale : Sale) : Json :=
  Json.ofProps
    [("assertion", sale.assertion), ("merchant_id", Json.str sale.listing.merchantId),
     ("gross_amount_cents", Json.num (intChars (Double.shown sale.listing.priceCents))),
     ("currency", Json.str sale.listing.currency), ("payment_payload", sale.payment),
     ("payment_requirements", sale.requirements)]

/-- The fulfilment of a sale, out of the result of its settlement. -/
def Sale.fulfillment (sale : Sale) (result : Json) : Json :=
  Json.ofProps
    [("order_id", result.prop "settlement_id"), ("product_id", Json.str sale.listing.productId),
     ("listing_title", Json.str sale.listing.listingTitle),
     ("amount_cents", Json.num (intChars (Double.shown sale.listing.priceCents))),
     ("currency", Json.str sale.listing.currency), ("settlement_id", result.prop "settlement_id"),
     ("tx_hash", result.prop "tx_hash"), ("network", result.prop "network"),
     ("attributed_publisher_id", sale.assertion.prop "publisher_id"),
     ("publisher_commission_cents", result.prop "publisher_amount_cents")]

/-- `handle` behind its call of `settle`: a failure is passed through. -/
def Sale.conclude (sale : Sale) (settled : Response) : Response :=
  if 200 ≤ settled.status ∧ settled.status ≤ 299 then ⟨200, sale.fulfillment settled.body⟩ else settled

end Handle

/-! ## What the merchant refuses itself -/

section Refusals

variable {E : Ed25519} {config : MerchantConfig} {key : E.PublicKey} {rt : Runtime}

/-- The reasons of the merchant's own refusals. -/
def ownReasons : List String :=
  ["assertion_missing", "malformed_headers", "malformed_payment", "malformed_signature", "invalid_signature",
    "expired", "assertion_product_mismatch", "amount_mismatch", "payee_mismatch"]

/-- A response of the merchant's own: an error without a reason, or one with a reason that is no challenge. -/
inductive Own : Response → Prop where
  | fault (status : ℕ) (error : List Char) (h : 400 ≤ status) : Own (fault status error)
  | refuse (status : ℕ) (error : List Char) {reason : String} (h : 400 ≤ status ∧ status ≠ 402)
    (hr : reason ∈ ownReasons) : Own (refuse status error reason.toList)

theorem text_mem_ownReasons (reason : VerificationFailure) : reason.text ∈ ownReasons := by
  cases reason <;> decide

theorem own_of_checkSale {listing : Listing} {assertion payment : Json} {units : List Char} {r : Response}
    (h : checkSale config rt listing assertion payment units = .answers r) : Own r := by
  simp only [checkSale] at h
  split_ifs at h with hproduct hdisplay hvalue hpayee
  · obtain rfl := Admission.answers.inj h
    exact .refuse 422 _ (by decide) (show "assertion_product_mismatch" ∈ ownReasons by decide)
  · obtain rfl := Admission.answers.inj h
    exact .refuse 422 _ (by decide) (show "amount_mismatch" ∈ ownReasons by decide)
  · obtain rfl := Admission.answers.inj h
    exact .refuse 422 _ (by decide) (show "payee_mismatch" ∈ ownReasons by decide)

theorem own_of_checkHeaders {listing : Listing} {units paymentHeader assertionHeader : List Char} {nowMs : ℤ}
    {r : Response} (h : checkHeaders config key rt listing units paymentHeader assertionHeader nowMs = .answers r) :
    Own r := by
  unfold checkHeaders at h
  split at h
  · split at h
    · obtain rfl := Admission.answers.inj h
      exact .refuse 400 _ (by decide) (show "malformed_payment" ∈ ownReasons by decide)
    · split at h
      · rename_i reason message _
        obtain rfl := Admission.answers.inj h
        exact .refuse 401 _ (by decide) (text_mem_ownReasons reason)
      · cases h
      · exact own_of_checkSale h
  · obtain rfl := Admission.answers.inj h
    exact .refuse 400 _ (by decide) (show "malformed_headers" ∈ ownReasons by decide)

/-- **What the merchant answers itself** to a request that carries a payment. -/
theorem own_of_checkPurchase {findListing : Json → Except (List Char) (Option Listing)} {body : Json}
    {payment assertion : List Char} {nowMs : ℤ} {r : Response} (hp : payment ≠ [])
    (h : checkPurchase config key rt findListing body payment assertion nowMs = .answers r) : Own r := by
  unfold checkPurchase at h
  split at h
  · obtain rfl := Admission.answers.inj h
    exact .fault 400 _ (by decide)
  · split at h
    · obtain rfl := Admission.answers.inj h
      exact .fault 400 _ (by decide)
    · split at h
      · cases h
      · split at h
        · cases h
        · obtain rfl := Admission.answers.inj h
          exact .fault 404 _ (by decide)
      · split_ifs at h with hstock
        · obtain rfl := Admission.answers.inj h
          exact .fault 422 _ (by decide)
        · unfold checkListing at h
          split at h
          · cases h
          · rw [if_neg hp] at h
            split_ifs at h with hassertion
            · obtain rfl := Admission.answers.inj h
              exact .refuse 400 _ (by decide) (show "assertion_missing" ∈ ownReasons by decide)
            · exact own_of_checkHeaders h

end Refusals

/-! ## The server -/

section Server

variable {E : Ed25519} (config : MerchantConfig) (key : E.PublicKey) (rt : Runtime)

def MAX_BODY_BYTES : ℕ := 64 * 1024

/-- `readJsonBody` and `handle`. -/
def receive (findListing : Json → Except (List Char) (Option Listing)) (body : Bytes) (payment assertion : List Char)
    (nowMs : ℤ) : Admission :=
  if body.length > MAX_BODY_BYTES then .throws "request body too large".toList
  else
    match rt.parse (rt.readText body) with
    | none => .throws rt.syntaxError
    | some body => checkPurchase config key rt findListing body payment assertion nowMs

/-- What the server answers when `handle` throws. -/
def crashed (message : List Char) : Response := refuse 502 message "merchant_error".toList

/-- `decodeAssertionForReporting`; `null` if it throws. -/
def decodeAssertionForReporting (assertion : List Char) : Json :=
  if assertion = [] then .null else (rt.decodeBuffer assertion).getD .null

/-- `reportRefusal`. -/
def reportRefusal (response : Response) (assertion : List Char) : Option RejectionReport :=
  if response.status < 400 ∨ response.status = 402 then none
  else if !Json.truthy response.reason then none
  else
    let named := decodeAssertionForReporting rt assertion
    some
      { publisher_id := Json.orDefault (named.prop "publisher_id") unknownPublisher
        assertion_id := Json.orDefault (named.prop "assertion_id") (.str [])
        merchant_id := .str config.merchantId
        reason := response.reason.getD .null
        detail := Json.orDefault (response.body.prop "error") (.str []) }

theorem own_of_receive {findListing : Json → Except (List Char) (Option Listing)} {body : Bytes}
    {payment assertion : List Char} {nowMs : ℤ} {r : Response} (hp : payment ≠ [])
    (h : receive config key rt findListing body payment assertion nowMs = .answers r) : Own r := by
  unfold receive at h
  split_ifs at h with hlong
  split at h
  · cases h
  · exact own_of_checkPurchase hp h

end Server

end Merchant
