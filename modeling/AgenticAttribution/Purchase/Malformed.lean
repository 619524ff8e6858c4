import AgenticAttribution.Purchase.Honest

/-!
# Purchase.Malformed — headers that are not what they should be

The gateway and the merchant cast what they decode out of a header, and read its fields.  Of a payment every field is
checked first; of an assertion nothing is, and `verifyAssertion` throws a `TypeError` where its signature is not a
string.  Both services pass that on.
-/

namespace Purchase

open Types Attribution

/-! ## The two services -/

/-- A refusal of the caller, with its reason. -/
def Refuses (response : Response) : Prop :=
  400 ≤ response.status ∧ response.status < 500 ∧
    ∃ reason : List Char, reason ≠ [] ∧ response.reason = some (.str reason)

/-- The header carries an assertion that verifies. -/
def Verified (E : Ed25519) (key : E.PublicKey) (rt : Runtime) (header : List Char) (nowMs : ℤ) : Prop :=
  ∃ assertion, rt.decodeHeaderJson header = some assertion ∧
    verifyAssertion E key rt.otherDate (.ofJson assertion) nowMs = .ok ()

section Services

variable {E : Ed25519}

/-- The edge answers or forwards a request. -/
structure GatewayCopes (env : Gateway.GatewayEnv E.PublicKey) (rt : Runtime) (r : Gateway.HttpRequest) (nowMs : ℤ) :
    Prop where
  responds : ∀ message, Gateway.handle env rt r nowMs ≠ .throws message
  names : ∀ response report, Gateway.handle env rt r nowMs = .answer response report → Refuses response
  /-- A payment is forwarded with a verified assertion only. -/
  forwards : ∀ origin body, Gateway.handle env rt r nowMs = .proxy origin body →
    Gateway.presented r.payment = [] ∨ Verified E env.key rt (Gateway.presented r.assertion) nowMs

/-- The edge throws: both headers are there and the assertion cannot be read. -/
structure GatewayTrips (env : Gateway.GatewayEnv E.PublicKey) (rt : Runtime) (r : Gateway.HttpRequest) : Prop where
  bounded : r.bounded = true
  payment : Gateway.presented r.payment ≠ []
  assertion : Gateway.presented r.assertion ≠ []
  unreadable : ∃ v, rt.decodeHeaderJson (Gateway.presented r.assertion) = some v ∧
    Unreadable E env.key (.ofJson v)

variable (config : Merchant.MerchantConfig) (key : E.PublicKey) (rt : Runtime)

/-- The merchant answers a purchase or hands it to settlement.  An empty payment header is none, and is answered with
the challenge. -/
structure MerchantCopes (findListing : Json → Except (List Char) (Option Merchant.Listing)) (body : Json)
    (payment assertion : List Char) (nowMs : ℤ) : Prop where
  responds : ∀ message, Merchant.checkPurchase config key rt findListing body payment assertion nowMs ≠ .throws message
  names : ∀ response,
    Merchant.checkPurchase config key rt findListing body payment assertion nowMs = .answers response →
    Refuses response ∨ (payment = [] ∧ response.status = 402) ∨ Verified E key rt assertion nowMs
  /-- A purchase gets to settlement with a verified assertion only. -/
  settles : ∀ sale, Merchant.checkPurchase config key rt findListing body payment assertion nowMs = .settles sale →
    Verified E key rt assertion nowMs

/-- The merchant throws: both headers decode, the payment is well formed, and the assertion cannot be read, or it
verifies and covers a product that has no text. -/
structure MerchantTrips (payment assertion : List Char) (nowMs : ℤ) : Prop where
  presented : payment ≠ [] ∧ assertion ≠ []
  formed : ∃ payload, rt.decodeHeaderJson payment = some payload ∧ Merchant.malformedPayment payload = none
  unreadable : ∃ v, rt.decodeHeaderJson assertion = some v ∧
    (Unreadable E key (.ofJson v) ∨
      (verifyAssertion E key rt.otherDate (.ofJson v) nowMs = .ok () ∧ Json.displayable (v.prop "product_id") = false))

end Services

section Gateway

variable {E : Ed25519} {env : Gateway.GatewayEnv E.PublicKey} {rt : Runtime} {r : Gateway.HttpRequest} {nowMs : ℤ}

theorem refuses_refuse {status : ℕ} (error : List Char) {reason : List Char} (hlo : 400 ≤ status) (hhi : status < 500)
    (hreason : reason ≠ []) : Refuses (refuse status error reason) :=
  ⟨hlo, hhi, reason, hreason, reason_refuse status error reason⟩

theorem text_ne_nil (reason : VerificationFailure) : reason.text.toList ≠ [] := by
  cases reason <;> decide

/-- A purchase behind the routing. -/
theorem handle_of_purchase (env : Gateway.GatewayEnv E.PublicKey) (rt : Runtime) (nowMs : ℤ)
    (hpost : r.method = "POST") (hpath : r.path = Gateway.ROUTE.Purchase) :
    Gateway.handle env rt r nowMs = if r.bounded then
        Gateway.handlePurchase env rt r (rt.textDecode r.chunks.flatten) nowMs
      else .answer (refuse 413 "request body exceeds 262144 bytes".toList "body_too_large".toList) none := by
  have hhealth : ¬(r.method = "GET" ∧ r.path = Gateway.ROUTE.Health) := by
    rintro ⟨hget, -⟩
    rw [hpost] at hget
    exact absurd hget (by decide)
  have hsearch : r.path ≠ Gateway.ROUTE.Search := by
    rw [hpath]
    decide
  rw [Gateway.handle, if_neg hhealth, if_neg (not_not.mpr hpost), Gateway.readBoundedText_eq]
  cases r.bounded with
  | true =>
    simp only [if_true]
    rw [if_neg hsearch, if_neg (not_not.mpr hpath)]
  | false => rfl

/-- What becomes of an assertion at the edge. -/
theorem handleAssertion_cases (env : Gateway.GatewayEnv E.PublicKey) (rt : Runtime) (header body : List Char)
    (nowMs : ℤ) :
    (∃ response report, Gateway.handleAssertion env rt header body nowMs = .answer response report ∧ Refuses response ∧
        ∀ v, rt.decodeHeaderJson header = some v → ¬Unreadable E env.key (.ofJson v)) ∨
      (Gateway.handleAssertion env rt header body nowMs = .proxy .merchant body ∧ Verified E env.key rt header nowMs ∧
        ∀ v, rt.decodeHeaderJson header = some v → ¬Unreadable E env.key (.ofJson v)) ∨
      (Gateway.handleAssertion env rt header body nowMs = .throws rt.typeError ∧
        ∃ v, rt.decodeHeaderJson header = some v ∧ Unreadable E env.key (.ofJson v)) := by
  unfold Gateway.handleAssertion
  cases hdecode : rt.decodeHeaderJson header with
  | none => exact Or.inl ⟨_, _, rfl, refuses_refuse _ (by decide) (by decide) (by decide), fun v h => by cases h⟩
  | some assertion =>
    have hreads : verifyAssertion E env.key rt.otherDate (.ofJson assertion) nowMs ≠ .error .typeError →
        ∀ v, some assertion = some v → ¬Unreadable E env.key (.ofJson v) := by
      rintro hne v h hun
      obtain rfl := Option.some.inj h
      exact hne (verifyAssertion_eq_typeError_iff.mpr hun)
    cases hverify : verifyAssertion E env.key rt.otherDate (.ofJson assertion) nowMs with
    | ok u =>
      simp only [hverify]
      exact Or.inr (Or.inl ⟨trivial, ⟨assertion, hdecode, hverify⟩, hreads (hverify ▸ nofun)⟩)
    | error thrown =>
      cases thrown with
      | verification reason message =>
        simp only [hverify]
        exact Or.inl ⟨_, _, rfl, refuses_refuse _ (by decide) (by decide) (text_ne_nil reason),
          hreads (hverify ▸ nofun)⟩
      | typeError =>
        simp only [hverify]
        exact Or.inr (Or.inr ⟨trivial, assertion, rfl, verifyAssertion_eq_typeError_iff.mp hverify⟩)

/-- **The edge copes with a purchase unless it trips over the assertion.** -/
theorem gatewayCopes_iff (hpost : r.method = "POST") (hpath : r.path = Gateway.ROUTE.Purchase) :
    GatewayCopes env rt r nowMs ↔ ¬GatewayTrips env rt r := by
  have hhandle := handle_of_purchase env rt nowMs hpost hpath
  constructor
  · rintro ⟨hresponds, -, -⟩ ⟨hbounded, hpayment, hassertion, hun⟩
    rw [hhandle, if_pos hbounded, Gateway.handlePurchase, if_neg hpayment, if_neg hassertion] at hresponds
    rcases handleAssertion_cases env rt (Gateway.presented r.assertion) (rt.textDecode r.chunks.flatten) nowMs with
      ⟨-, -, -, -, hno⟩ | ⟨-, -, hno⟩ | ⟨hthrows, -⟩
    · obtain ⟨v, hv, hv'⟩ := hun
      exact hno v hv hv'
    · obtain ⟨v, hv, hv'⟩ := hun
      exact hno v hv hv'
    · exact hresponds rt.typeError hthrows
  · intro hno
    suffices h : (∃ response report, Gateway.handle env rt r nowMs = .answer response report ∧ Refuses response) ∨
        ∃ body, Gateway.handle env rt r nowMs = .proxy .merchant body ∧
          (Gateway.presented r.payment = [] ∨ Verified E env.key rt (Gateway.presented r.assertion) nowMs) by
      rcases h with ⟨response, report, h, hnamed⟩ | ⟨body, h, hverified⟩
      · refine ⟨fun message => ?_, fun response' report' h' => ?_, fun origin body h' => ?_⟩
        · rw [h]
          intro hthrows
          cases hthrows
        · rw [h] at h'
          obtain ⟨rfl, -⟩ := Gateway.Outcome.answer.inj h'
          exact hnamed
        · rw [h] at h'
          cases h'
      · refine ⟨fun message => ?_, fun response report h' => ?_, fun origin body h' => hverified⟩
        · rw [h]
          intro hthrows
          cases hthrows
        · rw [h] at h'
          cases h'
    rw [hhandle]
    cases hbounded : r.bounded with
    | false => exact Or.inl ⟨_, _, rfl, refuses_refuse _ (by decide) (by decide) (by decide)⟩
    | true =>
      rw [if_pos rfl, Gateway.handlePurchase]
      split_ifs with hpayment hassertion
      · exact Or.inr ⟨_, rfl, Or.inl hpayment⟩
      · exact Or.inl ⟨_, _, rfl, refuses_refuse _ (by decide) (by decide) (by decide)⟩
      · rcases handleAssertion_cases env rt (Gateway.presented r.assertion) (rt.textDecode r.chunks.flatten) nowMs with
          ⟨response, report, h, hnamed, -⟩ | ⟨h, hverified, -⟩ | ⟨-, hun⟩
        · exact Or.inl ⟨response, report, h, hnamed⟩
        · exact Or.inr ⟨_, h, Or.inr hverified⟩
        · exact absurd ⟨hbounded, hpayment, hassertion, hun⟩ hno

end Gateway

section Merchant

variable {E : Ed25519} {config : Merchant.MerchantConfig} {key : E.PublicKey} {rt : Runtime}
  {listing : Merchant.Listing} {payment assertion : List Char} {nowMs : ℤ}

/-- The checks of a verified assertion refuse it, hand it to settlement, or meet a product that has no text. -/
theorem checkSale_cases (config : Merchant.MerchantConfig) (rt : Runtime) (listing : Merchant.Listing)
    (v payload : Json) (units : List Char) :
    (∃ response, Merchant.checkSale config rt listing v payload units = .answers response) ∨
      (∃ sale, Merchant.checkSale config rt listing v payload units = .settles sale) ∨
      (Merchant.checkSale config rt listing v payload units = .throws rt.typeError ∧
        Json.displayable (v.prop "product_id") = false) := by
  simp only [Merchant.checkSale]
  split_ifs with hproduct hdisplay hvalue hpayee
  · exact Or.inr (Or.inr ⟨rfl, by simpa using hdisplay⟩)
  · exact Or.inl ⟨_, rfl⟩
  · exact Or.inl ⟨_, rfl⟩
  · exact Or.inl ⟨_, rfl⟩
  · exact Or.inr (Or.inl ⟨_, rfl⟩)

theorem checkSale_of_undisplayable {v payload : Json} {units : List Char}
    (h : Json.displayable (v.prop "product_id") = false) :
    Merchant.checkSale config rt listing v payload units = .throws rt.typeError := by
  have hproduct : Json.strictEq (v.prop "product_id") (some (.str listing.productId)) = false := by
    by_contra hsame
    rw [Bool.not_eq_false, Json.strictEq_str] at hsame
    rw [hsame] at h
    cases h
  simp only [Merchant.checkSale, hproduct, h, Bool.not_false, if_true]

/-- What becomes of a purchase with both headers. -/
theorem checkHeaders_cases (config : Merchant.MerchantConfig) (key : E.PublicKey) (rt : Runtime)
    (listing : Merchant.Listing) (units payment assertion : List Char) (nowMs : ℤ) :
    (∃ response, Merchant.checkHeaders config key rt listing units payment assertion nowMs = .answers response ∧
        (Refuses response ∨ Verified E key rt assertion nowMs)) ∨
      (∃ sale, Merchant.checkHeaders config key rt listing units payment assertion nowMs = .settles sale ∧
        Verified E key rt assertion nowMs) ∨
      (∃ message, Merchant.checkHeaders config key rt listing units payment assertion nowMs = .throws message ∧
        (payment ≠ [] → assertion ≠ [] → MerchantTrips key rt payment assertion nowMs)) := by
  unfold Merchant.checkHeaders
  cases hassertion : rt.decodeHeaderJson assertion with
  | none => exact Or.inl ⟨_, rfl, Or.inl (refuses_refuse _ (by decide) (by decide) (by decide))⟩
  | some v =>
    cases hpayment : rt.decodeHeaderJson payment with
    | none => exact Or.inl ⟨_, rfl, Or.inl (refuses_refuse _ (by decide) (by decide) (by decide))⟩
    | some payload =>
      cases hformed : Merchant.malformedPayment payload with
      | some message =>
        simp only [hformed]
        exact Or.inl ⟨_, rfl, Or.inl (refuses_refuse _ (by decide) (by decide) (by decide))⟩
      | none =>
        cases hverify : verifyAssertion E key rt.otherDate (.ofJson v) nowMs with
        | error thrown =>
          cases thrown with
          | verification reason message =>
            simp only [hformed, hverify]
            exact Or.inl ⟨_, rfl, Or.inl (refuses_refuse _ (by decide) (by decide) (text_ne_nil reason))⟩
          | typeError =>
            simp only [hformed, hverify]
            exact Or.inr (Or.inr ⟨_, rfl, fun hp ha => ⟨⟨hp, ha⟩, ⟨payload, hpayment, hformed⟩, v, hassertion,
              Or.inl (verifyAssertion_eq_typeError_iff.mp hverify)⟩⟩)
        | ok u =>
          have hverified : Verified E key rt assertion nowMs := ⟨v, hassertion, hverify⟩
          simp only [hformed, hverify]
          rcases checkSale_cases config rt listing v payload units with ⟨response, h⟩ | ⟨sale, h⟩ |
            ⟨h, hdisplay⟩
          · exact Or.inl ⟨response, h, Or.inr hverified⟩
          · exact Or.inr (Or.inl ⟨sale, h, hverified⟩)
          · exact Or.inr (Or.inr ⟨_, h, fun hp ha => ⟨⟨hp, ha⟩, ⟨payload, hpayment, hformed⟩, v, hassertion,
              Or.inr ⟨hverify, hdisplay⟩⟩⟩)

theorem checkHeaders_of_trips (h : MerchantTrips key rt payment assertion nowMs) (listing : Merchant.Listing)
    (units : List Char) :
    Merchant.checkHeaders config key rt listing units payment assertion nowMs = .throws rt.typeError := by
  obtain ⟨-, ⟨payload, hpayment, hformed⟩, v, hassertion, hun⟩ := h
  unfold Merchant.checkHeaders
  rcases hun with hun | ⟨hverify, hdisplay⟩
  · have hverify : verifyAssertion E key rt.otherDate (.ofJson v) nowMs = .error .typeError :=
      verifyAssertion_eq_typeError_iff.mpr hun
    simp only [hassertion, hpayment, hformed, hverify]
  · simp only [hassertion, hpayment, hformed, hverify]
    exact checkSale_of_undisplayable hdisplay

section Copes

variable {findListing : Json → Except (List Char) (Option Merchant.Listing)} {body : Json}

/-- A purchase that is answered names what is wrong with it. -/
theorem copes_of_answers {response : Response}
    (h : Merchant.checkPurchase config key rt findListing body payment assertion nowMs = .answers response)
    (hresponse : Refuses response ∨ (payment = [] ∧ response.status = 402) ∨ Verified E key rt assertion nowMs) :
    MerchantCopes config key rt findListing body payment assertion nowMs := by
  refine ⟨fun message h' => ?_, fun response' h' => ?_, fun sale h' => ?_⟩
  · cases h.symm.trans h'
  · obtain rfl := Merchant.Admission.answers.inj (h.symm.trans h')
    exact hresponse
  · cases h.symm.trans h'

theorem copes_of_settles {sale : Merchant.Sale}
    (h : Merchant.checkPurchase config key rt findListing body payment assertion nowMs = .settles sale)
    (hverified : Verified E key rt assertion nowMs) :
    MerchantCopes config key rt findListing body payment assertion nowMs := by
  refine ⟨fun message h' => ?_, fun response h' => ?_, fun _ _ => hverified⟩
  · cases h.symm.trans h'
  · cases h.symm.trans h'

end Copes

/-- **The merchant copes with a purchase of a listing unless it trips over the assertion.** -/
theorem merchantCopes_iff {findListing : Json → Except (List Char) (Option Merchant.Listing)} {body : Json}
    (ho : Offers findListing body listing) (hprice : 0 ≤ listing.priceCents) :
    MerchantCopes config key rt findListing body payment assertion nowMs ↔
      ¬MerchantTrips key rt payment assertion nowMs := by
  have hcheck : Merchant.checkPurchase config key rt findListing body payment assertion nowMs = _ :=
    checkPurchase_of_offers ho payment assertion nowMs
  rw [Merchant.checkListing, units_of_nonneg config hprice] at hcheck
  simp only at hcheck
  constructor
  · rintro ⟨hresponds, -, -⟩ htrips
    rw [hcheck, if_neg htrips.presented.1, if_neg htrips.presented.2] at hresponds
    exact hresponds rt.typeError (checkHeaders_of_trips htrips listing _)
  · intro hno
    by_cases hpayment : payment = []
    · rw [if_pos hpayment] at hcheck
      exact copes_of_answers hcheck (Or.inr (Or.inl ⟨hpayment, rfl⟩))
    rw [if_neg hpayment] at hcheck
    by_cases hassertion : assertion = []
    · rw [if_pos hassertion] at hcheck
      exact copes_of_answers hcheck (Or.inl (refuses_refuse _ (by decide) (by decide) (by decide)))
    rw [if_neg hassertion] at hcheck
    rcases checkHeaders_cases config key rt listing (asked config listing).maxAmountRequired payment assertion
      nowMs with ⟨response, h, hresponse⟩ | ⟨sale, h, hverified⟩ | ⟨message, h, htrips⟩
    · exact copes_of_answers (hcheck.trans h) (hresponse.imp_right Or.inr)
    · exact copes_of_settles (hcheck.trans h) hverified
    · exact absurd (htrips hpayment hassertion) hno

end Merchant

/-- **Purchase headers of any kind are coped with, by the edge and by the merchant, exactly if** neither trips over
the assertion. -/
theorem headers_coped_iff {E : Ed25519} (env : Gateway.GatewayEnv E.PublicKey) (config : Merchant.MerchantConfig)
    (key : E.PublicKey) (rt : Runtime) {findListing : Json → Except (List Char) (Option Merchant.Listing)} {body : Json}
    {listing : Merchant.Listing} {r : Gateway.HttpRequest} (hpost : r.method = "POST")
    (hpath : r.path = Gateway.ROUTE.Purchase) (ho : Offers findListing body listing) (hprice : 0 ≤ listing.priceCents)
    (payment assertion : List Char) (edgeMs nowMs : ℤ) :
    (GatewayCopes env rt r edgeMs ↔ ¬GatewayTrips env rt r) ∧
      (MerchantCopes config key rt findListing body payment assertion nowMs ↔
        ¬MerchantTrips key rt payment assertion nowMs) :=
  ⟨gatewayCopes_iff hpost hpath, merchantCopes_iff ho hprice⟩

namespace Malformed

/-- The assertion `{}`. -/
def nothing : Json := Json.ofProps []

theorem head_nothing : nothing.stringify.head? = some '\x7b' := rfl

def rt : Runtime :=
  { Sample.rt with
    parse := fun text => if text = nothing.stringify then some nothing else Sample.rt.parse text
    parse_mark := by
      intro text
      refine (if_neg fun h => ?_).trans (Sample.rt.parse_mark text)
      have hhead := head_nothing
      rw [← h] at hhead
      exact absurd (Option.some.inj hhead) (by decide) }

/-- A purchase whose payment is well formed and whose assertion has no signature. -/
def request : Gateway.HttpRequest where
  method := "POST"
  path := Gateway.ROUTE.Purchase
  contentLength := none
  chunks := []
  assertion := some (Sample.header nothing)
  payment := some (Sample.header Sample.paymentJson)

theorem textDecode_eq (bs : Bytes) : rt.textDecode bs = Sample.rt.textDecode bs := rfl

theorem parse_eq (text : List Char) :
    rt.parse text = if text = nothing.stringify then some nothing else Sample.rt.parse text := rfl

theorem decode_nothing : rt.decodeHeaderJson (Sample.header nothing) = some nothing := by
  have hread : rt.textDecode (Utf8.encode nothing.stringify) = nothing.stringify :=
    (textDecode_eq _).trans (Sample.textDecode_text head_nothing)
  have hparse : rt.parse nothing.stringify = some nothing := by rw [parse_eq, if_pos rfl]
  exact Runtime.decodeHeaderJson_encode hread hparse

theorem decode_payment : rt.decodeHeaderJson (Sample.header Sample.paymentJson) = some Sample.paymentJson := by
  have hread : rt.textDecode (Utf8.encode Sample.paymentJson.stringify) = Sample.paymentJson.stringify :=
    (textDecode_eq _).trans (Sample.textDecode_stringify (by simp [Sample.known]))
  have hne : Sample.paymentJson.stringify ≠ nothing.stringify := by decide
  have hparse : rt.parse Sample.paymentJson.stringify = Sample.rt.parse Sample.paymentJson.stringify := by
    rw [parse_eq, if_neg hne]
  have hknown : Sample.rt.parse Sample.paymentJson.stringify = some Sample.paymentJson := by
    simp [Sample.rt, Sample.known, Sample.body_ne_payment]
  exact Runtime.decodeHeaderJson_encode hread (hparse.trans hknown)

theorem offers : Offers (fun _ => .ok (some Sample.listing)) Sample.bodyJson Sample.listing :=
  ⟨.str "prod_1".toList, Json.prop_ofProps_self _ _ _, by decide, rfl, rfl⟩

theorem unreadable : Unreadable paddedScheme () (.ofJson nothing) := Or.inl fun _ h => by cases h

end Malformed

theorem headers_coped_iff_sample :
    (GatewayCopes Sample.deployment.edge Malformed.rt Malformed.request 0 ↔
        ¬GatewayTrips Sample.deployment.edge Malformed.rt Malformed.request) ∧
      (MerchantCopes Sample.deployment.config (E := paddedScheme) () Malformed.rt (fun _ => .ok (some Sample.listing))
          Sample.bodyJson [] [] 0 ↔ ¬MerchantTrips (E := paddedScheme) () Malformed.rt [] [] 0) :=
  headers_coped_iff Sample.deployment.edge Sample.deployment.config () Malformed.rt rfl rfl Malformed.offers (by decide)
    [] [] 0 0

/-- An assertion without a signature makes both services throw. -/
theorem headers_not_coped : ¬GatewayCopes Sample.deployment.edge Malformed.rt Malformed.request 0 ∧
    ¬MerchantCopes Sample.deployment.config (E := paddedScheme) () Malformed.rt (fun _ => .ok (some Sample.listing))
      Sample.bodyJson (Sample.header Sample.paymentJson) (Sample.header Malformed.nothing) 0 := by
  have hprice : 0 ≤ Sample.listing.priceCents := by decide
  refine ⟨fun h => (gatewayCopes_iff rfl rfl).mp h ?_, fun h => (merchantCopes_iff Malformed.offers hprice).mp h ?_⟩
  · exact ⟨by decide, by decide, by decide, Malformed.nothing, Malformed.decode_nothing, Malformed.unreadable⟩
  · exact ⟨⟨by decide, by decide⟩, ⟨Sample.paymentJson, Malformed.decode_payment, by decide⟩, Malformed.nothing,
      Malformed.decode_nothing, Or.inl Malformed.unreadable⟩

end Purchase
