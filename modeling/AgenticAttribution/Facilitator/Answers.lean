import AgenticAttribution.Facilitator.Replay

/-!
# Facilitator.Answers — the requests that the facilitator answers

`handle` of `facilitator/src/handler.ts` rejects when `verifyPayment` throws outside its `try` blocks.  What
`validateRequest` lets through can do that at two places: the domain of a network that is a name of
`Object.prototype` has no contract, and the payee of the authorization is read without being checked.
-/

namespace Facilitator

open Types BigInt

/-- A request to one of the two routes that take a payment. -/
def HttpRequest.Paying (r : HttpRequest) : Prop :=
  r.method = "POST" ∧ (r.path = ROUTE.Verify ∨ r.path = ROUTE.Settle)

/-- The payment names the scheme and one network twice, and its authorization converts. -/
structure Typed (payload requirements : Json) : Prop where
  scheme : payload.prop "scheme" = some (.str SCHEME_EXACT.toList)
  required : requirements.prop "scheme" = some (.str SCHEME_EXACT.toList)
  network : Json.strictEq (payload.prop "network") (requirements.prop "network") = true
  message : ∃ authorization m, payload.prop "authorization" = some authorization ∧ toTypedMessage authorization = .ok m

/-- The network is a property that `NETWORKS` inherits, or the asset is that of the network and the payee of the
authorization is not a string. -/
def Unreadable (p : Platform) (payload requirements : Json) : Prop :=
  (∃ name ∈ inherited, payload.prop "network" = some (.str name.toList)) ∨
    (payload.prop "network" = some (.str "base-sepolia".toList) ∧
      sameAddress p (requirements.prop "asset") (some (.str BASE_SEPOLIA.usdcAddress.toList)) = some true ∧
      Json.isString (((payload.prop "authorization").getD .null).prop "to") = false)

/-- A payment that no fault keeps from verification, and that verification cannot read. -/
def Crashes (p : Platform) (s : State) (r : HttpRequest) : Prop :=
  injected s r = none ∧ r.Paying ∧ ∃ payload requirements, validateRequest r.body = .ok (payload, requirements) ∧
    Typed payload requirements ∧ Unreadable p payload requirements

/-- The answer to a payment that is malformed. -/
def malformed (r : HttpRequest) : FacilitatorResponse :=
  if r.path = ROUTE.Verify then respond 200 (VerifyOutcome.invalid .malformed_payload).props
  else refused InvalidReason.malformed_payload.text

/-- The facilitator answers a request. -/
structure Answered (p : Platform) (s : State) (r : HttpRequest) : Prop where
  responds : ∃ response, (handle p s r).2 = some response
  status : s.Unarmed → r.Paying → ∀ response, (handle p s r).2 = some response →
    response.status = 200 ∨ response.status = 400
  /-- A network that is not configured is malformed. -/
  network : s.Unarmed → r.Paying → ∀ payload requirements name, validateRequest r.body = .ok (payload, requirements) →
    payload.prop "scheme" = some (.str SCHEME_EXACT.toList) →
    requirements.prop "scheme" = some (.str SCHEME_EXACT.toList) →
    payload.prop "network" = some (.str name) → requirements.prop "network" = some (.str name) →
    (∀ q, NETWORKS name ≠ .parameters q) → (handle p s r).2 = some (malformed r)

section Verification

variable {p : Platform} {payload requirements : Json} {nowSeconds : ℤ}

theorem isString_iff {v : Option Json} : Json.isString v = true ↔ ∃ cs, v = some (.str cs) := by
  constructor
  · intro h
    unfold Json.isString at h
    split at h
    · rename_i cs
      exact ⟨cs, rfl⟩
    · cases h
  · rintro ⟨cs, rfl⟩
    rfl

/-- The requirements of a valid request are the strings that verification reads. -/
theorem validateRequest_requirements {body : Json} (h : validateRequest body = .ok (payload, requirements)) :
    (∃ asset, requirements.prop "asset" = some (.str asset)) ∧
      (∃ payTo, requirements.prop "payTo" = some (.str payTo)) ∧
      ∃ amount, bigIntOf (requirements.prop "maxAmountRequired") = some amount := by
  obtain ⟨-, hreq⟩ := validateRequest_eq_ok h
  simp only [validateRequest, ← hreq] at h
  split_ifs at h with _ _ _ _ hdecimal
  · split at h <;> cases h
  split at h
  · cases h
  rename_i hfind
  have hstrings : ∀ field ∈ throwingRequirementFields, ∃ cs, requirements.prop field = some (.str cs) := by
    intro field hfield
    have hfound := List.find?_eq_none.mp hfind field hfield
    exact isString_iff.mp (by simpa using hfound)
  refine ⟨hstrings "asset" (by decide), hstrings "payTo" (by decide), ?_⟩
  obtain ⟨cs, hcs⟩ := hstrings "maxAmountRequired" (by decide)
  have hdigits : cs ≠ [] ∧ cs.all Char.isDigit = true := by simpa [decimalInteger, hcs] using hdecimal
  rw [hcs]
  exact ⟨_, bigInt_of_digits hdigits.1 fun c hc => List.all_eq_true.mp hdigits.2 c hc⟩

/-- Where the checks of a typed message throw. -/
theorem verifyMessage_eq_none_iff {message : Eip3009Message} {domain : Eip712Domain} {signature : Option Json}
    {asset payTo : List Char} {amount : ℤ} (hasset : requirements.prop "asset" = some (.str asset))
    (hpayTo : requirements.prop "payTo" = some (.str payTo))
    (hamount : bigIntOf (requirements.prop "maxAmountRequired") = some amount) :
    verifyMessage p message domain signature requirements nowSeconds = none ↔
      domain.verifyingContract = none ∨
        ∃ contract, domain.verifyingContract = some contract ∧
          sameAddress p (some (.str asset)) (some (.str contract.toList)) = some true ∧
          Json.isString message.to_ = false := by
  unfold verifyMessage
  rw [hasset, hpayTo, hamount]
  cases domain.verifyingContract with
  | none => simp [sameAddress]
  | some contract =>
    simp only [Option.map_some, Option.some.injEq, reduceCtorEq, false_or, exists_eq_left']
    by_cases hsame : p.toLowerCase asset = p.toLowerCase contract.toList
    · by_cases hto : Json.isString message.to_ = true
      · obtain ⟨cs, hcs⟩ := isString_iff.mp hto
        simp only [sameAddress, hsame, hcs, Json.isString]
        simp only [Option.bind_eq_bind, Option.bind_some]
        split_ifs <;> simp
      · have hnone : sameAddress p message.to_ (some (.str payTo)) = none := by
          unfold sameAddress
          split
          · rename_i l r hl _
            exact absurd (isString_iff.mpr ⟨l, hl⟩) hto
          · rfl
        rw [hnone]
        simp [sameAddress, hsame, hto]
    · simp [sameAddress, hsame]

/-- What `NETWORKS` holds decides about the domain. -/
theorem NETWORKS_cases (name : List Char) :
    (name = "base-sepolia".toList ∧ NETWORKS name = .parameters BASE_SEPOLIA) ∨
      ((∃ n ∈ inherited, name = n.toList) ∧ NETWORKS name = .inherited) ∨
      ((∀ n ∈ inherited, name ≠ n.toList) ∧ name ≠ "base-sepolia".toList ∧ NETWORKS name = .undefined) := by
  unfold NETWORKS
  split_ifs with hbase hin
  · exact Or.inl ⟨hbase, rfl⟩
  · refine Or.inr (Or.inl ⟨?_, rfl⟩)
    simpa using hin
  · refine Or.inr (Or.inr ⟨fun n hn he => hin ?_, hbase, rfl⟩)
    exact List.any_eq_true.mpr ⟨n, hn, decide_eq_true he⟩

/-- The domain of the configured network. -/
def baseDomain : Eip712Domain where
  name := BASE_SEPOLIA.domainName
  version := BASE_SEPOLIA.domainVersion
  chainId := BASE_SEPOLIA.chainId
  verifyingContract := BASE_SEPOLIA.usdcAddress

/-- The networks that have a domain. -/
theorem eip712Domain_eq_some_iff {network : Option Json} {domain : Eip712Domain} :
    eip712Domain network = some domain ↔
      (network = some (.str "base-sepolia".toList) ∧ domain = baseDomain) ∨
        ((∃ n ∈ inherited, network = some (.str n.toList)) ∧ domain = ⟨none, none, none, none⟩) := by
  constructor
  · intro h
    unfold eip712Domain at h
    split at h
    · rename_i name
      rcases NETWORKS_cases name with ⟨rfl, hn⟩ | ⟨⟨n, hin, rfl⟩, hn⟩ | ⟨-, -, hn⟩
      · rw [hn] at h
        exact Or.inl ⟨rfl, (Option.some.inj h).symm⟩
      · rw [hn] at h
        exact Or.inr ⟨⟨n, hin, rfl⟩, (Option.some.inj h).symm⟩
      · rw [hn] at h
        cases h
    · cases h
  · rintro (⟨rfl, rfl⟩ | ⟨⟨n, hin, rfl⟩, rfl⟩)
    · rfl
    · have hn : NETWORKS n.toList = .inherited := by
        rcases NETWORKS_cases n.toList with ⟨hbase, -⟩ | ⟨-, hn⟩ | ⟨hno, -, -⟩
        · have hne : ∀ m ∈ inherited, m.toList ≠ "base-sepolia".toList := by decide
          exact absurd hbase (hne n hin)
        · exact hn
        · exact absurd rfl (hno n hin)
      simp only [eip712Domain, hn]

theorem typedData_eq_some_iff {message : Eip3009Message} {domain : Eip712Domain} :
    typedData payload = some (message, domain) ↔
      ∃ authorization, payload.prop "authorization" = some authorization ∧
        toTypedMessage authorization = .ok message ∧ eip712Domain (payload.prop "network") = some domain := by
  constructor
  · intro h
    unfold typedData at h
    split at h
    · cases h
    · rename_i authorization hauth
      split at h
      · rename_i m d hm hd
        obtain ⟨rfl, rfl⟩ := Prod.mk.inj (Option.some.inj h)
        exact ⟨authorization, hauth, hm, hd⟩
      · cases h
  · rintro ⟨authorization, hauth, hm, hd⟩
    simp only [typedData, hauth, hm, hd]

/-- **Where verification throws**, on a request that was validated. -/
theorem verifyPayment_eq_none_iff {body : Json} (h : validateRequest body = .ok (payload, requirements)) :
    verifyPayment p payload requirements nowSeconds = none ↔
      Typed payload requirements ∧ Unreadable p payload requirements := by
  obtain ⟨⟨asset, hasset⟩, ⟨payTo, hpayTo⟩, ⟨amount, hamount⟩⟩ := validateRequest_requirements h
  constructor
  · intro hnone
    unfold verifyPayment at hnone
    split_ifs at hnone with hscheme hnet
    simp only [Bool.or_eq_true, Bool.not_eq_true', not_or, Bool.not_eq_false] at hscheme
    split at hnone
    · cases hnone
    rename_i message domain htyped
    obtain ⟨authorization, hauth, hm, hd⟩ := typedData_eq_some_iff.mp htyped
    refine ⟨⟨Json.isText_iff.mp hscheme.1, Json.isText_iff.mp hscheme.2, by simpa using hnet, authorization, message,
      hauth, hm⟩, ?_⟩
    rcases eip712Domain_eq_some_iff.mp hd with ⟨hbase, rfl⟩ | ⟨hin, rfl⟩
    · rcases (verifyMessage_eq_none_iff hasset hpayTo hamount).mp hnone with hno | ⟨contract, hc, hsame, hto⟩
      · cases hno
      · obtain rfl := Option.some.inj hc
        refine Or.inr ⟨hbase, hasset ▸ hsame, ?_⟩
        rw [hauth, Option.getD_some, ← (toTypedMessage_eq_ok hm).2.1]
        exact hto
    · exact Or.inl hin
  · rintro ⟨⟨hs, hr, hnet, authorization, message, hauth, hm⟩, hun⟩
    have hs : Json.isText (payload.prop "scheme") SCHEME_EXACT = true := Json.isText_iff.mpr hs
    have hr : Json.isText (requirements.prop "scheme") SCHEME_EXACT = true := Json.isText_iff.mpr hr
    have hthrows : ∃ domain, eip712Domain (payload.prop "network") = some domain ∧
        verifyMessage p message domain (payload.prop "signature") requirements nowSeconds = none := by
      rcases hun with hin | ⟨hbase, hsame, hto⟩
      · exact ⟨_, eip712Domain_eq_some_iff.mpr (Or.inr ⟨hin, rfl⟩),
          (verifyMessage_eq_none_iff hasset hpayTo hamount).mpr (Or.inl rfl)⟩
      · rw [hauth, Option.getD_some, ← (toTypedMessage_eq_ok hm).2.1] at hto
        exact ⟨_, eip712Domain_eq_some_iff.mpr (Or.inl ⟨hbase, rfl⟩),
          (verifyMessage_eq_none_iff hasset hpayTo hamount).mpr (Or.inr ⟨_, rfl, hasset ▸ hsame, hto⟩)⟩
    obtain ⟨domain, hd, hnone⟩ := hthrows
    have htyped : typedData payload = some (message, domain) := typedData_eq_some_iff.mpr ⟨authorization, hauth, hm, hd⟩
    simp only [verifyPayment, hs, hr, hnet, htyped, Bool.not_true, Bool.or_self, Bool.false_eq_true, if_false]
    exact hnone

end Verification

section Requests

variable {p : Platform} {s : State} {r : HttpRequest}

theorem handle_of_paying (hi : injected s r = none) (hr : r.Paying) : handle p s r = handlePayment p s r :=
  handle_of_route hi hr.1 hr.2

/-- A request that is no payment, or that a fault answers, has an answer. -/
theorem responds_of_not_paying (h : injected s r ≠ none ∨ ¬r.Paying) :
    ∃ response, (handle p s r).2 = some response := by
  unfold handle
  split_ifs with hhealth hfault hroute
  · exact ⟨_, rfl⟩
  · exact ⟨_, rfl⟩
  · split <;> exact ⟨_, rfl⟩
  · split
    · exact ⟨_, rfl⟩
    · rename_i hi
      simp only [not_or, not_and, not_not] at hroute
      refine absurd (⟨hroute.1, ?_⟩ : r.Paying) (h.elim (fun hne => absurd hi hne) id)
      by_cases hv : r.path = ROUTE.Verify
      · exact Or.inl hv
      · exact Or.inr (hroute.2 hv)

theorem status_settle (p : Platform) (s : State) (payload : Json) (payer : Option Json) :
    (settle p s payload payer).2.status = 200 := by
  cases h : s.has (((payload.prop "authorization").getD .null).prop "nonce") with
  | true =>
    rw [settle_of_has h]
    rfl
  | false =>
    simp only [settle, h]
    rfl

/-- What a payment is answered. -/
theorem handlePayment_cases (p : Platform) (s : State) (r : HttpRequest) :
    (∃ payload requirements, validateRequest r.body = .ok (payload, requirements) ∧
        verifyPayment p payload requirements (nowSeconds r.clock) = none ∧ (handlePayment p s r).2 = none) ∨
      ∃ response, (handlePayment p s r).2 = some response ∧ (response.status = 200 ∨ response.status = 400) := by
  unfold handlePayment
  split
  · exact Or.inr ⟨_, rfl, Or.inr rfl⟩
  · rename_i payload requirements hv
    split
    · rename_i hnone
      exact Or.inl ⟨payload, requirements, hv, hnone, rfl⟩
    · refine Or.inr ?_
      split_ifs with hroute
      · exact ⟨_, rfl, Or.inl rfl⟩
      · split
        · exact ⟨_, rfl, Or.inl rfl⟩
        · exact ⟨_, rfl, Or.inl (status_settle p s _ _)⟩

/-- **Where the facilitator throws.** -/
theorem handle_eq_none_iff : (handle p s r).2 = none ↔ Crashes p s r := by
  by_cases h : injected s r = none ∧ r.Paying
  · rw [handle_of_paying h.1 h.2]
    constructor
    · intro hnone
      rcases handlePayment_cases p s r with ⟨payload, requirements, hv, hthrow, -⟩ | ⟨response, hresp, -⟩
      · exact ⟨h.1, h.2, payload, requirements, hv, (verifyPayment_eq_none_iff hv).mp hthrow⟩
      · rw [hresp] at hnone
        cases hnone
    · rintro ⟨-, -, payload, requirements, hv, htyped, hun⟩
      have hthrow : verifyPayment p payload requirements (nowSeconds r.clock) = none :=
        (verifyPayment_eq_none_iff hv).mpr ⟨htyped, hun⟩
      simp only [handlePayment, hv, hthrow]
  · constructor
    · intro hnone
      obtain ⟨response, hresp⟩ := responds_of_not_paying (p := p) (not_and_or.mp h)
      rw [hresp] at hnone
      cases hnone
    · rintro ⟨hi, hr, -⟩
      exact absurd ⟨hi, hr⟩ h

end Requests

/-- **The facilitator answers a request exactly if it does not crash on it.** -/
theorem answered_iff (p : Platform) (s : State) (r : HttpRequest) : Answered p s r ↔ ¬Crashes p s r := by
  constructor
  · rintro ⟨⟨response, hresp⟩, -, -⟩ hcrash
    rw [handle_eq_none_iff.mpr hcrash] at hresp
    cases hresp
  · intro hno
    refine ⟨?_, ?_, ?_⟩
    · exact Option.ne_none_iff_exists'.mp fun hnone => hno (handle_eq_none_iff.mp hnone)
    · intro hs hr response hresp
      rw [handle_of_paying (injected_of_unarmed hs r) hr] at hresp
      rcases handlePayment_cases p s r with ⟨-, -, -, -, hnone⟩ | ⟨response', hresp', hstatus⟩
      · rw [hnone] at hresp
        cases hresp
      · obtain rfl := Option.some.inj (hresp'.symm.trans hresp)
        exact hstatus
    · intro hs hr payload requirements name hv hscheme hrequired hnet hnet' hname
      have hi : injected s r = none := injected_of_unarmed hs r
      have hsame : Json.strictEq (payload.prop "network") (requirements.prop "network") = true := by
        rw [hnet, hnet']
        exact Json.strictEq_str.mpr rfl
      -- a typed payment over an unknown network would crash if the name were inherited, and has no domain otherwise
      have hnone : typedData payload = none := by
        by_contra hsome
        obtain ⟨⟨message, domain⟩, htyped⟩ := Option.ne_none_iff_exists'.mp hsome
        obtain ⟨authorization, hauth, hm, hd⟩ := typedData_eq_some_iff.mp htyped
        rcases eip712Domain_eq_some_iff.mp hd with ⟨hbase, -⟩ | ⟨hin, -⟩
        · rw [hnet] at hbase
          obtain rfl : name = "base-sepolia".toList := by simpa using hbase
          exact hname BASE_SEPOLIA rfl
        · exact hno ⟨hi, hr, payload, requirements, hv, ⟨hscheme, hrequired, hsame, authorization, message, hauth, hm⟩,
            Or.inl hin⟩
      have hout : verifyPayment p payload requirements (nowSeconds r.clock) = some (.invalid .malformed_payload) := by
        have hs : Json.isText (payload.prop "scheme") SCHEME_EXACT = true := Json.isText_iff.mpr hscheme
        have hq : Json.isText (requirements.prop "scheme") SCHEME_EXACT = true := Json.isText_iff.mpr hrequired
        simp only [verifyPayment, hs, hq, hsame, hnone, Bool.not_true, Bool.or_self, Bool.false_eq_true, if_false]
      rw [handle_of_paying hi hr]
      simp only [handlePayment, hv, hout, malformed]
      split_ifs <;> rfl

namespace Sample

/-- A payment over a network, with what its authorization says beside the integers, to be verified. -/
def verifyRequest (network : String) (to_ : Option Json) : HttpRequest where
  method := "POST"
  path := "/verify"
  body := Json.ofProps [
    ("paymentPayload", Json.ofProps [("scheme", text "exact"), ("network", text network),
      ("authorization", Json.ofProps [("to", to_), ("value", text "100"), ("validAfter", text "0"),
        ("validBefore", text "9")])]),
    ("paymentRequirements", Json.ofProps [("scheme", text "exact"), ("network", text network),
      ("asset", text BASE_SEPOLIA.usdcAddress), ("maxAmountRequired", text "100"), ("payTo", Json.str (hex 40 '7'))])]
  clock := 5000

end Sample

/-- A network called `constructor` and an authorization without a payee make the facilitator throw. -/
theorem not_answered : ¬Answered plainPlatform Sample.fresh (Sample.verifyRequest "constructor" (text "0x7")) ∧
    ¬Answered plainPlatform Sample.fresh (Sample.verifyRequest "base-sepolia" none) := by
  have hthrows : ∀ {q : HttpRequest}, (handle plainPlatform Sample.fresh q).2.isNone = true →
      ¬Answered plainPlatform Sample.fresh q := by
    rintro q hq ⟨⟨response, hresp⟩, -, -⟩
    rw [hresp] at hq
    cases hq
  exact ⟨hthrows (by decide), hthrows (by decide)⟩

end Facilitator
