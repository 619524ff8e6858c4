import AgenticAttribution.Facilitator.Handler
import AgenticAttribution.Lib.Once

/-!
# Facilitator.Replay — the nonce ledger as a guard

The token contract lets each authorizer use each 32-byte nonce once.  The ledger that stands in for it holds the
nonces as they are spelled, and not whose they are.  `guard` makes it an instance of `Once.Guard`, which settles
when it does what the contract does (`replay_exact_iff`).
-/

namespace Facilitator

open Types Once

/-- No fault is armed. -/
def State.Unarmed (s : State) : Prop := s.fault = none ∨ s.fault = some .none

/-- A `/settle` request. -/
def HttpRequest.Settling (r : HttpRequest) : Prop := r.method = "POST" ∧ r.path = ROUTE.Settle

def HttpRequest.authorization (r : HttpRequest) : Json :=
  (((r.body.prop "paymentPayload").getD .null).prop "authorization").getD .null

/-- The nonce as the ledger sees it. -/
def HttpRequest.nonce (r : HttpRequest) : Option Json := r.authorization.prop "nonce"

section Requests

variable (p : Platform)

/-- A `/settle` request whose payment passes `verifyPayment`. -/
def Verifying (r : HttpRequest) : Prop :=
  r.Settling ∧ ∃ payload requirements payer, validateRequest r.body = .ok (payload, requirements) ∧
    verifyPayment p payload requirements (nowSeconds r.clock) = some (.valid payer)

/-- The payer, as the typed data has it. -/
def HttpRequest.authorizer (r : HttpRequest) : Option Bytes :=
  match r.authorization.prop "from" with
  | some (.str cs) => p.addressOf cs
  | _ => none

/-- The nonce, as the typed data has it. -/
def HttpRequest.nonceValue (r : HttpRequest) : Option Bytes :=
  match r.nonce with
  | some (.str cs) => p.nonceOf cs
  | _ => none

/-- The same authorizer uses the same nonce. -/
def SameAuthorization (x y : HttpRequest) : Prop :=
  ∃ a n, x.authorizer p = some a ∧ y.authorizer p = some a ∧ x.nonceValue p = some n ∧ y.nonceValue p = some n

/-- The nonces are spelled in the same way. -/
def SameSpelling (x y : HttpRequest) : Prop := Json.strictEq x.nonce y.nonce = true

theorem SameAuthorization.trans {x y z : HttpRequest} (h : SameAuthorization p x y) (h' : SameAuthorization p y z) :
    SameAuthorization p x z := by
  obtain ⟨a, n, hxa, hya, hxn, hyn⟩ := h
  obtain ⟨b, m, hyb, hzb, hym, hzm⟩ := h'
  obtain rfl := Option.some.inj (hya.symm.trans hyb)
  obtain rfl := Option.some.inj (hyn.symm.trans hym)
  exact ⟨a, n, hxa, hzb, hxn, hzm⟩

/-- The answer to `r` says that it settled. -/
def succeeds (response : Option FacilitatorResponse) : Bool := response.any FacilitatorResponse.success

/-- Behind the requests `l`, the `/settle` request `r` succeeds. -/
def Settled (s : State) (l : List HttpRequest) (r : HttpRequest) : Prop :=
  r.Settling ∧ succeeds (answer p s l r) = true

end Requests

/-! ## One request -/

section Step

variable {p : Platform} {s : State} {r : HttpRequest}

theorem validateRequest_eq_ok {body payload requirements : Json}
    (h : validateRequest body = .ok (payload, requirements)) :
    payload = (body.prop "paymentPayload").getD .null ∧
      requirements = (body.prop "paymentRequirements").getD .null := by
  simp only [validateRequest] at h
  split_ifs at h <;> split at h <;> cases h
  exact ⟨rfl, rfl⟩

theorem injected_of_unarmed (h : s.Unarmed) (r : HttpRequest) : injected s r = none := by
  rcases h with h | h <;> rw [injected, h]

/-- A request on one of the two routes is about a payment. -/
theorem handle_of_route (hi : injected s r = none) (hm : r.method = "POST")
    (hp : r.path = ROUTE.Verify ∨ r.path = ROUTE.Settle) : handle p s r = handlePayment p s r := by
  have hhealth : ¬(r.method = "GET" ∧ r.path = ROUTE.Health) := by
    rintro ⟨hget, -⟩
    rw [hm] at hget
    exact absurd hget (by decide)
  have hfault : r.path ≠ ROUTE.Fault := by
    rcases hp with hp | hp <;> rw [hp] <;> decide
  have hroute : ¬(r.method ≠ "POST" ∨ (r.path ≠ ROUTE.Verify ∧ r.path ≠ ROUTE.Settle)) := by
    rintro (h | ⟨hv, hset⟩)
    · exact h hm
    · exact hp.elim hv hset
  rw [handle, if_neg hhealth, if_neg hfault, hi]
  exact if_neg hroute

theorem handle_of_settling (hs : s.Unarmed) (hr : r.Settling) : handle p s r = handlePayment p s r :=
  handle_of_route (injected_of_unarmed hs r) hr.1 (Or.inr hr.2)

/-- A refusal does not read as a success. -/
theorem success_refused (reason : String) : (refused reason).success = false := by
  rw [FacilitatorResponse.success, refused, respond, Json.prop_ofProps_self]
  rfl

theorem success_malformed (error : String) :
    (respond 400 [("error", text error), ("reason", text "malformed_request")]).success = false := by
  rw [FacilitatorResponse.success, respond, Json.prop_ofProps_of_ne (by decide), Json.prop_ofProps_of_ne (by decide)]
  rfl

theorem handlePayment_of_verifying (hr : Verifying p r) :
    ∃ payload payer, (payload.prop "authorization").getD .null = r.authorization ∧
      handlePayment p s r = (settle p s payload payer).map id some := by
  obtain ⟨⟨-, hpath⟩, payload, requirements, payer, hv, hp⟩ := hr
  have hroute : r.path ≠ ROUTE.Verify := by
    rw [hpath]
    decide
  refine ⟨payload, payer, ?_, ?_⟩
  · rw [(validateRequest_eq_ok hv).1]
    rfl
  · simp only [handlePayment, hv, hp, if_neg hroute]

theorem handlePayment_of_not_verifying (hset : r.Settling) (hr : ¬Verifying p r) :
    (handlePayment p s r).1 = s ∧ succeeds (handlePayment p s r).2 = false := by
  have hroute : r.path ≠ ROUTE.Verify := by
    rw [hset.2]
    decide
  unfold handlePayment
  split
  · rename_i error _
    exact ⟨rfl, success_malformed error⟩
  · rename_i payload requirements hv
    split
    · exact ⟨rfl, rfl⟩
    · rename_i outcome hp
      rw [if_neg hroute]
      cases outcome with
      | invalid reason => exact ⟨rfl, success_refused reason.text⟩
      | valid payer => exact absurd ⟨hset, payload, requirements, payer, hv, hp⟩ hr

theorem settle_of_has {payload : Json} {payer : Option Json}
    (h : s.has (((payload.prop "authorization").getD .null).prop "nonce") = true) :
    settle p s payload payer = (s, refused "nonce_already_used") := by
  simp only [settle, h, if_true]

theorem settle_of_not_has (p : Platform) {payload : Json} (payer : Option Json)
    (h : s.has (((payload.prop "authorization").getD .null).prop "nonce") = false) :
    (settle p s payload payer).1.consumed
        = s.consumed ++ [((payload.prop "authorization").getD .null).prop "nonce"] ∧
      (settle p s payload payer).2.success = true := by
  simp only [settle, h, Bool.false_eq_true, if_false]
  refine ⟨trivial, ?_⟩
  rw [FacilitatorResponse.success, respond, Json.prop_ofProps_self]
  rfl

theorem consumed_handleFault (s : State) (r : HttpRequest) : (handleFault s r).1.consumed = s.consumed := by
  unfold handleFault
  split
  · rfl
  · split_ifs
    · rfl
    · split <;> rfl
    · rfl

/-- The nonces behind a request that does not settle are those before it. -/
theorem consumed_of_not_settling (hs : s.Unarmed) (hr : ¬r.Settling) :
    (handle p s r).1.consumed = s.consumed := by
  unfold handle
  rw [injected_of_unarmed hs]
  split_ifs with hhealth hfault hroute
  · rfl
  · exact consumed_handleFault s r
  · rfl
  · have hverify : r.path = ROUTE.Verify := by
      by_contra hne
      refine hr ⟨?_, ?_⟩
      · by_contra hm
        exact hroute (Or.inl hm)
      · by_contra hp
        exact hroute (Or.inr ⟨hne, hp⟩)
    show (handlePayment p s r).1.consumed = s.consumed
    unfold handlePayment
    split
    · rfl
    · split
      · rfl
      · rw [if_pos hverify]

/-- **What one request does to the ledger.** -/
theorem handle_cases (p : Platform) (hs : s.Unarmed) (r : HttpRequest) :
    (¬Verifying p r ∧ (handle p s r).1.consumed = s.consumed ∧
        (r.Settling → succeeds (handle p s r).2 = false)) ∨
      (Verifying p r ∧ s.has r.nonce = true ∧ (handle p s r).1.consumed = s.consumed ∧
        succeeds (handle p s r).2 = false) ∨
      (Verifying p r ∧ s.has r.nonce = false ∧ (handle p s r).1.consumed = s.consumed ++ [r.nonce] ∧
        succeeds (handle p s r).2 = true) := by
  by_cases hset : r.Settling
  · rw [handle_of_settling hs hset]
    by_cases hv : Verifying p r
    · obtain ⟨payload, payer, hauth, he⟩ := handlePayment_of_verifying (s := s) hv
      have hnonce : ((payload.prop "authorization").getD .null).prop "nonce" = r.nonce := by
        rw [hauth]
        rfl
      rw [he]
      cases hhas : s.has r.nonce with
      | true =>
        rw [settle_of_has (hnonce ▸ hhas)]
        exact Or.inr (Or.inl ⟨hv, rfl, rfl, success_refused "nonce_already_used"⟩)
      | false =>
        obtain ⟨hc, hsucc⟩ := settle_of_not_has p payer (hnonce ▸ hhas)
        rw [hnonce] at hc
        exact Or.inr (Or.inr ⟨hv, rfl, hc, hsucc⟩)
    · obtain ⟨hstate, hsucc⟩ := handlePayment_of_not_verifying (s := s) hset hv
      exact Or.inl ⟨hv, by rw [hstate], fun _ => hsucc⟩
  · exact Or.inl ⟨fun hv => hset hv.1, consumed_of_not_settling hs hset, fun h => absurd h hset⟩

end Step

/-! ## Sequences of requests -/

section Sequences

variable {p : Platform} {s : State}

theorem serve_append_singleton (p : Platform) (s : State) (l : List HttpRequest) (r : HttpRequest) :
    serve p s (l ++ [r]) = (handle p (serve p s l) r).1 := by
  unfold serve
  rw [List.foldl_append]
  rfl

/-- Where fault injection is not available, no fault gets armed. -/
theorem fault_handle (hs : s.fault = none) (r : HttpRequest) : (handle p s r).1.fault = none := by
  unfold handle
  rw [injected_of_unarmed (Or.inl hs)]
  split_ifs with hhealth hfault hroute
  · exact hs
  · show (handleFault s r).1.fault = none
    rw [handleFault, hs]
    exact hs
  · exact hs
  · show (handlePayment p s r).1.fault = none
    unfold handlePayment
    split
    · exact hs
    · split
      · exact hs
      · split_ifs
        · exact hs
        · split
          · exact hs
          · show (settle p s _ _).1.fault = none
            simp only [settle]
            split_ifs <;> exact hs

theorem fault_serve (hs : s.fault = none) (l : List HttpRequest) : (serve p s l).fault = none := by
  induction l using List.reverseRecOn with
  | nil => exact hs
  | append_singleton l r ih =>
    rw [serve_append_singleton]
    exact fault_handle ih r

/-- The ledger behind a sequence holds a nonce exactly if a verifying request spelled it so. -/
theorem has_serve (hs : s.consumed = []) : ∀ l : List HttpRequest, (∀ l', l' <+: l → (serve p s l').Unarmed) →
    ∀ nonce, (serve p s l).has nonce = true ↔ ∃ y ∈ l, Verifying p y ∧ Json.strictEq nonce y.nonce = true := by
  intro l
  induction l using List.reverseRecOn with
  | nil =>
    intro _ nonce
    simp [serve, State.has, hs]
  | append_singleton l r ih =>
    intro h nonce
    have hprefix : ∀ l', l' <+: l → (serve p s l').Unarmed :=
      fun l' hl => h l' (hl.trans (List.prefix_append l [r]))
    have ih := ih hprefix
    have hmem : (∃ y ∈ l ++ [r], Verifying p y ∧ Json.strictEq nonce y.nonce = true) ↔
        (serve p s l).has nonce = true ∨ (Verifying p r ∧ Json.strictEq nonce r.nonce = true) := by
      rw [ih nonce]
      simp only [List.mem_append, List.mem_singleton, or_and_right, exists_or, exists_eq_left]
    rw [hmem, serve_append_singleton]
    rcases handle_cases p (h l (List.prefix_append l [r])) r with
      ⟨hv, hc, -⟩ | ⟨hv, hhas, hc, -⟩ | ⟨hv, hhas, hc, -⟩
    · rw [State.has, hc]
      exact ⟨Or.inl, fun h => h.elim id fun h => absurd h.1 hv⟩
    · rw [State.has, hc]
      refine ⟨Or.inl, fun h => h.elim id ?_⟩
      -- the spelling was in the ledger already
      rintro ⟨-, heq⟩
      obtain ⟨y, hy, hvy, hry⟩ := (ih r.nonce).mp hhas
      exact (ih nonce).mpr ⟨y, hy, hvy, Json.strictEq_trans heq hry⟩
    · rw [State.has, hc, List.any_append, Bool.or_eq_true]
      simp [State.has, hv]

/-- **The ledger is a guard** on how the nonce is spelled. -/
theorem guard (hs : s.consumed = []) {rs : List HttpRequest} (h : ∀ l, l <+: rs → (serve p s l).Unarmed) :
    Guard (Verifying p) (Settled p s) SameSpelling rs := by
  have hbefore : ∀ {l r : List HttpRequest} {x : HttpRequest}, rs = l ++ x :: r →
      ∀ l', l' <+: l → (serve p s l').Unarmed := by
    intro l r x hx l' hl
    exact h l' (hl.trans (hx ▸ List.prefix_append l (x :: r)))
  refine ⟨?_, ?_⟩
  · rintro l x r hx ⟨hset, hsucc⟩
    rcases handle_cases p (hbefore hx l (List.prefix_refl l)) x with ⟨-, -, hno⟩ | ⟨hv, -⟩ | ⟨hv, -⟩
    · rw [answer, hno hset] at hsucc
      cases hsucc
    · exact hv
    · exact hv
  · intro l x r hx hv
    have hhas : (serve p s l).has x.nonce = true ↔ Meets (Verifying p) SameSpelling l x :=
      has_serve hs l (hbefore hx) x.nonce
    rw [← hhas]
    rcases handle_cases p (hbefore hx l (List.prefix_refl l)) x with ⟨hno, -⟩ | ⟨-, hin, -, hsucc⟩ |
      ⟨-, hin, -, hsucc⟩
    · exact absurd hv hno
    · simp [Settled, answer, hsucc, hin]
    · simp [Settled, answer, hsucc, hin, hv.1]

end Sequences

/-- **The ledger does what the token contract does exactly if**, along the sequence, the nonce of a verifying
settlement was spelled before where its authorizer had used that nonce before. -/
theorem replay_exact_iff (p : Platform) {s : State} (hs : s.consumed = []) {rs : List HttpRequest}
    (h : ∀ l, l <+: rs → (serve p s l).Unarmed) :
    Exact (Verifying p) (Settled p s) (SameAuthorization p) rs ↔
      ∀ l x r, rs = l ++ x :: r → Verifying p x →
        (Meets (Verifying p) SameSpelling l x ↔ Meets (Verifying p) (SameAuthorization p) l x) :=
  exact_iff (guard hs h) fun _ _ _ => SameAuthorization.trans p

namespace Sample

/-- The facilitator at its start. -/
def fresh : State := ⟨[], none, []⟩

def hex (digits : ℕ) (c : Char) : List Char := '0' :: 'x' :: List.replicate digits c

def payload (payer nonce signature : List Char) : Json :=
  Json.ofProps [("x402Version", Json.num ['1']), ("scheme", text "exact"), ("network", text "base-sepolia"),
    ("authorization", Json.ofProps [("from", Json.str payer), ("to", Json.str (hex 40 '7')), ("value", text "100"),
      ("validAfter", text "0"), ("validBefore", text "9"), ("nonce", Json.str nonce)]),
    ("signature", Json.str signature)]

def requirements : Json :=
  Json.ofProps [("scheme", text "exact"), ("network", text "base-sepolia"), ("asset", text BASE_SEPOLIA.usdcAddress),
    ("maxAmountRequired", text "100"), ("payTo", Json.str (hex 40 '7'))]

/-- A payment of `payer`, to be settled. -/
def settleRequest (payer nonce signature : List Char) : HttpRequest where
  method := "POST"
  path := "/settle"
  body := Json.ofProps [("paymentPayload", payload payer nonce signature), ("paymentRequirements", requirements)]
  clock := 5000

def first : HttpRequest := settleRequest (hex 40 '1') (hex 64 'a') (plainSignature (hex 40 '1') (hex 64 'a'))

/-- The same authorization under the same signature, its nonce in upper case. -/
def respelled : HttpRequest := settleRequest (hex 40 '1') (hex 64 'A') (plainSignature (hex 40 '1') (hex 64 'a'))

/-- Another payer, who has drawn the same nonce. -/
def other : HttpRequest := settleRequest (hex 40 '2') (hex 64 'a') (plainSignature (hex 40 '2') (hex 64 'a'))

theorem unarmed (l : List HttpRequest) : (serve plainPlatform fresh l).Unarmed := Or.inl (fault_serve rfl l)

theorem settled_first : Settled plainPlatform fresh [] first := ⟨⟨rfl, rfl⟩, by decide⟩

/-- A request that settles on a fresh ledger passes verification. -/
theorem verifying_of_settled {r : HttpRequest} (h : Settled plainPlatform fresh [] r) :
    Verifying plainPlatform r := by
  have hguard : Guard (Verifying plainPlatform) (Settled plainPlatform fresh) SameSpelling [r] :=
    guard rfl fun l _ => unarmed l
  exact hguard.valid_of [] r [] rfl h

end Sample

theorem replay_exact_iff_sample :
    Exact (Verifying plainPlatform) (Settled plainPlatform Sample.fresh) (SameAuthorization plainPlatform)
        [Sample.first, Sample.respelled] ↔
      ∀ l x r, [Sample.first, Sample.respelled] = l ++ x :: r → Verifying plainPlatform x →
        (Meets (Verifying plainPlatform) SameSpelling l x ↔
          Meets (Verifying plainPlatform) (SameAuthorization plainPlatform) l x) :=
  replay_exact_iff plainPlatform rfl fun l _ => Sample.unarmed l

/-- One signed authorization settles twice if its nonce is respelled, and a payer is refused because another used
the nonce before. -/
theorem replay_not_exact :
    ¬Exact (Verifying plainPlatform) (Settled plainPlatform Sample.fresh) (SameAuthorization plainPlatform)
        [Sample.first, Sample.respelled] ∧
      ¬Exact (Verifying plainPlatform) (Settled plainPlatform Sample.fresh) (SameAuthorization plainPlatform)
        [Sample.first, Sample.other] := by
  refine ⟨?_, ?_⟩
  · intro h
    have hv : Verifying plainPlatform Sample.respelled :=
      Sample.verifying_of_settled ⟨⟨rfl, rfl⟩, by decide⟩
    have hsettled : Settled plainPlatform Sample.fresh [Sample.first] Sample.respelled := ⟨⟨rfl, rfl⟩, by decide⟩
    refine (h [Sample.first] Sample.respelled [] rfl hv).mp hsettled [] Sample.first [] rfl Sample.settled_first ?_
    exact ⟨List.replicate 40 1, List.replicate 64 10, by decide, by decide, by decide, by decide⟩
  · intro h
    have hv : Verifying plainPlatform Sample.other :=
      Sample.verifying_of_settled ⟨⟨rfl, rfl⟩, by decide⟩
    have hrefused : ¬Settled plainPlatform Sample.fresh [Sample.first] Sample.other := by
      rintro ⟨-, hsucc⟩
      exact absurd hsucc (by decide)
    refine hrefused ((h [Sample.first] Sample.other [] rfl hv).mpr ?_)
    -- the one settlement before is of another payer
    rintro l' y r' hl - ⟨a, n, hxa, hya, -⟩
    have hy : y = Sample.first := List.mem_singleton.mp (mem_of_eq_append hl)
    rw [hy] at hya
    exact absurd (hxa.trans hya.symm) (by decide)

end Facilitator
