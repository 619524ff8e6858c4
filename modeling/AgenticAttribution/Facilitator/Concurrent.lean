import AgenticAttribution.Facilitator.Server
import AgenticAttribution.Lib.Linear
import AgenticAttribution.Lib.Run

/-!
# Facilitator.Concurrent — requests that overlap

`handle` of `facilitator/src/handler.ts` is an `async` function.  It runs up to the `await` of `verifyPayment`
(`start`), and from there to its end (`resume`); in between the server starts and finishes other requests, which may
arm a fault or use the nonce.  What the other modules say about one request after the other holds for all that, since
the requests are linearizable (`linearizable`).

A request comes in here with its body read.  Reading it (`readJson`) is over before `handle` is called and touches
nothing that the requests share, and no more does the writing of the answer, so there is no step for either: the
chunks of a body and an answer that gets lost leave everything below as it is.
-/

namespace Facilitator

open Types Linear

/-- A request that is waiting for `verifyPayment`. -/
structure Pending where
  request : HttpRequest
  payload : Json
  requirements : Json
  started : ℕ

section Phases

variable (p : Platform)

/-- `handle` up to `verifyPayment`: a response, or the payment to verify. -/
def start (s : State) (r : HttpRequest) : State × (FacilitatorResponse ⊕ (Json × Json)) :=
  if r.method = "GET" ∧ r.path = ROUTE.Health then (s, .inl (health s))
  else if r.path = ROUTE.Fault then (handleFault s r).map id .inl
  else
    match injected s r with
    | some response => (s, .inl response)
    | none =>
      if r.method ≠ "POST" ∨ (r.path ≠ ROUTE.Verify ∧ r.path ≠ ROUTE.Settle) then (s, .inl notFound)
      else
        match validateRequest r.body with
        | .error error => (s, .inl (respond 400 [("error", text error), ("reason", text "malformed_request")]))
        | .ok payment => (s, .inr payment)

/-- `handle` from `verifyPayment` on. -/
def resume (s : State) (r : HttpRequest) (payload requirements : Json) : State × Option FacilitatorResponse :=
  match verifyPayment p payload requirements (nowSeconds r.clock) with
  | none => (s, none)
  | some outcome =>
    if r.path = ROUTE.Verify then (s, respond 200 outcome.props)
    else
      match outcome with
      | .invalid reason => (s, refused reason.text)
      | .valid payer => (settle p s payload payer).map id some

end Phases

/-- The server: the state that the requests share, the number of steps so far, the requests that wait and those that
were answered. -/
structure Server where
  state : State
  clock : ℕ
  pending : List Pending
  done : List (Done HttpRequest (Option FacilitatorResponse))

def Server.init (s : State) : Server := ⟨s, 0, [], []⟩

inductive Event where
  /-- A request is there with its body, and `handle` runs up to `verifyPayment`. -/
  | arrive (r : HttpRequest)
  /-- The verification of a waiting request is over. -/
  | verified (i : ℕ)

def Server.step (p : Platform) (v : Server) : Event → Option Server
  | .arrive r =>
    match start v.state r with
    | (s, .inl response) =>
      some { v with state := s, clock := v.clock + 1, done := v.done ++ [⟨r, some response, v.clock, v.clock⟩] }
    | (s, .inr (payload, requirements)) =>
      some { v with
        state := s, clock := v.clock + 1, pending := v.pending ++ [⟨r, payload, requirements, v.clock⟩] }
  | .verified i => do
    let k ← v.pending[i]?
    let (s, response) := resume p v.state k.request k.payload k.requirements
    some ⟨s, v.clock + 1, v.pending.eraseIdx i, v.done ++ [⟨k.request, response, k.started, v.clock⟩]⟩

/-! ## The two parts of a request -/

section Parts

variable {p : Platform} {s : State} {r : HttpRequest}

/-- The request gets to `verifyPayment` with the payment, if no fault is in its way. -/
def Reaches (r : HttpRequest) (payload requirements : Json) : Prop :=
  r.method = "POST" ∧ (r.path = ROUTE.Verify ∨ r.path = ROUTE.Settle) ∧
    validateRequest r.body = .ok (payload, requirements)

theorem start_of_route (hm : r.method = "POST") (hp : r.path = ROUTE.Verify ∨ r.path = ROUTE.Settle) :
    start s r = match injected s r with
      | some response => (s, .inl response)
      | none => match validateRequest r.body with
        | .error error => (s, .inl (respond 400 [("error", text error), ("reason", text "malformed_request")]))
        | .ok payment => (s, .inr payment) := by
  have hhealth : ¬(r.method = "GET" ∧ r.path = ROUTE.Health) := by
    rintro ⟨hget, -⟩
    rw [hm] at hget
    exact absurd hget (by decide)
  have hfault : r.path ≠ ROUTE.Fault := by
    rcases hp with hp | hp <;> rw [hp] <;> decide
  have hroute : ¬(r.method ≠ "POST" ∨ (r.path ≠ ROUTE.Verify ∧ r.path ≠ ROUTE.Settle)) := by
    rintro (h | ⟨hv, hset⟩)
    · exact h hm
    · exact hp.elim hv hset
  rw [start, if_neg hhealth, if_neg hfault]
  simp only [if_neg hroute]

/-- **A request waits exactly if** it carries a payment and no fault is in its way. -/
theorem start_eq_inr_iff {s' : State} {payload requirements : Json} :
    start s r = (s', .inr (payload, requirements)) ↔
      s' = s ∧ injected s r = none ∧ Reaches r payload requirements := by
  constructor
  · intro h
    unfold start at h
    split_ifs at h with hhealth hfault hroute
    · cases h
    · cases h
    · split at h <;> cases h
    · split at h
      · cases h
      · rename_i hi
        split at h
        · cases h
        · rename_i payment hv
          obtain ⟨rfl, hpayment⟩ := Prod.mk.inj h
          rw [Sum.inr.inj hpayment] at hv
          obtain ⟨hm, hp⟩ := not_or.mp hroute
          exact ⟨rfl, hi, not_not.mp hm, (not_and_or.mp hp).imp not_not.mp not_not.mp, hv⟩
  · rintro ⟨rfl, hi, hm, hp, hv⟩
    rw [start_of_route hm hp, hi, hv]

/-- **The parts make up `handle`.** -/
theorem handle_eq_start (s : State) (r : HttpRequest) : handle p s r =
    match start s r with
    | (s', .inl response) => (s', some response)
    | (s', .inr (payload, requirements)) => resume p s' r payload requirements := by
  unfold handle start
  split_ifs with hhealth hfault hroute
  · rfl
  · rfl
  · cases injected s r <;> rfl
  · cases injected s r with
    | some response => rfl
    | none =>
      simp only [handlePayment, resume]
      cases validateRequest r.body <;> rfl

theorem handle_of_reaches {payload requirements : Json} (hi : injected s r = none)
    (hr : Reaches r payload requirements) : handle p s r = resume p s r payload requirements := by
  rw [handle_eq_start, start_eq_inr_iff.mpr ⟨rfl, hi, hr⟩]

theorem handle_of_answered {s' : State} {response : FacilitatorResponse} (h : start s r = (s', .inl response)) :
    handle p s r = (s', some response) := by
  rw [handle_eq_start, h]

/-- A fault is in the way of a route. -/
theorem injected_isNone_congr {r' : HttpRequest} (hpath : r.path = r'.path) {s' : State} (hf : s.fault = s'.fault) :
    injected s r = none ↔ injected s' r' = none := by
  unfold injected
  rw [hf, hpath]

/-- Behind `verifyPayment` no fault is armed or disarmed. -/
theorem fault_resume (payload requirements : Json) : (resume p s r payload requirements).1.fault = s.fault := by
  unfold resume
  split
  · rfl
  · split_ifs
    · rfl
    · split
      · rfl
      · simp only [settle, Prod.map]
        split_ifs <;> rfl

end Parts

/-! ## Requests that leave the ledger alone -/

section Quiet

variable (p : Platform)

/-- The fault of one state over the ledger of another. -/
def State.over (s t : State) : State := { t with fault := s.fault }

/-- The request does not look at the ledger and does not write to it. -/
def Quiet (s : State) (r : HttpRequest) : Prop :=
  ∀ t, handle p (s.over t) r = (((handle p s r).1).over t, (handle p s r).2)

/-- None of the requests does, one after the other. -/
def QuietAll : State → List (Done HttpRequest (Option FacilitatorResponse)) → Prop
  | _, [] => True
  | s, d :: l => Quiet p s d.request ∧ QuietAll (handle p s d.request).1 l

end Quiet

section Ledger

variable {p : Platform} {s t : State} {r : HttpRequest} {l m : List (Done HttpRequest (Option FacilitatorResponse))}

theorem over_of_fault_eq (h : t.fault = s.fault) : s.over t = t := by
  rw [State.over, ← h]

@[simp] theorem over_over (s t u : State) : (s.over t).over u = s.over u := rfl

theorem injected_over (s t : State) (r : HttpRequest) : injected (s.over t) r = injected s r := rfl

theorem handleFault_over (s t : State) (r : HttpRequest) :
    handleFault (s.over t) r = (((handleFault s r).1).over t, (handleFault s r).2) := by
  have hfault : (s.over t).fault = s.fault := rfl
  unfold handleFault
  rw [hfault]
  cases hs : s.fault with
  | none => simp [State.over, hs]
  | some mode =>
    simp only
    split_ifs
    · simp [State.over, hs]
    · split <;> simp [State.over, hs]
    · simp [State.over, hs]

/-- Up to `verifyPayment` the ledger plays no part. -/
theorem start_over (s t : State) (r : HttpRequest) :
    start (s.over t) r = (((start s r).1).over t, (start s r).2) := by
  unfold start
  rw [injected_over, handleFault_over]
  split_ifs
  · rfl
  · rfl
  · cases injected s r <;> rfl
  · cases injected s r with
    | some response => rfl
    | none => cases validateRequest r.body <;> rfl

/-- A request that is answered at once is quiet. -/
theorem quiet_of_answered {s' : State} {response : FacilitatorResponse} (h : start s r = (s', .inl response)) :
    Quiet p s r := by
  intro t
  rw [handle_of_answered h]
  refine handle_of_answered ?_
  rw [start_over, h]

/-- A request on another route than `/settle` is quiet. -/
theorem quiet_of_path (hp : r.path ≠ ROUTE.Settle) (s : State) : Quiet p s r := by
  cases hs : start s r with
  | mk s' out =>
    cases out with
    | inl response => exact quiet_of_answered hs
    | inr payment =>
      obtain ⟨payload, requirements⟩ := payment
      obtain ⟨rfl, hi, hr⟩ := start_eq_inr_iff.mp hs
      intro t
      have hverify : r.path = ROUTE.Verify := hr.2.1.resolve_right hp
      rw [handle_of_reaches hi hr, handle_of_reaches ((injected_over s' t r).trans hi) hr]
      unfold resume
      split
      · rfl
      · simp only [if_pos hverify]

/-- Quiet requests answer the same over any ledger, and hand it on. -/
theorem QuietAll.over (h : QuietAll p s l) (t : State) : QuietAll p (s.over t) l ∧
    after (handle p) (s.over t) l = (after (handle p) s l).over t ∧
    (Explains (handle p) s l → Explains (handle p) (s.over t) l) := by
  induction l generalizing s with
  | nil => exact ⟨trivial, rfl, fun _ => trivial⟩
  | cons d l ih =>
    obtain ⟨hd, hl⟩ := h
    obtain ⟨hquiet, hafter, hexplains⟩ := ih hl
    have hstep := hd t
    refine ⟨⟨?_, ?_⟩, ?_, ?_⟩
    · intro u
      rw [over_over, hd u, hstep, over_over]
    · rwa [hstep]
    · rw [after_cons, hstep, after_cons, hafter]
    · rintro ⟨hresponse, hrest⟩
      exact ⟨by rwa [hstep], by rw [hstep]; exact hexplains hrest⟩

theorem quietAll_append : QuietAll p s (l ++ m) ↔ QuietAll p s l ∧ QuietAll p (after (handle p) s l) m := by
  induction l generalizing s with
  | nil => simp [QuietAll]
  | cons d l ih => simp [QuietAll, ih, and_assoc]

/-- Whether a fault is armed does not depend on the ledger. -/
theorem fault_handle_over (s t : State) (r : HttpRequest) :
    (handle p (s.over t) r).1.fault = (handle p s r).1.fault := by
  have hstart := start_over s t r
  cases hs : start s r with
  | mk s' out =>
    rw [hs] at hstart
    cases out with
    | inl response =>
      rw [handle_of_answered hs, handle_of_answered hstart]
      rfl
    | inr payment =>
      obtain ⟨payload, requirements⟩ := payment
      obtain ⟨rfl, hi, hr⟩ := start_eq_inr_iff.mp hs
      rw [handle_of_reaches hi hr, handle_of_reaches ((injected_over s' t r).trans hi) hr, fault_resume, fault_resume]
      rfl

theorem fault_after {u : State} (h : u.fault = s.fault) :
    (after (handle p) u l).fault = (after (handle p) s l).fault := by
  induction l generalizing s u with
  | nil => exact h
  | cons d l ih =>
    refine ih ?_
    rw [← over_of_fault_eq h, fault_handle_over]

theorem QuietAll.of_fault {u : State} (h : QuietAll p s l) (hu : u.fault = s.fault) : QuietAll p u l := by
  rw [← over_of_fault_eq hu]
  exact (h.over u).1

/-- Behind `verifyPayment` nothing but the ledger plays a part. -/
theorem resume_over (s t : State) (r : HttpRequest) (payload requirements : Json) :
    resume p (s.over t) r payload requirements =
      (s.over (resume p t r payload requirements).1, (resume p t r payload requirements).2) := by
  unfold resume
  cases verifyPayment p payload requirements (nowSeconds r.clock) with
  | none => rfl
  | some outcome =>
    simp only
    split_ifs
    · rfl
    · cases outcome with
      | invalid reason => rfl
      | valid payer =>
        have hhas : (s.over t).has = t.has := rfl
        simp only [settle, hhas]
        split_ifs <;> rfl

theorem resume_of_verify (p : Platform) (payload requirements : Json) (hp : r.path = ROUTE.Verify) (s t : State) :
    (resume p s r payload requirements).1 = s ∧
      (resume p t r payload requirements).2 = (resume p s r payload requirements).2 := by
  unfold resume
  cases verifyPayment p payload requirements (nowSeconds r.clock) with
  | none => exact ⟨rfl, rfl⟩
  | some outcome => simp [hp]

end Ledger

/-! ## A place for every request -/

section Order

variable {p : Platform} {s₀ : State} {l A B C : List (Done HttpRequest (Option FacilitatorResponse))}
  {k k' : Pending} {v v' : Server}

/-- A place in the order where the request may go: the fault is out of its way there, nothing behind it had finished
when it came in, and for `/settle` nothing behind it has to do with the ledger. -/
structure Fits (p : Platform) (s₀ : State) (k : Pending)
    (A B : List (Done HttpRequest (Option FacilitatorResponse))) : Prop where
  passes : injected (after (handle p) s₀ A) k.request = none
  inTime : ∀ b ∈ B, k.started ≤ b.finished
  quiet : k.request.path = ROUTE.Settle → QuietAll p (after (handle p) s₀ A) B

def Placed (p : Platform) (s₀ : State) (l : List (Done HttpRequest (Option FacilitatorResponse))) (k : Pending) :
    Prop :=
  ∃ A B, l = A ++ B ∧ Fits p s₀ k A B

/-- The state of the server has an order, in which every waiting request has a place. -/
structure Ordered (p : Platform) (s₀ : State) (v : Server)
    (l : List (Done HttpRequest (Option FacilitatorResponse))) : Prop where
  perm : l.Perm v.done
  explains : Explains (handle p) s₀ l
  after : after (handle p) s₀ l = v.state
  inTime : InTime l
  placed : ∀ k ∈ v.pending, Placed p s₀ l k
  reaches : ∀ k ∈ v.pending, Reaches k.request k.payload k.requirements
  /-- Nothing starts later than now. -/
  started : (∀ k ∈ v.pending, k.started ≤ v.clock) ∧ ∀ d ∈ l, d.started ≤ v.clock

theorem ordered_init (p : Platform) (s₀ : State) : Ordered p s₀ (Server.init s₀) [] :=
  ⟨List.Perm.refl [], trivial, rfl, List.Pairwise.nil, by simp [Server.init], by simp [Server.init],
    by simp [Server.init]⟩

/-- What a request does at its place, and that what comes behind it is none the wiser. -/
theorem finish_at_place (hl : Explains (handle p) s₀ (A ++ B)) (hfits : Fits p s₀ k A B)
    (hr : Reaches k.request k.payload k.requirements) {u t : State} {response : Option FacilitatorResponse}
    (hu : (handle p (after (handle p) s₀ A) k.request).1 = u)
    (ht : resume p (after (handle p) s₀ (A ++ B)) k.request k.payload k.requirements = (t, response)) :
    (handle p (after (handle p) s₀ A) k.request).2 = response ∧ u.fault = (after (handle p) s₀ A).fault ∧
      Explains (handle p) u B ∧ after (handle p) u B = t := by
  obtain ⟨hA, hB⟩ := explains_append.mp hl
  rw [handle_of_reaches hfits.passes hr] at hu ⊢
  have hfault : u.fault = (after (handle p) s₀ A).fault := hu ▸ fault_resume k.payload k.requirements
  rw [after_append] at ht
  rcases hr.2.1 with hverify | hsettle
  · obtain ⟨hsame, hresponse⟩ := resume_of_verify p k.payload k.requirements hverify
      (after (handle p) s₀ A) (after (handle p) (after (handle p) s₀ A) B)
    obtain ⟨hstate, -⟩ := resume_of_verify p k.payload k.requirements hverify
      (after (handle p) (after (handle p) s₀ A) B) (after (handle p) s₀ A)
    rw [ht] at hresponse hstate
    obtain rfl : after (handle p) s₀ A = u := hsame.symm.trans hu
    exact ⟨hresponse.symm, rfl, hB, hstate.symm⟩
  · -- the ledger is still the one at the place
    have hquiet := hfits.quiet hsettle
    obtain ⟨-, hsame, -⟩ := hquiet.over (after (handle p) s₀ A)
    obtain ⟨-, hafter, hexplains⟩ := hquiet.over u
    rw [over_of_fault_eq rfl] at hsame
    rw [over_of_fault_eq hfault] at hafter hexplains
    rw [hsame, resume_over, hu] at ht
    obtain ⟨hstate, hresponse⟩ := Prod.mk.inj ht
    exact ⟨hresponse, hfault, hexplains hB, hafter.trans hstate⟩

/-- A place stays a place when another request is put at its own. -/
theorem Fits.insert (h : Fits p s₀ k' A B) (hr : Reaches k.request k.payload k.requirements)
    {A' B' : List (Done HttpRequest (Option FacilitatorResponse))} (hk : Fits p s₀ k A' B') (heq : A ++ B = A' ++ B')
    {d : Done HttpRequest (Option FacilitatorResponse)} (hd : d.request = k.request) (hfin : k'.started ≤ d.finished) :
    Placed p s₀ (A' ++ d :: B') k' := by
  have hfault : (after (handle p) s₀ (A' ++ [d])).fault = (after (handle p) s₀ A').fault := by
    rw [after_append, after_cons, after_nil, hd, handle_of_reaches hk.passes hr, fault_resume]
  rcases List.append_eq_append_iff.mp heq with ⟨C, hA', hB⟩ | ⟨C, hA, hB'⟩
  · -- the other request went in front of this one
    by_cases hboth : k'.request.path = ROUTE.Settle ∧ k.request.path = ROUTE.Settle
    · refine ⟨A' ++ [d], B', by simp, ?_, fun b hb => h.inTime b (hB ▸ List.mem_append_right C hb), fun _ => ?_⟩
      · exact (injected_isNone_congr (hboth.1.trans hboth.2.symm) hfault).mpr hk.passes
      · exact (hk.quiet hboth.2).of_fault hfault
    · refine ⟨A, C ++ d :: B', by rw [hA', List.append_assoc], h.passes, ?_, fun hsettle => ?_⟩
      · intro b hb
        rcases List.mem_append.mp hb with hb | hb
        · exact h.inTime b (hB ▸ List.mem_append_left B' hb)
        · rcases List.mem_cons.mp hb with rfl | hb
          · exact hfin
          · exact h.inTime b (hB ▸ List.mem_append_right C hb)
      · have hother : d.request.path ≠ ROUTE.Settle := fun hp => hboth ⟨hsettle, hd ▸ hp⟩
        obtain ⟨hC, hB'⟩ := quietAll_append.mp (hB ▸ h.quiet hsettle)
        rw [← after_append, ← hA'] at hB'
        refine quietAll_append.mpr ⟨hC, ?_⟩
        rw [← after_append, ← hA']
        refine ⟨quiet_of_path hother _, hB'.of_fault ?_⟩
        rw [← hfault, after_append, after_cons, after_nil]
  · -- this one stays in front of the other
    have hfaultC : (after (handle p) s₀ (A' ++ d :: C)).fault = (after (handle p) s₀ A).fault := by
      rw [hA, after_append, after_append, after_cons]
      refine fault_after ?_
      rw [← hfault, after_append, after_cons, after_nil]
    refine ⟨A' ++ d :: C, B, by rw [hB']; simp, ?_, h.inTime, fun hsettle => (h.quiet hsettle).of_fault hfaultC⟩
    exact (injected_isNone_congr rfl hfaultC).mpr h.passes

/-- **A request that is answered at once** goes to the end. -/
theorem ordered_answered (h : Ordered p s₀ v l) {r : HttpRequest} {s : State} {response : FacilitatorResponse}
    (hs : start v.state r = (s, .inl response)) :
    Ordered p s₀ { v with state := s, clock := v.clock + 1, done := v.done ++ [⟨r, some response, v.clock, v.clock⟩] }
      (l ++ [⟨r, some response, v.clock, v.clock⟩]) := by
  have hhandle : handle p v.state r = (s, some response) := handle_of_answered hs
  refine ⟨h.perm.append_right _, explains_append.mpr ⟨h.explains, ?_, trivial⟩, ?_, ?_, ?_, h.reaches, ?_, ?_⟩
  · rw [h.after, hhandle]
  · rw [after_append, after_cons, after_nil, h.after, hhandle]
  · exact InTime.insert (by rw [List.append_nil]; exact h.inTime) h.started.2 (by simp)
  · intro k hk
    obtain ⟨A, B, rfl, hfits⟩ := h.placed k hk
    refine ⟨A, B ++ [⟨r, some response, v.clock, v.clock⟩], List.append_assoc A B _, hfits.passes, ?_,
      fun hsettle => ?_⟩
    · intro b hb
      rcases List.mem_append.mp hb with hb | hb
      · exact hfits.inTime b hb
      · rw [List.mem_singleton.mp hb]
        exact h.started.1 k hk
    · refine quietAll_append.mpr ⟨hfits.quiet hsettle, ?_, trivial⟩
      rw [← after_append, h.after]
      exact quiet_of_answered hs
  · exact fun k hk => Nat.le_succ_of_le (h.started.1 k hk)
  · intro d hd
    rcases List.mem_append.mp hd with hd | hd
    · exact Nat.le_succ_of_le (h.started.2 d hd)
    · rw [List.mem_singleton.mp hd]
      exact Nat.le_succ v.clock

/-- **A request that has to wait** could go to the end. -/
theorem ordered_waits (h : Ordered p s₀ v l) {r : HttpRequest} {payload requirements : Json}
    (hi : injected v.state r = none) (hr : Reaches r payload requirements) :
    Ordered p s₀ { v with clock := v.clock + 1, pending := v.pending ++ [⟨r, payload, requirements, v.clock⟩] } l := by
  refine ⟨h.perm, h.explains, h.after, h.inTime, ?_, ?_, ?_, fun d hd => Nat.le_succ_of_le (h.started.2 d hd)⟩
  · intro k hk
    rcases List.mem_append.mp hk with hk | hk
    · exact h.placed k hk
    · rw [List.mem_singleton.mp hk]
      refine ⟨l, [], (List.append_nil l).symm, ?_, by simp, fun _ => trivial⟩
      rwa [h.after]
  · intro k hk
    rcases List.mem_append.mp hk with hk | hk
    · exact h.reaches k hk
    · rw [List.mem_singleton.mp hk]
      exact hr
  · intro k hk
    rcases List.mem_append.mp hk with hk | hk
    · exact Nat.le_succ_of_le (h.started.1 k hk)
    · rw [List.mem_singleton.mp hk]
      exact Nat.le_succ v.clock

/-- **A request whose verification is over** goes to its place. -/
theorem ordered_verified (h : Ordered p s₀ v l) {i : ℕ} (hi : v.pending[i]? = some k) {t : State}
    {response : Option FacilitatorResponse}
    (ht : resume p v.state k.request k.payload k.requirements = (t, response)) :
    ∃ l', Ordered p s₀ ⟨t, v.clock + 1, v.pending.eraseIdx i,
      v.done ++ [⟨k.request, response, k.started, v.clock⟩]⟩ l' := by
  have hk : k ∈ v.pending := List.mem_of_getElem? hi
  obtain ⟨A, B, rfl, hfits⟩ := h.placed k hk
  have hr := h.reaches k hk
  obtain ⟨hresponse, -, hB, hafter⟩ := finish_at_place h.explains hfits hr rfl (h.after.symm ▸ ht)
  have hmem : ∀ d ∈ A ++ ⟨k.request, response, k.started, v.clock⟩ :: B,
      d = ⟨k.request, response, k.started, v.clock⟩ ∨ d ∈ A ++ B := by
    intro d hd
    simp only [List.mem_append, List.mem_cons] at hd ⊢
    tauto
  refine ⟨A ++ ⟨k.request, response, k.started, v.clock⟩ :: B, ?_, ?_, ?_, ?_, ?_, ?_, ?_, ?_⟩
  · exact (List.perm_middle.trans (h.perm.cons _)).trans (List.perm_append_singleton _ _).symm
  · exact explains_append.mpr ⟨(explains_append.mp h.explains).1, hresponse, hB⟩
  · rw [after_append, after_cons, hafter]
  · exact h.inTime.insert (fun a ha => h.started.2 a (List.mem_append_left B ha)) hfits.inTime
  · intro k' hk'
    have hk' : k' ∈ v.pending := List.mem_of_mem_eraseIdx hk'
    obtain ⟨A', B', heq, hfits'⟩ := h.placed k' hk'
    exact hfits'.insert hr hfits heq.symm rfl (h.started.1 k' hk')
  · exact fun k' hk' => h.reaches k' (List.mem_of_mem_eraseIdx hk')
  · exact fun k' hk' => Nat.le_succ_of_le (h.started.1 k' (List.mem_of_mem_eraseIdx hk'))
  · intro d hd
    rcases hmem d hd with rfl | hd
    · exact Nat.le_succ_of_le (h.started.1 k hk)
    · exact Nat.le_succ_of_le (h.started.2 d hd)

/-- **Every step keeps an order.** -/
theorem ordered_step {e : Event} (h : ∃ l, Ordered p s₀ v l) (hs : Server.step p v e = some v') :
    ∃ l, Ordered p s₀ v' l := by
  obtain ⟨l, h⟩ := h
  cases e with
  | arrive r =>
    cases hstart : start v.state r with
    | mk s out =>
      cases out with
      | inl response =>
        simp only [Server.step, hstart, Option.some.injEq] at hs
        exact ⟨_, hs ▸ ordered_answered h hstart⟩
      | inr payment =>
        obtain ⟨payload, requirements⟩ := payment
        simp only [Server.step, hstart, Option.some.injEq] at hs
        obtain ⟨rfl, hi, hr⟩ := start_eq_inr_iff.mp hstart
        exact ⟨l, hs ▸ ordered_waits h hi hr⟩
  | verified i =>
    obtain ⟨k, hk, hs⟩ := Option.bind_eq_some_iff.mp hs
    obtain ⟨l', h'⟩ := ordered_verified h hk rfl
    exact ⟨l', Option.some.inj hs ▸ h'⟩

/-- In every state that a run reaches there is an order. -/
theorem ordered_run {s : State} {es : List Event} (h : Runs.run (Server.step p) (Server.init s) es = some v) :
    ∃ l, Ordered p s v l := by
  refine Runs.run_invariant (P := fun v => ∃ l, Ordered p s v l) (fun _ _ _ => ordered_step) ?_ h
  exact ⟨[], ordered_init p s⟩

end Order

/-- **The facilitator is linearizable**: however its requests overlap, they are answered, and the ledger and the fault
come out, as if `handle` had taken them one at a time, each at some moment between the call for it and its answer. -/
theorem linearizable (p : Platform) (s : State) {es : List Event} {v : Server}
    (h : Runs.run (Server.step p) (Server.init s) es = some v) : Linearizable (handle p) s v.done v.state := by
  obtain ⟨l, hl⟩ := ordered_run h
  exact ⟨l, hl.perm, hl.explains, hl.after, hl.inTime⟩

/-! ## A nonce is settled once -/

section Once

instance (r : HttpRequest) : Decidable r.Settling := inferInstanceAs (Decidable (_ ∧ _))

/-- The request was answered with a settlement. -/
def Success (d : Done HttpRequest (Option FacilitatorResponse)) : Bool := d.request.Settling && succeeds d.response

theorem SameSpelling.symm {x y : HttpRequest} (h : SameSpelling x y) : SameSpelling y x := by
  have heq := Json.eq_of_strictEq h
  unfold SameSpelling at h ⊢
  rwa [← heq] at h ⊢

/-- A quiet request leaves the ledger as it is. -/
theorem Quiet.ledger {p : Platform} {s : State} {r : HttpRequest} (h : Quiet p s r) :
    (handle p s r).1.consumed = s.consumed ∧ (handle p s r).1.settled = s.settled := by
  have hself := congrArg Prod.fst (h s)
  rw [over_of_fault_eq rfl] at hself
  rw [hself]
  exact ⟨rfl, rfl⟩

/-- **What one request does to the ledger**: a settlement adds its nonce, which was not there, and its record. -/
theorem ledger_handle (p : Platform) (s : State) (r : HttpRequest) :
    (¬(r.Settling ∧ succeeds (handle p s r).2 = true) ∧ (handle p s r).1.consumed = s.consumed ∧
        (handle p s r).1.settled = s.settled) ∨
      (r.Settling ∧ succeeds (handle p s r).2 = true ∧ s.has r.nonce = false ∧
        (handle p s r).1.consumed = s.consumed ++ [r.nonce] ∧
        ∃ record, (handle p s r).1.settled = s.settled ++ [record]) := by
  by_cases hset : r.Settling
  · rcases handle_settling_cases p s hset with ⟨payload, requirements, message, domain, hgrants⟩ | ⟨hsame, hdec⟩
    · right
      rw [hgrants.handled]
      refine ⟨hset, success_granted (p := p) payload message.from_, hgrants.fresh, ?_, _, rfl⟩
      rw [State.grant, nonce_of_valid hgrants.valid]
    · refine Or.inl ⟨?_, by rw [hsame], by rw [hsame]⟩
      rintro ⟨-, hsucc⟩
      cases hresponse : (handle p s r).2 with
      | none =>
        rw [hresponse] at hsucc
        cases hsucc
      | some response =>
        rw [hresponse] at hdec hsucc
        exact absurd (hdec.success.symm.trans hsucc) (by decide)
  · left
    refine ⟨fun h => hset h.1, ?_⟩
    cases hs : start s r with
    | mk s' out =>
      cases out with
      | inl response => exact (quiet_of_answered (p := p) hs).ledger
      | inr payment =>
        obtain ⟨payload, requirements⟩ := payment
        obtain ⟨rfl, -, hr⟩ := start_eq_inr_iff.mp hs
        exact (quiet_of_path (fun hp => hset ⟨hr.1, hp⟩) s').ledger

theorem success_iff {p : Platform} {s : State} {d : Done HttpRequest (Option FacilitatorResponse)}
    (h : (handle p s d.request).2 = d.response) :
    Success d = true ↔ d.request.Settling ∧ succeeds (handle p s d.request).2 = true := by
  rw [Success, Bool.and_eq_true, decide_eq_true_iff, h]

/-- One after the other, the settlements have nonces of their own, none of which was in the ledger. -/
theorem once_of_explains {p : Platform} {s : State} {l : List (Done HttpRequest (Option FacilitatorResponse))}
    (h : Explains (handle p) s l) :
    (∀ d ∈ l.filter Success, s.has d.request.nonce = false) ∧
      (l.filter Success).Pairwise (fun a b => ¬SameSpelling a.request b.request) ∧
      (after (handle p) s l).settled.length = s.settled.length + (l.filter Success).length := by
  induction l generalizing s with
  | nil => simp
  | cons d l ih =>
    obtain ⟨hresponse, hrest⟩ := h
    obtain ⟨hfresh, hpairs, hcount⟩ := ih hrest
    rcases ledger_handle p s d.request with ⟨hno, hconsumed, hsettled⟩ |
      ⟨hset, hsucc, hnew, hconsumed, record, hsettled⟩
    · have hd : Success d = false := Bool.eq_false_iff.mpr fun hd => hno ((success_iff hresponse).mp hd)
      rw [List.filter_cons_of_neg (by simp [hd]), after_cons, hcount, hsettled]
      refine ⟨fun e he => ?_, hpairs, rfl⟩
      have hhas := hfresh e he
      rwa [State.has, hconsumed] at hhas
    · have hd : Success d = true := (success_iff hresponse).mpr ⟨hset, hsucc⟩
      have hsplit : ∀ e ∈ l.filter Success, s.has e.request.nonce = false ∧ ¬SameSpelling e.request d.request := by
        intro e he
        have hhas := hfresh e he
        rw [State.has, hconsumed, List.any_append, Bool.or_eq_false_iff] at hhas
        refine ⟨hhas.1, fun hsame => ?_⟩
        have hone : Json.strictEq e.request.nonce d.request.nonce = false := by simpa using hhas.2
        exact absurd (hone.symm.trans hsame) (by decide)
      rw [List.filter_cons_of_pos hd, after_cons, hcount, hsettled]
      refine ⟨?_, List.pairwise_cons.mpr ⟨fun e he hsame => (hsplit e he).2 hsame.symm, hpairs⟩, ?_⟩
      · intro e he
        rcases List.mem_cons.mp he with rfl | he
        · exact hnew
        · exact (hsplit e he).1
      · simp only [List.length_append, List.length_cons, List.length_nil]
        omega

end Once

/-- **However requests overlap, a nonce is settled once**: the requests that were answered with a settlement spell
their nonces differently, from one another and from the ledger at the start, and each of them left one record. -/
theorem nonce_settled_once (p : Platform) (s : State) {es : List Event} {v : Server}
    (h : Runs.run (Server.step p) (Server.init s) es = some v) :
    (∀ d ∈ v.done, Success d = true → s.has d.request.nonce = false) ∧
      (v.done.filter Success).Pairwise (fun a b => ¬SameSpelling a.request b.request) ∧
      v.state.settled.length = s.settled.length + (v.done.filter Success).length := by
  obtain ⟨l, hl⟩ := ordered_run h
  obtain ⟨hfresh, hpairs, hcount⟩ := once_of_explains hl.explains
  have hperm : (l.filter Success).Perm (v.done.filter Success) := hl.perm.filter Success
  refine ⟨?_, ?_, ?_⟩
  · intro d hd hsuccess
    exact hfresh d (List.mem_filter.mpr ⟨hl.perm.mem_iff.mpr hd, hsuccess⟩)
  · exact (hperm.pairwise_iff fun hab hba => hab hba.symm).mp hpairs
  · rw [← hl.after, hcount, hperm.length_eq]

namespace Sample

/-- Two settlements of one payment overlap; while they wait, the facilitator is made to fail. -/
def overlapping : List Event :=
  [.arrive first, .arrive first, .arrive ⟨"POST", "/fault", Json.ofProps [("mode", text "unavailable")], 5000⟩,
    .verified 1, .verified 0]

/-- Fault injection is available, and no fault is armed. -/
def controlled : State := ⟨[], some .none, []⟩

theorem run_overlapping : ∃ v, Runs.run (Server.step plainPlatform) (Server.init controlled) overlapping = some v ∧
    v.done.map (fun d => (d.started, d.finished, Success d)) = [(2, 2, false), (1, 3, true), (0, 4, false)] :=
  ⟨_, rfl, by decide⟩

end Sample

theorem linearizable_sample : ∃ v,
    Runs.run (Server.step plainPlatform) (Server.init Sample.controlled) Sample.overlapping = some v ∧
      Linearizable (handle plainPlatform) Sample.controlled v.done v.state := by
  obtain ⟨v, hv, -⟩ := Sample.run_overlapping
  exact ⟨v, hv, linearizable plainPlatform Sample.controlled hv⟩

theorem nonce_settled_once_sample : ∃ v,
    Runs.run (Server.step plainPlatform) (Server.init Sample.controlled) Sample.overlapping = some v ∧
      (∀ d ∈ v.done, Success d = true → Sample.controlled.has d.request.nonce = false) ∧
      (v.done.filter Success).Pairwise (fun a b => ¬SameSpelling a.request b.request) ∧
      v.state.settled.length = Sample.controlled.settled.length + (v.done.filter Success).length := by
  obtain ⟨v, hv, -⟩ := Sample.run_overlapping
  exact ⟨v, hv, nonce_settled_once plainPlatform Sample.controlled hv⟩

end Facilitator
