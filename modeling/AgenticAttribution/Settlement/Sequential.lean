import AgenticAttribution.Settlement.Progress

/-!
# Settlement.Sequential — one call of `Service.Settle` from start to end

`Service.settle` is the whole call, with no other call in between and every write succeeding; the facilitator may
answer anything or nothing.  `settle_runs` says that it is a run of the system.  `settles_or_402_iff` says when a
call ends in a settlement or in a refusal of the payment, and nothing else.
-/

namespace Settlement

open Attribution Fallible

/-- What one call meets on its way. -/
structure Env where
  /-- The clock, in nanoseconds. -/
  now : ℤ
  pick : ℕ
  lookup : Fate
  verify : Wire
  newID : Bytes
  settle : Wire
  confirmedAt : ℤ
  unmarshalVerify : Bytes → Except Bytes VerifyResponse
  unmarshalSettle : Bytes → Except Bytes SettleResponse

def Env.verifyAnswer (env : Env) : Except Err VerifyResponse := HTTPFacilitator.post env.unmarshalVerify env.verify

def Env.settleAnswer (env : Env) : Except Err SettleResponse := HTTPFacilitator.post env.unmarshalSettle env.settle

section Settle

variable (svc : Service)

/-- `Settle` from the facilitator's `Settle` on. -/
def Service.pay (db : DB) (p : PendingSettlement) (env : Env) : DB × Except Err Result :=
  match settleFailure env.settleAnswer with
  | .error e =>
    let (db, r) := Store.fail svc.driver db p.settlementID .done
    (db, .error (e.join r))
  | .ok response =>
    match Store.confirm svc.driver db p response.transaction env.confirmedAt .done with
    | (db, some e) => (db, .error e)
    | (db, none) => (db, .ok (p.result response))

/-- `Settle` from `Begin` on. -/
def Service.claim (db : DB) (p : PendingSettlement) (env : Env) : DB × Except Err Result :=
  match Store.begin svc.driver db p .done with
  | (db, some e) => (db, .error e)
  | (db, none) => svc.pay db p env

/-- `Settle` behind the listing. -/
def Service.check (db : DB) (req : Request) (listing : Listing) (env : Env) : DB × Except Err Result :=
  match req.checkListing listing with
  | some e => (db, .error e)
  | none =>
    match checkVerified env.verifyAnswer with
    | some e => (db, .error e)
    | none => svc.claim db (req.pending listing env.newID) env

/-- `Service.Settle`. -/
def Service.settle (db : DB) (req : Request) (env : Env) : DB × Except Err Result :=
  match svc.verify req env.now with
  | some e => (db, .error e)
  | none =>
    match Store.lookupListing svc.driver db req.assertion.productID req.merchantID env.pick env.lookup with
    | .error e => (db, .error e)
    | .ok listing => svc.check db req listing env

end Settle

/-! ## A run of the system -/

section Runs

variable {svc : Service}

/-- The steps of the last call can be taken to the end, to leave this database and this result. -/
def Ends (svc : Service) (s : Sys) (call : Call) (out : DB × Except Err Result) : Prop :=
  ∃ (as : List Action) (s' : Sys) (call' : Call),
    run svc (s.push call) as = some (s'.push call') ∧ s'.db = out.1 ∧ call'.pc = .returned out.2

theorem ends_of_returned {s : Sys} {call : Call} {result : Except Err Result} (hpc : call.pc = .returned result) :
    Ends svc s call (s.db, result) := ⟨[], s, call, rfl, rfl, hpc⟩

theorem ends_of_step {s t : Sys} {call next : Call} {a : Action} {out : DB × Except Err Result}
    (hstep : step svc (s.push call) a = some (t.push next)) (h : Ends svc t next out) : Ends svc s call out := by
  obtain ⟨as, s', call', hrun, hend⟩ := h
  exact ⟨a :: as, s', call', (Runs.run_cons_of hstep as).trans hrun, hend⟩

theorem ends_pay (env : Env) {s : Sys} {call : Call} {p : PendingSettlement} (hpc : call.pc = .claimed p) :
    Ends svc s call (svc.pay s.db p env) := by
  refine ends_of_step (step_settlePayment false env.settleAnswer hpc) ?_
  set s' := s.withExchange (call.req.exchange p false env.settleAnswer) with hs'
  have hdb : s.db = s'.db := rfl
  rw [hdb]
  unfold Service.pay
  cases hanswer : settleFailure env.settleAnswer with
  | error e =>
    obtain ⟨db, r, hfail⟩ : ∃ db r, Store.fail svc.driver s'.db p.settlementID .done = (db, r) := ⟨_, _, rfl⟩
    have hrefused : settlePc p env.settleAnswer = .refused p e := by simp only [settlePc, hanswer]
    simp only [hfail]
    exact ends_of_step (step_fail hrefused hfail) (ends_of_returned rfl)
  | ok response =>
    obtain ⟨db, r, hconf⟩ : ∃ db r,
      Store.confirm svc.driver s'.db p response.transaction env.confirmedAt .done = (db, r) := ⟨_, _, rfl⟩
    have hsettled : settlePc p env.settleAnswer = .settled p response := by simp only [settlePc, hanswer]
    simp only [hconf]
    cases r with
    | none => exact ends_of_step (step_confirm hsettled hconf) (ends_of_returned rfl)
    | some e => exact ends_of_step (step_confirm hsettled hconf) (ends_of_returned rfl)

theorem ends_claim (env : Env) {s : Sys} {call : Call} {listing : Listing} (hpc : call.pc = .accepted listing) :
    Ends svc s call (svc.claim s.db (call.req.pending listing env.newID) env) := by
  obtain ⟨db, r, hbegin⟩ : ∃ db r,
    Store.begin svc.driver s.db (call.req.pending listing env.newID) .done = (db, r) := ⟨_, _, rfl⟩
  refine ends_of_step (step_begin hpc hbegin) ?_
  simp only [Service.claim, hbegin]
  cases r with
  | none => exact ends_pay env rfl
  | some e => exact ends_of_returned rfl

theorem ends_check (env : Env) {s : Sys} {call : Call} (hpc : call.pc = .verified) {listing : Listing}
    (hfound : Store.lookupListing svc.driver s.db call.req.assertion.productID call.req.merchantID env.pick env.lookup
      = .ok listing) : Ends svc s call (svc.check s.db call.req listing env) := by
  refine ends_of_step (step_lookup env.pick env.lookup hpc) ?_
  simp only [Service.lookup, hfound, Service.check]
  cases call.req.checkListing listing with
  | some e => exact ends_of_returned rfl
  | none =>
    refine ends_of_step (step_verifyPayment env.verifyAnswer rfl) ?_
    cases hv : checkVerified env.verifyAnswer with
    | some e => exact ends_of_returned (by simp only [verifyPc, hv])
    | none => exact ends_claim env (by simp only [verifyPc, hv])

/-- **A call with nothing in between is a run of the system.** -/
theorem settle_runs (svc : Service) (s : Sys) (req : Request) (env : Env) :
    ∃ (as : List Action) (s' : Sys) (call : Call), run svc s (.enter req env.now :: as) = some (s'.push call) ∧
      s'.db = (svc.settle s.db req env).1 ∧ call.pc = .returned (svc.settle s.db req env).2 := by
  have hends : Ends svc s (svc.entered req env.now) (svc.settle s.db req env) := by
    unfold Service.settle Service.entered
    cases svc.verify req env.now with
    | some e => exact ends_of_returned rfl
    | none =>
      cases hfound : Store.lookupListing svc.driver s.db req.assertion.productID req.merchantID env.pick env.lookup with
      | ok listing => exact ends_check env rfl hfound
      | error e =>
        refine ends_of_step (step_lookup env.pick env.lookup rfl) ?_
        simp only [Service.lookup, hfound]
        exact ends_of_returned rfl
  obtain ⟨as, s', call, hrun, hend⟩ := hends
  exact ⟨as, s', call, hrun, hend⟩

end Runs

/-! ## The errors of each step -/

section Errors

theorem statusFor_congr {e e' : Err} (h : e.wraps = e'.wraps) : statusFor e = statusFor e' := by
  have his : ∀ x, e.is x = e'.is x := fun x => by simp only [GoError.is, h]
  simp only [statusFor, his]

/-- The error is not a refusal of the payment. -/
def Other (e : Err) : Prop := (statusFor e).1 ≠ 402

/-- A settlement refused for its payment is answered with 402, and nothing else is. -/
theorem other_of_among {xs : List Sentinel} {e : Err} (h : e.Among xs)
    (hxs : Sentinel.paymentInvalid ∉ xs ∧ Sentinel.settlementFailed ∉ xs) : Other e := by
  rcases h with h | ⟨x, hx, h⟩
  · have hplain : statusFor e = statusFor (GoError.plain []) := statusFor_congr h
    rw [Other, hplain]
    decide
  · rw [Other, statusFor_congr (show e.wraps = x.err.wraps from h)]
    cases x with
    | paymentInvalid => exact absurd hx hxs.1
    | settlementFailed => exact absurd hx hxs.2
    | _ => decide

theorem verify_among {svc : Service} {req : Request} {now : ℤ} {e : Err} (h : svc.verify req now = some e) :
    e.Among [.malformedSignature, .invalidSignature, .expired] := by
  obtain ⟨e', he', rfl⟩ := Option.map_eq_some_iff.mp h
  show e'.Among _
  simp only [Attribution.verify] at he'
  split_ifs at he' with hlead
  swap
  · obtain rfl := Option.some.inj he'
    exact GoError.among_of_mem (by decide) rfl
  split at he'
  · obtain rfl := Option.some.inj he'
    exact GoError.among_of_mem List.mem_cons_self rfl
  · split_ifs at he' with hsig
    swap
    · obtain rfl := Option.some.inj he'
      exact GoError.among_of_mem (by decide) rfl
    split at he'
    · obtain rfl := Option.some.inj he'
      exact GoError.among_plain _ _
    · split_ifs at he' with hnow
      obtain rfl := Option.some.inj he'
      exact GoError.among_of_mem (by decide) rfl

theorem attempt_among {fate : Fate} {stmt : ℕ} {pre : String} {e : Err} (xs : List Sentinel)
    (h : attempt fate stmt pre = .error e) : e.Among xs := by
  unfold attempt at h
  split at h
  · split_ifs at h with hi
    obtain rfl := Except.error.inj h
    exact GoError.among_plain xs _
  · cases h

theorem exec_among {α : Type} {d : Driver} {pre : String} {r : Except Violation α} {e : Err} (xs : List Sentinel)
    (h : exec d pre r = .error e) : e.Among xs := by
  cases r with
  | ok a => cases h
  | error v =>
    obtain rfl := Except.error.inj h
    exact GoError.among_plain xs _

theorem lookup_among {d : Driver} {db : DB} {productID merchantID : Bytes} {pick : ℕ} {fate : Fate} {e : Err}
    (h : Store.lookupListing d db productID merchantID pick fate = .error e) : e.Among [.listingNotFound] := by
  rcases bind_eq_error.mp h with h | ⟨-, -, h⟩
  · exact attempt_among _ h
  · split_ifs at h with htext
    · exact exec_among _ h
    · simp only at h
      split at h
      · obtain rfl := Except.error.inj h
        exact GoError.among_of_mem List.mem_cons_self rfl
      · cases h

theorem checkListing_among {req : Request} {listing : Listing} {e : Err} (h : req.checkListing listing = some e) :
    e.Among [.outOfStock, .currencyMismatch, .amountMismatch] := by
  unfold Request.checkListing at h
  split_ifs at h with hs hc hp
  · obtain rfl := Option.some.inj h
    exact GoError.among_of_mem (by decide) rfl
  · obtain rfl := Option.some.inj h
    exact GoError.among_of_mem (x := .currencyMismatch) (by decide) rfl
  · obtain rfl := Option.some.inj h
    exact GoError.among_of_mem (x := .amountMismatch) (by decide) rfl

theorem post_among {α : Type} {unmarshal : Bytes → Except Bytes α} {wire : Wire} {e : Err}
    (h : HTTPFacilitator.post unmarshal wire = .error e) : e.Among [.facilitatorUnavailable] := by
  cases wire with
  | unsent why =>
    obtain rfl := Except.error.inj h
    exact GoError.among_plain _ _
  | unreachable why =>
    obtain rfl := Except.error.inj h
    exact GoError.among_of_mem List.mem_cons_self rfl
  | cut why =>
    obtain rfl := Except.error.inj h
    exact GoError.among_of_mem List.mem_cons_self rfl
  | answered status body =>
    simp only [HTTPFacilitator.post] at h
    split_ifs at h with hstatus
    · obtain rfl := Except.error.inj h
      exact GoError.among_of_mem List.mem_cons_self rfl
    · split at h
      · obtain rfl := Except.error.inj h
        exact GoError.among_of_mem List.mem_cons_self rfl
      · cases h

theorem commit_done_eq {pre : String} {old db : DB} {body : Except Err DB} {e : Err}
    (h : commit .done pre old body = (db, some e)) : body = .error e := by
  cases body with
  | error e' =>
    simp only [commit, Prod.mk.injEq, Option.some.injEq] at h
    rw [h.2]
  | ok db' => cases h

theorem begin_among {d : Driver} {db db' : DB} {p : PendingSettlement} {e : Err}
    (h : Store.begin d db p .done = (db', some e)) : e.Among [.assertionReused] := by
  have h := commit_done_eq h
  simp only [Store.beginTx, attempt_done, ok_bind] at h
  rcases bind_eq_error.mp h with h | ⟨claimed, -, h⟩
  · exact exec_among _ h
  · cases claimed with
    | none =>
      obtain rfl := Except.error.inj h
      exact GoError.among_of_mem List.mem_cons_self rfl
    | some mid =>
      rcases bind_eq_error.mp h with h | ⟨after, -, h⟩
      · exact exec_among _ h
      · cases h

theorem confirm_among {d : Driver} {db db' : DB} {p : PendingSettlement} {txHash : Bytes} {now : ℤ} {e : Err}
    (h : Store.confirm d db p txHash now .done = (db', some e)) : e.Among [] := by
  have h := commit_done_eq h
  simp only [Store.confirmTx, attempt_done, ok_bind] at h
  split_ifs at h with htext hzero
  · exact exec_among _ h
  · obtain rfl := Except.error.inj h
    exact GoError.among_plain _ _
  · rcases bind_eq_error.mp h with h | ⟨entries, -, h⟩
    · exact exec_among _ h
    · rcases bind_eq_error.mp h with h | ⟨after, -, h⟩
      · exact exec_among _ h
      · cases h

end Errors

/-! ## What decides a call -/

section Outcome

variable {svc : Service}

/-- The call ended in a settlement, or in a refusal of the payment. -/
def Decided : Except Err Result → Prop
  | .ok _ => True
  | .error e => (statusFor e).1 = 402

/-- The facilitator answers the second request, and a payment that it settles is confirmed. -/
def Answers (env : Env) : Prop :=
  ∃ response, env.settleAnswer = .ok response ∧ (response.success = true → textOk response.transaction = true)

/-- The facilitator answers the first request, and a payment that it takes is claimed and answered. -/
def Taken (db : DB) (p : PendingSettlement) (env : Env) : Prop :=
  ∃ v, env.verifyAnswer = .ok v ∧ (v.isValid = true → db.Admits p ∧ Answers env)

/-- Only the payment is in question: the assertion verifies, the request matches a listing that is there, the
assertion can be claimed, and the facilitator answers. -/
def Smooth (svc : Service) (db : DB) (req : Request) (env : Env) : Prop :=
  svc.verify req env.now = none ∧ ∃ listing,
    Store.lookupListing svc.driver db req.assertion.productID req.merchantID env.pick env.lookup = .ok listing ∧
    req.checkListing listing = none ∧ Taken db (req.pending listing env.newID) env

theorem pay_decided {db : DB} {p : PendingSettlement} {env : Env} (hadm : db.Admits p) :
    Decided (svc.pay (db.claim p) p env).2 ↔ Answers env := by
  have hid : textOk p.settlementID = true := SettlementRow.textOk_settlementID hadm.texts
  unfold Service.pay Answers
  cases hanswer : env.settleAnswer with
  | error e =>
    have hother : Other e := other_of_among (post_among hanswer) (by decide)
    simp only [settleFailure, Store.fail_of_textOk svc.driver _ hid]
    constructor
    · intro h
      exact absurd h hother
    · rintro ⟨response, h, -⟩
      cases h
  | ok response =>
    by_cases hs : response.success = true
    · simp only [settleFailure, hs, Bool.not_true, Bool.false_eq_true, if_false]
      by_cases htx : textOk response.transaction = true
      · simp only [Store.confirm_of_confirmable svc.driver (confirmable_claim hadm htx)]
        exact ⟨fun _ => ⟨response, rfl, fun _ => htx⟩, fun _ => trivial⟩
      · obtain ⟨db', r, hconf⟩ : ∃ db' r, Store.confirm svc.driver (db.claim p) p response.transaction
          env.confirmedAt .done = (db', r) := ⟨_, _, rfl⟩
        have hr : r ≠ none := by
          rcases Store.confirm_cases hconf with ⟨-, hr⟩ | ⟨hconfirmable, -⟩
          · exact hr
          · have htexts := hconfirmable.texts
            simp only [Bool.and_eq_true] at htexts
            exact absurd htexts.2 htx
        obtain ⟨e, rfl⟩ := Option.ne_none_iff_exists'.mp hr
        have hother : Other e := other_of_among (confirm_among hconf) (by decide)
        simp only [hconf]
        constructor
        · intro h
          exact absurd h hother
        · rintro ⟨response', h, htx'⟩
          obtain rfl := Except.ok.inj h
          exact absurd (htx' hs) htx
    · simp only [settleFailure, hs, Bool.not_false, if_true, Store.fail_of_textOk svc.driver _ hid]
      exact ⟨fun _ => ⟨response, rfl, fun h => absurd h hs⟩, fun _ => rfl⟩

theorem claim_decided {db : DB} {p : PendingSettlement} {env : Env} :
    Decided (svc.claim db p env).2 ↔ db.Admits p ∧ Answers env := by
  obtain ⟨db', r, hbegin⟩ : ∃ db' r, Store.begin svc.driver db p .done = (db', r) := ⟨_, _, rfl⟩
  by_cases hadm : db.Admits p
  · simp only [Service.claim, Store.begin_of_admits svc.driver hadm, pay_decided hadm, hadm, true_and]
  · have hr : r ≠ none := by
      rcases Store.begin_cases hbegin with ⟨-, hr⟩ | ⟨h, -⟩
      · exact hr
      · exact absurd h hadm
    obtain ⟨e, rfl⟩ := Option.ne_none_iff_exists'.mp hr
    have hother : Other e := other_of_among (begin_among hbegin) (by decide)
    simp only [Service.claim, hbegin, hadm, false_and, iff_false]
    exact hother

theorem check_decided {db : DB} {req : Request} {listing : Listing} {env : Env} :
    Decided (svc.check db req listing env).2 ↔
      req.checkListing listing = none ∧ Taken db (req.pending listing env.newID) env := by
  unfold Service.check Taken
  cases hcheck : req.checkListing listing with
  | some e =>
    have hother : Other e := other_of_among (checkListing_among hcheck) (by decide)
    simp only [reduceCtorEq, false_and, iff_false]
    exact hother
  | none =>
    cases hanswer : env.verifyAnswer with
    | error e =>
      have hother : Other e := other_of_among (post_among hanswer) (by decide)
      simp only [checkVerified, reduceCtorEq, false_and, exists_false, and_false, iff_false]
      exact hother
    | ok v =>
      by_cases hv : v.isValid = true
      · simp only [checkVerified, hv, Bool.not_true, Bool.false_eq_true, if_false, claim_decided]
        constructor
        · intro h
          exact ⟨trivial, v, rfl, fun _ => h⟩
        · rintro ⟨-, v', h, htaken⟩
          obtain rfl := Except.ok.inj h
          exact htaken hv
      · simp only [checkVerified, hv, Bool.not_false, if_true]
        exact ⟨fun _ => ⟨trivial, v, rfl, fun h => absurd h hv⟩, fun _ => rfl⟩

/-- **A call is settled or refused for its payment** exactly if nothing but the payment is in question. -/
theorem settle_decided {db : DB} {req : Request} {env : Env} :
    Decided (svc.settle db req env).2 ↔ Smooth svc db req env := by
  unfold Service.settle Smooth
  cases hverify : svc.verify req env.now with
  | some e =>
    have hother : Other e := other_of_among (verify_among hverify) (by decide)
    simp only [reduceCtorEq, false_and, iff_false]
    exact hother
  | none =>
    cases hfound : Store.lookupListing svc.driver db req.assertion.productID req.merchantID env.pick env.lookup with
    | error e =>
      have hother : Other e := other_of_among (lookup_among hfound) (by decide)
      simp only [reduceCtorEq, false_and, exists_false, and_false, iff_false]
      exact hother
    | ok listing =>
      simp only [check_decided, true_and]
      constructor
      · intro h
        exact ⟨listing, rfl, h⟩
      · rintro ⟨listing', h, htaken⟩
        obtain rfl := Except.ok.inj h
        exact htaken

/-- A call leaves the journal alone. -/
theorem settle_rejected (svc : Service) (db : DB) (req : Request) (env : Env) :
    (svc.settle db req env).1.rejected = db.rejected := by
  have hpay : ∀ (db : DB) (p : PendingSettlement), (svc.pay db p env).1.rejected = db.rejected := by
    intro db p
    unfold Service.pay
    split
    · obtain ⟨db', r, hfail⟩ : ∃ db' r, Store.fail svc.driver db p.settlementID .done = (db', r) := ⟨_, _, rfl⟩
      simp only [hfail]
      rcases Store.fail_cases hfail with ⟨rfl, -⟩ | rfl <;> rfl
    · rename_i response _
      obtain ⟨db', r, hconf⟩ : ∃ db' r,
        Store.confirm svc.driver db p response.transaction env.confirmedAt .done = (db', r) := ⟨_, _, rfl⟩
      have hrows : db'.rejected = db.rejected := by
        rcases Store.confirm_cases hconf with ⟨rfl, -⟩ | ⟨-, rfl⟩ <;> rfl
      simp only [hconf]
      cases r <;> exact hrows
  unfold Service.settle
  split
  · rfl
  split
  · rfl
  unfold Service.check
  split
  · rfl
  split
  · rfl
  rename_i listing _ _ _ _ _
  unfold Service.claim
  obtain ⟨db', r, hbegin⟩ : ∃ db' r,
    Store.begin svc.driver db (req.pending listing env.newID) .done = (db', r) := ⟨_, _, rfl⟩
  have hrows : db'.rejected = db.rejected := by
    rcases Store.begin_cases hbegin with ⟨rfl, -⟩ | ⟨-, rfl⟩ <;> rfl
  simp only [hbegin]
  cases r with
  | some e => exact hrows
  | none => exact (hpay db' _).trans hrows

end Outcome

end Settlement
