import AgenticAttribution.Settlement.Refusals
import AgenticAttribution.Settlement.Watch

/-!
# Settlement.Cancelled — callers that do not wait

`handleSettle` hands the context of its request to every step of `Service.Settle`, `Fail` included, and the context
is cancelled when the caller disconnects or times out.  The database is there for whoever comes with a context that
is alive; `fails_iff` says when the row of a settlement that the facilitator did not settle ends as failed.
-/

namespace Settlement

open Attribution

/-! ## The context of a call -/

/-- When the context of a call is cancelled, seen from its last two steps. -/
inductive Context where
  /-- Not before `Settle` returns. -/
  | lasting
  /-- Before `facilitator.Settle` is called. -/
  | endsBeforePayment
  /-- While `facilitator.Settle` runs. -/
  | endsDuringPayment
  /-- Between the answer of the facilitator and `Fail`. -/
  | endsBeforeFail
  /-- While `Fail` runs, before or after its update takes effect. -/
  | endsDuringFail (effective : Bool)
  deriving DecidableEq

def contextCanceled : Bytes := Utf8.str "context canceled"

/-- What becomes of the request to the facilitator: `http.Client` sends nothing under a context that has ended. -/
def Context.wire (ctx : Context) (wire : Wire) : Wire :=
  match ctx with
  | .endsBeforePayment => .unreachable contextCanceled
  | _ => wire

/-- What becomes of the update of `Fail`: `pgxpool` runs nothing under a context that has ended, and the database is
there for one that has not. -/
def Context.failFate : Context → Fate
  | .lasting => .done
  | .endsBeforePayment | .endsDuringPayment | .endsBeforeFail | .endsDuringFail false => .lost 1 contextCanceled
  | .endsDuringFail true => .unacknowledged contextCanceled

/-- The context is alive until the update of `Fail` has taken effect. -/
def Context.reachesFail : Context → Bool
  | .lasting | .endsDuringFail true => true
  | _ => false

theorem Context.spares_failFate (ctx : Context) : ctx.failFate.spares 1 = ctx.reachesFail := by
  cases ctx with
  | endsDuringFail effective => cases effective <;> rfl
  | _ => rfl

/-! ## The last steps of a call -/

section Steps

variable {svc : Service} {s t : Sys} {c : ℕ} {call : Call} {p : PendingSettlement}

theorem settlePayment_step {moved : Bool} {answer : Except Err SettleResponse} (hc : s.calls[c]? = some call)
    (hpc : call.pc = .claimed p) (h : step svc s (.settlePayment c moved answer) = some t) :
    t.calls[c]? = some { call with pc := settlePc p answer } := by
  obtain ⟨other, q, hc', hpc', rfl⟩ := step_settlePayment_iff.mp h
  obtain rfl := Option.some.inj (hc.symm.trans hc')
  obtain rfl := Pc.claimed.inj (hpc.symm.trans hpc')
  have hc' : ({ s with exchanges := s.exchanges ++ [call.req.exchange p moved answer] } : Sys).calls[c]? = some call :=
    hc
  rw [get_put hc', if_pos rfl]

theorem fail_step {fate : Fate} (hc : s.calls[c]? = some call) (h : step svc s (.fail c fate) = some t) :
    ∃ q err, call.pc = .refused q err ∧ t.db = (Store.fail svc.driver s.db q.settlementID fate).1 := by
  obtain ⟨other, q, err, db, r, hc', hpc, hf, rfl⟩ := step_fail_iff.mp h
  obtain rfl := Option.some.inj (hc.symm.trans hc')
  exact ⟨q, err, hpc, (congrArg Prod.fst hf).symm⟩

/-- The steps of the others leave a call alone, however many they are. -/
theorem get_of_run {as : List Action} (hcaller : ∀ a ∈ as, a.caller ≠ some c) (hc : s.calls[c]? = some call)
    (h : run svc s as = some t) : t.calls[c]? = some call := by
  induction as generalizing s with
  | nil =>
    obtain rfl := Option.some.inj h
    exact hc
  | cons a as ih =>
    obtain ⟨u, hu, ht⟩ := Runs.run_cons_eq_some.mp h
    have hcu := get_of_step (hcaller a List.mem_cons_self) hc hu
    exact ih (fun b hb => hcaller b (List.mem_cons_of_mem a hb)) hcu ht

end Steps

/-! ## What `Fail` leaves -/

section Fail

variable {s : Sys} {c : ℕ} {p : PendingSettlement}

/-- The settlement `p` has one row, and it is failed. -/
def DB.Failed (db : DB) (p : PendingSettlement) : Prop :=
  p.row.fail ∈ db.settlements ∧ ∀ r ∈ db.settlements, r.settlementID = p.settlementID → r = p.row.fail

/-- The settlement `p` has one row, and it is pending. -/
def DB.Pending (db : DB) (p : PendingSettlement) : Prop :=
  p.row ∈ db.settlements ∧ ∀ r ∈ db.settlements, r.settlementID = p.settlementID → r = p.row

theorem pending_of_holds (h : Inv s) (hp : s.Holds c p) : s.db.Pending p :=
  ⟨h.pending c p hp, fun _ hr hid => h.books.ids.eq_of_key_eq hr (h.pending c p hp) hid⟩

theorem failed_of_pending {db : DB} (h : db.Pending p) : (db.fail p.settlementID).Failed p := by
  have hat : pendingAt p.settlementID p.row = true := pendingAt_iff.mpr ⟨rfl, rfl⟩
  refine ⟨Table.mem_update_of h.1 hat, ?_⟩
  intro r hr hid
  obtain ⟨q, hq, hqr⟩ := Table.mem_update.mp hr
  have hqid : q.settlementID = p.settlementID := by
    rw [← hid, ← hqr]
    split_ifs <;> rfl
  rw [h.2 q hq hqid, if_pos hat] at hqr
  exact hqr.symm

theorem DB.Pending.not_failed {db : DB} (h : db.Pending p) : ¬db.Failed p := by
  intro hfailed
  have hrow := hfailed.2 p.row h.1 rfl
  have hstatus := congrArg SettlementRow.status hrow
  cases hstatus

/-- `Fail` under a context that lasts long enough fails the row, and under any other leaves it pending. -/
theorem failed_iff_reachesFail (svc : Service) (hi : Inv s) (hp : s.Holds c p) (ctx : Context) :
    if ctx.reachesFail then (Store.fail svc.driver s.db p.settlementID ctx.failFate).1.Failed p
    else (Store.fail svc.driver s.db p.settlementID ctx.failFate).1.Pending p := by
  have hpending := pending_of_holds hi hp
  have htext : textOk p.settlementID = true :=
    SettlementRow.textOk_settlementID (hi.books.texts p.row hpending.1)
  rw [fail_fst htext, ctx.spares_failFate]
  by_cases hreach : ctx.reachesFail = true
  · rw [if_pos hreach, if_pos hreach]
    exact failed_of_pending hpending
  · rw [if_neg hreach, if_neg hreach]
    exact hpending

/-- **When a settlement that the facilitator did not settle ends as failed**: exactly if its caller waits until the
update of `Fail` has taken effect; if not, it ends as pending.  Of what other calls do between the answer and the
update, nothing matters. -/
theorem fails_iff (svc : Service) (catalog : Catalog) {as others : List Action} {s u v t : Sys} {c : ℕ} {call : Call}
    {p : PendingSettlement} {moved : Bool} {unmarshal : Bytes → Except Bytes SettleResponse} {wire : Wire}
    {ctx : Context} (hreach : run svc (Sys.init catalog) as = some s) (hc : s.calls[c]? = some call)
    (hclaimed : call.pc = .claimed p)
    (hpay : step svc s (.settlePayment c moved (HTTPFacilitator.post unmarshal (ctx.wire wire))) = some u)
    (hothers : run svc u others = some v) (hcaller : ∀ a ∈ others, a.caller ≠ some c)
    (hfail : step svc v (.fail c ctx.failFate) = some t) :
    (t.db.Failed p ↔ ctx.reachesFail = true) ∧ (¬t.db.Failed p → t.db.Pending p) := by
  have hcv := get_of_run hcaller (settlePayment_step hc hclaimed hpay) hothers
  obtain ⟨q, err, hpc, hdb⟩ := fail_step hcv hfail
  have hholding := (holding_settlePc p (HTTPFacilitator.post unmarshal (ctx.wire wire))).1
  have hq : q = p := by
    simp only at hpc
    rw [hpc] at hholding
    exact Option.some.inj hholding
  have hi : Inv v := inv_run (inv_step (inv_reachable hreach) hpay) hothers
  have hend := failed_iff_reachesFail svc hi ⟨_, hcv, hholding⟩ ctx
  rw [hdb, hq]
  by_cases hreaches : ctx.reachesFail = true
  · rw [if_pos hreaches] at hend
    exact ⟨iff_of_true hend hreaches, fun h => absurd hend h⟩
  · rw [if_neg hreaches] at hend
    exact ⟨iff_of_false hend.not_failed hreaches, fun _ => hend⟩

end Fail

namespace Sample

/-- The sample settlement between its claim and its payment. -/
def claimedState : Sys :=
  ((Sys.init catalog).withDB ((DB.empty catalog).claim pending)).push
    ⟨request, 0, some (listingRow.listing, pending), .claimed pending⟩

theorem run_claimedState :
    run service (Sys.init catalog) (beginActions request 0 0 verified settlementID 0) = some claimedState :=
  run_begins (s := Sys.init catalog) claimable

/-- A decoder that takes nothing. -/
def noBody (_ : Bytes) : Except Bytes SettleResponse := .error (Utf8.str "unexpected end of JSON input")

/-- The facilitator's response breaks off under a context. -/
def broken (ctx : Context) : Except Err SettleResponse := HTTPFacilitator.post noBody (ctx.wire (.cut contextCanceled))

/-- The sample settlement when its payment broke off. -/
def brokenState (ctx : Context) (err : Err) : Sys :=
  (((Sys.init catalog).withDB ((DB.empty catalog).claim pending)).withExchange
      (request.exchange pending false (broken ctx))).push
    ⟨request, 0, some (listingRow.listing, pending), .refused pending err⟩

theorem step_broken (ctx : Context) :
    ∃ err, step service claimedState (.settlePayment 0 false (broken ctx)) = some (brokenState ctx err) := by
  obtain ⟨err, herr⟩ : ∃ err, settlePc pending (broken ctx) = .refused pending err := by
    cases ctx <;> exact ⟨_, rfl⟩
  refine ⟨err, ?_⟩
  unfold brokenState
  rw [← herr]
  exact step_settlePayment false (broken ctx) rfl

/-- What `Fail` leaves of the sample settlement under a context. -/
def afterFail (ctx : Context) : DB :=
  (Store.fail service.driver ((DB.empty catalog).claim pending) settlementID ctx.failFate).1

theorem step_fail_broken (ctx : Context) (err : Err) :
    ∃ t, step service (brokenState ctx err) (.fail 0 ctx.failFate) = some t ∧ t.db = afterFail ctx :=
  ⟨_, step_fail rfl rfl, rfl⟩

end Sample

theorem fails_iff_sample : ∃ u t : Sys, step Sample.service Sample.claimedState
      (.settlePayment 0 false (Sample.broken .lasting)) = some u ∧
    step Sample.service u (.fail 0 .done) = some t ∧
    (t.db.Failed Sample.pending ↔ Context.lasting.reachesFail = true) := by
  obtain ⟨err, hpay⟩ := Sample.step_broken .lasting
  obtain ⟨t, hfail, -⟩ := Sample.step_fail_broken .lasting err
  have hothers : run Sample.service (Sample.brokenState .lasting err) [] = some (Sample.brokenState .lasting err) := rfl
  refine ⟨_, t, hpay, hfail, ?_⟩
  exact (fails_iff Sample.service Sample.catalog Sample.run_claimedState rfl rfl hpay hothers (by simp) hfail).1

/-- The caller disconnects while the facilitator is at work: the response breaks off, `Fail` runs nothing, and the
row stays pending. -/
theorem disconnected_stays_pending :
    run Sample.service (Sys.init Sample.catalog)
        (beginActions Sample.request 0 0 Sample.verified Sample.settlementID 0) = some Sample.claimedState ∧
      ∃ u t, step Sample.service Sample.claimedState
          (.settlePayment 0 false (Sample.broken .endsDuringPayment)) = some u ∧
        step Sample.service u (.fail 0 Context.endsDuringPayment.failFate) = some t ∧
        t.db.Pending Sample.pending ∧ ¬t.db.Failed Sample.pending := by
  obtain ⟨err, hpay⟩ := Sample.step_broken .endsDuringPayment
  obtain ⟨t, hfail, hdb⟩ := Sample.step_fail_broken .endsDuringPayment err
  have hpending : t.db.Pending Sample.pending := by
    rw [hdb]
    refine ⟨List.mem_cons_self, ?_⟩
    intro r hr _
    exact List.mem_singleton.mp hr
  exact ⟨Sample.run_claimedState, _, t, hpay, hfail, hpending, hpending.not_failed⟩

end Settlement
