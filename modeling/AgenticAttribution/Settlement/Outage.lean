import AgenticAttribution.Settlement.Payments
import AgenticAttribution.Settlement.Progress

/-!
# Settlement.Outage — failed settlements and executed transfers

A failed settlement is meant to be one that nobody got paid for.  The service marks it so whenever
`facilitator.Settle` does not come back as a success, and an error also stands for a response that was lost behind
an executed transfer.  `failed_unpaid` gives the facilitators and networks for which the reading is right.
-/

namespace Settlement

open Attribution

/-- A failed settlement is one under whose authorization nothing moved, and one whose transfer was executed is
confirmed or pending. -/
structure NobodyPaid (s : Sys) : Prop where
  failed : ∀ r ∈ s.db.settlements, r.status = .failed →
    ∃ x ∈ s.exchanges, x.settlementID = r.settlementID ∧
      ∀ y ∈ s.exchanges, y.payload.authorization = x.payload.authorization → y.moved = false
  executed : ∀ x ∈ s.exchanges, x.moved = true → ∀ r ∈ s.db.settlements, r.settlementID = x.settlementID →
    r.status = .confirmed ∨ r.status = .pending

/-- The response to the invocation came whole, with status 200, and what is left of its body after the limit
decodes to a success. -/
def Delivered (unmarshal : Bytes → Except Bytes SettleResponse) (x : Exchange) : Prop :=
  ∃ body response, x.answer = HTTPFacilitator.post unmarshal (.answered 200 body) ∧
    unmarshal (body.take maxFacilitatorResponseBytes) = .ok response ∧ response.success = true

theorem Delivered.succeeded {unmarshal : Bytes → Except Bytes SettleResponse} {x : Exchange}
    (h : Delivered unmarshal x) : succeeded x.answer = true := by
  obtain ⟨body, response, hanswer, hbody, hsuccess⟩ := h
  rw [hanswer, HTTPFacilitator.post_eq_ok_iff.mpr ⟨body, rfl, hbody⟩]
  exact hsuccess

/-- **A failed settlement means nobody got paid**, in every state of every run in which each invocation under an
authorization whose transfer was executed has its success delivered. -/
theorem failed_unpaid (svc : Service) (catalog : Catalog) (unmarshal : Bytes → Except Bytes SettleResponse)
    {as : List Action} {s : Sys} (h : run svc (Sys.init catalog) as = some s)
    (hdelivered : ∀ x ∈ s.exchanges, ∀ y ∈ s.exchanges, x.moved = true →
      y.payload.authorization = x.payload.authorization → Delivered unmarshal y) : NobodyPaid s := by
  have hi : Inv s := inv_reachable h
  have hp : Payments s := payments_run h
  refine ⟨?_, ?_⟩
  · intro r hr hs
    obtain ⟨x, hx, hid, hbad⟩ := hp.rows r hr false (by rw [hs]; rfl)
    refine ⟨x, hx, hid, ?_⟩
    intro y hy hauth
    by_contra hmoved
    have hgood := (hdelivered y hy x hx (Bool.not_eq_false _ ▸ hmoved) hauth.symm).succeeded
    rw [hbad] at hgood
    cases hgood
  · intro x hx hmoved r hr hid
    have hgood := (hdelivered x hx x hx hmoved rfl).succeeded
    cases hs : r.status with
    | confirmed => exact Or.inl rfl
    | pending => exact Or.inr rfl
    | reversed => exact absurd hs (hi.books.statuses r hr)
    | failed =>
      -- the one invocation for the row did not succeed
      obtain ⟨y, hy, hid', hbad⟩ := hp.rows r hr false (by rw [hs]; rfl)
      have hxy : x = y := exchange_unique hp hi hx hy (hid.symm.trans hid'.symm)
      rw [← hxy, hgood] at hbad
      cases hbad

namespace Sample

/-- A decoder that takes one body. -/
def unmarshal (body : Bytes) : Except Bytes SettleResponse :=
  if body = Utf8.str "settled" then .ok response else .error (Utf8.str "invalid character")

theorem delivered : Delivered unmarshal (request.exchange pending true (.ok response)) :=
  ⟨Utf8.str "settled", response, by decide, by decide, rfl⟩

/-- What may become of the response to an executed transfer. -/
def outages : List Wire :=
  [.unreachable (Utf8.str "timeout"), .cut (Utf8.str "unexpected EOF"), .answered 502 (Utf8.str "settled"),
    .answered 200 (Utf8.str "<html>")]

/-- The facilitator executes the transfer, and its response meets an outage. -/
def outageActions (wire : Wire) : List Action :=
  beginActions request 0 0 verified settlementID 0 ++ failActions 0 true (HTTPFacilitator.post unmarshal wire)

/-- The state with the failed row of a payment that was executed. -/
def failedState (wire : Wire) (err : Err) : Sys :=
  ⟨((DB.empty catalog).claim pending).fail settlementID,
    [⟨request, 0, some (listingRow.listing, pending), .returned (.error err)⟩], [],
    [request.exchange pending true (HTTPFacilitator.post unmarshal wire)]⟩

theorem run_outage {wire : Wire} {err : Err}
    (h : settleFailure (HTTPFacilitator.post unmarshal wire) = .error err) :
    run service (Sys.init catalog) (outageActions wire) = some (failedState wire err) :=
  run_fails (s := Sys.init catalog) claimable h

theorem not_nobodyPaid (wire : Wire) (err : Err) : ¬NobodyPaid (failedState wire err) := by
  intro h
  rcases h.executed (request.exchange pending true (HTTPFacilitator.post unmarshal wire)) List.mem_cons_self rfl
    pending.row.fail List.mem_cons_self rfl with hs | hs <;> cases hs

/-- After an executed transfer whose response was lost, broke off, came with an error status or did not decode, the
settlement is failed. -/
theorem failed_of_outage {wire : Wire} (hw : wire ∈ outages) : ∃ s,
    run service (Sys.init catalog) (outageActions wire) = some s ∧ (∃ x ∈ s.exchanges, x.moved = true) ∧
      ¬NobodyPaid s := by
  have herr : ∃ err, settleFailure (HTTPFacilitator.post unmarshal wire) = .error err := by
    simp only [outages, List.mem_cons, List.not_mem_nil, or_false] at hw
    rcases hw with rfl | rfl | rfl | rfl <;> exact ⟨_, rfl⟩
  obtain ⟨err, herr⟩ := herr
  exact ⟨_, run_outage herr, ⟨_, List.mem_cons_self, rfl⟩, not_nobodyPaid wire err⟩

end Sample

namespace Sample

/-- A purchase that is paid for, and a second one that is not. -/
def mixedActions : List Action :=
  actions ++ (beginActions second 0 0 verified secondID 1 ++ failActions 1 false (.ok unsettled))

theorem claimable_behind : Claimable service final.db second 0 listingRow.listing 0 verified secondID :=
  claimable_second rfl rfl (by decide)

theorem run_mixed : ∃ s, run service (Sys.init catalog) mixedActions = some s ∧
    s.db.settlements.map (·.status) = [.confirmed, .failed] ∧
    s.exchanges = [request.exchange pending true (.ok response),
      second.exchange (second.pending listingRow.listing secondID) false (.ok unsettled)] := by
  have hfails : run service final (beginActions second 0 0 verified secondID 1 ++ failActions 1 false (.ok unsettled))
      = some _ := run_fails claimable_behind rfl
  exact ⟨_, Runs.run_append_eq_some.mpr ⟨_, run_actions, hfails⟩, by decide, rfl⟩

end Sample

/-- The second settlement is failed, and nobody got paid for it. -/
theorem failed_unpaid_sample : ∃ s, run Sample.service (Sys.init Sample.catalog) Sample.mixedActions = some s ∧
    s.db.settlements.map (·.status) = [.confirmed, .failed] ∧ NobodyPaid s := by
  obtain ⟨s, hrun, hstatus, hexchanges⟩ := Sample.run_mixed
  refine ⟨s, hrun, hstatus, failed_unpaid Sample.service Sample.catalog Sample.unmarshal hrun ?_⟩
  rw [hexchanges]
  intro x hx y hy hmoved hauth
  simp only [List.mem_cons, List.not_mem_nil, or_false] at hx hy
  rcases hy with rfl | rfl
  · exact Sample.delivered
  · -- the payment that did not go through is under an authorization of its own
    rcases hx with rfl | rfl
    · exact absurd hauth (by decide)
    · cases hmoved

/-- The response to an executed transfer breaks off, and the settlement is failed. -/
theorem failed_though_paid : ∃ s,
    run Sample.service (Sys.init Sample.catalog) (Sample.outageActions (.cut (Utf8.str "unexpected EOF"))) = some s ∧
      (∃ x ∈ s.exchanges, x.moved = true) ∧ ¬NobodyPaid s :=
  Sample.failed_of_outage (by decide)

end Settlement
