import AgenticAttribution.Settlement.Invariants

/-!
# Settlement.Payments — what the rows say about the payments

A settlement is confirmed only behind an invocation of `facilitator.Settle` that said so, and failed only behind
one that did not (`Payments`).  The invariant says the same of the calls on their way there.  There is one
invocation for a settlement (`exchange_unique`), so a row determines the payment behind it.
-/

namespace Settlement

open Attribution

/-- What the facilitator has told a call, if it has told it anything: for which settlement, and whether it
succeeded. -/
def Pc.outcome : Pc → Option (Bytes × Bool)
  | settled p _ => some (p.settlementID, true)
  | refused p _ => some (p.settlementID, false)
  | returned (.ok result) | answered (.ok result) => some (result.settlementID, true)
  | _ => none

/-- What a row tells about its payment. -/
def Status.outcome : Status → Option Bool
  | confirmed => some true
  | failed => some false
  | _ => none

/-- The payment of the request was invoked for the settlement `id`, with or without success. -/
def Invoked (exchanges : List Exchange) (req : Request) (id : Bytes) (good : Bool) : Prop :=
  ∃ x ∈ exchanges, x.settlementID = id ∧ x.payload = req.paymentPayload ∧
    x.requirements = req.paymentRequirements ∧ succeeded x.answer = good

/-- An invocation for the row ended so. -/
def Paid (exchanges : List Exchange) (r : SettlementRow) (good : Bool) : Prop :=
  ∃ x ∈ exchanges, x.settlementID = r.settlementID ∧ succeeded x.answer = good

/-- The row that an invocation pays for. -/
def PaysFor (db : DB) (x : Exchange) : Prop :=
  ∃ r ∈ db.settlements, r.assertionID = x.assertionID ∧ r.settlementID = x.settlementID

structure Payments (s : Sys) : Prop where
  calls : ∀ call ∈ s.calls, ∀ id good, call.pc.outcome = some (id, good) → Invoked s.exchanges call.req id good
  rows : ∀ r ∈ s.db.settlements, ∀ good, r.status.outcome = some good → Paid s.exchanges r good
  exchanges : ∀ x ∈ s.exchanges, PaysFor s.db x

section Steps

variable {svc : Service} {s t : Sys} {a : Action} {c : ℕ} {call new : Call} {p : PendingSettlement}

theorem payments_init (catalog : Catalog) : Payments (Sys.init catalog) := by
  refine ⟨?_, ?_, ?_⟩
  · intro call hc
    cases hc
  · intro r hr
    cases hr
  · intro x hx
    cases hx

/-- A step of one call over a database that keeps the rows. -/
theorem Payments.put (h : Payments s)
    (hnew : ∀ id good, new.pc.outcome = some (id, good) → Invoked s.exchanges new.req id good) (db : DB)
    (hrows : ∀ r ∈ db.settlements, ∀ good, r.status.outcome = some good → Paid s.exchanges r good)
    (hkeep : ∀ x, PaysFor s.db x → PaysFor db x) : Payments ({ s with db }.put c new) := by
  refine ⟨?_, hrows, fun x hx => hkeep x (h.exchanges x hx)⟩
  intro call' hc'
  rcases mem_put hc' with rfl | hc'
  · exact hnew
  · exact h.calls call' hc'

/-- A call that has heard nothing new. -/
theorem Payments.silent (h : Payments s) (hnew : new.pc.outcome = none) : Payments (s.put c new) := by
  refine h.put ?_ s.db h.rows fun _ => id
  intro id good he
  rw [hnew] at he
  cases he

theorem Invoked.append {xs : List Exchange} {req : Request} {id : Bytes} {good : Bool} (h : Invoked xs req id good)
    (ys : List Exchange) : Invoked (xs ++ ys) req id good := by
  obtain ⟨x, hx, hrest⟩ := h
  exact ⟨x, List.mem_append_left ys hx, hrest⟩

theorem Paid.append {xs : List Exchange} {r : SettlementRow} {good : Bool} (h : Paid xs r good)
    (ys : List Exchange) : Paid (xs ++ ys) r good := by
  obtain ⟨x, hx, hrest⟩ := h
  exact ⟨x, List.mem_append_left ys hx, hrest⟩

theorem Invoked.paid {xs : List Exchange} {req : Request} {id : Bytes} {good : Bool} (h : Invoked xs req id good)
    {r : SettlementRow} (hr : r.settlementID = id) : Paid xs r good := by
  obtain ⟨x, hx, hid, -, -, hgood⟩ := h
  exact ⟨x, hx, hid.trans hr.symm, hgood⟩

/-- The rows that an invocation pays for stay under an update that keeps the terms. -/
theorem paysFor_update {id : Bytes} {f : SettlementRow → SettlementRow} (hf : ∀ r, (f r).terms = r.terms) {db : DB}
    (hdb : db.settlements = Table.update (pendingAt id) f s.db.settlements) (x : Exchange) (h : PaysFor s.db x) :
    PaysFor db x := by
  obtain ⟨r, hr, ha, hi⟩ := h
  refine ⟨if pendingAt id r then f r else r, hdb ▸ Table.mem_update.mpr ⟨r, hr, rfl⟩, ?_, ?_⟩
  · split_ifs
    · exact (assertionID_eq_of_terms (hf r)).trans ha
    · exact ha
  · split_ifs
    · exact (settlementID_eq_of_terms (hf r)).trans hi
    · exact hi

/-- The rows behind the last write of a call that was told the outcome `good`. -/
theorem paid_update (h : Payments s) {id : Bytes} {f : SettlementRow → SettlementRow}
    (hf : ∀ r, (f r).terms = r.terms) {good : Bool} (hstatus : ∀ r, (f r).status.outcome = some good)
    {req : Request} (hinv : Invoked s.exchanges req id good) {r : SettlementRow}
    (hr : r ∈ Table.update (pendingAt id) f s.db.settlements) {b : Bool} (hb : r.status.outcome = some b) :
    Paid s.exchanges r b := by
  obtain ⟨q, hq, hterms, ⟨hp, rfl⟩ | ⟨-, rfl⟩⟩ := update_terms hf hr
  · rw [hstatus, Option.some.injEq] at hb
    rw [← hb]
    refine hinv.paid ?_
    rw [settlementID_eq_of_terms hterms]
    exact (pendingAt_iff.mp hp).1
  · exact h.rows r hq b hb

theorem outcome_settlePc {answer : Except Err SettleResponse} {id : Bytes} {good : Bool}
    (h : (settlePc p answer).outcome = some (id, good)) : id = p.settlementID ∧ succeeded answer = good := by
  unfold settlePc at h
  cases hf : settleFailure answer with
  | error e =>
    rw [hf] at h
    obtain ⟨rfl, rfl⟩ := Prod.mk.inj (Option.some.inj h)
    exact ⟨rfl, settleFailure_eq_error hf⟩
  | ok response =>
    rw [hf] at h
    obtain ⟨rfl, rfl⟩ := Prod.mk.inj (Option.some.inj h)
    exact ⟨rfl, settleFailure_eq_ok hf⟩

/-- A payment adds one invocation, for a row that is in the database. -/
theorem payments_paid (h : Payments s) (hi : Inv s) (hc : s.calls[c]? = some call) (hpc : call.pc = .claimed p)
    (moved : Bool) (answer : Except Err SettleResponse) :
    Payments ({ s with exchanges := s.exchanges ++ [call.req.exchange p moved answer] }.put c
      { call with pc := settlePc p answer }) := by
  refine ⟨?_, fun r hr good hg => (h.rows r hr good hg).append _, ?_⟩
  · intro call' hc' id good hout
    rcases mem_put hc' with rfl | hc'
    · obtain ⟨rfl, rfl⟩ := outcome_settlePc hout
      exact ⟨_, List.mem_append_right _ List.mem_cons_self, rfl, rfl, rfl, rfl⟩
    · exact (h.calls call' hc' id good hout).append _
  · intro x hx
    rcases List.mem_append.mp hx with hx | hx
    · exact h.exchanges x hx
    · rw [List.mem_singleton.mp hx]
      exact ⟨p.row, hi.pending c p ⟨call, hc, by rw [hpc]; rfl⟩, rfl, rfl⟩

/-- **Every step keeps the account of the payments.** -/
theorem payments_step (h : Payments s) (hi : Inv s) (hs : step svc s a = some t) : Payments t := by
  cases moves_of_step hs with
  | entered req now =>
    refine ⟨?_, h.rows, h.exchanges⟩
    intro call hc id good hout
    rcases List.mem_append.mp hc with hc | hc
    · exact h.calls call hc id good hout
    · rw [List.mem_singleton.mp hc] at hout
      unfold Service.entered at hout
      cases hv : svc.verify req now <;> rw [hv] at hout <;> cases hout
  | turnedDown e hc hpc => exact h.silent rfl
  | found hc hpc hl => exact h.silent rfl
  | accepted hc hpc hv => exact h.silent rfl
  | notBegun e hc hpc => exact h.silent rfl
  | @begun c newID fate call listing r hc hpc hadm =>
    refine h.put ?_ (s.db.claim _) ?_ ?_
    · intro id good hout
      cases r <;> cases hout
    · intro q hq good hg
      rcases List.mem_append.mp hq with hq | hq
      · exact h.rows q hq good hg
      · rw [List.mem_singleton.mp hq] at hg
        cases hg
    · rintro x ⟨q, hq, hrest⟩
      exact ⟨q, List.mem_append_left _ hq, hrest⟩
  | paid hc hpc => exact payments_paid h hi hc hpc _ _
  | notConfirmed e hc hpc => exact h.silent rfl
  | @confirmed c now fate call p response r hc hpc hconf =>
    have hinv := h.calls call (List.mem_of_getElem? hc) p.settlementID true (by rw [hpc]; rfl)
    refine h.put ?_ (s.db.confirm p response.transaction now) ?_
      (paysFor_update (terms_confirm response.transaction now) rfl)
    · intro id good hout
      cases r with
      | some e => cases hout
      | none =>
        obtain ⟨rfl, rfl⟩ := Prod.mk.inj (Option.some.inj hout)
        exact hinv
    · intro q hq good hg
      exact paid_update h (terms_confirm response.transaction now) (fun _ => rfl) hinv hq hg
  | notFailed e hc hpc => exact h.silent rfl
  | @failed c fate call p err e hc hpc =>
    have hinv := h.calls call (List.mem_of_getElem? hc) p.settlementID false (by rw [hpc]; rfl)
    refine h.put ?_ (s.db.fail p.settlementID) ?_ (paysFor_update terms_fail rfl)
    · intro id good hout
      cases hout
    · intro q hq good hg
      exact paid_update h terms_fail (fun _ => rfl) hinv hq hg
  | @journalled c fate call result rows hc hpc =>
    refine h.put ?_ { s.db with rejected := rows } h.rows fun _ => id
    intro id good hout
    refine h.calls call (List.mem_of_getElem? hc) id good ?_
    rw [hpc]
    cases result with
    | error e => cases hout
    | ok r => exact hout
  | minted hr => exact ⟨h.calls, h.rows, h.exchanges⟩
  | catalogued hx => exact ⟨h.calls, h.rows, h.exchanges⟩
  | rejected rows => exact ⟨h.calls, h.rows, h.exchanges⟩

/-- The account holds in every state that a run reaches. -/
theorem payments_run {catalog : Catalog} {as : List Action} (h : run svc (Sys.init catalog) as = some s) :
    Payments s := by
  have hboth : Inv s ∧ Payments s :=
    Runs.run_invariant (P := fun s => Inv s ∧ Payments s)
      (fun _ _ _ hs hst => ⟨inv_step hs.1 hst, payments_step hs.2 hs.1 hst⟩)
      ⟨inv_init catalog, payments_init catalog⟩ h
  exact hboth.2

/-- A settlement is paid for by one invocation. -/
theorem exchange_unique (h : Payments s) (hi : Inv s) {x y : Exchange} (hx : x ∈ s.exchanges) (hy : y ∈ s.exchanges)
    (hxy : x.settlementID = y.settlementID) : x = y := by
  obtain ⟨r, hr, hra, hri⟩ := h.exchanges x hx
  obtain ⟨q, hq, hqa, hqi⟩ := h.exchanges y hy
  have hrq : r = q := hi.books.ids.eq_of_key_eq hr hq (hri.trans (hxy.trans hqi.symm))
  have hassertion : x.assertionID = y.assertionID := by
    rw [← hra, ← hqa, hrq]
  exact Table.Keyed.eq_of_key_eq hi.paidOnce hx hy hassertion

end Steps

end Settlement
