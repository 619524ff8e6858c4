import AgenticAttribution.Settlement.Books
import AgenticAttribution.Settlement.System

/-!
# Settlement.Invariants — the ledger over every run

`Inv` joins the books of the database with what the program counters of the calls say about it: a call between
`Begin` and its last write holds a settlement whose row is pending, no two calls hold the same assertion, and a
call that has yet to pay has not been paid for.  Every step keeps it (`inv_step`), so every run does (`inv_run`).
-/

namespace Settlement

open Attribution

/-- The call `i` holds `p`. -/
def Sys.Holds (s : Sys) (i : ℕ) (p : PendingSettlement) : Prop :=
  ∃ call, s.calls[i]? = some call ∧ call.pc.holding = some p

/-- The call `i` is about to invoke `facilitator.Settle`. -/
def Sys.Claimed (s : Sys) (i : ℕ) (p : PendingSettlement) : Prop :=
  ∃ call, s.calls[i]? = some call ∧ call.pc = .claimed p

structure Inv (s : Sys) : Prop where
  books : Books s.db
  pending : ∀ i p, s.Holds i p → p.row ∈ s.db.settlements
  distinct : ∀ i j p q, s.Holds i p → s.Holds j q → p.assertionID = q.assertionID → i = j
  paidOnce : (s.exchanges.map (·.assertionID)).Nodup
  paidClaimed : ∀ x ∈ s.exchanges, x.assertionID ∈ s.db.consumed.map (·.assertionID)
  unpaid : ∀ i p, s.Claimed i p → p.assertionID ∉ s.exchanges.map (·.assertionID)

theorem Sys.Claimed.holds {s : Sys} {i : ℕ} {p : PendingSettlement} (h : s.Claimed i p) : s.Holds i p := by
  obtain ⟨call, hc, hpc⟩ := h
  exact ⟨call, hc, by rw [hpc]; rfl⟩

theorem inv_init (catalog : Catalog) : Inv (Sys.init catalog) := by
  refine ⟨Books.empty catalog, ?_, ?_, List.nodup_nil, ?_, ?_⟩
  · rintro i p ⟨call, hc, -⟩
    cases hc
  · rintro i j p q ⟨call, hc, -⟩
    cases hc
  · intro x hx
    cases hx
  · rintro i p ⟨call, hc, -⟩
    cases hc

/-! ## Changing one call -/

section Put

variable {s : Sys} {c : ℕ} {call new : Call}

theorem get_put (hc : s.calls[c]? = some call) (i : ℕ) :
    (s.put c new).calls[i]? = if c = i then some new else s.calls[i]? := by
  have hlt : c < s.calls.length := (List.getElem?_eq_some_iff.mp hc).1
  show (s.calls.set c new)[i]? = _
  by_cases h : c = i
  · rw [if_pos h, ← h, List.getElem?_set_self hlt]
  · rw [if_neg h, List.getElem?_set_ne h]

theorem mem_put {call' : Call} (h : call' ∈ (s.put c new).calls) : call' = new ∨ call' ∈ s.calls :=
  (List.mem_or_eq_of_mem_set h).symm

theorem holds_put (hc : s.calls[c]? = some call) {i : ℕ} {p : PendingSettlement} :
    (s.put c new).Holds i p ↔ (c = i ∧ new.pc.holding = some p) ∨ (c ≠ i ∧ s.Holds i p) := by
  unfold Sys.Holds
  rw [get_put hc]
  by_cases h : c = i <;> simp [h]

theorem claimed_put (hc : s.calls[c]? = some call) {i : ℕ} {p : PendingSettlement} :
    (s.put c new).Claimed i p ↔ (c = i ∧ new.pc = .claimed p) ∨ (c ≠ i ∧ s.Claimed i p) := by
  unfold Sys.Claimed
  rw [get_put hc]
  by_cases h : c = i <;> simp [h]

/-- A call that lets go of what it held leaves the others as they were. -/
theorem holds_put_of_idle (hc : s.calls[c]? = some call) (hnew : new.pc.holding = none) {i : ℕ}
    {p : PendingSettlement} (h : (s.put c new).Holds i p) : c ≠ i ∧ s.Holds i p := by
  rcases (holds_put hc).mp h with ⟨-, hp⟩ | h
  · rw [hnew] at hp
    cases hp
  · exact h

theorem claimed_put_of_idle (hc : s.calls[c]? = some call) (hnew : new.pc.holding = none) {i : ℕ}
    {p : PendingSettlement} (h : (s.put c new).Claimed i p) : c ≠ i ∧ s.Claimed i p := by
  rcases (claimed_put hc).mp h with ⟨-, hp⟩ | h
  · rw [hp] at hnew
    cases hnew
  · exact h

/-- What a step does outside the tables: the call lets go, and nothing is paid. -/
theorem Inv.idle (h : Inv s) (hc : s.calls[c]? = some call) (hnew : new.pc.holding = none) : Inv (s.put c new) := by
  refine ⟨h.books, fun i p hi => h.pending i p (holds_put_of_idle hc hnew hi).2, ?_, h.paidOnce, h.paidClaimed,
    fun i p hi => h.unpaid i p (claimed_put_of_idle hc hnew hi).2⟩
  intro i j p q hi hj
  exact h.distinct i j p q (holds_put_of_idle hc hnew hi).2 (holds_put_of_idle hc hnew hj).2

/-- The catalog and the rejections are nobody's business. -/
theorem Inv.frame (h : Inv s) (catalog : Catalog) (rejected : List RejectedAttempt) :
    Inv { s with db := { s.db with catalog, rejected } } :=
  ⟨h.books.frame catalog rejected, h.pending, h.distinct, h.paidOnce, h.paidClaimed, h.unpaid⟩

end Put

/-! ## The steps -/

section Steps

variable {svc : Service} {s t : Sys} {a : Action} {c : ℕ} {call : Call} {p : PendingSettlement}

theorem entered_idle (svc : Service) (req : Request) (now : ℤ) : (svc.entered req now).pc.holding = none := by
  unfold Service.entered
  cases svc.verify req now <;> rfl

theorem inv_entered (h : Inv s) (req : Request) (now : ℤ) :
    Inv { s with calls := s.calls ++ [svc.entered req now] } := by
  have hidle := entered_idle svc req now
  have hold : ∀ i p, Sys.Holds { s with calls := s.calls ++ [svc.entered req now] } i p → s.Holds i p := by
    rintro i p ⟨call, hc, hp⟩
    rcases lt_or_ge i s.calls.length with hi | hi
    · exact ⟨call, by rwa [List.getElem?_append_left hi] at hc, hp⟩
    · rw [List.getElem?_append_right hi] at hc
      obtain rfl := List.mem_singleton.mp (List.mem_of_getElem? hc)
      rw [hidle] at hp
      cases hp
  refine ⟨h.books, fun i p hi => h.pending i p (hold i p hi), fun i j p q hi hj =>
    h.distinct i j p q (hold i p hi) (hold j q hj), h.paidOnce, h.paidClaimed, ?_⟩
  rintro i p ⟨call, hc, hp⟩
  rcases lt_or_ge i s.calls.length with hi | hi
  · exact h.unpaid i p ⟨call, by rwa [List.getElem?_append_left hi] at hc, hp⟩
  · rw [List.getElem?_append_right hi] at hc
    obtain rfl := List.mem_singleton.mp (List.mem_of_getElem? hc)
    rw [hp] at hidle
    cases hidle

/-- A claim goes through: its assertion was nobody's, and now it is the call's alone. -/
theorem inv_begun (h : Inv s) (hc : s.calls[c]? = some call) (hadm : s.db.Admits p) {new : Call}
    (hnew : ∀ q, new.pc.holding = some q → q = p) : Inv ({ s with db := s.db.claim p }.put c new) := by
  have hc' : ({ s with db := s.db.claim p } : Sys).calls[c]? = some call := hc
  have hunclaimed : ∀ i q, s.Holds i q → q.assertionID ≠ p.assertionID := by
    intro i q hi he
    have hmem : q.assertionID ∈ s.db.settlements.map (·.assertionID) :=
      List.mem_map.mpr ⟨q.row, h.pending i q hi, rfl⟩
    rw [← h.books.claims, he] at hmem
    exact hadm.unclaimed hmem
  have hunpaid : p.assertionID ∉ s.exchanges.map (·.assertionID) := by
    intro hp
    obtain ⟨x, hx, he⟩ := List.mem_map.mp hp
    exact hadm.unclaimed (he ▸ h.paidClaimed x hx)
  refine ⟨h.books.claim hadm, ?_, ?_, h.paidOnce, ?_, ?_⟩
  · intro i q hi
    rcases (holds_put hc').mp hi with ⟨-, hq⟩ | ⟨-, hi⟩
    · rw [hnew q hq]
      exact List.mem_append_right _ List.mem_cons_self
    · exact List.mem_append_left _ (h.pending i q hi)
  · intro i j q r hi hj he
    rcases (holds_put hc').mp hi with ⟨hci, hq⟩ | ⟨-, hi⟩
    · rcases (holds_put hc').mp hj with ⟨hcj, -⟩ | ⟨-, hj⟩
      · exact hci.symm.trans hcj
      · rw [hnew q hq] at he
        exact absurd he.symm (hunclaimed j r hj)
    · rcases (holds_put hc').mp hj with ⟨-, hr⟩ | ⟨-, hj⟩
      · rw [hnew r hr] at he
        exact absurd he (hunclaimed i q hi)
      · exact h.distinct i j q r hi hj he
  · intro x hx
    show x.assertionID ∈ (s.db.consumed ++ [p.claim]).map (·.assertionID)
    rw [List.map_append]
    exact List.mem_append_left _ (h.paidClaimed x hx)
  · intro i q hi
    rcases (claimed_put hc').mp hi with ⟨-, hq⟩ | ⟨-, hi⟩
    · rw [hnew q (by rw [hq]; rfl)]
      exact hunpaid
    · exact h.unpaid i q hi

/-- A payment: the call that made it is past its claim, and no other call has the assertion. -/
theorem inv_paid (h : Inv s) (hc : s.calls[c]? = some call) (hpc : call.pc = .claimed p) {x : Exchange}
    (hx : x.assertionID = p.assertionID) {new : Call} (hnew : new.pc.holding = some p)
    (hpaid : ∀ q, new.pc ≠ .claimed q) : Inv ({ s with exchanges := s.exchanges ++ [x] }.put c new) := by
  have hc' : ({ s with exchanges := s.exchanges ++ [x] } : Sys).calls[c]? = some call := hc
  have hclaimed : s.Claimed c p := ⟨call, hc, hpc⟩
  have hold : ∀ i q, ({ s with exchanges := s.exchanges ++ [x] }.put c new).Holds i q → s.Holds i q := by
    intro i q hi
    rcases (holds_put hc').mp hi with ⟨rfl, hq⟩ | ⟨-, hi⟩
    · rw [hnew, Option.some.injEq] at hq
      exact hq ▸ hclaimed.holds
    · exact hi
  refine ⟨h.books, fun i q hi => h.pending i q (hold i q hi), fun i j q r hi hj =>
    h.distinct i j q r (hold i q hi) (hold j r hj), ?_, ?_, ?_⟩
  · show ((s.exchanges ++ [x]).map (·.assertionID)).Nodup
    rw [List.map_append, List.map_singleton, hx]
    exact List.Nodup.append h.paidOnce (List.nodup_singleton _)
      (List.disjoint_singleton.mpr (h.unpaid c p hclaimed))
  · intro y hy
    rcases List.mem_append.mp hy with hy | hy
    · exact h.paidClaimed y hy
    · rw [List.mem_singleton.mp hy, hx]
      show p.assertionID ∈ s.db.consumed.map (·.assertionID)
      rw [h.books.claims]
      exact List.mem_map.mpr ⟨p.row, h.pending c p hclaimed.holds, rfl⟩
  · intro i q hi
    rcases (claimed_put hc').mp hi with ⟨-, hq⟩ | ⟨hne, hi⟩
    · exact absurd hq (hpaid q)
    · show q.assertionID ∉ (s.exchanges ++ [x]).map (·.assertionID)
      rw [List.map_append, List.map_singleton, hx, List.mem_append, List.mem_singleton]
      rintro (hq | hq)
      · exact h.unpaid i q hi hq
      · exact hne (h.distinct c i p q hclaimed.holds hi.holds hq.symm)

/-- The row that a call holds is not the one that another call updates. -/
theorem Inv.pendingAt_eq_false (h : Inv s) {i j : ℕ} {q : PendingSettlement} (hi : s.Holds i p) (hj : s.Holds j q)
    (hne : i ≠ j) : pendingAt p.settlementID q.row = false := by
  by_contra hp
  have hid := (pendingAt_iff.mp (Bool.not_eq_false _ ▸ hp)).1
  have hrow := h.books.ids.eq_of_key_eq (h.pending i p hi) (h.pending j q hj) hid.symm
  exact hne (h.distinct i j p q hi hj (congrArg SettlementRow.assertionID hrow))

/-- A last write: the call lets go of its row, and the others' rows stay. -/
theorem inv_updated (h : Inv s) (hc : s.calls[c]? = some call) (hp : call.pc.holding = some p) {db : DB}
    (hbooks : Books db) (hconsumed : db.consumed = s.db.consumed) {f : SettlementRow → SettlementRow}
    (hrows : db.settlements = Table.update (pendingAt p.settlementID) f s.db.settlements) {new : Call}
    (hnew : new.pc.holding = none) : Inv ({ s with db }.put c new) := by
  have hc' : ({ s with db } : Sys).calls[c]? = some call := hc
  refine ⟨hbooks, ?_, ?_, h.paidOnce, ?_, fun i q hi => h.unpaid i q (claimed_put_of_idle hc' hnew hi).2⟩
  · intro i q hi
    obtain ⟨hne, hi⟩ := holds_put_of_idle hc' hnew hi
    show q.row ∈ db.settlements
    rw [hrows]
    exact Table.mem_update_of_not (h.pending i q hi) (h.pendingAt_eq_false ⟨call, hc, hp⟩ hi hne)
  · intro i j q r hi hj
    exact h.distinct i j q r (holds_put_of_idle hc' hnew hi).2 (holds_put_of_idle hc' hnew hj).2
  · intro x hx
    show x.assertionID ∈ db.consumed.map (·.assertionID)
    rw [hconsumed]
    exact h.paidClaimed x hx

theorem holding_beginPc {r : Option Err} {q : PendingSettlement} (h : (beginPc p r).holding = some q) : q = p := by
  cases r with
  | none => exact (Option.some.inj h).symm
  | some e => cases h

theorem holding_settlePc (p : PendingSettlement) (answer : Except Err SettleResponse) :
    (settlePc p answer).holding = some p ∧ ∀ q, settlePc p answer ≠ .claimed q := by
  unfold settlePc
  cases settleFailure answer <;> exact ⟨rfl, fun _ => Pc.noConfusion⟩

theorem holding_confirmPc (p : PendingSettlement) (response : SettleResponse) (r : Option Err) :
    (confirmPc p response r).holding = none := by
  cases r <;> rfl

/-- **Every step keeps the invariant.** -/
theorem inv_step (h : Inv s) (hs : step svc s a = some t) : Inv t := by
  cases moves_of_step hs with
  | entered req now => exact inv_entered h req now
  | turnedDown e hc _ => exact h.idle hc rfl
  | found hc _ _ => exact h.idle hc rfl
  | accepted hc _ _ => exact h.idle hc rfl
  | notBegun e hc _ => exact h.idle hc rfl
  | begun r hc _ hadm => exact inv_begun h hc hadm fun _ hq => holding_beginPc hq
  | paid hc hpc => exact inv_paid h hc hpc rfl (holding_settlePc _ _).1 (holding_settlePc _ _).2
  | notConfirmed e hc _ => exact h.idle hc rfl
  | @confirmed c now fate call p response r hc hpc hconf =>
    have hp : call.pc.holding = some p := by rw [hpc]; rfl
    have hrec : s.db.Records p := ⟨p.row, h.pending _ p ⟨_, hc, hp⟩, rfl⟩
    exact inv_updated (f := SettlementRow.confirm response.transaction now) h hc hp (h.books.confirm hrec hconf)
      rfl rfl (holding_confirmPc p response r)
  | notFailed e hc _ => exact h.idle hc rfl
  | @failed c fate call p err e hc hpc =>
    have hp : call.pc.holding = some p := by rw [hpc]; rfl
    exact inv_updated (f := SettlementRow.fail) h hc hp (h.books.fail p.settlementID) rfl rfl rfl
  | journalled rows hc _ =>
    exact Inv.idle (s := { s with db := { s.db with rejected := rows } }) (h.frame s.db.catalog rows) hc rfl
  | minted _ => exact ⟨h.books, h.pending, h.distinct, h.paidOnce, h.paidClaimed, h.unpaid⟩
  | catalogued _ => exact h.frame _ s.db.rejected
  | rejected rows => exact h.frame s.db.catalog rows

/-- The invariant holds in every state that a run reaches. -/
theorem inv_run {as : List Action} (h : Inv s) (hs : run svc s as = some t) : Inv t :=
  Runs.run_invariant (fun _ _ _ hi hst => inv_step hi hst) h hs

theorem inv_reachable {catalog : Catalog} {as : List Action} (h : run svc (Sys.init catalog) as = some s) : Inv s :=
  inv_run (inv_init catalog) h

end Steps

end Settlement
