import AgenticAttribution.Settlement.Invariants
import AgenticAttribution.Settlement.Reports
import AgenticAttribution.Settlement.Routes

/-!
# Settlement.Watch — what each call adds to the counts of a publisher

`ListPublishers` counts what was refused in a publisher's name and what was claimed and never paid, from two tables
that are written in different places.  `watch` runs the system and books what the steps of each call add to either
count; `Tally` says what is booked to a call at each program counter, and every step keeps it (`booked_step`).
-/

namespace Settlement

open Attribution Fallible

/-! ## Counts behind a write -/

section Counts

variable {db : DB} {p : PendingSettlement}

/-- A failed settlement of the publisher. -/
def failedFor (publisherID : Bytes) (r : SettlementRow) : Bool := r.status = .failed && r.publisherID = publisherID

theorem failedCount_eq (db : DB) (publisherID : Bytes) :
    db.failedCount publisherID = db.settlements.countP (failedFor publisherID) := by
  unfold DB.failedCount DB.settledBy DB.inStatus Group.group
  rw [List.filter_filter, ← List.countP_eq_length_filter]
  refine List.countP_congr fun r _ => ?_
  simp [failedFor, and_comm]

theorem failedCount_claim (publisherID : Bytes) :
    (db.claim p).failedCount publisherID = db.failedCount publisherID := by
  have hrow : failedFor publisherID p.row = false := rfl
  rw [failedCount_eq, failedCount_eq]
  show (db.settlements ++ [p.row]).countP _ = _
  rw [List.countP_append, List.countP_singleton, hrow]
  rfl

theorem failedFor_of_pending {id publisherID : Bytes} {r : SettlementRow} (h : pendingAt id r = true) :
    failedFor publisherID r = false := by
  rw [failedFor, (pendingAt_iff.mp h).2]
  rfl

theorem failedCount_confirm (txHash : Bytes) (now : ℤ) (publisherID : Bytes) :
    (db.confirm p txHash now).failedCount publisherID = db.failedCount publisherID := by
  rw [failedCount_eq, failedCount_eq]
  refine Table.countP_update_eq fun r _ h => ?_
  rw [failedFor_of_pending h]
  rfl

/-- **A failed settlement counts once more**, for its publisher. -/
theorem failedCount_fail (hb : Books db) (hp : p.row ∈ db.settlements) (publisherID : Bytes) :
    (db.fail p.settlementID).failedCount publisherID
      = db.failedCount publisherID + if publisherID = p.publisherID then 1 else 0 := by
  rw [failedCount_eq, failedCount_eq]
  have hmine : pendingAt p.settlementID p.row = true := pendingAt_iff.mpr ⟨rfl, rfl⟩
  have hbefore : db.settlements.countP (fun r => pendingAt p.settlementID r && failedFor publisherID r) = 0 := by
    refine List.countP_eq_zero.mpr fun r _ h => ?_
    obtain ⟨hr, hf⟩ := Bool.and_eq_true_iff.mp h
    rw [failedFor_of_pending hr] at hf
    cases hf
  have hbehind : db.settlements.countP (fun r => pendingAt p.settlementID r && failedFor publisherID r.fail)
      = if publisherID = p.publisherID then 1 else 0 := by
    have hkey : ∀ r ∈ db.settlements, (pendingAt p.settlementID r && failedFor publisherID r.fail) = true →
        r.settlementID = p.row.settlementID :=
      fun r _ h => (pendingAt_iff.mp (Bool.and_eq_true_iff.mp h).1).1
    rw [hb.ids.countP_eq hp hkey, hmine, Bool.true_and]
    simp only [failedFor, SettlementRow.fail, decide_true, Bool.true_and]
    exact if_congr (decide_eq_true_iff.trans eq_comm) rfl rfl
  have htotal := Table.countP_update (pendingAt p.settlementID) SettlementRow.fail (failedFor publisherID)
    db.settlements
  rw [hbefore, hbehind] at htotal
  exact htotal

/-- A row more is an attempt more, for the publisher it names. -/
theorem blockedCount_append (row : RejectedAttempt) (publisherID : Bytes) :
    { db with rejected := db.rejected ++ [row] }.blockedCount publisherID
      = db.blockedCount publisherID + if publisherID = row.publisherID then 1 else 0 := by
  unfold DB.blockedCount Group.group
  show ((db.rejected ++ [row]).filter _).length = _
  rw [List.filter_append, List.length_append]
  by_cases h : row.publisherID = publisherID
  · simp [h]
  · simp [h, Ne.symm h]

end Counts

/-! ## What a single statement comes to -/

section Single

variable {d : Driver} {db : DB}

/-- The connection does not fail at the statement `stmt`. -/
def Fate.spares (stmt : ℕ) : Fate → Bool
  | .lost i _ => i ≠ stmt
  | _ => true

theorem attempt_of_spares {fate : Fate} {stmt : ℕ} (pre : String) (h : fate.spares stmt = true) :
    attempt fate stmt pre = .ok () := by
  cases fate with
  | lost i why => exact if_neg (of_decide_eq_true h)
  | _ => rfl

theorem attempt_of_not {fate : Fate} {stmt : ℕ} (pre : String) (h : fate.spares stmt = false) :
    ∃ e, attempt fate stmt pre = .error e := by
  cases fate with
  | lost i why =>
    have hi : i = stmt := by simpa [Fate.spares] using h
    exact ⟨_, if_pos hi⟩
  | _ => cases h

theorem commit_ok_fst (fate : Fate) (pre : String) (old db : DB) : (commit fate pre old (.ok db)).1 = db := by
  cases fate <;> rfl

theorem fail_fst {id : Bytes} (h : textOk id = true) (fate : Fate) :
    (Store.fail d db id fate).1 = if fate.spares 1 then db.fail id else db := by
  unfold Store.fail
  cases hs : fate.spares 1 with
  | true =>
    simp only [attempt_of_spares _ hs, ok_bind, h, Bool.not_true, Bool.false_eq_true, if_false, commit_ok_fst]
    rfl
  | false =>
    obtain ⟨e, he⟩ := attempt_of_not "mark settlement failed: " hs
    rw [he]
    rfl

theorem recordRejection_fst (r : Rejection) (fate : Fate) : (Store.recordRejection d db r fate).1
    = if fate.spares 1 && r.textsOk then { db with rejected := db.rejected ++ [r.row] } else db := by
  unfold Store.recordRejection
  cases hs : fate.spares 1 with
  | true =>
    rw [attempt_of_spares _ hs, ok_bind, insertRejected_row]
    cases r.textsOk with
    | true => exact commit_ok_fst _ _ _ _
    | false => rfl
  | false =>
    obtain ⟨e, he⟩ := attempt_of_not "record rejection: " hs
    rw [he]
    rfl

/-- The refusal is journalled. -/
def Stored (req : Request) (err : Err) (fate : Fate) : Prop :=
  (statusFor err).2 ≠ .internalError ∧ (fate.spares 1 && (req.rejection err).textsOk) = true

instance (req : Request) (err : Err) (fate : Fate) : Decidable (Stored req err fate) :=
  inferInstanceAs (Decidable (_ ∧ _))

theorem blockedCount_journal (req : Request) (err : Err) (fate : Fate) (publisherID : Bytes) :
    (Handler.journal d db req err fate).blockedCount publisherID = db.blockedCount publisherID +
      if Stored req err fate then if publisherID = req.assertion.publisherID then 1 else 0 else 0 := by
  unfold Handler.journal
  by_cases hint : (statusFor err).2 = .internalError
  · have hnot : ¬Stored req err fate := fun h => h.1 hint
    rw [if_pos hint, if_neg hnot, Nat.add_zero]
  · rw [if_neg hint, recordRejection_fst]
    by_cases hs : (fate.spares 1 && (req.rejection err).textsOk) = true
    · have hstored : Stored req err fate := ⟨hint, hs⟩
      rw [if_pos hs, if_pos hstored, blockedCount_append]
      rfl
    · have hnot : ¬Stored req err fate := fun h => hs h.2
      rw [if_neg hs, if_neg hnot, Nat.add_zero]

/-! What `Begin`, `Confirm` and the answer of a call leave of the counts. -/

theorem counts_begin {fate : Fate} {db' : DB} {r : Option Err} (h : Store.begin d db p fate = (db', r))
    (publisherID : Bytes) : db'.blockedCount publisherID = db.blockedCount publisherID ∧
      db'.failedCount publisherID = db.failedCount publisherID := by
  rcases Store.begin_cases h with ⟨rfl, -⟩ | ⟨-, rfl⟩
  · exact ⟨rfl, rfl⟩
  · exact ⟨rfl, failedCount_claim publisherID⟩

theorem counts_confirm {txHash : Bytes} {now : ℤ} {fate : Fate} {db' : DB} {r : Option Err}
    (h : Store.confirm d db p txHash now fate = (db', r)) (publisherID : Bytes) :
    db'.blockedCount publisherID = db.blockedCount publisherID ∧
      db'.failedCount publisherID = db.failedCount publisherID := by
  rcases Store.confirm_cases h with ⟨rfl, -⟩ | ⟨-, rfl⟩
  · exact ⟨rfl, rfl⟩
  · exact ⟨rfl, failedCount_confirm txHash now publisherID⟩

theorem failedCount_journalled (svc : Service) (req : Request) (fate : Fate) (result : Except Err Result)
    (publisherID : Bytes) :
    (svc.journalled db req fate result).failedCount publisherID = db.failedCount publisherID := by
  cases result with
  | ok r => rfl
  | error err =>
    obtain ⟨rows, hrows⟩ := Handler.journal_frame svc.driver db req err fate
    rw [Service.journalled, hrows]
    rfl

end Single

/-! ## The system, watched -/

section Watch

variable (svc : Service)

/-- The system with the steps so far, and what those of each call have added to the counts of each publisher. -/
structure Watched where
  sys : Sys
  past : List Action
  blocked : ℕ → Bytes → ℤ
  failed : ℕ → Bytes → ℤ

def Watched.init (catalog : Catalog) : Watched := ⟨Sys.init catalog, [], fun _ _ => 0, fun _ _ => 0⟩

/-- What a step adds to a count, if it is a step of the call `c`. -/
def share (a : Action) (c before behind : ℕ) : ℤ := if a.caller = some c then (behind : ℤ) - before else 0

def watch (w : Watched) (a : Action) : Option Watched :=
  (step svc w.sys a).map fun t =>
    { sys := t
      past := w.past ++ [a]
      blocked := fun c publisherID =>
        w.blocked c publisherID + share a c (w.sys.db.blockedCount publisherID) (t.db.blockedCount publisherID)
      failed := fun c publisherID =>
        w.failed c publisherID + share a c (w.sys.db.failedCount publisherID) (t.db.failedCount publisherID) }

/-- The payment of the call was attempted. -/
def Watched.Paid (w : Watched) (c : ℕ) : Prop := ∃ moved answer, Action.settlePayment c moved answer ∈ w.past

/-- The payment of the call fell over: `facilitator.Settle` did not come back as a success. -/
def Watched.FellOver (w : Watched) (c : ℕ) : Prop :=
  ∃ moved answer, Action.settlePayment c moved answer ∈ w.past ∧ succeeded answer = false

/-- The settlement of the call was marked failed. -/
def Watched.Failed (w : Watched) (c : ℕ) : Prop := ∃ fate, Action.fail c fate ∈ w.past ∧ fate.spares 1 = true

/-- One attempt in the name of the call's publisher. -/
def Call.one (call : Call) (publisherID : Bytes) : ℤ := if publisherID = call.req.assertion.publisherID then 1 else 0

end Watch

/-! ## What is booked to a call -/

section Booked

variable {svc : Service} {w w' : Watched} {a : Action} {c : ℕ} {call new : Call}

theorem watch_eq_some (h : watch svc w a = some w') : step svc w.sys a = some w'.sys ∧ w'.past = w.past ++ [a] := by
  obtain ⟨t, ht, rfl⟩ := Option.map_eq_some_iff.mp h
  exact ⟨ht, rfl⟩

/-- A step of the call adds what it does to the counts. -/
theorem booked_caller (h : watch svc w a = some w') (ha : a.caller = some c) (publisherID : Bytes) :
    w'.blocked c publisherID = w.blocked c publisherID +
        ((w'.sys.db.blockedCount publisherID : ℤ) - w.sys.db.blockedCount publisherID) ∧
      w'.failed c publisherID = w.failed c publisherID +
        ((w'.sys.db.failedCount publisherID : ℤ) - w.sys.db.failedCount publisherID) := by
  obtain ⟨t, ht, rfl⟩ := Option.map_eq_some_iff.mp h
  exact ⟨congrArg (w.blocked c publisherID + ·) (if_pos ha), congrArg (w.failed c publisherID + ·) (if_pos ha)⟩

/-- Any other step adds nothing. -/
theorem booked_other (h : watch svc w a = some w') (ha : a.caller ≠ some c) :
    w'.blocked c = w.blocked c ∧ w'.failed c = w.failed c := by
  obtain ⟨t, ht, rfl⟩ := Option.map_eq_some_iff.mp h
  constructor
  · funext publisherID
    show w.blocked c publisherID + share _ _ _ _ = _
    rw [share, if_neg ha, add_zero]
  · funext publisherID
    show w.failed c publisherID + share _ _ _ _ = _
    rw [share, if_neg ha, add_zero]

theorem mem_past (h : watch svc w a = some w') {b : Action} : b ∈ w'.past ↔ b ∈ w.past ∨ b = a := by
  rw [(watch_eq_some h).2, List.mem_append, List.mem_singleton]

theorem paid_watch (h : watch svc w a = some w') :
    w'.Paid c ↔ w.Paid c ∨ ∃ moved answer, a = .settlePayment c moved answer := by
  unfold Watched.Paid
  simp only [mem_past h, exists_or, eq_comm]

theorem fellOver_watch (h : watch svc w a = some w') : w'.FellOver c ↔
    w.FellOver c ∨ ∃ moved answer, a = .settlePayment c moved answer ∧ succeeded answer = false := by
  unfold Watched.FellOver
  simp only [mem_past h, or_and_right, exists_or, eq_comm (b := a)]

theorem failed_watch (h : watch svc w a = some w') :
    w'.Failed c ↔ w.Failed c ∨ ∃ fate, a = .fail c fate ∧ fate.spares 1 = true := by
  unfold Watched.Failed
  simp only [mem_past h, or_and_right, exists_or, eq_comm (b := a)]

theorem paid_watch_other (h : watch svc w a = some w') (ha : ∀ moved answer, a ≠ .settlePayment c moved answer) :
    (w'.Paid c ↔ w.Paid c) ∧ (w'.FellOver c ↔ w.FellOver c) := by
  rw [paid_watch h, fellOver_watch h]
  constructor
  · refine or_iff_left ?_
    rintro ⟨moved, answer, rfl⟩
    exact ha moved answer rfl
  · refine or_iff_left ?_
    rintro ⟨moved, answer, rfl, -⟩
    exact ha moved answer rfl

theorem failed_watch_other (h : watch svc w a = some w') (ha : ∀ fate, a ≠ .fail c fate) :
    w'.Failed c ↔ w.Failed c := by
  rw [failed_watch h]
  refine or_iff_left ?_
  rintro ⟨fate, rfl, -⟩
  exact ha fate rfl

/-- The call is neither returned nor answered. -/
def Pc.running : Pc → Bool
  | .returned _ | .answered _ => false
  | _ => true

/-- **What is booked to a call at its program counter.** -/
structure Tally (w : Watched) (c : ℕ) (call : Call) : Prop where
  blocked : (∀ r, call.pc ≠ .answered r) → ∀ publisherID, w.blocked c publisherID = 0
  marked : w.Failed c → ∀ publisherID, w.failed c publisherID = call.one publisherID
  unmarked : ¬w.Failed c → ∀ publisherID, w.failed c publisherID = 0
  fell : w.Failed c → w.FellOver c
  running : call.pc.running = true → ¬w.Failed c
  refused : ∀ p e, call.pc = .refused p e → w.FellOver c
  owner : ∀ p, call.pc.holding = some p → p.publisherID = call.req.assertion.publisherID

/-- The invariant of a watched run. -/
structure Booked (w : Watched) : Prop where
  inv : Inv w.sys
  calls : ∀ c call, w.sys.calls[c]? = some call → Tally w c call
  fresh : ∀ c, w.sys.calls.length ≤ c →
    (∀ publisherID, w.blocked c publisherID = 0 ∧ w.failed c publisherID = 0) ∧ ∀ a ∈ w.past, a.caller ≠ some c

theorem booked_init (catalog : Catalog) : Booked (Watched.init catalog) := by
  refine ⟨inv_init catalog, ?_, ?_⟩
  · intro c call hc
    cases hc
  · refine fun c _ => ⟨fun _ => ⟨rfl, rfl⟩, ?_⟩
    intro a ha
    cases ha

/-- The steps of other calls leave a tally as it is. -/
theorem Tally.frame (h : Tally w c call) (hw : watch svc w a = some w') (ha : a.caller ≠ some c) : Tally w' c call := by
  obtain ⟨hb, hf⟩ := booked_other hw ha
  have hfell := (paid_watch_other hw (c := c) fun moved answer he => ha (by rw [he]; rfl)).2
  have hfailed := failed_watch_other hw (c := c) fun fate he => ha (by rw [he]; rfl)
  refine ⟨?_, ?_, ?_, ?_, ?_, ?_, h.owner⟩
  · rw [hb]
    exact h.blocked
  · rw [hf, hfailed]
    exact h.marked
  · rw [hf, hfailed]
    exact h.unmarked
  · rw [hfailed, hfell]
    exact h.fell
  · rw [hfailed]
    exact h.running
  · rw [hfell]
    exact h.refused

/-- A step of a call that leaves the counts alone and marks nothing. -/
theorem Tally.move (h : Tally w c call) (hw : watch svc w a = some w') (ha : a.caller = some c)
    (hcounts : ∀ publisherID, w'.sys.db.blockedCount publisherID = w.sys.db.blockedCount publisherID ∧
      w'.sys.db.failedCount publisherID = w.sys.db.failedCount publisherID)
    (hfail : ∀ fate, a ≠ .fail c fate) (hreq : new.req = call.req) (hpc : ∀ r, call.pc ≠ .answered r)
    (hrunning : new.pc.running = true → call.pc.running = true)
    (hrefused : ∀ p e, new.pc = .refused p e → w'.FellOver c)
    (howner : ∀ p, new.pc.holding = some p → p.publisherID = call.req.assertion.publisherID) : Tally w' c new := by
  have hfailed := failed_watch_other hw hfail
  have hbooked : ∀ publisherID, w'.blocked c publisherID = w.blocked c publisherID ∧
      w'.failed c publisherID = w.failed c publisherID := by
    intro publisherID
    obtain ⟨hb, hf⟩ := booked_caller hw ha publisherID
    rw [(hcounts publisherID).1] at hb
    rw [(hcounts publisherID).2] at hf
    constructor <;> omega
  have hone : new.one = call.one := by
    unfold Call.one
    rw [hreq]
  refine ⟨?_, ?_, ?_, ?_, ?_, hrefused, ?_⟩
  · intro _ publisherID
    rw [(hbooked publisherID).1]
    exact h.blocked hpc publisherID
  · intro hf publisherID
    rw [(hbooked publisherID).2, hone]
    exact h.marked (hfailed.mp hf) publisherID
  · intro hf publisherID
    rw [(hbooked publisherID).2]
    exact h.unmarked (fun hf' => hf (hfailed.mpr hf')) publisherID
  · intro hf
    exact (fellOver_watch hw).mpr (Or.inl (h.fell (hfailed.mp hf)))
  · intro hr hf
    exact h.running (hrunning hr) (hfailed.mp hf)
  · intro p hp
    rw [hreq]
    exact howner p hp

theorem Booked.fresh_other (h : Booked w) (hw : watch svc w a = some w') {i : ℕ} (hi : w.sys.calls.length ≤ i)
    (ha : a.caller ≠ some i) :
    (∀ publisherID, w'.blocked i publisherID = 0 ∧ w'.failed i publisherID = 0) ∧
      ∀ b ∈ w'.past, b.caller ≠ some i := by
  obtain ⟨hb, hf⟩ := booked_other hw ha
  rw [hb, hf]
  refine ⟨(h.fresh i hi).1, fun b hb => ?_⟩
  rcases (mem_past hw).mp hb with hb | rfl
  · exact (h.fresh i hi).2 b hb
  · exact ha

/-- A step of one call keeps the tallies of all. -/
theorem Booked.turn (h : Booked w) (hw : watch svc w a = some w') (ha : a.caller = some c)
    (hc : w.sys.calls[c]? = some call) (hcalls : w'.sys.calls = w.sys.calls.set c new) (hnew : Tally w' c new) :
    Booked w' := by
  have hlt : c < w.sys.calls.length := (List.getElem?_eq_some_iff.mp hc).1
  refine ⟨inv_step h.inv (watch_eq_some hw).1, ?_, ?_⟩
  · intro i call' hi
    rw [hcalls] at hi
    by_cases hci : c = i
    · subst hci
      rw [List.getElem?_set_self hlt, Option.some.injEq] at hi
      exact hi ▸ hnew
    · rw [List.getElem?_set_ne hci] at hi
      exact (h.calls i call' hi).frame hw fun h => hci (Option.some.inj (ha.symm.trans h))
  · intro i hi
    rw [hcalls, List.length_set] at hi
    refine h.fresh_other hw hi fun he => ?_
    have hci : c = i := Option.some.inj (ha.symm.trans he)
    omega

/-- A step of nobody's keeps the tallies. -/
theorem Booked.still (h : Booked w) (hw : watch svc w a = some w') (ha : ∀ c, a.caller ≠ some c)
    (hcalls : w'.sys.calls = w.sys.calls) : Booked w' := by
  refine ⟨inv_step h.inv (watch_eq_some hw).1, ?_, ?_⟩
  · intro c call hc
    rw [hcalls] at hc
    exact (h.calls c call hc).frame hw (ha c)
  · intro c hc
    rw [hcalls] at hc
    exact h.fresh_other hw hc (ha c)

/-- A call that has just come in. -/
theorem Booked.tally_entered (h : Booked w) {i : ℕ} (hi : w.sys.calls.length ≤ i) (req : Request) (now : ℤ) :
    Tally w i (svc.entered req now) := by
  obtain ⟨hzero, hpast⟩ := h.fresh i hi
  have hnot : ¬w.Failed i := by
    rintro ⟨fate, hmem, -⟩
    exact hpast _ hmem rfl
  refine ⟨fun _ publisherID => (hzero publisherID).1, fun hf => absurd hf hnot,
    fun _ publisherID => (hzero publisherID).2, fun hf => absurd hf hnot, fun _ => hnot, ?_, ?_⟩
  · intro p e he
    unfold Service.entered at he
    cases hv : svc.verify req now <;> rw [hv] at he <;> cases he
  · intro p hp
    cases (entered_idle svc req now).symm.trans hp

end Booked

/-! ## The steps -/

section Steps

variable {svc : Service} {w w' : Watched} {c : ℕ}

/-- The settlement of a payment that fell over is marked failed, if the statement is run. -/
theorem tally_fail (h : Booked w) {fate : Fate} (hw : watch svc w (.fail c fate) = some w') : Booked w' := by
  obtain ⟨call, p, err, db, r, hc, hpc, hf, ht⟩ := step_fail_iff.mp (watch_eq_some hw).1
  have htally := h.calls c call hc
  have hholds : w.sys.Holds c p := ⟨call, hc, by rw [hpc]; rfl⟩
  have hrow := h.inv.pending c p hholds
  have hid : textOk p.settlementID = true := SettlementRow.textOk_settlementID (h.inv.books.texts p.row hrow)
  have hdb : w'.sys.db = if fate.spares 1 then w.sys.db.fail p.settlementID else w.sys.db := by
    rw [ht]
    exact (congrArg Prod.fst hf).symm.trans (fail_fst hid fate)
  have hnot : ¬w.Failed c := htally.running (by rw [hpc]; rfl)
  have hfailed : w'.Failed c ↔ fate.spares 1 = true := by
    rw [failed_watch hw]
    constructor
    · rintro (hf | ⟨fate', he, hs⟩)
      · exact absurd hf hnot
      · obtain ⟨-, rfl⟩ := Action.fail.inj he
        exact hs
    · exact fun hs => Or.inr ⟨fate, rfl, hs⟩
  have hfell : w'.FellOver c := (fellOver_watch hw).mpr (Or.inl (htally.refused p err hpc))
  have howner : p.publisherID = call.req.assertion.publisherID := htally.owner p (by rw [hpc]; rfl)
  have hblocked : ∀ publisherID, w'.sys.db.blockedCount publisherID = w.sys.db.blockedCount publisherID := by
    intro publisherID
    rw [hdb]
    split_ifs <;> rfl
  suffices hnew : Tally w' c { call with pc := .returned (.error (err.join r)) } from
    h.turn hw rfl hc (by rw [ht]; rfl) hnew
  refine ⟨?_, ?_, ?_, fun _ => hfell, fun hr => absurd hr Bool.false_ne_true, ?_, ?_⟩
  · intro _ publisherID
    have hb := (booked_caller hw rfl publisherID).1
    rw [hblocked, htally.blocked (by rw [hpc]; exact fun _ => Pc.noConfusion)] at hb
    omega
  · intro hf publisherID
    have hbooked := (booked_caller hw rfl publisherID).2
    rw [hdb, if_pos (hfailed.mp hf), failedCount_fail h.inv.books hrow, htally.unmarked hnot, howner] at hbooked
    rw [hbooked]
    show _ = if publisherID = call.req.assertion.publisherID then 1 else 0
    split_ifs <;> push_cast <;> omega
  · intro hf publisherID
    have hbooked := (booked_caller hw rfl publisherID).2
    rw [hdb, if_neg fun hs => hf (hfailed.mpr hs), htally.unmarked hnot] at hbooked
    omega
  · intro p' e' he
    cases he
  · intro p' hp
    cases hp

/-- The journal of an answer marks no settlement. -/
theorem failed_journal {fate : Fate} (hw : watch svc w (.journal c fate) = some w') (publisherID : Bytes) :
    w'.failed c publisherID = w.failed c publisherID := by
  obtain ⟨call, result, hc, hpc, ht⟩ := step_journal_iff.mp (watch_eq_some hw).1
  have hcount : w'.sys.db.failedCount publisherID = w.sys.db.failedCount publisherID := by
    rw [ht]
    exact failedCount_journalled svc call.req fate result publisherID
  have hb := (booked_caller hw rfl publisherID).2
  rw [hcount] at hb
  omega

/-- What the journalling of an answer books. -/
theorem tally_journal (h : Booked w) {fate : Fate} (hw : watch svc w (.journal c fate) = some w') : Booked w' := by
  obtain ⟨call, result, hc, hpc, ht⟩ := step_journal_iff.mp (watch_eq_some hw).1
  have htally := h.calls c call hc
  have hfailed := failed_watch_other hw (c := c) fun fate' he => by cases he
  refine h.turn hw rfl hc (by rw [ht]; rfl) ?_
  refine ⟨fun hr => absurd rfl (hr result), ?_, ?_, ?_, fun hr => absurd hr Bool.false_ne_true, ?_, ?_⟩
  · intro hf publisherID
    rw [failed_journal hw]
    exact htally.marked (hfailed.mp hf) publisherID
  · intro hf publisherID
    rw [failed_journal hw]
    exact htally.unmarked (fun hf' => hf (hfailed.mpr hf')) publisherID
  · intro hf
    exact (fellOver_watch hw).mpr (Or.inl (htally.fell (hfailed.mp hf)))
  · intro p e he
    cases he
  · intro p hp
    cases hp

theorem refused_settlePc {p q : PendingSettlement} {answer : Except Err SettleResponse} {e : Err}
    (h : settlePc p answer = .refused q e) : succeeded answer = false := by
  unfold settlePc at h
  cases hs : settleFailure answer with
  | ok s =>
    rw [hs] at h
    cases h
  | error e =>
    cases answer with
    | error e' => rfl
    | ok s =>
      simp only [settleFailure] at hs
      split_ifs at hs with hgood
      simpa [succeeded] using hgood

/-- What a new call books. -/
theorem booked_enter (h : Booked w) {req : Request} {now : ℤ} (hw : watch svc w (.enter req now) = some w') :
    Booked w' := by
  have hs := (watch_eq_some hw).1
  have ht : w'.sys.calls = w.sys.calls ++ [svc.entered req now] := by
    rw [← Option.some.inj hs]
  refine ⟨inv_step h.inv hs, ?_, ?_⟩
  · intro c call hc
    rw [ht] at hc
    rcases lt_or_ge c w.sys.calls.length with hlt | hge
    · rw [List.getElem?_append_left hlt] at hc
      exact (h.calls c call hc).frame hw (fun he => by cases he)
    · rw [List.getElem?_append_right hge] at hc
      obtain rfl := List.mem_singleton.mp (List.mem_of_getElem? hc)
      exact (h.tally_entered hge req now).frame hw (fun he => by cases he)
  · intro c hc
    rw [ht, List.length_append] at hc
    exact h.fresh_other hw (by omega) (fun he => by cases he)

/-- **Every step keeps the tallies.** -/
theorem booked_step {a : Action} (h : Booked w) (hw : watch svc w a = some w') : Booked w' := by
  obtain ⟨hs, hpast⟩ := watch_eq_some hw
  cases a with
  | enter req now => exact booked_enter h hw
  | lookup c pick fate =>
    obtain ⟨call, hc, hpc, ht⟩ := step_lookup_iff.mp hs
    refine h.turn hw rfl hc (by rw [ht]; rfl) ?_
    have hnew := svc.lookup_cases w.sys call pick fate
    refine (h.calls c call hc).move hw rfl (fun _ => by rw [ht]; exact ⟨rfl, rfl⟩) (fun _ he => by cases he) rfl
      (by rw [hpc]; exact fun _ => Pc.noConfusion) (fun _ => by rw [hpc]; rfl) ?_ ?_
    · intro p e he
      rcases hnew with ⟨e', hn⟩ | ⟨l, hn, -⟩ <;> cases hn.symm.trans he
    · intro p hp
      rcases hnew with ⟨e', hn⟩ | ⟨l, hn, -⟩ <;> rw [hn] at hp <;> cases hp
  | verifyPayment c answer =>
    obtain ⟨call, listing, hc, hpc, ht⟩ := step_verifyPayment_iff.mp hs
    refine h.turn hw rfl hc (by rw [ht]; rfl) ?_
    refine (h.calls c call hc).move hw rfl (fun _ => by rw [ht]; exact ⟨rfl, rfl⟩) (fun _ he => by cases he) rfl
      (by rw [hpc]; exact fun _ => Pc.noConfusion) (fun _ => by rw [hpc]; rfl) ?_ ?_
    · intro p e he
      unfold verifyPc at he
      cases hv : checkVerified answer <;> rw [hv] at he <;> cases he
    · intro p hp
      unfold verifyPc at hp
      cases hv : checkVerified answer <;> rw [hv] at hp <;> cases hp
  | begin c newID fate =>
    obtain ⟨call, listing, db, r, hc, hpc, hb, ht⟩ := step_begin_iff.mp hs
    refine h.turn hw rfl hc (by rw [ht]; rfl) ?_
    refine (h.calls c call hc).move hw rfl (by rw [ht]; exact counts_begin hb) (fun _ he => by cases he) rfl
      (by rw [hpc]; exact fun _ => Pc.noConfusion) (fun _ => by rw [hpc]; rfl) ?_ ?_
    · intro p e he
      cases r <;> cases he
    · intro p hp
      rw [holding_beginPc hp]
      rfl
  | settlePayment c moved answer =>
    obtain ⟨call, p, hc, hpc, ht⟩ := step_settlePayment_iff.mp hs
    have htally := h.calls c call hc
    refine h.turn hw rfl hc (by rw [ht]; rfl) ?_
    refine htally.move hw rfl (fun _ => by rw [ht]; exact ⟨rfl, rfl⟩) (fun _ he => by cases he) rfl
      (by rw [hpc]; exact fun _ => Pc.noConfusion) (fun _ => by rw [hpc]; rfl) ?_ ?_
    · intro q e he
      exact (fellOver_watch hw).mpr (Or.inr ⟨moved, answer, rfl, refused_settlePc he⟩)
    · intro q hq
      obtain rfl : p = q := Option.some.inj ((holding_settlePc p answer).1.symm.trans hq)
      exact htally.owner p (by rw [hpc]; rfl)
  | confirm c now fate =>
    obtain ⟨call, p, response, db, r, hc, hpc, hf, ht⟩ := step_confirm_iff.mp hs
    refine h.turn hw rfl hc (by rw [ht]; rfl) ?_
    refine (h.calls c call hc).move hw rfl (by rw [ht]; exact counts_confirm hf) (fun _ he => by cases he) rfl
      (by rw [hpc]; exact fun _ => Pc.noConfusion) (fun _ => by rw [hpc]; rfl) ?_ ?_
    · intro q e he
      cases r <;> cases he
    · intro q hq
      cases (holding_confirmPc p response r).symm.trans hq
  | fail c fate => exact tally_fail h hw
  | journal c fate => exact tally_journal h hw
  | mint args =>
    obtain ⟨-, ht⟩ := step_mint_iff.mp hs
    exact h.still hw (fun _ he => by cases he) (by rw [ht])
  | catalog new =>
    obtain ⟨-, ht⟩ := step_catalog_iff.mp hs
    exact h.still hw (fun _ he => by cases he) (by rw [ht])
  | reject body fate => exact h.still hw (fun _ he => by cases he) (by rw [← Option.some.inj hs])

end Steps

/-- Every run can be watched. -/
theorem watch_run {svc : Service} : ∀ {as : List Action} {w : Watched} {t : Sys}, run svc w.sys as = some t →
    ∃ w', Runs.run (watch svc) w as = some w' ∧ w'.sys = t ∧ w'.past = w.past ++ as
  | [], w, t, h => ⟨w, rfl, Option.some.inj h, (List.append_nil _).symm⟩
  | a :: as, w, t, h => by
    obtain ⟨u, hu, ht⟩ := Runs.run_cons_eq_some.mp h
    obtain ⟨w₁, hw₁, hsys, hpast⟩ : ∃ w₁, watch svc w a = some w₁ ∧ w₁.sys = u ∧ w₁.past = w.past ++ [a] := by
      unfold watch
      rw [hu]
      exact ⟨_, rfl, rfl, rfl⟩
    obtain ⟨w', hw', hsys', hpast'⟩ := watch_run (w := w₁) (hsys.symm ▸ ht)
    refine ⟨w', (Runs.run_cons_of hw₁ as).trans hw', hsys', ?_⟩
    rw [hpast', hpast, List.append_assoc]
    rfl

end Settlement
