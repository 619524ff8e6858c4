import AgenticAttribution.Settlement.Store

/-!
# Settlement.Books — what holds between the tables

`Books db` is the invariant of the tables that settlement writes: claims and settlements go together, a settlement
has its three ledger entries exactly while it is confirmed, and the ledger speaks of settlements only.  The three
transactions keep it (`Books.claim`, `Books.confirm`, `Books.fail`), and on the way a row changes in its status
only (`Advances`).
-/

namespace Settlement

open Attribution

/-- What a row is about, without how far it got. -/
def SettlementRow.terms (r : SettlementRow) : SettlementRow :=
  { r with status := .pending, txHash := none, confirmedAt := none }

/-- The entries of a confirmed settlement: the merchant owes the commission, the platform and the publisher get
their shares. -/
def SettlementRow.entries (r : SettlementRow) : List LedgerEntry :=
  [⟨r.settlementID, .merchantPayable, r.merchantID, .commission, -r.commissionAmountCents, r.currency⟩,
   ⟨r.settlementID, .platformRevenue, platformAccountID, .commission, r.platformFeeCents, r.currency⟩,
   ⟨r.settlementID, .publisherPayable, r.publisherID, .commission, r.publisherAmountCents, r.currency⟩]

/-- The entries that a settlement has in the ledger. -/
def DB.entriesOf (db : DB) (settlementID : Bytes) : List LedgerEntry :=
  db.ledger.filter fun e => e.settlementID = settlementID

/-- The invariant of the tables. -/
structure Books (db : DB) : Prop where
  claims : db.consumed.map (·.assertionID) = db.settlements.map (·.assertionID)
  assertions : Table.Keyed (·.assertionID) db.settlements
  ids : Table.Keyed (·.settlementID) db.settlements
  checks : ∀ r ∈ db.settlements, r.checks = true
  texts : ∀ r ∈ db.settlements, r.textsOk = true
  statuses : ∀ r ∈ db.settlements, r.status ≠ .reversed
  posted : ∀ r ∈ db.settlements,
    db.entriesOf r.settlementID = if r.status = .confirmed then r.entries else []
  ledger : ∀ e ∈ db.ledger, e.settlementID ∈ db.settlements.map (·.settlementID)

theorem Books.empty (catalog : Catalog) : Books (DB.empty catalog) := by
  constructor <;> simp [DB.empty, Table.keyed_nil]

/-- The books do not depend on the catalog and the rejections. -/
theorem Books.frame {db : DB} (h : Books db) (catalog : Catalog) (rejected : List RejectedAttempt) :
    Books { db with catalog, rejected } :=
  ⟨h.claims, h.assertions, h.ids, h.checks, h.texts, h.statuses, h.posted, h.ledger⟩

/-! ## The entries of one settlement -/

section Entries

@[simp] theorem terms_confirm (txHash : Bytes) (now : ℤ) (r : SettlementRow) :
    (r.confirm txHash now).terms = r.terms := rfl

@[simp] theorem terms_fail (r : SettlementRow) : r.fail.terms = r.terms := rfl

@[simp] theorem terms_row (p : PendingSettlement) : p.row.terms = p.row := rfl

/-- The entries depend on the terms alone. -/
theorem entries_eq_of_terms {r s : SettlementRow} (h : r.terms = s.terms) : r.entries = s.entries :=
  show r.terms.entries = s.terms.entries from congrArg SettlementRow.entries h

theorem settlementID_eq_of_terms {r s : SettlementRow} (h : r.terms = s.terms) :
    r.settlementID = s.settlementID :=
  show r.terms.settlementID = s.terms.settlementID from congrArg SettlementRow.settlementID h

theorem assertionID_eq_of_terms {r s : SettlementRow} (h : r.terms = s.terms) : r.assertionID = s.assertionID :=
  show r.terms.assertionID = s.terms.assertionID from congrArg SettlementRow.assertionID h

theorem checks_eq_of_terms {r s : SettlementRow} (h : r.terms = s.terms) : r.checks = s.checks :=
  show r.terms.checks = s.terms.checks from congrArg SettlementRow.checks h

theorem textsOk_eq_of_terms {r s : SettlementRow} (h : r.terms = s.terms) : r.textsOk = s.textsOk :=
  show r.terms.textsOk = s.terms.textsOk from congrArg SettlementRow.textsOk h

theorem SettlementRow.commission_bounds {r : SettlementRow} (h : r.checks = true) :
    0 ≤ r.commissionAmountCents ∧ r.commissionAmountCents < 2 ^ 63 ∧
      r.platformFeeCents + r.publisherAmountCents = r.commissionAmountCents := by
  simp only [SettlementRow.checks, Bool.and_eq_true, decide_eq_true_eq] at h
  omega

/-- The entries that `Confirm` writes are those of the row. -/
theorem PendingSettlement.entries_eq {p : PendingSettlement} (h : p.row.checks = true) : p.entries = p.row.entries := by
  obtain ⟨hlo, hhi, -⟩ := SettlementRow.commission_bounds h
  have hneg : int64 (-p.split.commissionAmountCents) = -p.split.commissionAmountCents :=
    int64_of_bounds (by have : p.row.commissionAmountCents = p.split.commissionAmountCents := rfl; omega)
      (by have : p.row.commissionAmountCents = p.split.commissionAmountCents := rfl; omega)
  rw [PendingSettlement.entries, hneg]
  rfl

/-- The entries of a settlement sum to zero. -/
theorem SettlementRow.sum_entries {r : SettlementRow} (h : r.checks = true) :
    (r.entries.map (·.amountCents)).sum = 0 := by
  obtain ⟨-, -, hsplit⟩ := SettlementRow.commission_bounds h
  simp only [SettlementRow.entries, List.map_cons, List.map_nil, List.sum_cons, List.sum_nil]
  omega

theorem settlementID_of_mem_entries {p : PendingSettlement} {e : LedgerEntry} (h : e ∈ p.entries) :
    e.settlementID = p.settlementID := by
  simp only [PendingSettlement.entries, List.mem_cons, List.not_mem_nil, or_false] at h
  rcases h with rfl | rfl | rfl <;> rfl

theorem filter_entries_self (p : PendingSettlement) :
    p.entries.filter (fun e => decide (e.settlementID = p.settlementID)) = p.entries :=
  List.filter_eq_self.mpr fun _ he => decide_eq_true (settlementID_of_mem_entries he)

theorem filter_entries_of_ne {p : PendingSettlement} {id : Bytes} (h : id ≠ p.settlementID) :
    p.entries.filter (fun e => decide (e.settlementID = id)) = [] := by
  rw [List.filter_eq_nil_iff]
  intro e he hid
  exact h ((of_decide_eq_true hid).symm.trans (settlementID_of_mem_entries he))

/-- A settlement that is not there has no entries. -/
theorem Books.entriesOf_fresh {db : DB} (h : Books db) {id : Bytes}
    (hid : id ∉ db.settlements.map (·.settlementID)) : db.entriesOf id = [] := by
  rw [DB.entriesOf, List.filter_eq_nil_iff]
  intro e he heq
  exact hid (of_decide_eq_true heq ▸ h.ledger e he)

end Entries

/-! ## The transactions -/

section Transactions

variable {db : DB} {p : PendingSettlement}

/-- `Begin` keeps the books. -/
theorem Books.claim (h : Books db) (hadm : db.Admits p) : Books (db.claim p) := by
  have hkey : p.assertionID ∉ db.settlements.map (·.assertionID) := h.claims ▸ hadm.unclaimed
  refine ⟨?_, h.assertions.append hkey, h.ids.append hadm.fresh, ?_, ?_, ?_, ?_, ?_⟩
  · show (db.consumed ++ [p.claim]).map (·.assertionID) = (db.settlements ++ [p.row]).map (·.assertionID)
    rw [List.map_append, List.map_append, h.claims]
    rfl
  · intro r hr
    rcases List.mem_append.mp hr with hr | hr
    · exact h.checks r hr
    · rw [List.mem_singleton.mp hr]
      exact hadm.checks
  · intro r hr
    rcases List.mem_append.mp hr with hr | hr
    · exact h.texts r hr
    · rw [List.mem_singleton.mp hr]
      exact hadm.texts
  · intro r hr
    rcases List.mem_append.mp hr with hr | hr
    · exact h.statuses r hr
    · rw [List.mem_singleton.mp hr]
      exact Status.noConfusion
  · intro r hr
    rcases List.mem_append.mp hr with hr | hr
    · exact h.posted r hr
    · rw [List.mem_singleton.mp hr]
      exact h.entriesOf_fresh hadm.fresh
  · intro e he
    exact List.mem_map.mpr ((List.mem_map.mp (h.ledger e he)).imp fun r hr =>
      ⟨List.mem_append_left _ hr.1, hr.2⟩)

/-- The table has a row with the terms of `p`. -/
def DB.Records (db : DB) (p : PendingSettlement) : Prop := ∃ r ∈ db.settlements, r.terms = p.row

/-- The rows of an update that keeps the terms. -/
theorem update_terms {id : Bytes} {f : SettlementRow → SettlementRow} (hf : ∀ r, (f r).terms = r.terms)
    {r : SettlementRow} (hr : r ∈ Table.update (pendingAt id) f db.settlements) :
    ∃ s ∈ db.settlements, r.terms = s.terms ∧
      ((pendingAt id s = true ∧ r = f s) ∨ (pendingAt id s = false ∧ r = s)) := by
  obtain ⟨s, hs, rfl⟩ := Table.mem_update.mp hr
  refine ⟨s, hs, ?_⟩
  cases hp : pendingAt id s with
  | true => exact ⟨hf s, Or.inl ⟨rfl, rfl⟩⟩
  | false => exact ⟨rfl, Or.inr ⟨rfl, rfl⟩⟩

/-- A conditional update that keeps the terms keeps the books, if it keeps them posted. -/
theorem Books.of_update (h : Books db) {db' : DB} {id : Bytes} {f : SettlementRow → SettlementRow}
    (hc : db'.consumed = db.consumed) (hs : db'.settlements = Table.update (pendingAt id) f db.settlements)
    (hf : ∀ r, (f r).terms = r.terms) (hstatus : ∀ r, (f r).status ≠ .reversed)
    (hposted : ∀ r ∈ db'.settlements,
      db'.entriesOf r.settlementID = if r.status = .confirmed then r.entries else [])
    (hledger : ∀ e ∈ db'.ledger, e.settlementID ∈ db.settlements.map (·.settlementID)) : Books db' := by
  have haid : ∀ r, (f r).assertionID = r.assertionID := fun r => assertionID_eq_of_terms (hf r)
  have hsid : ∀ r, (f r).settlementID = r.settlementID := fun r => settlementID_eq_of_terms (hf r)
  refine ⟨?_, ?_, ?_, ?_, ?_, ?_, hposted, ?_⟩
  · rw [hc, hs, Table.map_update haid]
    exact h.claims
  · rw [hs]
    exact h.assertions.update haid
  · rw [hs]
    exact h.ids.update hsid
  · intro r hr
    obtain ⟨s, hmem, ht, -⟩ := update_terms hf (hs ▸ hr)
    exact (checks_eq_of_terms ht).trans (h.checks s hmem)
  · intro r hr
    obtain ⟨s, hmem, ht, -⟩ := update_terms hf (hs ▸ hr)
    exact (textsOk_eq_of_terms ht).trans (h.texts s hmem)
  · intro r hr
    obtain ⟨s, hmem, -, ⟨-, rfl⟩ | ⟨-, rfl⟩⟩ := update_terms hf (hs ▸ hr)
    · exact hstatus s
    · exact h.statuses _ hmem
  · intro e he
    rw [hs, Table.map_update hsid]
    exact hledger e he

/-- A pending row has no entries yet. -/
theorem Books.unposted (h : Books db) {r : SettlementRow} (hr : r ∈ db.settlements)
    (hs : r.status ≠ .confirmed) : db.entriesOf r.settlementID = [] := by
  rw [h.posted r hr, if_neg hs]

/-- `Confirm` keeps the books, if it confirms the row of its own settlement. -/
theorem Books.confirm (h : Books db) {txHash : Bytes} {now : ℤ} (hrec : db.Records p)
    (hconf : db.Confirmable p txHash) : Books (db.confirm p txHash now) := by
  obtain ⟨q, hq, hterms⟩ := hrec
  have hqid : q.settlementID = p.settlementID := settlementID_eq_of_terms (s := p.row) hterms
  -- the pending row that the update finds is the row of `p`
  have hpend : pendingAt p.settlementID q = true := by
    obtain ⟨r, hr, hp⟩ := hconf.pending
    have hrq : r = q := h.ids.eq_of_key_eq hr hq ((pendingAt_iff.mp hp).1.trans hqid.symm)
    exact hrq ▸ hp
  have hpchecks : p.row.checks = true := (checks_eq_of_terms (s := p.row) hterms).symm.trans (h.checks q hq)
  have hterms_confirm : ∀ r : SettlementRow, (r.confirm txHash now).terms = r.terms := terms_confirm txHash now
  refine h.of_update (f := SettlementRow.confirm txHash now) rfl rfl hterms_confirm (fun _ => Status.noConfusion)
    ?_ ?_
  · intro r hr
    obtain ⟨s, hs, ht, ⟨hp, rfl⟩ | ⟨hp, rfl⟩⟩ := update_terms hterms_confirm hr
    · -- the confirmed row: it had no entries, and `p.entries` are its own
      have hsq : s = q := h.ids.eq_of_key_eq hs hq ((pendingAt_iff.mp hp).1.trans hqid.symm)
      subst hsq
      have hbefore : db.entriesOf s.settlementID = [] :=
        h.unposted hs (by rw [(pendingAt_iff.mp hp).2]; exact Status.noConfusion)
      show (db.ledger ++ p.entries).filter (fun e => decide (e.settlementID = s.settlementID)) = _
      rw [List.filter_append, show db.ledger.filter _ = [] from hbefore, List.nil_append, hqid,
        filter_entries_self, PendingSettlement.entries_eq hpchecks]
      exact (entries_eq_of_terms (s := p.row) hterms).symm
    · -- every other row keeps its entries
      have hne : r.settlementID ≠ p.settlementID := by
        intro he
        have hrq : r = q := h.ids.eq_of_key_eq hs hq (he.trans hqid.symm)
        rw [hrq, hpend] at hp
        cases hp
      show (db.ledger ++ p.entries).filter (fun e => decide (e.settlementID = r.settlementID)) = _
      rw [List.filter_append, filter_entries_of_ne hne, List.append_nil]
      exact h.posted r hs
  · intro e he
    rcases List.mem_append.mp he with he | he
    · exact h.ledger e he
    · exact List.mem_map.mpr ⟨q, hq, hqid.trans (settlementID_of_mem_entries he).symm⟩

/-- `Fail` keeps the books. -/
theorem Books.fail (h : Books db) (id : Bytes) : Books (db.fail id) := by
  refine h.of_update (f := SettlementRow.fail) rfl rfl terms_fail (fun _ => Status.noConfusion) ?_ h.ledger
  intro r hr
  obtain ⟨s, hs, -, ⟨hp, rfl⟩ | ⟨-, rfl⟩⟩ := update_terms terms_fail hr
  · have hbefore : db.entriesOf s.settlementID = [] :=
      h.unposted hs (by rw [(pendingAt_iff.mp hp).2]; exact Status.noConfusion)
    exact hbefore
  · exact h.posted _ hs

end Transactions

/-! ## Status moves -/

section Advances

/-- A settlement moves from pending to confirmed or failed, or not at all. -/
inductive StatusMove : Status → Status → Prop where
  | stays (a : Status) : StatusMove a a
  | confirms : StatusMove .pending .confirmed
  | fails : StatusMove .pending .failed

theorem StatusMove.trans {a b c : Status} (hab : StatusMove a b) (hbc : StatusMove b c) : StatusMove a c := by
  cases hab with
  | stays => exact hbc
  | confirms => cases hbc; exact .confirms
  | fails => cases hbc; exact .fails

/-- Every settlement of `old` is still there in `new`, on the same terms and with its status moved at most once. -/
def Advances (old new : DB) : Prop :=
  ∀ r ∈ old.settlements, ∃ r' ∈ new.settlements, r'.terms = r.terms ∧ StatusMove r.status r'.status

theorem Advances.refl (db : DB) : Advances db db := fun r hr => ⟨r, hr, rfl, .stays _⟩

theorem Advances.trans {a b c : DB} (hab : Advances a b) (hbc : Advances b c) : Advances a c := by
  intro r hr
  obtain ⟨r', hr', ht, hs⟩ := hab r hr
  obtain ⟨r'', hr'', ht', hs'⟩ := hbc r' hr'
  exact ⟨r'', hr'', ht'.trans ht, hs.trans hs'⟩

theorem Advances.of_eq {a b : DB} (h : b.settlements = a.settlements) : Advances a b :=
  fun r hr => ⟨r, h ▸ hr, rfl, .stays _⟩

theorem advances_claim (db : DB) (p : PendingSettlement) : Advances db (db.claim p) :=
  fun r hr => ⟨r, List.mem_append_left _ hr, rfl, .stays _⟩

theorem advances_update {db db' : DB} {id : Bytes} {f : SettlementRow → SettlementRow}
    (hdb : db'.settlements = Table.update (pendingAt id) f db.settlements) (hf : ∀ r, (f r).terms = r.terms)
    (hstatus : ∀ r, StatusMove .pending (f r).status) : Advances db db' := by
  intro r hr
  rw [hdb]
  cases hp : pendingAt id r with
  | true =>
    refine ⟨f r, Table.mem_update_of hr hp, hf r, ?_⟩
    rw [(pendingAt_iff.mp hp).2]
    exact hstatus r
  | false => exact ⟨r, Table.mem_update_of_not hr hp, rfl, .stays _⟩

theorem advances_confirm (db : DB) (p : PendingSettlement) (txHash : Bytes) (now : ℤ) :
    Advances db (db.confirm p txHash now) :=
  advances_update (f := SettlementRow.confirm txHash now) rfl (fun _ => rfl) fun _ => .confirms

theorem advances_fail (db : DB) (id : Bytes) : Advances db (db.fail id) :=
  advances_update (f := SettlementRow.fail) rfl (fun _ => rfl) fun _ => .fails

end Advances

end Settlement
