import AgenticAttribution.Settlement.Earnings
import AgenticAttribution.Settlement.Invariants

/-!
# Settlement.Chain — the chain behind a settlement

`Chain`, `RecentSettlements` and `RecentRejections` of `internal/settlement/reports.go`.  The chain joins a settlement
to its publisher, its product, its merchant and its claim, and a row that is missing from any of them would take the
chain with it.  Along every run of settlements the references hold (`referenced_run`), so no settlement is lost to a
join, and what the two pages show of it agrees (`chains_complete`).
-/

namespace Settlement

open Query
open Group (group mem_group group_eq_nil)

/-! ## The rows -/

/-- The columns that only these queries read, each by the key of its row. -/
structure Columns where
  canonicalTitle : Bytes → Bytes
  merchantName : Bytes → Bytes
  queryText : Bytes → Bytes
  latencyMs : Bytes → ℤ
  searchedAt : Bytes → ℤ
  consumedAt : Bytes → ℤ
  settlementAt : Bytes → ℤ
  entryID : LedgerEntry → ℤ
  postedAt : LedgerEntry → ℤ
  rejectedAt : RejectedAttempt → ℤ
  attemptID : RejectedAttempt → ℤ

namespace Reports

/-- `SettlementRow`. -/
structure SettlementRow where
  settlementID : Bytes
  productTitle : Bytes
  merchantName : Bytes
  grossAmountCents : ℤ
  publisherAmountCents : ℤ
  commissionBps : ℤ
  status : Status
  txHash : Option Bytes
  createdAt : ℤ
  confirmedAt : Option ℤ
  deriving DecidableEq

/-- `LedgerEntry`. -/
structure LedgerEntry where
  entryID : ℤ
  account : Account
  accountID : Bytes
  entryType : EntryType
  amountCents : ℤ
  currency : Bytes
  createdAt : ℤ
  deriving DecidableEq

/-- `Chain`. -/
structure Chain where
  settlementID : Bytes
  query : Bytes
  searchRequestID : Bytes
  searchLatencyMs : ℤ
  searchedAt : Option ℤ
  assertionID : Bytes
  assertionUsedAt : Option ℤ
  publisherID : Bytes
  publisherName : Bytes
  productID : Bytes
  productTitle : Bytes
  merchantName : Bytes
  grossCents : ℤ
  commissionBps : ℤ
  commissionCents : ℤ
  platformCents : ℤ
  publisherCents : ℤ
  network : Bytes
  txHash : Option Bytes
  status : Status
  confirmedAt : Option ℤ
  ledger : List LedgerEntry
  deriving DecidableEq

/-- `RejectionRow`. -/
structure RejectionRow where
  reason : Bytes
  assertionID : Option Bytes
  merchantID : Option Bytes
  detail : Option Bytes
  createdAt : ℤ
  deriving DecidableEq

end Reports

/-! ## The queries -/

section Queries

variable (cols : Columns)

/-- A row of `RecentSettlements`. -/
def Columns.settlementRow (s : SettlementRow) (pr : Product) (m : Merchant) : Reports.SettlementRow where
  settlementID := s.settlementID
  productTitle := cols.canonicalTitle pr.productID
  merchantName := cols.merchantName m.merchantID
  grossAmountCents := s.grossAmountCents
  publisherAmountCents := s.publisherAmountCents
  commissionBps := s.commissionBps
  status := s.status
  txHash := s.txHash
  createdAt := cols.settlementAt s.settlementID
  confirmedAt := s.confirmedAt

/-- `ORDER BY s.created_at DESC`; `tie` is how the rows of one instant come out. -/
def newestFirst (tie : Reports.SettlementRow → Reports.SettlementRow → Bool) (r s : Reports.SettlementRow) : Bool :=
  s.createdAt < r.createdAt || (r.createdAt = s.createdAt && tie r s)

/-- The joined rows of `RecentSettlements`, before they are ordered. -/
def settlementRows (db : DB) (publisherID : Bytes) : List Reports.SettlementRow :=
  let joined := innerJoin (fun j => j.1.merchantID)
    (innerJoin (·.productID) (group (·.publisherID) publisherID db.settlements) (·.productID) db.catalog.products)
    (·.merchantID) db.catalog.merchants
  joined.map fun ((s, pr), m) => cols.settlementRow s pr m

/-- `Store.RecentSettlements`. -/
def Store.recentSettlements (tie : Reports.SettlementRow → Reports.SettlementRow → Bool) (db : DB)
    (publisherID : Bytes) (limit : ℕ) : List Reports.SettlementRow :=
  ((settlementRows cols db publisherID).mergeSort (newestFirst tie)).take limit

/-- `Store.RecentRejections`. -/
def Store.recentRejections (db : DB) (publisherID : Bytes) (limit : ℕ) : List Reports.RejectionRow :=
  let newest (r s : RejectedAttempt) : Bool :=
    cols.rejectedAt s < cols.rejectedAt r ||
      (cols.rejectedAt r = cols.rejectedAt s && cols.attemptID s ≤ cols.attemptID r)
  let rows := ((group (·.publisherID) publisherID db.rejected).mergeSort newest).take limit
  rows.map fun r => ⟨r.reason, r.assertionID, r.merchantID, r.detail, cols.rejectedAt r⟩

def Columns.entry (e : LedgerEntry) : Reports.LedgerEntry :=
  ⟨cols.entryID e, e.account, e.accountID, e.entryType, e.amountCents, e.currency, cols.postedAt e⟩

/-- The second query of `Store.Chain`, with `ORDER BY entry_id`. -/
def chainLedger (db : DB) (settlementID : Bytes) : List Reports.LedgerEntry :=
  ((db.entriesOf settlementID).map cols.entry).mergeSort fun e f => e.entryID ≤ f.entryID

/-- A row of the joins of `Store.Chain`. -/
structure Joined where
  s : SettlementRow
  p : Publisher
  pr : Product
  m : Merchant
  ca : Consumed
  sr : Option SearchRequest

/-- The joins of `Store.Chain`. -/
def chainJoin (db : DB) (settlementID : Bytes) : List Joined :=
  let s := group (·.settlementID) settlementID db.settlements
  let p := innerJoin (·.publisherID) s (·.publisherID) db.catalog.publishers
  let pr := innerJoin (fun j => j.1.productID) p (·.productID) db.catalog.products
  let m := innerJoin (fun j => j.1.1.merchantID) pr (·.merchantID) db.catalog.merchants
  let ca := innerJoin (fun j => j.1.1.1.assertionID) m (·.assertionID) db.consumed
  let sr := leftJoin (fun j => j.1.1.1.1.searchRequestID) ca
    (db.catalog.searchRequests.map fun r => (some r.searchRequestID, r))
  sr.map fun (((((s, p), pr), m), ca), sr) => ⟨s, p, pr, m, ca, sr⟩

/-- What `Store.Chain` scans of a row. -/
def Columns.chain (j : Joined) (ledger : List Reports.LedgerEntry) : Reports.Chain where
  settlementID := j.s.settlementID
  query := (j.sr.map fun r => cols.queryText r.searchRequestID).getD []
  searchRequestID := j.s.searchRequestID.getD []
  searchLatencyMs := (j.sr.map fun r => cols.latencyMs r.searchRequestID).getD 0
  searchedAt := j.sr.map fun r => cols.searchedAt r.searchRequestID
  assertionID := j.s.assertionID
  assertionUsedAt := some (cols.consumedAt j.ca.assertionID)
  publisherID := j.s.publisherID
  publisherName := j.p.name
  productID := j.s.productID
  productTitle := cols.canonicalTitle j.pr.productID
  merchantName := cols.merchantName j.m.merchantID
  grossCents := j.s.grossAmountCents
  commissionBps := j.s.commissionBps
  commissionCents := j.s.commissionAmountCents
  platformCents := j.s.platformFeeCents
  publisherCents := j.s.publisherAmountCents
  network := j.s.chainNetwork
  txHash := j.s.txHash
  status := j.s.status
  confirmedAt := j.s.confirmedAt
  ledger := ledger

/-- `Store.Chain`, which takes the first row; `none` is `ErrSettlementNotFound`. -/
def Store.chain (db : DB) (settlementID : Bytes) : Option Reports.Chain :=
  (chainJoin db settlementID).head?.map fun j => cols.chain j (chainLedger cols db settlementID)

end Queries

/-! ## References along a run -/

section References

/-- The publisher, the merchant and the product of a row are in the catalog. -/
def Catalog.hasParties (c : Catalog) (r : SettlementRow) : Bool :=
  c.hasPublisher r.publisherID && c.hasMerchant r.merchantID && c.hasProduct r.productID

/-- The foreign keys from `settlements` into the reference tables. -/
def Referenced (db : DB) : Prop := ∀ r ∈ db.settlements, db.catalog.hasParties r = true

variable {svc : Service} {s t : Sys}

theorem hasParties_eq_of_terms (c : Catalog) {r q : SettlementRow} (h : r.terms = q.terms) :
    c.hasParties r = c.hasParties q :=
  show c.hasParties r.terms = c.hasParties q.terms from congrArg c.hasParties h

theorem mem_map_of_all {ρ κ : Type*} [DecidableEq ρ] [DecidableEq κ] {key : ρ → κ} {old new : List ρ} {k : κ}
    (h : (old.all fun r => decide (r ∈ new)) = true) (hk : k ∈ old.map key) : k ∈ new.map key := by
  obtain ⟨r, hr, rfl⟩ := List.mem_map.mp hk
  exact List.mem_map_of_mem (of_decide_eq_true (List.all_eq_true.mp h r hr))

/-- A party stays in a catalog that is only added to. -/
theorem hasParties_of_extends {new old : Catalog} (h : new.extends old = true) {r : SettlementRow}
    (hr : old.hasParties r = true) : new.hasParties r = true := by
  simp only [Catalog.extends, Bool.and_eq_true] at h
  obtain ⟨⟨⟨hp, hm⟩, hpr⟩, -⟩ := h
  simp only [Catalog.hasParties, Catalog.hasPublisher, Catalog.hasMerchant, Catalog.hasProduct, Bool.and_eq_true,
    decide_eq_true_eq] at hr ⊢
  exact ⟨⟨mem_map_of_all hp hr.1.1, mem_map_of_all hm hr.1.2⟩, mem_map_of_all hpr hr.2⟩

theorem Referenced.update {db db' : DB} (h : Referenced db) {id : Bytes} {f : SettlementRow → SettlementRow}
    (hf : ∀ r, (f r).terms = r.terms) (hc : db'.catalog = db.catalog)
    (hs : db'.settlements = Table.update (pendingAt id) f db.settlements) : Referenced db' := by
  intro r hr
  obtain ⟨q, hq, ht, -⟩ := update_terms hf (hs ▸ hr)
  rw [hc, hasParties_eq_of_terms db.catalog ht]
  exact h q hq

theorem Referenced.claim {db : DB} (h : Referenced db) {p : PendingSettlement} (hadm : db.Admits p) :
    Referenced (db.claim p) := by
  intro r hr
  rcases List.mem_append.mp hr with hr | hr
  · exact h r hr
  · obtain rfl := List.mem_singleton.mp hr
    have hrefs := hadm.references
    simp only [DB.references, Bool.and_eq_true] at hrefs
    show (db.catalog.hasPublisher p.row.publisherID && db.catalog.hasMerchant p.row.merchantID &&
      db.catalog.hasProduct p.row.productID) = true
    simp only [Bool.and_eq_true]
    exact ⟨⟨hrefs.1.1.2, hrefs.1.2⟩, hrefs.2⟩

theorem referenced_step {a : Action} (h : Referenced s.db) (hs : step svc s a = some t) : Referenced t.db := by
  cases moves_of_step hs with
  | begun r hc hpc hadm => exact h.claim hadm
  | @confirmed c now fate call p response r hc hpc hconf =>
    exact h.update (terms_confirm response.transaction now) rfl rfl
  | failed e hc hpc => exact h.update terms_fail rfl rfl
  | catalogued hx => exact fun r hr => hasParties_of_extends hx (h r hr)
  | _ => exact h

/-- **Every settlement refers to parties that are there**, in every state that a run reaches. -/
theorem referenced_run {catalog : Catalog} {as : List Action} (h : run svc (Sys.init catalog) as = some s) :
    Referenced s.db :=
  Runs.run_invariant (P := fun s => Referenced s.db) (fun _ _ _ hi hst => referenced_step hi hst)
    (fun _ hr => absurd hr List.not_mem_nil) h

end References

/-! ## The joins -/

section Shown

variable {cols : Columns} {db : DB} {r : SettlementRow}

/-- The joined row of a settlement. -/
structure Joined.Of (db : DB) (r : SettlementRow) (j : Joined) : Prop where
  settlement : j.s = r
  publisher : j.p ∈ db.catalog.publishers ∧ j.p.publisherID = r.publisherID
  product : j.pr ∈ db.catalog.products ∧ j.pr.productID = r.productID
  merchant : j.m ∈ db.catalog.merchants ∧ j.m.merchantID = r.merchantID
  claim : j.ca ∈ db.consumed ∧ j.ca.assertionID = r.assertionID
  search : ∀ q, j.sr = some q → q ∈ db.catalog.searchRequests ∧ r.searchRequestID = some q.searchRequestID

/-- Whatever comes out of the joins belongs to the settlement. -/
theorem of_mem_chainJoin (h : Books db) (hr : r ∈ db.settlements) {j : Joined}
    (hj : j ∈ chainJoin db r.settlementID) : j.Of db r := by
  simp only [chainJoin, List.mem_map, Prod.exists] at hj
  obtain ⟨s, p, pr, m, ca, sr, hj, rfl⟩ := hj
  obtain ⟨hj, hsr⟩ := mem_leftJoin hj
  obtain ⟨hj, hca⟩ := mem_innerJoin.mp hj
  obtain ⟨hj, hm⟩ := mem_innerJoin.mp hj
  obtain ⟨hj, hpr⟩ := mem_innerJoin.mp hj
  obtain ⟨hj, hp⟩ := mem_innerJoin.mp hj
  obtain ⟨hs, hid⟩ := mem_group.mp hj
  obtain rfl := h.ids.eq_of_key_eq hs hr hid
  refine ⟨rfl, hp, hpr, hm, hca, fun q hq => ?_⟩
  obtain ⟨q', hq', he⟩ := List.mem_map.mp (hsr q hq)
  obtain ⟨hkey, rfl⟩ := Prod.mk.injEq .. ▸ he
  exact ⟨hq', hkey.symm⟩

/-- **No settlement is lost to a join.** -/
theorem chainJoin_ne_nil (h : Books db) (href : Referenced db) (hr : r ∈ db.settlements) :
    chainJoin db r.settlementID ≠ [] := by
  have hparties := href r hr
  simp only [Catalog.hasParties, Catalog.hasPublisher, Catalog.hasMerchant, Catalog.hasProduct, Bool.and_eq_true,
    decide_eq_true_eq] at hparties
  obtain ⟨⟨hpub, hmer⟩, hprod⟩ := hparties
  obtain ⟨p, hp, hpid⟩ := List.mem_map.mp hpub
  obtain ⟨pr, hpr, hprid⟩ := List.mem_map.mp hprod
  obtain ⟨m, hm, hmid⟩ := List.mem_map.mp hmer
  have hclaim : r.assertionID ∈ db.consumed.map (·.assertionID) := h.claims ▸ List.mem_map_of_mem hr
  have hs : r ∈ group (·.settlementID) r.settlementID db.settlements := mem_group.mpr ⟨hr, rfl⟩
  have hjp := mem_join (·.publisherID) hs hp hpid
  have hjpr := mem_join (fun j => j.1.productID) hjp hpr hprid
  have hjm := mem_join (fun j => j.1.1.merchantID) hjpr hm hmid
  unfold chainJoin
  simp only [ne_eq, List.map_eq_nil_iff]
  exact leftJoin_ne_nil (innerJoin_ne_nil hjm hclaim)

/-- A chain is found for every settlement. -/
theorem chain_of_mem (cols : Columns) (h : Books db) (href : Referenced db) (hr : r ∈ db.settlements) :
    ∃ j, j.Of db r ∧
      Store.chain cols db r.settlementID = some (cols.chain j (chainLedger cols db r.settlementID)) := by
  obtain ⟨j, js, hj⟩ := List.exists_cons_of_ne_nil (chainJoin_ne_nil h href hr)
  refine ⟨j, of_mem_chainJoin h hr (hj ▸ List.mem_cons_self), ?_⟩
  rw [Store.chain, hj]
  rfl

/-- And for nothing else. -/
theorem chain_eq_none {id : Bytes} (hid : id ∉ db.settlements.map (·.settlementID)) :
    Store.chain cols db id = none := by
  have hs : group (·.settlementID) id db.settlements = [] := group_eq_nil hid
  rw [Store.chain, chainJoin, hs]
  rfl

/-- The ledger of a chain: the entries of a confirmed settlement, which sum to zero, and none of any other. -/
structure LedgerShown (cols : Columns) (r : SettlementRow) (shown : List Reports.LedgerEntry) : Prop where
  confirmed : r.status = .confirmed → shown.Perm (r.entries.map cols.entry) ∧ (shown.map (·.amountCents)).sum = 0
  unposted : r.status ≠ .confirmed → shown = []

theorem ledgerShown (h : Books db) (hr : r ∈ db.settlements) :
    LedgerShown cols r (chainLedger cols db r.settlementID) := by
  have hposted := h.posted r hr
  constructor
  · intro hs
    rw [if_pos hs] at hposted
    have hperm : (chainLedger cols db r.settlementID).Perm (r.entries.map cols.entry) := by
      rw [chainLedger, hposted]
      exact List.mergeSort_perm _ _
    refine ⟨hperm, ?_⟩
    rw [(hperm.map _).sum_eq, List.map_map]
    exact SettlementRow.sum_entries (h.checks r hr)
  · intro hs
    rw [if_neg hs] at hposted
    rw [chainLedger, hposted, List.map_nil, List.mergeSort_nil]

end Shown

/-! ## The rows of a publisher -/

section Rows

variable {cols : Columns} {tie : Reports.SettlementRow → Reports.SettlementRow → Bool} {db : DB} {publisherID : Bytes}

/-- The row that a publisher's page has of a settlement. -/
def Columns.rowOf (cols : Columns) (r : SettlementRow) : Reports.SettlementRow :=
  cols.settlementRow r ⟨r.productID⟩ ⟨r.merchantID⟩

/-- A row shows what the chain of its settlement shows. -/
structure Reports.SettlementRow.Shows (row : Reports.SettlementRow) (c : Reports.Chain) : Prop where
  settlementID : row.settlementID = c.settlementID
  productTitle : row.productTitle = c.productTitle
  merchantName : row.merchantName = c.merchantName
  gross : row.grossAmountCents = c.grossCents
  publisher : row.publisherAmountCents = c.publisherCents
  rate : row.commissionBps = c.commissionBps
  status : row.status = c.status
  txHash : row.txHash = c.txHash
  confirmedAt : row.confirmedAt = c.confirmedAt

theorem shows_of {r : SettlementRow} {j : Joined} (h : j.Of db r) (ledger : List Reports.LedgerEntry) :
    (cols.rowOf r).Shows (cols.chain j ledger) := by
  obtain ⟨rfl, -, hpr, hm, -, -⟩ := h
  refine ⟨rfl, ?_, ?_, rfl, rfl, rfl, rfl, rfl, rfl⟩
  · exact congrArg cols.canonicalTitle hpr.2.symm
  · exact congrArg cols.merchantName hm.2.symm

/-- **The joins keep the settlements of the publisher**, each once. -/
theorem settlementRows_eq (href : Referenced db) (hp : Table.Keyed (·.productID) db.catalog.products)
    (hm : Table.Keyed (·.merchantID) db.catalog.merchants) :
    settlementRows cols db publisherID = (group (·.publisherID) publisherID db.settlements).map cols.rowOf := by
  have hmine : ∀ r ∈ group (·.publisherID) publisherID db.settlements,
      r.productID ∈ db.catalog.products.map (·.productID) ∧
        r.merchantID ∈ db.catalog.merchants.map (·.merchantID) := by
    intro r hr
    have hparties := href r (mem_group.mp hr).1
    simp only [Catalog.hasParties, Catalog.hasMerchant, Catalog.hasProduct, Bool.and_eq_true,
      decide_eq_true_eq] at hparties
    exact ⟨hparties.2, hparties.1.2⟩
  have hproducts := map_fst_innerJoin (·.productID) (group (·.publisherID) publisherID db.settlements) hp
    fun r hr => (hmine r hr).1
  have hmerchants := map_fst_innerJoin (fun j : SettlementRow × Product => j.1.merchantID)
    (innerJoin (·.productID) (group (·.publisherID) publisherID db.settlements) (·.productID)
      db.catalog.products) hm fun j hj => (hmine j.1 (mem_innerJoin.mp hj).1).2
  have hrow : ∀ j ∈ innerJoin (fun j : SettlementRow × Product => j.1.merchantID)
      (innerJoin (·.productID) (group (·.publisherID) publisherID db.settlements) (·.productID) db.catalog.products)
      (·.merchantID) db.catalog.merchants,
      cols.settlementRow j.1.1 j.1.2 j.2 = cols.rowOf j.1.1 := by
    rintro ⟨⟨r, pr⟩, m⟩ hj
    obtain ⟨hj, -, hmid⟩ := mem_innerJoin.mp hj
    obtain ⟨-, -, hprid⟩ := mem_innerJoin.mp hj
    show cols.settlementRow r pr m = cols.settlementRow r ⟨r.productID⟩ ⟨r.merchantID⟩
    rw [← hprid, ← hmid]
  unfold settlementRows
  simp only
  calc _ = ((innerJoin (fun j : SettlementRow × Product => j.1.merchantID)
        (innerJoin (·.productID) (group (·.publisherID) publisherID db.settlements) (·.productID)
          db.catalog.products) (·.merchantID) db.catalog.merchants).map (·.1)).map fun j => cols.rowOf j.1 := by
        rw [List.map_map]
        exact List.map_congr_left hrow
    _ = ((innerJoin (·.productID) (group (·.publisherID) publisherID db.settlements) (·.productID)
          db.catalog.products).map (·.1)).map cols.rowOf := by
        rw [hmerchants, List.map_map]
        rfl
    _ = _ := by rw [hproducts]

theorem mem_recentSettlements (href : Referenced db) (hp : Table.Keyed (·.productID) db.catalog.products)
    (hm : Table.Keyed (·.merchantID) db.catalog.merchants) {limit : ℕ} {row : Reports.SettlementRow}
    (h : row ∈ Store.recentSettlements cols tie db publisherID limit) :
    ∃ r ∈ db.settlements, r.publisherID = publisherID ∧ cols.rowOf r = row := by
  have hmem := (List.mergeSort_perm _ _).mem_iff.mp (List.mem_of_mem_take h)
  rw [settlementRows_eq href hp hm] at hmem
  obtain ⟨r, hr, he⟩ := List.mem_map.mp hmem
  exact ⟨r, (mem_group.mp hr).1, (mem_group.mp hr).2, he⟩

/-- A page that is long enough has a row for every settlement of the publisher. -/
theorem recentSettlements_perm (href : Referenced db) (hp : Table.Keyed (·.productID) db.catalog.products)
    (hm : Table.Keyed (·.merchantID) db.catalog.merchants) {limit : ℕ}
    (hlimit : (group (·.publisherID) publisherID db.settlements).length ≤ limit) :
    (Store.recentSettlements cols tie db publisherID limit).Perm
      ((group (·.publisherID) publisherID db.settlements).map cols.rowOf) := by
  rw [Store.recentSettlements, settlementRows_eq href hp hm, List.take_of_length_le]
  · exact List.mergeSort_perm _ _
  · rw [List.length_mergeSort, List.length_map]
    exact hlimit

/-- The confirmed rows of a publisher's page. -/
def confirmedRows (rows : List Reports.SettlementRow) : List Reports.SettlementRow :=
  rows.filter fun r => r.status = .confirmed

/-- **The rows add up to the totals above them.** -/
theorem rows_add_up (href : Referenced db) (hp : Table.Keyed (·.productID) db.catalog.products)
    (hm : Table.Keyed (·.merchantID) db.catalog.merchants) {limit : ℕ}
    (hlimit : (group (·.publisherID) publisherID db.settlements).length ≤ limit) {sum : Reports.PublisherSummary}
    (hsum : Store.publisherSummary db publisherID = some sum) :
    (confirmedRows (Store.recentSettlements cols tie db publisherID limit)).length = sum.settlementCount ∧
      ((confirmedRows (Store.recentSettlements cols tie db publisherID limit)).map (·.publisherAmountCents)).sum
        = sum.earnedCents := by
  obtain ⟨p, -, -, rfl⟩ := publisherSummary_eq_some hsum
  have hperm : (confirmedRows (Store.recentSettlements cols tie db publisherID limit)).Perm
      ((db.settledBy .confirmed publisherID).map cols.rowOf) := by
    refine ((recentSettlements_perm href hp hm hlimit).filter _).trans (List.Perm.of_eq ?_)
    rw [List.filter_map, DB.settledBy, DB.inStatus, group, group, List.filter_filter, List.filter_filter]
    refine congrArg _ (List.filter_congr fun r _ => ?_)
    exact Bool.and_comm _ _
  constructor
  · rw [hperm.length_eq, List.length_map]
  · rw [(hperm.map _).sum_eq, List.map_map]
    rfl

end Rows

/-- **Nothing falls out of the chain.**  In every state that a run of concurrent settlements reaches, each settlement
has a chain with its parties, its claim and its ledger, nothing else has one, and every row of a publisher's page is
the head of a chain that shows the same. -/
theorem chains_complete (svc : Service) (catalog : Catalog) (cols : Columns)
    (tie : Reports.SettlementRow → Reports.SettlementRow → Bool) {as : List Action} {s : Sys}
    (h : run svc (Sys.init catalog) as = some s) :
    (∀ r ∈ s.db.settlements, ∃ j, j.Of s.db r ∧
      Store.chain cols s.db r.settlementID = some (cols.chain j (chainLedger cols s.db r.settlementID)) ∧
      LedgerShown cols r (chainLedger cols s.db r.settlementID)) ∧
    (∀ id, id ∉ s.db.settlements.map (·.settlementID) → Store.chain cols s.db id = none) ∧
    (Table.Keyed (·.productID) s.db.catalog.products → Table.Keyed (·.merchantID) s.db.catalog.merchants →
      ∀ publisherID limit,
        (∀ row ∈ Store.recentSettlements cols tie s.db publisherID limit, ∃ c,
          Store.chain cols s.db row.settlementID = some c ∧ c.publisherID = publisherID ∧ row.Shows c) ∧
        ((group (·.publisherID) publisherID s.db.settlements).length ≤ limit →
          ∀ sum, Store.publisherSummary s.db publisherID = some sum →
            (confirmedRows (Store.recentSettlements cols tie s.db publisherID limit)).length = sum.settlementCount ∧
              ((confirmedRows (Store.recentSettlements cols tie s.db publisherID limit)).map
                (·.publisherAmountCents)).sum = sum.earnedCents)) := by
  have hbooks := (inv_reachable h).books
  have href := referenced_run h
  refine ⟨?_, fun id hid => chain_eq_none hid, ?_⟩
  · intro r hr
    obtain ⟨j, hj, hc⟩ := chain_of_mem cols hbooks href hr
    exact ⟨j, hj, hc, ledgerShown hbooks hr⟩
  · intro hp hm publisherID limit
    refine ⟨?_, fun hlimit sum hsum => rows_add_up href hp hm hlimit hsum⟩
    intro row hrow
    obtain ⟨r, hr, hpub, rfl⟩ := mem_recentSettlements href hp hm hrow
    obtain ⟨j, hj, hc⟩ := chain_of_mem cols hbooks href hr
    refine ⟨_, hc, ?_, shows_of hj _⟩
    rw [← hpub, ← hj.settlement]
    rfl

namespace Sample

def columns : Columns :=
  ⟨id, id, id, fun _ => 0, fun _ => 0, fun _ => 0, fun _ => 0, fun _ => 0, fun _ => 0, fun _ => 0, fun _ => 0⟩

end Sample

theorem chains_complete_sample :
    (∃ j, j.Of Sample.final.db Sample.row ∧
      Store.chain Sample.columns Sample.final.db Sample.settlementID
        = some (Sample.columns.chain j (chainLedger Sample.columns Sample.final.db Sample.settlementID)) ∧
      LedgerShown Sample.columns Sample.row (chainLedger Sample.columns Sample.final.db Sample.settlementID)) ∧
    ∀ row ∈ Store.recentSettlements Sample.columns (fun _ _ => true) Sample.final.db (Utf8.str "pub_1") 25, ∃ c,
      Store.chain Sample.columns Sample.final.db row.settlementID = some c ∧ c.publisherID = Utf8.str "pub_1" ∧
        row.Shows c := by
  have h := chains_complete Sample.service Sample.catalog Sample.columns (fun _ _ => true) Sample.run_actions
  refine ⟨h.1 Sample.row (by decide), (h.2.2 ?_ ?_ _ 25).1⟩
  · exact List.nodup_singleton _
  · exact List.nodup_singleton _

end Settlement
