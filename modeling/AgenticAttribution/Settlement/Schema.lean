import AgenticAttribution.Lib.Table
import AgenticAttribution.Lib.Utf8
import Mathlib.Algebra.Group.Int.Defs
import Mathlib.Data.Int.Notation

/-!
# Settlement.Schema — the tables of the system of record

`db/migrations`.  The reference tables, which settlement only reads, form a `Catalog`; it carries the foreign keys
and checks that Postgres enforces on them as proofs.  The tables that settlement writes are plain lists in `DB`,
and every statement that writes one checks the constraints itself.
-/

namespace Settlement

/-- What Postgres takes for a `TEXT` value: UTF-8 without a NUL. -/
def textOk (s : Bytes) : Bool := Utf8.valid s && !s.contains 0

/-! ## Reference data -/

structure Publisher where
  publisherID : Bytes
  name : Bytes
  payoutCurrency : Bytes
  deriving DecidableEq

structure Merchant where
  merchantID : Bytes
  deriving DecidableEq

structure Product where
  productID : Bytes
  deriving DecidableEq

structure ListingRow where
  listingID : Bytes
  productID : Bytes
  merchantID : Bytes
  priceCents : ℤ
  currency : Bytes
  inStock : Bool
  commissionBps : ℤ
  deriving DecidableEq

structure SearchRequest where
  searchRequestID : Bytes
  publisherID : Bytes
  deriving DecidableEq

/-- A row the `listings` table admits beside its foreign keys: a price is a non-negative `BIGINT`. -/
def ListingRow.ok (l : ListingRow) : Bool :=
  textOk l.listingID && textOk l.productID && textOk l.merchantID && textOk l.currency &&
    0 ≤ l.priceCents && l.priceCents < 2 ^ 63 && 0 ≤ l.commissionBps && l.commissionBps ≤ 10000

/-- The reference tables, with the constraints that hold between them. -/
structure Catalog where
  publishers : List Publisher
  merchants : List Merchant
  products : List Product
  listings : List ListingRow
  searchRequests : List SearchRequest
  listings_ok : ∀ l ∈ listings, l.ok = true
  listings_product : ∀ l ∈ listings, l.productID ∈ products.map (·.productID)
  listings_merchant : ∀ l ∈ listings, l.merchantID ∈ merchants.map (·.merchantID)
  searchRequests_ok : ∀ s ∈ searchRequests, textOk s.searchRequestID = true ∧ textOk s.publisherID = true
  searchRequests_publisher : ∀ s ∈ searchRequests, s.publisherID ∈ publishers.map (·.publisherID)

/-- No reference data at all. -/
def Catalog.empty : Catalog where
  publishers := []
  merchants := []
  products := []
  listings := []
  searchRequests := []
  listings_ok := by simp
  listings_product := by simp
  listings_merchant := by simp
  searchRequests_ok := by simp
  searchRequests_publisher := by simp

/-- Parties, products and search requests are only ever added; listings come and go. -/
def Catalog.extends (new old : Catalog) : Bool :=
  old.publishers.all (· ∈ new.publishers) && old.merchants.all (· ∈ new.merchants) &&
    old.products.all (· ∈ new.products) && old.searchRequests.all (· ∈ new.searchRequests)

/-! ## What settlement writes -/

structure Consumed where
  assertionID : Bytes
  publisherID : Bytes
  productID : Bytes
  deriving DecidableEq

/-- `settlement_status`. -/
inductive Status where
  | pending
  | confirmed
  | failed
  | reversed
  deriving DecidableEq

structure SettlementRow where
  settlementID : Bytes
  assertionID : Bytes
  searchRequestID : Option Bytes
  publisherID : Bytes
  merchantID : Bytes
  productID : Bytes
  grossAmountCents : ℤ
  currency : Bytes
  commissionBps : ℤ
  commissionAmountCents : ℤ
  platformFeeCents : ℤ
  publisherAmountCents : ℤ
  chainNetwork : Bytes
  txHash : Option Bytes
  status : Status
  /-- In microseconds, the resolution of `TIMESTAMPTZ`. -/
  confirmedAt : Option ℤ
  deriving DecidableEq

/-- `ledger_account`. -/
inductive Account where
  | merchantPayable
  | platformRevenue
  | publisherPayable
  deriving DecidableEq

/-- `ledger_entry_type`. -/
inductive EntryType where
  | commission
  | reversal
  | adjustment
  | payout
  deriving DecidableEq

structure LedgerEntry where
  settlementID : Bytes
  account : Account
  accountID : Bytes
  entryType : EntryType
  amountCents : ℤ
  currency : Bytes
  deriving DecidableEq

structure RejectedAttempt where
  publisherID : Bytes
  assertionID : Option Bytes
  merchantID : Option Bytes
  reason : Bytes
  detail : Option Bytes
  deriving DecidableEq

structure DB where
  catalog : Catalog
  consumed : List Consumed
  settlements : List SettlementRow
  ledger : List LedgerEntry
  rejected : List RejectedAttempt

/-- An empty ledger over given reference data. -/
def DB.empty (catalog : Catalog) : DB := ⟨catalog, [], [], [], []⟩

def Catalog.hasPublisher (c : Catalog) (id : Bytes) : Bool := id ∈ c.publishers.map (·.publisherID)

def Catalog.hasMerchant (c : Catalog) (id : Bytes) : Bool := id ∈ c.merchants.map (·.merchantID)

def Catalog.hasProduct (c : Catalog) (id : Bytes) : Bool := id ∈ c.products.map (·.productID)

def Catalog.hasSearchRequest (c : Catalog) (id : Bytes) : Bool := id ∈ c.searchRequests.map (·.searchRequestID)

theorem Catalog.extends_refl (c : Catalog) : c.extends c = true := by
  simp [Catalog.extends]

/-! ## Constraints -/

section Constraints

/-- Why Postgres refuses a statement. -/
inductive Violation where
  | invalidText
  | uniqueKey
  | foreignKey
  | check
  deriving DecidableEq

/-- The `CHECK` constraints of `settlements`, on values that fit their `BIGINT` columns. -/
def SettlementRow.checks (r : SettlementRow) : Bool :=
  0 < r.grossAmountCents && r.grossAmountCents < 2 ^ 63 && 0 ≤ r.commissionBps && r.commissionBps ≤ 10000 &&
    0 ≤ r.commissionAmountCents && r.commissionAmountCents < 2 ^ 63 &&
    0 ≤ r.platformFeeCents && 0 ≤ r.publisherAmountCents &&
    r.platformFeeCents + r.publisherAmountCents = r.commissionAmountCents

/-- Every text of the row is one Postgres takes. -/
def SettlementRow.textsOk (r : SettlementRow) : Bool :=
  textOk r.settlementID && textOk r.assertionID && r.searchRequestID.all textOk && textOk r.publisherID &&
    textOk r.merchantID && textOk r.productID && textOk r.currency && textOk r.chainNetwork

theorem SettlementRow.textOk_settlementID {r : SettlementRow} (h : r.textsOk = true) :
    textOk r.settlementID = true := by
  simp only [textsOk, Bool.and_eq_true] at h
  exact h.1.1.1.1.1.1.1

/-- The foreign keys of `settlements`. -/
def DB.references (db : DB) (r : SettlementRow) : Bool :=
  r.assertionID ∈ db.consumed.map (·.assertionID) && r.searchRequestID.all db.catalog.hasSearchRequest &&
    db.catalog.hasPublisher r.publisherID && db.catalog.hasMerchant r.merchantID &&
    db.catalog.hasProduct r.productID

/-- `INSERT INTO consumed_assertions … ON CONFLICT (assertion_id) DO NOTHING`; `none` if the row was there. -/
def DB.insertConsumed (db : DB) (c : Consumed) : Except Violation (Option DB) :=
  if !(textOk c.assertionID && textOk c.publisherID && textOk c.productID) then .error .invalidText
  else if c.assertionID ∈ db.consumed.map (·.assertionID) then .ok none
  else if !(db.catalog.hasPublisher c.publisherID && db.catalog.hasProduct c.productID) then .error .foreignKey
  else .ok (some { db with consumed := db.consumed ++ [c] })

/-- `INSERT INTO settlements …`. -/
def DB.insertSettlement (db : DB) (r : SettlementRow) : Except Violation DB :=
  if !r.textsOk then .error .invalidText
  else if !r.checks then .error .check
  else if r.settlementID ∈ db.settlements.map (·.settlementID) then .error .uniqueKey
  else if !db.references r then .error .foreignKey
  else .ok { db with settlements := db.settlements ++ [r] }

/-- The condition of the conditional updates. -/
def pendingAt (id : Bytes) (r : SettlementRow) : Bool := decide (r.settlementID = id ∧ r.status = .pending)

theorem pendingAt_iff {id : Bytes} {r : SettlementRow} :
    pendingAt id r = true ↔ r.settlementID = id ∧ r.status = .pending := decide_eq_true_iff

/-- `UPDATE settlements SET … WHERE settlement_id = id AND status = 'pending'`, with the rows affected. -/
def DB.updatePending (db : DB) (id : Bytes) (f : SettlementRow → SettlementRow) : DB × ℕ :=
  ({ db with settlements := Table.update (pendingAt id) f db.settlements },
    Table.affected (pendingAt id) db.settlements)

/-- `INSERT INTO ledger_entries …`, all rows or none. -/
def DB.insertEntries (db : DB) (entries : List LedgerEntry) : Except Violation DB :=
  if !entries.all fun e => textOk e.settlementID && textOk e.accountID && textOk e.currency then .error .invalidText
  else if !entries.all fun e => decide (e.settlementID ∈ db.settlements.map (·.settlementID)) then
    .error .foreignKey
  else .ok { db with ledger := db.ledger ++ entries }

/-- `INSERT INTO rejected_attempts …`. -/
def DB.insertRejected (db : DB) (r : RejectedAttempt) : Except Violation DB :=
  if textOk r.publisherID && r.assertionID.all textOk && r.merchantID.all textOk && textOk r.reason &&
      r.detail.all textOk then
    .ok { db with rejected := db.rejected ++ [r] }
  else .error .invalidText

end Constraints

end Settlement
