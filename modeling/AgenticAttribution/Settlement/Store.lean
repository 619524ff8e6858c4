import AgenticAttribution.Attribution.Assertion
import AgenticAttribution.Lib.Fallible
import AgenticAttribution.Settlement.Schema

/-!
# Settlement.Store — the writes of the settlement service

`internal/settlement/store.go`.  Each function is one transaction: it maps the database to the database behind it
and to the error its caller sees.  The environment decides how far the transaction gets (`Fate`): the connection
or the request context may die before any of its statements, and the acknowledgement of a commit that took effect
may be lost.

`begin_cases`, `confirm_cases` and `fail_cases` say once what each transaction can do to the database.
-/

namespace Settlement

open Attribution Fallible

/-- The wording of the errors that Postgres reports. -/
structure Driver where
  violation : Violation → Bytes

/-- How far a transaction gets. -/
inductive Fate where
  /-- Every statement runs and the commit is acknowledged. -/
  | done
  /-- The connection fails at statement `stmt`, and the transaction is rolled back; statement 0 opens it. -/
  | lost (stmt : ℕ) (why : Bytes)
  /-- The commit takes effect, but the caller gets an error. -/
  | unacknowledged (why : Bytes)
  deriving DecidableEq

def platformAccountID : Bytes := Utf8.str "platform"

/-- A listing as `LookupListing` returns it. -/
structure Listing where
  listingID : Bytes
  priceCents : ℤ
  currency : Bytes
  inStock : Bool
  commissionBps : ℤ
  deriving DecidableEq

/-- `PendingSettlement`. -/
structure PendingSettlement where
  settlementID : Bytes
  assertionID : Bytes
  searchRequestID : Bytes
  publisherID : Bytes
  merchantID : Bytes
  productID : Bytes
  grossAmountCents : ℤ
  currency : Bytes
  commissionBps : ℤ
  split : CommissionSplit
  chainNetwork : Bytes
  deriving DecidableEq

/-- An absent identifier is NULL in the column. -/
def nullable (s : Bytes) : Option Bytes := if s = [] then none else some s

/-! ## Transactions -/

section Transactions

/-- The driver's answer when statement `stmt` cannot be run. -/
def attempt (fate : Fate) (stmt : ℕ) (pre : String) : Except Err Unit :=
  match fate with
  | .lost i why => if i = stmt then .error (GoError.wrap (Utf8.str pre) (GoError.plain why)) else .ok ()
  | _ => .ok ()

/-- A statement that Postgres may refuse. -/
def exec {α : Type} (d : Driver) (pre : String) : Except Violation α → Except Err α
  | .ok a => .ok a
  | .error v => .error (GoError.wrap (Utf8.str pre) (GoError.plain (d.violation v)))

/-- The end of a transaction: an error rolls it back, and the acknowledgement of its commit may be lost. -/
def commit (fate : Fate) (pre : String) (old : DB) : Except Err DB → DB × Option Err
  | .error e => (old, some e)
  | .ok db =>
    match fate with
    | .unacknowledged why => (db, some (GoError.wrap (Utf8.str pre) (GoError.plain why)))
    | _ => (db, none)

@[simp] theorem attempt_done (stmt : ℕ) (pre : String) : attempt .done stmt pre = .ok () := rfl

@[simp] theorem exec_ok {α : Type} (d : Driver) (pre : String) (a : α) : exec d pre (.ok a) = .ok a := rfl

theorem exec_eq_ok {α : Type} {d : Driver} {pre : String} {r : Except Violation α} {a : α} :
    exec d pre r = .ok a ↔ r = .ok a := by
  cases r <;> simp [exec]

/-- What a transaction leaves behind: what was there, with an error, or what its statements made of it. -/
theorem commit_cases {fate : Fate} {pre : String} {old db : DB} {body : Except Err DB} {r : Option Err}
    (h : commit fate pre old body = (db, r)) : (db = old ∧ r ≠ none) ∨ body = .ok db := by
  cases body with
  | error e =>
    simp only [commit, Prod.mk.injEq] at h
    exact Or.inl ⟨h.1.symm, by rw [← h.2]; exact Option.some_ne_none e⟩
  | ok db' =>
    refine Or.inr ?_
    cases fate <;> simp only [commit, Prod.mk.injEq] at h <;> rw [h.1]

end Transactions

/-! ## Reading the catalog -/

section Lookup

def ListingRow.listing (l : ListingRow) : Listing :=
  ⟨l.listingID, l.priceCents, l.currency, l.inStock, l.commissionBps⟩

/-- The rows that `LookupListing` selects. -/
def DB.listingsOf (db : DB) (productID merchantID : Bytes) : List ListingRow :=
  db.catalog.listings.filter fun l => l.productID = productID ∧ l.merchantID = merchantID

/-- `Store.LookupListing`.  The query has no order, so of several rows Postgres returns whichever it likes. -/
def Store.lookupListing (d : Driver) (db : DB) (productID merchantID : Bytes) (pick : ℕ) (fate : Fate) :
    Except Err Listing := do
  attempt fate 1 "lookup listing: "
  if !(textOk productID && textOk merchantID) then exec d "lookup listing: " (.error .invalidText)
  else
    let rows := db.listingsOf productID merchantID
    match rows[pick % rows.length]? with
    | none => .error Sentinel.listingNotFound.err
    | some l => .ok l.listing

/-- A listing that was found is a row of the table. -/
theorem Store.lookupListing_eq_ok {d : Driver} {db : DB} {productID merchantID : Bytes} {pick : ℕ} {fate : Fate}
    {l : Listing} (h : Store.lookupListing d db productID merchantID pick fate = .ok l) :
    ∃ row ∈ db.catalog.listings, row.productID = productID ∧ row.merchantID = merchantID ∧ row.listing = l := by
  obtain ⟨-, -, h⟩ := bind_eq_ok.mp h
  split_ifs at h with htext
  · cases exec_eq_ok.mp h
  · simp only at h
    split at h
    · cases h
    · rename_i row hrow
      have hmem := List.mem_of_getElem? hrow
      obtain ⟨hrow, hkey⟩ := List.mem_filter.mp hmem
      simp only [decide_eq_true_eq] at hkey
      exact ⟨row, hrow, hkey.1, hkey.2, Except.ok.inj h⟩

end Lookup

/-! ## Begin -/

section Begin

/-- The row that `Begin` inserts. -/
def PendingSettlement.row (p : PendingSettlement) : SettlementRow where
  settlementID := p.settlementID
  assertionID := p.assertionID
  searchRequestID := nullable p.searchRequestID
  publisherID := p.publisherID
  merchantID := p.merchantID
  productID := p.productID
  grossAmountCents := p.grossAmountCents
  currency := p.currency
  commissionBps := p.commissionBps
  commissionAmountCents := p.split.commissionAmountCents
  platformFeeCents := p.split.platformFeeCents
  publisherAmountCents := p.split.publisherAmountCents
  chainNetwork := p.chainNetwork
  txHash := none
  status := .pending
  confirmedAt := none

/-- The claim that `Begin` inserts. -/
def PendingSettlement.claim (p : PendingSettlement) : Consumed := ⟨p.assertionID, p.publisherID, p.productID⟩

def Store.beginTx (d : Driver) (db : DB) (p : PendingSettlement) (fate : Fate) : Except Err DB := do
  attempt fate 0 "begin settlement tx: "
  attempt fate 1 "claim assertion: "
  match ← exec d "claim assertion: " (db.insertConsumed p.claim) with
  | none => .error Sentinel.assertionReused.err
  | some db =>
    attempt fate 2 "insert pending settlement: "
    let db ← exec d "insert pending settlement: " (db.insertSettlement p.row)
    attempt fate 3 "commit settlement tx: "
    .ok db

/-- `Store.Begin`. -/
def Store.begin (d : Driver) (db : DB) (p : PendingSettlement) (fate : Fate) : DB × Option Err :=
  commit fate "commit settlement tx: " db (Store.beginTx d db p fate)

/-- The database with the claim and the pending row of `p` in it. -/
def DB.claim (db : DB) (p : PendingSettlement) : DB :=
  { db with consumed := db.consumed ++ [p.claim], settlements := db.settlements ++ [p.row] }

/-- The constraints that a claim has to meet. -/
structure DB.Admits (db : DB) (p : PendingSettlement) : Prop where
  claimTexts : (textOk p.assertionID && textOk p.publisherID && textOk p.productID) = true
  unclaimed : p.assertionID ∉ db.consumed.map (·.assertionID)
  parties : (db.catalog.hasPublisher p.publisherID && db.catalog.hasProduct p.productID) = true
  texts : p.row.textsOk = true
  checks : p.row.checks = true
  fresh : p.settlementID ∉ db.settlements.map (·.settlementID)
  references : { db with consumed := db.consumed ++ [p.claim] }.references p.row = true

theorem DB.insertConsumed_eq_ok_some {db db' : DB} {c : Consumed} :
    db.insertConsumed c = .ok (some db') ↔
      (textOk c.assertionID && textOk c.publisherID && textOk c.productID) = true ∧
      c.assertionID ∉ db.consumed.map (·.assertionID) ∧
      (db.catalog.hasPublisher c.publisherID && db.catalog.hasProduct c.productID) = true ∧
      db' = { db with consumed := db.consumed ++ [c] } := by
  unfold DB.insertConsumed
  rw [check_eq_ok]
  by_cases hused : c.assertionID ∈ db.consumed.map (·.assertionID)
  · rw [if_pos hused]
    simp only [Except.ok.injEq, reduceCtorEq, hused, not_true, false_and, and_false]
  · rw [if_neg hused, check_eq_ok, Except.ok.injEq, Option.some.injEq, eq_comm (b := db'), and_iff_right hused]

theorem DB.insertSettlement_eq_ok {db db' : DB} {r : SettlementRow} :
    db.insertSettlement r = .ok db' ↔
      r.textsOk = true ∧ r.checks = true ∧ r.settlementID ∉ db.settlements.map (·.settlementID) ∧
      db.references r = true ∧ db' = { db with settlements := db.settlements ++ [r] } := by
  unfold DB.insertSettlement
  rw [check_eq_ok, check_eq_ok, guard_eq_ok, check_eq_ok, Except.ok.injEq, eq_comm (b := db')]

theorem Store.beginTx_eq_ok {d : Driver} {db db' : DB} {p : PendingSettlement} {fate : Fate}
    (h : Store.beginTx d db p fate = .ok db') : db.Admits p ∧ db' = db.claim p := by
  obtain ⟨-, -, h⟩ := bind_eq_ok.mp h
  obtain ⟨-, -, h⟩ := bind_eq_ok.mp h
  obtain ⟨claimed, hclaim, h⟩ := bind_eq_ok.mp h
  cases claimed with
  | none => cases h
  | some mid =>
    obtain ⟨hct, hun, hpar, rfl⟩ := DB.insertConsumed_eq_ok_some.mp (exec_eq_ok.mp hclaim)
    obtain ⟨-, -, h⟩ := bind_eq_ok.mp h
    obtain ⟨after, hins, h⟩ := bind_eq_ok.mp h
    obtain ⟨ht, hc, hf, hr, rfl⟩ := DB.insertSettlement_eq_ok.mp (exec_eq_ok.mp hins)
    obtain ⟨-, -, h⟩ := bind_eq_ok.mp h
    exact ⟨⟨hct, hun, hpar, ht, hc, hf, hr⟩, (Except.ok.inj h).symm⟩

/-- **What `Begin` can do**: nothing, with an error, or the claim and the pending row together. -/
theorem Store.begin_cases {d : Driver} {db db' : DB} {p : PendingSettlement} {fate : Fate} {r : Option Err}
    (h : Store.begin d db p fate = (db', r)) :
    (db' = db ∧ r ≠ none) ∨ (db.Admits p ∧ db' = db.claim p) := by
  rcases commit_cases h with h | h
  · exact Or.inl h
  · exact Or.inr (Store.beginTx_eq_ok h)

/-- A claim that meets the constraints goes through when nothing fails. -/
theorem Store.begin_of_admits (d : Driver) {db : DB} {p : PendingSettlement} (h : db.Admits p) :
    Store.begin d db p .done = (db.claim p, none) := by
  have hclaim : db.insertConsumed p.claim = .ok (some { db with consumed := db.consumed ++ [p.claim] }) :=
    DB.insertConsumed_eq_ok_some.mpr ⟨h.claimTexts, h.unclaimed, h.parties, rfl⟩
  have hins : { db with consumed := db.consumed ++ [p.claim] }.insertSettlement p.row = .ok (db.claim p) :=
    DB.insertSettlement_eq_ok.mpr ⟨h.texts, h.checks, h.fresh, h.references, rfl⟩
  simp only [Store.begin, Store.beginTx, attempt_done, ok_bind, hclaim, exec_ok, hins]
  rfl

end Begin

/-! ## Confirm -/

section Confirm

/-- A positional parameter of a statement. -/
inductive Param where
  | text (s : Bytes)
  | account (a : Account)
  | entryType (t : EntryType)
  | cents (n : ℤ)

/-- The thirteen arguments of the ledger insert, in order. -/
def PendingSettlement.entryParams (p : PendingSettlement) : List Param :=
  [.text p.settlementID,
   .account .merchantPayable, .text p.merchantID, .entryType .commission,
   .cents (int64 (-p.split.commissionAmountCents)),
   .account .platformRevenue, .text platformAccountID, .entryType .commission, .cents p.split.platformFeeCents,
   .account .publisherPayable, .text p.publisherID,
   .text p.currency,
   .cents p.split.publisherAmountCents]

/-- One group of `VALUES`, by the numbers of its six parameters. -/
structure ValuesGroup where
  settlementID : ℕ
  account : ℕ
  accountID : ℕ
  entryType : ℕ
  amountCents : ℕ
  currency : ℕ

/-- `VALUES ($1,$2,$3,$4,$5,$12), ($1,$6,$7,$8,$9,$12), ($1,$10,$11,$8,$13,$12)`. -/
def entryGroups : List ValuesGroup := [⟨1, 2, 3, 4, 5, 12⟩, ⟨1, 6, 7, 8, 9, 12⟩, ⟨1, 10, 11, 8, 13, 12⟩]

/-- The row of a group, if each parameter has the type of its column. -/
def ValuesGroup.entry (params : List Param) (g : ValuesGroup) : Except Violation LedgerEntry :=
  match params[g.settlementID - 1]?, params[g.account - 1]?, params[g.accountID - 1]?, params[g.entryType - 1]?,
      params[g.amountCents - 1]?, params[g.currency - 1]? with
  | some (.text sid), some (.account a), some (.text aid), some (.entryType t), some (.cents n), some (.text c) =>
    .ok ⟨sid, a, aid, t, n, c⟩
  | _, _, _, _, _, _ => .error .invalidText

/-- The rows that `Confirm` inserts. -/
def PendingSettlement.entryRows (p : PendingSettlement) : Except Violation (List LedgerEntry) :=
  entryGroups.mapM (ValuesGroup.entry p.entryParams)

/-- `SET status = 'confirmed', tx_hash = …, confirmed_at = …`. -/
def SettlementRow.confirm (txHash : Bytes) (confirmedAt : ℤ) (r : SettlementRow) : SettlementRow :=
  { r with status := .confirmed, txHash := some txHash, confirmedAt := some (confirmedAt / 1000) }

def Store.confirmTx (d : Driver) (db : DB) (p : PendingSettlement) (txHash : Bytes) (confirmedAt : ℤ)
    (fate : Fate) : Except Err DB := do
  attempt fate 0 "begin confirm tx: "
  attempt fate 1 "confirm settlement: "
  if !(textOk p.settlementID && textOk txHash) then exec d "confirm settlement: " (.error .invalidText)
  else if (db.updatePending p.settlementID (SettlementRow.confirm txHash confirmedAt)).2 = 0 then
    .error (GoError.plain (Utf8.str "settlement " ++ p.settlementID ++ Utf8.str " was not pending"))
  else
    let db := (db.updatePending p.settlementID (SettlementRow.confirm txHash confirmedAt)).1
    attempt fate 2 "write ledger entries: "
    let entries ← exec d "write ledger entries: " p.entryRows
    let db ← exec d "write ledger entries: " (db.insertEntries entries)
    attempt fate 3 "commit confirm tx: "
    .ok db

/-- `Store.Confirm`. -/
def Store.confirm (d : Driver) (db : DB) (p : PendingSettlement) (txHash : Bytes) (confirmedAt : ℤ)
    (fate : Fate) : DB × Option Err :=
  commit fate "commit confirm tx: " db (Store.confirmTx d db p txHash confirmedAt fate)

/-- The ledger entries of a settlement. -/
def PendingSettlement.entries (p : PendingSettlement) : List LedgerEntry :=
  [⟨p.settlementID, .merchantPayable, p.merchantID, .commission, int64 (-p.split.commissionAmountCents), p.currency⟩,
   ⟨p.settlementID, .platformRevenue, platformAccountID, .commission, p.split.platformFeeCents, p.currency⟩,
   ⟨p.settlementID, .publisherPayable, p.publisherID, .commission, p.split.publisherAmountCents, p.currency⟩]

/-- The positional parameters land where they should. -/
theorem PendingSettlement.entryRows_eq (p : PendingSettlement) : p.entryRows = .ok p.entries := rfl

/-- The database with the pending row of `p` confirmed and its entries written. -/
def DB.confirm (db : DB) (p : PendingSettlement) (txHash : Bytes) (confirmedAt : ℤ) : DB :=
  { db with
    settlements := Table.update (pendingAt p.settlementID) (SettlementRow.confirm txHash confirmedAt) db.settlements
    ledger := db.ledger ++ p.entries }

/-- What `Confirm` needs. -/
structure DB.Confirmable (db : DB) (p : PendingSettlement) (txHash : Bytes) : Prop where
  texts : (textOk p.settlementID && textOk txHash) = true
  pending : ∃ r ∈ db.settlements, pendingAt p.settlementID r = true
  entries : p.entries.all (fun e => textOk e.settlementID && textOk e.accountID && textOk e.currency) = true

theorem DB.insertEntries_eq_ok {db db' : DB} {entries : List LedgerEntry} :
    db.insertEntries entries = .ok db' ↔
      entries.all (fun e => textOk e.settlementID && textOk e.accountID && textOk e.currency) = true ∧
      entries.all (fun e => decide (e.settlementID ∈ db.settlements.map (·.settlementID))) = true ∧
      db' = { db with ledger := db.ledger ++ entries } := by
  unfold DB.insertEntries
  rw [check_eq_ok, check_eq_ok, Except.ok.injEq, eq_comm (b := db')]

theorem Store.confirmTx_eq_ok {d : Driver} {db db' : DB} {p : PendingSettlement} {txHash : Bytes} {confirmedAt : ℤ}
    {fate : Fate} (h : Store.confirmTx d db p txHash confirmedAt fate = .ok db') :
    db.Confirmable p txHash ∧ db' = db.confirm p txHash confirmedAt := by
  obtain ⟨-, -, h⟩ := bind_eq_ok.mp h
  obtain ⟨-, -, h⟩ := bind_eq_ok.mp h
  split_ifs at h with htext hzero
  · cases exec_eq_ok.mp h
  · obtain ⟨-, -, h⟩ := bind_eq_ok.mp h
    obtain ⟨entries, hent, h⟩ := bind_eq_ok.mp h
    rw [PendingSettlement.entryRows_eq, exec_ok, Except.ok.injEq] at hent
    subst hent
    obtain ⟨after, hins, h⟩ := bind_eq_ok.mp h
    obtain ⟨htexts, -, rfl⟩ := DB.insertEntries_eq_ok.mp (exec_eq_ok.mp hins)
    obtain ⟨-, -, h⟩ := bind_eq_ok.mp h
    rw [Bool.not_eq_true', Bool.not_eq_false] at htext
    exact ⟨⟨htext, Table.affected_pos.mp hzero, htexts⟩, (Except.ok.inj h).symm⟩

/-- **What `Confirm` can do**: nothing, with an error, or the status move and the three entries together. -/
theorem Store.confirm_cases {d : Driver} {db db' : DB} {p : PendingSettlement} {txHash : Bytes} {confirmedAt : ℤ}
    {fate : Fate} {r : Option Err} (h : Store.confirm d db p txHash confirmedAt fate = (db', r)) :
    (db' = db ∧ r ≠ none) ∨ (db.Confirmable p txHash ∧ db' = db.confirm p txHash confirmedAt) := by
  rcases commit_cases h with h | h
  · exact Or.inl h
  · exact Or.inr (Store.confirmTx_eq_ok h)

theorem Store.confirm_of_confirmable (d : Driver) {db : DB} {p : PendingSettlement} {txHash : Bytes}
    {confirmedAt : ℤ} (h : db.Confirmable p txHash) :
    Store.confirm d db p txHash confirmedAt .done = (db.confirm p txHash confirmedAt, none) := by
  obtain ⟨r, hr, hp⟩ := h.pending
  have hzero : ¬(db.updatePending p.settlementID (SettlementRow.confirm txHash confirmedAt)).2 = 0 :=
    Table.affected_pos.mpr ⟨r, hr, hp⟩
  have hkey : (Table.update (pendingAt p.settlementID) (SettlementRow.confirm txHash confirmedAt)
      db.settlements).map (·.settlementID) = db.settlements.map (·.settlementID) := Table.map_update fun _ => rfl
  have hmem : p.settlementID ∈ db.settlements.map (·.settlementID) :=
    List.mem_map.mpr ⟨r, hr, (pendingAt_iff.mp hp).1⟩
  have hins : (db.updatePending p.settlementID (SettlementRow.confirm txHash confirmedAt)).1.insertEntries p.entries
      = .ok (db.confirm p txHash confirmedAt) := by
    refine DB.insertEntries_eq_ok.mpr ⟨h.entries, ?_, rfl⟩
    show (p.entries.all fun e => decide (e.settlementID ∈ (Table.update (pendingAt p.settlementID)
      (SettlementRow.confirm txHash confirmedAt) db.settlements).map (·.settlementID))) = true
    rw [hkey]
    simp only [PendingSettlement.entries, List.all_cons, List.all_nil, hmem, decide_true, Bool.and_self]
  simp only [Store.confirm, Store.confirmTx, attempt_done, ok_bind, h.texts, Bool.not_true, Bool.false_eq_true,
    if_false, if_neg hzero, PendingSettlement.entryRows_eq, exec_ok, hins]
  rfl

end Confirm

/-! ## Fail -/

section Fail

/-- `SET status = 'failed'`. -/
def SettlementRow.fail (r : SettlementRow) : SettlementRow := { r with status := .failed }

/-- The database with the pending row `id` failed, if there is one. -/
def DB.fail (db : DB) (id : Bytes) : DB :=
  { db with settlements := Table.update (pendingAt id) SettlementRow.fail db.settlements }

/-- `Store.Fail`, one statement outside any transaction. -/
def Store.fail (d : Driver) (db : DB) (settlementID : Bytes) (fate : Fate) : DB × Option Err :=
  commit fate "mark settlement failed: " db do
    attempt fate 1 "mark settlement failed: "
    if !textOk settlementID then exec d "mark settlement failed: " (.error .invalidText)
    else .ok (db.updatePending settlementID SettlementRow.fail).1

/-- **What `Fail` can do**: nothing, with an error, or the status move. -/
theorem Store.fail_cases {d : Driver} {db db' : DB} {id : Bytes} {fate : Fate} {r : Option Err}
    (h : Store.fail d db id fate = (db', r)) : (db' = db ∧ r ≠ none) ∨ db' = db.fail id := by
  rcases commit_cases h with h | h
  · exact Or.inl h
  · obtain ⟨-, -, h⟩ := bind_eq_ok.mp h
    split_ifs at h with htext
    · cases exec_eq_ok.mp h
    · exact Or.inr (Except.ok.inj h).symm

theorem Store.fail_of_textOk (d : Driver) (db : DB) {id : Bytes} (h : textOk id = true) :
    Store.fail d db id .done = (db.fail id, none) := by
  simp only [Store.fail, attempt_done, ok_bind, h, Bool.not_true, Bool.false_eq_true, if_false]
  rfl

end Fail

/-! ## Rejections -/

section Rejections

/-- `Rejection`. -/
structure Rejection where
  publisherID : Bytes
  assertionID : Bytes
  merchantID : Bytes
  reason : Bytes
  detail : Bytes
  deriving DecidableEq

def maxRejectionDetail : ℕ := 500

/-- `utf8.RuneStart`. -/
def runeStart (b : UInt8) : Bool := b &&& 0xC0 != 0x80

/-- The backward scan for a rune boundary. -/
def cutAt (s : Bytes) : ℕ → ℕ
  | 0 => 0
  | cut + 1 => if s[cut + 1]?.all runeStart then cut + 1 else cutAt s cut

def truncateDetail (s : Bytes) : Bytes :=
  if s.length ≤ maxRejectionDetail then s else s.take (cutAt s maxRejectionDetail) ++ Utf8.str "..."

/-- The row of a rejection. -/
def Rejection.row (r : Rejection) : RejectedAttempt where
  publisherID := r.publisherID
  assertionID := nullable r.assertionID
  merchantID := nullable r.merchantID
  reason := r.reason
  detail := nullable (truncateDetail r.detail)

/-- `Store.RecordRejection`. -/
def Store.recordRejection (d : Driver) (db : DB) (r : Rejection) (fate : Fate) : DB × Option Err :=
  commit fate "record rejection: " db do
    attempt fate 1 "record rejection: "
    exec d "record rejection: " (db.insertRejected r.row)

/-- **What `RecordRejection` can do**: nothing, with an error, or the row. -/
theorem Store.recordRejection_cases {d : Driver} {db db' : DB} {r : Rejection} {fate : Fate} {e : Option Err}
    (h : Store.recordRejection d db r fate = (db', e)) :
    (db' = db ∧ e ≠ none) ∨ db' = { db with rejected := db.rejected ++ [r.row] } := by
  rcases commit_cases h with h | h
  · exact Or.inl h
  · obtain ⟨-, -, h⟩ := bind_eq_ok.mp h
    have h := exec_eq_ok.mp h
    unfold DB.insertRejected at h
    split_ifs at h with hok
    exact Or.inr (Except.ok.inj h).symm

end Rejections

end Settlement
