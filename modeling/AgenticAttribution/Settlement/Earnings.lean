import AgenticAttribution.Settlement.Progress
import AgenticAttribution.Settlement.Reports
import Mathlib.Algebra.Order.BigOperators.Group.List

/-!
# Settlement.Earnings — the reported earnings and the ledger

The dashboards sum the publisher's cents over the confirmed settlements of a publisher and print the total in its
payout currency.  The ledger owes the publisher the same cents, each entry in the currency of its settlement
(`Books.owed_eq`).  The two agree exactly while nothing was earned in another currency (`earnings_match_iff`).
-/

namespace Settlement

open Query
open Group (group)

/-- What the ledger owes a publisher in a currency. -/
def DB.owed (db : DB) (publisherID currency : Bytes) : ℤ :=
  ((db.ledger.filter fun e =>
      e.account = .publisherPayable && e.accountID = publisherID && e.currency = currency).map (·.amountCents)).sum

/-- The publisher's cents of a settlement, where they are in the currency. -/
def SettlementRow.centsIn (currency : Bytes) (r : SettlementRow) : ℤ :=
  if r.currency = currency then r.publisherAmountCents else 0

/-- No confirmed settlement left the publisher cents in another currency. -/
def DB.EarnsOnlyIn (db : DB) (publisherID currency : Bytes) : Prop :=
  ∀ r ∈ db.settlements, r.status = .confirmed → r.publisherID = publisherID → r.currency ≠ currency →
    r.publisherAmountCents = 0

section Owed

variable {db : DB} {publisherID currency : Bytes}

theorem mem_settledBy {status : Status} {r : SettlementRow} :
    r ∈ db.settledBy status publisherID ↔ r ∈ db.settlements ∧ r.status = status ∧ r.publisherID = publisherID := by
  simp only [DB.settledBy, group, DB.inStatus, List.mem_filter, decide_eq_true_eq]
  tauto

/-- Of the entries of a settlement, one is payable to its publisher. -/
theorem SettlementRow.sum_payable (r : SettlementRow) :
    ((r.entries.filter fun e =>
        e.account = .publisherPayable && e.accountID = publisherID && e.currency = currency).map (·.amountCents)).sum
      = if r.publisherID = publisherID then r.centsIn currency else 0 := by
  rw [sum_filter]
  by_cases hid : r.publisherID = publisherID <;> by_cases hcur : r.currency = currency <;>
    simp [SettlementRow.entries, SettlementRow.centsIn, hid, hcur]

/-- **What the ledger owes is what the confirmed settlements left**, each in its currency. -/
theorem Books.owed_eq (h : Books db) :
    db.owed publisherID currency = sumOf (·.centsIn currency) (db.settledBy .confirmed publisherID) := by
  have hrow : ∀ r ∈ db.settlements,
      ((group (·.settlementID) r.settlementID (db.ledger.filter fun e =>
          e.account = .publisherPayable && e.accountID = publisherID && e.currency = currency)).map
            (·.amountCents)).sum
        = if r.status = .confirmed then (if r.publisherID = publisherID then r.centsIn currency else 0) else 0 := by
    intro r hr
    have hentries : group (·.settlementID) r.settlementID (db.ledger.filter fun e =>
        e.account = .publisherPayable && e.accountID = publisherID && e.currency = currency)
        = (db.entriesOf r.settlementID).filter fun e =>
          e.account = .publisherPayable && e.accountID = publisherID && e.currency = currency :=
      List.filter_comm _ _ _
    rw [hentries, h.posted r hr]
    split_ifs with hs hid
    · rw [SettlementRow.sum_payable, if_pos hid]
    · rw [SettlementRow.sum_payable, if_neg hid]
    · rfl
  have hrefs : ∀ e ∈ db.ledger.filter fun e =>
      e.account = .publisherPayable && e.accountID = publisherID && e.currency = currency,
      e.settlementID ∈ db.settlements.map (·.settlementID) := fun e he => h.ledger e (List.mem_filter.mp he).1
  have hids : (db.settlements.map SettlementRow.settlementID).Nodup := h.ids
  rw [DB.owed, ← sum_groups SettlementRow.settlementID hids (·.amountCents) hrefs, List.map_congr_left hrow]
  unfold sumOf DB.settledBy group DB.inStatus
  rw [sum_filter, sum_filter]
  simp only [decide_eq_true_eq]

/-- **The earnings are what is owed, exactly while they are in one currency.** -/
theorem Books.earned_eq_owed_iff (h : Books db) :
    db.earnedCents publisherID = db.owed publisherID currency ↔ db.EarnsOnlyIn publisherID currency := by
  -- what the ledger owes falls short of the earnings by the cents in other currencies
  let other : SettlementRow → ℤ := fun r => if r.currency = currency then 0 else r.publisherAmountCents
  have hsplit : db.earnedCents publisherID
      = db.owed publisherID currency + sumOf other (db.settledBy .confirmed publisherID) := by
    rw [h.owed_eq, DB.earnedCents, sumOf, sumOf, sumOf, ← List.sum_map_add]
    refine congrArg List.sum (List.map_congr_left fun r _ => ?_)
    unfold SettlementRow.centsIn
    by_cases hcur : r.currency = currency
    · simp only [other, if_pos hcur, add_zero]
    · simp only [other, if_neg hcur, zero_add]
  have hnonneg : ∀ r ∈ db.settlements, 0 ≤ other r := by
    intro r hr
    have hchecks := h.checks r hr
    simp only [SettlementRow.checks, Bool.and_eq_true, decide_eq_true_eq] at hchecks
    simp only [other]
    split_ifs <;> omega
  constructor
  · intro heq r hr hs hid hcur
    have hzero : sumOf other (db.settledBy .confirmed publisherID) = 0 := by omega
    have hpos : ∀ x ∈ (db.settledBy .confirmed publisherID).map other, 0 ≤ x := by
      intro x hx
      obtain ⟨s, hs, rfl⟩ := List.mem_map.mp hx
      exact hnonneg s (mem_settledBy.mp hs).1
    have hr0 : other r = 0 := List.all_zero_of_le_zero_le_of_sum_eq_zero (fun {x} => hpos x) hzero
      (List.mem_map_of_mem (mem_settledBy.mpr ⟨hr, hs, hid⟩))
    simpa only [other, if_neg hcur] using hr0
  · intro honly
    have hzero : sumOf other (db.settledBy .confirmed publisherID) = 0 := by
      refine List.sum_eq_zero fun x hx => ?_
      obtain ⟨r, hr, rfl⟩ := List.mem_map.mp hx
      obtain ⟨hmem, hs, hid⟩ := mem_settledBy.mp hr
      simp only [other]
      split_ifs with hcur
      · rfl
      · exact honly r hmem hs hid hcur
    omega

end Owed

/-! ## Over every run -/

/-- **Reported earnings are the ledger's, exactly while the publisher earned in its payout currency only.** -/
theorem earnings_match_iff (svc : Service) (catalog : Catalog) (collate : Bytes → Bytes → Bool) {as : List Action}
    {s : Sys} (hrun : run svc (Sys.init catalog) as = some s) {out : List Reports.Publisher}
    (hlist : Store.listPublishers collate s.db = some out) {row : Reports.Publisher} (hrow : row ∈ out)
    {summary : Reports.PublisherSummary} (hsummary : Store.publisherSummary s.db row.publisherID = some summary) :
    (row.earnedCents = s.db.owed row.publisherID row.currency ∧
        summary.earnedCents = s.db.owed summary.publisherID summary.currency) ↔
      s.db.EarnsOnlyIn row.publisherID row.currency ∧ s.db.EarnsOnlyIn summary.publisherID summary.currency := by
  have hbooks : Books s.db := (inv_reachable hrun).books
  obtain ⟨p, -, rfl⟩ := (mem_listPublishers hlist).mp hrow
  obtain ⟨q, -, hq, rfl⟩ := publisherSummary_eq_some hsummary
  refine and_congr hbooks.earned_eq_owed_iff ?_
  dsimp only
  rw [hq]
  exact hbooks.earned_eq_owed_iff

/-! ## A listing in another currency -/

namespace Sample

/-- The publisher is paid in dollars, and the listing is priced in euros. -/
def euroListing : ListingRow := { listingRow with currency := Utf8.str "EUR" }

def euroCatalog : Catalog where
  publishers := catalog.publishers
  merchants := catalog.merchants
  products := catalog.products
  listings := [euroListing]
  searchRequests := catalog.searchRequests
  listings_ok := by decide
  listings_product := by decide
  listings_merchant := by decide
  searchRequests_ok := catalog.searchRequests_ok
  searchRequests_publisher := catalog.searchRequests_publisher

def euroRequest : Request := { request with currency := Utf8.str "EUR" }

def euroPending : PendingSettlement := euroRequest.pending euroListing.listing settlementID

theorem euro_claimable :
    Claimable service (DB.empty euroCatalog) euroRequest 0 euroListing.listing 0 verified settlementID :=
  ⟨verify_eq_none, lookupListing_of (by decide) (by decide), by decide, rfl,
    ⟨by decide, by decide, by decide, by decide, by decide, by decide, by decide⟩⟩

/-- The run that confirms it. -/
def euroActions : List Action :=
  beginActions euroRequest 0 0 verified settlementID 0 ++ payActions 0 true response 0

def euroFinal : Sys :=
  ⟨((DB.empty euroCatalog).claim euroPending).confirm euroPending response.transaction 0,
    [⟨euroRequest, 0, some (euroListing.listing, euroPending), .returned (.ok (euroPending.result response))⟩],
    [], [euroRequest.exchange euroPending true (.ok response)]⟩

theorem run_euroActions : run service (Sys.init euroCatalog) euroActions = some euroFinal :=
  run_confirms (s := Sys.init euroCatalog) euro_claimable rfl (by decide)

theorem listPublishers_euro : Store.listPublishers (fun _ _ => true) euroFinal.db
    = some [⟨Utf8.str "pub_1", Utf8.str "Publisher", Utf8.str "USD", 1, 1092, 0, 0⟩] := by
  decide +kernel

theorem publisherSummary_euro : Store.publisherSummary euroFinal.db (Utf8.str "pub_1")
    = some ⟨Utf8.str "pub_1", Utf8.str "Publisher", Utf8.str "USD", 1, 12999, 1092, 467, 1, 1, 1200, 0, 0⟩ := by
  decide +kernel

end Sample

/-- **Euros reported as dollars**: both reports give the publisher 1092 cents in its payout currency, and the ledger
owes it none in that currency. -/
theorem euro_earnings_in_dollars :
    ∃ row summary, run Sample.service (Sys.init Sample.euroCatalog) Sample.euroActions = some Sample.euroFinal ∧
      Store.listPublishers (fun _ _ => true) Sample.euroFinal.db = some [row] ∧
      Store.publisherSummary Sample.euroFinal.db row.publisherID = some summary ∧
      row.currency = Utf8.str "USD" ∧ row.earnedCents = 1092 ∧
      summary.currency = Utf8.str "USD" ∧ summary.earnedCents = 1092 ∧
      Sample.euroFinal.db.owed row.publisherID (Utf8.str "USD") = 0 ∧
      Sample.euroFinal.db.owed row.publisherID (Utf8.str "EUR") = 1092 :=
  ⟨_, _, Sample.run_euroActions, Sample.listPublishers_euro, Sample.publisherSummary_euro, rfl, rfl, rfl, rfl,
    by decide, by decide⟩

/-- The sample settlement is in the currency of the payout. -/
theorem earnings_match_iff_sample :
    ∃ row, Store.listPublishers (fun _ _ => true) Sample.final.db = some [row] ∧
      row.earnedCents = Sample.final.db.owed row.publisherID row.currency := by
  have hlist : Store.listPublishers (fun _ _ => true) Sample.final.db
      = some [⟨Utf8.str "pub_1", Utf8.str "Publisher", Utf8.str "USD", 1, 1092, 0, 0⟩] := by decide +kernel
  have hsummary : Store.publisherSummary Sample.final.db (Utf8.str "pub_1")
      = some ⟨Utf8.str "pub_1", Utf8.str "Publisher", Utf8.str "USD", 1, 12999, 1092, 467, 1, 1, 1200, 0, 0⟩ := by
    decide +kernel
  have honly : Sample.final.db.EarnsOnlyIn (Utf8.str "pub_1") (Utf8.str "USD") := by
    unfold DB.EarnsOnlyIn
    decide
  exact ⟨_, hlist, ((earnings_match_iff Sample.service Sample.catalog (fun _ _ => true) Sample.run_actions hlist
    List.mem_cons_self hsummary).mpr ⟨honly, honly⟩).1⟩

end Settlement
