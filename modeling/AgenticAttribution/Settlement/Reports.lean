import AgenticAttribution.Lib.Query
import AgenticAttribution.Settlement.Books

/-!
# Settlement.Reports — the read models of the dashboard

`internal/settlement/reports.go`, the two queries over all of a publisher's settlements.  Each joins the publishers
to groups of other tables.  `mem_listPublishers` and `publisherSummary_eq_some` say what the joins come to: a count
or a sum over the rows that carry the publisher.

A sum is cast to `BIGINT`, and a query in which one does not fit fails (`none`).
-/

namespace Settlement

open Query
open Group (group)

/-! ## The rows -/

namespace Reports

/-- `Publisher`. -/
structure Publisher where
  publisherID : Bytes
  name : Bytes
  currency : Bytes
  settlementCount : ℕ
  earnedCents : ℤ
  blockedCount : ℕ
  failedCount : ℕ
  deriving DecidableEq

/-- `PublisherSummary`; what it embeds of `Publisher` and no query fills in is zero. -/
structure PublisherSummary where
  publisherID : Bytes
  name : Bytes
  currency : Bytes
  settlementCount : ℕ
  grossAmountCents : ℤ
  earnedCents : ℤ
  platformFeeCents : ℤ
  searchRequests : ℕ
  assertionsIssued : ℕ
  averageCommission : ℤ
  blockedCount : ℕ
  failedCount : ℕ
  deriving DecidableEq

end Reports

/-! ## The groups -/

section Groups

variable (db : DB)

/-- `WHERE status = $1`. -/
def DB.inStatus (status : Status) : List SettlementRow := db.settlements.filter fun r => r.status = status

/-- A sum that `::bigint` takes. -/
def bigintOk (n : ℤ) : Bool := -2 ^ 63 ≤ n && n < 2 ^ 63

def sumOf (cents : SettlementRow → ℤ) (rows : List SettlementRow) : ℤ := (rows.map cents).sum

/-- `ROUND(AVG(n))`, half away from zero. -/
def roundedAverage (ns : List ℤ) : ℤ :=
  let magnitude := (2 * ns.sum.natAbs + ns.length) / (2 * ns.length)
  if 0 ≤ ns.sum then magnitude else -magnitude

def blockedGroups : List (Bytes × ℕ) := groupBy (·.publisherID) List.length db.rejected

/-- The settlements of a publisher in a status. -/
def DB.settledBy (status : Status) (publisherID : Bytes) : List SettlementRow :=
  group (·.publisherID) publisherID (db.inStatus status)

/-- The `blocked_count` of a publisher. -/
def DB.blockedCount (publisherID : Bytes) : ℕ := (group (·.publisherID) publisherID db.rejected).length

/-- The `failed_count` of a publisher. -/
def DB.failedCount (publisherID : Bytes) : ℕ := (db.settledBy .failed publisherID).length

/-- The `earned_cents` of a publisher. -/
def DB.earnedCents (publisherID : Bytes) : ℤ := sumOf (·.publisherAmountCents) (db.settledBy .confirmed publisherID)

end Groups

/-! ## The queries -/

section Queries

/-- `ORDER BY COALESCE(s.publisher_cents, 0) DESC, p.publisher_id`. -/
def earnersFirst (collate : Bytes → Bytes → Bool) (p q : Reports.Publisher) : Bool :=
  q.earnedCents < p.earnedCents || (p.earnedCents = q.earnedCents && collate p.publisherID q.publisherID)

/-- `Store.ListPublishers`, over a database that orders texts by `collate`. -/
def Store.listPublishers (collate : Bytes → Bytes → Bool) (db : DB) : Option (List Reports.Publisher) :=
  let s := groupBy (·.publisherID) (fun rows => (rows.length, sumOf (·.publisherAmountCents) rows))
    (db.inStatus .confirmed)
  let b := blockedGroups db
  let f := groupBy (·.publisherID) List.length (db.inStatus .failed)
  if s.all fun g => bigintOk g.2.2 then
    let joined := leftJoin (fun p => p.1.1.publisherID)
      (leftJoin (fun p => p.1.publisherID) (leftJoin (·.publisherID) db.catalog.publishers s) b) f
    let rows : List Reports.Publisher := joined.map fun (((p, s), b), f) =>
      { publisherID := p.publisherID
        name := p.name
        currency := p.payoutCurrency
        settlementCount := (s.map (·.1)).getD 0
        earnedCents := (s.map (·.2)).getD 0
        blockedCount := b.getD 0
        failedCount := f.getD 0 }
    some (rows.mergeSort (earnersFirst collate))
  else none

/-- The sums over the confirmed settlements of a publisher. -/
structure Totals where
  count : ℕ
  grossCents : ℤ
  publisherCents : ℤ
  platformCents : ℤ
  avgBps : ℤ

def totals (rows : List SettlementRow) : Totals where
  count := rows.length
  grossCents := sumOf (·.grossAmountCents) rows
  publisherCents := sumOf (·.publisherAmountCents) rows
  platformCents := sumOf (·.platformFeeCents) rows
  avgBps := roundedAverage (rows.map (·.commissionBps))

/-- `Store.PublisherSummary`; `none` also where there is no such publisher. -/
def Store.publisherSummary (db : DB) (publisherID : Bytes) : Option Reports.PublisherSummary :=
  let s := groupBy (·.publisherID) totals (db.inStatus .confirmed)
  let r := groupBy (·.publisherID) List.length db.catalog.searchRequests
  let a := groupBy (·.publisherID) List.length db.consumed
  let b := blockedGroups db
  let joined := leftJoin (fun p => p.1.1.1.publisherID)
    (leftJoin (fun p => p.1.1.publisherID)
      (leftJoin (fun p => p.1.publisherID)
        (leftJoin (·.publisherID) (db.catalog.publishers.filter fun p => p.publisherID = publisherID) s) r) a) b
  match joined with
  | [] => none
  | ((((p, s), r), a), b) :: _ =>
    if s.all fun t => bigintOk t.grossCents && bigintOk t.publisherCents && bigintOk t.platformCents then
      some
        { publisherID := p.publisherID
          name := p.name
          currency := p.payoutCurrency
          settlementCount := (s.map (·.count)).getD 0
          grossAmountCents := (s.map (·.grossCents)).getD 0
          earnedCents := (s.map (·.publisherCents)).getD 0
          platformFeeCents := (s.map (·.platformCents)).getD 0
          searchRequests := r.getD 0
          assertionsIssued := a.getD 0
          averageCommission := (s.map (·.avgBps)).getD 0
          blockedCount := b.getD 0
          failedCount := 0 }
    else none

end Queries

/-! ## What they report -/

section Reported

variable {collate : Bytes → Bytes → Bool} {db : DB}

/-- The row of a publisher. -/
def DB.reported (db : DB) (p : Publisher) : Reports.Publisher where
  publisherID := p.publisherID
  name := p.name
  currency := p.payoutCurrency
  settlementCount := (db.settledBy .confirmed p.publisherID).length
  earnedCents := db.earnedCents p.publisherID
  blockedCount := db.blockedCount p.publisherID
  failedCount := db.failedCount p.publisherID

/-- **`ListPublishers` reports every publisher once**, with the counts and the sum over its rows. -/
theorem listPublishers_perm {out : List Reports.Publisher} (h : Store.listPublishers collate db = some out) :
    out.Perm (db.catalog.publishers.map db.reported) := by
  unfold Store.listPublishers at h
  simp only at h
  split_ifs at h with hfits
  obtain rfl := Option.some.inj h
  refine (List.mergeSort_perm _ _).trans (List.Perm.of_eq ?_)
  unfold blockedGroups
  simp only [leftJoin_groupBy, List.map_map]
  refine List.map_congr_left fun p _ => ?_
  simp only [Function.comp_apply, Option.map_map]
  unfold DB.reported
  congr 1
  · exact coalesce_group rfl
  · exact coalesce_group rfl
  · exact coalesce_group rfl
  · exact coalesce_group rfl

theorem mem_listPublishers {out : List Reports.Publisher} (h : Store.listPublishers collate db = some out)
    {row : Reports.Publisher} : row ∈ out ↔ ∃ p ∈ db.catalog.publishers, db.reported p = row := by
  rw [(listPublishers_perm h).mem_iff, List.mem_map]

/-- **`PublisherSummary` reports the sums over the publisher's rows.** -/
theorem publisherSummary_eq_some {publisherID : Bytes} {out : Reports.PublisherSummary}
    (h : Store.publisherSummary db publisherID = some out) :
    ∃ p ∈ db.catalog.publishers, p.publisherID = publisherID ∧
      out =
        { publisherID := p.publisherID
          name := p.name
          currency := p.payoutCurrency
          settlementCount := (db.settledBy .confirmed publisherID).length
          grossAmountCents := sumOf (·.grossAmountCents) (db.settledBy .confirmed publisherID)
          earnedCents := db.earnedCents publisherID
          platformFeeCents := sumOf (·.platformFeeCents) (db.settledBy .confirmed publisherID)
          searchRequests := (group (·.publisherID) publisherID db.catalog.searchRequests).length
          assertionsIssued := (group (·.publisherID) publisherID db.consumed).length
          averageCommission := roundedAverage ((db.settledBy .confirmed publisherID).map (·.commissionBps))
          blockedCount := db.blockedCount publisherID
          failedCount := 0 } := by
  unfold Store.publisherSummary blockedGroups at h
  simp only [leftJoin_groupBy, List.map_map] at h
  cases hp : db.catalog.publishers.filter fun p => p.publisherID = publisherID with
  | nil =>
    rw [hp] at h
    cases h
  | cons p rest =>
    rw [hp] at h
    have hmem : p ∈ db.catalog.publishers.filter fun p => p.publisherID = publisherID := hp ▸ List.mem_cons_self
    obtain ⟨hlisted, hid⟩ := List.mem_filter.mp hmem
    obtain rfl := of_decide_eq_true hid
    simp only [List.map_cons, Function.comp_apply, Option.map_map] at h
    split_ifs at h with hfits
    obtain rfl := Option.some.inj h
    refine ⟨p, hlisted, rfl, ?_⟩
    congr 1
    · exact coalesce_group rfl
    · exact coalesce_group rfl
    · exact coalesce_group rfl
    · exact coalesce_group rfl
    · exact coalesce_group rfl
    · exact coalesce_group rfl
    · exact coalesce_group rfl
    · exact coalesce_group rfl

end Reported

end Settlement
