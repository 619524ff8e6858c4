import AgenticAttribution.Dashboard.App

/-!
# Dashboard.Links — no link is dead

The dashboard over the settlement service itself (`upstream`): what `SettlementClient` asks for is answered by the
routes of `internal/settlement/handler.go` from the database.  A page links to what its rows name (`links_respond`),
the rows name what is in the database (`linksTo_read`), and what is in the database has a page (`opens_chain`,
`opens_publisher`), which no amount keeps from being shown (`exists_chainPage`).
-/

namespace Dashboard

open Html Percent Query Settlement
open Group (group mem_group)

/-! ## Amounts that can be shown -/

section Amounts

theorem exists_format {cents : ℤ} (h : -2 ^ 63 < cents) (currency : List Char) :
    ∃ shown, format cents currency = some shown := by
  rw [format, if_neg (by omega)]
  exact ⟨_, rfl⟩

theorem exists_mapM {α β : Type} {f : α → Option β} {xs : List α} (h : ∀ x ∈ xs, ∃ y, f x = some y) :
    ∃ ys, xs.mapM f = some ys := by
  induction xs with
  | nil => exact ⟨[], rfl⟩
  | cons x xs ih =>
    obtain ⟨y, hy⟩ := h x List.mem_cons_self
    obtain ⟨ys, hys⟩ := ih fun z hz => h z (List.mem_cons_of_mem _ hz)
    exact ⟨y :: ys, by simp [List.mapM_cons, hy, hys]⟩

/-- What the entries take from a total, and what they add to it. -/
def debits (ledger : List Reports.LedgerEntry) : ℤ := (ledger.map fun entry => min entry.amountCents 0).sum

def credits (ledger : List Reports.LedgerEntry) : ℤ := (ledger.map fun entry => max entry.amountCents 0).sum

theorem debits_nonpos (ledger : List Reports.LedgerEntry) : debits ledger ≤ 0 := by
  induction ledger with
  | nil => simp [debits]
  | cons entry ledger ih =>
    simp only [debits, List.map_cons, List.sum_cons] at ih ⊢
    omega

theorem credits_nonneg (ledger : List Reports.LedgerEntry) : 0 ≤ credits ledger := by
  refine List.sum_nonneg fun n hn => ?_
  obtain ⟨entry, -, rfl⟩ := List.mem_map.mp hn
  exact le_max_right _ _

/-- A total that neither the debits nor the credits drive out of the integers stays in them, in whatever order. -/
theorem foldlM_total {ledger : List Reports.LedgerEntry} {total : ℤ} (hlow : -2 ^ 63 ≤ total + debits ledger)
    (hhigh : total + credits ledger < 2 ^ 63) :
    ledger.foldlM (fun total entry =>
      if bigintOk (total + entry.amountCents) then some (total + entry.amountCents) else none) total
      = some (total + (ledger.map (·.amountCents)).sum) := by
  induction ledger generalizing total with
  | nil => simp
  | cons entry ledger ih =>
    have hdebits := debits_nonpos ledger
    have hcredits := credits_nonneg ledger
    have hd : debits (entry :: ledger) = min entry.amountCents 0 + debits ledger := by simp [debits]
    have hc : credits (entry :: ledger) = max entry.amountCents 0 + credits ledger := by simp [credits]
    have hfits : bigintOk (total + entry.amountCents) = true := by
      simp only [bigintOk, Bool.and_eq_true, decide_eq_true_eq]
      omega
    have hrest := @ih (total + entry.amountCents) (by omega) (by omega)
    simp only [List.foldlM_cons, hfits, if_true, List.map_cons, List.sum_cons]
    rw [← add_assoc]
    exact hrest

variable {db : DB} {r : SettlementRow}

/-- The amounts of a row are natural numbers and fit a `bigint`. -/
theorem amounts_of_checks (h : r.checks = true) :
    0 ≤ r.grossAmountCents ∧ 0 ≤ r.commissionAmountCents ∧ r.commissionAmountCents < 2 ^ 63 ∧
      0 ≤ r.platformFeeCents ∧ 0 ≤ r.publisherAmountCents ∧
      r.platformFeeCents + r.publisherAmountCents = r.commissionAmountCents := by
  simp only [SettlementRow.checks, Bool.and_eq_true, decide_eq_true_eq] at h
  omega

/-- **The ledger of a chain can be shown.** -/
theorem exists_ledgerTable (cols : Columns) (h : Books db) (hr : r ∈ db.settlements) :
    ∃ ps, ledgerTable (chainLedger cols db r.settlementID) = some ps := by
  have hshown : LedgerShown cols r (chainLedger cols db r.settlementID) := ledgerShown h hr
  have hchecks := amounts_of_checks (h.checks r hr)
  unfold ledgerTable
  split_ifs with hempty
  · exact ⟨_, rfl⟩
  have hstatus : r.status = .confirmed := by
    by_contra hs
    exact hempty (hshown.unposted hs)
  obtain ⟨hperm, hsum⟩ := hshown.confirmed hstatus
  have hdebits : debits (chainLedger cols db r.settlementID) = -r.commissionAmountCents := by
    rw [debits, (hperm.map _).sum_eq]
    simp only [SettlementRow.entries, Columns.entry, List.map_cons, List.map_nil, List.sum_cons, List.sum_nil]
    omega
  have hcredits : credits (chainLedger cols db r.settlementID) = r.commissionAmountCents := by
    rw [credits, (hperm.map _).sum_eq]
    simp only [SettlementRow.entries, Columns.entry, List.map_cons, List.map_nil, List.sum_cons, List.sum_nil]
    omega
  have hamount : ∀ entry ∈ chainLedger cols db r.settlementID, -2 ^ 63 < entry.amountCents := by
    intro entry hentry
    have hmem := hperm.mem_iff.mp hentry
    simp only [SettlementRow.entries, Columns.entry, List.map_cons, List.map_nil, List.mem_cons, List.not_mem_nil,
      or_false] at hmem
    rcases hmem with rfl | rfl | rfl <;> simp only <;> omega
  obtain ⟨rows, hrows⟩ := exists_mapM (f := fun entry : Reports.LedgerEntry =>
    (format entry.amountCents (Utf8.text entry.currency)).map (ledgerRow entry)) fun entry hentry => by
      obtain ⟨shown, hs⟩ := exists_format (hamount entry hentry) (Utf8.text entry.currency)
      exact ⟨_, by rw [hs, Option.map_some]⟩
  have htotal : ledgerTotal (chainLedger cols db r.settlementID) = some 0 := by
    rw [ledgerTotal, foldlM_total (by omega) (by omega), hsum]
    rfl
  obtain ⟨balance, hbalance⟩ := exists_format (show -2 ^ 63 < (0 : ℤ) by omega) usd
  simp [hrows, htotal, hbalance]

/-- **The chain of a settlement can be shown.** -/
theorem exists_chainPage (cols : Columns) (h : Books db) (hr : r ∈ db.settlements) {j : Joined} (hj : j.Of db r) :
    ∃ ps, chainPage (cols.chain j (chainLedger cols db r.settlementID)) = some ps := by
  have hchecks := amounts_of_checks (h.checks r hr)
  have hs := hj.settlement
  obtain ⟨ledger, hledger⟩ := exists_ledgerTable cols h hr
  obtain ⟨gross, hgross⟩ := exists_format (show -2 ^ 63 < j.s.grossAmountCents by rw [hs]; omega) usd
  obtain ⟨commission, hcommission⟩ := exists_format (show -2 ^ 63 < j.s.commissionAmountCents by rw [hs]; omega) usd
  obtain ⟨publisher, hpublisher⟩ := exists_format (show -2 ^ 63 < j.s.publisherAmountCents by rw [hs]; omega) usd
  simp [chainPage, Columns.chain, hgross, hcommission, hpublisher, hledger]

end Amounts

/-! ## The database behind the dashboard -/

section Upstream

/-- What the settlement service answers over the database. -/
def upstream (cols : Columns) (pg : Postgres) (db : DB) (path : List Char) : Fetched :=
  .answered (Handler.read cols pg db path).1 (Handler.read cols pg db path).2

/-- The dashboard over the settlement service. -/
def site (stamp : ℤ → List Char) (cols : Columns) (pg : Postgres) (db : DB) (path : List Char) : Option Response :=
  respond stamp (upstream cols pg db) .get path

/-- A page comes. -/
def Opens (site : List Char → Option Response) (path : List Char) : Prop := ∃ ps, site path = some ⟨200, .html ps⟩

/-- The identifiers can stand in a path. -/
structure Linkable (db : DB) : Prop where
  publishers : ∀ p ∈ db.catalog.publishers, Carried p.publisherID
  settlements : ∀ r ∈ db.settlements, Carried r.settlementID

/-- The sums of every publisher fit a `bigint`. -/
def SumsFit (db : DB) : Prop :=
  ∀ publisherID, bigintOk (sumOf (·.grossAmountCents) (db.settledBy .confirmed publisherID)) = true ∧
    bigintOk (db.earnedCents publisherID) = true ∧
    bigintOk (sumOf (·.platformFeeCents) (db.settledBy .confirmed publisherID)) = true

variable {stamp : ℤ → List Char} {cols : Columns} {pg : Postgres} {db : DB}

theorem sumOf_nonneg {cents : SettlementRow → ℤ} (hcents : ∀ r ∈ db.settlements, 0 ≤ cents r) (publisherID : Bytes) :
    0 ≤ sumOf cents (db.settledBy .confirmed publisherID) := by
  refine List.sum_nonneg fun n hn => ?_
  obtain ⟨r, hr, rfl⟩ := List.mem_map.mp hn
  exact hcents r (List.mem_filter.mp (mem_group.mp hr).1).1

theorem earnedCents_nonneg (h : Books db) (publisherID : Bytes) : 0 ≤ db.earnedCents publisherID :=
  sumOf_nonneg (fun r hr => (amounts_of_checks (h.checks r hr)).2.2.2.2.1) publisherID

theorem exists_listPublishers (hfits : SumsFit db) :
    ∃ publishers, Store.listPublishers pg.collate db = some publishers := by
  unfold Store.listPublishers
  simp only
  refine ⟨_, if_pos ?_⟩
  rw [List.all_eq_true]
  intro g hg
  obtain ⟨publisherID, -, rfl⟩ := List.mem_map.mp hg
  exact (hfits publisherID).2.1

theorem exists_publisherSummary (hfits : SumsFit db) {p : Publisher} (hp : p ∈ db.catalog.publishers) :
    ∃ summary, Store.publisherSummary db p.publisherID = some summary := by
  have hmem : p ∈ db.catalog.publishers.filter fun q => q.publisherID = p.publisherID :=
    List.mem_filter.mpr ⟨hp, decide_eq_true rfl⟩
  obtain ⟨q, rest, hq⟩ := List.exists_cons_of_ne_nil (List.ne_nil_of_mem hmem)
  have hfirst : q ∈ db.catalog.publishers.filter fun q => q.publisherID = p.publisherID := hq ▸ List.mem_cons_self
  have hid : q.publisherID = p.publisherID := of_decide_eq_true (List.mem_filter.mp hfirst).2
  obtain ⟨hgross, hearned, hplatform⟩ := hfits p.publisherID
  unfold Store.publisherSummary blockedGroups
  simp only [leftJoin_groupBy, List.map_map, hq, List.map_cons, Option.map_map]
  refine ⟨_, if_pos ?_⟩
  unfold group?
  split_ifs
  · rw [hid]
    simp only [Option.map_some, Option.all_some, Bool.and_eq_true]
    exact ⟨⟨hgross, hearned⟩, hplatform⟩
  · rfl

/-- A row of a publisher's page is that of a settlement. -/
theorem mem_rows {tie : Reports.SettlementRow → Reports.SettlementRow → Bool} {publisherID : Bytes} {limit : ℕ}
    {row : Reports.SettlementRow} (h : row ∈ Store.recentSettlements cols tie db publisherID limit) :
    ∃ r ∈ db.settlements, row.settlementID = r.settlementID ∧ row.grossAmountCents = r.grossAmountCents ∧
      row.publisherAmountCents = r.publisherAmountCents := by
  have hmem := (List.mergeSort_perm _ _).mem_iff.mp (List.mem_of_mem_take h)
  obtain ⟨⟨⟨r, pr⟩, m⟩, hj, rfl⟩ := List.mem_map.mp hmem
  exact ⟨r, (mem_group.mp (mem_innerJoin.mp (mem_innerJoin.mp hj).1).1).1, rfl, rfl, rfl⟩

/-- What a reader finds of links in a page. -/
theorem targets_page {ps : List Piece} {found : List (List Char)} (h : Links ps found) :
    targets (read .text (render specialchars ps)) = found := by
  have htargets := h.targets []
  rw [List.append_nil] at htargets
  rw [read_render h.placed, htargets]
  simp [tokens, targets]

/-- Whatever the service answers names what is in the database. -/
theorem linksTo_read {good : List Char → Prop} (h : Books db) (href : Referenced db)
    (hpub : ∀ p ∈ db.catalog.publishers, good (link "publishers".toList p.publisherID))
    (hset : ∀ r ∈ db.settlements, good (link "settlements".toList r.settlementID)) (path : List Char) :
    LinksTo good (Handler.read cols pg db path).2 := by
  have hlist : LinksTo good (Handler.listPublishers pg db).2 := by
    unfold Handler.listPublishers
    cases hrows : Store.listPublishers pg.collate db with
    | none => trivial
    | some publishers =>
      intro row hrow
      obtain ⟨p, hp, rfl⟩ := (mem_listPublishers hrows).mp hrow
      exact hpub p hp
  have hdetail : ∀ id query, LinksTo good (Handler.publisherDetail cols pg db id query).2 := by
    intro id query
    unfold Handler.publisherDetail
    cases Store.publisherSummary db id with
    | none =>
      simp only
      split_ifs <;> trivial
    | some summary =>
      intro row hrow
      obtain ⟨r, hr, hid, -⟩ := mem_rows hrow
      rw [hid]
      exact hset r hr
  have hchain : ∀ id, LinksTo good (Handler.chain cols db id).2 := by
    intro id
    unfold Handler.chain
    by_cases hid : id ∈ db.settlements.map (·.settlementID)
    · obtain ⟨r, hr, rfl⟩ := List.mem_map.mp hid
      obtain ⟨j, hj, hc⟩ := chain_of_mem cols h href hr
      rw [hc]
      obtain ⟨hp, hpid⟩ := hj.publisher
      have hgood := hpub j.p hp
      rw [hpid, ← hj.settlement] at hgood
      exact hgood
    · rw [chain_eq_none hid]
      trivial
  unfold Handler.read
  simp only
  split
  · split_ifs
    · exact hlist
    · trivial
    · trivial
  · split_ifs
    · exact hdetail _ _
    · trivial
  · split_ifs
    · exact hchain _
    · trivial
  · trivial

end Upstream

/-! ## The pages behind the links -/

section Opening

variable {stamp : ℤ → List Char} {fetch : List Char → Fetched} {cols : Columns} {pg : Postgres} {db : DB}

theorem segments_routes : segments "/".toList = [[]] ∧
    segments "/publishers/\x7bpublisherId\x7d".toList = ["publishers".toList, "\x7bpublisherId\x7d".toList] ∧
    segments "/settlements/\x7bsettlementId\x7d".toList
      = ["settlements".toList, "\x7bsettlementId\x7d".toList] := by
  decide +kernel

/-- A pattern with another kind does not match. -/
theorem match_other {kind kind' placeholder : List Char} {value : Bytes} (hkind : kind ≠ [] ∧ '/' ∉ kind)
    (hplain : isPlaceholder kind' = false) (hne : kind' ≠ kind) {pattern : List Char}
    (hpattern : segments pattern = [kind', placeholder]) (hvalue : value ≠ []) :
    matchPath pattern (link kind value) = none := by
  rw [matchPath, hpattern, segments_link hkind hvalue]
  simp [matchSegments, hplain, hne]

theorem match_home {kind : List Char} {value : Bytes} (hkind : kind ≠ [] ∧ '/' ∉ kind) (hvalue : value ≠ []) :
    matchPath "/".toList (link kind value) = none := by
  rw [matchPath, segments_routes.1, segments_link hkind hvalue]
  rfl

theorem dispatch_publisher {id : Bytes} (hid : id ≠ []) :
    dispatch (routes stamp fetch) .get (link "publishers".toList id)
      = some (showPublisher stamp fetch [("publisherId".toList, id)]) := by
  have hkind : "publishers".toList ≠ [] ∧ '/' ∉ "publishers".toList := by decide +kernel
  have hmatch : matchPath "/publishers/\x7bpublisherId\x7d".toList (link "publishers".toList id)
      = some [("publisherId".toList, id)] :=
    match_link hkind (by decide +kernel) segments_routes.2.1 (by decide +kernel) hid
  simp only [routes, dispatch, ne_eq, not_true, if_false, match_home hkind hid, hmatch]

theorem dispatch_settlement {id : Bytes} (hid : id ≠ []) :
    dispatch (routes stamp fetch) .get (link "settlements".toList id)
      = some (showChain fetch [("settlementId".toList, id)]) := by
  have hkind : "settlements".toList ≠ [] ∧ '/' ∉ "settlements".toList := by decide +kernel
  have hmatch : matchPath "/settlements/\x7bsettlementId\x7d".toList (link "settlements".toList id)
      = some [("settlementId".toList, id)] :=
    match_link hkind (by decide +kernel) segments_routes.2.2 (by decide +kernel) hid
  have hother : matchPath "/publishers/\x7bpublisherId\x7d".toList (link "settlements".toList id) = none :=
    match_other hkind (by decide +kernel) (by decide +kernel) segments_routes.2.1 hid
  simp only [routes, dispatch, ne_eq, not_true, if_false, match_home hkind hid, hother, hmatch]

theorem get_put (name : List Char) (value : Bytes) : Params.get [(name, value)] name = some value := by
  simp [Params.get]

/-- **The home page opens**, with a link to every publisher. -/
theorem opens_home (h : Books db) (hfits : SumsFit db) : ∃ publishers ps,
    Store.listPublishers pg.collate db = some publishers ∧ publishersPage publishers = some ps ∧
      site stamp cols pg db ['/'] = some ⟨200, .html (layout (Utf8.str "Publishers") ps)⟩ := by
  obtain ⟨publishers, hlist⟩ := @exists_listPublishers pg db hfits
  have hrows : ∃ rows, (publishers.mapM fun p =>
      (format p.earnedCents (Utf8.text p.currency)).map (publisherRow p)) = some rows := by
    refine exists_mapM fun row hrow => ?_
    obtain ⟨p, -, rfl⟩ := (mem_listPublishers hlist).mp hrow
    have hearned : 0 ≤ (db.reported p).earnedCents := earnedCents_nonneg h p.publisherID
    obtain ⟨shown, hs⟩ := exists_format (show -2 ^ 63 < (db.reported p).earnedCents by omega)
      (Utf8.text (db.reported p).currency)
    exact ⟨_, by rw [hs, Option.map_some]⟩
  obtain ⟨rows, hrows⟩ := hrows
  obtain ⟨ps, hps⟩ : ∃ ps, publishersPage publishers = some ps := by
    unfold publishersPage
    simp only [hrows, Option.bind_eq_bind, Option.bind_some]
    exact ⟨_, rfl⟩
  refine ⟨publishers, ps, hlist, hps, ?_⟩
  have hread : upstream cols pg db (pathOf [publishersSegment]) = .answered 200 (.publishers publishers) := by
    rw [upstream, read_publishers, Handler.listPublishers, hlist]
  have hdispatch : dispatch (routes stamp (upstream cols pg db)) .get ['/']
      = some (showPublishers (upstream cols pg db) []) := rfl
  simp only [site, respond, hdispatch, showPublishers, SettlementClient.get, hread, reading]
  simp [hps, pageOf]

theorem opens_publisher (h : Books db) (hfits : SumsFit db) {p : Publisher} (hp : p ∈ db.catalog.publishers)
    (hid : Carried p.publisherID) : Opens (site stamp cols pg db) (link "publishers".toList p.publisherID) := by
  obtain ⟨summary, hsummary⟩ := exists_publisherSummary hfits hp
  obtain ⟨q, -, -, hq⟩ := publisherSummary_eq_some hsummary
  have hearned : 0 ≤ summary.earnedCents := by
    rw [hq]
    exact earnedCents_nonneg h p.publisherID
  have hgross : 0 ≤ summary.grossAmountCents := by
    rw [hq]
    exact sumOf_nonneg (fun r hr => (amounts_of_checks (h.checks r hr)).1) p.publisherID
  obtain ⟨limit, hread⟩ : ∃ limit, upstream cols pg db (publisherPath p.publisherID settlementPageSize)
      = .answered 200 (.detail summary (Store.recentSettlements cols pg.tie db p.publisherID limit)
        (Store.recentRejections cols db p.publisherID limit)) := by
    rw [upstream, publisherPath, rawurlencode, read_publisher hid, Handler.publisherDetail, hsummary]
    exact ⟨_, rfl⟩
  have hrows : ∃ rows, ((Store.recentSettlements cols pg.tie db p.publisherID limit).mapM fun s => do
      let gross ← format s.grossAmountCents (Utf8.text summary.currency)
      let earned ← format s.publisherAmountCents (Utf8.text summary.currency)
      return settlementRow s gross earned) = some rows := by
    refine exists_mapM fun row hrow => ?_
    obtain ⟨r, hr, -, hg, he⟩ := mem_rows hrow
    have hchecks := amounts_of_checks (h.checks r hr)
    obtain ⟨gross, hgross⟩ := exists_format (show -2 ^ 63 < row.grossAmountCents by omega) (Utf8.text summary.currency)
    obtain ⟨earned, hearned⟩ := exists_format (show -2 ^ 63 < row.publisherAmountCents by omega)
      (Utf8.text summary.currency)
    simp [hgross, hearned]
  obtain ⟨rows, hrows⟩ := hrows
  obtain ⟨earned, hshown⟩ := exists_format (show -2 ^ 63 < summary.earnedCents by omega)
    (Utf8.text summary.currency)
  obtain ⟨gross, hgrossShown⟩ := exists_format (show -2 ^ 63 < summary.grossAmountCents by omega)
    (Utf8.text summary.currency)
  have hpage : ∃ ps, publisherPage stamp summary (Store.recentSettlements cols pg.tie db p.publisherID limit)
      (Store.recentRejections cols db p.publisherID limit) = some ps := by
    simp only [Option.bind_eq_bind] at hrows
    unfold publisherPage
    simp only [hshown, hgrossShown, Option.bind_eq_bind, Option.bind_some, hrows]
    exact ⟨_, rfl⟩
  obtain ⟨ps, hps⟩ := hpage
  have hget := get_put "publisherId".toList p.publisherID
  refine ⟨layout summary.name ps, ?_⟩
  simp only [site, respond, dispatch_publisher hid.ne_nil, showPublisher, hget, SettlementClient.get, hread, reading]
  simp [hps, pageOf]

theorem opens_chain (h : Books db) (href : Referenced db) {r : SettlementRow} (hr : r ∈ db.settlements)
    (hid : Carried r.settlementID) : Opens (site stamp cols pg db) (link "settlements".toList r.settlementID) := by
  obtain ⟨j, hj, hc⟩ := chain_of_mem cols h href hr
  obtain ⟨ps, hps⟩ := exists_chainPage cols h hr hj
  have hread : upstream cols pg db (chainPath r.settlementID)
      = .answered 200 (.chain (cols.chain j (chainLedger cols db r.settlementID))) := by
    rw [upstream, chainPath, rawurlencode, read_chain hid, Handler.chain, hc]
  have hget := get_put "settlementId".toList r.settlementID
  refine ⟨layout (Utf8.str "Attribution chain") ps, ?_⟩
  simp only [site, respond, dispatch_settlement hid.ne_nil, showChain, hget, SettlementClient.get, hread, reading]
  simp [hps, pageOf]

end Opening

/-- **No link is dead.**  In every state that a run of concurrent settlements reaches, as long as the sums of each
publisher fit a `bigint` and the identifiers can stand in a path, the home page opens and has a link to every
publisher, every settlement has a page, and whatever page comes, every link that a reader finds in it leads to one. -/
theorem links_open (svc : Service) (catalog : Catalog) (cols : Columns) (pg : Postgres) (stamp : ℤ → List Char)
    {as : List Action} {s : Sys} (h : run svc (Sys.init catalog) as = some s) (hids : Linkable s.db)
    (hfits : SumsFit s.db) :
    (∃ ps, site stamp cols pg s.db ['/'] = some ⟨200, .html ps⟩ ∧
      ∀ p ∈ s.db.catalog.publishers,
        link "publishers".toList p.publisherID ∈ targets (read .text (render specialchars ps))) ∧
    (∀ r ∈ s.db.settlements, Opens (site stamp cols pg s.db) (link "settlements".toList r.settlementID)) ∧
    ∀ path status ps, site stamp cols pg s.db path = some ⟨status, .html ps⟩ →
      ∀ target ∈ targets (read .text (render specialchars ps)), Opens (site stamp cols pg s.db) target := by
  have hbooks := (inv_reachable h).books
  have href := referenced_run h
  obtain ⟨publishers, ps, hlist, hps, hhome⟩ := @opens_home stamp cols pg s.db hbooks hfits
  have hpub : ∀ p ∈ s.db.catalog.publishers,
      Opens (site stamp cols pg s.db) (link "publishers".toList p.publisherID) :=
    fun p hp => opens_publisher hbooks hfits hp (hids.publishers p hp)
  have hset : ∀ r ∈ s.db.settlements,
      Opens (site stamp cols pg s.db) (link "settlements".toList r.settlementID) :=
    fun r hr => opens_chain hbooks href hr (hids.settlements r hr)
  refine ⟨⟨_, hhome, fun p hp => ?_⟩, hset, fun path status qs hqs target ht => ?_⟩
  · rw [targets_page (links_layout _ (links_publishersPage hps))]
    refine List.mem_cons_of_mem _ (List.mem_map.mpr ⟨s.db.reported p, ?_, rfl⟩)
    exact (mem_listPublishers hlist).mpr ⟨p, hp, rfl⟩
  · obtain ⟨found, hlinks, hfound⟩ := links_respond (fun path status body hanswer => by
      obtain ⟨rfl, rfl⟩ := Fetched.answered.inj hanswer
      exact linksTo_read hbooks href hpub hset path) hqs
    rw [targets_page hlinks] at ht
    rcases hfound target ht with rfl | hgood
    · exact ⟨_, hhome⟩
    · exact hgood

namespace Sample

def postgres : Postgres := ⟨fun _ _ => true, fun _ _ => true, []⟩

theorem linkable : Linkable Settlement.Sample.final.db := by
  constructor
  · intro p hp
    rw [List.mem_singleton.mp hp]
    exact ⟨by decide, by decide, by decide⟩
  · intro r hr
    rw [List.mem_singleton.mp hr]
    exact ⟨by decide, by decide, by decide⟩

theorem sumsFit : SumsFit Settlement.Sample.final.db := by
  intro publisherID
  have hrows : Settlement.Sample.final.db.settledBy .confirmed publisherID = [Settlement.Sample.row] ∨
      Settlement.Sample.final.db.settledBy .confirmed publisherID = [] := by
    have hall : Settlement.Sample.final.db.inStatus .confirmed = [Settlement.Sample.row] := by decide
    rw [DB.settledBy, group, hall, List.filter_cons]
    split_ifs <;> simp
  unfold DB.earnedCents
  rcases hrows with hrows | hrows <;> rw [hrows] <;> decide

end Sample

theorem links_open_sample :
    Opens (site (fun _ => []) Settlement.Sample.columns Sample.postgres Settlement.Sample.final.db)
      (link "settlements".toList Settlement.Sample.settlementID) :=
  (links_open Settlement.Sample.service Settlement.Sample.catalog Settlement.Sample.columns Sample.postgres
    (fun _ => []) Settlement.Sample.run_actions Sample.linkable Sample.sumsFit).2.1 Settlement.Sample.row (by decide)

end Dashboard
