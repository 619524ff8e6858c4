import AgenticAttribution.Dashboard.Money
import AgenticAttribution.Dashboard.Router
import AgenticAttribution.Lib.Html
import AgenticAttribution.Settlement.Chain
import AgenticAttribution.Settlement.Routes

/-!
# Dashboard.Pages — the pages of the dashboard

The templates of `app/templates`, as pieces of markup and of values that `e` escapes (`app/src/View.php`).  White space
between tags is left out, and so are the style sheet and the scripts: the templates put no value there, and what is
said of the fixed markup is said of the rest of it.  A page fails (`none`) where `Money::format` is given what is not an
integer.  `parts` says of every part of a page that its values stand outside the tags and which links it has;
`links_chainPage` and its like put the pages together.
-/

namespace Dashboard

open Html Settlement

/-! ## Values -/

section Values

/-- Fixed markup. -/
def html (s : String) : Piece := .markup s.toList

/-- `e` of a text. -/
def e (s : Bytes) : Piece := .value (Utf8.text s)

/-- `e` of an integer. -/
def eInt (n : ℤ) : Piece := .value (Digits.intChars n)

/-- `e(number_format($n))`. -/
def eCount (n : ℤ) : Piece := .value (numberFormat n)

/-- `e(Money::basisPoints($bps))`. -/
def eRate (bps : ℤ) : Piece := .value (basisPoints bps)

/-- `href="/kind/<?= e(rawurlencode($value)) ?>"`. -/
def href (kind : String) (value : Bytes) : List Piece :=
  [.markup (" href=\"/".toList ++ kind.toList ++ ['/']), .value (rawurlencode value), .markup ['"']]

/-- What an amount is shown in where no currency is at hand. -/
def usd : List Char := "USD".toList

/-- `account::text`. -/
def accountText : Account → Bytes
  | .merchantPayable => Utf8.str "merchant_payable"
  | .platformRevenue => Utf8.str "platform_revenue"
  | .publisherPayable => Utf8.str "publisher_payable"

/-- `entry_type::text`. -/
def entryTypeText : EntryType → Bytes
  | .commission => Utf8.str "commission"
  | .reversal => Utf8.str "reversal"
  | .adjustment => Utf8.str "adjustment"
  | .payout => Utf8.str "payout"

/-- `<span class="pill …">` around a status: its tag up to the class `pill` and from there on. -/
def pill (opening : String) (status : Status) (closing : String) : List Piece :=
  [html opening, html (if status = .confirmed then "" else " other"), html closing, e (Utf8.str status.text),
   html "</span>"]

end Values

/-! ## chain.php -/

section Chain

def ledgerRow (entry : Reports.LedgerEntry) (amount : List Char) : List Piece :=
  [html "<tr data-testid=\"ledger-row\" data-account=\"", e (accountText entry.account),
   html "\"><td data-testid=\"ledger-account\">", e (accountText entry.account),
   html "</td><td><code data-testid=\"ledger-party\">", e entry.accountID,
   html "</code></td><td data-testid=\"ledger-type\">", e (entryTypeText entry.entryType),
   html "</td><td class=\"num\" data-testid=\"ledger-amount\">", .value amount, html "</td></tr>"]

/-- `$total`, which leaves the integers where it overflows. -/
def ledgerTotal (ledger : List Reports.LedgerEntry) : Option ℤ :=
  ledger.foldlM (fun total entry =>
    if bigintOk (total + entry.amountCents) then some (total + entry.amountCents) else none) 0

def ledgerEmpty : List Piece :=
  [html "<div class=\"err\" data-testid=\"ledger-empty\">No ledger entries. A settlement that never confirmed",
   html " writes none, which is the intended behaviour rather than a gap.</div>"]

def ledgerHead : List Piece :=
  [html "<table data-testid=\"ledger-table\"><thead><tr><th>Account</th><th>Party</th><th>Type</th><th",
   html " class=\"num\">Amount</th></tr></thead><tbody data-testid=\"ledger-rows\">"]

def ledgerFoot (balance : List Char) : List Piece :=
  [html "<tr><td colspan=\"3\"><strong>Balance</strong></td><td class=\"num\"><strong",
   html " data-testid=\"ledger-balance\">",
   .value balance, html "</strong></td></tr></tbody></table>",
   html "<p class=\"sub\">Double-entry: the merchant debit offsets the platform and publisher credits, so a",
   html " correct settlement balances to zero.</p>"]

def ledgerTable (ledger : List Reports.LedgerEntry) : Option (List Piece) :=
  if ledger = [] then some ledgerEmpty
  else do
    let rows ← ledger.mapM fun entry => (format entry.amountCents (Utf8.text entry.currency)).map (ledgerRow entry)
    let total ← ledgerTotal ledger
    let balance ← format total usd
    return ledgerHead ++ rows.flatten ++ ledgerFoot balance

/-- The heading, with a link to the publisher. -/
def chainHeading (c : Reports.Chain) : List Piece :=
  [html "<h1 data-testid=\"chain-heading\">Attribution chain</h1><p class=\"sub\"><code",
   html " data-testid=\"chain-settlement-id\">",
   e c.settlementID, html "</code> · <a data-testid=\"chain-publisher-link\""]
    ++ href "publishers" c.publisherID ++ [html ">", e c.publisherName, html "</a></p>"]

def searchStep (c : Reports.Chain) : List Piece :=
  [html "<li data-testid=\"chain-step-search\"><div class=\"step\">1 · Agent searched</div><strong",
   html " data-testid=\"chain-query\">",
   if c.query ≠ [] then e c.query else html "(query record pruned)",
   html "</strong><br><code data-testid=\"chain-search-request-id\">", e c.searchRequestID, html "</code>"]
    ++ (if 0 < c.searchLatencyMs then [html "· ", eInt c.searchLatencyMs, html "ms"] else []) ++ [html "</li>"]

def assertionStep (c : Reports.Chain) : List Piece :=
  [html "<li data-testid=\"chain-step-assertion\"><div class=\"step\">2 · Platform minted a signed assertion</div>",
   html "<code data-testid=\"chain-assertion-id\">",
   e c.assertionID, html "</code><br>Ed25519, single use, bound to the search request above.</li>"]

def productStep (c : Reports.Chain) : List Piece :=
  [html "<li data-testid=\"chain-step-product\"><div class=\"step\">3 · Agent chose a product</div><strong",
   html " data-testid=\"chain-product-title\">",
   e c.productTitle, html "</strong> from <span data-testid=\"chain-merchant-name\">", e c.merchantName,
   html "</span><br><code data-testid=\"chain-product-id\">", e c.productID, html "</code></li>"]

def paymentStep (c : Reports.Chain) (gross : List Char) : List Piece :=
  [html "<li data-testid=\"chain-step-payment\"><div class=\"step\">4 · Merchant charged over x402</div><span",
   html " data-testid=\"chain-gross\">",
   .value gross, html "</span> on <span data-testid=\"chain-network\">", e c.network, html "</span>"]
    ++ (match c.txHash with
      | some hash =>
        if hash ≠ [] then [html "<br><code data-testid=\"chain-tx-hash\">", e hash, html "</code>"] else []
      | none => []) ++ [html "</li>"]

def splitStep (c : Reports.Chain) (gross commission publisher : List Char) : List Piece :=
  [html "<li data-testid=\"chain-step-split\"><div class=\"step\">5 · Assertion consumed, commission split</div>",
   html "<span data-testid=\"chain-commission-rate\">",
   eRate c.commissionBps, html "</span> of ", .value gross,
   html " = <span data-testid=\"chain-commission-amount\">",
   .value commission, html "</span>, of which the publisher earned <strong data-testid=\"chain-publisher-amount\">",
   .value publisher, html "</strong>.<br>"]
    ++ pill "<span data-testid=\"chain-status\" class=\"pill" c.status "\">" ++ [html "</li>"]

def stepsHead : List Piece := [html "<ol class=\"chain\" data-testid=\"chain-steps\">"]

def stepsFoot : List Piece := [html "</ol><h2>Ledger entries</h2>"]

def chainPage (c : Reports.Chain) : Option (List Piece) := do
  let gross ← format c.grossCents usd
  let commission ← format c.commissionCents usd
  let publisher ← format c.publisherCents usd
  let ledger ← ledgerTable c.ledger
  return chainHeading c ++ stepsHead ++ searchStep c ++ assertionStep c ++ productStep c ++ paymentStep c gross
    ++ splitStep c gross commission publisher ++ stepsFoot ++ ledger

end Chain

/-! ## controls.php -/

def controls : List Piece :=
  [html "<div class=\"controls\" id=\"controls\" data-testid=\"run-controls\"><button type=\"button\"",
   html " id=\"run-once\" data-testid=\"run-once\">Run one purchase</button>",
   html "<button type=\"button\" id=\"run-start\" class=\"primary\" data-testid=\"run-start\">Start",
   html " agents</button><button type=\"button\" id=\"run-stop\" disabled data-testid=\"run-stop\">Stop</button>",
   html "<label>Agents <input type=\"number\" id=\"concurrency\" value=\"6\" min=\"1\" max=\"24\" step=\"1\"",
   html " data-testid=\"concurrency\"></label>",
   html "<label><input type=\"checkbox\" id=\"fraud\" data-testid=\"fraud-toggle\"> Include fraud attempts</label>",
   html "<span class=\"live\" id=\"live-stats\">",
   html "<button type=\"button\" class=\"chip\" data-filter=\"settled\" data-testid=\"filter-settled\"><b",
   html " id=\"stat-settled\" data-testid=\"stat-settled\">0</b> settled</button>",
   html "<button type=\"button\" class=\"chip\" data-filter=\"blocked\" data-testid=\"filter-blocked\"><b",
   html " id=\"stat-blocked\" data-testid=\"stat-blocked\">0</b> blocked</button>",
   html "<button type=\"button\" class=\"chip\" data-filter=\"failed\" data-testid=\"filter-failed\"><b",
   html " id=\"stat-failed\" data-testid=\"stat-failed\">0</b> failed</button>",
   html "<button type=\"button\" class=\"chip\" data-filter=\"\" id=\"chip-all\" data-testid=\"filter-all\">",
   html "all</button><span id=\"stat-mode\" data-testid=\"run-mode\">stopped</span></span></div>",
   html "<div class=\"event\" id=\"live-event\" data-testid=\"run-event\"></div>"]

/-! ## publishers.php -/

section Publishers

def publisherRow (p : Reports.Publisher) (earned : List Char) : List Piece :=
  [html "<tr data-publisher=\"", e p.publisherID,
   html "\" data-testid=\"publisher-row\"><td><a data-testid=\"publisher-link\""]
    ++ href "publishers" p.publisherID ++
    [html ">", e p.name, html "</a></td><td><code data-testid=\"publisher-id\">", e p.publisherID,
     html "</code></td><td class=\"num\" data-testid=\"publisher-settlements\">", eInt p.settlementCount,
     html "</td><td class=\"num\" data-testid=\"publisher-earned\">", .value earned,
     html "</td><td class=\"num blocked\" data-testid=\"publisher-blocked\">", eInt p.blockedCount,
     html "</td><td class=\"num\" data-testid=\"publisher-failed\">", eInt p.failedCount, html "</td></tr>"]

def settlementsHint : List Piece :=
  [html "<div class=\"err\" id=\"empty-hint\" data-testid=\"no-settlements-hint\">No purchase has settled yet.",
   html " Press <strong>Run one purchase</strong> to send a single agent through search, payment, and settlement,",
   html " or <strong>Start agents</strong> to run a population of them. Tick <strong>Include fraud attempts</strong>",
   html " to watch the platform refuse tampered assertions.</div>"]

def publishersHead : List Piece :=
  [html "<div id=\"filter-empty\" class=\"err\" data-testid=\"filter-empty\" hidden></div><table",
   html " data-testid=\"publishers-table\"><thead><tr>",
   html "<th class=\"sortable\" data-sort=\"name\" data-testid=\"sort-name\">Publisher</th><th class=\"sortable\"",
   html " data-sort=\"publisher_id\" data-testid=\"sort-publisher-id\">Identifier</th>",
   html "<th class=\"sortable num\" data-sort=\"settlement_count\" data-testid=\"sort-settlements\">",
   html "Settlements</th><th class=\"sortable num desc\" data-sort=\"earned_cents\" data-testid=\"sort-earned\">",
   html "Earned</th>",
   html "<th class=\"sortable num\" data-sort=\"blocked_count\" data-testid=\"sort-blocked\">Blocked</th><th",
   html " class=\"sortable num\" data-sort=\"failed_count\" data-testid=\"sort-failed\">Failed</th>",
   html "</tr></thead><tbody id=\"publisher-rows\" data-testid=\"publisher-rows\">"]

def tableFoot : List Piece := [html "</tbody></table>"]

def publishersTitle : List Piece :=
  [html "<h1 data-testid=\"publishers-heading\">Publishers</h1><p class=\"sub\">Every publisher earning",
   html " commission through agent-mediated purchases.</p>"]

def catalogEmpty : List Piece :=
  [html "<div class=\"err\" data-testid=\"catalog-empty\">No publishers yet. Run <code>make seed</code> to load",
   html " the catalog.</div>"]

def publishersPage (publishers : List Reports.Publisher) : Option (List Piece) := do
  let rows ← publishers.mapM fun p => (format p.earnedCents (Utf8.text p.currency)).map (publisherRow p)
  let earning := publishers.filter fun p => 0 < p.settlementCount
  return publishersTitle ++ controls ++
    if publishers = [] then catalogEmpty
    else (if earning = [] then settlementsHint else []) ++ publishersHead ++ rows.flatten ++ tableFoot

end Publishers

/-! ## publisher.php -/

section Publisher

def settlementRow (s : Reports.SettlementRow) (gross earned : List Char) : List Piece :=
  [html "<tr data-testid=\"settlement-row\" data-settlement=\"", e s.settlementID,
   html "\"><td data-testid=\"settlement-product\">", e s.productTitle,
   html "</td><td data-testid=\"settlement-merchant\">", e s.merchantName,
   html "</td><td class=\"num\" data-testid=\"settlement-gross\">", .value gross,
   html "</td><td class=\"num\" data-testid=\"settlement-rate\">", eRate s.commissionBps,
   html "</td><td class=\"num\" data-testid=\"settlement-earned\">", .value earned, html "</td><td>"]
    ++ pill "<span class=\"pill" s.status "\" data-testid=\"settlement-status\">" ++
    [html "</td><td><a data-testid=\"settlement-chain-link\""]
    ++ href "settlements" s.settlementID ++ [html ">view</a></td></tr>"]

def rejectionRow (stamp : ℤ → List Char) (r : Reports.RejectionRow) : List Piece :=
  [html "<tr data-testid=\"rejection-row\"><td><span class=\"pill other\" data-testid=\"rejection-reason\">",
   e r.reason,
   html "</span></td><td><code data-testid=\"rejection-assertion\">", e (r.assertionID.getD []),
   html "</code></td><td><code data-testid=\"rejection-merchant\">", e (r.merchantID.getD []),
   html "</code></td><td data-testid=\"rejection-when\">", .value (stamp r.createdAt), html "</td></tr>"]

/-- A card of the summary. -/
def card (label classes testid : String) (shown : Piece) : List Piece :=
  [html "<div class=\"card\"><div class=\"k\">", html label, html "</div><div class=\"", html classes,
   html "\" data-testid=\"", html testid, html "\">", shown, html "</div></div>"]

def cards (summary : Reports.PublisherSummary) (earned gross : List Char) : List Piece :=
  [html "<div class=\"cards\" id=\"summary-cards\" data-publisher=\"", e summary.publisherID,
   html "\" data-currency=\"", e summary.currency, html "\">"]
    ++ card "Earned" "v" "summary-earned" (.value earned)
    ++ card "Gross referred" "v" "summary-gross" (.value gross)
    ++ card "Settlements" "v" "summary-settlements" (eCount summary.settlementCount)
    ++ card "Avg commission" "v" "summary-avg-commission" (eRate summary.averageCommission)
    ++ card "Searches" "v" "summary-searches" (eCount summary.searchRequests)
    ++ card "Assertions used" "v" "summary-assertions" (eCount summary.assertionsIssued)
    ++ card "Blocked" "v blocked" "summary-blocked" (eCount summary.blockedCount) ++ [html "</div>"]

/-- ` hidden`, under a condition. -/
def hidden (b : Bool) : Piece := html (if b then " hidden>" else ">")

def settlementsHead (empty : Bool) : List Piece :=
  [html "<h2>Settlements</h2><div id=\"settlements-empty\" class=\"err\" data-testid=\"settlements-empty\"",
   hidden !empty,
   html "No settlements for this publisher yet. Press <strong>Run one purchase</strong> above, or <strong>Start",
   html " agents</strong> and wait for one to land here.</div>",
   html "<div id=\"settlements-wrap\" data-testid=\"settlements-wrap\"", hidden empty,
   html "<table><thead><tr><th class=\"sortable\" data-sort=\"product_title\" data-testid=\"sort-product\">",
   html "Product</th><th class=\"sortable\" data-sort=\"merchant_name\">Merchant</th>",
   html "<th class=\"sortable num\" data-sort=\"gross_amount_cents\" data-testid=\"sort-gross\">Gross</th><th",
   html " class=\"sortable num\" data-sort=\"commission_bps\">Rate</th>",
   html "<th class=\"sortable num\" data-sort=\"publisher_amount_cents\" data-testid=\"sort-settlement-earned\">",
   html "Earned</th><th class=\"sortable\" data-sort=\"status\">Status</th><th>Chain</th>",
   html "</tr></thead><tbody id=\"settlement-rows\" data-testid=\"settlement-rows\">"]

def rejectionsHead (empty : Bool) : List Piece :=
  [html "<h2>Blocked attempts</h2><p class=\"sub\">Assertions the platform refused in this publisher's name.",
   html " Every row here is a payout that did not happen, decided by signature verification rather than by review.</p>",
   html "<div id=\"rejections-empty\" class=\"err\" data-testid=\"rejections-empty\"", hidden !empty,
   html "Nothing refused yet. Tick <strong>Include fraud attempts</strong> above to send tampered assertions",
   html " through the same path a genuine purchase takes.</div>",
   html "<div id=\"rejections-wrap\" data-testid=\"rejections-wrap\"", hidden empty,
   html "<table><thead><tr><th class=\"sortable\" data-sort=\"reason\" data-testid=\"sort-reason\">Reason</th><th>",
   html "Assertion</th><th class=\"sortable\" data-sort=\"merchant_id\">Merchant</th>",
   html "<th class=\"sortable\" data-sort=\"created_at\">When</th></tr></thead><tbody id=\"rejection-rows\"",
   html " data-testid=\"rejection-rows\">"]

def wrapFoot : List Piece := [html "</tbody></table></div>"]

def publisherTitle (summary : Reports.PublisherSummary) : List Piece :=
  [html "<h1 data-testid=\"publisher-name\">", e summary.name,
   html "</h1><p class=\"sub\"><code data-testid=\"publisher-id\">", e summary.publisherID, html "</code></p>"]

/-- `publisher.php`, with the instants as `stamp` writes them. -/
def publisherPage (stamp : ℤ → List Char) (summary : Reports.PublisherSummary)
    (settlements : List Reports.SettlementRow) (rejections : List Reports.RejectionRow) : Option (List Piece) := do
  let currency := Utf8.text summary.currency
  let earned ← format summary.earnedCents currency
  let gross ← format summary.grossAmountCents currency
  let rows ← settlements.mapM fun s => do
    let gross ← format s.grossAmountCents currency
    let earned ← format s.publisherAmountCents currency
    return settlementRow s gross earned
  return publisherTitle summary ++ controls ++ cards summary earned gross
    ++ settlementsHead settlements.isEmpty ++ rows.flatten ++ wrapFoot
    ++ rejectionsHead rejections.isEmpty ++ rejections.flatMap (rejectionRow stamp) ++ wrapFoot

end Publisher

/-! ## error.php and layout.php -/

section Layout

def errorPage (status : ℕ) (message : Bytes) : List Piece :=
  [html "<h1 data-testid=\"error-status\">", eInt status,
   html "</h1><div class=\"err\" data-testid=\"error-message\">",
   e message, html "</div><p><a data-testid=\"error-home-link\" href=\"/\">Back to publishers</a></p>"]

def layoutHead (title : Bytes) : List Piece :=
  [html "<!doctype html><html lang=\"en\"><head><meta charset=\"utf-8\"><meta name=\"viewport\"",
   html " content=\"width=device-width, initial-scale=1\"><title>",
   e title, html " · agentic-attribution</title></head><body>",
   html "<header data-testid=\"site-header\"><a data-testid=\"home-link\" href=\"/\">agentic-attribution</a>",
   html " <span style=\"color:var(--muted);font-weight:400\">publisher dashboard</span></header>",
   html "<main data-testid=\"page-content\">"]

def layoutFoot : List Piece := [html "</main></body></html>"]

/-- The layout around a page; `$content` is rendered already. -/
def layout (title : Bytes) (content : List Piece) : List Piece := layoutHead title ++ content ++ layoutFoot

end Layout

/-! ## Where the values and the links are -/

section Links

/-- A reader comes out of the pieces in the text, no value stands in a tag, and these are the links. -/
structure Links (ps : List Piece) (found : List (List Char)) : Prop where
  placed : place .text (ps.map Piece.shape) = some .text
  targets : ∀ qs, targets (tokens .text (ps ++ qs)) = found ++ targets (tokens .text qs)

theorem Links.of {ps : List Piece} {found : List (List Char)} (hplace : place .text (ps.map Piece.shape) = some .text)
    (hlinked : linked .text (ps.map Piece.shape) = some found) : Links ps found :=
  ⟨hplace, fun _ => targets_tokens hplace hlinked⟩

theorem links_nil : Links [] [] := Links.of rfl rfl

theorem Links.append {ps qs : List Piece} {a b : List (List Char)} (hp : Links ps a) (hq : Links qs b) :
    Links (ps ++ qs) (a ++ b) := by
  refine ⟨?_, fun rs => ?_⟩
  · rw [List.map_append, place_append, hp.placed]
    exact hq.placed
  · rw [List.append_assoc, hp.targets, hq.targets, List.append_assoc]

theorem Links.eq {ps : List Piece} {a b : List (List Char)} (h : Links ps a) (hab : a = b) : Links ps b := hab ▸ h

theorem links_flatMap {α : Type} {f : α → List Piece} (h : ∀ x, Links (f x) []) (xs : List α) :
    Links (xs.flatMap f) [] := by
  induction xs with
  | nil => exact links_nil
  | cons x xs ih => exact (h x).append ih

/-- The links of the rows of a table. -/
theorem links_mapM {α : Type} {f : α → Option (List Piece)} {target : α → List (List Char)}
    (hf : ∀ x ps, f x = some ps → Links ps (target x)) {xs : List α} {rows : List (List Piece)}
    (h : xs.mapM f = some rows) : Links rows.flatten (xs.flatMap target) := by
  induction xs generalizing rows with
  | nil =>
    obtain rfl := Option.some.inj h
    exact links_nil
  | cons x xs ih =>
    rw [List.mapM_cons] at h
    obtain ⟨row, hrow, h⟩ := Option.bind_eq_some_iff.mp h
    obtain ⟨rest, hrest, h⟩ := Option.bind_eq_some_iff.mp h
    obtain rfl := Option.some.inj h
    exact (hf x row hrow).append (ih hrest)

/-- **A link leads where its value says.** -/
theorem links_href {kind : String} (hkind : '"' ∉ kind.toList ∧ '&' ∉ kind.toList) {before behind : List Piece}
    (hbefore : place .text (before.map Piece.shape) = some .tag ∧ linked .text (before.map Piece.shape) = some [])
    (hbehind : place .tag (behind.map Piece.shape) = some .text ∧ linked .tag (behind.map Piece.shape) = some [])
    (value : Bytes) : Links (before ++ href kind value ++ behind) [link kind.toList value] := by
  have hslash : '"' ∉ kind.toList ++ ['/'] ∧ '&' ∉ kind.toList ++ ['/'] := by simp [hkind]
  have hfixed : " href=\"/".toList ++ kind.toList ++ ['/']
      = ' ' :: 'h' :: 'r' :: 'e' :: 'f' :: '=' :: '"' :: '/' :: (kind.toList ++ ['/']) := by
    rw [String.toList_ofList]
    simp
  have hplain : plain .tag (" href=\"/".toList ++ kind.toList ++ ['/'])
      = hrefMark ++ ('/' :: (kind.toList ++ ['/'])).map (Token.data .quoted) := by
    rw [hfixed]
    simp [plain, Ctx.isData, Ctx.next, hrefMark, plain_quoted hslash.1]
  have hscan : Ctx.tag.scan (" href=\"/".toList ++ kind.toList ++ ['/']) = .quoted := by
    rw [hfixed]
    exact scan_quoted (List.not_mem_cons_of_ne_of_not_mem (by decide) hslash.1)
  have hamp : '&' ∉ " href=\"/".toList ++ kind.toList ++ ['/'] := by
    rw [hfixed]
    simp [hkind.2]
  refine ⟨?_, fun qs => ?_⟩
  · have hquot : Ctx.quoted.scan ['"'] = .tag := rfl
    have hnone : '&' ∉ ['"'] := by decide
    rw [List.map_append, List.map_append, place_append, place_append, hbefore.1, Option.bind_some]
    simp only [href, List.map_cons, List.map_nil, Piece.shape, place, if_neg hamp, hscan, if_neg hnone, hquot]
    exact hbehind.1
  · rw [List.append_assoc, List.append_assoc, targets_tokens hbefore.1 hbefore.2, List.nil_append]
    have hquot : read .quoted ['"'] = [.markup '"'] := by
      simp [read_cons_of_ne, Ctx.isData, Ctx.next]
    have htarget : link kind.toList value = '/' :: (kind.toList ++ ['/']) ++ rawurlencode value := by
      simp [link, Percent.pathOf]
    have hrest := @targets_tokens _ _ behind qs _ hbehind.1 hbehind.2
    rw [List.nil_append] at hrest
    have hout : Ctx.quoted.scan ['"'] = .tag := rfl
    simp only [href, List.cons_append, List.nil_append, tokens, read_eq_plain hamp, hplain, hscan, hquot, hout]
    rw [htarget, ← hrest]
    have hdata := @targets_href .quoted (tokens .tag (behind ++ qs))
      ('/' :: (kind.toList ++ ['/']) ++ rawurlencode value)
    simpa using hdata

theorem shape_html (s : String) : (html s).shape = some s.toList := rfl
theorem shape_e (s : Bytes) : (e s).shape = none := rfl
theorem shape_eInt (n : ℤ) : (eInt n).shape = none := rfl
theorem shape_eCount (n : ℤ) : (eCount n).shape = none := rfl
theorem shape_eRate (bps : ℤ) : (eRate bps).shape = none := rfl
theorem shape_value (cs : List Char) : (Piece.value cs).shape = none := rfl

/-- The parts that the pages are put together of. -/
structure Parts : Prop where
  controls : Links controls []
  ledgerEmpty : Links ledgerEmpty []
  ledgerHead : Links ledgerHead []
  ledgerRow : ∀ entry amount, Links (ledgerRow entry amount) []
  ledgerFoot : ∀ balance, Links (ledgerFoot balance) []
  chainHeading : ∀ c, Links (chainHeading c) [link "publishers".toList c.publisherID]
  stepsHead : Links stepsHead []
  searchStep : ∀ c, Links (searchStep c) []
  assertionStep : ∀ c, Links (assertionStep c) []
  productStep : ∀ c, Links (productStep c) []
  paymentStep : ∀ c gross, Links (paymentStep c gross) []
  splitStep : ∀ c gross commission publisher, Links (splitStep c gross commission publisher) []
  stepsFoot : Links stepsFoot []
  publishersTitle : Links publishersTitle []
  catalogEmpty : Links catalogEmpty []
  settlementsHint : Links settlementsHint []
  publishersHead : Links publishersHead []
  publisherRow : ∀ p earned, Links (publisherRow p earned) [link "publishers".toList p.publisherID]
  tableFoot : Links tableFoot []
  publisherTitle : ∀ summary, Links (publisherTitle summary) []
  cards : ∀ summary earned gross, Links (cards summary earned gross) []
  settlementsHead : ∀ empty, Links (settlementsHead empty) []
  settlementRow : ∀ s gross earned,
    Links (settlementRow s gross earned) [link "settlements".toList s.settlementID]
  rejectionsHead : ∀ empty, Links (rejectionsHead empty) []
  rejectionRow : ∀ stamp r, Links (rejectionRow stamp r) []
  wrapFoot : Links wrapFoot []
  errorPage : ∀ status message, Links (errorPage status message) [['/']]
  layoutHead : ∀ title, Links (layoutHead title) [['/']]
  layoutFoot : Links layoutFoot []

-- Only the fixed markup decides where a reader is and what is a link, so each part comes down to a computation on
-- literals.
theorem parts : Parts := by
  constructor <;> intros <;> try apply links_href
  all_goals
    try simp only [Dashboard.controls, Dashboard.ledgerEmpty, Dashboard.ledgerHead, Dashboard.ledgerRow,
      Dashboard.ledgerFoot, Dashboard.stepsHead, Dashboard.searchStep,
      Dashboard.assertionStep, Dashboard.productStep, Dashboard.paymentStep, Dashboard.splitStep,
      Dashboard.stepsFoot, Dashboard.publishersTitle, Dashboard.catalogEmpty, Dashboard.settlementsHint,
      Dashboard.publishersHead, Dashboard.tableFoot, Dashboard.publisherTitle,
      Dashboard.cards, Dashboard.settlementsHead, Dashboard.rejectionsHead,
      Dashboard.rejectionRow, Dashboard.wrapFoot, Dashboard.errorPage, Dashboard.layoutHead, Dashboard.layoutFoot,
      pill, card, hidden]
    repeat' split
    all_goals
      try apply Links.of
      all_goals
        try simp only [List.map_cons, List.map_nil, List.map_append, shape_html, shape_e, shape_eInt, shape_eCount,
          shape_eRate, shape_value]
        repeat rw [String.toList_ofList]
        decide +kernel

/-! ## The pages as a whole -/

theorem links_ledgerTable {ledger : List Reports.LedgerEntry} {ps : List Piece} (h : ledgerTable ledger = some ps) :
    Links ps [] := by
  unfold ledgerTable at h
  split_ifs at h
  · exact Option.some.inj h ▸ parts.ledgerEmpty
  · obtain ⟨rows, hrows, h⟩ := Option.bind_eq_some_iff.mp h
    obtain ⟨total, -, h⟩ := Option.bind_eq_some_iff.mp h
    obtain ⟨balance, -, h⟩ := Option.bind_eq_some_iff.mp h
    obtain rfl := Option.some.inj h
    have htable : Links rows.flatten (ledger.flatMap fun _ => []) := links_mapM (fun entry ps hps => by
      obtain ⟨amount, -, rfl⟩ := Option.map_eq_some_iff.mp hps
      exact parts.ledgerRow entry amount) hrows
    exact ((parts.ledgerHead.append htable).append (parts.ledgerFoot balance)).eq (by simp)

theorem links_chainPage {c : Reports.Chain} {ps : List Piece} (h : chainPage c = some ps) :
    Links ps [link "publishers".toList c.publisherID] := by
  obtain ⟨gross, -, h⟩ := Option.bind_eq_some_iff.mp h
  obtain ⟨commission, -, h⟩ := Option.bind_eq_some_iff.mp h
  obtain ⟨publisher, -, h⟩ := Option.bind_eq_some_iff.mp h
  obtain ⟨ledger, hledger, h⟩ := Option.bind_eq_some_iff.mp h
  obtain rfl := Option.some.inj h
  have hlead := (parts.chainHeading c).append parts.stepsHead
  have hearly := ((hlead.append (parts.searchStep c)).append (parts.assertionStep c)).append (parts.productStep c)
  have hlate := (hearly.append (parts.paymentStep c gross)).append (parts.splitStep c gross commission publisher)
  exact (hlate.append parts.stepsFoot).append (links_ledgerTable hledger)

theorem links_publishersPage {publishers : List Reports.Publisher} {ps : List Piece}
    (h : publishersPage publishers = some ps) :
    Links ps (publishers.map fun p => link "publishers".toList p.publisherID) := by
  obtain ⟨rows, hrows, h⟩ := Option.bind_eq_some_iff.mp h
  obtain rfl := Option.some.inj h
  have htable : Links rows.flatten (publishers.flatMap fun p => [link "publishers".toList p.publisherID]) :=
    links_mapM (fun p ps hps => by
      obtain ⟨earned, -, rfl⟩ := Option.map_eq_some_iff.mp hps
      exact parts.publisherRow p earned) hrows
  have hlead := parts.publishersTitle.append parts.controls
  split_ifs with hempty
  · exact (hlead.append parts.catalogEmpty).eq (by simp [hempty])
  · have hfull := ((parts.settlementsHint.append parts.publishersHead).append htable).append parts.tableFoot
    exact (hlead.append hfull).eq (by simp [← List.map_eq_flatMap])
  · have hfull := ((links_nil.append parts.publishersHead).append htable).append parts.tableFoot
    exact (hlead.append hfull).eq (by simp [← List.map_eq_flatMap])

theorem links_publisherPage {stamp : ℤ → List Char} {summary : Reports.PublisherSummary}
    {settlements : List Reports.SettlementRow} {rejections : List Reports.RejectionRow} {ps : List Piece}
    (h : publisherPage stamp summary settlements rejections = some ps) :
    Links ps (settlements.map fun s => link "settlements".toList s.settlementID) := by
  obtain ⟨earned, -, h⟩ := Option.bind_eq_some_iff.mp h
  obtain ⟨gross, -, h⟩ := Option.bind_eq_some_iff.mp h
  obtain ⟨rows, hrows, h⟩ := Option.bind_eq_some_iff.mp h
  obtain rfl := Option.some.inj h
  have hsettlements : Links rows.flatten
      (settlements.flatMap fun s => [link "settlements".toList s.settlementID]) :=
    links_mapM (fun s ps hps => by
      obtain ⟨gross, -, hps⟩ := Option.bind_eq_some_iff.mp hps
      obtain ⟨earned, -, hps⟩ := Option.bind_eq_some_iff.mp hps
      exact Option.some.inj hps ▸ parts.settlementRow s gross earned) hrows
  have hrejections := links_flatMap (parts.rejectionRow stamp) rejections
  have hcards := ((parts.publisherTitle summary).append parts.controls).append (parts.cards summary earned gross)
  have htable := ((hcards.append (parts.settlementsHead settlements.isEmpty)).append hsettlements).append
    parts.wrapFoot
  exact (((htable.append (parts.rejectionsHead rejections.isEmpty)).append hrejections).append parts.wrapFoot).eq
    (by simp [← List.map_eq_flatMap])

theorem links_layout (title : Bytes) {content : List Piece} {found : List (List Char)} (h : Links content found) :
    Links (layout title content) (['/'] :: found) :=
  (((parts.layoutHead title).append h).append parts.layoutFoot).eq (by simp)

end Links

end Dashboard
