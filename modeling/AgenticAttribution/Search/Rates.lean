import AgenticAttribution.Search.Service
import AgenticAttribution.Settlement.Integrity
import Mathlib.Data.List.Induction

/-!
# Search.Rates — the rate a merchant published

An assertion carries the highest rate among the offers of its product, as they were when the index was built, and a
settlement takes the lower of that and the rate of the listing it finds.  So it settles at the listing's own rate as
long as the listings are the ones that were indexed, and never above either rate (`settles_own_rate`).
-/

namespace Search

open Attribution Fallible Settlement Ingest

/-! ## The listing of a call -/

section Lookups

variable {svc : Service} {start s t : Sys} {a : Settlement.Action} {as : List Settlement.Action} {c : ℕ}
  {call : Call} {l : Listing}

/-- The call has the listing in hand, or has begun its settlement with it. -/
def HasListing (call : Call) (l : Listing) : Prop := call.pc.listing = some l ∨ ∃ p, call.begun = some (l, p)

/-- The run looked up the listing for the call `c`, in the state `t`. -/
def LookedUp (svc : Service) (start : Sys) (as : List Settlement.Action) (c : ℕ) (req : Settlement.Request)
    (l : Listing) (t : Sys) : Prop :=
  ∃ bs pick fate cs, as = bs ++ .lookup c pick fate :: cs ∧ Settlement.run svc start bs = some t ∧ Found t req l

/-- Every listing in hand was looked up. -/
def Looked (svc : Service) (start : Sys) (as : List Settlement.Action) (s : Sys) : Prop :=
  ∀ c call l, s.calls[c]? = some call → HasListing call l → ∃ t, LookedUp svc start as c call.req l t

theorem LookedUp.append {req : Settlement.Request} (h : LookedUp svc start as c req l t) (a : Settlement.Action) :
    LookedUp svc start (as ++ [a]) c req l t := by
  obtain ⟨bs, pick, fate, cs, rfl, hrun, hfound⟩ := h
  exact ⟨bs, pick, fate, cs ++ [a], by simp, hrun, hfound⟩

theorem Looked.append (h : Looked svc start as s) (hcalls : t.calls = s.calls) :
    Looked svc start (as ++ [a]) t := by
  intro c call l hc hl
  rw [hcalls] at hc
  obtain ⟨u, hu⟩ := h c call l hc hl
  exact ⟨u, hu.append a⟩

/-- A call that takes up no listing. -/
theorem Looked.put (h : Looked svc start as s) (hc : s.calls[c]? = some call) (db : DB) (xs : List Exchange)
    {begun : Option (Listing × PendingSettlement)} {pc : Pc}
    (hnew : ∀ l, HasListing { call with begun, pc } l → HasListing call l) :
    Looked svc start (as ++ [a]) ({ s with db, exchanges := xs }.put c { call with begun, pc }) := by
  intro i call' l hi hl
  have hget : ({ s with db, exchanges := xs }.put c { call with begun, pc }).calls[i]?
      = if c = i then some { call with begun, pc } else s.calls[i]? :=
    get_put (s := { s with db, exchanges := xs }) hc i
  rw [hget] at hi
  by_cases hci : c = i
  · rw [if_pos hci] at hi
    obtain rfl := Option.some.inj hi
    obtain ⟨u, hu⟩ := h c call l hc (hnew l hl)
    rw [← hci]
    exact ⟨u, hu.append a⟩
  · rw [if_neg hci] at hi
    obtain ⟨u, hu⟩ := h i call' l hi hl
    exact ⟨u, hu.append a⟩

theorem hasListing_of_idle {pc : Pc} (hpc : pc.listing = none) (h : HasListing { call with pc } l) :
    HasListing call l := by
  rcases h with h | h
  · rw [show ({ call with pc } : Call).pc.listing = none from hpc] at h
    cases h
  · exact Or.inr h

theorem looked_step (hrun : Settlement.run svc start as = some s) (h : Looked svc start as s)
    (hs : Settlement.step svc s a = some t) : Looked svc start (as ++ [a]) t := by
  cases moves_of_step hs with
  | entered req now =>
    intro i call l hi hl
    rcases lt_or_ge i s.calls.length with hlt | hge
    · rw [List.getElem?_append_left hlt] at hi
      obtain ⟨u, hu⟩ := h i call l hi hl
      exact ⟨u, hu.append _⟩
    · have hmem := List.mem_of_getElem? (List.getElem?_append_right hge ▸ hi)
      rw [List.mem_singleton.mp hmem] at hl
      unfold HasListing Service.entered at hl
      cases hv : svc.verify req now <;> simp [hv, Pc.listing] at hl
  | turnedDown e hc hpc => exact h.put hc s.db s.exchanges fun _ => hasListing_of_idle rfl
  | @found c pick fate call listing hc hpc hfound =>
    intro i call' l hi hl
    rw [get_put hc] at hi
    by_cases hci : c = i
    · rw [if_pos hci] at hi
      obtain rfl := Option.some.inj hi
      rcases hl with hl | hl
      · obtain rfl := Option.some.inj hl
        exact ⟨s, as, pick, fate, [], by rw [hci], hrun, hfound⟩
      · obtain ⟨u, hu⟩ := h c call l hc (Or.inr hl)
        exact ⟨u, hci ▸ hu.append _⟩
    · rw [if_neg hci] at hi
      obtain ⟨u, hu⟩ := h i call' l hi hl
      exact ⟨u, hu.append _⟩
  | @accepted c answer call listing hc hpc hv =>
    refine h.put hc s.db s.exchanges fun l hl => ?_
    rcases hl with hl | hl
    · exact Or.inl (by rw [hpc]; exact hl)
    · exact Or.inr hl
  | @notBegun c newID fate call listing e hc hpc =>
    refine h.put hc s.db s.exchanges fun l hl => ?_
    rcases hl with hl | ⟨p, hp⟩
    · cases hl
    · obtain ⟨rfl, -⟩ := Prod.mk.inj (Option.some.inj hp)
      exact Or.inl (by rw [hpc]; rfl)
  | @begun c newID fate call listing r hc hpc hadm =>
    refine h.put hc (s.db.claim _) s.exchanges fun l hl => ?_
    rcases hl with hl | ⟨p, hp⟩
    · rw [show (beginPc (call.req.pending listing newID) r).listing = none from (early_beginPc _ r).2] at hl
      cases hl
    · obtain ⟨rfl, -⟩ := Prod.mk.inj (Option.some.inj hp)
      exact Or.inl (by rw [hpc]; rfl)
  | @paid c moved answer call p hc hpc =>
    exact h.put hc s.db _ fun _ => hasListing_of_idle (listing_settlePc p answer)
  | notConfirmed e hc hpc => exact h.put hc s.db s.exchanges fun _ => hasListing_of_idle rfl
  | confirmed r hc hpc hconf =>
    exact h.put hc (s.db.confirm _ _ _) s.exchanges fun _ => hasListing_of_idle (by cases r <;> rfl)
  | notFailed e hc hpc => exact h.put hc s.db s.exchanges fun _ => hasListing_of_idle rfl
  | failed e hc hpc => exact h.put hc (s.db.fail _) s.exchanges fun _ => hasListing_of_idle rfl
  | journalled rows hc hpc =>
    exact h.put hc { s.db with rejected := rows } s.exchanges fun _ => hasListing_of_idle rfl
  | minted hr => exact h.append rfl
  | catalogued hx => exact h.append rfl
  | rejected rows => exact h.append rfl

theorem looked_run {catalog : Catalog} : ∀ {as : List Settlement.Action} {s : Sys},
    Settlement.run svc (Sys.init catalog) as = some s → Looked svc (Sys.init catalog) as s := by
  intro as
  induction as using List.reverseRecOn with
  | nil =>
    intro s h c call l hc
    obtain rfl := Option.some.inj h
    cases hc
  | append_singleton as a ih =>
    intro s h
    obtain ⟨u, hu, hs⟩ := Runs.run_append_eq_some.mp h
    obtain ⟨t, ht, h⟩ := Runs.run_cons_eq_some.mp hs
    obtain rfl := Option.some.inj h
    exact looked_step hu (ih hu) ht

end Lookups

/-! ## The rate of a settlement -/

section Rate

variable {svc : Service} {F : Type}

/-- A row of the ledger, the call that began it, and the state in which the call looked up its listing. -/
structure SettledAgainst (svc : Service) (start : Sys) (as : List Settlement.Action) (s : Sys) (r : SettlementRow)
    (call : Call) (l : Listing) (t : Sys) : Prop where
  lookup : ∃ c, s.calls[c]? = some call ∧ LookedUp svc start as c call.req l t
  begun : ∃ p, call.begun = some (l, p) ∧ r.terms = p.row

/-- The assertion is one that a search handed out for documents of an index over the catalog. -/
def MintedFrom (svc : Service) (sk : svc.ed25519.PrivateKey) (catalog : Catalog) (a : Assertion) : Prop :=
  ∃ (F : Type) (collation : Collation) (rows : List Row) (indexedAt : Bytes) (n : ℕ)
    (index sources : List (ProductDocument F)) (uuids : List Uuid) (searchRequestID publisherID : Bytes)
    (issuedAt : ℤ) (assertions : List Assertion),
    DocumentQuery collation catalog rows ∧ indexed indexedAt rows = .ok (n, index) ∧ (∀ d ∈ sources, d ∈ index) ∧
      mintAssertions svc.ed25519 sk searchRequestID publisherID issuedAt
        (uuids.zip ((search sources).map Hit.toProduct)) = .ok assertions ∧ a ∈ assertions

/-- **The rate in an assertion is the highest of its product.** -/
theorem listing_le_of_minted {sk : svc.ed25519.PrivateKey} {catalog : Catalog} {a : Assertion}
    (h : MintedFrom svc sk catalog a) :
    ∀ row ∈ catalog.listings, row.productID = a.productID → row.commissionBps ≤ a.commissionBps := by
  obtain ⟨F, collation, rows, indexedAt, n, index, sources, uuids, searchRequestID, publisherID, issuedAt, assertions,
    hquery, hindex, hsources, hmint, ha⟩ := h
  intro row hrow hid
  obtain ⟨f, hf, hmint⟩ := mem_mintAssertions hmint a ha
  obtain ⟨hit, hhit, hproduct⟩ := List.mem_map.mp (List.of_mem_zip hf).2
  obtain ⟨d, hd, rfl⟩ := List.mem_map.mp hhit
  obtain ⟨-, rfl⟩ := (mint_eq_ok_iff _).mp hmint
  have hbps : d.maxCommissionBps = f.2.maxCommissionBps := congrArg Product.maxCommissionBps hproduct
  have hpid : d.productID = f.2.productID := congrArg Product.productID hproduct
  obtain ⟨-, hassembled, -⟩ := assembled hquery.ordered (assemble_of_indexed hindex)
  have hdoc := hassembled d (hsources d hd)
  -- the listing is the row of an offer of the document
  obtain ⟨r, hr, rfl⟩ := List.mem_map.mp (hquery.listings.mem_iff.mpr hrow)
  have hmem : r ∈ rowsOf rows d.productID := by
    refine List.mem_filter.mpr ⟨hr, decide_eq_true ?_⟩
    rw [hquery.joined r hr, hpid]
    exact hid
  have hoffer : r.offer ∈ d.offers := by
    rw [offers_of_assembled hdoc]
    exact List.mem_map_of_mem hmem
  have hle : r.listing.commissionBps ≤ d.maxCommissionBps := (summary_of_assembled hdoc).maxCommission r.offer hoffer
  rw [hbps] at hle
  exact hle

/-- **The merchant pays its own published rate.**  A settlement takes the lower of the signed rate and the rate of its
listing; for an assertion out of an index over the same listings, that is the listing's. -/
theorem settles_own_rate (svc : Service) (start : Catalog) {as : List Settlement.Action} {s : Sys}
    (hrun : Settlement.run svc (Sys.init start) as = some s) {r : SettlementRow} (hr : r ∈ s.db.settlements) :
    ∃ call l t, SettledAgainst svc (Sys.init start) as s r call l t ∧
      r.commissionBps ≤ call.req.assertion.commissionBps ∧ r.commissionBps ≤ l.commissionBps ∧
      ∀ (sk : svc.ed25519.PrivateKey) (catalog : Catalog), MintedFrom svc sk catalog call.req.assertion →
        t.db.catalog.listings = catalog.listings → r.commissionBps = l.commissionBps := by
  have htrace := trace_run hrun
  obtain ⟨call, hc, l, p, hbegun, hterms⟩ := htrace.rows r hr
  obtain ⟨c, hget⟩ := List.mem_iff_getElem?.mp hc
  obtain ⟨t, hlooked⟩ := looked_run hrun c call l hget (Or.inr ⟨p, hbegun⟩)
  obtain ⟨-, newID, rfl⟩ := (htrace.calls call hc).begun l p hbegun
  have hrate : r.commissionBps = min call.req.assertion.commissionBps l.commissionBps := by
    have hbps : r.terms.commissionBps = _ := congrArg SettlementRow.commissionBps hterms
    rw [← effectiveCommissionBps_eq_min]
    exact hbps
  refine ⟨call, l, t, ⟨⟨c, hget, hlooked⟩, _, hbegun, hterms⟩, ?_, ?_, ?_⟩
  · rw [hrate]
    exact min_le_left _ _
  · rw [hrate]
    exact min_le_right _ _
  · intro sk catalog hminted hsame
    obtain ⟨-, -, -, -, -, -, hfound⟩ := hlooked
    obtain ⟨row, hrow, hid, -, rfl⟩ := hfound.row
    rw [hrate]
    exact min_eq_right (listing_le_of_minted hminted row (hsame ▸ hrow) hid)

end Rate

/-! ## A sample -/

section Unchanged

variable {svc : Service} {s t : Sys} {a : Settlement.Action}

/-- Only a change of the catalog changes the listings. -/
theorem listings_step (h : Settlement.step svc s a = some t)
    (ha : ∀ new, a = .catalog new → new.listings = s.db.catalog.listings) :
    t.db.catalog.listings = s.db.catalog.listings := by
  cases moves_of_step h with
  | catalogued hx => exact ha _ rfl
  | _ => rfl

theorem listings_run : ∀ {as : List Settlement.Action} {s t : Sys}, Settlement.run svc s as = some t →
    (∀ new, .catalog new ∈ as → new.listings = s.db.catalog.listings) →
    t.db.catalog.listings = s.db.catalog.listings
  | [], s, t, h, _ => by
    obtain rfl := Option.some.inj h
    rfl
  | a :: as, s, t, h, hsame => by
    obtain ⟨u, hu, h⟩ := Runs.run_cons_eq_some.mp h
    have hstep : u.db.catalog.listings = s.db.catalog.listings :=
      listings_step hu fun new he => hsame new (he ▸ List.mem_cons_self)
    rw [← hstep]
    exact listings_run h fun new hmem => (hsame new (List.mem_cons_of_mem a hmem)).trans hstep.symm

end Unchanged

namespace Rated

open Settlement.Sample

def uuid : Uuid := ⟨Utf8.str "as_2", by decide⟩

/-- The listing of a second merchant, who asks less and pays more. -/
def rivalListing : ListingRow where
  listingID := Utf8.str "lst_2"
  productID := Utf8.str "prod_1"
  merchantID := Utf8.str "mer_2"
  priceCents := 11999
  currency := Utf8.str "USD"
  inStock := true
  commissionBps := 1500

def offered : Catalog where
  publishers := catalog.publishers
  merchants := [⟨Utf8.str "mer_1"⟩, ⟨Utf8.str "mer_2"⟩]
  products := catalog.products
  listings := [listingRow, rivalListing]
  searchRequests := catalog.searchRequests
  listings_ok := by decide
  listings_product := by decide
  listings_merchant := by decide
  searchRequests_ok := catalog.searchRequests_ok
  searchRequests_publisher := catalog.searchRequests_publisher

/-- A listing in the query of the documents. -/
def documentRow (listing : ListingRow) : Row :=
  ⟨⟨Utf8.str "prod_1", Utf8.str "Pack", Utf8.str "A pack", Utf8.str "Acme", Utf8.str "packs", .ok []⟩, listing,
    Utf8.str "Pack", Utf8.str "/pack"⟩

def rows : List Row := [documentRow listingRow, documentRow rivalListing]

def document : ProductDocument ℚ :=
  (((documentRow listingRow).document [] []).add (documentRow listingRow)).add (documentRow rivalListing)

/-- The search signs the rate of the second merchant. -/
def ratedArgs : MintArgs :=
  ⟨Utf8.str "as_2", Utf8.str "pub_1", Utf8.str "prod_1", Utf8.str "req_1", 1500, 0⟩

def ratedAssertion : Assertion :=
  { ratedArgs.assertion with
    signature := Utf8.encode (signaturePrefix ++ Base64.encodeStd (paddedScheme.sign () ratedArgs.payload)) }

theorem mint_rated : mint paddedScheme () ratedArgs = .ok ratedAssertion :=
  (mint_eq_ok_iff paddedScheme).mpr ⟨by decide, rfl⟩

theorem query_rows : DocumentQuery .bytewise offered rows := by
  have hrows : ∀ r ∈ rows, r = documentRow listingRow ∨ r = documentRow rivalListing := by
    intro r hr
    simpa only [rows, List.mem_cons, List.not_mem_nil, or_false] using hr
  refine ⟨.refl _, fun r hr => ?_, ?_⟩
  · rcases hrows r hr with rfl | rfl <;> rfl
  · refine List.pairwise_cons.mpr ⟨fun r hr => ?_, List.pairwise_singleton _ _⟩
    rw [List.mem_singleton.mp hr]
    exact List.le_refl _

theorem minted_rated : MintedFrom service () offered ratedAssertion := by
  have hmint : mintAssertions service.ed25519 () (Utf8.str "req_1") (Utf8.str "pub_1") 0
      ([uuid].zip ((search [document]).map Hit.toProduct)) = .ok [ratedAssertion] := by
    show mintAssertions paddedScheme () _ _ _ [(uuid, ⟨document.productID, document.maxCommissionBps⟩)] = _
    simp only [mintAssertions]
    rw [show mintArgs (Utf8.str "req_1") (Utf8.str "pub_1") 0
      (uuid, ⟨document.productID, document.maxCommissionBps⟩) = ratedArgs from rfl, mint_rated]
    rfl
  exact ⟨ℚ, .bytewise, rows, [], 1, [document], [document], [uuid], Utf8.str "req_1", Utf8.str "pub_1", 0,
    [ratedAssertion], query_rows, rfl, fun _ => id, hmint, List.mem_singleton_self _⟩

def ratedRequest : Settlement.Request := { request with assertion := ratedAssertion }

def ratedPending : PendingSettlement := ratedRequest.pending listingRow.listing settlementID

theorem rated_claimable :
    Claimable service (DB.empty offered) ratedRequest 0 listingRow.listing 0 verified settlementID := by
  have hverify : service.verify ratedRequest 0 = none := verify_minted mint_rated rfl
  exact ⟨hverify, lookupListing_of (by decide) (by decide), by decide, rfl,
    ⟨by decide, by decide, by decide, by decide, by decide, by decide, by decide⟩⟩

/-- The run that settles it with the first merchant. -/
def ratedActions : List Settlement.Action :=
  beginActions ratedRequest 0 0 verified settlementID 0 ++ payActions 0 true response 0

def ratedFinal : Sys :=
  ⟨((DB.empty offered).claim ratedPending).confirm ratedPending response.transaction 0,
    [⟨ratedRequest, 0, some (listingRow.listing, ratedPending), .returned (.ok (ratedPending.result response))⟩],
    [], [ratedRequest.exchange ratedPending true (.ok response)]⟩

theorem run_rated : Settlement.run service (Sys.init offered) ratedActions = some ratedFinal :=
  run_confirms (s := Sys.init offered) rated_claimable rfl (by decide)

end Rated

/-- Signed at the rate of the second merchant and settled at the first one's own. -/
theorem settles_own_rate_sample : ∃ r ∈ Rated.ratedFinal.db.settlements, ∃ call l t,
    SettledAgainst Settlement.Sample.service (Sys.init Rated.offered) Rated.ratedActions Rated.ratedFinal r call l t ∧
      r.commissionBps = l.commissionBps ∧ r.commissionBps = 1200 ∧ call.req.assertion.commissionBps = 1500 := by
  obtain ⟨call, l, t, hset, -, -, hown⟩ := settles_own_rate Settlement.Sample.service Rated.offered
    Rated.run_rated (List.mem_singleton_self (Rated.ratedPending.row.confirm Settlement.Sample.response.transaction 0))
  have hreq : call.req = Rated.ratedRequest := by
    obtain ⟨c, hget, -⟩ := hset.lookup
    rw [List.mem_singleton.mp (List.mem_of_getElem? hget)]
  have hminted : MintedFrom Settlement.Sample.service () Rated.offered call.req.assertion := by
    rw [hreq]
    exact Rated.minted_rated
  refine ⟨_, List.mem_singleton_self _, call, l, t, hset, hown () Rated.offered hminted ?_, by decide, ?_⟩
  · -- the run changes no listing
    obtain ⟨c, -, bs, pick, fate, cs, hsplit, hrun, -⟩ := hset.lookup
    refine listings_run hrun fun new hmem => ?_
    have hin : Settlement.Action.catalog new ∈ Rated.ratedActions := by
      rw [hsplit]
      exact List.mem_append_left _ hmem
    simp [Rated.ratedActions, beginActions, payActions] at hin
  · rw [hreq]
    rfl

end Search
