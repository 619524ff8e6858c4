import AgenticAttribution.Search.Handler
import AgenticAttribution.Settlement.Amount
import AgenticAttribution.Settlement.Integrity

/-!
# Search.Redeem — from an answer of search to a claim

Search and settlement over one database: a search answers and leaves its record to a goroutine, settlement steps as
before, and nothing orders the two (`step`).  As far as settlement can tell this is one of its own runs
(`sys_reachable`), with the records as changes of the reference data.

The foreign key of a settlement points at the record.  `begin_of_recorded` says that once the record is in, the
claim of an assertion from its answer goes through.
-/

namespace Search

open Attribution Settlement

structure World where
  sys : Sys
  /-- The answers with status 200. -/
  answers : List SearchResult
  /-- The goroutines that have yet to insert their records. -/
  records : List SearchRecord

def World.init (catalog : Catalog) : World := ⟨Sys.init catalog, [], []⟩

inductive Action where
  /-- A `POST /search`. -/
  | search (body : Option SearchPayload) (found : Except Err (List (Uuid × Product))) (uuid : Uuid) (now : ℤ)
  /-- The goroutine `i` inserts its record. -/
  | record (i : ℕ) (fate : Fate)
  | settle (a : Settlement.Action)

section Step

variable (svc : Service) (sk : svc.ed25519.PrivateKey)

/-- More assertions minted. -/
def mintedMore (s : Sys) (args : List MintArgs) : Sys := { s with minted := s.minted ++ args }

/-- The answer and the record of a search, if it answers 200. -/
def World.answered (w : World) : Except (ℕ × String) (SearchResult × SearchRecord) → World
  | .error _ => w
  | .ok (result, record) => { w with answers := w.answers ++ [result], records := w.records ++ [record] }

def step (w : World) : Action → Option World
  | .search body found uuid now =>
    some ({ w with sys := mintedMore w.sys (mintCalls body found uuid now) }.answered
      (handleSearch svc.ed25519 sk body found uuid now))
  | .record i fate => do
    let record ← w.records[i]?
    let catalog := recordSearch w.sys.db.catalog record fate
    some { w with sys := { w.sys with db := { w.sys.db with catalog } }, records := w.records.eraseIdx i }
  | .settle a => (Settlement.step svc w.sys a).map fun sys => { w with sys }

abbrev run (w : World) (as : List Action) : Option World := Runs.run (step svc sk) w as

end Step

/-! ## Settlement's view -/

section Reachable

variable {svc : Service} {sk : svc.ed25519.PrivateKey}

@[simp] theorem sys_answered (w : World) (r : Except (ℕ × String) (SearchResult × SearchRecord)) :
    (w.answered r).sys = w.sys := by
  unfold World.answered
  split <;> rfl

theorem run_mints (svc : Service) : ∀ (args : List MintArgs) (s : Sys), (∀ m ∈ args, m.inRange = true) →
    Settlement.run svc s (args.map .mint) = some (mintedMore s args)
  | [], s, _ => by
    rw [mintedMore, List.append_nil]
    rfl
  | m :: args, s, h => by
    have hstep : Settlement.step svc s (.mint m) = some { s with minted := s.minted ++ [m] } := by
      rw [Settlement.step, if_pos (h m List.mem_cons_self)]
    rw [List.map_cons, Settlement.run, Runs.run_cons_of hstep]
    refine (run_mints svc args _ fun m' hm' => h m' (List.mem_cons_of_mem m hm')).trans ?_
    rw [mintedMore, mintedMore, List.append_assoc, List.singleton_append]

theorem inRange_of_mem_mintCalls {body : Option SearchPayload} {found : Except Err (List (Uuid × Product))}
    {uuid : Uuid} {now : ℤ} : ∀ m ∈ mintCalls body found uuid now, m.inRange = true := by
  intro m hm
  unfold mintCalls at hm
  split at hm
  · split_ifs at hm
    · cases hm
    · exact List.all_eq_true.mp List.all_takeWhile m hm
  · cases hm

theorem step_settle (w : World) {a : Settlement.Action} {sys : Sys} (h : Settlement.step svc w.sys a = some sys) :
    step svc sk w (.settle a) = some { w with sys } := by
  rw [step, h, Option.map_some]

/-- What one step does to settlement. -/
theorem sys_step {w w' : World} {a : Action} (h : step svc sk w a = some w') :
    ∃ bs, Settlement.run svc w.sys bs = some w'.sys := by
  cases a with
  | search body found uuid now =>
    obtain rfl := Option.some.inj h
    rw [sys_answered]
    exact ⟨_, run_mints svc _ w.sys inRange_of_mem_mintCalls⟩
  | record i fate =>
    obtain ⟨r, hr, h⟩ := Option.bind_eq_some_iff.mp h
    obtain rfl := Option.some.inj h
    refine ⟨[.catalog (recordSearch w.sys.db.catalog r fate)], ?_⟩
    have hstep : Settlement.step svc w.sys (.catalog (recordSearch w.sys.db.catalog r fate))
        = some { w.sys with db := { w.sys.db with catalog := recordSearch w.sys.db.catalog r fate } } := by
      rw [Settlement.step, if_pos (extends_recordSearch w.sys.db.catalog r fate)]
    rw [Settlement.run, Runs.run_cons_of hstep]
    rfl
  | settle a =>
    obtain ⟨sys, hsys, rfl⟩ := Option.map_eq_some_iff.mp h
    exact ⟨[a], by rw [Settlement.run, Runs.run_cons_of hsys]; rfl⟩

/-- **Settlement sees one of its own runs.** -/
theorem sys_reachable {catalog : Catalog} {as : List Action} {w : World}
    (h : run svc sk (World.init catalog) as = some w) :
    ∃ bs, Settlement.run svc (Sys.init catalog) bs = some w.sys := by
  have hsim : ∀ (w : World) (a : Action) (w' : World) (s : Sys), w.sys = s → step svc sk w a = some w' →
      ∃ bs t, Settlement.run svc s bs = some t ∧ w'.sys = t := by
    rintro w a w' s rfl hs
    obtain ⟨bs, hbs⟩ := sys_step hs
    exact ⟨bs, w'.sys, hbs, rfl⟩
  obtain ⟨bs, t, ht, heq⟩ := Runs.run_simulates hsim rfl h
  exact ⟨bs, heq ▸ ht⟩

/-- Every assertion of an answer was handed out under its search. -/
theorem handed_run {catalog : Catalog} {as : List Action} {w : World}
    (h : run svc sk (World.init catalog) as = some w) :
    ∀ result ∈ w.answers, ∀ a ∈ result.assertions, Handed result a := by
  refine Runs.run_invariant (P := fun w : World => ∀ result ∈ w.answers, ∀ a ∈ result.assertions, Handed result a)
    ?_ (fun _ hr => by cases hr) h
  intro w a w' hw hs
  cases a with
  | search body found uuid now =>
    obtain rfl := Option.some.inj hs
    unfold World.answered
    split
    · exact hw
    · rename_i result record hres
      intro res hr
      rcases List.mem_append.mp hr with hr | hr
      · exact hw res hr
      · rw [List.mem_singleton.mp hr]
        exact handed_of_handleSearch hres
  | record i fate =>
    obtain ⟨r, -, hs⟩ := Option.bind_eq_some_iff.mp hs
    obtain rfl := Option.some.inj hs
    exact hw
  | settle a =>
    obtain ⟨sys, -, rfl⟩ := Option.map_eq_some_iff.mp hs
    exact hw

end Reachable

/-! ## The parties of a settlement -/

section Parties

variable {svc : Service} {s t : Sys} {a : Settlement.Action}

/-- The product and the merchant of a call that has a listing in hand are in the catalog. -/
def Sourced (s : Sys) : Prop :=
  ∀ call ∈ s.calls, call.pc.listing ≠ none →
    s.db.catalog.hasProduct call.req.assertion.productID = true ∧ s.db.catalog.hasMerchant call.req.merchantID = true

theorem hasProduct_of_extends {new old : Catalog} (h : new.extends old = true) {id : Bytes}
    (hid : old.hasProduct id = true) : new.hasProduct id = true := by
  simp only [Catalog.extends, Bool.and_eq_true, List.all_eq_true, decide_eq_true_eq] at h
  obtain ⟨q, hq, hid⟩ := List.mem_map.mp (of_decide_eq_true hid)
  exact decide_eq_true (List.mem_map.mpr ⟨q, h.1.2 q hq, hid⟩)

theorem hasMerchant_of_extends {new old : Catalog} (h : new.extends old = true) {id : Bytes}
    (hid : old.hasMerchant id = true) : new.hasMerchant id = true := by
  simp only [Catalog.extends, Bool.and_eq_true, List.all_eq_true, decide_eq_true_eq] at h
  obtain ⟨q, hq, hid⟩ := List.mem_map.mp (of_decide_eq_true hid)
  exact decide_eq_true (List.mem_map.mpr ⟨q, h.1.1.2 q hq, hid⟩)

theorem Found.parties {s : Sys} {req : Settlement.Request} {l : Listing} (h : Found s req l) :
    s.db.catalog.hasProduct req.assertion.productID = true ∧ s.db.catalog.hasMerchant req.merchantID = true := by
  obtain ⟨row, hrow, hp, hm, -⟩ := h.row
  rw [← hp, ← hm]
  exact ⟨decide_eq_true (s.db.catalog.listings_product row hrow),
    decide_eq_true (s.db.catalog.listings_merchant row hrow)⟩

theorem Sourced.put (h : Sourced s) {c : ℕ} {new : Call} (db : DB) (hcat : db.catalog = s.db.catalog)
    (hnew : new.pc.listing ≠ none → s.db.catalog.hasProduct new.req.assertion.productID = true ∧
      s.db.catalog.hasMerchant new.req.merchantID = true) : Sourced ({ s with db }.put c new) := by
  intro call hc hl
  show db.catalog.hasProduct _ = true ∧ db.catalog.hasMerchant _ = true
  rw [hcat]
  rcases mem_put hc with rfl | hc
  · exact hnew hl
  · exact h call hc hl

/-- A call without a listing in hand. -/
theorem Sourced.idle (h : Sourced s) {c : ℕ} {new : Call} (db : DB) (hcat : db.catalog = s.db.catalog)
    (hnew : new.pc.listing = none) : Sourced ({ s with db }.put c new) :=
  h.put db hcat fun hl => absurd hnew hl

theorem sourced_step (h : Sourced s) (hs : Settlement.step svc s a = some t) : Sourced t := by
  cases moves_of_step hs with
  | entered req now =>
    intro call hc hl
    rcases List.mem_append.mp hc with hc | hc
    · exact h call hc hl
    · rw [List.mem_singleton.mp hc] at hl
      refine absurd ?_ hl
      unfold Service.entered
      cases svc.verify req now <;> rfl
  | found hc hpc hl => exact h.put s.db rfl fun _ => Found.parties hl
  | @accepted c answer call listing hc hpc hv =>
    refine h.put s.db rfl fun _ => h call (List.mem_of_getElem? hc) ?_
    rw [hpc]
    exact Option.some_ne_none listing
  | begun r hc hpc hadm => exact h.idle (s.db.claim _) rfl (early_beginPc _ r).2
  | @paid c moved answer call p hc hpc =>
    have hx : Sourced { s with exchanges := s.exchanges ++ [call.req.exchange p moved answer] } := h
    exact hx.idle s.db rfl (listing_settlePc p answer)
  | confirmed r hc hpc hconf =>
    refine h.idle (s.db.confirm _ _ _) rfl ?_
    cases r <;> rfl
  | failed e hc hpc => exact h.idle (s.db.fail _) rfl rfl
  | journalled rows hc hpc => exact h.idle { s.db with rejected := rows } rfl rfl
  | minted hr => exact h
  | catalogued hx =>
    intro call hc hl
    obtain ⟨hp, hm⟩ := h call hc hl
    exact ⟨hasProduct_of_extends hx hp, hasMerchant_of_extends hx hm⟩
  | rejected rows => exact h
  | turnedDown e hc hpc => exact h.idle s.db rfl rfl
  | notBegun e hc hpc => exact h.idle s.db rfl rfl
  | notConfirmed e hc hpc => exact h.idle s.db rfl rfl
  | notFailed e hc hpc => exact h.idle s.db rfl rfl

theorem sourced_run {catalog : Catalog} {as : List Settlement.Action}
    (h : Settlement.run svc (Sys.init catalog) as = some s) : Sourced s :=
  Runs.run_invariant (fun _ _ _ hs hst => sourced_step hs hst) (fun _ hc => by cases hc) h

end Parties

/-! ## The claim of an assertion handed out -/

section Claim

variable {svc : Service} {s : Sys}

/-- The commission of a price and a rate in range satisfies the checks of the schema, if it does not overflow. -/
theorem checks_of_fits {p : PendingSettlement} (hgross : 0 < p.grossAmountCents)
    (hprice : p.grossAmountCents < 2 ^ 63) (hlo : 0 ≤ p.commissionBps) (hhi : p.commissionBps ≤ 10000)
    (hfits : p.grossAmountCents * p.commissionBps < 2 ^ 63)
    (hsplit : p.split = calculateCommission p.grossAmountCents p.commissionBps) : p.row.checks = true := by
  have hnonneg : 0 ≤ p.grossAmountCents * p.commissionBps := Int.mul_nonneg (le_of_lt hgross) hlo
  rw [calculateCommission_of_fits hnonneg hfits] at hsplit
  simp only [SettlementRow.checks, PendingSettlement.row, hsplit, Bool.and_eq_true, decide_eq_true_eq]
  generalize p.grossAmountCents * p.commissionBps = product at *
  omega

/-- An assertion that no call has begun to settle is unclaimed. -/
theorem unclaimed_of_first (hi : Inv s) (ht : Trace svc s) {id : Bytes}
    (hfirst : ∀ call ∈ s.calls, ∀ l p, call.begun = some (l, p) → p.assertionID ≠ id) :
    id ∉ s.db.consumed.map (·.assertionID) := by
  rw [hi.books.claims]
  intro hmem
  obtain ⟨r, hr, hid⟩ := List.mem_map.mp hmem
  obtain ⟨call, hc, l, p, hb, hterms⟩ := ht.rows r hr
  exact hfirst call hc l p hb ((assertionID_eq_of_terms (s := p.row) hterms).symm.trans hid)

theorem nullable_all {id : Bytes} {P : Bytes → Bool} (h : P id = true) : (nullable id).all P = true := by
  unfold nullable
  split_ifs
  · rfl
  · exact h

/-- A first attempt to settle an assertion of a recorded search, up to `Begin`. -/
structure Attempt (p : Facilitator.Platform) (s : Sys) (result : SearchResult) (a : Assertion) (call : Call)
    (listing : Listing) : Prop where
  mem : call ∈ s.calls
  reached : call.pc = .accepted listing
  presents : call.req.assertion = a
  first : ∀ other ∈ s.calls, ∀ l q, other.begun = some (l, q) → q.assertionID ≠ a.assertionID
  /-- The record of the search is in. -/
  recorded : ⟨result.searchRequestID, a.publisherID⟩ ∈ s.db.catalog.searchRequests
  priced : 0 < listing.priceCents
  fits : listing.priceCents * min a.commissionBps listing.commissionBps < 2 ^ 63
  /-- The facilitator accepts the payment. -/
  paid : ∃ now payer, Facilitator.verifyPayment p call.req.paymentPayload.toJson
    call.req.paymentRequirements.toJson now = some (.valid payer)

/-- The texts of a request that has been matched with a listing are the listing's. -/
theorem texts_of_listed {req : Settlement.Request} {listing : Listing} (h : Listed req listing) :
    textOk req.assertion.productID = true ∧ textOk req.merchantID = true ∧ textOk req.currency = true := by
  obtain ⟨row, hok, hprod, hmer, hrow⟩ := h.row
  simp only [ListingRow.ok, Bool.and_eq_true] at hok
  obtain ⟨⟨⟨⟨⟨⟨⟨-, hprodt⟩, hmert⟩, hcurt⟩, -⟩, -⟩, -⟩, -⟩ := hok
  refine ⟨hprod ▸ hprodt, hmer ▸ hmert, ?_⟩
  rw [← h.currency, ← hrow]
  exact hcurt

/-- A listing's price and rate are in the range of their columns. -/
theorem bounds_of_listed {req : Settlement.Request} {listing : Listing} (h : Listed req listing) :
    listing.priceCents < 2 ^ 63 ∧ 0 ≤ listing.commissionBps := by
  obtain ⟨row, hok, -, -, rfl⟩ := h.row
  simp only [ListingRow.ok, Bool.and_eq_true, decide_eq_true_eq] at hok
  exact ⟨hok.1.1.2, hok.1.2⟩

section Attempt

variable {p : Facilitator.Platform} {result : SearchResult} {a : Assertion} {call : Call} {listing : Listing}

/-- The pending row of a first attempt satisfies the checks of the schema. -/
theorem checks_of_attempt (hh : Handed result a) (h : Attempt p s result a call listing)
    (hl : Listed call.req listing) (newID : Bytes) : (call.req.pending listing newID).row.checks = true := by
  have hgross : (call.req.pending listing newID).grossAmountCents = listing.priceCents := hl.price.symm
  have hbps : (call.req.pending listing newID).commissionBps = min a.commissionBps listing.commissionBps := by
    show effectiveCommissionBps call.req.assertion.commissionBps listing.commissionBps = _
    rw [effectiveCommissionBps_eq_min, h.presents]
  obtain ⟨hprice, hrate⟩ := bounds_of_listed hl
  refine checks_of_fits ?_ ?_ ?_ ?_ ?_ rfl
  · rw [hgross]
    exact h.priced
  · rw [hgross]
    exact hprice
  · rw [hbps]
    exact le_min hh.lo hrate
  · rw [hbps]
    exact (min_le_left _ _).trans hh.hi
  · rw [hgross, hbps]
    exact h.fits

/-- The texts of the pending row are the assertion's, the listing's and the facilitator's. -/
theorem texts_of_attempt (hh : Handed result a) (h : Attempt p s result a call listing)
    (hl : Listed call.req listing) {newID : Bytes} (hid : textOk newID = true) :
    (call.req.pending listing newID).row.textsOk = true := by
  obtain ⟨hsearch, hpublisher⟩ := s.db.catalog.searchRequests_ok _ h.recorded
  obtain ⟨hproduct, hmerchant, hcurrency⟩ := texts_of_listed hl
  have hnetwork : textOk call.req.paymentRequirements.network = true := by
    obtain ⟨now, payer, hpaid⟩ := h.paid
    rw [network_of_accepted hpaid]
    decide
  have hnullable : (nullable a.searchRequestID).all textOk = true := nullable_all (hh.search ▸ hsearch)
  show (textOk newID && textOk call.req.assertion.assertionID &&
    (nullable call.req.assertion.searchRequestID).all textOk && textOk call.req.assertion.publisherID &&
    textOk call.req.merchantID && textOk call.req.assertion.productID && textOk call.req.currency &&
    textOk call.req.paymentRequirements.network) = true
  rw [hid, hproduct, hmerchant, hcurrency, hnetwork, h.presents, hh.text, hnullable, hpublisher]
  rfl

/-- What the pending row refers to is there: its own claim, the recorded search, and the listing's parties. -/
theorem references_of_attempt (hh : Handed result a) (h : Attempt p s result a call listing)
    (hpublisher : s.db.catalog.hasPublisher a.publisherID = true)
    (hproduct : s.db.catalog.hasProduct call.req.assertion.productID = true)
    (hmerchant : s.db.catalog.hasMerchant call.req.merchantID = true) (newID : Bytes) :
    { s.db with consumed := s.db.consumed ++ [(call.req.pending listing newID).claim] }.references
      (call.req.pending listing newID).row = true := by
  have hsearch : s.db.catalog.hasSearchRequest a.searchRequestID = true :=
    decide_eq_true (List.mem_map.mpr ⟨_, h.recorded, hh.search.symm⟩)
  have hnullable : (nullable a.searchRequestID).all s.db.catalog.hasSearchRequest = true := nullable_all hsearch
  have hclaimed : call.req.assertion.assertionID
      ∈ (s.db.consumed ++ [(call.req.pending listing newID).claim]).map (·.assertionID) :=
    List.mem_map.mpr ⟨_, List.mem_append_right _ List.mem_cons_self, rfl⟩
  show (decide (call.req.assertion.assertionID
      ∈ (s.db.consumed ++ [(call.req.pending listing newID).claim]).map (·.assertionID)) &&
    (nullable call.req.assertion.searchRequestID).all s.db.catalog.hasSearchRequest &&
    s.db.catalog.hasPublisher call.req.assertion.publisherID && s.db.catalog.hasMerchant call.req.merchantID &&
    s.db.catalog.hasProduct call.req.assertion.productID) = true
  rw [decide_eq_true hclaimed, hproduct, hmerchant, h.presents, hnullable, hpublisher]
  rfl

/-- **The claim of a recorded assertion goes through.** -/
theorem admits_of_attempt (hi : Inv s) (ht : Trace svc s) (hs : Sourced s) (hh : Handed result a)
    (h : Attempt p s result a call listing) {newID : Bytes} (hid : textOk newID = true)
    (hfresh : newID ∉ s.db.settlements.map (·.settlementID)) : s.db.Admits (call.req.pending listing newID) := by
  have hlisting : call.pc.listing = some listing := by rw [h.reached]; rfl
  have hl : Listed call.req listing := (ht.calls call h.mem).listed listing hlisting
  obtain ⟨hproduct, hmerchant⟩ := hs call h.mem (by rw [hlisting]; exact Option.some_ne_none listing)
  have hpublisher : s.db.catalog.hasPublisher a.publisherID = true :=
    decide_eq_true (s.db.catalog.searchRequests_publisher _ h.recorded)
  have htext := (s.db.catalog.searchRequests_ok _ h.recorded).2
  refine ⟨?_, ?_, ?_, texts_of_attempt hh h hl hid, checks_of_attempt hh h hl newID, hfresh,
    references_of_attempt hh h hpublisher hproduct hmerchant newID⟩
  · show (textOk call.req.assertion.assertionID && textOk call.req.assertion.publisherID &&
      textOk call.req.assertion.productID) = true
    rw [(texts_of_listed hl).1, h.presents, hh.text, htext]
    rfl
  · show call.req.assertion.assertionID ∉ _
    rw [h.presents]
    exact unclaimed_of_first hi ht h.first
  · show (s.db.catalog.hasPublisher call.req.assertion.publisherID &&
      s.db.catalog.hasProduct call.req.assertion.productID) = true
    rw [hproduct, h.presents, hpublisher]
    rfl

end Attempt

end Claim

/-- **Once its search is recorded, an assertion is redeemable**: in every state of every interleaving of search and
settlement, `Begin` does not refuse a first attempt. -/
theorem begin_of_recorded (svc : Service) (sk : svc.ed25519.PrivateKey) (catalog : Catalog)
    (p : Facilitator.Platform) {as : List Action} {w : World} (h : run svc sk (World.init catalog) as = some w)
    {result : SearchResult} (hr : result ∈ w.answers) {a : Assertion} (ha : a ∈ result.assertions) {call : Call}
    {listing : Listing} (hattempt : Attempt p w.sys result a call listing) (newID : Uuid)
    (hfresh : newID.text ∉ w.sys.db.settlements.map (·.settlementID)) :
    Store.begin svc.driver w.sys.db (call.req.pending listing newID.text) .done
      = (w.sys.db.claim (call.req.pending listing newID.text), none) := by
  obtain ⟨bs, hbs⟩ := sys_reachable h
  exact Store.begin_of_admits svc.driver (admits_of_attempt (inv_reachable hbs) (trace_run hbs) (sourced_run hbs)
    (handed_run h result hr a ha) hattempt newID.ok hfresh)

/-! ## A sample search -/

namespace Sample

open Settlement.Sample

/-- The sample catalog before any search. -/
def unsearched : Catalog :=
  { catalog with
    searchRequests := []
    searchRequests_ok := Catalog.empty.searchRequests_ok
    searchRequests_publisher := by simp }

def found : List (Uuid × Product) := [(⟨Utf8.str "as_1", by decide⟩, ⟨Utf8.str "prod_1", 1500⟩)]

def result : SearchResult := ⟨Utf8.str "req_1", [⟨Utf8.str "prod_1", 1500⟩], [assertion]⟩

def record : SearchRecord := ⟨Utf8.str "req_1", Utf8.str "pub_1", Utf8.str "boots"⟩

def uuid : Uuid := ⟨Utf8.str "1", by decide⟩

theorem handleSearch_found :
    handleSearch paddedScheme () (some ⟨Utf8.str "boots", Utf8.str "pub_1"⟩) (.ok found) uuid 0
      = .ok (result, record) := by
  have hid : searchRequestID uuid = Utf8.str "req_1" := by decide
  have hargs : mintArgs (Utf8.str "req_1") (Utf8.str "pub_1") 0
      (⟨Utf8.str "as_1", by decide⟩, ⟨Utf8.str "prod_1", 1500⟩) = Settlement.Sample.mintArgs := rfl
  have hassertions : mintAssertions paddedScheme () (Utf8.str "req_1") (Utf8.str "pub_1") 0 found
      = .ok [assertion] := by
    simp only [found, mintAssertions, hargs, mint_eq]
    rfl
  have hquery : Utf8.str "boots" ≠ [] := by decide
  have hpublisher : Utf8.str "pub_1" ≠ [] := by decide
  simp only [handleSearch, if_neg hquery, if_neg hpublisher, hid, hassertions]
  rfl

def request : Settlement.Request := paying "129990000".toList

/-- A search is answered, and its assertion comes back before anything else happens. -/
def actions : List Action :=
  [.search (some ⟨Utf8.str "boots", Utf8.str "pub_1"⟩) (.ok found) uuid 0, .settle (.enter request 0),
    .settle (.lookup 0 0 .done), .settle (.verifyPayment 0 (.ok verified))]

def call : Call := ⟨request, 0, none, .accepted listingRow.listing⟩

/-- Settlement at `Begin`, the search unrecorded. -/
def ahead : World :=
  ⟨⟨DB.empty unsearched, [call], mintCalls (some ⟨Utf8.str "boots", Utf8.str "pub_1"⟩) (.ok found) uuid 0, []⟩,
    [result], [record]⟩

theorem run_ahead : run service () (World.init unsearched) actions = some ahead := by
  set s : Sys := ⟨DB.empty unsearched, [], mintCalls (some ⟨Utf8.str "boots", Utf8.str "pub_1"⟩) (.ok found) uuid 0,
    []⟩ with hs
  have hsearch : step service () (World.init unsearched)
      (.search (some ⟨Utf8.str "boots", Utf8.str "pub_1"⟩) (.ok found) uuid 0) = some ⟨s, [result], [record]⟩ := by
    have hanswer : handleSearch service.ed25519 () (some ⟨Utf8.str "boots", Utf8.str "pub_1"⟩) (.ok found) uuid 0
        = .ok (result, record) := handleSearch_found
    simp only [step, hanswer, World.answered]
    rfl
  have hverify : service.verify request 0 = none := (claimable_paying _).verifies
  have hlookup : Store.lookupListing service.driver s.db request.assertion.productID request.merchantID 0 .done
      = .ok listingRow.listing := lookupListing_of (by decide) (by decide)
  have hcheck : request.checkListing listingRow.listing = none := (claimable_paying _).matching
  have hvalid : checkVerified (.ok verified) = none := rfl
  unfold run actions
  refine (Runs.run_cons_of hsearch _).trans ?_
  refine (Runs.run_cons_of (step_settle ⟨s, [result], [record]⟩ (step_enter hverify)) _).trans ?_
  refine (Runs.run_cons_of (step_settle ⟨s.push ⟨request, 0, none, .verified⟩, [result], [record]⟩
    (step_found rfl hlookup hcheck)) _).trans ?_
  refine (Runs.run_cons_of (step_settle ⟨s.push ⟨request, 0, none, .checked listingRow.listing⟩, [result], [record]⟩
    (step_accepted rfl hvalid)) _).trans ?_
  rfl

/-- The same, behind the record. -/
def recorded : World :=
  { ahead with
    sys := { ahead.sys with db := { ahead.sys.db with catalog := recordSearch unsearched record .done } }
    records := [] }

theorem run_recorded : run service () (World.init unsearched) (actions ++ [.record 0 .done]) = some recorded :=
  Runs.run_append_eq_some.mpr ⟨ahead, run_ahead, rfl⟩

theorem first_call {w : World} (h : w.sys.calls = [call]) {id : Bytes} :
    ∀ other ∈ w.sys.calls, ∀ l q, other.begun = some (l, q) → q.assertionID ≠ id := by
  intro other ho l q hb
  rw [h] at ho
  rw [List.mem_singleton.mp ho] at hb
  cases hb

theorem attempt : Attempt Facilitator.plainPlatform recorded.sys result assertion call listingRow.listing :=
  ⟨List.mem_cons_self, rfl, rfl, first_call rfl, by decide, by decide, by decide, 5, accepted_paying pays_full⟩

end Sample

theorem begin_of_recorded_sample :
    Store.begin Settlement.Sample.service.driver Sample.recorded.sys.db
        (Sample.request.pending Settlement.Sample.listingRow.listing (Utf8.str "set_1")) .done
      = (Sample.recorded.sys.db.claim
          (Sample.request.pending Settlement.Sample.listingRow.listing (Utf8.str "set_1")), none) :=
  begin_of_recorded Settlement.Sample.service () Sample.unsearched Facilitator.plainPlatform Sample.run_recorded
    List.mem_cons_self List.mem_cons_self Sample.attempt ⟨Utf8.str "set_1", by decide⟩ (by decide)

/-- An attempt that comes back before the record of its search is refused. -/
theorem unrecorded_refused : ∃ w, run Settlement.Sample.service () (World.init Sample.unsearched) Sample.actions
      = some w ∧
    ∃ result ∈ w.answers, ∃ a ∈ result.assertions, ∃ call ∈ w.sys.calls, ∃ listing,
      call.pc = .accepted listing ∧ call.req.assertion = a ∧
      (∀ other ∈ w.sys.calls, ∀ l q, other.begun = some (l, q) → q.assertionID ≠ a.assertionID) ∧
      0 < listing.priceCents ∧
      (∃ now payer, Facilitator.verifyPayment Facilitator.plainPlatform call.req.paymentPayload.toJson
        call.req.paymentRequirements.toJson now = some (.valid payer)) ∧
      (Store.begin Settlement.Sample.service.driver w.sys.db (call.req.pending listing (Utf8.str "set_1")) .done).2
        ≠ none := by
  refine ⟨Sample.ahead, Sample.run_ahead, Sample.result, List.mem_cons_self, Settlement.Sample.assertion,
    List.mem_cons_self, Sample.call, List.mem_cons_self, Settlement.Sample.listingRow.listing, rfl, rfl,
    Sample.first_call rfl, by decide, ⟨5, Settlement.Sample.accepted_paying Settlement.Sample.pays_full⟩, ?_⟩
  intro hnone
  have hsome : (Store.begin Settlement.Sample.service.driver Sample.ahead.sys.db
      (Sample.call.req.pending Settlement.Sample.listingRow.listing (Utf8.str "set_1")) .done).2.isSome = true := by
    decide
  rw [hnone] at hsome
  cases hsome

end Search
