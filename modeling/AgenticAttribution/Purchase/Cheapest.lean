import AgenticAttribution.Merchant.Catalog
import AgenticAttribution.Search.Service
import AgenticAttribution.Settlement.Progress
import AgenticAttribution.Simulator.Agent

/-!
# Purchase.Cheapest — three selections of the cheapest offer

The search service sorts the offers of a product, the agent takes the cheapest offer of a response, and the merchant
asks its database for the cheapest listing of the product.  Over an index built from the listings, the three agree on
the price (`selections_agree`).  The prices of the agent and of the merchant are JavaScript numbers; as rounding keeps
the order, they are the rounded prices of the same listings.
-/

namespace Purchase

open Attribution Types Settlement Ingest Search Simulator Digits

/-- An offer as the agent decodes it. -/
def offerOf (o : Search.Offer) : Simulator.MerchantOffer where
  listing_id := Merchant.textOf o.listingID
  merchant_id := Merchant.textOf o.merchantID
  price_cents := Double.round o.priceCents
  in_stock := o.inStock
  commission_bps := Double.round o.commissionBps

/-- A product as the agent decodes it. -/
def resultOf (hit : Hit) : ProductResult where
  product_id := Merchant.textOf hit.productID
  canonical_title := Merchant.textOf hit.canonicalTitle
  offers := hit.offers.map offerOf

/-! ## The offers of a product -/

section Offers

variable {F : Type} {collation : Collation} {catalog : Catalog} {rows : List Row} {indexedAt : Bytes} {n : ℕ}
  {index : List (ProductDocument F)} {d : ProductDocument F}

/-- The identifier of an indexed product is a text. -/
theorem encode_productID (hquery : DocumentQuery collation catalog rows)
    (hindex : indexed indexedAt rows = .ok (n, index)) (hd : d ∈ index) :
    Utf8.encode (Merchant.textOf d.productID) = d.productID := by
  obtain ⟨-, hassembled, -⟩ := assembled hquery.ordered (assemble_of_indexed hindex)
  obtain ⟨first, rest, -, hrs, -, -⟩ := hassembled d hd
  have hmem : first ∈ rowsOf rows d.productID := hrs ▸ List.mem_cons_self
  obtain ⟨hrow, hid⟩ := List.mem_filter.mp hmem
  have hlisting : first.listing ∈ catalog.listings :=
    hquery.listings.mem_iff.mp (List.mem_map_of_mem hrow)
  have hok := catalog.listings_ok _ hlisting
  simp only [ListingRow.ok, textOk, Bool.and_eq_true] at hok
  refine Merchant.encode_textOf ?_
  rw [← of_decide_eq_true hid, hquery.joined first hrow]
  exact hok.1.1.1.1.1.1.2.1

/-- **The offers of a document are the listings of its product.** -/
theorem mem_offers_iff (hquery : DocumentQuery collation catalog rows)
    (hindex : indexed indexedAt rows = .ok (n, index)) (hd : d ∈ index) (price : ℤ) (stock : Bool) :
    (∃ o ∈ (hitOf d).offers, o.priceCents = price ∧ o.inStock = stock) ↔
      ∃ l ∈ Merchant.selected catalog.listings [] (Merchant.textOf d.productID),
        l.priceCents = price ∧ l.inStock = stock := by
  obtain ⟨-, hassembled, -⟩ := assembled hquery.ordered (assemble_of_indexed hindex)
  have hoffers : d.offers = (rowsOf rows d.productID).map Row.offer := offers_of_assembled (hassembled d hd)
  have hmem : ∀ o, o ∈ (hitOf d).offers ↔ ∃ r ∈ rowsOf rows d.productID, Offer.ofSource r.offer = o := by
    intro o
    show o ∈ sortOffers (d.offers.map Offer.ofSource) ↔ _
    rw [(perm_sortOffers _).mem_iff, hoffers, List.map_map, List.mem_map]
    rfl
  have hselected : ∀ l, l ∈ Merchant.selected catalog.listings [] (Merchant.textOf d.productID) ↔
      l ∈ catalog.listings ∧ l.productID = d.productID := by
    intro l
    rw [Merchant.selected, List.mem_filter, encode_productID hquery hindex hd]
    simp
  constructor
  · rintro ⟨o, ho, hp, hs⟩
    obtain ⟨r, hr, rfl⟩ := (hmem o).mp ho
    obtain ⟨hrow, hid⟩ := List.mem_filter.mp hr
    refine ⟨r.listing, (hselected _).mpr ⟨hquery.listings.mem_iff.mp (List.mem_map_of_mem hrow), ?_⟩, hp, hs⟩
    rw [← hquery.joined r hrow]
    exact of_decide_eq_true hid
  · rintro ⟨l, hl, hp, hs⟩
    obtain ⟨hlisted, hid⟩ := (hselected l).mp hl
    obtain ⟨r, hrow, rfl⟩ := List.mem_map.mp (hquery.listings.mem_iff.mpr hlisted)
    refine ⟨Offer.ofSource r.offer, (hmem _).mpr ⟨r, List.mem_filter.mpr ⟨hrow, decide_eq_true ?_⟩, rfl⟩, hp, hs⟩
    exact (hquery.joined r hrow).trans hid

end Offers

/-! ## The challenge -/

section Challenge

open Merchant

/-- **A challenge asks for the price of the listing that was found.** -/
theorem challenge_of_checkPurchase {E : Ed25519} {config : MerchantConfig} {key : E.PublicKey} {rt : Runtime}
    {find : Json → Except (List Char) (Option Merchant.Listing)} {body product : Json} {header : List Char} {nowMs : ℤ}
    {listing : Merchant.Listing} {r : Response} (hproduct : body.prop "product_id" = some product)
    (hfind : find product = .ok (some listing)) (hprice : 0 ≤ listing.priceCents)
    (h : checkPurchase config key rt find body [] header nowMs = .answers r) (hstatus : r.status = 402) :
    r = challenge (requirementsFor config listing (intChars (listing.priceCents * ATOMIC_UNITS_PER_CENT))) := by
  unfold checkPurchase at h
  simp only [hproduct, hfind] at h
  split_ifs at h with htruthy hstock
  · obtain rfl := Admission.answers.inj h
    cases hstatus
  · obtain rfl := Admission.answers.inj h
    cases hstatus
  · have hunits : centsToAtomicUnits listing.priceCents
        = .ok (intChars (listing.priceCents * ATOMIC_UNITS_PER_CENT)) := by
      rw [centsToAtomicUnits, if_neg (by omega)]
    unfold checkListing at h
    simp only [hunits, if_true] at h
    exact (Admission.answers.inj h).symm

end Challenge

/-! ## The selections -/

section Selections

variable {F : Type} {collation : Collation} {catalog : Catalog} {rows : List Row} {indexedAt : Bytes} {n : ℕ}
  {index sources : List (ProductDocument F)} {response : SearchResponse} {s : Selection}

/-- The search service and the merchant select at the price of the agent's selection, and the merchant's challenge
demands it. -/
structure SelectedAlike (titles : ListingRow → List Char) (catalog : Catalog) (response : SearchResponse)
    (s : Selection) : Prop where
  bought : s ∈ response.candidates
  cheapest : ∀ product ∈ response.products, response.byProduct product.product_id ≠ none →
    ∀ offer ∈ product.offers, offer.in_stock = true → s.offer.price_cents ≤ offer.price_cents
  first : ∃ offer rest, s.product.offers = offer :: rest ∧ offer.in_stock = true ∧
    offer.price_cents = s.offer.price_cents
  found : ∀ pick, ∃ listing, Merchant.findListing titles catalog.listings [] s.product.product_id pick = some listing ∧
    listing.inStock = true ∧ listing.priceCents = s.offer.price_cents
  demanded : ∀ (E : Ed25519) (config : Merchant.MerchantConfig) (key : E.PublicKey) (rt : Runtime) (pick : ℕ)
    (find : Json → Except (List Char) (Option Merchant.Listing)) (body : Json) (header : List Char) (nowMs : ℤ)
    (r : Response),
    (∀ id, find (.str id) = .ok (Merchant.findListing titles catalog.listings [] id pick)) →
    body.prop "product_id" = some (.str s.product.product_id) →
    Merchant.checkPurchase config key rt find body [] header nowMs = .answers r → r.status = 402 →
    ∃ listing, r = Merchant.challenge (Merchant.requirementsFor config listing
      (intChars (s.offer.price_cents * Merchant.ATOMIC_UNITS_PER_CENT)))

/-- Another offer in stock of the selected product can be selected as well. -/
theorem candidate_of_offer (hs : s ∈ response.candidates) {offer : Simulator.MerchantOffer}
    (hoffer : offer ∈ s.product.offers) (hstock : offer.in_stock = true) :
    ({ s with offer } : Selection) ∈ response.candidates := by
  obtain ⟨hproduct, hby, -, -⟩ := mem_candidates.mp hs
  exact mem_candidates.mpr ⟨hproduct, hby, hoffer, hstock⟩

/-- A selection is at the price of an offer in stock of a document, of which none is cheaper. -/
structure Behind (d : ProductDocument F) (o : Search.Offer) (s : Selection) : Prop where
  product : s.product = resultOf (hitOf d)
  mem : o ∈ (hitOf d).offers
  price : s.offer.price_cents = Double.round o.priceCents
  stock : o.inStock = true
  least : ∀ o' ∈ (hitOf d).offers, o'.inStock = true → s.offer.price_cents ≤ Double.round o'.priceCents

/-- The document and the offer that were selected. -/
theorem exists_behind (hresponse : response.products = (search sources).map resultOf)
    (hs : selectCheapestInStock response = some s) : ∃ d ∈ sources, ∃ o, Behind d o s := by
  obtain ⟨hmem, hleast⟩ := selected hs
  obtain ⟨hproduct, hby, hoffer, hstock⟩ := mem_candidates.mp hmem
  rw [hresponse, search, List.map_map] at hproduct
  obtain ⟨d, hd, hresult⟩ := List.mem_map.mp hproduct
  have hoffers : s.product.offers = (hitOf d).offers.map offerOf := by rw [← hresult]; rfl
  obtain ⟨o, ho, hoffered⟩ := List.mem_map.mp (hoffers ▸ hoffer)
  refine ⟨d, hd, o, hresult.symm, ho, ?_, ?_, fun o' ho' hs' => ?_⟩
  · rw [← hoffered]
    rfl
  · rw [← hoffered] at hstock
    exact hstock
  · have hin : offerOf o' ∈ s.product.offers := by
      rw [hoffers]
      exact List.mem_map_of_mem ho'
    exact hleast _ (candidate_of_offer hmem hin hs')

section Behind

variable {d : ProductDocument F} {o : Search.Offer}

/-- Every lookup of the merchant finds a listing in stock at the price of the selection. -/
theorem Behind.found (h : Behind d o s) (titles : ListingRow → List Char)
    (hquery : DocumentQuery collation catalog rows) (hindex : indexed indexedAt rows = .ok (n, index)) (hd : d ∈ index)
    (pick : ℕ) :
    ∃ listing, Merchant.findListing titles catalog.listings [] s.product.product_id pick = some listing ∧
      listing.inStock = true ∧ listing.priceCents = s.offer.price_cents := by
  have hlisted := mem_offers_iff hquery hindex hd
  have hid : s.product.product_id = Merchant.textOf d.productID := by rw [h.product]; rfl
  obtain ⟨l, hl, hlp, hls⟩ := (hlisted o.priceCents true).mp ⟨o, h.mem, rfl, h.stock⟩
  obtain ⟨row, hrow, hrs, hcheapest, hfind⟩ := Merchant.findListing_of_stock titles pick hl hls
  obtain ⟨o', ho', hop', hos'⟩ := (hlisted row.priceCents true).mpr ⟨row, hrow, rfl, hrs⟩
  refine ⟨_, hid ▸ hfind, rfl, le_antisymm ?_ ?_⟩
  · rw [h.price]
    exact Double.round_mono (hlp ▸ hcheapest l hl hls)
  · rw [← hop']
    exact h.least o' ho' hos'

/-- The first offer after the search service's sort is in stock, and at that price. -/
theorem Behind.first (h : Behind d o s) : ∃ offer rest, s.product.offers = offer :: rest ∧ offer.in_stock = true ∧
    offer.price_cents = s.offer.price_cents := by
  have hmem := h.mem
  cases hsorted : (hitOf d).offers with
  | nil =>
    rw [hsorted] at hmem
    cases hmem
  | cons head rest =>
    have hunsorted : o ∈ (Hit.ofSource d).offers := (perm_sortOffers _).mem_iff.mp hmem
    obtain ⟨hheadStock, hheadPrice⟩ := cheapest_of_head hsorted hunsorted h.stock
    refine ⟨offerOf head, rest.map offerOf, ?_, hheadStock, le_antisymm ?_ ?_⟩
    · rw [h.product]
      show (hitOf d).offers.map offerOf = _
      rw [hsorted]
      rfl
    · rw [h.price]
      exact Double.round_mono hheadPrice
    · exact h.least head (hsorted ▸ List.mem_cons_self) hheadStock

/-- The price of a selection is that of a listing, so it is not negative. -/
theorem Behind.nonneg (h : Behind d o s) (hquery : DocumentQuery collation catalog rows)
    (hindex : indexed indexedAt rows = .ok (n, index)) (hd : d ∈ index) : 0 ≤ s.offer.price_cents := by
  obtain ⟨l, hl, hlp, -⟩ := (mem_offers_iff hquery hindex hd o.priceCents true).mp ⟨o, h.mem, rfl, h.stock⟩
  have hok := catalog.listings_ok l (List.mem_of_mem_filter hl)
  simp only [ListingRow.ok, Bool.and_eq_true, decide_eq_true_eq] at hok
  rw [h.price, ← hlp]
  exact Double.round_nonneg hok.1.1.1.2

end Behind

/-- **The three selections agree**, over an index that was built from the listings. -/
theorem selections_agree (titles : ListingRow → List Char) (hquery : DocumentQuery collation catalog rows)
    (hindex : indexed indexedAt rows = .ok (n, index)) (hsources : ∀ d ∈ sources, d ∈ index)
    (hresponse : response.products = (search sources).map resultOf) :
    (∀ s, selectCheapestInStock response = some s → SelectedAlike titles catalog response s) ∧
      (selectCheapestInStock response = none → ∀ product ∈ response.products,
        response.byProduct product.product_id ≠ none → ∀ offer ∈ product.offers, offer.in_stock = false) := by
  refine ⟨fun s hs => ?_, fun hnone product hproduct hby offer hoffer => ?_⟩
  · obtain ⟨hmem, hleast⟩ := selected hs
    obtain ⟨d, hd, o, hbehind⟩ := exists_behind hresponse hs
    have hfound := hbehind.found titles hquery hindex (hsources d hd)
    refine ⟨hmem, ?_, hbehind.first, hfound, ?_⟩
    · intro product hproduct hby offer hoffer hstock
      obtain ⟨assertion, hassertion⟩ := Option.ne_none_iff_exists'.mp hby
      exact hleast ⟨product, offer, assertion⟩ (mem_candidates.mpr ⟨hproduct, hassertion, hoffer, hstock⟩)
    · intro E config key rt pick find body header nowMs r hfind hbody hr hstatus
      obtain ⟨listing, hlisting, -, hprice⟩ := hfound pick
      have hnonneg : 0 ≤ listing.priceCents := hprice ▸ hbehind.nonneg hquery hindex (hsources d hd)
      refine ⟨listing, ?_⟩
      rw [← hprice]
      exact challenge_of_checkPurchase hbody ((hfind _).trans (congrArg Except.ok hlisting)) hnonneg hr hstatus
  · obtain ⟨assertion, hassertion⟩ := Option.ne_none_iff_exists'.mp hby
    have hempty := candidates_of_none hnone
    cases hstock : offer.in_stock with
    | false => rfl
    | true =>
      have hin : (⟨product, offer, assertion⟩ : Selection) ∈ response.candidates :=
        mem_candidates.mpr ⟨hproduct, hassertion, hoffer, hstock⟩
      rw [hempty] at hin
      cases hin

end Selections

/-! ## A sample -/

namespace Cheapest

open Settlement.Sample

/-- A cheaper listing that is not in stock. -/
def soldOut : ListingRow := { listingRow with listingID := Utf8.str "lst_2", priceCents := 9999, inStock := false }

def catalog : Catalog where
  publishers := []
  merchants := Settlement.Sample.catalog.merchants
  products := Settlement.Sample.catalog.products
  listings := [listingRow, soldOut]
  searchRequests := []
  listings_ok := by decide
  listings_product := by decide
  listings_merchant := by decide
  searchRequests_ok := Catalog.empty.searchRequests_ok
  searchRequests_publisher := Catalog.empty.searchRequests_publisher

def product : ProductRow :=
  ⟨Utf8.str "prod_1", Utf8.str "Pack", Utf8.str "A pack", Utf8.str "Acme", Utf8.str "packs", .ok []⟩

def soldOutRow : Row := ⟨product, soldOut, Utf8.str "Pack", Utf8.str "/2"⟩

def inStockRow : Row := ⟨product, listingRow, Utf8.str "Pack", Utf8.str "/1"⟩

def document : ProductDocument ℚ := ((soldOutRow.document [] []).add soldOutRow).add inStockRow

theorem query : DocumentQuery .bytewise catalog [soldOutRow, inStockRow] where
  listings := List.Perm.swap _ _ _
  joined := by
    intro r hr
    simp only [List.mem_cons, List.not_mem_nil, or_false] at hr
    rcases hr with rfl | rfl <;> rfl
  ordered := by
    refine List.pairwise_cons.mpr ⟨fun r hr => ?_, List.pairwise_singleton _ _⟩
    rw [List.mem_singleton.mp hr]
    exact List.le_refl _

def response : SearchResponse where
  search_request_id := "req_1".toList
  products := (search [document]).map resultOf
  assertions := [.ofJson (Json.ofProps [("product_id", some (.str "prod_1".toList))])]

/-- The offer in stock is among those that the agent sees. -/
theorem mem_offers : offerOf (.ofSource inStockRow.offer) ∈ (resultOf (hitOf document)).offers := by
  refine List.mem_map_of_mem ((perm_sortOffers _).mem_iff.mpr ?_)
  exact List.mem_cons_of_mem _ List.mem_cons_self

theorem byProduct : response.byProduct (resultOf (hitOf document)).product_id ≠ none := by
  decide +kernel

end Cheapest

theorem selections_agree_sample : ∃ s, selectCheapestInStock Cheapest.response = some s ∧
    SelectedAlike (fun _ => []) Cheapest.catalog Cheapest.response s := by
  obtain ⟨hsome, hnone⟩ := selections_agree (fun _ => []) Cheapest.query rfl (fun _ => id)
    (show Cheapest.response.products = (search [Cheapest.document]).map resultOf from rfl)
  cases hs : selectCheapestInStock Cheapest.response with
  | some s => exact ⟨s, rfl, hsome s hs⟩
  | none => cases hnone hs _ List.mem_cons_self Cheapest.byProduct _ Cheapest.mem_offers

end Purchase
