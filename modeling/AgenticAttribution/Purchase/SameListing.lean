import AgenticAttribution.Merchant.Catalog
import AgenticAttribution.Settlement.Routes

/-!
# Purchase.SameListing — one listing, read by the merchant and by settlement

`merchant/src/catalog.ts` reads the listing of a product that stands first by stock and price.
`Store.LookupListing` of `internal/settlement/store.go` reads a listing of that product and merchant, in no order.  A
merchant may list one product under several SKUs, and then the two can read different rows.  And the merchant has the
price as a number of JavaScript, which it may round when it reads it and again when it prints it for settlement.
-/

namespace Purchase

open Attribution Digits Fallible GoJson Settlement Types

/-- The keys of the `listings` table: its primary key, and the index on the merchant's own SKU. -/
structure Keyed (merchantSKU : ListingRow → Bytes) (listings : List ListingRow) : Prop where
  primaryKey : (listings.map fun l => (l.listingID, l.merchantID)).Nodup
  merchantSkuKey : (listings.map fun l => (l.merchantID, merchantSKU l)).Nodup

/-- A purchase at the asking price of the merchant's listing `l`, with the price as the merchant prints it. -/
structure AtAskingPrice (l : Merchant.Listing) (req : Request) : Prop where
  product : req.assertion.productID = Utf8.encode l.productId
  merchant : req.merchantID = Utf8.encode l.merchantId
  price : req.grossAmountCents = Double.shown l.priceCents
  currency : req.currency = Utf8.encode l.currency

/-- Settlement reads the listing `l` of the merchant, over the same table. -/
structure ReadsSame (svc : Service) (catalog : Catalog) (l : Merchant.Listing) : Prop where
  lookup : ∀ db : DB, db.catalog = catalog → ∀ pick fate found,
    Store.lookupListing svc.driver db (Utf8.encode l.productId) (Utf8.encode l.merchantId) pick fate = .ok found →
      found.priceCents = l.priceCents ∧ found.currency = Utf8.encode l.currency ∧ found.inStock = l.inStock
  taken : l.inStock = true → ∀ s : Sys, s.db.catalog = catalog → ∀ call : Call, AtAskingPrice l call.req →
    ∀ pick fate e, svc.lookup s call pick fate = .returned (.error e) → (statusFor e).2 ≠ .listingMismatch

/-- Every listing that the merchant can find is the one settlement reads. -/
def SameListing (svc : Service) (catalog : Catalog) (titles : ListingRow → List Char)
    (merchantId productId : List Char) : Prop :=
  ∀ pick l, Merchant.findListing titles catalog.listings merchantId productId pick = some l → ReadsSame svc catalog l

/-- The merchant of a row that can be found first lists the product at one price, in one currency and with one stock
flag; a number of JavaScript holds the price and, if the row is in stock, is printed with the price's own digits. -/
def Unambiguous (listings : List ListingRow) (merchantId productId : List Char) : Prop :=
  ∀ row ∈ Merchant.selected listings merchantId productId,
    (∀ l' ∈ Merchant.selected listings merchantId productId, Merchant.before l' row = false) →
      Double.round row.priceCents = row.priceCents ∧
      (row.inStock = true → Double.shown row.priceCents = row.priceCents) ∧
      ∀ l ∈ listings, l.productID = row.productID → l.merchantID = row.merchantID →
        l.priceCents = row.priceCents ∧ l.currency = row.currency ∧ l.inStock = row.inStock

section Listings

variable {svc : Service} {catalog : Catalog} {titles : ListingRow → List Char} {merchantId productId : List Char}

/-- A product listed once by each merchant, at a price in the safe integers, is unambiguous. -/
theorem unambiguous_of_nodup {listings : List ListingRow}
    (hnodup : (listings.map fun l => (l.productID, l.merchantID)).Nodup)
    (hprice : ∀ l ∈ listings, 0 ≤ l.priceCents ∧ l.priceCents < 2 ^ 53) :
    Unambiguous listings merchantId productId := by
  intro row hrow _
  have hmem : row ∈ listings := (List.mem_filter.mp hrow).1
  obtain ⟨hnonneg, hsafe⟩ := hprice row hmem
  refine ⟨Double.round_of_lt hnonneg hsafe, fun _ => Double.shown_of_lt hnonneg hsafe, fun l hl hp hm => ?_⟩
  have heq : l = row := List.inj_on_of_nodup_map hnodup hl hmem (by rw [hp, hm])
  rw [heq]
  exact ⟨rfl, rfl, rfl⟩

/-- The texts of a row that the merchant reads are the texts of the table. -/
theorem encode_of_ok {row : ListingRow} (h : row.ok = true) :
    Utf8.encode (Merchant.textOf row.productID) = row.productID ∧
      Utf8.encode (Merchant.textOf row.merchantID) = row.merchantID ∧
      Utf8.encode (Merchant.textOf row.currency) = row.currency ∧
      (textOk row.productID && textOk row.merchantID) = true := by
  simp only [ListingRow.ok, Bool.and_eq_true] at h
  obtain ⟨⟨⟨⟨⟨⟨⟨-, hproduct⟩, hmerchant⟩, hcurrency⟩, -⟩, -⟩, -⟩, -⟩ := h
  have hvalid : ∀ {t : Bytes}, textOk t = true → Utf8.encode (Merchant.textOf t) = t := by
    intro t ht
    apply Merchant.encode_textOf
    simp only [textOk, Bool.and_eq_true] at ht
    exact ht.1
  refine ⟨hvalid hproduct, hvalid hmerchant, hvalid hcurrency, ?_⟩
  rw [hproduct, hmerchant]
  rfl

/-- Every row of a product and a merchant is one that the lookup can return. -/
theorem exists_pick (d : Driver) (db : DB) {row : ListingRow} (hrow : row ∈ db.catalog.listings) :
    ∃ pick, Store.lookupListing d db row.productID row.merchantID pick .done = .ok row.listing := by
  have htexts := (encode_of_ok (db.catalog.listings_ok row hrow)).2.2.2
  have hmem : row ∈ db.listingsOf row.productID row.merchantID :=
    List.mem_filter.mpr ⟨hrow, decide_eq_true ⟨rfl, rfl⟩⟩
  obtain ⟨i, hi, hget⟩ := List.mem_iff_getElem.mp hmem
  refine ⟨i, lookupListing_of htexts ?_⟩
  rw [Nat.mod_eq_of_lt hi, List.getElem?_eq_getElem hi, hget]

/-- The request as settlement reads it out of the body of a sale, member by member. -/
theorem decodeRequest_body (sale : Merchant.Sale) :
    decodeRequest sale.body = (do
      let assertion ← object assertionFields zeroRequest.assertion sale.assertion
      let gross ← int 0 (.num (intChars (Double.shown sale.listing.priceCents)))
      let payload ← object payloadFields zeroRequest.paymentPayload sale.payment
      let requirements ← object requirementsFields zeroRequest.paymentRequirements sale.requirements
      return ⟨assertion, Utf8.encode sale.listing.merchantId, gross, Utf8.encode sale.listing.currency, payload,
        requirements⟩) := by
  have hbody : sale.body = .obj [("assertion".toList, sale.assertion),
      ("merchant_id".toList, .str sale.listing.merchantId),
      ("gross_amount_cents".toList, .num (intChars (Double.shown sale.listing.priceCents))),
      ("currency".toList, .str sale.listing.currency), ("payment_payload".toList, sale.payment),
      ("payment_requirements".toList, sale.requirements)] := rfl
  have hassertion (s : Request) (v : Json) : member requestFields s ("assertion".toList, v)
      = (object assertionFields s.assertion v).map fun x => { s with assertion := x } := rfl
  have hmerchant (s : Request) (v : Json) : member requestFields s ("merchant_id".toList, v)
      = (text s.merchantID v).map fun x => { s with merchantID := x } := rfl
  have hgross (s : Request) (v : Json) : member requestFields s ("gross_amount_cents".toList, v)
      = (int s.grossAmountCents v).map fun x => { s with grossAmountCents := x } := rfl
  have hcurrency (s : Request) (v : Json) : member requestFields s ("currency".toList, v)
      = (text s.currency v).map fun x => { s with currency := x } := rfl
  have hpayload (s : Request) (v : Json) : member requestFields s ("payment_payload".toList, v)
      = (object payloadFields s.paymentPayload v).map fun x => { s with paymentPayload := x } := rfl
  have hrequirements (s : Request) (v : Json) : member requestFields s ("payment_requirements".toList, v)
      = (object requirementsFields s.paymentRequirements v).map fun x => { s with paymentRequirements := x } := rfl
  rw [decodeRequest, hbody]
  show List.foldlM _ _ _ = _
  simp only [List.foldlM_cons, List.foldlM_nil, hassertion, hmerchant, hgross, hcurrency, hpayload, hrequirements,
    Option.bind_eq_bind, Option.bind_map, Function.comp_def]
  rfl

/-- What settlement reads of a sale is a purchase at the asking price of its listing. -/
theorem atAskingPrice_of_decodeBody {sale : Merchant.Sale} {req : Request}
    (h : decodeBody decodeRequest sale.body = some req)
    (hproduct : req.assertion.productID = Utf8.encode sale.listing.productId) : AtAskingPrice sale.listing req := by
  unfold decodeBody at h
  split_ifs at h
  rw [decodeRequest_body] at h
  simp only [Option.bind_eq_bind, Option.bind_eq_some_iff] at h
  obtain ⟨assertion, -, gross, hgross, payload, -, requirements, -, hreq⟩ := h
  obtain rfl := Option.some.inj hreq
  exact ⟨hproduct, rfl, int_intChars_eq_some hgross, rfl⟩

/-- A listing that is read the same, at a price that is printed as it is, is not refused as a mismatch. -/
theorem taken_of_lookup {l : Merchant.Listing} (hstock : l.inStock = true)
    (hshown : Double.shown l.priceCents = l.priceCents) {s : Sys} {call : Call}
    (hreq : AtAskingPrice l call.req) {pick : ℕ} {fate : Fate} {e : Err}
    (hsame : ∀ found, Store.lookupListing svc.driver s.db (Utf8.encode l.productId) (Utf8.encode l.merchantId) pick
      fate = .ok found →
      found.priceCents = l.priceCents ∧ found.currency = Utf8.encode l.currency ∧ found.inStock = l.inStock)
    (h : svc.lookup s call pick fate = .returned (.error e)) : (statusFor e).2 ≠ .listingMismatch := by
  unfold Service.lookup at h
  rw [hreq.product, hreq.merchant] at h
  split at h
  · rename_i e' hlookup
    obtain rfl : e' = e := by simpa using h
    rcases lookup_among hlookup with hplain | ⟨x, hx, hwraps⟩
    · rw [show statusFor e' = statusFor (GoError.plain []) from statusFor_congr hplain]
      decide
    · obtain rfl := List.mem_singleton.mp hx
      rw [show statusFor e' = statusFor Sentinel.listingNotFound.err from statusFor_congr hwraps]
      decide
  · rename_i found hlookup
    obtain ⟨hprice, hcurrency, hin⟩ := hsame found hlookup
    have hnone : call.req.checkListing found = none := Request.checkListing_eq_none.mpr
      ⟨hin.trans hstock, hcurrency.trans hreq.currency.symm, hprice.trans (hreq.price.trans hshown).symm⟩
    rw [hnone] at h
    cases h

/-- A request that the listing does not meet is refused as a mismatch. -/
theorem mismatch_of_checkListing {req : Request} {found : Settlement.Listing} {e : Err}
    (h : req.checkListing found = some e) : (statusFor e).2 = .listingMismatch := by
  unfold Request.checkListing at h
  split_ifs at h
  all_goals
    obtain rfl := Option.some.inj h
    rfl

/-- A purchase of a row at its asking price. -/
def askingFor (row : ListingRow) : Request :=
  { zeroRequest with
    assertion := { zeroRequest.assertion with productID := row.productID }
    merchantID := row.merchantID
    grossAmountCents := Double.shown row.priceCents
    currency := row.currency }

/-- Settlement refuses a price that the merchant prints with other digits. -/
theorem mismatch_of_shown (svc : Service) {row : ListingRow} (hrow : row ∈ catalog.listings)
    (hshown : Double.shown row.priceCents ≠ row.priceCents) :
    ∃ pick e, svc.lookup (Sys.init catalog) ⟨askingFor row, 0, none, .verified⟩ pick .done = .returned (.error e) ∧
      (statusFor e).2 = .listingMismatch := by
  obtain ⟨pick, hpick⟩ := exists_pick svc.driver (DB.empty catalog) hrow
  have hpick' : Store.lookupListing svc.driver (Sys.init catalog).db (askingFor row).assertion.productID
      (askingFor row).merchantID pick .done = .ok row.listing := hpick
  cases hcheck : (askingFor row).checkListing row.listing with
  | none => exact absurd (Request.checkListing_eq_none.mp hcheck).2.2.symm hshown
  | some e =>
    refine ⟨pick, e, ?_, mismatch_of_checkListing hcheck⟩
    simp only [Service.lookup, hpick', hcheck]

/-- **Merchant and settlement read the same listing exactly when the table leaves no choice between the rows** of the
product at the merchant found. -/
theorem same_listing_iff (svc : Service) (catalog : Catalog) (titles : ListingRow → List Char)
    (merchantId productId : List Char) :
    SameListing svc catalog titles merchantId productId ↔ Unambiguous catalog.listings merchantId productId := by
  constructor
  · intro h row hrow hfirst
    have hmem : row ∈ catalog.listings := (List.mem_filter.mp hrow).1
    obtain ⟨pick, hfound⟩ := Merchant.findListing_iff.mpr ⟨row, hrow, hfirst, rfl⟩
    obtain ⟨hproduct, hmerchant, hcurrency, -⟩ := encode_of_ok (catalog.listings_ok row hmem)
    have hlookup := (h pick _ hfound).lookup (DB.empty catalog) rfl
    simp only [Merchant.readRow, hproduct, hmerchant, hcurrency] at hlookup
    -- the lookup may return any row of the pair, the row found among them
    have hrows : ∀ l ∈ catalog.listings, l.productID = row.productID → l.merchantID = row.merchantID →
        l.priceCents = Double.round row.priceCents ∧ l.currency = row.currency ∧ l.inStock = row.inStock := by
      intro l hl hp hm
      obtain ⟨pick', hpick⟩ := exists_pick svc.driver (DB.empty catalog) hl
      rw [hp, hm] at hpick
      exact hlookup pick' .done l.listing hpick
    have hround : Double.round row.priceCents = row.priceCents := (hrows row hmem rfl rfl).1.symm
    rw [hround] at hrows
    refine ⟨hround, fun hstock => ?_, hrows⟩
    by_contra hshown
    obtain ⟨pick', e, he, hmismatch⟩ := mismatch_of_shown svc hmem hshown
    have hasking : AtAskingPrice (Merchant.readRow titles row) (askingFor row) :=
      ⟨hproduct.symm, hmerchant.symm, congrArg Double.shown hround.symm, hcurrency.symm⟩
    exact (h pick _ hfound).taken hstock (Sys.init catalog) rfl _ hasking pick' .done e he hmismatch
  · intro h pick l hfound
    obtain ⟨row, hrow, hfirst, rfl⟩ := Merchant.findListing_iff.mp ⟨pick, hfound⟩
    have hmem : row ∈ catalog.listings := (List.mem_filter.mp hrow).1
    obtain ⟨hproduct, hmerchant, hcurrency, -⟩ := encode_of_ok (catalog.listings_ok row hmem)
    obtain ⟨hround, hshown, hrows⟩ := h row hrow hfirst
    have hlookup : ∀ db : DB, db.catalog = catalog → ∀ pick fate found,
        Store.lookupListing svc.driver db row.productID row.merchantID pick fate = .ok found →
          found.priceCents = row.priceCents ∧ found.currency = row.currency ∧ found.inStock = row.inStock := by
      intro db hdb pick fate found hfound
      obtain ⟨r, hr, hp, hm, rfl⟩ := Store.lookupListing_eq_ok hfound
      rw [hdb] at hr
      exact hrows r hr hp hm
    have hread : ∀ db : DB, db.catalog = catalog → ∀ pick fate found,
        Store.lookupListing svc.driver db (Utf8.encode (Merchant.readRow titles row).productId)
            (Utf8.encode (Merchant.readRow titles row).merchantId) pick fate = .ok found →
          found.priceCents = (Merchant.readRow titles row).priceCents ∧
            found.currency = Utf8.encode (Merchant.readRow titles row).currency ∧
            found.inStock = (Merchant.readRow titles row).inStock := by
      simp only [Merchant.readRow, hproduct, hmerchant, hcurrency, hround]
      exact hlookup
    have hprinted : row.inStock = true → Double.shown (Double.round row.priceCents) = Double.round row.priceCents := by
      rw [hround]
      exact hshown
    exact ⟨hread, fun hstock s hs call hreq pick fate e he =>
      taken_of_lookup hstock (hprinted hstock) hreq (fun found hf => hread s.db hs pick fate found hf) he⟩

end Listings

namespace TwoSkus

/-- The sample listing under a second SKU, in stock as well and dearer. -/
def secondRow : ListingRow :=
  { Settlement.Sample.listingRow with listingID := Utf8.str "lst_2", priceCents := 14999 }

def catalog : Catalog where
  publishers := Settlement.Sample.catalog.publishers
  merchants := Settlement.Sample.catalog.merchants
  products := Settlement.Sample.catalog.products
  listings := [Settlement.Sample.listingRow, secondRow]
  searchRequests := Settlement.Sample.catalog.searchRequests
  listings_ok := by decide
  listings_product := by decide
  listings_merchant := by decide
  searchRequests_ok := Settlement.Sample.catalog.searchRequests_ok
  searchRequests_publisher := Settlement.Sample.catalog.searchRequests_publisher

end TwoSkus

/-- A merchant with two SKUs of one product: the merchant asks for the price of the cheaper, and settlement reads the
dearer and refuses the purchase. -/
theorem two_skus_differ : Keyed ListingRow.listingID TwoSkus.catalog.listings ∧
    ¬SameListing Settlement.Sample.service TwoSkus.catalog (fun _ => []) [] "prod_1".toList ∧
    ∃ e, Settlement.Sample.service.lookup (Sys.init TwoSkus.catalog) ⟨Settlement.Sample.request, 0, none, .verified⟩ 1
      .done = .returned (.error e) ∧ statusFor e = (422, .listingMismatch) := by
  refine ⟨⟨by decide, by decide⟩, fun h => ?_, _, rfl, by decide⟩
  have hfound : Merchant.findListing (fun _ => []) TwoSkus.catalog.listings [] "prod_1".toList 0
      = some (Merchant.readRow (fun _ => []) Settlement.Sample.listingRow) := rfl
  obtain ⟨hprice, -, -⟩ := (h 0 _ hfound).lookup (DB.empty TwoSkus.catalog) rfl 1 .done TwoSkus.secondRow.listing
    (lookupListing_of (by decide) (by decide))
  exact absurd hprice (by decide)

end Purchase
