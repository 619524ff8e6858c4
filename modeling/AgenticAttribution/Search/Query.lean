import AgenticAttribution.Ingest.BulkBody
import AgenticAttribution.Lib.BoolQuery
import AgenticAttribution.Search.Service

/-!
# Search.Query — what the filters of a search let through

`internal/search/query.go`, over an index of the documents that `Stream` assembles.  The filters read what a document
says of its offers together; a request is about single offers.  `returned_meet` is what the one says of the other.
-/

namespace Search

open BoolQuery Ingest Json Settlement

/-! ## The query -/

section Build

def DefaultSize : ℤ := 20

def MaxSize : ℤ := 100

def KnnOversampleFactor : ℤ := 3

def TitleBoost : ℚ := 3

def BrandBoost : ℚ := 2

def DescriptionBoost : ℚ := 1

structure Request where
  query : Bytes
  size : ℤ
  categoryID : Bytes
  brands : List Bytes
  merchantID : Bytes
  inStock : Bool
  maxPrice : ℤ

def Request.resolvedSize (r : Request) : ℤ :=
  if r.size ≤ 0 then DefaultSize else if r.size > MaxSize then MaxSize else r.size

/-- The queries that score. -/
inductive Scoring where
  | multiMatch (query : List Char) (fields : List String) (type : String)
  | neural (field : String) (queryText modelID : List Char) (k : ℤ)

def fieldWithBoost (field : String) (boost : ℚ) : String :=
  if boost = 1 then field else if boost = 2 then field ++ "^2" else if boost = 3 then field ++ "^3" else field

def term (field : String) (value : Json) : Query Scoring := .term field value

def buildFilters (r : Request) : List (Query Scoring) :=
  (if r.categoryID ≠ [] then [term "category_id" (textValue r.categoryID)] else []) ++
  (if r.brands.length > 0 then [.terms "brand" (r.brands.map textValue)] else []) ++
  (if r.merchantID ≠ [] then [term "merchant_ids" (textValue r.merchantID)] else []) ++
  (if r.inStock then [term "in_stock_anywhere" (.bool true)] else []) ++
  (if r.maxPrice > 0 then [.lte "min_price_cents" r.maxPrice] else [])

def wrapWithFilters (scoring : Query Scoring) (filters : List (Query Scoring)) : Query Scoring :=
  .bool [scoring] filters

/-- The body of a search. -/
structure SearchBody where
  size : ℤ
  query : Query Scoring
  excludes : List String

def keyword (r : Request) : Scoring :=
  .multiMatch (Utf8.text r.query)
    [fieldWithBoost "canonical_title" TitleBoost, fieldWithBoost "brand" BrandBoost,
      fieldWithBoost "description" DescriptionBoost]
    "best_fields"

def semantic (r : Request) (modelID : Bytes) : Scoring :=
  .neural "embedding" (Utf8.text r.query) (Utf8.text modelID) (r.resolvedSize * KnnOversampleFactor)

def BuildQuery (r : Request) (modelID : Bytes) : SearchBody where
  size := r.resolvedSize
  query :=
    let filters := buildFilters r
    if filters.length > 0 then
      .hybrid [wrapWithFilters (.scoring (keyword r)) filters, wrapWithFilters (.scoring (semantic r modelID)) filters]
    else .hybrid [.scoring (keyword r), .scoring (semantic r modelID)]
  excludes := ["embedding", "embedding_source"]

end Build

/-! ## What is asked -/

section Spec

variable {F : Type}

/-- The same text, as JSON writes it. -/
def SameText (s t : Bytes) : Prop := Utf8.text s = Utf8.text t

theorem eq_of_sameText {s t : Bytes} (hs : Utf8.valid s = true) (ht : Utf8.valid t = true) (h : SameText s t) :
    s = t := by
  rw [← Utf8.encode_text hs, h, Utf8.encode_text ht]

/-- The conditions on a single offer. -/
inductive OfferCondition where
  | merchant
  | inStock
  | maxPrice

/-- The request has the condition. -/
def OfferCondition.Set (r : Request) : OfferCondition → Prop
  | merchant => r.merchantID ≠ []
  | inStock => r.inStock = true
  | maxPrice => 0 < r.maxPrice

def OfferCondition.Meets (r : Request) (o : Offer) : OfferCondition → Prop
  | merchant => SameText o.merchantID r.merchantID
  | inStock => o.inStock = true
  | maxPrice => o.priceCents ≤ r.maxPrice

/-- The category and the brand are those asked for. -/
def MeetsProduct (r : Request) (d : ProductDocument F) : Prop :=
  (r.categoryID ≠ [] → SameText d.categoryID r.categoryID) ∧
    (r.brands ≠ [] → ∃ brand ∈ r.brands, SameText d.brand brand)

/-- One offer meets all conditions. -/
def MeetsTogether (r : Request) (d : ProductDocument F) : Prop :=
  ∃ o ∈ (hitOf d).offers, ∀ c : OfferCondition, c.Set r → c.Meets r o

/-- Each condition is met by an offer. -/
def MeetsEach (r : Request) (d : ProductDocument F) : Prop :=
  ∀ c : OfferCondition, c.Set r → ∃ o ∈ (hitOf d).offers, c.Meets r o

/-- No two conditions are set. -/
def SingleCondition (r : Request) : Prop := ∀ c c' : OfferCondition, c.Set r → c'.Set r → c = c'

/-- What a search of the index returns.  What the two scoring queries find is open. -/
def Returned (r : Request) (modelID : Bytes) (index found : List (ProductDocument F)) : Prop :=
  ∃ scored : Scoring → Json → Prop, ∀ d ∈ found, d ∈ index ∧
    ∃ nils embedding, Matches scored (d.indexed nils embedding) (BuildQuery r modelID).query

end Spec

/-! ## What the filters read -/

section Filters

variable {F : Type} {r : Request} {modelID : Bytes} {scored : Scoring → Json → Prop} {doc : Json}
  {d : ProductDocument F} {nils : Nils} {embedding : List (List Char)}

/-- **Every filter holds of a document that is found.** -/
theorem filters_of_matches (h : Matches scored doc (BuildQuery r modelID).query) :
    ∀ q ∈ buildFilters r, Matches scored doc q := by
  unfold BuildQuery at h
  dsimp only at h
  split_ifs at h with hfilters
  · have hquery : Matches scored doc (.hybrid ([.scoring (keyword r), .scoring (semantic r modelID)].map
        fun s => .bool [s] (buildFilters r))) := h
    exact filter_of_hybrid hquery
  · intro q hq
    rw [List.eq_nil_of_length_eq_zero (Nat.eq_zero_of_not_pos hfilters)] at hq
    cases hq

theorem prop_objectOf_self (key : String) (v : Json) (members : List (Bytes × Json)) :
    (objectOf ((Utf8.str key, v) :: members)).prop key = some v := by
  simp only [objectOf, prop, List.map_cons, Utf8.str, Utf8.text_encode, List.find?_cons, decide_true, Option.map_some]

theorem prop_objectOf_of_ne {key other : String} (h : other ≠ key) (v : Json) (members : List (Bytes × Json)) :
    (objectOf ((Utf8.str other, v) :: members)).prop key = (objectOf members).prop key := by
  have hne : other.toList ≠ key.toList := fun he => h (String.toList_inj.mp he)
  simp only [objectOf, prop, List.map_cons, Utf8.str, Utf8.text_encode, List.find?_cons, decide_eq_false hne]

theorem prop_category : (d.indexed nils embedding).prop "category_id" = some (textValue d.categoryID) := by
  unfold ProductDocument.indexed
  simp (disch := decide) only [List.cons_append, prop_objectOf_of_ne, prop_objectOf_self]

theorem prop_brand : (d.indexed nils embedding).prop "brand" = some (textValue d.brand) := by
  unfold ProductDocument.indexed
  simp (disch := decide) only [List.cons_append, prop_objectOf_of_ne, prop_objectOf_self]

theorem prop_minPrice :
    (d.indexed nils embedding).prop "min_price_cents" = some (.num (Digits.intChars d.minPriceCents)) := by
  unfold ProductDocument.indexed
  split_ifs <;>
    simp (disch := decide) only [List.cons_append, List.nil_append, prop_objectOf_of_ne, prop_objectOf_self]

theorem prop_inStock : (d.indexed nils embedding).prop "in_stock_anywhere" = some (.bool d.inStockAnywhere) := by
  unfold ProductDocument.indexed
  split_ifs <;>
    simp (disch := decide) only [List.cons_append, List.nil_append, prop_objectOf_of_ne, prop_objectOf_self]

theorem prop_merchants : (d.indexed nils embedding).prop "merchant_ids" =
    some (collection nils.merchantIDs (.arr (d.merchantIDs.map textValue))) := by
  unfold ProductDocument.indexed
  split_ifs <;>
    simp (disch := decide) only [List.cons_append, List.nil_append, prop_objectOf_of_ne, prop_objectOf_self]

theorem mem_merchants_of_values {v : Json} (h : v ∈ values (d.indexed nils embedding) "merchant_ids") :
    ∃ id ∈ d.merchantIDs, v = textValue id := by
  rw [values, prop_merchants] at h
  unfold collection at h
  split_ifs at h
  · cases h
  · obtain ⟨id, hid, rfl⟩ := List.mem_map.mp h
    exact ⟨id, hid, rfl⟩

theorem sameText_of_textValue {s t : Bytes} (h : textValue s = textValue t) : SameText s t := Json.str.inj h

theorem forall_mem_ite {α : Type} {c : Prop} [Decidable c] {a : α} {P : α → Prop} :
    (∀ x ∈ if c then [a] else [], P x) ↔ (c → P a) := by
  split_ifs with hc <;> simp [hc]

/-- **What the filters say of a document.** -/
structure Filtered (r : Request) (d : ProductDocument F) : Prop where
  category : r.categoryID ≠ [] → SameText d.categoryID r.categoryID
  brand : r.brands ≠ [] → ∃ brand ∈ r.brands, SameText d.brand brand
  merchant : r.merchantID ≠ [] → ∃ id ∈ d.merchantIDs, SameText id r.merchantID
  inStock : r.inStock = true → d.inStockAnywhere = true
  maxPrice : 0 < r.maxPrice → d.minPriceCents ≤ r.maxPrice

theorem filtered_of_matches (h : Matches scored (d.indexed nils embedding) (BuildQuery r modelID).query) :
    Filtered r d := by
  have hfilters := filters_of_matches h
  simp only [buildFilters, List.forall_mem_append, forall_mem_ite] at hfilters
  obtain ⟨⟨⟨⟨hcategory, hbrand⟩, hmerchant⟩, hstock⟩, hprice⟩ := hfilters
  refine ⟨fun hset => ?_, fun hset => ?_, fun hset => ?_, fun hset => ?_, fun hset => ?_⟩
  · have hmem : textValue r.categoryID ∈ values (d.indexed nils embedding) "category_id" := hcategory hset
    rw [values_of_str prop_category, List.mem_singleton] at hmem
    exact sameText_of_textValue hmem.symm
  · obtain ⟨v, hv, hmem⟩ := hbrand (List.length_pos_iff.mpr hset)
    obtain ⟨brand, hin, rfl⟩ := List.mem_map.mp hv
    rw [values_of_str prop_brand, List.mem_singleton] at hmem
    exact ⟨brand, hin, sameText_of_textValue hmem.symm⟩
  · obtain ⟨id, hid, heq⟩ := mem_merchants_of_values (hmerchant hset)
    exact ⟨id, hid, sameText_of_textValue heq.symm⟩
  · have hmem : Json.bool true ∈ values (d.indexed nils embedding) "in_stock_anywhere" := hstock hset
    rw [values_of_bool prop_inStock, List.mem_singleton] at hmem
    exact (Json.bool.inj hmem).symm
  · exact (lte_of_num prop_minPrice).mp (hprice hset)

end Filters

/-! ## What it says of the offers -/

section Offers

variable {F : Type} {r : Request} {modelID : Bytes} {d : ProductDocument F} {indexedAt : Bytes} {rows : List Row}

theorem mem_offers_hitOf {o : Offer} : o ∈ (hitOf d).offers ↔ ∃ m ∈ d.offers, Offer.ofSource m = o := by
  show o ∈ sortOffers (d.offers.map Offer.ofSource) ↔ _
  rw [(perm_sortOffers _).mem_iff, List.mem_map]

/-- The lowest price is the price of an offer. -/
theorem exists_minPrice (h : Assembled indexedAt rows d) : ∃ m ∈ d.offers, m.priceCents = d.minPriceCents := by
  obtain ⟨first, rest, attributes, rfl, -, rfl⟩ := h
  have hfold : ∀ (rows : List Row) (d : ProductDocument F), (∃ m ∈ d.offers, m.priceCents = d.minPriceCents) →
      ∃ m ∈ (rows.foldl ProductDocument.add d).offers,
        m.priceCents = (rows.foldl ProductDocument.add d).minPriceCents := by
    intro rows
    induction rows with
    | nil => exact fun _ hd => hd
    | cons row rows ih =>
      rintro d ⟨m, hm, hprice⟩
      refine ih (d.add row) ?_
      by_cases hlt : row.listing.priceCents < d.minPriceCents
      · exact ⟨row.offer, List.mem_append_right _ (List.mem_singleton_self _), (if_pos hlt).symm⟩
      · exact ⟨m, List.mem_append_left _ hm, hprice.trans (if_neg hlt).symm⟩
  refine hfold rest _ ⟨first.offer, List.mem_append_right _ (List.mem_singleton_self _), ?_⟩
  exact (if_neg (lt_irrefl _)).symm

/-- **What the filters keep, offer by offer.** -/
theorem meetsEach_of_filtered (hassembled : Assembled indexedAt rows d) (h : Filtered r d) : MeetsEach r d := by
  have hsummary := summary_of_assembled hassembled
  rintro (_ | _ | _) hset
  · obtain ⟨id, hid, hsame⟩ := h.merchant hset
    rw [hsummary.merchantIDs] at hid
    obtain ⟨m, hm, rfl⟩ := List.mem_map.mp hid
    exact ⟨.ofSource m, mem_offers_hitOf.mpr ⟨m, hm, rfl⟩, hsame⟩
  · have hany := h.inStock hset
    rw [hsummary.inStock] at hany
    obtain ⟨m, hm, hstock⟩ := List.any_eq_true.mp hany
    exact ⟨.ofSource m, mem_offers_hitOf.mpr ⟨m, hm, rfl⟩, hstock⟩
  · obtain ⟨m, hm, hprice⟩ := exists_minPrice hassembled
    exact ⟨.ofSource m, mem_offers_hitOf.mpr ⟨m, hm, rfl⟩, hprice.trans_le (h.maxPrice hset)⟩

/-- A single condition is met by one offer. -/
theorem meetsTogether_of_single (hassembled : Assembled indexedAt rows d) (hsingle : SingleCondition r)
    (h : MeetsEach r d) : MeetsTogether r d := by
  by_cases hset : ∃ c : OfferCondition, c.Set r
  · obtain ⟨c, hc⟩ := hset
    obtain ⟨o, ho, hmeets⟩ := h c hc
    refine ⟨o, ho, fun c' hc' => ?_⟩
    rw [hsingle c' c hc' hc]
    exact hmeets
  · obtain ⟨m, hm, -⟩ := exists_minPrice hassembled
    exact ⟨.ofSource m, mem_offers_hitOf.mpr ⟨m, hm, rfl⟩, fun c hc => absurd ⟨c, hc⟩ hset⟩

variable {collation : Collation} {catalog : Catalog} {n : ℕ} {index found : List (ProductDocument F)}

/-- **What a search returns meets the request, each condition by an offer of its own.** -/
theorem returned_meet (hquery : DocumentQuery collation catalog rows)
    (hindex : indexed indexedAt rows = .ok (n, index)) (h : Returned r modelID index found) :
    ∀ d ∈ found, MeetsProduct r d ∧ MeetsEach r d ∧ (SingleCondition r → MeetsTogether r d) := by
  obtain ⟨scored, hfound⟩ := h
  intro d hd
  obtain ⟨hmem, nils, embedding, hmatches⟩ := hfound d hd
  have hfiltered := filtered_of_matches hmatches
  have hassembled := (assembled hquery.ordered (assemble_of_indexed hindex)).2.1 d hmem
  have heach := meetsEach_of_filtered hassembled hfiltered
  exact ⟨⟨hfiltered.category, hfiltered.brand⟩, heach, fun hsingle => meetsTogether_of_single hassembled hsingle heach⟩

end Offers

/-! ## A product with two offers -/

namespace Mixed

def product : ProductRow :=
  ⟨Utf8.str "prod_1", Utf8.str "Pack", Utf8.str "A pack", Utf8.str "Acme", Utf8.str "packs", .ok []⟩

/-- The merchant that is asked for has none left. -/
def soldOut : Row where
  product := product
  listing := ⟨Utf8.str "lst_1", Utf8.str "prod_1", Utf8.str "mer_1", 1000, Utf8.str "USD", false, 500⟩
  listingTitle := Utf8.str "Pack"
  deepLinkURL := Utf8.str "/1"

def elsewhere : Row where
  product := product
  listing := ⟨Utf8.str "lst_2", Utf8.str "prod_1", Utf8.str "mer_2", 2000, Utf8.str "USD", true, 500⟩
  listingTitle := Utf8.str "Pack"
  deepLinkURL := Utf8.str "/2"

def catalog : Catalog where
  publishers := []
  merchants := [⟨Utf8.str "mer_1"⟩, ⟨Utf8.str "mer_2"⟩]
  products := [⟨Utf8.str "prod_1"⟩]
  listings := [soldOut.listing, elsewhere.listing]
  searchRequests := []
  listings_ok := by decide
  listings_product := by decide
  listings_merchant := by decide
  searchRequests_ok := Catalog.empty.searchRequests_ok
  searchRequests_publisher := Catalog.empty.searchRequests_publisher

def document : ProductDocument ℚ := ((soldOut.document [] []).add soldOut).add elsewhere

/-- In stock, and from that merchant. -/
def request : Request := ⟨Utf8.str "pack", 0, [], [], Utf8.str "mer_1", true, 0⟩

theorem query : DocumentQuery .bytewise catalog [soldOut, elsewhere] where
  listings := .refl _
  joined := by
    intro r hr
    simp only [List.mem_cons, List.not_mem_nil, or_false] at hr
    rcases hr with rfl | rfl <;> rfl
  ordered := by
    refine List.pairwise_cons.mpr ⟨fun r hr => ?_, List.pairwise_singleton _ _⟩
    rw [List.mem_singleton.mp hr]
    exact List.le_refl _

theorem returned : Returned request (Utf8.str "model_1") [document] [document] := by
  refine ⟨fun _ _ => True, fun d hd => ⟨hd, ⟨false, false, false⟩, [], ?_⟩⟩
  obtain rfl := List.mem_singleton.mp hd
  refine matches_hybrid.mpr ⟨_, List.mem_cons_self, matches_bool.mpr ⟨List.forall_mem_singleton.mpr trivial, ?_⟩⟩
  refine List.forall_mem_cons.mpr ⟨?_, List.forall_mem_singleton.mpr ?_⟩
  · show textValue (Utf8.str "mer_1") ∈ values _ "merchant_ids"
    rw [values, prop_merchants]
    exact List.mem_cons_self
  · show Json.bool true ∈ values _ "in_stock_anywhere"
    rw [values_of_bool prop_inStock]
    exact List.mem_singleton_self _

theorem returned_meet_sample : MeetsProduct request document ∧ MeetsEach request document ∧
    (SingleCondition request → MeetsTogether request document) :=
  returned_meet query rfl returned document List.mem_cons_self

/-- **A product is returned that the merchant asked for does not have in stock.** -/
theorem returned_not_together : DocumentQuery .bytewise catalog [soldOut, elsewhere] ∧
    indexed [] [soldOut, elsewhere] = .ok (1, [document]) ∧
    Returned request (Utf8.str "model_1") [document] [document] ∧ ¬MeetsTogether request document := by
  refine ⟨query, rfl, returned, ?_⟩
  rintro ⟨o, ho, hall⟩
  have hmerchant : SameText o.merchantID (Utf8.str "mer_1") := hall .merchant (List.cons_ne_nil _ _)
  have hstock : o.inStock = true := hall .inStock rfl
  obtain ⟨m, hm, rfl⟩ := mem_offers_hitOf.mp ho
  have hcases : m = soldOut.offer ∨ m = elsewhere.offer := by
    rcases List.mem_cons.mp hm with rfl | hm
    · exact Or.inl rfl
    · exact Or.inr (List.mem_singleton.mp hm)
  rcases hcases with rfl | rfl
  · cases hstock
  · exact absurd (eq_of_sameText (Utf8.valid_encode _) (Utf8.valid_encode _) hmerchant) (by decide)

end Mixed

end Search
