import AgenticAttribution.Generator.Generate
import Mathlib.Data.List.Perm.Subperm

/-!
# Generator.Constraints — a catalogue and the tables it is loaded into

`db/migrations/001_schema.sql` and `002_indexes.sql` say what the tables take.  A generated catalogue meets all of it
(`generated_loads`), and comes about on every fair source of draws.  Its prices are near the reference price, not
always within the variance: they are whole cents (`beyond_variance`).
-/

namespace Generator

open Draws Digits

/-! ## The tables -/

/-- The constraints of the four tables. -/
structure Schema (c : Catalog) : Prop where
  merchants_pkey : (c.merchants.map (·.merchantID)).Nodup
  merchants_check : ∀ m ∈ c.merchants, (0 ≤ m.defaultCommissionBps.toInt ∧ m.defaultCommissionBps.toInt ≤ 10000) ∧
    0 ≤ m.holdPeriodDays.toInt ∧ 0 ≤ m.reversalWindowDays.toInt
  publishers_pkey : (c.publishers.map (·.publisherID)).Nodup
  products_pkey : (c.products.map (·.productID)).Nodup
  listings_pkey : (c.listings.map fun l => (l.listingID, l.merchantID)).Nodup
  listings_merchant_sku_key : (c.listings.map fun l => (l.merchantID, l.merchantSKU)).Nodup
  listings_product_fkey : ∀ l ∈ c.listings, l.productID ∈ c.products.map (·.productID)
  listings_merchant_fkey : ∀ l ∈ c.listings, l.merchantID ∈ c.merchants.map (·.merchantID)
  listings_check : ∀ l ∈ c.listings, 0 ≤ l.priceCents.toInt ∧ 0 ≤ l.commissionBps.toInt ∧
    l.commissionBps.toInt ≤ 10000

/-- The offers of a product in the catalogue: as many as were drawn, around one reference price. -/
structure Offered (g : Generated) (merchantCount : ℕ) (p : Product) (o : Offers) : Prop where
  reference : MinPriceCents ≤ o.reference ∧ o.reference < MaxPriceCents
  listings : (g.catalog.listings.filter fun l => l.productID = p.productID) = o.listings
  count : ∃ k, 3 ≤ k ∧ k ≤ 8 ∧ o.listings.length = min k merchantCount
  price : ∀ l ∈ o.listings, Priced o.reference l.priceCents.toInt

/-- **What is generated can be loaded.** -/
structure Generated.Loads (cfg : Config) (g : Generated) : Prop where
  schema : Schema g.catalog
  listing_ids : (g.catalog.listings.map (·.listingID)).Nodup
  pairs : (g.catalog.listings.map fun l => (l.productID, l.merchantID)).Nodup
  offered : List.Forall₂ (Offered g cfg.MerchantCount) g.catalog.products g.offers
  rates : (∀ m ∈ g.catalog.merchants, Rated m.defaultCommissionBps.toInt) ∧
    ∀ l ∈ g.catalog.listings, Rated l.commissionBps.toInt

/-! ## The offers together -/

section Together

variable {merchants : List Merchant} {p : Product} {o : Offers}

/-- A map that tells apart what another one does keeps a list free of duplicates. -/
theorem nodup_map_of {α β γ : Type} {f : α → β} {g : α → γ} {l : List α} (h : (l.map f).Nodup)
    (hfg : ∀ x ∈ l, ∀ y ∈ l, g x = g y → f x = f y) : (l.map g).Nodup := by
  have hpair : l.Pairwise fun x y => f x ≠ f y := List.pairwise_map.mp h
  refine List.pairwise_map.mpr (hpair.imp_of_mem fun hx hy hne he => ?_)
  exact hne (hfg _ hx _ hy he)

theorem mem_together {products : List Product} {offers : List Offers}
    (h : List.Forall₂ (OffersOf merchants) products offers) {l : Listing} (hl : l ∈ offers.flatMap (·.listings)) :
    ∃ p ∈ products, ∃ o ∈ offers, OffersOf merchants p o ∧ l ∈ o.listings := by
  obtain ⟨o, ho, hlo⟩ := List.mem_flatMap.mp hl
  induction h with
  | nil => cases ho
  | cons hof hrest ih =>
    rename_i p o' products offers
    rcases List.mem_cons.mp ho with rfl | ho
    · exact ⟨p, List.mem_cons_self, o, List.mem_cons_self, hof, hlo⟩
    · obtain ⟨q, hq, o'', ho'', hof'', hl''⟩ := ih (List.mem_flatMap.mpr ⟨o, ho, hlo⟩) ho
      exact ⟨q, List.mem_cons_of_mem _ hq, o'', List.mem_cons_of_mem _ ho'', hof'', hl''⟩

theorem productID_together {products : List Product} {offers : List Offers}
    (h : List.Forall₂ (OffersOf merchants) products offers) {l : Listing} (hl : l ∈ offers.flatMap (·.listings)) :
    l.productID ∈ products.map (·.productID) := by
  obtain ⟨p, hp, o, -, hof, hmem⟩ := mem_together h hl
  rw [hof.product l hmem]
  exact List.mem_map_of_mem hp

/-- No merchant offers a product twice. -/
theorem nodup_pairs : ∀ {products : List Product} {offers : List Offers},
    List.Forall₂ (OffersOf merchants) products offers → (products.map (·.productID)).Nodup →
      ((offers.flatMap (·.listings)).map fun l => (l.productID, l.merchantID)).Nodup
  | _, _, .nil, _ => List.nodup_nil
  | p :: products, o :: offers, .cons hof hrest, hids => by
    obtain ⟨hfresh, hids⟩ := List.nodup_cons.mp hids
    rw [List.flatMap_cons, List.map_append]
    refine List.nodup_append.mpr ⟨?_, nodup_pairs hrest hids, fun x hx y hy he => ?_⟩
    · exact nodup_map_of hof.distinct fun l _ l' _ h => (Prod.mk.inj h).2
    · obtain ⟨l, hl, rfl⟩ := List.mem_map.mp hx
      obtain ⟨l', hl', rfl⟩ := List.mem_map.mp hy
      have hmem := productID_together hrest hl'
      rw [← (Prod.mk.inj he).1, hof.product l hl] at hmem
      exact hfresh hmem

/-- The listings of a product are the ones that were drawn for it; `before` are the listings of other products. -/
theorem filter_product : ∀ {products : List Product} {offers : List Offers} {before : List Listing},
    List.Forall₂ (OffersOf merchants) products offers → (products.map (·.productID)).Nodup →
      (∀ l ∈ before, l.productID ∉ products.map (·.productID)) →
      List.Forall₂ (fun p o => ((before ++ offers.flatMap (·.listings)).filter fun l => l.productID = p.productID)
        = o.listings) products offers
  | _, _, _, .nil, _, _ => .nil
  | p :: products, o :: offers, before, .cons hof hrest, hids, hbefore => by
    obtain ⟨hfresh, hids⟩ := List.nodup_cons.mp hids
    have hearlier : (before.filter fun l => l.productID = p.productID) = [] := by
      refine List.filter_eq_nil_iff.mpr fun l hl h => hbefore l hl ?_
      rw [of_decide_eq_true h]
      exact List.mem_map_of_mem List.mem_cons_self
    have hlater : ((offers.flatMap (·.listings)).filter fun l => l.productID = p.productID) = [] := by
      refine List.filter_eq_nil_iff.mpr fun l hl h => ?_
      have hmem := productID_together hrest hl
      rw [of_decide_eq_true h] at hmem
      exact hfresh hmem
    have hown : (o.listings.filter fun l => l.productID = p.productID) = o.listings :=
      List.filter_eq_self.mpr fun l hl => decide_eq_true (hof.product l hl)
    have hothers : ∀ l ∈ before ++ o.listings, l.productID ∉ products.map (·.productID) := by
      intro l hl hmem
      rcases List.mem_append.mp hl with hl | hl
      · exact hbefore l hl (List.mem_cons_of_mem _ hmem)
      · rw [hof.product l hl] at hmem
        exact hfresh hmem
    refine .cons ?_ ?_
    · rw [List.flatMap_cons, List.filter_append, List.filter_append, hearlier, hown, hlater, List.append_nil,
        List.nil_append]
    · rw [List.flatMap_cons, ← List.append_assoc]
      exact filter_product hrest hids hothers

end Together

/-! ## The catalogue -/

section Catalogue

theorem merchantSKU_eq (merchantID productID : Bytes) : merchantSKU merchantID productID =
    toUpper (merchantID.drop 4) ++ (Utf8.encode ['-'] ++ (productID.drop 4 ++ [])) := rfl

/-- Of one merchant, a SKU names one product. -/
theorem productID_of_sku {merchantID : Bytes} {i j : ℕ}
    (h : merchantSKU merchantID (identifier "prd_" 8 i) = merchantSKU merchantID (identifier "prd_" 8 j)) :
    identifier "prd_" 8 i = identifier "prd_" 8 j := by
  have hlead : (Utf8.str "prd_").length = 4 := by decide
  rw [merchantSKU_eq, merchantSKU_eq, drop_identifier hlead, drop_identifier hlead] at h
  have hdigits := List.append_cancel_left (List.append_cancel_left h)
  rw [List.append_nil, List.append_nil] at hdigits
  rw [identifier, hdigits, ← identifier]

variable {cfg : Config} {merchants : List Merchant} {products : List Product} {offers : List Offers}

/-- A rate that is generated is one that the tables take. -/
theorem Rated.check {rate : ℤ} (h : Rated rate) : 0 ≤ rate ∧ rate ≤ 10000 := by
  unfold Rated MinCommissionBps MaxCommissionBps at h
  omega

/-- What `generate` has made, step by step. -/
structure Steps (cfg : Config) (merchants : List Merchant) (products : List Product) (offers : List Offers) :
    Prop where
  merchantsOf : List.Forall₂ MerchantOf (List.range cfg.MerchantCount) merchants
  productIDs : products.map (·.productID) = (List.range cfg.CanonicalProducts).map (identifier "prd_" 8)
  offersOf : List.Forall₂ (OffersOf merchants) products offers
  listingIDs : (offers.flatMap (·.listings)).map (·.listingID) =
    Generator.listingIDs 0 (offers.flatMap (·.listings)).length

namespace Steps

variable (h : Steps cfg merchants products offers)

include h

theorem nodup_products : (products.map (·.productID)).Nodup := h.productIDs ▸ nodup_identifiers _ _ _

theorem nodup_listings : ((offers.flatMap (·.listings)).map (·.listingID)).Nodup := by
  rw [h.listingIDs, Generator.listingIDs]
  exact List.Nodup.map (identifier_injective _ _) (List.nodup_range' ..)

theorem merchantOf {m : Merchant} (hm : m ∈ merchants) : ∃ i, MerchantOf i m := by
  obtain ⟨i, -, hi⟩ := mem_of_forall₂ h.merchantsOf hm
  exact ⟨i, hi⟩

theorem productID_eq {l : Listing} (hl : l ∈ offers.flatMap (·.listings)) :
    ∃ i, l.productID = identifier "prd_" 8 i := by
  have hmem := productID_together h.offersOf hl
  rw [h.productIDs] at hmem
  obtain ⟨i, -, hi⟩ := List.mem_map.mp hmem
  exact ⟨i, hi.symm⟩

/-- The SKU gives the product away, and no merchant offers a product twice. -/
theorem nodup_skus : ((offers.flatMap (·.listings)).map fun l => (l.merchantID, l.merchantSKU)).Nodup := by
  refine nodup_map_of (nodup_pairs h.offersOf h.nodup_products) fun l hl l' hl' he => ?_
  obtain ⟨hmerchant, hsku⟩ := Prod.mk.inj he
  obtain ⟨p, -, o, -, hp, hlo⟩ := mem_together h.offersOf hl
  obtain ⟨p', -, o', -, hp', hlo'⟩ := mem_together h.offersOf hl'
  obtain ⟨i, hi⟩ := h.productID_eq hl
  obtain ⟨j, hj⟩ := h.productID_eq hl'
  rw [hp.sku l hlo, hp'.sku l' hlo', hmerchant, hi, hj] at hsku
  rw [hmerchant, hi, hj, productID_of_sku hsku]

theorem schema : Schema ⟨merchants, buildPublishers cfg.PublisherCount, products, offers.flatMap (·.listings)⟩ where
  merchants_pkey := by
    have hids : merchants.map (·.merchantID) = (List.range cfg.MerchantCount).map (identifier "mer_" 6) :=
      map_of_forall₂ (fun _ _ hm => hm.id) h.merchantsOf
    exact hids ▸ nodup_identifiers _ _ _
  merchants_check m hm := by
    obtain ⟨i, hi⟩ := h.merchantOf hm
    exact ⟨hi.rate.check, hi.hold, hi.reversal⟩
  publishers_pkey := by
    show ((buildPublishers cfg.PublisherCount).map (·.publisherID)).Nodup
    rw [buildPublishers, List.map_map]
    exact nodup_identifiers _ _ _
  products_pkey := h.nodup_products
  listings_pkey := nodup_map_of h.nodup_listings fun l _ l' _ he => (Prod.mk.inj he).1
  listings_merchant_sku_key := h.nodup_skus
  listings_product_fkey l hl := productID_together h.offersOf hl
  listings_merchant_fkey l hl := by
    obtain ⟨p, -, o, -, hp, hlo⟩ := mem_together h.offersOf hl
    exact hp.merchant l hlo
  listings_check l hl := by
    obtain ⟨p, -, o, -, hp, hlo⟩ := mem_together h.offersOf hl
    obtain ⟨hfloor, -⟩ := hp.price l hlo
    exact ⟨by unfold MinPriceCents at hfloor; omega, (hp.rate l hlo).check⟩

theorem loads :
    (⟨⟨merchants, buildPublishers cfg.PublisherCount, products, offers.flatMap (·.listings)⟩, offers⟩ :
      Generated).Loads cfg where
  schema := h.schema
  listing_ids := h.nodup_listings
  pairs := nodup_pairs h.offersOf h.nodup_products
  offered := by
    have hcount : merchants.length = cfg.MerchantCount := by
      rw [← h.merchantsOf.length_eq, List.length_range]
    refine List.Forall₂.mp (fun p o hlist ho => ?_)
      (filter_product h.offersOf h.nodup_products (List.forall_mem_nil _)) h.offersOf
    exact ⟨ho.reference, hlist, hcount ▸ ho.count, ho.price⟩
  rates := by
    refine ⟨fun m hm => ?_, fun l hl => ?_⟩
    · obtain ⟨i, hi⟩ := h.merchantOf hm
      exact hi.rate
    · obtain ⟨p, -, o, -, hp, hlo⟩ := mem_together h.offersOf hl
      exact hp.rate l hlo

end Steps

theorem yields_generate (t : GoQuote.PrintTable) (cfg : Config) : Yields (generate t cfg) (Generated.Loads cfg) := by
  refine yields_bind (yields_buildMerchants _) fun merchants hmerchants => ?_
  refine yields_bind (yields_buildProducts t _) fun products hproducts => ?_
  have hids : merchants.map (·.merchantID) = (List.range cfg.MerchantCount).map (identifier "mer_" 6) :=
    map_of_forall₂ (fun _ _ h => h.id) hmerchants
  refine yields_bind (yields_buildListings hids products 0) fun offers hoffers => yields_pure ?_
  exact Steps.loads ⟨hmerchants, hproducts, hoffers.1, hoffers.2⟩

end Catalogue

/-! ## That there is one -/

section Answers

variable {source : ℕ → ℕ}

theorem answers_buildMerchant (i : ℕ) : Answers source (buildMerchant i) := by
  refine answers_seq (answers_pick (List.cons_ne_nil _ _)) fun lead => ?_
  refine answers_seq (answers_pick (List.cons_ne_nil _ _)) fun suffix => ?_
  refine answers_seq (answers_intn (by decide)) fun commission => ?_
  refine answers_seq (answers_pick (List.cons_ne_nil _ _)) fun hold => ?_
  exact answers_seq (answers_pick (List.cons_ne_nil _ _)) fun reversal => answers_pure _

theorem answers_buildProduct (t : GoQuote.PrintTable) (i : ℕ) : Answers source (buildProduct t i) := by
  refine answers_bind (answers_pick (List.cons_ne_nil _ _)) (yields_pick _) fun cat hcat => ?_
  obtain ⟨htypes, hmodifiers, hunits⟩ := categories_stocked cat hcat
  refine answers_seq (answers_pick (List.cons_ne_nil _ _)) fun brand => ?_
  refine answers_seq (answers_pick htypes) fun productType => ?_
  refine answers_seq (answers_pick hmodifiers) fun modifier => answers_seq (answers_pick hunits) fun unit => ?_
  exact answers_seq (answers_pick (List.cons_ne_nil _ _)) fun color => answers_pure _

/-- Among more numbers than were chosen there is one that was not. -/
theorem exists_unchosen {chosen : List ℕ} {n : ℕ} (h : chosen.length < n) : ∃ idx < n, idx ∉ chosen := by
  by_contra hall
  push Not at hall
  have hsub : List.range n ⊆ chosen := fun i hi => hall i (List.mem_range.mp hi)
  have hle := (List.Nodup.subperm List.nodup_range hsub).length_le
  rw [List.length_range] at hle
  omega

/-- **The rejection comes to an end**: a merchant that was not chosen yet comes up. -/
theorem answers_pickMerchants (hfair : Fair source) (merchants : List Merchant) (want : ℕ) :
    Answers source (pickMerchants merchants want) := by
  unfold pickMerchants
  split_ifs with hall
  · exact answers_pure _
  · refine answers_seq ?_ fun chosen => answers_pure _
    have hless : want < merchants.length := Nat.lt_of_not_le hall
    refine answers_drawWhile (I := fun _ => True) (fun chosen => want - chosen.length) hfair
      (Nat.zero_lt_of_lt hless) (fun _ _ _ _ _ => trivial) (fun chosen idx _ hmore => ?_)
      (fun chosen _ hmore => ?_) trivial
    · have hroom : chosen.length < want := of_decide_eq_true hmore
      unfold choose
      split_ifs
      · exact Or.inl rfl
      · refine Or.inr ?_
        rw [List.length_append, List.length_singleton]
        omega
    · have hroom : chosen.length < want := of_decide_eq_true hmore
      obtain ⟨idx, hidx, hnew⟩ := exists_unchosen (Nat.lt_trans hroom hless)
      refine ⟨idx, hidx, ?_⟩
      rw [choose, if_neg hnew, List.length_append, List.length_singleton]
      omega

theorem answers_buildListing (p : Product) (reference : ℤ) (m : Merchant) (listingSeq : ℕ) :
    Answers source (buildListing p reference m listingSeq) := by
  refine answers_seq (answers_seq (answers_pick (List.cons_ne_nil _ _)) fun _ => answers_pure _) fun title => ?_
  refine answers_seq (answers_seq (answers_intn (by decide)) fun _ => answers_pure _) fun price => ?_
  refine answers_seq (answers_intn (by decide)) fun stock => ?_
  exact answers_seq (answers_seq (answers_intn (by decide)) fun _ => answers_pure _) fun rate => answers_pure _

theorem answers_buildOffers (hfair : Fair source) (merchants : List Merchant) (listingSeq : ℕ) (p : Product) :
    Answers source (buildOffers merchants listingSeq p) := by
  refine answers_seq (answers_intn (by decide)) fun extra => answers_seq (answers_intn (by decide)) fun above => ?_
  refine answers_seq (answers_pickMerchants hfair merchants _) fun picked => ?_
  exact answers_seq (answers_each fun m _ => answers_buildListing p _ m.1 m.2) fun listings => answers_pure _

theorem answers_buildListings (hfair : Fair source) (merchants : List Merchant) :
    ∀ (products : List Product) (listingSeq : ℕ), Answers source (buildListings merchants listingSeq products)
  | [], _ => answers_pure _
  | p :: products, listingSeq => by
    refine answers_seq (answers_buildOffers hfair merchants listingSeq p) fun o => ?_
    exact answers_seq (answers_buildListings hfair merchants products _) fun rest => answers_pure _

theorem answers_generate (t : GoQuote.PrintTable) (cfg : Config) (hfair : Fair source) :
    Answers source (generate t cfg) := by
  refine answers_seq (answers_each fun i _ => answers_buildMerchant i) fun merchants => ?_
  refine answers_seq (answers_each fun i _ => answers_buildProduct t i) fun products => ?_
  exact answers_seq (answers_buildListings hfair merchants products 0) fun offers => answers_pure _

/-- For each configuration some draws make a catalogue. -/
theorem exists_generated (t : GoQuote.PrintTable) (cfg : Config) :
    ∃ draws g, (generate t cfg).run draws = some (g, []) := by
  obtain ⟨n, g, hg⟩ := answers_generate t cfg fair_unpair 0
  exact ⟨_, g, hg⟩

end Answers

/-- **Every catalogue that is generated loads**, and on a fair source of draws one is generated. -/
theorem generated_loads (t : GoQuote.PrintTable) (cfg : Config) :
    Yields (generate t cfg) (Generated.Loads cfg) ∧ ∀ source, Fair source → Answers source (generate t cfg) :=
  ⟨yields_generate t cfg, fun _ hfair => answers_generate t cfg hfair⟩

/-! ## A price beyond the variance -/

namespace Sample

/-- One product, of one merchant. -/
def cfg : Config := ⟨1, 1, 0⟩

/-- The draws for a reference price of 15.05 and the highest swing. -/
def draws : List ℕ := [0, 0, 0, 0, 0, 0, 0, 0, 0, 0, 0, 0, 6, 0, 3599, 0, 0]

/-- Within the variance of the reference price. -/
def WithinVariance (reference price : ℤ) : Prop :=
  (reference - price) * 10000 ≤ PriceVarianceBps * reference ∧
    (price - reference) * 10000 ≤ PriceVarianceBps * reference

theorem run_draws : ((generate GoQuote.asciiTable cfg).run draws).map (fun r => r.1.offers.map fun o =>
    (o.reference, o.listings.map (·.priceCents))) = some [(1505, [1776])] := by
  decide +kernel

/-- A reference price of 15.05 can come out as 17.76, which is a tenth of a cent too much. -/
theorem beyond_variance : ¬Yields (generate GoQuote.asciiTable cfg) fun g => ∀ o ∈ g.offers, ∀ l ∈ o.listings,
    l.priceCents.toInt = MinPriceCents ∨ WithinVariance o.reference l.priceCents.toInt := by
  intro h
  obtain ⟨⟨g, rest⟩, hrun, hoffers⟩ := Option.map_eq_some_iff.mp run_draws
  obtain ⟨o, offers, hg, ho, -⟩ := List.map_eq_cons_iff.mp hoffers
  obtain ⟨hreference, hprices⟩ := Prod.mk.inj ho
  obtain ⟨l, listings, hl, hprice, -⟩ := List.map_eq_cons_iff.mp hprices
  have hbad := h draws g rest hrun o (hg ▸ List.mem_cons_self) l (hl ▸ List.mem_cons_self)
  rw [hreference, hprice] at hbad
  revert hbad
  unfold WithinVariance
  decide

end Sample

end Generator
