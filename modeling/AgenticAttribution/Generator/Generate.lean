import AgenticAttribution.Generator.Csv
import AgenticAttribution.Generator.Vocab
import AgenticAttribution.Lib.Draws
import AgenticAttribution.Lib.GoQuote
import Mathlib.Data.List.Nodup

/-!
# Generator.Generate — the synthetic catalogue

`internal/generator/generate.go`, over any source of draws.  Products are offered by a random subset of the merchants
(`pickMerchants`, by rejection), each at a price around one reference price.  The reference prices are drawn and
forgotten; here they are kept beside the catalogue.
-/

namespace Generator

open Draws Digits

def MinMerchantsPerProduct : ℕ := 3
def MaxMerchantsPerProduct : ℕ := 8

def MinPriceCents : ℕ := 1499
def MaxPriceCents : ℕ := 89999

def PriceVarianceBps : ℕ := 1800

def MinCommissionBps : ℕ := 150
def MaxCommissionBps : ℕ := 1200

def OutOfStockOdds : ℕ := 12

/-- The seed is left out: it makes the draws. -/
structure Config where
  CanonicalProducts : ℕ
  MerchantCount : ℕ
  PublisherCount : ℕ

/-! ## Texts -/

section Texts

/-- `fmt.Sprintf`, with `%s` only. -/
def sprintf : List Char → List Bytes → Bytes
  | '%' :: 's' :: template, arg :: args => arg ++ sprintf template args
  | c :: template, args => Utf8.encode [c] ++ sprintf template args
  | [], _ => []

/-- `strings.ToLower` of an ASCII text. -/
def toLower (s : Bytes) : Bytes := s.map fun b => if 0x41 ≤ b ∧ b ≤ 0x5a then b + 0x20 else b

/-- `strings.ToUpper` of an ASCII text. -/
def toUpper (s : Bytes) : Bytes := s.map fun b => if 0x61 ≤ b ∧ b ≤ 0x7a then b - 0x20 else b

def isBlank (b : UInt8) : Bool := b = 0x20 || (0x09 ≤ b && b ≤ 0x0d)

/-- `strings.TrimSpace` of an ASCII text. -/
def trimSpace (s : Bytes) : Bytes := ((s.dropWhile isBlank).reverse.dropWhile isBlank).reverse

def trimPrefix (s lead : Bytes) : Bytes := if lead.isPrefixOf s then s.drop lead.length else s

/-- A prefix and a number that is padded with zeros. -/
def identifier (lead : String) (width i : ℕ) : Bytes := Utf8.str lead ++ Utf8.encode (padNat width i)

end Texts

/-! ## The catalogue -/

section Generate

variable (t : GoQuote.PrintTable)

def buildMerchant (i : ℕ) : Draws Merchant := do
  let lead ← pick merchantPrefixes
  let suffix ← pick merchantSuffixes
  let commission ← intn (MaxCommissionBps - MinCommissionBps)
  let holdPeriodDays ← pick [30, 45, 60]
  let reversalWindowDays ← pick [60, 90, 120]
  return {
    merchantID := identifier "mer_" 6 i
    name := sprintf "%s %s".toList [Utf8.str lead, Utf8.str suffix]
    defaultCommissionBps := Int64.ofNat (MinCommissionBps + commission)
    holdPeriodDays := Int64.ofNat holdPeriodDays
    reversalWindowDays := Int64.ofNat reversalWindowDays }

def buildMerchants (count : ℕ) : Draws (List Merchant) := each buildMerchant (List.range count)

def publisherName (i : ℕ) : Bytes :=
  let name := Utf8.str (publisherNames.getD (i % publisherNames.length) "")
  if i ≥ publisherNames.length then
    sprintf "%s %s".toList [name, Utf8.encode (natChars (i / publisherNames.length + 1))]
  else name

def buildPublishers (count : ℕ) : List Publisher :=
  (List.range count).map fun i => ⟨identifier "pub_" 6 i, publisherName i, Utf8.str "USD"⟩

def buildDescription (productType modifier unit color : Bytes) : Bytes :=
  sprintf ("The %s %s delivers %s performance in a %s finish. Rated at %s. " ++
      "Designed for daily use with a two-year warranty.").toList
    [modifier, productType, toLower modifier, toLower color, unit]

/-- An object, with `%q` for its values. -/
def buildAttributes (modifier unit color : Bytes) : Bytes :=
  Utf8.encode ("\x7b\"color\":".toList ++ GoQuote.quote t color ++ ",\"spec\":".toList ++ GoQuote.quote t unit ++
    ",\"feature\":".toList ++ GoQuote.quote t modifier ++ "\x7d".toList)

def buildProduct (i : ℕ) : Draws Product := do
  let cat ← pick categories
  let brand ← pick brands
  let productType ← pick cat.types
  let modifier ← pick cat.modifiers
  let unit ← pick cat.units
  let color ← pick colors
  return {
    productID := identifier "prd_" 8 i
    canonicalTitle := sprintf "%s %s %s %s %s".toList
      [Utf8.str brand, Utf8.str modifier, Utf8.str productType, Utf8.str unit, Utf8.str color]
    brand := Utf8.str brand
    categoryID := Utf8.str cat.id
    description := buildDescription (Utf8.str productType) (Utf8.str modifier) (Utf8.str unit) (Utf8.str color)
    attributesJSON := buildAttributes t (Utf8.str modifier) (Utf8.str unit) (Utf8.str color) }

def buildProducts (count : ℕ) : Draws (List Product) := each (buildProduct t) (List.range count)

/-- The body of the loop in `pickMerchants`. -/
def choose (chosen : List ℕ) (idx : ℕ) : List ℕ := if idx ∈ chosen then chosen else chosen ++ [idx]

def pickMerchants (merchants : List Merchant) (want : ℕ) : Draws (List Merchant) :=
  if want ≥ merchants.length then pure merchants
  else do
    let chosen ← drawWhile (fun chosen => decide (chosen.length < want)) merchants.length choose []
    return chosen.filterMap fun idx => merchants[idx]?

def varyPrice (reference : ℤ) : Draws ℤ := do
  let draw ← intn (PriceVarianceBps * 2)
  let swing := reference * draw / 10000
  let adjusted := reference - reference * PriceVarianceBps / 10000 + swing
  return if adjusted < MinPriceCents then MinPriceCents else adjusted

def varyCommission (base : ℤ) : Draws ℤ := do
  let draw ← intn 200
  let swing : ℤ := draw - 100
  let adjusted := base + swing
  return if adjusted < MinCommissionBps then MinCommissionBps
    else if adjusted > MaxCommissionBps then MaxCommissionBps
    else adjusted

def driftTitle (brand canonicalTitle : Bytes) : Draws Bytes := do
  let template ← pick titleDriftTemplates
  let withoutBrand := trimSpace (trimPrefix canonicalTitle brand)
  return sprintf template.toList [brand, withoutBrand]

def merchantSKU (merchantID productID : Bytes) : Bytes :=
  sprintf "%s-%s".toList [toUpper (merchantID.drop 4), productID.drop 4]

/-- The body of the inner loop in `buildListings`. -/
def buildListing (p : Product) (reference : ℤ) (m : Merchant) (listingSeq : ℕ) : Draws Listing := do
  let listingTitle ← driftTitle p.brand p.canonicalTitle
  let priceCents ← varyPrice reference
  let stock ← intn OutOfStockOdds
  let commissionBps ← varyCommission m.defaultCommissionBps.toInt
  return {
    listingID := identifier "lst_" 10 listingSeq
    productID := p.productID
    merchantID := m.merchantID
    merchantSKU := merchantSKU m.merchantID p.productID
    listingTitle := listingTitle
    priceCents := Int64.ofInt priceCents
    currency := Utf8.str "USD"
    inStock := stock ≠ 0
    commissionBps := Int64.ofInt commissionBps
    deepLinkURL := sprintf "https://%s.example/p/%s".toList [m.merchantID, p.productID] }

/-- The offers of one product, with its reference price. -/
structure Offers where
  reference : ℤ
  listings : List Listing

/-- The body of the outer loop in `buildListings`. -/
def buildOffers (merchants : List Merchant) (listingSeq : ℕ) (p : Product) : Draws Offers := do
  let extra ← intn (MaxMerchantsPerProduct - MinMerchantsPerProduct + 1)
  let above ← intn (MaxPriceCents - MinPriceCents)
  let reference : ℤ := MinPriceCents + above
  let picked ← pickMerchants merchants (MinMerchantsPerProduct + extra)
  let listings ← each (fun m => buildListing p reference m.1 m.2) (picked.zipIdx listingSeq)
  return ⟨reference, listings⟩

/-- `buildListings`, product by product. -/
def buildListings (merchants : List Merchant) (listingSeq : ℕ) : List Product → Draws (List Offers)
  | [] => pure []
  | p :: products => do
    let offers ← buildOffers merchants listingSeq p
    let rest ← buildListings merchants (listingSeq + offers.listings.length) products
    return offers :: rest

/-- A catalogue with the offers that its listings are from. -/
structure Generated where
  catalog : Catalog
  offers : List Offers

def generate (cfg : Config) : Draws Generated := do
  let merchants ← buildMerchants cfg.MerchantCount
  let publishers := buildPublishers cfg.PublisherCount
  let products ← buildProducts t cfg.CanonicalProducts
  let offers ← buildListings merchants 0 products
  return ⟨⟨merchants, publishers, products, offers.flatMap (·.listings)⟩, offers⟩

end Generate

/-! ## Identifiers -/

section Identifiers

theorem identifier_injective (lead : String) (width : ℕ) : Function.Injective (identifier lead width) := by
  intro i j h
  have hdigits : padNat width i = padNat width j := Utf8.encode_injective (List.append_cancel_left h)
  rw [← ofDigitChars_padNat width i, hdigits, ofDigitChars_padNat]

/-- The number stands behind the four bytes that are cut off. -/
theorem drop_identifier {lead : String} (h : (Utf8.str lead).length = 4) (width i : ℕ) :
    (identifier lead width i).drop 4 = Utf8.encode (padNat width i) := by
  rw [identifier, ← h, List.drop_left]

theorem nodup_identifiers (lead : String) (width n : ℕ) : ((List.range n).map (identifier lead width)).Nodup :=
  List.nodup_range.map (identifier_injective lead width)

end Identifiers

/-! ## Prices and rates -/

section Swings

/-- Around the reference price by the variance, and above it by less than a cent more. -/
def Near (reference price : ℤ) : Prop :=
  (reference - price) * 10000 ≤ PriceVarianceBps * reference ∧
    (price - reference) * 10000 < PriceVarianceBps * reference + 10000

/-- At the floor, or near the reference price. -/
def Priced (reference price : ℤ) : Prop :=
  MinPriceCents ≤ price ∧ (price = MinPriceCents ∨ Near reference price)

def Rated (rate : ℤ) : Prop := MinCommissionBps ≤ rate ∧ rate ≤ MaxCommissionBps

theorem yields_varyPrice {reference : ℤ} (h : 0 ≤ reference) : Yields (varyPrice reference) fun price =>
    Priced reference price := by
  refine yields_bind (yields_intn _) fun draw hdraw => yields_pure ?_
  have hnonneg : 0 ≤ reference * draw := Int.mul_nonneg h (Int.natCast_nonneg draw)
  have hless : reference * draw ≤ reference * 3599 := by
    refine Int.mul_le_mul_of_nonneg_left ?_ h
    have hbound : draw < 3600 := hdraw
    omega
  unfold Priced Near MinPriceCents PriceVarianceBps
  generalize reference * (draw : ℤ) = swing at hnonneg hless
  split_ifs <;> omega

theorem yields_varyCommission (base : ℤ) : Yields (varyCommission base) Rated := by
  refine yields_bind (yields_intn _) fun draw _ => yields_pure ?_
  unfold Rated MinCommissionBps MaxCommissionBps
  split_ifs <;> omega

end Swings

/-! ## Merchants and products -/

section Rows

structure MerchantOf (i : ℕ) (m : Merchant) : Prop where
  id : m.merchantID = identifier "mer_" 6 i
  rate : Rated m.defaultCommissionBps.toInt
  hold : 0 ≤ m.holdPeriodDays.toInt
  reversal : 0 ≤ m.reversalWindowDays.toInt

theorem yields_buildMerchant (i : ℕ) : Yields (buildMerchant i) (MerchantOf i) := by
  refine yields_bind (yields_pick _) fun lead _ => yields_bind (yields_pick _) fun suffix _ => ?_
  refine yields_bind (yields_intn _) fun commission hcommission => ?_
  refine yields_bind (yields_pick _) fun hold hhold => yields_bind (yields_pick _) fun reversal hreversal => ?_
  have hrate : (Int64.ofNat (MinCommissionBps + commission)).toInt = (MinCommissionBps + commission : ℕ) :=
    Int64.toInt_ofNat_of_lt (by unfold MinCommissionBps MaxCommissionBps at *; omega)
  have hdays : ∀ days ∈ [30, 45, 60] ++ [60, 90, 120], 0 ≤ (Int64.ofNat days).toInt := by decide
  refine yields_pure ⟨rfl, ?_, hdays _ (List.mem_append_left _ hhold), hdays _ (List.mem_append_right _ hreversal)⟩
  dsimp only
  unfold Rated MinCommissionBps MaxCommissionBps at *
  omega

theorem yields_buildMerchants (count : ℕ) : Yields (buildMerchants count)
    (List.Forall₂ MerchantOf (List.range count)) :=
  yields_each fun i _ => yields_buildMerchant i

theorem yields_buildProduct (t : GoQuote.PrintTable) (i : ℕ) : Yields (buildProduct t i) fun p =>
    p.productID = identifier "prd_" 8 i := by
  refine yields_bind (yields_pick _) fun cat _ => yields_bind (yields_pick _) fun brand _ => ?_
  refine yields_bind (yields_pick _) fun productType _ => yields_bind (yields_pick _) fun modifier _ => ?_
  exact yields_bind (yields_pick _) fun unit _ => yields_bind (yields_pick _) fun color _ => yields_pure rfl

theorem yields_buildProducts (t : GoQuote.PrintTable) (count : ℕ) : Yields (buildProducts t count) fun products =>
    products.map (·.productID) = (List.range count).map (identifier "prd_" 8) :=
  (yields_each fun i _ => yields_buildProduct t i).mono fun _ h => map_of_forall₂ (fun _ _ hp => hp) h

end Rows

/-! ## The subset of the merchants -/

section Picked

variable {merchants : List Merchant} {n : ℕ}

theorem yields_chosen {n want : ℕ} (h : want < n) :
    Yields (drawWhile (fun chosen => decide (chosen.length < want)) n choose []) fun chosen =>
      chosen.Nodup ∧ (∀ i ∈ chosen, i < n) ∧ chosen.length = want := by
  have hloop : Yields (drawWhile (fun chosen => decide (chosen.length < want)) n choose []) fun chosen =>
      (chosen.Nodup ∧ (∀ i ∈ chosen, i < n) ∧ chosen.length ≤ want) ∧ decide (chosen.length < want) = false := by
    refine yields_drawWhile (Nat.zero_lt_of_lt h) ?_ ⟨List.nodup_nil, List.forall_mem_nil _, Nat.zero_le want⟩
    rintro chosen idx ⟨hnodup, hless, -⟩ hmore hidx
    have hroom : chosen.length < want := of_decide_eq_true hmore
    unfold choose
    split_ifs with hseen
    · exact ⟨hnodup, hless, hroom.le⟩
    · refine ⟨?_, fun i hi => ?_, ?_⟩
      · exact List.nodup_append.mpr ⟨hnodup, List.nodup_singleton idx, fun i hi j hj => by
          rw [List.mem_singleton.mp hj]
          exact fun he => hseen (he ▸ hi)⟩
      · rcases List.mem_append.mp hi with hi | hi
        · exact hless i hi
        · rw [List.mem_singleton.mp hi]
          exact hidx
      · rw [List.length_append, List.length_singleton]
        exact hroom
  refine hloop.mono fun chosen hchosen => ?_
  obtain ⟨⟨hnodup, hless, hle⟩, hdone⟩ := hchosen
  exact ⟨hnodup, hless, Nat.le_antisymm hle (Nat.le_of_not_lt (of_decide_eq_false hdone))⟩

theorem map_chosen (hids : merchants.map (·.merchantID) = (List.range n).map (identifier "mer_" 6)) :
    ∀ {chosen : List ℕ}, (∀ i ∈ chosen, i < n) →
      (chosen.filterMap fun idx => merchants[idx]?).map (·.merchantID) = chosen.map (identifier "mer_" 6)
  | [], _ => rfl
  | i :: chosen, h => by
    have hi : (merchants.map (·.merchantID))[i]? = some (identifier "mer_" 6 i) := by
      rw [hids, List.getElem?_map, List.getElem?_range (h i List.mem_cons_self)]
      rfl
    rw [List.getElem?_map] at hi
    obtain ⟨m, hm, hid⟩ := Option.map_eq_some_iff.mp hi
    rw [List.filterMap_cons_some hm, List.map_cons, List.map_cons, hid]
    exact congrArg _ (map_chosen hids fun j hj => h j (List.mem_cons_of_mem _ hj))

/-- **A product is offered by that many merchants, none of them twice.** -/
theorem yields_pickMerchants (hids : merchants.map (·.merchantID) = (List.range n).map (identifier "mer_" 6))
    (want : ℕ) : Yields (pickMerchants merchants want) fun picked =>
      (picked.map (·.merchantID)).Nodup ∧ picked.length = min want n ∧ ∀ m ∈ picked, m ∈ merchants := by
  have hlen : merchants.length = n := by
    have hlen := congrArg List.length hids
    rwa [List.length_map, List.length_map, List.length_range] at hlen
  unfold pickMerchants
  split_ifs with hall
  · refine yields_pure ⟨hids ▸ nodup_identifiers _ _ _, ?_, fun m hm => hm⟩
    omega
  · rw [hlen] at hall ⊢
    refine yields_bind (yields_chosen (Nat.lt_of_not_le hall)) fun chosen hchosen => yields_pure ?_
    obtain ⟨hnodup, hless, hcount⟩ := hchosen
    have hmap := map_chosen hids hless
    refine ⟨?_, ?_, fun m hm => ?_⟩
    · rw [hmap]
      exact hnodup.map (identifier_injective _ _)
    · have hlength := congrArg List.length hmap
      rw [List.length_map, List.length_map] at hlength
      omega
    · obtain ⟨i, -, hi⟩ := List.mem_filterMap.mp hm
      exact List.mem_of_getElem? hi

end Picked

/-! ## Listings -/

section Listings

variable {p : Product} {reference : ℤ} {merchants : List Merchant} {n : ℕ}

structure ListingOf (p : Product) (reference : ℤ) (m : Merchant × ℕ) (l : Listing) : Prop where
  id : l.listingID = identifier "lst_" 10 m.2
  product : l.productID = p.productID
  merchant : l.merchantID = m.1.merchantID
  sku : l.merchantSKU = merchantSKU l.merchantID l.productID
  price : Priced reference l.priceCents.toInt
  rate : Rated l.commissionBps.toInt

theorem yields_buildListing (h : 0 ≤ reference) (hless : reference < MaxPriceCents) (m : Merchant × ℕ) :
    Yields (buildListing p reference m.1 m.2) (ListingOf p reference m) := by
  refine yields_bind (P := fun _ => True) (fun _ _ _ _ => trivial) fun title _ => ?_
  refine yields_bind (yields_varyPrice h) fun price hprice => yields_bind (yields_intn _) fun stock _ => ?_
  refine yields_bind (yields_varyCommission _) fun rate hrate => yields_pure ?_
  have hpriceInt : (Int64.ofInt price).toInt = price := by
    unfold Priced Near MinPriceCents PriceVarianceBps at hprice
    unfold MaxPriceCents at hless
    exact Int64.toInt_ofInt_of_le (by omega) (by omega)
  have hrateInt : (Int64.ofInt rate).toInt = rate := by
    unfold Rated MinCommissionBps MaxCommissionBps at hrate
    exact Int64.toInt_ofInt_of_le (by omega) (by omega)
  refine ⟨rfl, rfl, rfl, rfl, ?_, ?_⟩
  · dsimp only
    rwa [hpriceInt]
  · dsimp only
    rwa [hrateInt]

/-- **The offers of one product.** -/
structure OffersOf (merchants : List Merchant) (p : Product) (o : Offers) : Prop where
  reference : MinPriceCents ≤ o.reference ∧ o.reference < MaxPriceCents
  count : ∃ k, MinMerchantsPerProduct ≤ k ∧ k ≤ MaxMerchantsPerProduct ∧
    o.listings.length = min k merchants.length
  distinct : (o.listings.map (·.merchantID)).Nodup
  product : ∀ l ∈ o.listings, l.productID = p.productID
  merchant : ∀ l ∈ o.listings, l.merchantID ∈ merchants.map (·.merchantID)
  sku : ∀ l ∈ o.listings, l.merchantSKU = merchantSKU l.merchantID l.productID
  price : ∀ l ∈ o.listings, Priced o.reference l.priceCents.toInt
  rate : ∀ l ∈ o.listings, Rated l.commissionBps.toInt

/-- The identifiers that are given out from a number on. -/
def listingIDs (listingSeq count : ℕ) : List Bytes := (List.range' listingSeq count).map (identifier "lst_" 10)

section Picked

variable {picked : List Merchant} {listingSeq : ℕ} {listings : List Listing}

theorem merchants_of_listings (h : List.Forall₂ (ListingOf p reference) (picked.zipIdx listingSeq) listings) :
    listings.map (·.merchantID) = picked.map (·.merchantID) :=
  calc listings.map (·.merchantID)
    _ = (picked.zipIdx listingSeq).map fun m => m.1.merchantID := map_of_forall₂ (fun _ _ hl => hl.merchant) h
    _ = ((picked.zipIdx listingSeq).map Prod.fst).map (·.merchantID) := List.map_map.symm
    _ = picked.map (·.merchantID) := by rw [List.zipIdx_map_fst]

theorem ids_of_listings (h : List.Forall₂ (ListingOf p reference) (picked.zipIdx listingSeq) listings) :
    listings.map (·.listingID) = listingIDs listingSeq picked.length :=
  calc listings.map (·.listingID)
    _ = (picked.zipIdx listingSeq).map fun m => identifier "lst_" 10 m.2 := map_of_forall₂ (fun _ _ hl => hl.id) h
    _ = ((picked.zipIdx listingSeq).map Prod.snd).map (identifier "lst_" 10) := by
      rw [List.map_map]
      rfl
    _ = listingIDs listingSeq picked.length := by rw [List.zipIdx_map_snd, listingIDs]

theorem listingOf_of_mem (h : List.Forall₂ (ListingOf p reference) (picked.zipIdx listingSeq) listings) {l : Listing}
    (hl : l ∈ listings) : ∃ m ∈ picked, ∃ i, ListingOf p reference (m, i) l := by
  obtain ⟨m, hm, hof⟩ := mem_of_forall₂ h hl
  exact ⟨m.1, (List.mem_zipIdx hm).2.2 ▸ List.getElem_mem _, m.2, hof⟩

end Picked

theorem yields_buildOffers (hids : merchants.map (·.merchantID) = (List.range n).map (identifier "mer_" 6))
    (listingSeq : ℕ) (p : Product) : Yields (buildOffers merchants listingSeq p) fun o =>
      OffersOf merchants p o ∧ o.listings.map (·.listingID) = listingIDs listingSeq o.listings.length := by
  refine yields_bind (yields_intn _) fun extra hextra => yields_bind (yields_intn _) fun above habove => ?_
  refine yields_bind (yields_pickMerchants hids _) fun picked hpicked => ?_
  obtain ⟨hdistinct, hcount, hmem⟩ := hpicked
  have hless : (MinPriceCents : ℤ) + above < MaxPriceCents := by
    unfold MinPriceCents MaxPriceCents at *
    omega
  have hnonneg : (0 : ℤ) ≤ MinPriceCents + above := by omega
  refine yields_bind (yields_each fun m _ => yields_buildListing hnonneg hless m) fun listings hall => ?_
  have hmerchants := merchants_of_listings hall
  have hlength := congrArg List.length hmerchants
  rw [List.length_map, List.length_map] at hlength
  have hlen := congrArg List.length hids
  rw [List.length_map, List.length_map, List.length_range] at hlen
  have hof := fun l (hl : l ∈ listings) => listingOf_of_mem hall hl
  refine yields_pure ⟨?_, hlength ▸ ids_of_listings hall⟩
  exact {
    reference := ⟨by dsimp only; omega, hless⟩
    count := by
      refine ⟨MinMerchantsPerProduct + extra, by omega, ?_, by dsimp only; omega⟩
      unfold MinMerchantsPerProduct MaxMerchantsPerProduct at *
      omega
    distinct := hmerchants ▸ hdistinct
    product l hl := by
      obtain ⟨m, hm, i, h⟩ := hof l hl
      exact h.product
    merchant l hl := by
      obtain ⟨m, hm, i, h⟩ := hof l hl
      rw [h.merchant]
      exact List.mem_map_of_mem (hmem m hm)
    sku l hl := by
      obtain ⟨m, hm, i, h⟩ := hof l hl
      exact h.sku
    price l hl := by
      obtain ⟨m, hm, i, h⟩ := hof l hl
      exact h.price
    rate l hl := by
      obtain ⟨m, hm, i, h⟩ := hof l hl
      exact h.rate }

theorem yields_buildListings (hids : merchants.map (·.merchantID) = (List.range n).map (identifier "mer_" 6)) :
    ∀ (products : List Product) (listingSeq : ℕ), Yields (buildListings merchants listingSeq products) fun offers =>
      List.Forall₂ (OffersOf merchants) products offers ∧
        (offers.flatMap (·.listings)).map (·.listingID)
          = listingIDs listingSeq (offers.flatMap (·.listings)).length
  | [], _ => yields_pure ⟨.nil, rfl⟩
  | p :: products, listingSeq => by
    refine yields_bind (yields_buildOffers hids listingSeq p) fun o ho => ?_
    refine yields_bind (yields_buildListings hids products _) fun rest hrest => yields_pure ?_
    refine ⟨.cons ho.1 hrest.1, ?_⟩
    rw [List.flatMap_cons, List.map_append, ho.2, hrest.2, List.length_append, listingIDs, listingIDs, listingIDs,
      ← List.map_append, List.range'_append_1]

end Listings

end Generator
