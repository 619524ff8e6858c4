import AgenticAttribution.Ingest.Documents
import AgenticAttribution.Search.Handler

/-!
# Search.Service — what a search finds

`internal/search/service.go`.  Which documents answer a query is OpenSearch's business; a hit carries the source of
a document of the index, and its offers are sorted, those in stock first and the cheapest of them at the head.
-/

namespace Search

open Ingest

/-- `Offer`. -/
structure Offer where
  listingID : Bytes
  merchantID : Bytes
  listingTitle : Bytes
  priceCents : ℤ
  inStock : Bool
  commissionBps : ℤ
  deepLinkURL : Bytes

/-- A `Product` with its offers. -/
structure Hit extends Product where
  canonicalTitle : Bytes
  offers : List Offer

/-- The offer under the same names in the source. -/
def Offer.ofSource (o : MerchantOffer) : Offer :=
  ⟨o.listingID, o.merchantID, o.listingTitle, o.priceCents, o.inStock, o.commissionBps, o.deepLinkURL⟩

variable {F : Type}

def Hit.ofSource (d : ProductDocument F) : Hit where
  productID := d.productID
  maxCommissionBps := d.maxCommissionBps
  canonicalTitle := d.canonicalTitle
  offers := d.offers.map Offer.ofSource

/-- The comparator of the sort. -/
def Offer.less (o o' : Offer) : Bool := if o.inStock ≠ o'.inStock then o.inStock else o.priceCents < o'.priceCents

/-- `sort.SliceStable`: an offer stays before the ones behind it that are not less. -/
def sortOffers (offers : List Offer) : List Offer := offers.mergeSort fun o o' => !o'.less o

/-- The product of a hit, with its offers sorted. -/
def hitOf (d : ProductDocument F) : Hit := { Hit.ofSource d with offers := sortOffers (Hit.ofSource d).offers }

/-- `Service.Search`, over the sources that OpenSearch answers with. -/
def search (sources : List (ProductDocument F)) : List Hit := sources.map hitOf

/-! ## The first offer -/

section Sorted

theorem Offer.notLess_iff {o o' : Offer} : (!o'.less o) = true ↔
    (o.inStock = true ∧ o'.inStock = false) ∨ (o.inStock = o'.inStock ∧ o.priceCents ≤ o'.priceCents) := by
  unfold Offer.less
  by_cases hs : o'.inStock = o.inStock
  · simp [hs]
  · cases ho : o.inStock <;> cases ho' : o'.inStock <;> simp_all

theorem perm_sortOffers (offers : List Offer) : (sortOffers offers).Perm offers := List.mergeSort_perm _ _

/-- Nothing is less than the first offer. -/
theorem head_sortOffers {offers rest : List Offer} {o : Offer} (h : sortOffers offers = o :: rest) :
    ∀ o' ∈ offers, (!o'.less o) = true := by
  have htrans : ∀ a b c : Offer, (!b.less a) = true → (!c.less b) = true → (!c.less a) = true := by
    intro a b c hab hbc
    rw [Offer.notLess_iff] at hab hbc ⊢
    rcases hab with ⟨h1, h2⟩ | ⟨h1, h2⟩ <;> rcases hbc with ⟨h3, h4⟩ | ⟨h3, h4⟩
    · rw [h2] at h3
      cases h3
    · exact Or.inl ⟨h1, by rw [← h3, h2]⟩
    · exact Or.inl ⟨by rw [h1, h3], h4⟩
    · exact Or.inr ⟨h1.trans h3, h2.trans h4⟩
  have htotal : ∀ a b : Offer, ((!b.less a) || (!a.less b)) = true := by
    intro a b
    rw [Bool.or_eq_true, Offer.notLess_iff, Offer.notLess_iff]
    cases ha : a.inStock <;> cases hb : b.inStock <;> simp <;> omega
  have hsorted := List.pairwise_mergeSort htrans htotal offers
  change (sortOffers offers).Pairwise _ at hsorted
  rw [h, List.pairwise_cons] at hsorted
  intro o' ho'
  have hmem : o' ∈ sortOffers offers := (perm_sortOffers offers).mem_iff.mpr ho'
  rw [h] at hmem
  rcases List.mem_cons.mp hmem with rfl | hmem
  · exact Offer.notLess_iff.mpr (Or.inr ⟨rfl, le_rfl⟩)
  · exact hsorted.1 o' hmem

/-- **The first offer is the cheapest in stock**, if any offer is in stock. -/
theorem cheapest_of_head {offers rest : List Offer} {o : Offer} (h : sortOffers offers = o :: rest) {o' : Offer}
    (ho' : o' ∈ offers) (hs : o'.inStock = true) : o.inStock = true ∧ o.priceCents ≤ o'.priceCents := by
  rcases Offer.notLess_iff.mp (head_sortOffers h o' ho') with ⟨hin, hout⟩ | ⟨heq, hle⟩
  · rw [hs] at hout
    cases hout
  · exact ⟨heq.trans hs, hle⟩

end Sorted

end Search
