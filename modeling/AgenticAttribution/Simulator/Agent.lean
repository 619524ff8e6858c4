import AgenticAttribution.Types.Http
import Mathlib.Data.Int.ConditionallyCompleteOrder
import Mathlib.Data.List.MinMax

/-!
# Simulator.Agent — the buying agent

`simulator/src/agent.ts`.  The agent takes the cheapest offer in stock out of a search response, among the products
that an assertion was minted for (`selectCheapestInStock`).  Its two loops amount to a minimum over one list
(`selectCheapestInStock_eq_argmin`).
-/

namespace Simulator

open Types

structure MerchantOffer where
  listing_id : List Char
  merchant_id : List Char
  price_cents : ℤ
  in_stock : Bool
  commission_bps : ℤ

structure ProductResult where
  product_id : List Char
  canonical_title : List Char
  offers : List MerchantOffer

structure SearchResponse where
  search_request_id : List Char
  products : List ProductResult
  assertions : List AttributionAssertion

structure Selection where
  product : ProductResult
  offer : MerchantOffer
  assertion : AttributionAssertion

/-- `byProduct.get(id)`, where of two assertions for one product the last is in the map. -/
def SearchResponse.byProduct (response : SearchResponse) (id : List Char) : Option AttributionAssertion :=
  response.assertions.reverse.find? fun a => Json.strictEq a.product_id (some (.str id))

/-- The body of the inner loop. -/
def takeCheaper (product : ProductResult) (assertion : AttributionAssertion) (best : Option Selection)
    (offer : MerchantOffer) : Option Selection :=
  if !offer.in_stock then best
  else
    match best with
    | none => some ⟨product, offer, assertion⟩
    | some b => if offer.price_cents < b.offer.price_cents then some ⟨product, offer, assertion⟩ else some b

/-- `selectCheapestInStock`. -/
def selectCheapestInStock (response : SearchResponse) : Option Selection :=
  response.products.foldl (fun best product =>
    match response.byProduct product.product_id with
    | none => best
    | some assertion => product.offers.foldl (takeCheaper product assertion) best) none

/-! ## The selection as a minimum -/

section Selection

variable {response : SearchResponse} {s : Selection}

/-- What the agent can select. -/
def SearchResponse.candidates (response : SearchResponse) : List Selection :=
  response.products.flatMap fun product =>
    match response.byProduct product.product_id with
    | none => []
    | some assertion => (product.offers.filter (·.in_stock)).map fun offer => ⟨product, offer, assertion⟩

theorem mem_candidates : s ∈ response.candidates ↔ s.product ∈ response.products ∧
    response.byProduct s.product.product_id = some s.assertion ∧ s.offer ∈ s.product.offers ∧
    s.offer.in_stock = true := by
  unfold SearchResponse.candidates
  rw [List.mem_flatMap]
  constructor
  · rintro ⟨product, hproduct, hs⟩
    cases hby : response.byProduct product.product_id with
    | none =>
      rw [hby] at hs
      cases hs
    | some assertion =>
      rw [hby] at hs
      obtain ⟨offer, hoffer, rfl⟩ := List.mem_map.mp hs
      obtain ⟨hmem, hstock⟩ := List.mem_filter.mp hoffer
      exact ⟨hproduct, hby, hmem, hstock⟩
  · rintro ⟨hproduct, hby, hmem, hstock⟩
    refine ⟨s.product, hproduct, ?_⟩
    rw [hby]
    exact List.mem_map.mpr ⟨s.offer, List.mem_filter.mpr ⟨hmem, hstock⟩, rfl⟩

/-- **The loops take a minimum.** -/
theorem selectCheapestInStock_eq_argmin (response : SearchResponse) :
    selectCheapestInStock response = response.candidates.argmin fun s => s.offer.price_cents := by
  -- `List.argmin` keeps the first of the least, as the strict comparison does
  unfold selectCheapestInStock List.argmin SearchResponse.candidates
  rw [List.foldl_flatMap]
  refine congrArg (fun f => List.foldl f none response.products) ?_
  funext best product
  cases response.byProduct product.product_id with
  | none => rfl
  | some assertion =>
    rw [List.foldl_map, List.foldl_filter]
    refine congrArg (fun f => List.foldl f best product.offers) ?_
    funext best offer
    unfold takeCheaper List.argAux
    cases offer.in_stock with
    | false => rfl
    | true =>
      cases best with
      | none => rfl
      | some b => rfl

/-- A selection is the cheapest of what could be selected. -/
theorem selected (h : selectCheapestInStock response = some s) :
    s ∈ response.candidates ∧ ∀ s' ∈ response.candidates, s.offer.price_cents ≤ s'.offer.price_cents := by
  rw [selectCheapestInStock_eq_argmin] at h
  exact ⟨List.argmin_mem h, fun s' hs' => List.le_of_mem_argmin (f := fun s : Selection => s.offer.price_cents) hs' h⟩

/-- Nothing is selected only where nothing could be. -/
theorem candidates_of_none (h : selectCheapestInStock response = none) : response.candidates = [] := by
  rw [selectCheapestInStock_eq_argmin] at h
  exact List.argmin_eq_none.mp h

end Selection

end Simulator
