import AgenticAttribution.Lib.Double
import AgenticAttribution.Merchant.Handler
import AgenticAttribution.Settlement.Schema

/-!
# Merchant.Catalog — the listing that a purchase is of

`merchant/src/catalog.ts`.  The query orders the listings of the product by stock and price and takes one; between
listings that are tied Postgres is free to choose.
-/

namespace Merchant

open Settlement (ListingRow)

/-- A text of the database as a string of JavaScript. -/
def textOf (bs : Bytes) : List Char := (Utf8.decode bs).map fun c => c.getD '\uFFFD'

theorem encode_textOf {bs : Bytes} (h : Utf8.valid bs = true) : Utf8.encode (textOf bs) = bs := by
  obtain ⟨cs, rfl⟩ := Utf8.valid_iff.mp h
  unfold textOf
  rw [Utf8.decode_encode, List.map_map]
  exact congrArg Utf8.encode (List.map_id cs)

/-- `ORDER BY in_stock DESC, price_cents ASC`: the first row stands before the second. -/
def before (l l' : ListingRow) : Bool := if l.inStock ≠ l'.inStock then l.inStock else l.priceCents < l'.priceCents

/-- `WHERE product_id = $1`, and `AND merchant_id = $2` for a merchant that is configured. -/
def selected (listings : List ListingRow) (merchantId productId : List Char) : List ListingRow :=
  listings.filter fun l =>
    l.productID = Utf8.encode productId && (merchantId.isEmpty || l.merchantID = Utf8.encode merchantId)

/-- `Catalog.findListing`, over the titles of the listings; `pick` is the choice among the rows that can be first. -/
def findListing (titles : ListingRow → List Char) (listings : List ListingRow) (merchantId productId : List Char)
    (pick : ℕ) : Option Listing :=
  let rows := selected listings merchantId productId
  let first := rows.filter fun l => rows.all fun l' => !before l' l
  first[pick % first.length]?.map fun row =>
    { productId := textOf row.productID
      merchantId := textOf row.merchantID
      listingTitle := titles row
      priceCents := Double.round row.priceCents
      currency := textOf row.currency
      inStock := row.inStock }

section First

/-- The row as the merchant reads it. -/
def readRow (titles : ListingRow → List Char) (row : ListingRow) : Listing :=
  { productId := textOf row.productID
    merchantId := textOf row.merchantID
    listingTitle := titles row
    priceCents := Double.round row.priceCents
    currency := textOf row.currency
    inStock := row.inStock }

variable {titles : ListingRow → List Char} {listings : List ListingRow} {merchantId productId : List Char} {pick : ℕ}
  {l : ListingRow}

/-- Some row stands before all others. -/
theorem exists_first {rows : List ListingRow} (h : rows ≠ []) : ∃ b ∈ rows, ∀ l' ∈ rows, before l' b = false := by
  have htrans : ∀ a b c : ListingRow, before a b = false → before b c = false → before a c = false := by
    intro a b c hab hbc
    unfold before at hab hbc ⊢
    cases ha : a.inStock <;> cases hb : b.inStock <;> cases hc : c.inStock <;> simp_all <;> omega
  have htotal : ∀ a b : ListingRow, before a b = false ∨ before b a = false := by
    intro a b
    unfold before
    cases ha : a.inStock <;> cases hb : b.inStock <;> simp <;> omega
  induction rows with
  | nil => exact absurd rfl h
  | cons r rows ih =>
    cases rows with
    | nil =>
      refine ⟨r, List.mem_cons_self, fun l' hl' => ?_⟩
      rw [List.mem_singleton.mp hl']
      exact (htotal r r).elim id id
    | cons r' rows =>
      obtain ⟨b, hb, hfirst⟩ := ih (List.cons_ne_nil r' rows)
      rcases htotal r b with hle | hle
      · refine ⟨b, List.mem_cons_of_mem r hb, fun l' hl' => ?_⟩
        rcases List.mem_cons.mp hl' with rfl | hl'
        · exact hle
        · exact hfirst l' hl'
      · refine ⟨r, List.mem_cons_self, fun l' hl' => ?_⟩
        rcases List.mem_cons.mp hl' with rfl | hl'
        · exact (htotal l' l').elim id id
        · exact htrans l' b r (hfirst l' hl') hle

/-- **What can be found**: a row that no other row stands before. -/
theorem findListing_iff {L : Listing} : (∃ pick, findListing titles listings merchantId productId pick = some L) ↔
    ∃ row ∈ selected listings merchantId productId,
      (∀ l' ∈ selected listings merchantId productId, before l' row = false) ∧ readRow titles row = L := by
  set rows := selected listings merchantId productId with hrows
  set first := rows.filter fun l => rows.all fun l' => !before l' l with hfirst
  have hmem : ∀ row, row ∈ first ↔ row ∈ rows ∧ ∀ l' ∈ rows, before l' row = false := by
    intro row
    simp [hfirst, List.mem_filter]
  constructor
  · rintro ⟨pick, h⟩
    obtain ⟨row, hget, hL⟩ := Option.map_eq_some_iff.mp h
    obtain ⟨hrow, hall⟩ := (hmem row).mp (List.mem_of_getElem? hget)
    exact ⟨row, hrow, hall, hL⟩
  · rintro ⟨row, hrow, hall, hL⟩
    obtain ⟨i, hi, hget⟩ := List.mem_iff_getElem.mp ((hmem row).mpr ⟨hrow, hall⟩)
    refine ⟨i, Option.map_eq_some_iff.mpr ⟨row, ?_, hL⟩⟩
    show first[i % first.length]? = some row
    rw [Nat.mod_eq_of_lt hi, List.getElem?_eq_getElem hi, hget]

/-- **The listing found is the cheapest in stock**, if the product has a listing in stock. -/
theorem findListing_of_stock (titles : ListingRow → List Char) (pick : ℕ)
    (hl : l ∈ selected listings merchantId productId) (hstock : l.inStock = true) :
    ∃ row ∈ selected listings merchantId productId, row.inStock = true ∧
      (∀ l' ∈ selected listings merchantId productId, l'.inStock = true → row.priceCents ≤ l'.priceCents) ∧
      findListing titles listings merchantId productId pick = some
        { productId := textOf row.productID
          merchantId := textOf row.merchantID
          listingTitle := titles row
          priceCents := Double.round row.priceCents
          currency := textOf row.currency
          inStock := true } := by
  set rows := selected listings merchantId productId with hrows
  set first := rows.filter fun l => rows.all fun l' => !before l' l with hfirst
  obtain ⟨b, hb, hbest⟩ := exists_first (List.ne_nil_of_mem hl)
  have hne : first ≠ [] := by
    refine List.ne_nil_of_mem (a := b) (List.mem_filter.mpr ⟨hb, ?_⟩)
    rw [List.all_eq_true]
    intro l' hl'
    rw [hbest l' hl']
    rfl
  have hlt : pick % first.length < first.length := Nat.mod_lt _ (List.length_pos_iff.mpr hne)
  have hget : first[pick % first.length]? = some first[pick % first.length] := List.getElem?_eq_getElem hlt
  have hmem : first[pick % first.length] ∈ first := List.getElem_mem hlt
  generalize first[pick % first.length] = row at hget hmem
  obtain ⟨hrow, hall⟩ := List.mem_filter.mp hmem
  rw [List.all_eq_true] at hall
  -- a row in stock does not stand before it, so it is in stock as well and no dearer
  have hbefore : ∀ l' ∈ rows, l'.inStock = true → row.inStock = true ∧ row.priceCents ≤ l'.priceCents := by
    intro l' hl' hs
    have hnot : before l' row = false := by simpa using hall l' hl'
    unfold before at hnot
    cases hr : row.inStock <;> simp_all
  have hin : row.inStock = true := (hbefore l hl hstock).1
  refine ⟨row, hrow, hin, fun l' hl' hs => (hbefore l' hl' hs).2, ?_⟩
  show first[pick % first.length]?.map _ = _
  rw [hget, Option.map_some, hin]

end First

end Merchant
