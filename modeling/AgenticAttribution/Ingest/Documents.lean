import AgenticAttribution.Lib.Fallible
import AgenticAttribution.Lib.GoError
import AgenticAttribution.Settlement.Schema

/-!
# Ingest.Documents — product documents out of the catalog

`internal/ingest/documents.go`.  The rows of the document query arrive one by one, ordered by product; `Stream`
groups them as they come, and hands each batch of documents to `emit`, which acts on a world of its own.  `assemble`
is the grouping without the batches, and `stream_eq_ok` says that the batches are what it gives, cut up.

`assembled` is what the grouping comes to when the rows are in order: one document for each product, out of all of
its rows.
-/

namespace Ingest

open Fallible Settlement

/-- The sentinel errors of the package. -/
inductive Sentinel where
  | bulkRejected
  deriving DecidableEq

abbrev Err := GoError Sentinel

/-! ## The rows -/

/-- A row of `products`, with what `json.Unmarshal` makes of its attributes. -/
structure ProductRow where
  productID : Bytes
  canonicalTitle : Bytes
  description : Bytes
  brand : Bytes
  categoryID : Bytes
  attributes : Except Err (List (Bytes × Bytes))

/-- A row of the document query. -/
structure Row where
  product : ProductRow
  listing : ListingRow
  listingTitle : Bytes
  deepLinkURL : Bytes

/-- The order of texts in the database; only equal texts are tied. -/
structure Collation where
  le : Bytes → Bytes → Prop
  total : ∀ a b, le a b ∨ le b a
  antisymm : ∀ a b, le a b → le b a → a = b

/-- The order of the bytes. -/
def Collation.bytewise : Collation := ⟨fun a b => a ≤ b, Std.Total.total, fun _ _ => List.le_antisymm⟩

/-- `SELECT … FROM products p JOIN listings l ON l.product_id = p.product_id ORDER BY p.product_id`: each listing
with its product, in the order of the products and otherwise in any. -/
structure DocumentQuery (collation : Collation) (catalog : Catalog) (rows : List Row) : Prop where
  listings : (rows.map (·.listing)).Perm catalog.listings
  joined : ∀ r ∈ rows, r.product.productID = r.listing.productID
  ordered : rows.Pairwise fun r r' => collation.le r.product.productID r'.product.productID

/-! ## The documents -/

structure MerchantOffer where
  listingID : Bytes
  merchantID : Bytes
  listingTitle : Bytes
  priceCents : ℤ
  inStock : Bool
  commissionBps : ℤ
  deepLinkURL : Bytes

/-- A document, with vectors over `F`. -/
structure ProductDocument (F : Type) where
  productID : Bytes
  canonicalTitle : Bytes
  description : Bytes
  brand : Bytes
  categoryID : Bytes
  attributes : List (Bytes × Bytes)
  embeddingSource : Bytes
  embedding : List F
  offerCount : ℕ
  minPriceCents : ℤ
  maxPriceCents : ℤ
  maxCommissionBps : ℤ
  inStockAnywhere : Bool
  merchantIDs : List Bytes
  offers : List MerchantOffer
  indexedAt : Bytes

variable {F : Type}

def Row.offer (r : Row) : MerchantOffer where
  listingID := r.listing.listingID
  merchantID := r.listing.merchantID
  listingTitle := r.listingTitle
  priceCents := r.listing.priceCents
  inStock := r.listing.inStock
  commissionBps := r.listing.commissionBps
  deepLinkURL := r.deepLinkURL

/-- The document that a row opens. -/
def Row.document (indexedAt : Bytes) (r : Row) (attributes : List (Bytes × Bytes)) : ProductDocument F where
  productID := r.product.productID
  canonicalTitle := r.product.canonicalTitle
  description := r.product.description
  brand := r.product.brand
  categoryID := r.product.categoryID
  attributes := attributes
  embeddingSource := r.product.canonicalTitle ++ Utf8.str ". " ++ r.product.brand ++ Utf8.str ". " ++
    r.product.description
  embedding := []
  offerCount := 0
  minPriceCents := r.listing.priceCents
  maxPriceCents := r.listing.priceCents
  maxCommissionBps := 0
  inStockAnywhere := false
  merchantIDs := []
  offers := []
  indexedAt := indexedAt

/-- What a row adds to its document. -/
def ProductDocument.add (d : ProductDocument F) (r : Row) : ProductDocument F :=
  { d with
    offers := d.offers ++ [r.offer]
    offerCount := d.offerCount + 1
    merchantIDs := d.merchantIDs ++ [r.listing.merchantID]
    minPriceCents := if r.listing.priceCents < d.minPriceCents then r.listing.priceCents else d.minPriceCents
    maxPriceCents := if r.listing.priceCents > d.maxPriceCents then r.listing.priceCents else d.maxPriceCents
    maxCommissionBps := if r.listing.commissionBps > d.maxCommissionBps then r.listing.commissionBps
      else d.maxCommissionBps
    inStockAnywhere := if r.listing.inStock then true else d.inStockAnywhere }

/-- The document for the next row: the current one, or one that the row opens. -/
def Row.open (indexedAt : Bytes) (r : Row) : Except Err (ProductDocument F) :=
  match r.product.attributes with
  | .error e => .error (GoError.wrap (Utf8.str "parse attributes for " ++ r.product.productID ++ Utf8.str ": ") e)
  | .ok attributes => .ok (r.document indexedAt attributes)

/-! ## The stream -/

section Stream

variable {W : Type} (indexedAt : Bytes) (batchSize : ℕ) (emit : W → List (ProductDocument F) → Except Err W)

/-- The variables of the loop. -/
structure StreamState (F W : Type) where
  batch : List (ProductDocument F)
  current : Option (ProductDocument F)
  emitted : ℕ
  world : W

def flush (s : StreamState F W) : Except Err (StreamState F W) :=
  if s.batch.isEmpty then .ok s
  else do
    let world ← emit s.world s.batch
    return { s with batch := [], emitted := s.emitted + s.batch.length, world }

def closeCurrent (s : StreamState F W) : Except Err (StreamState F W) :=
  match s.current with
  | none => .ok s
  | some d =>
    let s := { s with batch := s.batch ++ [d], current := none }
    if s.batch.length ≥ batchSize then flush emit s else .ok s

/-- The body of the loop. -/
def scanRow (s : StreamState F W) (r : Row) : Except Err (StreamState F W) :=
  match s.current with
  | some d =>
    if d.productID = r.product.productID then .ok { s with current := some (d.add r) }
    else do
      let s ← closeCurrent batchSize emit s
      let d ← r.open indexedAt
      return { s with current := some (d.add r) }
  | none => do
    let d ← r.open indexedAt
    return { s with current := some (d.add r) }

/-- What the cursor delivers: rows, and the error that ends it early, if one does. -/
structure Cursor where
  rows : List Row
  err : Option Err

/-- `DocumentSource.Stream`, over a query that did not fail at once. -/
def Stream (cursor : Cursor) (world : W) : Except Err (ℕ × W) := do
  let s ← cursor.rows.foldlM (scanRow indexedAt batchSize emit) ⟨[], none, 0, world⟩
  match cursor.err with
  | some e => .error (GoError.wrap (Utf8.str "iterate rows: ") e)
  | none =>
    let s ← closeCurrent batchSize emit s
    let s ← flush emit s
    return (s.emitted, s.world)

end Stream

/-! ## The grouping alone -/

section Assembly

variable (indexedAt : Bytes)

/-- The documents that are complete, and the one that is not. -/
structure Assembly (F : Type) where
  closed : List (ProductDocument F)
  current : Option (ProductDocument F)

def Assembly.documents (a : Assembly F) : List (ProductDocument F) := a.closed ++ a.current.toList

def Assembly.row (a : Assembly F) (r : Row) : Except Err (Assembly F) :=
  match a.current with
  | some d =>
    if d.productID = r.product.productID then .ok ⟨a.closed, some (d.add r)⟩
    else do
      let d' ← r.open indexedAt
      return ⟨a.closed ++ [d], some (d'.add r)⟩
  | none => do
    let d ← r.open indexedAt
    return ⟨a.closed, some (d.add r)⟩

/-- The documents of the rows. -/
def assemble (rows : List Row) : Except Err (List (ProductDocument F)) := do
  let a ← rows.foldlM (Assembly.row indexedAt) ⟨[], none⟩
  return a.documents

end Assembly

/-! ## The batches -/

section Batches

variable {W : Type} {indexedAt : Bytes} {batchSize : ℕ} {emit : W → List (ProductDocument F) → Except Err W}
  {world : W} {s t : StreamState F W} {a : Assembly F}

/-- Full or last, a batch is neither empty nor too long. -/
def Batch (batchSize : ℕ) (batch : List (ProductDocument F)) : Prop := batch ≠ [] ∧ batch.length ≤ batchSize

/-- The loop has emitted what is closed, up to the batch in hand. -/
structure Emitted (batchSize : ℕ) (emit : W → List (ProductDocument F) → Except Err W) (world : W) (a : Assembly F)
    (s : StreamState F W) (batches : List (List (ProductDocument F))) : Prop where
  closed : a.closed = batches.flatten ++ s.batch
  current : a.current = s.current
  effects : batches.foldlM emit world = .ok s.world
  emitted : s.emitted = batches.flatten.length
  sizes : ∀ batch ∈ batches, Batch batchSize batch

/-- Between the rows there is room in the batch. -/
def Streams (batchSize : ℕ) (emit : W → List (ProductDocument F) → Except Err W) (world : W) (s : StreamState F W)
    (a : Assembly F) : Prop :=
  s.batch.length < batchSize ∧ ∃ batches, Emitted batchSize emit world a s batches

theorem emitted_flush {batches : List (List (ProductDocument F))} (h : Emitted batchSize emit world a s batches)
    (hroom : s.batch.length ≤ batchSize) (hf : flush emit s = .ok t) :
    t.batch = [] ∧ ∃ batches', Emitted batchSize emit world a t batches' := by
  unfold flush at hf
  by_cases hempty : s.batch.isEmpty = true
  · rw [if_pos hempty] at hf
    obtain rfl := Except.ok.inj hf
    exact ⟨List.isEmpty_iff.mp hempty, batches, h⟩
  · rw [if_neg hempty] at hf
    obtain ⟨w, hw, hf⟩ := bind_eq_ok.mp hf
    obtain rfl := Except.ok.inj hf
    have hne : s.batch ≠ [] := fun he => hempty (List.isEmpty_iff.mpr he)
    refine ⟨rfl, batches ++ [s.batch], ?_, h.current, ?_, ?_, ?_⟩
    · rw [h.closed, List.flatten_append, List.flatten_singleton, List.append_nil]
    · exact foldlM_append_eq_ok.mpr ⟨s.world, h.effects, foldlM_singleton_eq_ok.mpr hw⟩
    · show s.emitted + s.batch.length = _
      rw [h.emitted, List.flatten_append, List.flatten_singleton, List.length_append]
    · intro batch hb
      rcases List.mem_append.mp hb with hb | hb
      · exact h.sizes batch hb
      · rw [List.mem_singleton.mp hb]
        exact ⟨hne, hroom⟩

theorem streams_closeCurrent (hpos : 0 < batchSize) (h : Streams batchSize emit world s a)
    (hf : closeCurrent batchSize emit s = .ok t) : Streams batchSize emit world t ⟨a.documents, none⟩ := by
  obtain ⟨hlt, batches, hem⟩ := h
  unfold closeCurrent at hf
  cases hc : s.current with
  | none =>
    rw [hc] at hf
    obtain rfl := Except.ok.inj hf
    have hdocs : a.documents = a.closed := by
      rw [Assembly.documents, hem.current, hc, Option.toList_none, List.append_nil]
    exact ⟨hlt, batches, by rw [hdocs]; exact hem.closed, hc.symm, hem.effects, hem.emitted, hem.sizes⟩
  | some d =>
    rw [hc] at hf
    have hdocs : a.documents = batches.flatten ++ (s.batch ++ [d]) := by
      rw [Assembly.documents, hem.current, hc, Option.toList_some, hem.closed, List.append_assoc]
    have hem' : Emitted batchSize emit world ⟨a.documents, none⟩ { s with batch := s.batch ++ [d], current := none }
        batches := ⟨hdocs, rfl, hem.effects, hem.emitted, hem.sizes⟩
    have hlen : (s.batch ++ [d]).length = s.batch.length + 1 := by rw [List.length_append, List.length_singleton]
    simp only at hf
    by_cases hfull : (s.batch ++ [d]).length ≥ batchSize
    · rw [if_pos hfull] at hf
      obtain ⟨hnil, batches', hem''⟩ := emitted_flush hem' (by simp only [hlen]; omega) hf
      exact ⟨by rw [hnil]; exact hpos, batches', hem''⟩
    · rw [if_neg hfull] at hf
      obtain rfl := Except.ok.inj hf
      exact ⟨by simp only; omega, batches, hem'⟩

/-- A row does to the loop what it does to the grouping. -/
theorem streams_scanRow (hpos : 0 < batchSize) {r : Row} (h : Streams batchSize emit world s a)
    (hf : scanRow indexedAt batchSize emit s r = .ok t) :
    ∃ b, Assembly.row indexedAt a r = .ok b ∧ Streams batchSize emit world t b := by
  obtain ⟨hlt, batches, hem⟩ := h
  unfold scanRow at hf
  unfold Assembly.row
  rw [hem.current]
  cases hc : s.current with
  | none =>
    simp only [hc] at hf
    obtain ⟨d, hd, hf⟩ := bind_eq_ok.mp hf
    obtain rfl := Except.ok.inj hf
    exact ⟨⟨a.closed, some (d.add r)⟩, bind_eq_ok.mpr ⟨d, hd, rfl⟩, hlt, batches, hem.closed, rfl, hem.effects,
      hem.emitted, hem.sizes⟩
  | some d =>
    simp only [hc] at hf
    dsimp only
    split_ifs at hf ⊢ with hid
    · obtain rfl := Except.ok.inj hf
      exact ⟨_, rfl, hlt, batches, hem.closed, rfl, hem.effects, hem.emitted, hem.sizes⟩
    · obtain ⟨s', hs', hf⟩ := bind_eq_ok.mp hf
      obtain ⟨d', hd', hf⟩ := bind_eq_ok.mp hf
      obtain rfl := Except.ok.inj hf
      obtain ⟨hlt', batches', hem'⟩ := streams_closeCurrent hpos ⟨hlt, batches, hem⟩ hs'
      have hdocs : a.documents = a.closed ++ [d] := by
        rw [Assembly.documents, hem.current, hc, Option.toList_some]
      rw [hdocs] at hem'
      exact ⟨_, bind_eq_ok.mpr ⟨d', hd', rfl⟩, hlt', batches', hem'.closed, rfl, hem'.effects, hem'.emitted,
        hem'.sizes⟩

/-- **What a stream hands out**: the documents of its rows, in batches. -/
theorem stream_eq_ok (hpos : 0 < batchSize) {cursor : Cursor} {world' : W} {n : ℕ}
    (h : Stream indexedAt batchSize emit cursor world = .ok (n, world')) :
    cursor.err = none ∧ ∃ batches : List (List (ProductDocument F)),
      assemble indexedAt cursor.rows = .ok batches.flatten ∧ (∀ batch ∈ batches, Batch batchSize batch) ∧
        batches.foldlM emit world = .ok world' ∧ n = batches.flatten.length := by
  obtain ⟨s, hs, h⟩ := bind_eq_ok.mp h
  have hinit : Streams batchSize emit world (⟨[], none, 0, world⟩ : StreamState F W) ⟨[], none⟩ :=
    ⟨hpos, [], rfl, rfl, rfl, rfl, fun _ hb => by cases hb⟩
  obtain ⟨a, ha, hst⟩ := foldlM_simulates (f := scanRow indexedAt batchSize emit)
    (fun _ _ _ _ hst hf => streams_scanRow hpos hst hf) hinit hs
  cases herr : cursor.err with
  | some e =>
    rw [herr] at h
    cases h
  | none =>
    rw [herr] at h
    obtain ⟨s1, hs1, h⟩ := bind_eq_ok.mp h
    obtain ⟨s2, hs2, h⟩ := bind_eq_ok.mp h
    obtain ⟨rfl, rfl⟩ := Prod.mk.inj (Except.ok.inj h)
    obtain ⟨hlt, batches, hem⟩ := streams_closeCurrent hpos hst hs1
    obtain ⟨hnil, batches', hem'⟩ := emitted_flush hem (Nat.le_of_lt hlt) hs2
    have hdocs : a.documents = batches'.flatten := by
      have hclosed := hem'.closed
      rwa [hnil, List.append_nil] at hclosed
    exact ⟨rfl, batches', bind_eq_ok.mpr ⟨a, ha, congrArg Except.ok hdocs⟩, hem'.sizes, hem'.effects, hem'.emitted⟩

def BulkBatchSize : ℕ := 200

/-- The documents that a stream over the rows hands out, in one list. -/
def indexed (indexedAt : Bytes) (rows : List Row) : Except Err (ℕ × List (ProductDocument F)) :=
  Stream indexedAt BulkBatchSize (fun docs batch => .ok (docs ++ batch)) ⟨rows, none⟩ []

theorem assemble_of_indexed {rows : List Row} {n : ℕ} {docs : List (ProductDocument F)}
    (h : indexed indexedAt rows = .ok (n, docs)) : assemble indexedAt rows = .ok docs := by
  obtain ⟨-, batches, hdocs, -, heffects, -⟩ := stream_eq_ok (by decide) h
  have hcollect : ∀ (batches : List (List (ProductDocument F))) (start docs : List (ProductDocument F)),
      batches.foldlM (fun docs batch => (Except.ok (docs ++ batch) : Except Err _)) start = .ok docs →
        docs = start ++ batches.flatten := by
    intro batches
    induction batches with
    | nil =>
      intro start docs h
      rw [← foldlM_nil_eq_ok.mp h, List.flatten_nil, List.append_nil]
    | cons batch batches ih =>
      intro start docs h
      obtain ⟨t, ht, h⟩ := foldlM_cons_eq_ok.mp h
      obtain rfl := Except.ok.inj ht
      rw [ih _ docs h, List.flatten_cons, List.append_assoc]
  rw [hdocs, hcollect batches [] docs heffects, List.nil_append]

end Batches

/-! ## The documents of the products -/

section Products

variable {indexedAt : Bytes} {collation : Collation} {done rows : List Row} {r : Row} {a b : Assembly F}
  {d : ProductDocument F}

/-- What a document says of its offers. -/
structure Summary (d : ProductDocument F) : Prop where
  offerCount : d.offerCount = d.offers.length
  merchantIDs : d.merchantIDs = d.offers.map (·.merchantID)
  minPrice : ∀ o ∈ d.offers, d.minPriceCents ≤ o.priceCents
  maxPrice : ∀ o ∈ d.offers, o.priceCents ≤ d.maxPriceCents
  maxCommission : ∀ o ∈ d.offers, o.commissionBps ≤ d.maxCommissionBps
  inStock : d.inStockAnywhere = d.offers.any (·.inStock)

theorem summary_document (indexedAt : Bytes) (r : Row) (attributes : List (Bytes × Bytes)) :
    Summary (r.document indexedAt attributes : ProductDocument F) :=
  ⟨rfl, rfl, fun _ ho => (by cases ho), fun _ ho => (by cases ho), fun _ ho => (by cases ho), rfl⟩

theorem summary_add (h : Summary d) (r : Row) : Summary (d.add r) := by
  have hmem : ∀ o, o ∈ (d.add r).offers ↔ o ∈ d.offers ∨ o = r.offer := by
    intro o
    show o ∈ d.offers ++ [r.offer] ↔ _
    rw [List.mem_append, List.mem_singleton]
  refine ⟨?_, ?_, ?_, ?_, ?_, ?_⟩
  · show d.offerCount + 1 = (d.offers ++ [r.offer]).length
    rw [h.offerCount, List.length_append, List.length_singleton]
  · show d.merchantIDs ++ [r.listing.merchantID] = (d.offers ++ [r.offer]).map (·.merchantID)
    rw [h.merchantIDs, List.map_append]
    rfl
  · intro o ho
    show (if r.listing.priceCents < d.minPriceCents then _ else _) ≤ _
    rcases (hmem o).mp ho with ho | rfl
    · have hle := h.minPrice o ho
      split_ifs <;> omega
    · show _ ≤ r.listing.priceCents
      split_ifs <;> omega
  · intro o ho
    show _ ≤ (if r.listing.priceCents > d.maxPriceCents then _ else _)
    rcases (hmem o).mp ho with ho | rfl
    · have hle := h.maxPrice o ho
      split_ifs <;> omega
    · show r.listing.priceCents ≤ _
      split_ifs <;> omega
  · intro o ho
    show _ ≤ (if r.listing.commissionBps > d.maxCommissionBps then _ else _)
    rcases (hmem o).mp ho with ho | rfl
    · have hle := h.maxCommission o ho
      split_ifs <;> omega
    · show r.listing.commissionBps ≤ _
      split_ifs <;> omega
  · show (if r.listing.inStock then true else d.inStockAnywhere) = (d.offers ++ [r.offer]).any (·.inStock)
    rw [List.any_append, ← h.inStock]
    show _ = (d.inStockAnywhere || (r.listing.inStock || false))
    cases r.listing.inStock <;> cases d.inStockAnywhere <;> rfl

/-- The document of the rows of a product. -/
def Assembled (indexedAt : Bytes) (rs : List Row) (d : ProductDocument F) : Prop :=
  ∃ first rest attributes, rs = first :: rest ∧ first.product.attributes = .ok attributes ∧
    d = rs.foldl ProductDocument.add (first.document indexedAt attributes)

theorem Assembled.add {rs : List Row} (h : Assembled indexedAt rs d) (r : Row) :
    Assembled indexedAt (rs ++ [r]) (d.add r) := by
  obtain ⟨first, rest, attributes, rfl, hattr, rfl⟩ := h
  refine ⟨first, rest ++ [r], attributes, rfl, hattr, ?_⟩
  rw [List.foldl_append]
  rfl

theorem assembled_open (h : r.open indexedAt = .ok d) :
    Assembled indexedAt [r] (d.add r) ∧ d.productID = r.product.productID := by
  unfold Row.open at h
  split at h
  · cases h
  · rename_i attributes hattr
    obtain rfl := Except.ok.inj h
    exact ⟨⟨r, [], attributes, rfl, hattr, rfl⟩, rfl⟩

theorem summary_of_assembled {rs : List Row} (h : Assembled indexedAt rs d) : Summary d := by
  obtain ⟨first, rest, attributes, -, -, rfl⟩ := h
  have hfold : ∀ (rs : List Row) (d : ProductDocument F), Summary d → Summary (rs.foldl ProductDocument.add d) := by
    intro rs
    induction rs with
    | nil => exact fun _ hd => hd
    | cons r rs ih => exact fun d hd => ih (d.add r) (summary_add hd r)
  exact hfold rs _ (summary_document indexedAt first attributes)

theorem offers_of_assembled {rs : List Row} (h : Assembled indexedAt rs d) : d.offers = rs.map Row.offer := by
  obtain ⟨first, rest, attributes, -, -, rfl⟩ := h
  have hfold : ∀ (rs : List Row) (d : ProductDocument F),
      (rs.foldl ProductDocument.add d).offers = d.offers ++ rs.map Row.offer := by
    intro rs
    induction rs with
    | nil => exact fun d => (List.append_nil _).symm
    | cons r rs ih =>
      intro d
      rw [List.foldl_cons, ih, List.map_cons, ← List.singleton_append, ← List.append_assoc]
      rfl
  rw [hfold]
  rfl

/-- The rows of a product. -/
def rowsOf (rows : List Row) (productID : Bytes) : List Row := rows.filter fun r => r.product.productID = productID

theorem rowsOf_append_self (rows : List Row) (r : Row) :
    rowsOf (rows ++ [r]) r.product.productID = rowsOf rows r.product.productID ++ [r] := by
  rw [rowsOf, List.filter_append]
  simp [rowsOf]

theorem rowsOf_append_of_ne (rows : List Row) {r : Row} {id : Bytes} (h : r.product.productID ≠ id) :
    rowsOf (rows ++ [r]) id = rowsOf rows id := by
  rw [rowsOf, List.filter_append]
  simp [rowsOf, h]

/-- The grouping of the rows that are done.  The current document is of the last product. -/
structure Grouped (collation : Collation) (indexedAt : Bytes) (done : List Row) (a : Assembly F) : Prop where
  ids : (a.documents.map (·.productID)).Nodup
  assembled : ∀ d ∈ a.documents, Assembled indexedAt (rowsOf done d.productID) d
  covered : ∀ r ∈ done, ∃ d ∈ a.documents, d.productID = r.product.productID
  last : ∀ r ∈ done, ∃ d, a.current = some d ∧ collation.le r.product.productID d.productID

theorem Grouped.exists_row (h : Grouped collation indexedAt done a) (hd : d ∈ a.documents) :
    ∃ r ∈ done, r.product.productID = d.productID := by
  obtain ⟨first, rest, -, hrs, -, -⟩ := h.assembled d hd
  have hmem : first ∈ rowsOf done d.productID := hrs ▸ List.mem_cons_self
  obtain ⟨hdone, hid⟩ := List.mem_filter.mp hmem
  exact ⟨first, hdone, of_decide_eq_true hid⟩

/-- A row of the current product. -/
theorem Grouped.same (h : Grouped collation indexedAt done ⟨a.closed, some d⟩)
    (hid : d.productID = r.product.productID) :
    Grouped collation indexedAt (done ++ [r]) ⟨a.closed, some (d.add r)⟩ := by
  have hids : (Assembly.documents ⟨a.closed, some (d.add r)⟩).map (·.productID)
      = (Assembly.documents ⟨a.closed, some d⟩).map (·.productID) := by
    simp only [Assembly.documents, Option.toList_some, List.map_append, List.map_singleton]
    rfl
  have hnodup := h.ids
  refine ⟨by rw [hids]; exact hnodup, ?_, ?_, ?_⟩
  · intro d' hd'
    rcases List.mem_append.mp hd' with hd' | hd'
    · -- a closed document is of another product
      have hne : r.product.productID ≠ d'.productID := by
        intro he
        simp only [Assembly.documents, Option.toList_some, List.map_append, List.map_singleton] at hnodup
        have hdisj := (List.nodup_append.mp hnodup).2.2 d'.productID (List.mem_map_of_mem hd') d.productID
          (List.mem_singleton_self _)
        exact hdisj (he.symm.trans hid.symm)
      rw [rowsOf_append_of_ne done hne]
      exact h.assembled d' (List.mem_append_left _ hd')
    · rw [Option.toList_some, List.mem_singleton] at hd'
      subst hd'
      have hd := h.assembled d (List.mem_append_right _ (by rw [Option.toList_some]; exact List.mem_singleton_self d))
      show Assembled indexedAt (rowsOf (done ++ [r]) d.productID) _
      rw [hid] at hd ⊢
      rw [rowsOf_append_self]
      exact hd.add r
  · intro r' hr'
    have hmem : ∀ id, (∃ d' ∈ Assembly.documents ⟨a.closed, some (d.add r)⟩, d'.productID = id) ↔
        ∃ d' ∈ Assembly.documents ⟨a.closed, some d⟩, d'.productID = id := by
      intro id
      rw [← List.mem_map, ← List.mem_map, hids]
    rw [hmem]
    rcases List.mem_append.mp hr' with hr' | hr'
    · exact h.covered r' hr'
    · rw [List.mem_singleton.mp hr']
      exact ⟨d, List.mem_append_right _ (by rw [Option.toList_some]; exact List.mem_singleton_self d), hid⟩
  · intro r' hr'
    refine ⟨d.add r, rfl, ?_⟩
    show collation.le r'.product.productID d.productID
    rcases List.mem_append.mp hr' with hr' | hr'
    · obtain ⟨d', hd', hle'⟩ := h.last r' hr'
      obtain rfl := Option.some.inj hd'
      exact hle'
    · rw [List.mem_singleton.mp hr', hid]
      exact (collation.total _ _).elim id id

/-- A row of a product that has no document. -/
theorem Grouped.next (h : Grouped collation indexedAt done a)
    (hnew : ∀ d ∈ a.documents, d.productID ≠ r.product.productID) (ho : r.open indexedAt = .ok d)
    (hle : ∀ r' ∈ done ++ [r], collation.le r'.product.productID r.product.productID) :
    Grouped collation indexedAt (done ++ [r]) ⟨a.documents, some (d.add r)⟩ := by
  obtain ⟨hopen, hid⟩ := assembled_open ho
  have hid' : (d.add r).productID = r.product.productID := hid
  have hfresh : rowsOf done r.product.productID = [] := by
    refine List.filter_eq_nil_iff.mpr fun r' hr' hid' => ?_
    obtain ⟨d', hd', hd'id⟩ := h.covered r' hr'
    exact hnew d' hd' (hd'id.trans (of_decide_eq_true hid'))
  refine ⟨?_, ?_, ?_, ?_⟩
  · show ((a.documents ++ [d.add r]).map (·.productID)).Nodup
    rw [List.map_append, List.map_singleton]
    refine h.ids.append (List.nodup_singleton _) (List.disjoint_singleton.mpr fun hmem => ?_)
    obtain ⟨d', hd', he⟩ := List.mem_map.mp hmem
    exact hnew d' hd' (he.trans hid')
  · intro d' hd'
    rcases List.mem_append.mp hd' with hd' | hd'
    · rw [rowsOf_append_of_ne done (hnew d' hd').symm]
      exact h.assembled d' hd'
    · rw [Option.toList_some, List.mem_singleton] at hd'
      subst hd'
      rw [hid', rowsOf_append_self, hfresh]
      exact hopen
  · intro r' hr'
    rcases List.mem_append.mp hr' with hr' | hr'
    · obtain ⟨d', hd', hd'id⟩ := h.covered r' hr'
      exact ⟨d', List.mem_append_left _ hd', hd'id⟩
    · rw [List.mem_singleton.mp hr']
      exact ⟨d.add r, List.mem_append_right _ (by rw [Option.toList_some]; exact List.mem_singleton_self _), hid'⟩
  · intro r' hr'
    exact ⟨d.add r, rfl, by rw [hid']; exact hle r' hr'⟩

theorem grouped_row (h : Grouped collation indexedAt done a)
    (hle : ∀ r' ∈ done, collation.le r'.product.productID r.product.productID)
    (hf : Assembly.row indexedAt a r = .ok b) : Grouped collation indexedAt (done ++ [r]) b := by
  have hle' : ∀ r' ∈ done ++ [r], collation.le r'.product.productID r.product.productID := by
    intro r' hr'
    rcases List.mem_append.mp hr' with hr' | hr'
    · exact hle r' hr'
    · rw [List.mem_singleton.mp hr']
      exact (collation.total _ _).elim id id
  unfold Assembly.row at hf
  cases hc : a.current with
  | none =>
    simp only [hc] at hf
    obtain ⟨d, hd, hf⟩ := bind_eq_ok.mp hf
    obtain rfl := Except.ok.inj hf
    -- there is no row yet, so there is no document
    have hnew : ∀ d' ∈ a.documents, d'.productID ≠ r.product.productID := by
      intro d' hd' _
      obtain ⟨r', hr', -⟩ := h.exists_row hd'
      obtain ⟨d'', hd'', -⟩ := h.last r' hr'
      rw [hc] at hd''
      cases hd''
    have hnext := h.next hnew hd hle'
    rwa [Assembly.documents, hc, Option.toList_none, List.append_nil] at hnext
  | some d =>
    simp only [hc] at hf
    have ha : a = ⟨a.closed, some d⟩ := by rw [← hc]
    split_ifs at hf with hid
    · obtain rfl := Except.ok.inj hf
      rw [ha] at h
      exact h.same hid
    · obtain ⟨d', hd', hf⟩ := bind_eq_ok.mp hf
      obtain rfl := Except.ok.inj hf
      -- the products that are done come before the current one, and that one before the row's
      have hnew : ∀ x ∈ a.documents, x.productID ≠ r.product.productID := by
        intro x hx he
        obtain ⟨q, hq, hqid⟩ := h.exists_row hx
        obtain ⟨d'', hd'', hlast⟩ := h.last q hq
        obtain rfl := Option.some.inj (hc.symm.trans hd'')
        have hcur : d ∈ a.documents := by
          rw [Assembly.documents, hc, Option.toList_some]
          exact List.mem_append_right _ (List.mem_singleton_self d)
        obtain ⟨q', hq', hq'id⟩ := h.exists_row hcur
        have hback : collation.le d.productID r.product.productID := hq'id ▸ hle q' hq'
        rw [hqid, he] at hlast
        exact hid (collation.antisymm _ _ hback hlast)
      have hnext := h.next hnew hd' hle'
      rwa [Assembly.documents, hc, Option.toList_some] at hnext

/-- **The documents of a query**: one for each product, out of all of its rows. -/
theorem assembled {docs : List (ProductDocument F)}
    (hordered : rows.Pairwise fun r r' => collation.le r.product.productID r'.product.productID)
    (h : assemble indexedAt rows = .ok docs) :
    (docs.map (·.productID)).Nodup ∧ (∀ d ∈ docs, Assembled indexedAt (rowsOf rows d.productID) d) ∧
      ∀ r ∈ rows, ∃ d ∈ docs, d.productID = r.product.productID := by
  obtain ⟨a, ha, h⟩ := bind_eq_ok.mp h
  obtain rfl := Except.ok.inj h
  have hinit : Grouped collation indexedAt [] (⟨[], none⟩ : Assembly F) :=
    ⟨List.nodup_nil, fun _ hd => (by cases hd), fun _ hr => (by cases hr), fun _ hr => (by cases hr)⟩
  have hgrouped := foldlM_invariant
    (P := fun done a => (done.Pairwise fun r r' => collation.le r.product.productID r'.product.productID) →
      Grouped collation indexedAt done a)
    (fun done s r t hP hf hdone => by
      obtain ⟨hpre, -, hle⟩ := List.pairwise_append.mp hdone
      exact grouped_row (hP hpre) (fun r' hr' => hle r' hr' r (List.mem_singleton_self r)) hf)
    (fun _ => hinit) ha hordered
  exact ⟨hgrouped.ids, hgrouped.assembled, hgrouped.covered⟩

end Products

end Ingest
