import AgenticAttribution.Ingest.Documents
import AgenticAttribution.Lib.Group

/-!
# Ingest.Streaming — the stream with its exits

`DocumentSource.Stream` once more, with what it returns and has handed out at each of its exits: a failing `emit`, a
row that cannot be scanned or parsed, a cursor that breaks off, and the end of the rows.  The reference is the plain
group-by of the rows (`groupBy`): one document for each product, out of all of its rows.

`stream_groups` compares the two for every row sequence, batch size and callback.  `stream_agrees` connects this
stream with `Ingest.Stream`, which follows the effects of the callback instead of its exits.
-/

namespace Ingest

open Fallible

variable {F : Type}

/-! ## The plain group-by -/

section GroupBy

def Row.productID (r : Row) : Bytes := r.product.productID

/-- The document of a product, out of its rows. -/
def documentOf (indexedAt : Bytes) (first : Row) (rest : List Row) (attributes : List (Bytes × Bytes)) :
    ProductDocument F where
  productID := first.product.productID
  canonicalTitle := first.product.canonicalTitle
  description := first.product.description
  brand := first.product.brand
  categoryID := first.product.categoryID
  attributes := attributes
  embeddingSource := first.product.canonicalTitle ++ Utf8.str ". " ++ first.product.brand ++ Utf8.str ". " ++
    first.product.description
  embedding := []
  offerCount := (first :: rest).length
  minPriceCents := (rest.map (·.listing.priceCents)).foldl min first.listing.priceCents
  maxPriceCents := (rest.map (·.listing.priceCents)).foldl max first.listing.priceCents
  maxCommissionBps := (rest.map (·.listing.commissionBps)).foldl max first.listing.commissionBps
  inStockAnywhere := (first :: rest).any (·.listing.inStock)
  merchantIDs := (first :: rest).map (·.listing.merchantID)
  offers := (first :: rest).map Row.offer
  indexedAt := indexedAt

/-- The document of a group, unless the attributes of its product do not parse. -/
def groupDocument (indexedAt : Bytes) : List Row → Except Err (ProductDocument F)
  | [] => .error (.plain (Utf8.str "no rows"))
  | first :: rest =>
    match first.product.attributes with
    | .error e =>
      .error (GoError.wrap (Utf8.str "parse attributes for " ++ first.product.productID ++ Utf8.str ": ") e)
    | .ok attributes => .ok (documentOf indexedAt first rest attributes)

/-- One document for each product, in the order of the rows. -/
def groupBy (indexedAt : Bytes) (rows : List Row) : List (Except Err (ProductDocument F)) :=
  (Group.groups Row.productID rows).map (groupDocument indexedAt)

variable {indexedAt : Bytes} {r : Row} {g : List Row} {d : ProductDocument F}

theorem documentOf_add (indexedAt : Bytes) (first : Row) (rest : List Row) (attributes : List (Bytes × Bytes))
    (r : Row) : (documentOf indexedAt first rest attributes : ProductDocument F).add r
      = documentOf indexedAt first (rest ++ [r]) attributes := by
  have hmin : ∀ m : ℤ, (if r.listing.priceCents < m then r.listing.priceCents else m) = min m r.listing.priceCents := by
    intro m
    split_ifs <;> omega
  have hmax : ∀ m p : ℤ, (if p > m then p else m) = max m p := by
    intro m p
    split_ifs <;> omega
  have hany : ∀ b : Bool, (if r.listing.inStock then true else b) = (b || r.listing.inStock) := by
    intro b
    cases r.listing.inStock <;> cases b <;> rfl
  simp only [documentOf, ProductDocument.add, hmin, hmax, hany, List.map_append, List.foldl_append, List.any_append,
    List.any_cons, List.any_nil, List.map_cons, List.map_nil, List.foldl_cons, List.foldl_nil, List.length_append,
    List.length_cons, List.length_nil, List.cons_append, Bool.or_false, Bool.or_assoc, Nat.zero_add]

/-- The first row of a document; its rate counts because it is not negative. -/
theorem document_add (indexedAt : Bytes) (r : Row) (attributes : List (Bytes × Bytes))
    (hrate : 0 ≤ r.listing.commissionBps) : (r.document indexedAt attributes : ProductDocument F).add r
      = documentOf indexedAt r [] attributes := by
  have hbps : (if r.listing.commissionBps > 0 then r.listing.commissionBps else 0) = r.listing.commissionBps := by
    split_ifs <;> omega
  have hstock : (if r.listing.inStock then true else false) = (r.listing.inStock || false) := by
    cases r.listing.inStock <;> rfl
  unfold ProductDocument.add documentOf Row.document
  congr 1
  · exact ite_self _
  · exact ite_self _

theorem groupDocument_singleton (hrate : 0 ≤ r.listing.commissionBps) (h : r.open indexedAt = .ok d) :
    groupDocument indexedAt [r] = .ok (d.add r) := by
  unfold Row.open at h
  split at h
  · cases h
  · rename_i attributes hattr
    obtain rfl := Except.ok.inj h
    rw [document_add indexedAt r attributes hrate]
    simp only [groupDocument, hattr]

theorem groupDocument_concat (hne : g ≠ []) (h : groupDocument indexedAt g = .ok d) (r : Row) :
    groupDocument indexedAt (g ++ [r]) = .ok (d.add r) := by
  cases g with
  | nil => exact absurd rfl hne
  | cons first rest =>
    simp only [groupDocument] at h
    split at h
    · cases h
    · rename_i attributes hattr
      obtain rfl := Except.ok.inj h
      simp only [List.cons_append, groupDocument, hattr, documentOf_add]

end GroupBy

/-! ## The stream -/

namespace Streaming

section Stream

/-- What `emit` answers to a batch, after those it has taken. -/
abbrev Emit (F : Type) := List (List (ProductDocument F)) → List (ProductDocument F) → Option Err

/-- A row of the query, with the error of `rows.Scan`, if it fails. -/
structure Fetched where
  row : Row
  scan : Option Err

/-- What the cursor delivers: rows, and the error that ends it early, if one does. -/
structure Cursor where
  fetched : List Fetched
  err : Option Err

def Cursor.rows (c : Cursor) : List Row := c.fetched.map (·.row)

/-- The variables of `Stream`, with the batches that `emit` took and the one that it did not. -/
structure Loop (F : Type) where
  batch : List (ProductDocument F)
  current : Option (ProductDocument F)
  emitted : ℕ
  accepted : List (List (ProductDocument F))
  refused : Option (List (ProductDocument F))

def Loop.init : Loop F := ⟨[], none, 0, [], none⟩

/-- The batches that were handed out. -/
def Loop.handed (s : Loop F) : List (List (ProductDocument F)) := s.accepted ++ s.refused.toList

variable (indexedAt : Bytes) (batchSize : ℕ) (emit : Emit F)

def flush (s : Loop F) : Option Err × Loop F :=
  if s.batch.length = 0 then (none, s)
  else
    match emit s.accepted s.batch with
    | some err => (some err, { s with refused := some s.batch })
    | none =>
      (none, { s with batch := [], emitted := s.emitted + s.batch.length, accepted := s.accepted ++ [s.batch] })

def closeCurrent (s : Loop F) : Option Err × Loop F :=
  match s.current with
  | none => (none, s)
  | some d =>
    let s := { s with batch := s.batch ++ [d], current := none }
    if s.batch.length ≥ batchSize then flush emit s else (none, s)

/-- The row belongs to another product than the current document. -/
def Loop.opens (s : Loop F) (r : Row) : Bool :=
  match s.current with
  | none => true
  | some d => d.productID ≠ r.product.productID

/-- The body of the loop behind the scan, for a row of another product. -/
def openRow (s : Loop F) (r : Row) : Option Err × Loop F :=
  match closeCurrent batchSize emit s with
  | (some err, s) => (some err, s)
  | (none, s) =>
    match r.open indexedAt with
    | .error err => (some err, s)
    | .ok d => (none, { s with current := some (d.add r) })

/-- The body of the loop. -/
def scanRow (s : Loop F) (f : Fetched) : Option Err × Loop F :=
  match f.scan with
  | some err => (some (GoError.wrap (Utf8.str "scan row: ") err), s)
  | none =>
    if s.opens f.row then openRow indexedAt batchSize emit s f.row
    else (none, { s with current := s.current.map (·.add f.row) })

/-- The loop. -/
def scanRows (s : Loop F) : List Fetched → Option Err × Loop F
  | [] => (none, s)
  | f :: rest =>
    match scanRow indexedAt batchSize emit s f with
    | (some err, s) => (some err, s)
    | (none, s) => scanRows s rest

/-- What is behind the loop; the counter is read after the last flush. -/
def finish (err : Option Err) (s : Loop F) : Option Err × Loop F :=
  match err with
  | some err => (some (GoError.wrap (Utf8.str "iterate rows: ") err), s)
  | none =>
    match closeCurrent batchSize emit s with
    | (some err, s) => (some err, s)
    | (none, s) => flush emit s

/-- `DocumentSource.Stream`: the error that it returns, and its variables when it does, of which `emitted` is the
count that it returns. -/
def Stream (query : Except Err Cursor) : Option Err × Loop F :=
  match query with
  | .error err => (some (GoError.wrap (Utf8.str "query documents: ") err), Loop.init)
  | .ok cursor =>
    match scanRows indexedAt batchSize emit Loop.init cursor.fetched with
    | (some err, s) => (some err, s)
    | (none, s) => finish batchSize emit cursor.err s

end Stream

/-! ## Batches -/

section Batches

variable {batchSize : ℕ} {emit : Emit F} {s t : Loop F} {err : Err}

/-- The documents that are complete. -/
def Loop.closed (s : Loop F) : List (ProductDocument F) := s.accepted.flatten ++ s.batch

/-- The batches so far are neither empty nor too long, and the counter counts those that were taken. -/
structure Counted (batchSize : ℕ) (s : Loop F) : Prop where
  sizes : ∀ batch ∈ s.handed, Batch batchSize batch
  count : s.emitted = s.accepted.flatten.length

/-- The loop is going on, with room in the batch. -/
structure Steady (batchSize : ℕ) (s : Loop F) : Prop extends Counted batchSize s where
  going : s.refused = none
  room : s.batch.length < batchSize

theorem Counted.concat (h : Counted batchSize s) (hne : s.batch ≠ [])
    (hroom : s.batch.length ≤ batchSize) : ∀ batch ∈ s.accepted ++ [s.batch], Batch batchSize batch := by
  intro batch hb
  rcases List.mem_append.mp hb with hb | hb
  · exact h.sizes batch (List.mem_append_left _ hb)
  · rw [List.mem_singleton.mp hb]
    exact ⟨hne, hroom⟩

theorem flush_none (h : Counted batchSize s) (hgoing : s.refused = none) (hroom : s.batch.length ≤ batchSize)
    (hf : flush emit s = (none, t)) :
    Counted batchSize t ∧ t.refused = none ∧ t.batch = [] ∧ t.current = s.current ∧ t.closed = s.closed := by
  unfold flush at hf
  split_ifs at hf with hempty
  · obtain rfl := (Prod.mk.inj hf).2
    exact ⟨h, hgoing, List.length_eq_zero_iff.mp hempty, rfl, rfl⟩
  · have hne : s.batch ≠ [] := fun hnil => hempty (by rw [hnil]; rfl)
    split at hf
    · cases (Prod.mk.inj hf).1
    · obtain rfl := (Prod.mk.inj hf).2
      refine ⟨⟨?_, ?_⟩, hgoing, rfl, rfl, ?_⟩
      · simp only [Loop.handed, hgoing, Option.toList_none, List.append_nil]
        exact h.concat hne hroom
      · simp only [h.count, List.flatten_append, List.flatten_singleton, List.length_append]
      · simp only [Loop.closed, List.flatten_append, List.flatten_singleton, List.append_nil]

theorem flush_some (h : Counted batchSize s) (hroom : s.batch.length ≤ batchSize)
    (hf : flush emit s = (some err, t)) : Counted batchSize t ∧ t.handed.flatten = s.closed := by
  unfold flush at hf
  split_ifs at hf with hempty
  · cases (Prod.mk.inj hf).1
  · have hne : s.batch ≠ [] := fun hnil => hempty (by rw [hnil]; rfl)
    split at hf
    · obtain rfl := (Prod.mk.inj hf).2
      refine ⟨⟨h.concat hne hroom, h.count⟩, ?_⟩
      simp only [Loop.handed, Loop.closed, Option.toList_some, List.flatten_append, List.flatten_singleton]
    · cases (Prod.mk.inj hf).1

/-- The documents that are complete once the current one is closed. -/
def Loop.documents (s : Loop F) : List (ProductDocument F) := s.closed ++ s.current.toList

theorem documents_of_current {d : ProductDocument F} (h : s.current = some d) :
    s.accepted.flatten ++ (s.batch ++ [d]) = s.documents := by
  rw [Loop.documents, Loop.closed, h, Option.toList_some, List.append_assoc]

theorem closeCurrent_none (hpos : 0 < batchSize) (h : Steady batchSize s)
    (hf : closeCurrent batchSize emit s = (none, t)) :
    Steady batchSize t ∧ t.current = none ∧ t.closed = s.documents := by
  unfold closeCurrent at hf
  split at hf
  · rename_i hc
    obtain rfl := (Prod.mk.inj hf).2
    exact ⟨h, hc, by rw [Loop.documents, hc, Option.toList_none, List.append_nil]⟩
  · rename_i d hc
    have hroom := h.room
    have hlen : (s.batch ++ [d]).length = s.batch.length + 1 := List.length_append
    have hdocs := documents_of_current hc
    simp only at hf
    split_ifs at hf with hfull
    · obtain ⟨hcounted, hgoing, hnil, hcurrent, hclosed⟩ := flush_none
        (s := { s with batch := s.batch ++ [d], current := none }) ⟨h.sizes, h.count⟩ h.going
        (show (s.batch ++ [d]).length ≤ batchSize by omega) hf
      exact ⟨⟨hcounted, hgoing, by rw [hnil]; exact hpos⟩, hcurrent, hclosed.trans hdocs⟩
    · obtain rfl := (Prod.mk.inj hf).2
      exact ⟨⟨⟨h.sizes, h.count⟩, h.going, Nat.lt_of_not_le hfull⟩, rfl, hdocs⟩

theorem closeCurrent_some (h : Steady batchSize s) (hf : closeCurrent batchSize emit s = (some err, t)) :
    Counted batchSize t ∧ t.handed.flatten = s.documents := by
  unfold closeCurrent at hf
  split at hf
  · cases (Prod.mk.inj hf).1
  · rename_i d hc
    have hroom := h.room
    have hlen : (s.batch ++ [d]).length = s.batch.length + 1 := List.length_append
    have hdocs := documents_of_current hc
    simp only at hf
    split_ifs at hf with hfull
    · obtain ⟨hcounted, hhanded⟩ := flush_some (s := { s with batch := s.batch ++ [d], current := none })
        ⟨h.sizes, h.count⟩ (show (s.batch ++ [d]).length ≤ batchSize by omega) hf
      exact ⟨hcounted, hhanded.trans hdocs⟩
    · cases (Prod.mk.inj hf).1

end Batches

/-! ## The loop against the group-by -/

section Loop

variable {indexedAt : Bytes} {batchSize : ℕ} {emit : Emit F} {s t : Loop F} {err : Err} {done rest : List Row}
  {r : Row} {d : ProductDocument F} {f : Fetched}

/-- The documents so far are those of the rows so far, and the current one is of the last row's product. -/
structure Follows (indexedAt : Bytes) (done : List Row) (s : Loop F) : Prop where
  documents : s.documents.map .ok = groupBy indexedAt done
  current : (done = [] ∧ s.current = none) ∨
    ∃ front q d, done = front ++ [q] ∧ s.current = some d ∧ d.productID = q.productID

/-- An exit: what was handed out is the beginning of what the group-by has. -/
structure Ended (indexedAt : Bytes) (batchSize : ℕ) (rows : List Row) (s : Loop F) : Prop extends
    Counted batchSize s where
  handed : s.handed.flatten.map .ok <+: groupBy indexedAt rows

theorem groupBy_prefix (hc : Group.Contiguous Row.productID (done ++ r :: rest))
    (hnew : r.productID ∉ done.map Row.productID) :
    (groupBy indexedAt done : List (Except Err (ProductDocument F))) <+: groupBy indexedAt (done ++ r :: rest) :=
  (hc.groups_prefix hnew).map _

theorem groupBy_dropLast (hc : Group.Contiguous Row.productID (done ++ rest)) :
    (groupBy indexedAt done : List (Except Err (ProductDocument F))).dropLast <+:
      groupBy indexedAt (done ++ rest) := by
  rw [groupBy, ← List.map_dropLast]
  exact ((hc.groups_dropLast_prefix).trans (List.dropLast_prefix _)).map _

/-- The row of another product is of a product that has not been there. -/
theorem Follows.new (h : Follows indexedAt done s) (hc : Group.Contiguous Row.productID (done ++ [r]))
    (hopens : s.opens r = true) : r.productID ∉ done.map Row.productID := by
  rcases h.current with ⟨rfl, -⟩ | ⟨front, q, d, rfl, hcurrent, hid⟩
  · exact List.not_mem_nil
  · intro hmem
    have hkey := hc.key_last hmem
    simp only [Loop.opens, hcurrent, ne_eq, decide_not, Bool.not_eq_true', decide_eq_false_iff_not] at hopens
    exact hopens (hid.trans hkey)

/-- What is complete in the middle of the rows is final. -/
theorem Follows.ended (h : Follows indexedAt done s) (hs : Steady batchSize s)
    (hc : Group.Contiguous Row.productID (done ++ rest)) : Ended indexedAt batchSize (done ++ rest) s := by
  refine ⟨hs.toCounted, ?_⟩
  have hhanded : s.handed.flatten = s.accepted.flatten := by
    rw [Loop.handed, hs.going, Option.toList_none, List.append_nil]
  have hdocs := h.documents
  rw [hhanded]
  rcases h.current with ⟨rfl, -⟩ | ⟨front, q, d, -, hcurrent, -⟩
  · have hnil : s.documents = [] := List.map_eq_nil_iff.mp hdocs
    rw [Loop.documents, Loop.closed, List.append_assoc, List.append_eq_nil_iff] at hnil
    rw [hnil.1]
    exact List.nil_prefix
  · have hlast : (groupBy indexedAt done).dropLast = s.closed.map .ok := by
      rw [← hdocs, Loop.documents, hcurrent, Option.toList_some, List.map_append, List.map_singleton,
        List.dropLast_concat]
    have hprefix : (s.accepted.flatten.map .ok : List (Except Err (ProductDocument F))) <+: s.closed.map .ok := by
      rw [Loop.closed, List.map_append]
      exact List.prefix_append _ _
    rw [← hlast] at hprefix
    exact hprefix.trans (groupBy_dropLast hc)

theorem openRow_none (hpos : 0 < batchSize) (hs : Steady batchSize s) (h : Follows indexedAt done s)
    (hnew : r.productID ∉ done.map Row.productID) (hrate : 0 ≤ r.listing.commissionBps)
    (hf : openRow indexedAt batchSize emit s r = (none, t)) :
    Steady batchSize t ∧ Follows indexedAt (done ++ [r]) t := by
  unfold openRow at hf
  split at hf
  · cases (Prod.mk.inj hf).1
  · rename_i s' hclose
    obtain ⟨hsteady, -, hclosed⟩ := closeCurrent_none hpos hs hclose
    split at hf
    · cases (Prod.mk.inj hf).1
    · rename_i d hopen
      obtain rfl := (Prod.mk.inj hf).2
      refine ⟨⟨⟨hsteady.sizes, hsteady.count⟩, hsteady.going, hsteady.room⟩, ?_, Or.inr ?_⟩
      · have hdocs : groupBy indexedAt (done ++ [r]) = groupBy indexedAt done ++ [.ok (d.add r)] := by
          rw [groupBy, Group.groups_concat_of_not_mem hnew, List.map_append, List.map_singleton,
            groupDocument_singleton hrate hopen]
          rfl
        rw [hdocs, ← h.documents, ← hclosed]
        exact List.map_append
      · exact ⟨done, r, d.add r, rfl, rfl, (assembled_open hopen).2⟩

theorem openRow_some (hpos : 0 < batchSize) (hs : Steady batchSize s) (h : Follows indexedAt done s)
    (hnew : r.productID ∉ done.map Row.productID) (hc : Group.Contiguous Row.productID (done ++ r :: rest))
    (hf : openRow indexedAt batchSize emit s r = (some err, t)) :
    Ended indexedAt batchSize (done ++ r :: rest) t := by
  have hprefix : (groupBy indexedAt done : List (Except Err (ProductDocument F))) <+:
      groupBy indexedAt (done ++ r :: rest) := groupBy_prefix hc hnew
  unfold openRow at hf
  split at hf
  · rename_i hclose
    obtain ⟨hcounted, hhanded⟩ := closeCurrent_some hs hclose
    obtain rfl := (Prod.mk.inj hf).2
    refine ⟨hcounted, ?_⟩
    rw [hhanded, h.documents]
    exact hprefix
  · rename_i s' hclose
    obtain ⟨hsteady, -, hclosed⟩ := closeCurrent_none hpos hs hclose
    split at hf
    · obtain rfl := (Prod.mk.inj hf).2
      refine ⟨hsteady.toCounted, ?_⟩
      have hhanded : s'.handed.flatten <+: s'.closed := by
        rw [Loop.handed, hsteady.going, Option.toList_none, List.append_nil]
        exact List.prefix_append _ _
      rw [hclosed] at hhanded
      rw [← h.documents] at hprefix
      exact (hhanded.map _).trans hprefix
    · cases (Prod.mk.inj hf).1

/-- A row of the current product. -/
theorem Follows.same (hs : Steady batchSize s) (h : Follows indexedAt done s)
    (hc : Group.Contiguous Row.productID (done ++ [r])) (hopens : s.opens r = false) :
    Steady batchSize { s with current := s.current.map (·.add r) } ∧
      Follows indexedAt (done ++ [r]) { s with current := s.current.map (·.add r) } := by
  refine ⟨⟨⟨hs.sizes, hs.count⟩, hs.going, hs.room⟩, ?_⟩
  rcases h.current with ⟨-, hcurrent⟩ | ⟨front, q, d, rfl, hcurrent, hid⟩
  · simp only [Loop.opens, hcurrent, reduceCtorEq] at hopens
  · simp only [Loop.opens, hcurrent, ne_eq, decide_not, Bool.not_eq_false', decide_eq_true_eq] at hopens
    have hkey : q.productID = r.productID := hid.symm.trans hopens
    obtain ⟨init, last, hbefore, hne, hafter⟩ := hc.groups_concat hkey
    have hdocs := h.documents
    rw [Loop.documents, hcurrent, Option.toList_some, List.map_append, List.map_singleton, groupBy, hbefore,
      List.map_append, List.map_singleton] at hdocs
    obtain ⟨hinit, hlast⟩ := List.append_inj' hdocs rfl
    refine ⟨?_, Or.inr ⟨_, r, d.add r, rfl, by rw [hcurrent]; rfl, hopens⟩⟩
    have hlast' := groupDocument_concat hne (List.cons.inj hlast).1.symm r
    rw [groupBy, hafter, List.map_append, List.map_singleton, hlast', ← hinit]
    simp only [Loop.documents, hcurrent, Option.map_some, Option.toList_some, List.map_append, List.map_singleton]
    rfl

theorem contiguous_concat (hc : Group.Contiguous Row.productID (done ++ r :: rest)) :
    Group.Contiguous Row.productID (done ++ [r]) := by
  have happend : done ++ r :: rest = done ++ [r] ++ rest := by simp
  rw [happend] at hc
  exact hc.left

/-- **What one row does**: the loop goes on and still follows the group-by, or it exits with a beginning of it. -/
theorem scanRow_follows (emit : Emit F) (hpos : 0 < batchSize) (hs : Steady batchSize s) (h : Follows indexedAt done s)
    (hc : Group.Contiguous Row.productID (done ++ f.row :: rest)) (hrate : 0 ≤ f.row.listing.commissionBps) :
    (∀ t, scanRow indexedAt batchSize emit s f = (none, t) →
      Steady batchSize t ∧ Follows indexedAt (done ++ [f.row]) t) ∧
    ∀ err t, scanRow indexedAt batchSize emit s f = (some err, t) →
      Ended indexedAt batchSize (done ++ f.row :: rest) t := by
  cases hscan : f.scan with
  | some err =>
    simp only [scanRow, hscan]
    refine ⟨fun t ht => (by cases (Prod.mk.inj ht).1), fun err' t ht => ?_⟩
    obtain rfl := (Prod.mk.inj ht).2
    exact h.ended hs hc
  | none =>
    cases hopens : s.opens f.row with
    | true =>
      have hnew := h.new (contiguous_concat hc) hopens
      simp only [scanRow, hscan, hopens, if_true]
      exact ⟨fun t ht => openRow_none hpos hs h hnew hrate ht, fun err t ht => openRow_some hpos hs h hnew hc ht⟩
    | false =>
      have hsame := h.same hs (contiguous_concat hc) hopens
      simp only [scanRow, hscan, hopens, Bool.false_eq_true, if_false]
      refine ⟨fun t ht => ?_, fun err t ht => (by cases (Prod.mk.inj ht).1)⟩
      obtain rfl := (Prod.mk.inj ht).2
      exact hsame

/-- **What the loop does**, by induction over the rows that are left. -/
theorem scanRows_follows (indexedAt : Bytes) (emit : Emit F) (hpos : 0 < batchSize) {fetched : List Fetched} :
    ∀ {done : List Row} {s : Loop F}, Steady batchSize s → Follows indexedAt done s →
      Group.Contiguous Row.productID (done ++ fetched.map (·.row)) →
      (∀ f ∈ fetched, 0 ≤ f.row.listing.commissionBps) →
      (∀ t, scanRows indexedAt batchSize emit s fetched = (none, t) →
        Steady batchSize t ∧ Follows indexedAt (done ++ fetched.map (·.row)) t) ∧
      ∀ err t, scanRows indexedAt batchSize emit s fetched = (some err, t) →
        Ended indexedAt batchSize (done ++ fetched.map (·.row)) t := by
  induction fetched with
  | nil =>
    intro done s hs h _ _
    refine ⟨fun t ht => ?_, fun err t ht => (by cases (Prod.mk.inj ht).1)⟩
    obtain rfl := (Prod.mk.inj ht).2
    rw [List.map_nil, List.append_nil]
    exact ⟨hs, h⟩
  | cons f fetched ih =>
    intro done s hs h hc hrates
    obtain ⟨hgo, hexit⟩ := scanRow_follows emit hpos hs h hc (hrates f List.mem_cons_self)
    have happend : done ++ (f :: fetched).map (·.row) = done ++ [f.row] ++ fetched.map (·.row) := by simp
    rw [scanRows]
    split
    · rename_i err s' hscan
      refine ⟨fun t ht => (by cases (Prod.mk.inj ht).1), fun err' t ht => ?_⟩
      obtain rfl := (Prod.mk.inj ht).2
      exact hexit err s' hscan
    · rename_i s' hscan
      obtain ⟨hs', h'⟩ := hgo s' hscan
      rw [happend] at hc ⊢
      exact ih hs' h' hc fun g hg => hrates g (List.mem_cons_of_mem f hg)

/-- What is behind the loop: another exit in the middle, or all that is left goes out. -/
theorem finish_follows (hpos : 0 < batchSize) (hs : Steady batchSize s) {rows : List Row}
    (h : Follows indexedAt rows s) (hc : Group.Contiguous Row.productID rows) {ends out : Option Err}
    (hf : finish batchSize emit ends s = (out, t)) :
    Ended indexedAt batchSize rows t ∧ (out = none → t.handed.flatten.map .ok = groupBy indexedAt rows) := by
  have hall : ∀ {docs : List (ProductDocument F)}, docs = s.documents → docs.map .ok = groupBy indexedAt rows := by
    rintro docs rfl
    exact h.documents
  unfold finish at hf
  split at hf
  · obtain ⟨rfl, rfl⟩ := Prod.mk.inj hf
    have hc' : Group.Contiguous Row.productID (rows ++ []) := by rwa [List.append_nil]
    have hended := h.ended hs hc'
    rw [List.append_nil] at hended
    exact ⟨hended, fun hout => (by cases hout)⟩
  · split at hf
    · rename_i hclose
      obtain ⟨rfl, rfl⟩ := Prod.mk.inj hf
      obtain ⟨hcounted, hhanded⟩ := closeCurrent_some hs hclose
      exact ⟨⟨hcounted, (hall hhanded).symm ▸ List.prefix_refl _⟩, fun hout => (by cases hout)⟩
    · rename_i s' hclose
      obtain ⟨hs', -, hclosed⟩ := closeCurrent_none hpos hs hclose
      cases out with
      | some err =>
        obtain ⟨hcounted, hhanded⟩ := flush_some hs'.toCounted (Nat.le_of_lt hs'.room) hf
        exact ⟨⟨hcounted, (hall (hhanded.trans hclosed)).symm ▸ List.prefix_refl _⟩, fun hout => (by cases hout)⟩
      | none =>
        obtain ⟨hcounted, hgoing, hnil, -, hflushed⟩ := flush_none hs'.toCounted hs'.going (Nat.le_of_lt hs'.room) hf
        have hhanded : t.handed.flatten = t.closed := by
          rw [Loop.handed, Loop.closed, hgoing, hnil, Option.toList_none, List.append_nil, List.append_nil]
        have hdocs := hall (hhanded.trans (hflushed.trans hclosed))
        exact ⟨⟨hcounted, hdocs.symm ▸ List.prefix_refl _⟩, fun _ => hdocs⟩

end Loop

/-! ## The callback -/

section Callback

variable {indexedAt : Bytes} {batchSize : ℕ} {emit : Emit F} {s : Loop F}

/-- The batches were handed to the callback in their order, and it took all of them but the refused one. -/
structure Logged (emit : Emit F) (s : Loop F) : Prop where
  taken : ∀ before batch after, s.accepted = before ++ batch :: after → emit before batch = none
  refused : ∀ batch, s.refused = some batch → emit s.accepted batch ≠ none

/-- An outcome whose log is right, and which has no refused batch unless it is an exit. -/
def Right (emit : Emit F) (out : Option Err × Loop F) : Prop :=
  Logged emit out.2 ∧ (out.1 = none → out.2.refused = none)

theorem right_flush (h : Logged emit s) (hgoing : s.refused = none) : Right emit (flush emit s) := by
  unfold flush
  split_ifs with hempty
  · exact ⟨h, fun _ => hgoing⟩
  · split
    · rename_i err hemit
      refine ⟨⟨h.taken, fun batch hb => ?_⟩, fun hnone => (by cases hnone)⟩
      obtain rfl := Option.some.inj hb
      rw [hemit]
      exact Option.some_ne_none err
    · rename_i hemit
      refine ⟨⟨fun before batch after hsplit => ?_, fun batch hb => ?_⟩, fun _ => hgoing⟩
      · rcases List.eq_nil_or_concat after with rfl | ⟨after', last, rfl⟩
        · obtain ⟨rfl, hlast⟩ := List.append_inj' hsplit rfl
          rw [← (List.cons.inj hlast).1]
          exact hemit
        · rw [List.concat_eq_append, ← List.cons_append, ← List.append_assoc] at hsplit
          exact h.taken before batch after' (List.append_inj' hsplit rfl).1
      · rw [hgoing] at hb
        cases hb

theorem right_closeCurrent (h : Logged emit s) (hgoing : s.refused = none) :
    Right emit (closeCurrent batchSize emit s) := by
  unfold closeCurrent
  split
  · exact ⟨h, fun _ => hgoing⟩
  · simp only
    split_ifs
    · exact right_flush ⟨h.taken, h.refused⟩ hgoing
    · exact ⟨⟨h.taken, h.refused⟩, fun _ => hgoing⟩

theorem right_scanRow (h : Logged emit s) (hgoing : s.refused = none) (f : Fetched) :
    Right emit (scanRow indexedAt batchSize emit s f) := by
  unfold scanRow
  split
  · exact ⟨h, fun _ => hgoing⟩
  · split_ifs with hopens
    · have hclose : Right emit (closeCurrent batchSize emit s) := right_closeCurrent h hgoing
      unfold openRow
      split
      · rename_i err t ht
        rw [ht] at hclose
        exact ⟨hclose.1, fun hnone => (by cases hnone)⟩
      · rename_i t ht
        rw [ht] at hclose
        split
        · exact ⟨hclose.1, fun _ => hclose.2 rfl⟩
        · exact ⟨⟨hclose.1.taken, hclose.1.refused⟩, fun _ => hclose.2 rfl⟩
    · exact ⟨⟨h.taken, h.refused⟩, fun _ => hgoing⟩

theorem right_scanRows {fetched : List Fetched} : ∀ {s : Loop F}, Logged emit s → s.refused = none →
    Right emit (scanRows indexedAt batchSize emit s fetched) := by
  induction fetched with
  | nil => exact fun h hgoing => ⟨h, fun _ => hgoing⟩
  | cons f fetched ih =>
    intro s h hgoing
    have hrow : Right emit (scanRow indexedAt batchSize emit s f) := right_scanRow h hgoing f
    rw [scanRows]
    split
    · rename_i err t ht
      rw [ht] at hrow
      exact ⟨hrow.1, fun hnone => (by cases hnone)⟩
    · rename_i t ht
      rw [ht] at hrow
      exact ih hrow.1 (hrow.2 rfl)

theorem right_finish (batchSize : ℕ) (h : Logged emit s) (hgoing : s.refused = none) (ends : Option Err) :
    Right emit (finish batchSize emit ends s) := by
  unfold finish
  split
  · exact ⟨h, fun _ => hgoing⟩
  · have hclose : Right emit (closeCurrent batchSize emit s) := right_closeCurrent h hgoing
    split
    · rename_i err t ht
      rw [ht] at hclose
      exact ⟨hclose.1, fun hnone => (by cases hnone)⟩
    · rename_i t ht
      rw [ht] at hclose
      exact right_flush hclose.1 (hclose.2 rfl)

/-! A callback that takes everything lets the stream run to its end. -/

theorem flush_accepts (hemit : ∀ taken batch, emit taken batch = none) (s : Loop F) : (flush emit s).1 = none := by
  unfold flush
  split_ifs
  · rfl
  · simp only [hemit]

theorem closeCurrent_accepts (batchSize : ℕ) (hemit : ∀ taken batch, emit taken batch = none) (s : Loop F) :
    (closeCurrent batchSize emit s).1 = none := by
  unfold closeCurrent
  split
  · rfl
  · simp only
    split_ifs
    · exact flush_accepts hemit _
    · rfl

/-- The row can be scanned and its attributes parse. -/
def Fetched.decodes (f : Fetched) : Prop := f.scan = none ∧ ∃ attributes, f.row.product.attributes = .ok attributes

theorem scanRow_accepts (indexedAt : Bytes) (batchSize : ℕ) (hemit : ∀ taken batch, emit taken batch = none)
    {f : Fetched} (hf : f.decodes) (s : Loop F) :
    (scanRow indexedAt batchSize emit s f).1 = none := by
  obtain ⟨hscan, attributes, hattr⟩ := hf
  have hclose := closeCurrent_accepts batchSize hemit s
  simp only [scanRow, hscan]
  split_ifs with hopens
  · unfold openRow
    split
    · rename_i err t ht
      rw [ht] at hclose
      exact hclose
    · simp only [Row.open, hattr]
  · rfl

theorem scanRows_accepts (indexedAt : Bytes) (batchSize : ℕ) (hemit : ∀ taken batch, emit taken batch = none)
    {fetched : List Fetched}
    (hf : ∀ f ∈ fetched, f.decodes) : ∀ s : Loop F, (scanRows indexedAt batchSize emit s fetched).1 = none := by
  induction fetched with
  | nil => exact fun _ => rfl
  | cons f fetched ih =>
    intro s
    have hrow := scanRow_accepts indexedAt batchSize hemit (hf f List.mem_cons_self) s
    rw [scanRows]
    split
    · rename_i err t ht
      rw [ht] at hrow
      exact hrow
    · exact ih (fun g hg => hf g (List.mem_cons_of_mem f hg)) _

theorem finish_accepts (batchSize : ℕ) (hemit : ∀ taken batch, emit taken batch = none) (s : Loop F) :
    (finish batchSize emit none s).1 = none := by
  have hclose := closeCurrent_accepts batchSize hemit s
  unfold finish
  split
  · rename_i h
    cases h
  · split
    · rename_i err t ht
      rw [ht] at hclose
      exact hclose
    · exact flush_accepts hemit _

end Callback

/-- What a stream over the rows of a query leaves, against the group-by of the rows. -/
structure Streams (indexedAt : Bytes) (batchSize : ℕ) (emit : Emit F) (rows : List Row) (out : Option Err)
    (s : Loop F) : Prop where
  sizes : ∀ batch ∈ s.handed, batch ≠ [] ∧ batch.length ≤ batchSize
  beginning : s.handed.flatten.map .ok <+: groupBy indexedAt rows
  whole : out = none → s.handed.flatten.map .ok = groupBy indexedAt rows
  count : s.emitted = s.accepted.flatten.length
  logged : Logged emit s

/-- **The stream is the plain group-by, cut into batches.**  Whatever the callback answers and however the cursor
ends, the batches handed out are neither empty nor too long, they are a beginning of the group-by and all of it if
the stream returns no error, the count is that of the documents which the callback took, and an error is returned
only if the callback, a row or the cursor failed. -/
theorem stream_groups (indexedAt : Bytes) {batchSize : ℕ} (emit : Emit F) {cursor : Cursor} {out : Option Err}
    {s : Loop F} (hpos : 1 ≤ batchSize) (hc : Group.Contiguous Row.productID cursor.rows)
    (hrates : ∀ f ∈ cursor.fetched, 0 ≤ f.row.listing.commissionBps)
    (h : Stream indexedAt batchSize emit (.ok cursor) = (out, s)) :
    Streams indexedAt batchSize emit cursor.rows out s ∧
      ((∀ taken batch, emit taken batch = none) → (∀ f ∈ cursor.fetched, f.decodes) → cursor.err = none →
        out = none) := by
  have hinit : Steady batchSize (Loop.init : Loop F) := ⟨⟨fun _ hb => (by cases hb), rfl⟩, rfl, hpos⟩
  have hlogged : Logged emit (Loop.init : Loop F) :=
    ⟨fun before batch after hsplit => (by simp [Loop.init] at hsplit), fun _ hb => (by cases hb)⟩
  have hempty : Follows indexedAt [] (Loop.init : Loop F) := ⟨rfl, Or.inl ⟨rfl, rfl⟩⟩
  obtain ⟨hgo, hexit⟩ := scanRows_follows indexedAt emit hpos hinit hempty hc hrates
  have hright : Right emit (scanRows indexedAt batchSize emit Loop.init cursor.fetched) :=
    right_scanRows hlogged rfl
  simp only [Stream] at h
  split at h
  · rename_i err t ht
    obtain ⟨rfl, rfl⟩ := Prod.mk.inj h
    have hended := hexit err _ ht
    rw [ht] at hright
    refine ⟨⟨hended.sizes, hended.handed, fun hnone => (by cases hnone), hended.count, hright.1⟩, ?_⟩
    intro hemit hf _
    have haccepts := scanRows_accepts indexedAt batchSize hemit hf Loop.init
    rw [ht] at haccepts
    cases haccepts
  · rename_i t ht
    obtain ⟨hs, hfollows⟩ := hgo t ht
    rw [ht] at hright
    obtain ⟨hended, hwhole⟩ := finish_follows hpos hs hfollows hc h
    have hfinish := right_finish batchSize hright.1 (hright.2 rfl) cursor.err
    rw [h] at hfinish
    refine ⟨⟨hended.sizes, hended.handed, hwhole, hended.count, hfinish.1⟩, ?_⟩
    intro hemit _ hend
    have haccepts := finish_accepts batchSize hemit t
    rw [hend] at h
    rw [h] at haccepts
    exact haccepts

namespace Sample

/-- A row of a product, by its price. -/
def row (productID : String) (priceCents : ℤ) : Row where
  product := ⟨Utf8.str productID, Utf8.str "Pack", Utf8.str "A pack", Utf8.str "Acme", Utf8.str "packs", .ok []⟩
  listing := ⟨Utf8.str "lst_1", Utf8.str productID, Utf8.str "mer_1", priceCents, Utf8.str "USD", true, 1200⟩
  listingTitle := Utf8.str "Pack"
  deepLinkURL := Utf8.str "/pack"

/-- Two listings of one product, and one of the next. -/
def cursor : Cursor := ⟨[⟨row "prod_1" 12999, none⟩, ⟨row "prod_1" 9999, none⟩, ⟨row "prod_2" 4999, none⟩], none⟩

/-- A callback that takes everything. -/
def takes : Emit Bool := fun _ _ => none

theorem contiguous_cursor : Group.Contiguous Row.productID cursor.rows := by
  have hsorted : (cursor.rows.map Row.productID).Pairwise (· ≤ ·) := by decide
  exact Group.contiguous_of_pairwise (fun _ _ => List.le_antisymm) (List.pairwise_map.mp hsorted)

theorem rates_cursor : ∀ f ∈ cursor.fetched, 0 ≤ f.row.listing.commissionBps := by
  intro f hf
  simp only [cursor, List.mem_cons, List.not_mem_nil, or_false] at hf
  rcases hf with rfl | rfl | rfl <;> decide

end Sample

/-- One batch for each product, the first out of two rows. -/
theorem stream_groups_sample : ∃ s, Stream [] 1 Sample.takes (.ok Sample.cursor) = (none, s) ∧
    Streams [] 1 Sample.takes Sample.cursor.rows none s ∧
    s.handed.map (fun batch => batch.map fun d => (d.productID, d.offers.length)) =
      [[(Utf8.str "prod_1", 2)], [(Utf8.str "prod_2", 1)]] := by
  refine ⟨_, rfl, ?_, by decide⟩
  exact (stream_groups [] Sample.takes (Nat.le_refl 1) Sample.contiguous_cursor Sample.rates_cursor rfl).1

/-! ## The two streams -/

section Agreement

variable {indexedAt : Bytes} {batchSize : ℕ} {emit : Emit F} {s : Loop F}

/-- The callback as a function on the batches that it has taken. -/
def Emit.effect (emit : Emit F) (taken : List (List (ProductDocument F))) (batch : List (ProductDocument F)) :
    Except Err (List (List (ProductDocument F))) :=
  match emit taken batch with
  | some err => .error err
  | none => .ok (taken ++ [batch])

/-- The variables that the two streams share. -/
def Loop.state (s : Loop F) : StreamState F (List (List (ProductDocument F))) :=
  ⟨s.batch, s.current, s.emitted, s.accepted⟩

/-- An outcome without what was handed out before an exit. -/
def outcome (out : Option Err × Loop F) : Except Err (StreamState F (List (List (ProductDocument F)))) :=
  match out with
  | (some err, _) => .error err
  | (none, s) => .ok s.state

theorem flush_agrees (emit : Emit F) (s : Loop F) : Ingest.flush emit.effect s.state = outcome (flush emit s) := by
  by_cases hempty : s.batch = []
  · simp only [Ingest.flush, flush, Loop.state, hempty, List.isEmpty_nil, List.length_nil, if_true]
    simp only [outcome, Loop.state, hempty]
  · have hlen : ¬s.batch.length = 0 := fun h => hempty (List.length_eq_zero_iff.mp h)
    have hne : s.batch.isEmpty = false := by simpa using hempty
    simp only [Ingest.flush, flush, Loop.state, hne, Bool.false_eq_true, if_false, if_neg hlen, Emit.effect]
    cases emit s.accepted s.batch <;> rfl

theorem closeCurrent_agrees (batchSize : ℕ) (emit : Emit F) (s : Loop F) :
    Ingest.closeCurrent batchSize emit.effect s.state = outcome (closeCurrent batchSize emit s) := by
  cases hc : s.current with
  | none => simp only [Ingest.closeCurrent, closeCurrent, Loop.state, hc, outcome]
  | some d =>
    simp only [Ingest.closeCurrent, closeCurrent, Loop.state, hc]
    split_ifs
    · exact flush_agrees emit { s with batch := s.batch ++ [d], current := none }
    · rfl

theorem openRow_agrees (indexedAt : Bytes) (batchSize : ℕ) (emit : Emit F) (s : Loop F) (r : Row) :
    (do
      let s ← Ingest.closeCurrent batchSize emit.effect s.state
      let d ← r.open indexedAt
      return { s with current := some (d.add r) }) = outcome (openRow indexedAt batchSize emit s r) := by
  rw [closeCurrent_agrees, openRow]
  rcases closeCurrent batchSize emit s with ⟨_ | err, t⟩
  · cases hopen : r.open indexedAt (F := F) with
    | error err => rfl
    | ok d => rfl
  · rfl

theorem scanRow_agrees (indexedAt : Bytes) (batchSize : ℕ) (emit : Emit F) (s : Loop F) (r : Row) :
    Ingest.scanRow indexedAt batchSize emit.effect s.state r
      = outcome (scanRow indexedAt batchSize emit s ⟨r, none⟩) := by
  have hopen := openRow_agrees indexedAt batchSize emit s r
  cases hc : s.current with
  | none =>
    have hclosed : Ingest.closeCurrent batchSize emit.effect s.state = .ok s.state := by
      simp only [Ingest.closeCurrent, Loop.state, hc]
    rw [hclosed, ok_bind] at hopen
    simp only [Ingest.scanRow, scanRow, Loop.opens, Loop.state, hc, if_true] at hopen ⊢
    exact hopen
  | some d =>
    by_cases hid : d.productID = r.product.productID
    · simp only [Ingest.scanRow, scanRow, Loop.opens, Loop.state, hc, hid, ne_eq, not_true, decide_false, if_true,
        Bool.false_eq_true, if_false, outcome, Option.map_some]
    · simp only [Ingest.scanRow, scanRow, Loop.opens, Loop.state, hc, hid, ne_eq, not_false_eq_true, decide_true,
        if_true, if_false] at hopen ⊢
      exact hopen

theorem scanRows_agrees (indexedAt : Bytes) (batchSize : ℕ) (emit : Emit F) : ∀ (rows : List Row) (s : Loop F),
    rows.foldlM (Ingest.scanRow indexedAt batchSize emit.effect) s.state
      = outcome (scanRows indexedAt batchSize emit s (rows.map fun r => ⟨r, none⟩)) := by
  intro rows
  induction rows with
  | nil => exact fun _ => rfl
  | cons r rows ih =>
    intro s
    rw [List.foldlM_cons, scanRow_agrees, List.map_cons, scanRows]
    rcases scanRow indexedAt batchSize emit s ⟨r, none⟩ with ⟨_ | err, t⟩
    · exact ih t
    · rfl

/-- **The two streams agree**, on rows that can be scanned: the one that follows the effects of the callback returns
what the other has emitted and handed out, or its error. -/
theorem stream_agrees (indexedAt : Bytes) (batchSize : ℕ) (emit : Emit F) (rows : List Row) (ends : Option Err) :
    Ingest.Stream indexedAt batchSize emit.effect ⟨rows, ends⟩ []
      = (outcome (Stream indexedAt batchSize emit (.ok ⟨rows.map fun r => ⟨r, none⟩, ends⟩))).map
          fun s => (s.emitted, s.world) := by
  have hloop := scanRows_agrees indexedAt batchSize emit rows Loop.init
  have hinit : (Loop.init : Loop F).state = ⟨[], none, 0, []⟩ := rfl
  rw [hinit] at hloop
  rw [Ingest.Stream, Stream, hloop]
  rcases scanRows indexedAt batchSize emit Loop.init (rows.map fun r => ⟨r, none⟩) with ⟨_ | err, t⟩
  · cases ends with
    | some err => rfl
    | none =>
      have hclose := closeCurrent_agrees batchSize emit t
      simp only [outcome, ok_bind, finish, hclose]
      rcases closeCurrent batchSize emit t with ⟨_ | err, u⟩
      · simp only [outcome, ok_bind, flush_agrees]
        rcases flush emit u with ⟨_ | err, v⟩ <;> rfl
      · rfl
  · rfl

end Agreement

end Streaming

end Ingest
