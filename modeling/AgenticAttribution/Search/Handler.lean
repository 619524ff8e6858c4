import AgenticAttribution.Attribution.Assertion
import AgenticAttribution.Settlement.Store

/-!
# Search.Handler — assertions handed out with search results

`internal/search/handler.go`.  What OpenSearch finds is given, each product with the identifier that is drawn for
its assertion.  `handleSearch` leaves the record of the search to a goroutine, which runs whenever it runs; of the
request only what attribution reads is modelled.
-/

namespace Search

open Attribution Fallible Settlement

/-- An identifier of `uuid.NewString`. -/
structure Uuid where
  text : Bytes
  ok : textOk text = true

structure SearchPayload where
  query : Bytes
  publisherID : Bytes

structure Product where
  productID : Bytes
  maxCommissionBps : ℤ

structure SearchResult where
  searchRequestID : Bytes
  products : List Product
  assertions : List Assertion

/-- What `recordSearch` is called with. -/
structure SearchRecord where
  searchRequestID : Bytes
  publisherID : Bytes
  query : Bytes

section Search

variable (E : Ed25519) (sk : E.PrivateKey)

/-- The `Mint` call for one product. -/
def mintArgs (searchRequestID publisherID : Bytes) (issuedAt : ℤ) (found : Uuid × Product) : MintArgs where
  assertionID := found.1.text
  publisherID := publisherID
  productID := found.2.productID
  searchRequestID := searchRequestID
  commissionBps := found.2.maxCommissionBps
  issuedAt := issuedAt

/-- `mintAssertions`. -/
def mintAssertions (searchRequestID publisherID : Bytes) (issuedAt : ℤ) :
    List (Uuid × Product) → Except Err (List Assertion)
  | [] => .ok []
  | found :: rest => do
    match mint E sk (mintArgs searchRequestID publisherID issuedAt found) with
    | .error e => .error (GoError.wrap (Utf8.str "mint for " ++ found.2.productID ++ Utf8.str ": ") e)
    | .ok a => return a :: (← mintAssertions searchRequestID publisherID issuedAt rest)

def searchRequestID (uuid : Uuid) : Bytes := Utf8.str "req_" ++ uuid.text

/-- `handleSearch`: the answer and the record it leaves, or the status and the text of a refusal.  A body that does
not decode is `none`. -/
def handleSearch (body : Option SearchPayload) (found : Except Err (List (Uuid × Product))) (uuid : Uuid)
    (now : ℤ) : Except (ℕ × String) (SearchResult × SearchRecord) :=
  match body with
  | none => .error (400, "malformed request body")
  | some payload =>
    if payload.query = [] then .error (400, "query is required")
    else if payload.publisherID = [] then .error (400, "publisher_id is required")
    else
      match found with
      | .error _ => .error (502, "search unavailable")
      | .ok found =>
        match mintAssertions E sk (searchRequestID uuid) payload.publisherID now found with
        | .error _ => .error (500, "could not mint attribution")
        | .ok assertions =>
          .ok (⟨searchRequestID uuid, found.map (·.2), assertions⟩,
            ⟨searchRequestID uuid, payload.publisherID, payload.query⟩)

/-- The `Mint` calls of a search that succeed. -/
def mintCalls (body : Option SearchPayload) (found : Except Err (List (Uuid × Product))) (uuid : Uuid)
    (now : ℤ) : List MintArgs :=
  match body, found with
  | some payload, .ok found =>
    if payload.query = [] ∨ payload.publisherID = [] then []
    else (found.map (mintArgs (searchRequestID uuid) payload.publisherID now)).takeWhile MintArgs.inRange
  | _, _ => []

end Search

/-! ## The record of a search -/

/-- `INSERT INTO search_requests …`. -/
def insertSearchRequest (c : Catalog) (r : SearchRecord) : Option Catalog :=
  if h : (textOk r.searchRequestID = true ∧ textOk r.publisherID = true ∧ textOk r.query = true) ∧
      r.searchRequestID ∉ c.searchRequests.map (·.searchRequestID) ∧
      r.publisherID ∈ c.publishers.map (·.publisherID) then
    some { c with
      searchRequests := c.searchRequests ++ [⟨r.searchRequestID, r.publisherID⟩]
      searchRequests_ok := by
        intro s hs
        rcases List.mem_append.mp hs with hs | hs
        · exact c.searchRequests_ok s hs
        · rw [List.mem_singleton.mp hs]
          exact ⟨h.1.1, h.1.2.1⟩
      searchRequests_publisher := by
        intro s hs
        rcases List.mem_append.mp hs with hs | hs
        · exact c.searchRequests_publisher s hs
        · rw [List.mem_singleton.mp hs]
          exact h.2.2 }
  else none

/-- `recordSearch`; an error is logged and dropped. -/
def recordSearch (c : Catalog) (r : SearchRecord) : Fate → Catalog
  | .lost _ _ => c
  | .done | .unacknowledged _ => (insertSearchRequest c r).getD c

theorem extends_insertSearchRequest {c c' : Catalog} {r : SearchRecord} (h : insertSearchRequest c r = some c') :
    c'.extends c = true := by
  unfold insertSearchRequest at h
  split_ifs at h
  obtain rfl := Option.some.inj h
  simp only [Catalog.extends, Bool.and_eq_true, List.all_eq_true, decide_eq_true_eq, List.mem_append]
  exact ⟨⟨⟨fun _ => id, fun _ => id⟩, fun _ => id⟩, fun _ => Or.inl⟩

/-- A record adds to the catalog. -/
theorem extends_recordSearch (c : Catalog) (r : SearchRecord) (fate : Fate) :
    (recordSearch c r fate).extends c = true := by
  have hinsert : ((insertSearchRequest c r).getD c).extends c = true := by
    cases h : insertSearchRequest c r with
    | none => exact c.extends_refl
    | some c' => exact extends_insertSearchRequest h
  cases fate with
  | lost => exact c.extends_refl
  | done => exact hinsert
  | unacknowledged => exact hinsert

/-! ## What is handed out -/

section Handed

variable {E : Ed25519} {sk : E.PrivateKey}

theorem mem_mintAssertions {id publisherID : Bytes} {issuedAt : ℤ} : ∀ {found : List (Uuid × Product)}
    {out : List Assertion}, mintAssertions E sk id publisherID issuedAt found = .ok out →
      ∀ a ∈ out, ∃ f ∈ found, mint E sk (mintArgs id publisherID issuedAt f) = .ok a
  | [], out, h, a, ha => by
    rw [← Except.ok.inj h] at ha
    cases ha
  | f :: rest, out, h, a, ha => by
    rw [mintAssertions] at h
    split at h
    · cases h
    · rename_i b hb
      obtain ⟨as, has, h⟩ := bind_eq_ok.mp h
      rw [← Except.ok.inj h] at ha
      rcases List.mem_cons.mp ha with rfl | ha
      · exact ⟨f, List.mem_cons_self, hb⟩
      · obtain ⟨g, hg, hmint⟩ := mem_mintAssertions has a ha
        exact ⟨g, List.mem_cons_of_mem f hg, hmint⟩

/-- An assertion handed out under the identifier of its search, at a rate in range. -/
structure Handed (result : SearchResult) (a : Assertion) : Prop where
  text : textOk a.assertionID = true
  search : a.searchRequestID = result.searchRequestID
  lo : 0 ≤ a.commissionBps
  hi : a.commissionBps ≤ basisPointsDivisor

theorem handed_of_mint {id publisherID : Bytes} {issuedAt : ℤ} {f : Uuid × Product} {a : Assertion}
    (h : mint E sk (mintArgs id publisherID issuedAt f) = .ok a) {result : SearchResult}
    (hid : result.searchRequestID = id) : Handed result a := by
  obtain ⟨hr, rfl⟩ := (mint_eq_ok_iff E).mp h
  simp only [MintArgs.inRange, Bool.not_eq_true', Bool.or_eq_false_iff, decide_eq_false_iff_not, not_lt] at hr
  exact ⟨f.1.ok, hid.symm, hr.1, hr.2⟩

/-- **What a search hands out.** -/
theorem handed_of_handleSearch {body : Option SearchPayload} {found : Except Err (List (Uuid × Product))}
    {uuid : Uuid} {now : ℤ} {result : SearchResult} {record : SearchRecord}
    (h : handleSearch E sk body found uuid now = .ok (result, record)) :
    ∀ a ∈ result.assertions, Handed result a := by
  unfold handleSearch at h
  split at h
  · cases h
  · split_ifs at h
    split at h
    · cases h
    · split at h
      · cases h
      · rename_i assertions hmint
        obtain ⟨rfl, rfl⟩ := Prod.mk.inj (Except.ok.inj h)
        intro a ha
        obtain ⟨f, -, hf⟩ := mem_mintAssertions hmint a ha
        exact handed_of_mint hf rfl

end Handed

end Search
