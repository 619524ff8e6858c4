import AgenticAttribution.Ingest.SeedFiles
import AgenticAttribution.Lib.Percent
import AgenticAttribution.Settlement.Chain

/-!
# Settlement.Reads — the routes that only read

`Handler.Routes` of `internal/settlement/handler.go` with the handlers behind its `GET` patterns.  A pattern of
`http.ServeMux` is matched segment by segment against the unescaped segments of a clean path; a path with an empty
segment or one of dots is redirected and reaches no handler.  `read_publisher` and `read_chain` are what a request with
an encoded identifier comes to.
-/

namespace Settlement

open Percent

/-! ## The mux -/

section Mux

/-- The segments of a path that is clean. -/
def muxSegments : List Char → Option (List Bytes)
  | '/' :: path =>
    let segs := path.splitOn '/'
    if segs.any fun s => s = [] || s = ['.'] || s = ['.', '.'] then none
    else some (segs.map fun s => (decode? s).getD (Utf8.encode s))
  | _ => none

/-- `url.QueryUnescape`. -/
def queryUnescape (cs : List Char) : Option Bytes := decode? (cs.map fun c => if c = '+' then ' ' else c)

/-- `URL.Query().Get(key)`: the first value with the key, of the pairs that can be read. -/
def queryGet (key : Bytes) (query : List Char) : Bytes :=
  let pairs := (query.splitOn '&').filterMap fun kv =>
    if kv = [] ∨ ';' ∈ kv then none
    else do
      let k ← queryUnescape (kv.takeWhile (· ≠ '='))
      let v ← queryUnescape ((kv.dropWhile (· ≠ '=')).drop 1)
      return (k, v)
  ((pairs.find? fun kv => kv.1 = key).map (·.2)).getD []

end Mux

/-! ## The handlers -/

section Handlers

def defaultSettlementPageSize : ℕ := 25

def maxSettlementPageSize : ℕ := 200

/-- The `limit` of `handlePublisherDetail`. -/
def pageLimit (raw : Bytes) : ℕ :=
  match Ingest.parseInt raw with
  | some n => if 0 < n then min n.toNat maxSettlementPageSize else defaultSettlementPageSize
  | none => defaultSettlementPageSize

/-- The bodies of the answers. -/
inductive ReadBody where
  | publishers (publishers : List Reports.Publisher)
  | detail (summary : Reports.PublisherSummary) (settlements : List Reports.SettlementRow)
    (rejections : List Reports.RejectionRow)
  | chain (chain : Reports.Chain)
  | health
  | error (error reason : Bytes)
  /-- A text that is not JSON. -/
  | text

/-- How the database orders what a query leaves open, and what it says of a sum that is no `BIGINT`. -/
structure Postgres where
  collate : Bytes → Bytes → Bool
  tie : Reports.SettlementRow → Reports.SettlementRow → Bool
  outOfRange : Bytes

variable (cols : Columns) (pg : Postgres) (db : DB)

def Handler.listPublishers : ℕ × ReadBody :=
  match Store.listPublishers pg.collate db with
  | some publishers => (200, .publishers publishers)
  | none => (500, .error pg.outOfRange (Utf8.str "internal_error"))

def Handler.publisherDetail (publisherID : Bytes) (query : List Char) : ℕ × ReadBody :=
  match Store.publisherSummary db publisherID with
  | none =>
    if db.catalog.hasPublisher publisherID then
      (500, .error (Utf8.str "publisher summary: " ++ pg.outOfRange) (Utf8.str "internal_error"))
    else (404, .error (Utf8.str "publisher " ++ publisherID ++ Utf8.str ": no rows in result set")
      (Utf8.str "publisher_not_found"))
  | some summary =>
    let limit := pageLimit (queryGet (Utf8.str "limit") query)
    (200, .detail summary (Store.recentSettlements cols pg.tie db publisherID limit)
      (Store.recentRejections cols db publisherID limit))

def Handler.chain (settlementID : Bytes) : ℕ × ReadBody :=
  match Store.chain cols db settlementID with
  | some chain => (200, .chain chain)
  | none =>
    (404, .error (Utf8.str "no settlement with that identifier") (Utf8.str "settlement_not_found"))

/-- A `GET`, as `Routes` leads it to a handler. -/
def Handler.read (target : List Char) : ℕ × ReadBody :=
  let path := target.takeWhile (· ≠ '?')
  let query := (target.dropWhile (· ≠ '?')).drop 1
  match muxSegments path with
  | some [one] =>
    if one = Utf8.str "publishers" then Handler.listPublishers pg db
    else if one = Utf8.str "healthz" then (200, .health)
    else (404, .text)
  | some [one, publisherID] =>
    if one = Utf8.str "publishers" then Handler.publisherDetail cols pg db publisherID query else (404, .text)
  | some [one, settlementID, three] =>
    if one = Utf8.str "settlements" ∧ three = Utf8.str "chain" then Handler.chain cols db settlementID
    else (404, .text)
  | _ => (404, .text)

end Handlers

/-! ## Requests with an encoded identifier -/

section Requests

/-- An identifier that a path can carry. -/
structure Carried (id : Bytes) : Prop where
  ne_nil : id ≠ []
  ne_dots : id ≠ [46] ∧ id ≠ [46, 46]

/-- A segment as it is written: not empty, no dots, no slash. -/
structure Segment (s : List Char) : Prop where
  ne_nil : s ≠ []
  ne_dots : s ≠ ['.'] ∧ s ≠ ['.', '.']
  no_slash : '/' ∉ s

theorem Carried.segment {id : Bytes} (h : Carried id) : Segment (encode unreserved id) :=
  ⟨encode_ne_nil h.ne_nil, encode_ne_dots h.ne_dots, notMem_unreserved (Or.inl rfl) id⟩

/-- The mux sees the segments that a path was put together of. -/
theorem muxSegments_pathOf {s : List Char} {segs : List (List Char)} (h : ∀ t ∈ s :: segs, Segment t) :
    muxSegments (pathOf (s :: segs)) = some ((s :: segs).map fun t => (decode? t).getD (Utf8.encode t)) := by
  have hsplit : (s ++ pathOf segs).splitOn '/' = s :: segs :=
    splitOn_pathOf (h s List.mem_cons_self).no_slash fun t ht => (h t (List.mem_cons_of_mem _ ht)).no_slash
  have hclean : ((s :: segs).any fun t => t = [] || t = ['.'] || t = ['.', '.']) = false := by
    rw [List.any_eq_false]
    intro t ht
    obtain ⟨hne, hdots, -⟩ := h t ht
    simp [hne, hdots.1, hdots.2]
  rw [pathOf_cons]
  simp only [muxSegments, hsplit, hclean]
  rfl

theorem decode_segment (id : Bytes) :
    (decode? (encode unreserved id)).getD (Utf8.encode (encode unreserved id)) = id := by
  rw [decode?_encode plain_unreserved]
  rfl

theorem takeWhile_query {path query : List Char} (h : '?' ∉ path) :
    (path ++ '?' :: query).takeWhile (· ≠ '?') = path ∧ (path ++ '?' :: query).dropWhile (· ≠ '?') = '?' :: query := by
  have hall : ∀ c ∈ path, decide (c ≠ '?') = true := fun c hc => decide_eq_true fun he => h (he ▸ hc)
  constructor
  · rw [List.takeWhile_append_of_pos hall, List.takeWhile_cons_of_neg (by simp), List.append_nil]
  · rw [List.dropWhile_append_of_pos hall, List.dropWhile_cons_of_neg (by simp)]

variable {cols : Columns} {pg : Postgres} {db : DB}

def publishersSegment : List Char := ['p', 'u', 'b', 'l', 'i', 's', 'h', 'e', 'r', 's']

def settlementsSegment : List Char := ['s', 'e', 't', 't', 'l', 'e', 'm', 'e', 'n', 't', 's']

def chainSegment : List Char := ['c', 'h', 'a', 'i', 'n']

theorem notMem_pathOf {c : Char} {segs : List (List Char)} (hc : c ≠ '/') (h : ∀ s ∈ segs, c ∉ s) :
    c ∉ pathOf segs := by
  intro hmem
  obtain ⟨s, hs, hcs⟩ := List.mem_flatMap.mp hmem
  rcases List.mem_cons.mp hcs with rfl | hcs
  · exact hc rfl
  · exact h s hs hcs

/-- A request for the list of publishers reaches its handler. -/
theorem read_publishers : Handler.read cols pg db (pathOf [publishersSegment]) = Handler.listPublishers pg db := by
  have hsegs := @muxSegments_pathOf publishersSegment [] fun t ht => by
    rw [List.mem_singleton.mp ht]
    exact ⟨by decide, by decide, by decide⟩
  have htake : (pathOf [publishersSegment]).takeWhile (· ≠ '?') = pathOf [publishersSegment] := by decide
  have hname : (decode? publishersSegment).getD (Utf8.encode publishersSegment) = Utf8.str "publishers" := by decide
  unfold Handler.read
  simp only [htake, hsegs, List.map_cons, List.map_nil, hname, if_true]

/-- **A request for a publisher's page reaches its handler with the identifier.** -/
theorem read_publisher {id : Bytes} (h : Carried id) (query : List Char) :
    Handler.read cols pg db (pathOf [publishersSegment, encode unreserved id] ++ '?' :: query)
      = Handler.publisherDetail cols pg db id query := by
  have hfixed : Segment publishersSegment := ⟨by decide, by decide, by decide⟩
  have hsegs := @muxSegments_pathOf publishersSegment [encode unreserved id] fun t ht => by
    simp only [List.mem_cons, List.not_mem_nil, or_false] at ht
    rcases ht with rfl | rfl
    · exact hfixed
    · exact h.segment
  have hquery := @takeWhile_query (pathOf [publishersSegment, encode unreserved id]) query
    (notMem_pathOf (by decide) fun s hs => by
      simp only [List.mem_cons, List.not_mem_nil, or_false] at hs
      rcases hs with rfl | rfl
      · decide
      · exact notMem_unreserved (Or.inr rfl) id)
  have hname : (decode? publishersSegment).getD (Utf8.encode publishersSegment) = Utf8.str "publishers" := by decide
  unfold Handler.read
  simp only [hquery.1, hquery.2, hsegs, List.map_cons, List.map_nil, hname, decode_segment, if_true]
  rfl

/-- **A request for a chain reaches its handler with the identifier.** -/
theorem read_chain {id : Bytes} (h : Carried id) :
    Handler.read cols pg db (pathOf [settlementsSegment, encode unreserved id, chainSegment])
      = Handler.chain cols db id := by
  have hsegs := @muxSegments_pathOf settlementsSegment [encode unreserved id, chainSegment] fun t ht => by
    simp only [List.mem_cons, List.not_mem_nil, or_false] at ht
    rcases ht with rfl | rfl | rfl
    · exact ⟨by decide, by decide, by decide⟩
    · exact h.segment
    · exact ⟨by decide, by decide, by decide⟩
  have hmark : '?' ∉ pathOf [settlementsSegment, encode unreserved id, chainSegment] :=
    notMem_pathOf (by decide) fun s hs => by
      simp only [List.mem_cons, List.not_mem_nil, or_false] at hs
      rcases hs with rfl | rfl | rfl
      · decide
      · exact notMem_unreserved (Or.inr rfl) id
      · decide
  have htake : (pathOf [settlementsSegment, encode unreserved id, chainSegment]).takeWhile (· ≠ '?')
      = pathOf [settlementsSegment, encode unreserved id, chainSegment] :=
    List.takeWhile_eq_self_iff.mpr fun c hc => decide_eq_true fun he => hmark (he ▸ hc)
  have hname : (decode? settlementsSegment).getD (Utf8.encode settlementsSegment) = Utf8.str "settlements" ∧
      (decode? chainSegment).getD (Utf8.encode chainSegment) = Utf8.str "chain" := ⟨by decide, by decide⟩
  unfold Handler.read
  simp only [htake, hsegs, List.map_cons, List.map_nil, hname.1, hname.2, decode_segment, and_self, if_true]

end Requests

end Settlement
