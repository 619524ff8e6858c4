import AgenticAttribution.Ingest.Embedding
import AgenticAttribution.Lib.GoQuote

/-!
# Ingest.BulkBody — the text of a bulk request

`BulkIndex` of `internal/ingest/opensearch.go`, down to the bytes: two lines for each document, the first of them
formatted with `%q`, the second encoded by `json.Marshal`.  The second is always JSON (`parse_source`).  The first is
JSON exactly if `%q` needs nothing that JSON does not have (`parse_action`).
-/

namespace Ingest

open Json Fallible GoQuote Digits

/-! ## The document line -/

section Marshal

/-- The collections of a document that are nil. -/
structure Nils where
  attributes : Bool
  merchantIDs : Bool
  offers : Bool

/-- What the encoding depends on beside the documents. -/
structure Encoding (F : Type) where
  table : PrintTable
  /-- The literal of a `float32`, or how a value is called that has none. -/
  float : F → Except Bytes (List Char)
  isNumber_float : ∀ {x text}, float x = .ok text → IsNumber text
  nils : ProductDocument F → Nils

variable {F : Type} (enc : Encoding F)

def jsonBool (b : Bool) : List Char := if b then "true".toList else "false".toList

def jsonArray (elems : List (List Char)) : List Char := '[' :: commaSep elems ++ [']']

/-- An object, of names with the texts of their values. -/
def jsonObject (members : List (Bytes × List Char)) : List Char :=
  '{' :: commaSep (members.map fun m => jsonString m.1 ++ ':' :: m.2) ++ ['}']

def orNull (isNil : Bool) (text : List Char) : List Char := if isNil then "null".toList else text

/-- The entries of a map in the order in which they are encoded. -/
def byKey (entries : List (Bytes × Bytes)) : List (Bytes × Bytes) := entries.mergeSort fun a b => decide (a.1 ≤ b.1)

def MerchantOffer.marshal (o : MerchantOffer) : List Char :=
  jsonObject
    [(Utf8.str "listing_id", jsonString o.listingID),
     (Utf8.str "merchant_id", jsonString o.merchantID),
     (Utf8.str "listing_title", jsonString o.listingTitle),
     (Utf8.str "price_cents", intChars o.priceCents),
     (Utf8.str "in_stock", jsonBool o.inStock),
     (Utf8.str "commission_bps", intChars o.commissionBps),
     (Utf8.str "deep_link_url", jsonString o.deepLinkURL)]

/-- The members of a document, with the literals of its vector; an empty vector is left out. -/
def ProductDocument.members (d : ProductDocument F) (nils : Nils) (embedding : List (List Char)) :
    List (Bytes × List Char) :=
  [(Utf8.str "product_id", jsonString d.productID),
   (Utf8.str "canonical_title", jsonString d.canonicalTitle),
   (Utf8.str "description", jsonString d.description),
   (Utf8.str "brand", jsonString d.brand),
   (Utf8.str "category_id", jsonString d.categoryID),
   (Utf8.str "attributes",
     orNull nils.attributes (jsonObject ((byKey d.attributes).map fun e => (e.1, jsonString e.2))))] ++
  (if embedding = [] then [] else [(Utf8.str "embedding", jsonArray embedding)]) ++
  [(Utf8.str "offer_count", intChars d.offerCount),
   (Utf8.str "min_price_cents", intChars d.minPriceCents),
   (Utf8.str "max_price_cents", intChars d.maxPriceCents),
   (Utf8.str "max_commission_bps", intChars d.maxCommissionBps),
   (Utf8.str "in_stock_anywhere", jsonBool d.inStockAnywhere),
   (Utf8.str "merchant_ids", orNull nils.merchantIDs (jsonArray (d.merchantIDs.map jsonString))),
   (Utf8.str "offers", orNull nils.offers (jsonArray (d.offers.map MerchantOffer.marshal))),
   (Utf8.str "indexed_at", jsonString d.indexedAt)]

/-- `json.Marshal` of a document. -/
def Encoding.marshal (d : ProductDocument F) : Except Err Bytes := do
  let embedding ← (d.embedding.mapM enc.float).mapError fun v => .plain (Utf8.str "json: unsupported value: " ++ v)
  return Utf8.encode (jsonObject (d.members (enc.nils d) embedding))

/-- The cluster with this encoding. -/
def Encoding.cluster (cl : Cluster F) : Cluster F := { cl with marshal := enc.marshal }

end Marshal

/-! ## The lines -/

section Lines

variable {F : Type}

/-- `fmt.Sprintf` of the action, with `%q` twice. -/
def actionText (t : PrintTable) (index id : Bytes) : List Char :=
  "\x7b\"index\":\x7b\"_index\":".toList ++ (quote t index ++ (",\"_id\":".toList ++ (quote t id ++ "\x7d\x7d".toList)))

/-- What is written for a document. -/
def BulkLine.text (t : PrintTable) (line : BulkLine) : Bytes :=
  Utf8.encode (actionText t line.index line.id) ++ 10 :: (line.source ++ [10])

/-- The body of the request. -/
def bulkBytes (t : PrintTable) (body : List BulkLine) : Bytes := body.flatMap (BulkLine.text t)

end Lines

/-! ## What the lines are to say -/

section Spec

variable {F : Type} (enc : Encoding F)

/-- A string as JSON has it. -/
def textValue (s : Bytes) : Json := .str (Utf8.text s)

/-- An object with these members. -/
def objectOf (members : List (Bytes × Json)) : Json := .obj (members.map fun m => (Utf8.text m.1, m.2))

def MerchantOffer.indexed (o : MerchantOffer) : Json :=
  objectOf
    [(Utf8.str "listing_id", textValue o.listingID),
     (Utf8.str "merchant_id", textValue o.merchantID),
     (Utf8.str "listing_title", textValue o.listingTitle),
     (Utf8.str "price_cents", .num (intChars o.priceCents)),
     (Utf8.str "in_stock", .bool o.inStock),
     (Utf8.str "commission_bps", .num (intChars o.commissionBps)),
     (Utf8.str "deep_link_url", textValue o.deepLinkURL)]

/-- A collection, which may be nil. -/
def collection (isNil : Bool) (v : Json) : Json := if isNil then .null else v

/-- The fields of a document that are indexed. -/
def ProductDocument.indexed (d : ProductDocument F) (nils : Nils) (embedding : List (List Char)) : Json :=
  objectOf
    ([(Utf8.str "product_id", textValue d.productID),
      (Utf8.str "canonical_title", textValue d.canonicalTitle),
      (Utf8.str "description", textValue d.description),
      (Utf8.str "brand", textValue d.brand),
      (Utf8.str "category_id", textValue d.categoryID),
      (Utf8.str "attributes",
        collection nils.attributes (objectOf ((byKey d.attributes).map fun e => (e.1, textValue e.2))))] ++
     (if embedding = [] then [] else [(Utf8.str "embedding", .arr (embedding.map .num))]) ++
     [(Utf8.str "offer_count", .num (intChars d.offerCount)),
      (Utf8.str "min_price_cents", .num (intChars d.minPriceCents)),
      (Utf8.str "max_price_cents", .num (intChars d.maxPriceCents)),
      (Utf8.str "max_commission_bps", .num (intChars d.maxCommissionBps)),
      (Utf8.str "in_stock_anywhere", .bool d.inStockAnywhere),
      (Utf8.str "merchant_ids", collection nils.merchantIDs (.arr (d.merchantIDs.map textValue))),
      (Utf8.str "offers", collection nils.offers (.arr (d.offers.map MerchantOffer.indexed))),
      (Utf8.str "indexed_at", textValue d.indexedAt)])

/-- The action for a document. -/
def indexAction (index id : Bytes) : Json :=
  objectOf [(Utf8.str "index", objectOf [(Utf8.str "_index", textValue index), (Utf8.str "_id", textValue id)])]

/-- A line as JSON. -/
def parseLine (line : Bytes) : Option Json := parse (Utf8.text line)

/-- The lines of a body that ends with a newline. -/
def IsLines (body : Bytes) (lines : List Bytes) : Prop := body.splitOn 10 = lines ++ [[]]

/-- **A bulk body is well formed**: two lines for each document, its action and its fields. -/
def WellFormed (index : Bytes) (docs : List (ProductDocument F)) (body : Bytes) : Prop :=
  ∃ lines, IsLines body lines ∧ lines.length = 2 * docs.length ∧
    ∀ i d, docs[i]? = some d →
      lines[2 * i]?.bind parseLine = some (indexAction index d.productID) ∧
      ∃ embedding, d.embedding.mapM enc.float = .ok embedding ∧
        lines[2 * i + 1]?.bind parseLine = some (d.indexed (enc.nils d) embedding)

/-- The strings of an offer are Unicode. -/
def MerchantOffer.Valid (o : MerchantOffer) : Prop :=
  Utf8.valid o.listingID = true ∧ Utf8.valid o.merchantID = true ∧ Utf8.valid o.listingTitle = true ∧
    Utf8.valid o.deepLinkURL = true

/-- The identifiers and texts of a document are Unicode. -/
structure ProductDocument.Valid (d : ProductDocument F) : Prop where
  productID : Utf8.valid d.productID = true
  canonicalTitle : Utf8.valid d.canonicalTitle = true
  description : Utf8.valid d.description = true
  brand : Utf8.valid d.brand = true
  categoryID : Utf8.valid d.categoryID = true
  attributes : ∀ e ∈ d.attributes, Utf8.valid e.1 = true ∧ Utf8.valid e.2 = true
  merchantIDs : ∀ id ∈ d.merchantIDs, Utf8.valid id = true
  offers : ∀ o ∈ d.offers, o.Valid
  indexedAt : Utf8.valid d.indexedAt = true

end Spec

/-! ## The document line is JSON -/

section Source

/-- A text that is JSON for the value, on one line. -/
structure Writes (x : List Char) (v : Json) : Prop where
  text : x = write (literal marshalRune) v
  legible : Legible (literal marshalRune) v
  flat : '\n' ∉ x

theorem newline_notMem_literal {escape : Char → List Char} (h : ∀ c, '\n' ∉ escape c) (cs : List Char) :
    '\n' ∉ literal escape cs := by
  simp only [literal, List.cons_append, List.mem_cons, List.mem_append, List.mem_flatMap, List.not_mem_nil, or_false,
    not_or, not_exists, not_and]
  exact ⟨by decide, fun c _ => h c, by decide⟩

theorem jsonString_eq {s : Bytes} (h : Utf8.valid s = true) : jsonString s = literal marshalRune (Utf8.text s) := by
  rw [← jsonString_encode, Utf8.encode_text h]

theorem readsBack_marshal (cs : List Char) : ReadsBack (literal marshalRune) cs :=
  readsBack_literal fun c _ => reads_marshalRune c

theorem writes_string {s : Bytes} (h : Utf8.valid s = true) : Writes (jsonString s) (textValue s) :=
  ⟨jsonString_eq h, readsBack_marshal _, jsonString_eq h ▸ newline_notMem_literal newline_notMem_marshalRune _⟩

theorem writes_number {text : List Char} (h : IsNumber text) : Writes text (.num text) := by
  refine ⟨rfl, h, fun hmem => ?_⟩
  rcases h.chars _ hmem with h | h | h | h | h | h
  · cases h
  all_goals exact absurd h (by decide)

theorem writes_int (n : ℤ) : Writes (intChars n) (.num (intChars n)) := writes_number (isNumber_intChars n)

theorem writes_bool (b : Bool) : Writes (jsonBool b) (.bool b) := by
  cases b <;> exact ⟨rfl, trivial, by decide⟩

theorem writes_null : Writes "null".toList .null := ⟨rfl, trivial, by decide⟩

theorem newline_notMem_commaSep : ∀ {xs : List (List Char)}, (∀ x ∈ xs, '\n' ∉ x) → '\n' ∉ commaSep xs
  | [], _ => List.not_mem_nil
  | [x], h => h x List.mem_cons_self
  | x :: y :: r, h => by
    have hrest := newline_notMem_commaSep fun z hz => h z (List.mem_cons_of_mem x hz)
    rw [commaSep_cons_cons, List.mem_append, List.mem_cons]
    rintro (hx | hcomma | hr)
    · exact h x List.mem_cons_self hx
    · exact absurd hcomma (by decide)
    · exact hrest hr

theorem writes_array {xs : List (List Char)} {vs : List Json} (h : List.Forall₂ Writes xs vs) :
    Writes (jsonArray xs) (.arr vs) := by
  have hall : xs = writeAll (literal marshalRune) vs ∧ LegibleAll (literal marshalRune) vs ∧ ∀ x ∈ xs, '\n' ∉ x := by
    induction h with
    | nil => exact ⟨rfl, trivial, List.forall_mem_nil _⟩
    | cons hx _ ih => exact ⟨by rw [writeAll, ← hx.text, ← ih.1], ⟨hx.legible, ih.2.1⟩,
        List.forall_mem_cons.mpr ⟨hx.flat, ih.2.2⟩⟩
  obtain ⟨htext, hlegible, hflat⟩ := hall
  refine ⟨by rw [jsonArray, htext, write], hlegible, ?_⟩
  simp only [jsonArray, List.cons_append, List.mem_cons, List.mem_append, List.not_mem_nil, or_false, not_or]
  exact ⟨by decide, newline_notMem_commaSep hflat, by decide⟩

/-- The text of a member. -/
structure WritesMember (m : Bytes × List Char) (m' : Bytes × Json) : Prop where
  name : m'.1 = m.1
  valid : Utf8.valid m.1 = true
  value : Writes m.2 m'.2

theorem writes_object {ms : List (Bytes × List Char)} {ms' : List (Bytes × Json)}
    (h : List.Forall₂ WritesMember ms ms') : Writes (jsonObject ms) (objectOf ms') := by
  have hall : (ms.map fun m => jsonString m.1 ++ ':' :: m.2) =
      writeMembers (literal marshalRune) (ms'.map fun m => (Utf8.text m.1, m.2)) ∧
      LegibleMembers (literal marshalRune) (ms'.map fun m => (Utf8.text m.1, m.2)) ∧
      ∀ x ∈ ms.map fun m => jsonString m.1 ++ ':' :: m.2, '\n' ∉ x := by
    induction h with
    | nil => exact ⟨rfl, trivial, List.forall_mem_nil _⟩
    | @cons m m' _ _ hm _ ih =>
      have hkey := jsonString_eq hm.valid
      refine ⟨?_, ⟨readsBack_marshal _, hm.value.legible, ih.2.1⟩, List.forall_mem_cons.mpr ⟨?_, ih.2.2⟩⟩
      · rw [List.map_cons, List.map_cons, writeMembers, ← ih.1, hkey, hm.name, ← hm.value.text]
      · show '\n' ∉ jsonString m.1 ++ ':' :: m.2
        rw [hkey, List.mem_append, List.mem_cons]
        rintro (hin | hcolon | hin)
        · exact newline_notMem_literal newline_notMem_marshalRune _ hin
        · exact absurd hcolon (by decide)
        · exact hm.value.flat hin
  obtain ⟨htext, hlegible, hflat⟩ := hall
  refine ⟨by rw [jsonObject, htext, objectOf, write], hlegible, ?_⟩
  simp only [jsonObject, List.cons_append, List.mem_cons, List.mem_append, List.not_mem_nil, or_false, not_or]
  exact ⟨by decide, newline_notMem_commaSep hflat, by decide⟩

theorem writesMember_str (name : String) {x : List Char} {v : Json} (h : Writes x v) :
    WritesMember (Utf8.str name, x) (Utf8.str name, v) := ⟨rfl, Utf8.valid_encode _, h⟩

theorem writes_collection {x : List Char} {v : Json} (isNil : Bool) (h : Writes x v) :
    Writes (orNull isNil x) (collection isNil v) := by
  cases isNil with
  | false => exact h
  | true => exact writes_null

theorem writes_offer {o : MerchantOffer} (h : o.Valid) : Writes o.marshal o.indexed := by
  obtain ⟨hlisting, hmerchant, htitle, hlink⟩ := h
  refine writes_object ?_
  simp only [List.forall₂_cons, List.forall₂_nil_left_iff, and_true]
  exact ⟨writesMember_str _ (writes_string hlisting), writesMember_str _ (writes_string hmerchant),
    writesMember_str _ (writes_string htitle), writesMember_str _ (writes_int _), writesMember_str _ (writes_bool _),
    writesMember_str _ (writes_int _), writesMember_str _ (writes_string hlink)⟩

theorem forall₂_map {α : Type} {f : α → List Char} {g : α → Json} {as : List α} (h : ∀ a ∈ as, Writes (f a) (g a)) :
    List.Forall₂ Writes (as.map f) (as.map g) := by
  rw [List.forall₂_map_left_iff, List.forall₂_map_right_iff]
  exact List.forall₂_same.mpr h

variable {F : Type} {enc : Encoding F} {d : ProductDocument F}

theorem writes_attributes (h : d.Valid) : Writes (jsonObject ((byKey d.attributes).map fun e => (e.1, jsonString e.2)))
    (objectOf ((byKey d.attributes).map fun e => (e.1, textValue e.2))) := by
  refine writes_object ?_
  rw [List.forall₂_map_left_iff, List.forall₂_map_right_iff]
  refine List.forall₂_same.mpr fun e he => ?_
  obtain ⟨hkey, hvalue⟩ := h.attributes e ((List.mergeSort_perm _ _).mem_iff.mp he)
  exact ⟨rfl, hkey, writes_string hvalue⟩

theorem numbers_of_mapM {xs : List F} {embedding : List (List Char)} (h : xs.mapM enc.float = .ok embedding) :
    ∀ text ∈ embedding, IsNumber text := by
  induction xs generalizing embedding with
  | nil =>
    obtain rfl := Except.ok.inj h
    exact List.forall_mem_nil _
  | cons x xs ih =>
    rw [List.mapM_cons] at h
    obtain ⟨text, htext, h⟩ := bind_eq_ok.mp h
    obtain ⟨rest, hrest, h⟩ := bind_eq_ok.mp h
    obtain rfl := Except.ok.inj h
    exact List.forall_mem_cons.mpr ⟨enc.isNumber_float htext, ih hrest⟩

theorem writes_document (h : d.Valid) {embedding : List (List Char)} (hnumbers : ∀ text ∈ embedding, IsNumber text)
    (nils : Nils) : Writes (jsonObject (d.members nils embedding)) (d.indexed nils embedding) := by
  refine writes_object (List.rel_append (List.rel_append ?_ ?_) ?_)
  · simp only [List.forall₂_cons, List.forall₂_nil_left_iff, and_true]
    exact ⟨writesMember_str _ (writes_string h.productID), writesMember_str _ (writes_string h.canonicalTitle),
      writesMember_str _ (writes_string h.description), writesMember_str _ (writes_string h.brand),
      writesMember_str _ (writes_string h.categoryID),
      writesMember_str _ (writes_collection _ (writes_attributes h))⟩
  · by_cases hempty : embedding = []
    · rw [if_pos hempty, if_pos hempty]
      exact .nil
    · rw [if_neg hempty, if_neg hempty]
      have harray := forall₂_map (f := id) (g := Json.num) fun text ht => writes_number (hnumbers text ht)
      rw [List.map_id] at harray
      exact .cons (writesMember_str _ (writes_array harray)) .nil
  · simp only [List.forall₂_cons, List.forall₂_nil_left_iff, and_true]
    exact ⟨writesMember_str _ (writes_int _), writesMember_str _ (writes_int _), writesMember_str _ (writes_int _),
      writesMember_str _ (writes_int _), writesMember_str _ (writes_bool _),
      writesMember_str _ (writes_collection _ (writes_array (forall₂_map fun id hid =>
        writes_string (h.merchantIDs id hid)))),
      writesMember_str _ (writes_collection _ (writes_array (forall₂_map fun o ho => writes_offer (h.offers o ho)))),
      writesMember_str _ (writes_string h.indexedAt)⟩

theorem newline_notMem_encode {cs : List Char} (h : '\n' ∉ cs) : (10 : UInt8) ∉ Utf8.encode cs :=
  fun hmem => h ((Utf8.ascii_mem_encode (a := '\n') (by decide)).mp hmem)

/-- **The document line is JSON**, and says what is indexed. -/
theorem parse_source (h : d.Valid) {source : Bytes} (hm : enc.marshal d = .ok source) :
    10 ∉ source ∧ ∃ embedding, d.embedding.mapM enc.float = .ok embedding ∧
      parseLine source = some (d.indexed (enc.nils d) embedding) := by
  obtain ⟨embedding, hfloats, hsource⟩ := bind_eq_ok.mp hm
  rw [mapError_eq_ok] at hfloats
  obtain rfl := Except.ok.inj hsource
  have hwrites := writes_document h (numbers_of_mapM hfloats) (enc.nils d)
  refine ⟨newline_notMem_encode hwrites.flat, embedding, hfloats, ?_⟩
  rw [parseLine, Utf8.text_encode, hwrites.text]
  exact parse_write hwrites.legible

end Source

/-! ## The action line -/

section Action

variable {t : PrintTable} {index id : Bytes}

/-- Every character of the text is quotable. -/
def QuotableText (t : PrintTable) (s : Bytes) : Prop := ∀ c ∈ Utf8.text s, Quotable t c

/-- The literal of a name. -/
def quoted (t : PrintTable) (cs : List Char) : List Char := literal (quoteRune t) cs

theorem readsBack_quoted (h : ∀ c ∈ Utf8.text index, Quotable t c) : ReadsBack (quoted t) (Utf8.text index) :=
  readsBack_literal fun c hc => reads_quoteRune (h c hc)

theorem quote_eq (h : Utf8.valid index = true) : quote t index = quoted t (Utf8.text index) := by
  rw [quoted, ← quote_encode, Utf8.encode_text h]

/-- A character that is visible and that no literal escapes. -/
def unescaped (c : Char) : Bool := (0x20 ≤ c.toNat ∧ c.toNat < 0x7f) ∧ c ≠ '"' ∧ c ≠ '\\'

/-- A name in the format is what `%q` makes of it, and JSON. -/
theorem quoted_name {name : List Char} (h : name.all unescaped = true) :
    quoted t name = '"' :: name ++ ['"'] ∧ ReadsBack (quoted t) name := by
  have hplain : ∀ c ∈ name, (0x20 ≤ c.toNat ∧ c.toNat < 0x7f) ∧ c ≠ '"' ∧ c ≠ '\\' := fun c hc =>
    of_decide_eq_true (List.all_eq_true.mp h c hc)
  refine ⟨literal_quoteRune hplain, readsBack_literal fun c hc => reads_quoteRune ?_⟩
  obtain ⟨hrange, -⟩ := hplain c hc
  exact ⟨fun hlow => by omega, by omega, fun hlong => by omega⟩

theorem actionText_eq (hindex : Utf8.valid index = true) (hid : Utf8.valid id = true) :
    actionText t index id = '{' :: (quoted t "index".toList ++ ':' :: '{' :: (quoted t "_index".toList ++ ':' ::
      (quoted t (Utf8.text index) ++ ',' :: (quoted t "_id".toList ++ ':' :: (quoted t (Utf8.text id) ++
        ['}', '}']))))) := by
  have h1 := quote_eq (t := t) hindex
  have h2 := quote_eq (t := t) hid
  have h3 : quoted t "index".toList = "\"index\"".toList := (quoted_name (by decide)).1
  have h4 : quoted t "_index".toList = "\"_index\"".toList := (quoted_name (by decide)).1
  have h5 : quoted t "_id".toList = "\"_id\"".toList := (quoted_name (by decide)).1
  unfold actionText
  rw [h1, h2, h3, h4, h5]
  rfl

/-- **The action line is JSON exactly if `%q` writes both identifiers as JSON does.** -/
theorem parse_action (hindex : Utf8.valid index = true) (hid : Utf8.valid id = true) :
    parse (actionText t index id) = some (indexAction index id) ↔ QuotableText t index ∧ QuotableText t id := by
  have hname : ReadsBack (quoted t) "index".toList := (quoted_name (by decide)).2
  have hname' : ReadsBack (quoted t) "_index".toList := (quoted_name (by decide)).2
  have hname'' : ReadsBack (quoted t) "_id".toList := (quoted_name (by decide)).2
  have hsplit : ∀ s : Bytes, ∀ c ∈ Utf8.text s, Reads (quoteRune t) c ∨ Spoils (quoteRune t) c := fun s c _ =>
    (em (Quotable t c)).imp reads_quoteRune spoils_quoteRune
  have hspoils : ∀ s : Bytes, ¬QuotableText t s → ∃ c ∈ Utf8.text s, Spoils (quoteRune t) c := by
    intro s hs
    obtain ⟨c, hc⟩ := not_forall.mp hs
    obtain ⟨hmem, hnot⟩ := Classical.not_imp.mp hc
    exact ⟨c, hmem, spoils_quoteRune hnot⟩
  have hopen : ∀ {name : List Char} (y : List Char), ReadsBack (quoted t) name →
      take '}' (quoted t name ++ y) = none := by
    intro name y h
    obtain ⟨x, hx⟩ := h.cons
    rw [hx]
    exact take_of_ne (by decide) (by decide) _
  constructor
  · intro hparse
    by_contra hnot
    -- what is behind the name `_index` cannot be read, because of one identifier or of the other
    have hinner : ∀ n, readMembers n (quoted t "_index".toList ++ ':' :: (quoted t (Utf8.text index) ++ ',' ::
        (quoted t "_id".toList ++ ':' :: (quoted t (Utf8.text id) ++ ['}', '}'])))) = none := by
      intro n
      by_cases hq : QuotableText t index
      · have hq' : ¬QuotableText t id := fun h => hnot ⟨hq, h⟩
        refine readMembers_rest_none hname' (readsBack_quoted hq) fun n => ?_
        exact readMembers_none hname'' fun n => readValue_spoiled (hspoils id hq') (hsplit id) _
      · exact readMembers_none hname' fun n => readValue_spoiled (hspoils index hq) (hsplit index) _
    have hnone : ∀ n, readValue n (actionText t index id) = none := by
      intro n
      rw [actionText_eq hindex hid]
      refine readValue_object_none (hopen _ hname) fun n => ?_
      exact readMembers_none hname fun n => readValue_object_none (hopen _ hname') hinner
    rw [parse, hnone] at hparse
    cases hparse
  · rintro ⟨hq, hq'⟩
    have hwrite : actionText t index id = write (quoted t) (indexAction index id) := by
      rw [actionText_eq hindex hid]
      simp only [indexAction, objectOf, textValue, List.map_cons, List.map_nil, write, writeMembers, commaSep_cons_cons,
        commaSep, Utf8.str, Utf8.text_encode, List.append_assoc, List.cons_append, List.nil_append]
    rw [hwrite]
    refine parse_write ?_
    simp only [indexAction, objectOf, textValue, List.map_cons, List.map_nil, Legible, LegibleMembers, Utf8.str,
      Utf8.text_encode]
    exact ⟨hname, ⟨hname', readsBack_quoted hq, hname'', readsBack_quoted hq', trivial⟩, trivial⟩

theorem newline_notMem_action (hindex : Utf8.valid index = true) (hid : Utf8.valid id = true) :
    10 ∉ Utf8.encode (actionText t index id) := by
  refine newline_notMem_encode ?_
  have hquoted : ∀ s : Bytes, Utf8.valid s = true → '\n' ∉ quote t s := by
    intro s hs
    rw [quote_eq (t := t) hs]
    exact newline_notMem_literal (newline_notMem_quoteRune t) _
  unfold actionText
  simp only [List.mem_append, not_or]
  exact ⟨by decide, hquoted index hindex, by decide, hquoted id hid, by decide⟩

end Action

/-! ## The body -/

section Body

variable {F : Type} {enc : Encoding F} {cl : Cluster F} {index : Bytes} {docs : List (ProductDocument F)}
  {body : List BulkLine}

theorem getElem?_pairs {α β : Type} (f g : α → β) (as : List α) (i : ℕ) :
    (as.flatMap fun a => [f a, g a])[2 * i]? = as[i]?.map f ∧
      (as.flatMap fun a => [f a, g a])[2 * i + 1]? = as[i]?.map g := by
  induction as generalizing i with
  | nil => simp
  | cons a as ih =>
    rw [List.flatMap_cons]
    cases i with
    | zero => exact ⟨rfl, rfl⟩
    | succ i => exact ih i

/-- The lines of the body. -/
def bodyLines (t : PrintTable) (body : List BulkLine) : List Bytes :=
  body.flatMap fun line => [Utf8.encode (actionText t line.index line.id), line.source]

theorem length_bodyLines (t : PrintTable) (body : List BulkLine) : (bodyLines t body).length = 2 * body.length := by
  induction body with
  | nil => rfl
  | cons line body ih =>
    have hcons : bodyLines t (line :: body) = Utf8.encode (actionText t line.index line.id) :: line.source ::
        bodyLines t body := rfl
    rw [hcons, List.length_cons, List.length_cons, List.length_cons, ih]
    omega

theorem isLines_bulkBytes (hindex : Utf8.valid index = true) (hdocs : ∀ d ∈ docs, d.Valid)
    (h : List.Forall₂ (Carries (enc.cluster cl) index) docs body) :
    IsLines (bulkBytes enc.table body) (bodyLines enc.table body) := by
  induction h with
  | nil => rfl
  | @cons d line docs body hline _ ih =>
    obtain ⟨hline, hid, hmarshal⟩ := hline
    have hd := hdocs d List.mem_cons_self
    have haction : 10 ∉ Utf8.encode (actionText enc.table line.index line.id) := by
      rw [hline, hid]
      exact newline_notMem_action hindex hd.productID
    have hsource : 10 ∉ line.source := (parse_source hd hmarshal).1
    have htail : (bulkBytes enc.table body).splitOn 10 = bodyLines enc.table body ++ [[]] :=
      ih fun d hd => hdocs d (List.mem_cons_of_mem _ hd)
    have hbytes : bulkBytes enc.table (line :: body) = Utf8.encode (actionText enc.table line.index line.id) ++
        10 :: (line.source ++ 10 :: bulkBytes enc.table body) := by
      simp only [bulkBytes, List.flatMap_cons, BulkLine.text, List.append_assoc, List.cons_append, List.nil_append]
    unfold IsLines
    rw [hbytes, List.splitOn_append_cons_self, List.splitOn_eq_singleton haction, List.splitOn_append_cons_self,
      List.splitOn_eq_singleton hsource, htail]
    rfl

/-- The two lines of a document. -/
theorem parse_bodyLines (hdocs : ∀ d ∈ docs, d.Valid) (h : List.Forall₂ (Carries (enc.cluster cl) index) docs body)
    {i : ℕ} {d : ProductDocument F} (hd : docs[i]? = some d) :
    (bodyLines enc.table body)[2 * i]?.bind parseLine = parse (actionText enc.table index d.productID) ∧
      ∃ embedding, d.embedding.mapM enc.float = .ok embedding ∧
        (bodyLines enc.table body)[2 * i + 1]?.bind parseLine = some (d.indexed (enc.nils d) embedding) := by
  obtain ⟨hi, rfl⟩ := List.getElem?_eq_some_iff.mp hd
  have hi' : i < body.length := h.length_eq ▸ hi
  have hline : body[i]? = some body[i] := List.getElem?_eq_getElem hi'
  obtain ⟨hindexed, hid, hmarshal⟩ := (List.forall₂_iff_get.mp h).2 i hi hi'
  simp only [List.get_eq_getElem] at hindexed hid hmarshal
  obtain ⟨haction, hsource⟩ := getElem?_pairs (fun line : BulkLine =>
    Utf8.encode (actionText enc.table line.index line.id)) (fun line => line.source) body i
  obtain ⟨-, embedding, hembedding, hparse⟩ := parse_source (hdocs _ (List.getElem_mem hi)) hmarshal
  refine ⟨?_, embedding, hembedding, ?_⟩
  · rw [bodyLines, haction, hline, Option.map_some, Option.bind_some, hindexed, hid, parseLine, Utf8.text_encode]
  · rw [bodyLines, hsource, hline, Option.map_some, Option.bind_some, hparse]

/-- In a well-formed body each document has its action. -/
theorem WellFormed.action (hindex : Utf8.valid index = true) (hdocs : ∀ d ∈ docs, d.Valid)
    (h : List.Forall₂ (Carries (enc.cluster cl) index) docs body)
    (hw : WellFormed enc index docs (bulkBytes enc.table body)) {d : ProductDocument F} (hd : d ∈ docs) :
    parse (actionText enc.table index d.productID) = some (indexAction index d.productID) := by
  obtain ⟨lines, hsplit, -, hparse⟩ := hw
  obtain rfl : lines = bodyLines enc.table body :=
    List.append_cancel_right (hsplit.symm.trans (isLines_bulkBytes hindex hdocs h))
  obtain ⟨i, hi⟩ := List.getElem?_of_mem hd
  have haction := (hparse i d hi).1
  rwa [(parse_bodyLines hdocs h hi).1] at haction

/-- **A bulk body is well formed exactly if `%q` writes the name of the index and every id as JSON does.** -/
theorem bulk_wellFormed_iff (hindex : Utf8.valid index = true) (hdocs : ∀ d ∈ docs, d.Valid)
    (h : bulkBody (enc.cluster cl) index docs = .ok body) : WellFormed enc index docs (bulkBytes enc.table body) ↔
      ∀ d ∈ docs, QuotableText enc.table index ∧ QuotableText enc.table d.productID := by
  have hcarries := bulkBody_eq_ok h
  constructor
  · intro hw d hd
    exact (parse_action hindex (hdocs d hd).productID).mp (hw.action hindex hdocs hcarries hd)
  · intro hquotable
    refine ⟨bodyLines enc.table body, isLines_bulkBytes hindex hdocs hcarries,
      by rw [length_bodyLines, hcarries.length_eq], fun i d hi => ?_⟩
    have hd : d ∈ docs := List.mem_of_getElem? hi
    obtain ⟨haction, hsource⟩ := parse_bodyLines hdocs hcarries hi
    exact ⟨haction.trans ((parse_action hindex (hdocs d hd).productID).mpr (hquotable d hd)), hsource⟩

end Body

/-! ## An id with a control character -/

namespace Bulk

def encoding : Encoding Bool where
  table := asciiTable
  float b := .ok [if b then '1' else '0']
  isNumber_float := by
    intro b text h
    obtain rfl := Except.ok.inj h
    cases b <;> decide
  nils _ := ⟨false, false, false⟩

/-- The document under another id. -/
def renamed (id : List Char) : ProductDocument Bool := { document with productID := Utf8.encode id }

theorem valid_renamed (id : List Char) : (renamed id).Valid where
  productID := Utf8.valid_encode id
  canonicalTitle := Utf8.valid_encode _
  description := Utf8.valid_encode _
  brand := Utf8.valid_encode _
  categoryID := Utf8.valid_encode _
  attributes := List.forall_mem_nil _
  merchantIDs := List.forall_mem_singleton.mpr (Utf8.valid_encode _)
  offers := List.forall_mem_singleton.mpr
    ⟨Utf8.valid_encode _, Utf8.valid_encode _, Utf8.valid_encode _, Utf8.valid_encode _⟩
  indexedAt := Utf8.valid_encode []

/-- The encoding of the document. -/
def source (id : List Char) : Bytes := Utf8.encode (jsonObject ((renamed id).members ⟨false, false, false⟩ []))

theorem bulkBody_renamed (id : List Char) : bulkBody (encoding.cluster cluster) index [renamed id] =
    .ok [⟨index, Utf8.encode id, source id⟩] := rfl

/-- A quote and a newline do no harm. -/
theorem bulk_wellFormed_iff_sample :
    WellFormed encoding index [renamed ['"', '\n']]
      (bulkBytes asciiTable [⟨index, Utf8.encode ['"', '\n'], source ['"', '\n']⟩]) ↔
      ∀ d ∈ [renamed ['"', '\n']], QuotableText asciiTable index ∧ QuotableText asciiTable d.productID :=
  bulk_wellFormed_iff (Utf8.valid_encode _) (List.forall_mem_singleton.mpr (valid_renamed _)) (bulkBody_renamed _)

/-- **A control character in an id spoils the request.** -/
theorem bulk_not_wellFormed : (renamed ['\x01']).Valid ∧
    bulkBody (encoding.cluster cluster) index [renamed ['\x01']] =
      .ok [⟨index, Utf8.encode ['\x01'], source ['\x01']⟩] ∧
    ¬WellFormed encoding index [renamed ['\x01']]
      (bulkBytes asciiTable [⟨index, Utf8.encode ['\x01'], source ['\x01']⟩]) := by
  have hindex : Utf8.valid index = true := Utf8.valid_encode _
  have hdocs : ∀ d ∈ [renamed ['\x01']], d.Valid := List.forall_mem_singleton.mpr (valid_renamed _)
  refine ⟨valid_renamed _, bulkBody_renamed _, fun hw => ?_⟩
  have haction := hw.action hindex hdocs (bulkBody_eq_ok (bulkBody_renamed _)) List.mem_cons_self
  have hquotable := ((parse_action hindex (Utf8.valid_encode ['\x01'])).mp haction).2 '\x01'
    (by rw [Utf8.text_encode]; exact List.mem_cons_self)
  exact absurd hquotable (by decide)

end Bulk

end Ingest
