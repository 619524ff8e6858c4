import AgenticAttribution.Generator.Csv
import AgenticAttribution.Lib.GoJson

/-!
# Ingest.SeedFiles — the seed files on their way into the tables

`csvCopySource` hands the rows of a seed file to `COPY`.  It does not know the columns: `coerce` makes a flag or an
integer out of every field that looks like one.  `roundTrips_iff` compares what it hands over with the catalogue that
`Generator.writeCSV` wrote, at the types the tables declare.
-/

namespace Ingest

open Csv (unix)

/-! ## `csvCopySource` -/

/-- What a row hands to `COPY` for a column. -/
inductive Value where
  | text (s : Bytes)
  | int (n : ℤ)
  | bool (b : Bool)
  deriving DecidableEq

/-- `strconv.ParseInt(raw, 10, 64)`. -/
def parseInt (raw : Bytes) : Option ℤ :=
  match Utf8.latin1 raw with
  | '+' :: cs => if cs.head? = some '-' then none else GoJson.parseInt cs
  | cs => GoJson.parseInt cs

def coerce (raw : Bytes) : Value :=
  if raw = Utf8.str "t" then .bool true
  else if raw = Utf8.str "f" then .bool false
  else
    match parseInt raw with
    | some n => .int n
    | none => .text raw

inductive CopyError where
  /-- The header cannot be read; without an error of the reader, the file is empty. -/
  | header (e : Option Csv.ReadError)
  | read (e : Csv.ReadError)
  | columns (expected got : ℕ)
  deriving DecidableEq

/-- The rows that `Next` and `Values` hand over, and the error that ends them.  The reader takes every record to have
as many fields as the header. -/
def copyRows (columnCount fieldsPerRecord : ℕ) (e : Option Csv.ReadError) :
    List (List Bytes) → List (List Value) × Option CopyError
  | [] => ([], e.map .read)
  | record :: records =>
    if record.length ≠ fieldsPerRecord then ([], some (.read .fieldCount))
    else if record.length ≠ columnCount then ([], some (.columns columnCount record.length))
    else (copyRows columnCount fieldsPerRecord e records).map (record.map coerce :: ·) id

/-- The rows of a file that arrive at `COPY`; an error takes all of them back. -/
def copyCSVDirect (columns : List String) (file : Bytes) : Except CopyError (List (List Value)) :=
  match Csv.readAll file with
  | ([], e) => .error (.header e)
  | (header :: records, e) =>
    match copyRows columns.length header.length e records with
    | (rows, none) => .ok rows
    | (_, some e) => .error e

/-! ## The columns -/

/-- The columns that `LoadReference` and `LoadListings` copy into. -/
def merchantCopyColumns : List String :=
  ["merchant_id", "name", "default_commission_bps", "hold_period_days", "reversal_window_days"]

def publisherCopyColumns : List String := ["publisher_id", "name", "payout_currency"]

def productCopyColumns : List String :=
  ["product_id", "canonical_title", "brand", "category_id", "description", "attributes"]

def listingCopyColumns : List String :=
  ["listing_id", "product_id", "merchant_id", "merchant_sku", "listing_title", "price_cents", "currency", "in_stock",
    "commission_bps", "deep_link_url"]

inductive ColumnType where
  | text
  | jsonb
  | integer
  | bigint
  | boolean

def Value.fits : Value → ColumnType → Bool
  | .text _, .text | .text _, .jsonb | .int _, .integer | .int _, .bigint | .bool _, .boolean => true
  | _, _ => false

/-- A column of a table, with what a row of the catalogue holds for it. -/
structure Column (α : Type) where
  name : String
  type : ColumnType
  value : α → Value
  fits : ∀ a, (value a).fits type = true

def merchantsTable : List (Column Generator.Merchant) :=
  [⟨"merchant_id", .text, fun m => .text m.merchantID, fun _ => rfl⟩,
   ⟨"name", .text, fun m => .text m.name, fun _ => rfl⟩,
   ⟨"default_commission_bps", .integer, fun m => .int m.defaultCommissionBps.toInt, fun _ => rfl⟩,
   ⟨"hold_period_days", .integer, fun m => .int m.holdPeriodDays.toInt, fun _ => rfl⟩,
   ⟨"reversal_window_days", .integer, fun m => .int m.reversalWindowDays.toInt, fun _ => rfl⟩]

def publishersTable : List (Column Generator.Publisher) :=
  [⟨"publisher_id", .text, fun p => .text p.publisherID, fun _ => rfl⟩,
   ⟨"name", .text, fun p => .text p.name, fun _ => rfl⟩,
   ⟨"payout_currency", .text, fun p => .text p.payoutCurrency, fun _ => rfl⟩]

def productsTable : List (Column Generator.Product) :=
  [⟨"product_id", .text, fun p => .text p.productID, fun _ => rfl⟩,
   ⟨"canonical_title", .text, fun p => .text p.canonicalTitle, fun _ => rfl⟩,
   ⟨"brand", .text, fun p => .text p.brand, fun _ => rfl⟩,
   ⟨"category_id", .text, fun p => .text p.categoryID, fun _ => rfl⟩,
   ⟨"description", .text, fun p => .text p.description, fun _ => rfl⟩,
   ⟨"attributes", .jsonb, fun p => .text p.attributesJSON, fun _ => rfl⟩]

def listingsTable : List (Column Generator.Listing) :=
  [⟨"listing_id", .text, fun l => .text l.listingID, fun _ => rfl⟩,
   ⟨"product_id", .text, fun l => .text l.productID, fun _ => rfl⟩,
   ⟨"merchant_id", .text, fun l => .text l.merchantID, fun _ => rfl⟩,
   ⟨"merchant_sku", .text, fun l => .text l.merchantSKU, fun _ => rfl⟩,
   ⟨"listing_title", .text, fun l => .text l.listingTitle, fun _ => rfl⟩,
   ⟨"price_cents", .bigint, fun l => .int l.priceCents.toInt, fun _ => rfl⟩,
   ⟨"currency", .text, fun l => .text l.currency, fun _ => rfl⟩,
   ⟨"in_stock", .boolean, fun l => .bool l.inStock, fun _ => rfl⟩,
   ⟨"commission_bps", .integer, fun l => .int l.commissionBps.toInt, fun _ => rfl⟩,
   ⟨"deep_link_url", .text, fun l => .text l.deepLinkURL, fun _ => rfl⟩]

/-- What a row of the catalogue holds for the named columns. -/
def original {α : Type} (table : List (Column α)) (columns : List String) (a : α) : List (Option Value) :=
  columns.map fun name => (table.find? (·.name = name)).map (·.value a)

/-- The file is read back as these rows, column for column. -/
def Yields {α : Type} (columns : List String) (file : Bytes) (table : List (Column α)) (as : List α) : Prop :=
  ∃ rows, copyCSVDirect columns file = .ok rows ∧ rows.map (List.map some) = as.map (original table columns)

/-- The four files are read back as the catalogue they were written from. -/
structure RoundTrips (c : Generator.Catalog) : Prop where
  merchants : Yields merchantCopyColumns (Generator.writeCSV c).merchants merchantsTable c.merchants
  publishers : Yields publisherCopyColumns (Generator.writeCSV c).publishers publishersTable c.publishers
  products : Yields productCopyColumns (Generator.writeCSV c).products productsTable c.products
  listings : Yields listingCopyColumns (Generator.writeCSV c).listings listingsTable c.listings

/-- A text that no reader takes for a line end, a flag or an integer. -/
structure Plain (s : Bytes) : Prop where
  line : ¬[Csv.ret, Csv.newline] <:+: s
  notTrue : s ≠ Utf8.str "t"
  notFalse : s ≠ Utf8.str "f"
  noInteger : parseInt s = none

/-! ## Fields -/

section Fields

theorem coerce_eq_text_iff {raw s : Bytes} :
    coerce raw = .text s ↔ raw = s ∧ raw ≠ Utf8.str "t" ∧ raw ≠ Utf8.str "f" ∧ parseInt raw = none := by
  unfold coerce
  by_cases ht : raw = Utf8.str "t"
  · simp [ht]
  · by_cases hf : raw = Utf8.str "f"
    · rw [if_neg ht, if_pos hf]
      simp [hf]
    · rw [if_neg ht, if_neg hf]
      cases hn : parseInt raw with
      | some n => simp
      | none => simp [ht, hf]

/-- **A text arrives as it was written exactly if it is plain.** -/
theorem coerce_unix_iff (s : Bytes) : coerce (unix s) = .text s ↔ Plain s := by
  rw [coerce_eq_text_iff, Csv.unix_eq_self_iff]
  constructor
  · rintro ⟨hline, h⟩
    rw [(Csv.unix_eq_self_iff s).mpr hline] at h
    exact ⟨hline, h.1, h.2.1, h.2.2⟩
  · intro h
    rw [(Csv.unix_eq_self_iff s).mpr h.line]
    exact ⟨h.line, h.notTrue, h.notFalse, h.noInteger⟩

theorem coerce_boolForCopy (b : Bool) : coerce (unix (Generator.boolForCopy b)) = .bool b := by
  cases b <;> rfl

theorem parseInt_itoa (n : Int64) : parseInt (Generator.itoa n) = some n.toInt := by
  have hlow : -2 ^ 63 ≤ n.toInt := n.le_toInt
  have hhigh : n.toInt < 2 ^ 63 := n.toInt_lt
  unfold parseInt
  rw [Generator.latin1_itoa]
  split
  · rename_i cs h
    have hmem : '+' ∈ Digits.intChars n.toInt := h ▸ List.mem_cons_self
    exact absurd hmem (Digits.notMem_intChars rfl (by decide) _)
  · exact GoJson.parseInt_intChars hlow hhigh

theorem unix_itoa (n : Int64) : unix (Generator.itoa n) = Generator.itoa n := by
  rw [Csv.unix_eq_self_iff]
  intro h
  exact Generator.notMem_itoa n (b := Csv.ret) rfl (by decide) (h.subset List.mem_cons_self)

/-- **An integer arrives as the integer.** -/
theorem coerce_itoa (n : Int64) : coerce (unix (Generator.itoa n)) = .int n.toInt := by
  have hletter : ∀ b : UInt8, (Char.ofNat b.toNat).isDigit = false → Char.ofNat b.toNat ≠ '-' →
      Generator.itoa n ≠ [b] := by
    intro b hd hs h
    exact Generator.notMem_itoa n hd hs (h ▸ List.mem_singleton_self b)
  have ht : Generator.itoa n ≠ Utf8.str "t" := hletter 116 rfl (by decide)
  have hf : Generator.itoa n ≠ Utf8.str "f" := hletter 102 rfl (by decide)
  rw [unix_itoa, coerce, if_neg ht, if_neg hf, parseInt_itoa]

end Fields

/-! ## Files -/

section Files

theorem copyRows_of_length {n : ℕ} {records : List (List Bytes)} (h : ∀ r ∈ records, r.length = n) :
    copyRows n n none records = (records.map (List.map coerce), none) := by
  induction records with
  | nil => rfl
  | cons r records ih =>
    have hr : r.length = n := h r List.mem_cons_self
    rw [copyRows, if_neg (not_not.mpr hr), if_neg (not_not.mpr hr), ih fun r' hr' => h r' (List.mem_cons_of_mem r hr')]
    rfl

/-- A file of `writeRows` hands over every field of every row. -/
theorem copyCSVDirect_writeRows {header columns : List String} {rows : List (List Bytes)} (htwo : 2 ≤ header.length)
    (hheader : header.length = columns.length) (hrows : ∀ r ∈ rows, r.length = columns.length) :
    copyCSVDirect columns (Generator.writeRows header rows)
      = .ok (rows.map (List.map fun f => coerce (unix f))) := by
  have hread : Csv.readAll (Generator.writeRows header rows)
      = ((header.map Utf8.str).map unix :: rows.map (List.map unix), none) := by
    apply Csv.readAll_write
    intro r hr
    rcases List.mem_cons.mp hr with rfl | hr
    · rw [List.length_map]
      exact htwo
    · rw [hrows r hr, ← hheader]
      exact htwo
  have hlen : ((header.map Utf8.str).map unix).length = columns.length := by
    rw [List.length_map, List.length_map, hheader]
  have hrecords : ∀ r ∈ rows.map (List.map unix), r.length = columns.length := by
    intro r hr
    obtain ⟨r', hr', rfl⟩ := List.mem_map.mp hr
    rw [List.length_map, hrows r' hr']
  have hfields : (rows.map (List.map unix)).map (List.map coerce) = rows.map (List.map fun f => coerce (unix f)) := by
    simp only [List.map_map, Function.comp_def]
  rw [copyCSVDirect, hread]
  simp only
  rw [hlen, copyRows_of_length hrecords, hfields]

/-- The rows arrive exactly if every one of them arrives. -/
theorem yields_iff {α : Type} {header columns : List String} {record : α → List Bytes} (htwo : 2 ≤ header.length)
    (hheader : header.length = columns.length) (hrecord : ∀ a, (record a).length = columns.length)
    (table : List (Column α)) (as : List α) :
    Yields columns (Generator.writeRows header (as.map record)) table as
      ↔ ∀ a ∈ as, (record a).map (fun f => some (coerce (unix f))) = original table columns a := by
  have hrows : ∀ r ∈ as.map record, r.length = columns.length := by
    intro r hr
    obtain ⟨a, -, rfl⟩ := List.mem_map.mp hr
    exact hrecord a
  have hcopy := copyCSVDirect_writeRows htwo hheader hrows
  have hmap : ((as.map record).map (List.map fun f => coerce (unix f))).map (List.map some)
      = as.map fun a => (record a).map fun f => some (coerce (unix f)) := by
    simp only [List.map_map, Function.comp_def]
  rw [← List.map_inj_left, ← hmap]
  constructor
  · rintro ⟨rows, hok, hrows⟩
    rw [hcopy] at hok
    cases hok
    exact hrows
  · intro h
    exact ⟨_, hcopy, h⟩

theorem merchants_iff (c : Generator.Catalog) :
    Yields merchantCopyColumns (Generator.writeCSV c).merchants merchantsTable c.merchants
      ↔ ∀ m ∈ c.merchants, ∀ s ∈ [m.merchantID, m.name], Plain s := by
  refine (yields_iff (by decide) rfl (fun _ => rfl) merchantsTable c.merchants).trans (forall₂_congr fun m _ => ?_)
  have horiginal : original merchantsTable merchantCopyColumns m = [some (.text m.merchantID), some (.text m.name),
    some (.int m.defaultCommissionBps.toInt), some (.int m.holdPeriodDays.toInt),
    some (.int m.reversalWindowDays.toInt)] := rfl
  rw [horiginal]
  simp [Generator.Merchant.record, coerce_unix_iff, coerce_itoa]

theorem publishers_iff (c : Generator.Catalog) :
    Yields publisherCopyColumns (Generator.writeCSV c).publishers publishersTable c.publishers
      ↔ ∀ p ∈ c.publishers, ∀ s ∈ [p.publisherID, p.name, p.payoutCurrency], Plain s := by
  refine (yields_iff (by decide) rfl (fun _ => rfl) publishersTable c.publishers).trans (forall₂_congr fun p _ => ?_)
  have horiginal : original publishersTable publisherCopyColumns p = [some (.text p.publisherID), some (.text p.name),
    some (.text p.payoutCurrency)] := rfl
  rw [horiginal]
  simp [Generator.Publisher.record, coerce_unix_iff]

theorem products_iff (c : Generator.Catalog) :
    Yields productCopyColumns (Generator.writeCSV c).products productsTable c.products
      ↔ ∀ p ∈ c.products, ∀ s ∈
        [p.productID, p.canonicalTitle, p.brand, p.categoryID, p.description, p.attributesJSON], Plain s := by
  refine (yields_iff (by decide) rfl (fun _ => rfl) productsTable c.products).trans (forall₂_congr fun p _ => ?_)
  have horiginal : original productsTable productCopyColumns p = [some (.text p.productID),
    some (.text p.canonicalTitle), some (.text p.brand), some (.text p.categoryID), some (.text p.description),
    some (.text p.attributesJSON)] := rfl
  rw [horiginal]
  simp [Generator.Product.record, coerce_unix_iff]

theorem listings_iff (c : Generator.Catalog) :
    Yields listingCopyColumns (Generator.writeCSV c).listings listingsTable c.listings
      ↔ ∀ l ∈ c.listings, ∀ s ∈
        [l.listingID, l.productID, l.merchantID, l.merchantSKU, l.listingTitle, l.currency, l.deepLinkURL],
          Plain s := by
  refine (yields_iff (by decide) rfl (fun _ => rfl) listingsTable c.listings).trans (forall₂_congr fun l _ => ?_)
  have horiginal : original listingsTable listingCopyColumns l = [some (.text l.listingID), some (.text l.productID),
    some (.text l.merchantID), some (.text l.merchantSKU), some (.text l.listingTitle),
    some (.int l.priceCents.toInt), some (.text l.currency), some (.bool l.inStock),
    some (.int l.commissionBps.toInt), some (.text l.deepLinkURL)] := rfl
  rw [horiginal]
  simp [Generator.Listing.record, coerce_unix_iff, coerce_itoa, coerce_boolForCopy]

/-- **The seed files round-trip exactly if every text of the catalogue is plain**: the numbers and the flags always
arrive, and a text does unless it holds a carriage return before a line feed or reads like a flag or an integer. -/
theorem roundTrips_iff (c : Generator.Catalog) : RoundTrips c ↔ ∀ s ∈ c.texts, Plain s := by
  have htexts : (∀ s ∈ c.texts, Plain s) ↔
      Yields merchantCopyColumns (Generator.writeCSV c).merchants merchantsTable c.merchants ∧
      Yields publisherCopyColumns (Generator.writeCSV c).publishers publishersTable c.publishers ∧
      Yields productCopyColumns (Generator.writeCSV c).products productsTable c.products ∧
      Yields listingCopyColumns (Generator.writeCSV c).listings listingsTable c.listings := by
    rw [merchants_iff, publishers_iff, products_iff, listings_iff, Generator.Catalog.texts, List.forall_mem_append,
      List.forall_mem_append, List.forall_mem_append, List.forall_mem_flatMap, List.forall_mem_flatMap,
      List.forall_mem_flatMap, List.forall_mem_flatMap, and_assoc, and_assoc]
  rw [htexts]
  constructor
  · exact fun h => ⟨h.merchants, h.publishers, h.products, h.listings⟩
  · rintro ⟨hm, hpub, hprod, hl⟩
    exact ⟨hm, hpub, hprod, hl⟩

/-! ### Texts that do not survive -/

namespace Sample.Shoes

/-- A catalogue of one product. -/
def catalog (title brand description : String) : Generator.Catalog where
  merchants := []
  publishers := []
  products := [⟨Utf8.str "prd_00000001", Utf8.str title, Utf8.str brand, Utf8.str "footwear", Utf8.str description,
    Utf8.str "\x7b\x7d"⟩]
  listings := []

end Sample.Shoes

/-- A product called 1984, one of the brand t, and one whose description has a line end of two characters. -/
theorem not_roundTrips : ¬RoundTrips (Sample.Shoes.catalog "1984" "Orwell" "A novel.") ∧
    ¬RoundTrips (Sample.Shoes.catalog "Shoe" "t" "A shoe.") ∧
    ¬RoundTrips (Sample.Shoes.catalog "Shoe" "Marathon" "A shoe.\r\nOr two.") := by
  simp only [roundTrips_iff]
  refine ⟨fun h => ?_, fun h => ?_, fun h => ?_⟩
  · have hplain : Plain (Utf8.str "1984") := h _ (by simp [Generator.Catalog.texts, Sample.Shoes.catalog])
    have hnumeral : Generator.itoa 1984 = Utf8.str "1984" := by rfl
    have hnone : parseInt (Generator.itoa 1984) = none := hnumeral ▸ hplain.noInteger
    rw [parseInt_itoa] at hnone
    exact nomatch hnone
  · have hplain : Plain (Utf8.str "t") := h _ (by simp [Generator.Catalog.texts, Sample.Shoes.catalog])
    exact hplain.notTrue rfl
  · have hplain : Plain (Utf8.str "A shoe.\r\nOr two.") :=
      h _ (by simp [Generator.Catalog.texts, Sample.Shoes.catalog])
    refine hplain.line ⟨Utf8.str "A shoe.", Utf8.str "Or two.", ?_⟩
    rfl

end Files

end Ingest
