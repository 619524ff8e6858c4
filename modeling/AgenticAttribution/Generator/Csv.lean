import AgenticAttribution.Lib.Csv
import AgenticAttribution.Lib.Digits

/-!
# Generator.Csv — the four seed files

`WriteCSV` writes a catalogue into four files of comma-separated values, one record for each row behind a record of
column names.  Every field is text by then: an integer is its decimal numeral, a boolean one letter.
-/

namespace Generator

/-! ## The catalogue -/

structure Merchant where
  merchantID : Bytes
  name : Bytes
  defaultCommissionBps : Int64
  holdPeriodDays : Int64
  reversalWindowDays : Int64

structure Publisher where
  publisherID : Bytes
  name : Bytes
  payoutCurrency : Bytes

structure Product where
  productID : Bytes
  canonicalTitle : Bytes
  brand : Bytes
  categoryID : Bytes
  description : Bytes
  attributesJSON : Bytes

structure Listing where
  listingID : Bytes
  productID : Bytes
  merchantID : Bytes
  merchantSKU : Bytes
  listingTitle : Bytes
  priceCents : Int64
  currency : Bytes
  inStock : Bool
  commissionBps : Int64
  deepLinkURL : Bytes

structure Catalog where
  merchants : List Merchant
  publishers : List Publisher
  products : List Product
  listings : List Listing

/-! ## The files -/

/-- `strconv.Itoa` and `strconv.FormatInt`. -/
def itoa (n : Int64) : Bytes := Utf8.encode (Digits.intChars n.toInt)

def boolForCopy (v : Bool) : Bytes := Utf8.str (if v then "t" else "f")

def merchantColumns : List String :=
  ["merchant_id", "name", "default_commission_bps", "hold_period_days", "reversal_window_days"]

def publisherColumns : List String := ["publisher_id", "name", "payout_currency"]

def productColumns : List String :=
  ["product_id", "canonical_title", "brand", "category_id", "description", "attributes"]

def listingColumns : List String :=
  ["listing_id", "product_id", "merchant_id", "merchant_sku", "listing_title", "price_cents", "currency", "in_stock",
    "commission_bps", "deep_link_url"]

def Merchant.record (m : Merchant) : List Bytes :=
  [m.merchantID, m.name, itoa m.defaultCommissionBps, itoa m.holdPeriodDays, itoa m.reversalWindowDays]

def Publisher.record (p : Publisher) : List Bytes := [p.publisherID, p.name, p.payoutCurrency]

def Product.record (p : Product) : List Bytes :=
  [p.productID, p.canonicalTitle, p.brand, p.categoryID, p.description, p.attributesJSON]

def Listing.record (l : Listing) : List Bytes :=
  [l.listingID, l.productID, l.merchantID, l.merchantSKU, l.listingTitle, itoa l.priceCents, l.currency,
    boolForCopy l.inStock, itoa l.commissionBps, l.deepLinkURL]

def writeRows (header : List String) (rows : List (List Bytes)) : Bytes :=
  (header.map Utf8.str :: rows).flatMap Csv.writeRecord

structure Files where
  merchants : Bytes
  publishers : Bytes
  products : Bytes
  listings : Bytes

/-- `WriteCSV`. -/
def writeCSV (c : Catalog) : Files where
  merchants := writeRows merchantColumns (c.merchants.map Merchant.record)
  publishers := writeRows publisherColumns (c.publishers.map Publisher.record)
  products := writeRows productColumns (c.products.map Product.record)
  listings := writeRows listingColumns (c.listings.map Listing.record)

/-- The texts of a catalogue: every field that is neither a number nor a flag. -/
def Catalog.texts (c : Catalog) : List Bytes :=
  c.merchants.flatMap (fun m => [m.merchantID, m.name]) ++
  c.publishers.flatMap (fun p => [p.publisherID, p.name, p.payoutCurrency]) ++
  c.products.flatMap (fun p =>
    [p.productID, p.canonicalTitle, p.brand, p.categoryID, p.description, p.attributesJSON]) ++
  c.listings.flatMap fun l =>
    [l.listingID, l.productID, l.merchantID, l.merchantSKU, l.listingTitle, l.currency, l.deepLinkURL]

/-! ## Numerals -/

section Numerals

variable (n : Int64)

theorem itoa_ascii : ∀ c ∈ Digits.intChars n.toInt, c.toNat < 128 := by
  intro c hc
  by_cases hd : c.isDigit = true
  · exact Digits.toNat_lt_of_isDigit hd
  · by_cases hs : c = '-'
    · subst hs
      decide
    · exact absurd hc (Digits.notMem_intChars (Bool.not_eq_true _ ▸ hd) hs _)

theorem latin1_itoa : Utf8.latin1 (itoa n) = Digits.intChars n.toInt := Utf8.latin1_encode (itoa_ascii n)

/-- A byte of a numeral is a digit or a sign. -/
theorem notMem_itoa {b : UInt8} (hd : (Char.ofNat b.toNat).isDigit = false) (hs : Char.ofNat b.toNat ≠ '-') :
    b ∉ itoa n := by
  intro h
  have hmem : Char.ofNat b.toNat ∈ Utf8.latin1 (itoa n) := List.mem_map_of_mem h
  rw [latin1_itoa] at hmem
  exact Digits.notMem_intChars hd hs _ hmem

end Numerals

end Generator
