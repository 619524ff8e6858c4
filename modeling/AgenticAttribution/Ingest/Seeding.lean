import AgenticAttribution.Generator.Texts
import AgenticAttribution.Ingest.Loads
import AgenticAttribution.Ingest.Reference
import AgenticAttribution.Settlement.Schema

/-!
# Ingest.Seeding — a generated catalogue on its way into the database

From `generator.Generate` over `WriteCSV`, `LoadReference` and `LoadListings` to the tables.  None of the steps knows
the types of the columns: what arrives is right because of what the generator writes (`generated_seeds`).
-/

namespace Ingest

open Generator (tame printable worded)

/-! ## Tame texts -/

section Tame

theorem toNat_ofNat_toNat (b : UInt8) : (Char.ofNat b.toNat).toNat = b.toNat := by
  have hlt := b.toNat_lt
  have hvalid : b.toNat.isValidChar := Or.inl (by omega)
  rw [Char.ofNat, dif_pos hvalid]
  rfl

theorem isDigit_ofNat {b : UInt8} (h : (b < 0x30 || 0x39 < b) = true) : (Char.ofNat b.toNat).isDigit = false := by
  have hval : (Char.ofNat b.toNat).toNat = b.toNat := toNat_ofNat_toNat b
  simp only [Bool.or_eq_true, decide_eq_true_eq, UInt8.lt_iff_toNat_lt] at h
  rw [← Bool.not_eq_true]
  intro hdigit
  simp only [Char.isDigit, Bool.and_eq_true, decide_eq_true_eq, UInt32.le_iff_toNat_le] at hdigit
  have hlow : 48 ≤ (Char.ofNat b.toNat).toNat := hdigit.1
  have hhigh : (Char.ofNat b.toNat).toNat ≤ 57 := hdigit.2
  rw [hval] at hlow hhigh
  have h : b.toNat < 48 ∨ 57 < b.toNat := h
  omega

/-- A byte other than the first that is no digit spoils a number. -/
theorem goParseInt_of_notDigit {x : Char} {cs : List Char} (h : ∃ c ∈ cs, c.isDigit = false) :
    GoJson.parseInt (x :: cs) = none := by
  obtain ⟨c, hc, hdigit⟩ := h
  have hall : cs.all Char.isDigit = false := List.all_eq_false.mpr ⟨c, hc, by simp [hdigit]⟩
  by_cases hx : x = '-'
  · subst hx
    simp [GoJson.parseInt, hall]
  · simp [GoJson.parseInt, hx, hall]

theorem goParseInt_of_head {x : Char} {cs : List Char} (hx : x ≠ '-') (hdigit : x.isDigit = false) :
    GoJson.parseInt (x :: cs) = none := by
  simp [GoJson.parseInt, hx, hdigit]

/-- **A tame text arrives as it was written.** -/
theorem plain_of_tame {s : Bytes} (h : tame s = true) : Plain s := by
  obtain ⟨hprintable, hworded⟩ := Generator.tame_iff.mp h
  obtain ⟨b, hb, hdigit⟩ := List.any_eq_true.mp hworded
  have hlong : ∀ c : UInt8, s ≠ [c] := by
    rintro c rfl
    cases hb
  refine ⟨fun hline => ?_, hlong 116, hlong 102, ?_⟩
  · exact absurd (List.all_eq_true.mp hprintable Csv.ret (hline.subset List.mem_cons_self)) (by decide)
  · have hletter := isDigit_ofNat hdigit
    have hmem : Char.ofNat b.toNat ∈ (Utf8.latin1 s).tail := by
      rw [Utf8.latin1, ← List.map_tail]
      exact List.mem_map_of_mem hb
    unfold parseInt
    split
    · rename_i cs hcs
      rw [hcs] at hmem
      split_ifs with hminus
      · rfl
      · cases cs with
        | nil => cases hmem
        | cons c cs =>
          rcases List.mem_cons.mp hmem with rfl | hmem
          · exact goParseInt_of_head (fun he => hminus (congrArg some he)) hletter
          · exact goParseInt_of_notDigit ⟨_, hmem, hletter⟩
    · cases hs : Utf8.latin1 s with
      | nil =>
        rw [hs] at hmem
        cases hmem
      | cons x cs =>
        rw [hs] at hmem
        exact goParseInt_of_notDigit ⟨_, hmem, hletter⟩
/-- Postgres takes visible ASCII. -/
theorem textOk_of_tame {s : Bytes} (h : tame s = true) : Settlement.textOk s = true := by
  obtain ⟨hprintable, -⟩ := Generator.tame_iff.mp h
  have hlow : ∀ b ∈ s, 0x20 ≤ b.toNat ∧ b.toNat < 0x7f := by
    intro b hb
    have hrange := List.all_eq_true.mp hprintable b hb
    simp only [Bool.and_eq_true, decide_eq_true_eq, UInt8.le_iff_toNat_le, UInt8.lt_iff_toNat_lt] at hrange
    exact hrange
  have hencode : Utf8.encode (Utf8.latin1 s) = s := by
    clear h hprintable
    induction s with
    | nil => rfl
    | cons b s ih =>
      obtain ⟨-, hb⟩ := hlow b List.mem_cons_self
      have hval : (Char.ofNat b.toNat).toNat = b.toNat := toNat_ofNat_toNat b
      rw [Utf8.latin1, List.map_cons, Utf8.encode_cons, Utf8.utf8EncodeChar_of_lt (by omega), hval]
      rw [Utf8.latin1] at ih
      rw [ih fun c hc => hlow c (List.mem_cons_of_mem b hc)]
      simp
  rw [Settlement.textOk, Bool.and_eq_true]
  refine ⟨Utf8.valid_iff.mpr ⟨_, hencode.symm⟩, ?_⟩
  rw [Bool.not_eq_true', List.contains_eq_mem, decide_eq_false_iff_not]
  intro hzero
  exact absurd (hlow 0 hzero).1 (by decide)

end Tame

/-! ## `COPY` -/

/-- The number fits an `INTEGER`. -/
def int4 (n : ℤ) : Prop := -2 ^ 31 ≤ n ∧ n < 2 ^ 31

/-- A document that `JSONB` keeps as it is: texts under different names, and no NUL in them. -/
def Flat (members : List (List Char × Json)) : Prop :=
  (members.map Prod.fst).Nodup ∧ ∀ m ∈ members, '\x00' ∉ m.1 ∧ ∃ cs, m.2 = .str cs ∧ '\x00' ∉ cs

/-- What `COPY` makes of the rows of the four tables.  It takes values of the types that the columns have. -/
structure Copy extends Reference.Binding where
  listing : List Value → Option Partitions.Staged
  merchant_typed : ∀ {id name : Bytes} {rate hold reversal : ℤ}, (∀ s ∈ [id, name], Settlement.textOk s = true) →
    (∀ n ∈ [rate, hold, reversal], int4 n) →
    merchant [.text id, .text name, .int rate, .int hold, .int reversal] = some ⟨id, name, rate, hold, reversal⟩
  publisher_typed : ∀ {id name currency : Bytes}, (∀ s ∈ [id, name, currency], Settlement.textOk s = true) →
    publisher [.text id, .text name, .text currency] = some ⟨id, name, currency⟩
  product_typed : ∀ {id title brand category description attributes : Bytes} {members : List (List Char × Json)},
    (∀ s ∈ [id, title, brand, category, description, attributes], Settlement.textOk s = true) →
    Json.parse (Utf8.text attributes) = some (.obj members) → Flat members →
    product [.text id, .text title, .text brand, .text category, .text description, .text attributes]
      = some ⟨id, title, brand, category, description, .obj members⟩
  listing_typed : ∀ {id product merchant sku title currency url : Bytes} {price rate : ℤ} {inStock : Bool},
    (∀ s ∈ [id, product, merchant, sku, title, currency, url], Settlement.textOk s = true) →
    (-2 ^ 63 ≤ price ∧ price < 2 ^ 63) → int4 rate →
    listing [.text id, .text product, .text merchant, .text sku, .text title, .int price, .text currency,
        .bool inStock, .int rate, .text url]
      = some ⟨id, product, merchant, sku, title, price, currency, inStock, rate, url⟩

/-! ## The rows of a catalogue -/

def seededMerchant (m : Generator.Merchant) : Reference.Merchant where
  merchantID := m.merchantID
  name := m.name
  defaultCommissionBps := m.defaultCommissionBps.toInt
  holdPeriodDays := m.holdPeriodDays.toInt
  reversalWindowDays := m.reversalWindowDays.toInt

def seededPublisher (p : Generator.Publisher) : Reference.Publisher := ⟨p.publisherID, p.name, p.payoutCurrency⟩

def seededProduct (p : Generator.Product) : Reference.Product where
  productID := p.productID
  canonicalTitle := p.canonicalTitle
  brand := p.brand
  categoryID := p.categoryID
  description := p.description
  attributes := (Json.parse (Utf8.text p.attributesJSON)).getD .null

def seededListing (l : Generator.Listing) : Partitions.Staged where
  listingID := l.listingID
  productID := l.productID
  merchantID := l.merchantID
  merchantSKU := l.merchantSKU
  listingTitle := l.listingTitle
  priceCents := l.priceCents.toInt
  currency := l.currency
  inStock := l.inStock
  commissionBps := l.commissionBps.toInt
  deepLinkURL := l.deepLinkURL

section Staging

/-- Values that are bound one by one. -/
theorem mapM_map {α β γ : Type} {f : β → Option γ} {g : α → β} {row : α → γ} :
    ∀ {as : List α}, (∀ a ∈ as, f (g a) = some (row a)) → (as.map g).mapM f = some (as.map row)
  | [], _ => rfl
  | a :: as, h => by
    rw [List.map_cons, List.mapM_cons, h a List.mem_cons_self, mapM_map fun b hb => h b (List.mem_cons_of_mem a hb)]
    rfl

/-- **A file that is read back stages its rows**, if `COPY` takes their values. -/
theorem stage_of_yields {α ρ : Type} {t : Reference.Target ρ} {file : Bytes} {table : List (Column α)} {as : List α}
    (values : α → List Value) {row : α → ρ} (h : Yields t.columns file table as)
    (hvalues : ∀ a, original table t.columns a = (values a).map some)
    (hbind : ∀ a ∈ as, t.bind (values a) = some (row a)) : t.stage (some file) = .ok (as.map row) := by
  obtain ⟨rows, hcopy, hrows⟩ := h
  have hrows : rows = as.map values := by
    have hmap : rows.map (List.map some) = (as.map values).map (List.map some) := by
      rw [hrows, List.map_map]
      exact List.map_congr_left fun a _ => hvalues a
    exact (List.map_injective_iff.mpr (List.map_injective_iff.mpr (Option.some_injective Value))) hmap
  simp only [Reference.Target.stage, hcopy, hrows, mapM_map hbind]

theorem stage_listings (env : Partitions.Env) (file : Option Bytes) :
    env.stage file = Reference.Target.stage ⟨listingCopyColumns, env.bind, fun _ => [], fun _ => true⟩ file := by
  cases file with
  | none => rfl
  | some file =>
    simp only [Partitions.Env.stage, Reference.Target.stage]
    cases copyCSVDirect listingCopyColumns file with
    | error e => rfl
    | ok rows => cases hrows : rows.mapM env.bind <;> simp only [hrows]

variable (copy : Copy) {c : Generator.Catalog}

theorem int4_of_bounds {n k : ℤ} (h : 0 ≤ n ∧ n ≤ k) (hk : k < 2 ^ 31) : int4 n := by
  unfold int4
  omega

theorem stage_merchants (hc : c.Written) (hs : Generator.Schema c) :
    copy.merchants.stage (some (Generator.writeCSV c).merchants) = .ok (c.merchants.map seededMerchant) := by
  have htame : ∀ m ∈ c.merchants, ∀ s ∈ [m.merchantID, m.name], tame s = true := by
    intro m hm s hs
    refine hc.tame s ?_
    rw [Generator.Catalog.texts, List.mem_append, List.mem_append, List.mem_append]
    exact Or.inl (Or.inl (Or.inl (List.mem_flatMap.mpr ⟨m, hm, hs⟩)))
  refine stage_of_yields (fun m => [.text m.merchantID, .text m.name, .int m.defaultCommissionBps.toInt,
    .int m.holdPeriodDays.toInt, .int m.reversalWindowDays.toInt])
    ((merchants_iff c).mpr fun m hm s hs => plain_of_tame (htame m hm s hs)) (fun _ => rfl) fun m hm => ?_
  obtain ⟨hrate, hhold, hreversal⟩ := hs.merchants_check m hm
  obtain ⟨hholdMax, hreversalMax⟩ := (hc.merchants m hm).days
  refine copy.merchant_typed (fun s hs => textOk_of_tame (htame m hm s hs)) ?_
  simp only [List.mem_cons, List.not_mem_nil, or_false, forall_eq_or_imp, forall_eq]
  exact ⟨int4_of_bounds hrate (by decide), int4_of_bounds ⟨hhold, hholdMax⟩ (by decide),
    int4_of_bounds ⟨hreversal, hreversalMax⟩ (by decide)⟩

theorem stage_publishers (hc : c.Written) :
    copy.publishers.stage (some (Generator.writeCSV c).publishers) = .ok (c.publishers.map seededPublisher) := by
  have htame : ∀ p ∈ c.publishers, ∀ s ∈ [p.publisherID, p.name, p.payoutCurrency], tame s = true := by
    intro p hp s hs
    refine hc.tame s ?_
    rw [Generator.Catalog.texts, List.mem_append, List.mem_append, List.mem_append]
    exact Or.inl (Or.inl (Or.inr (List.mem_flatMap.mpr ⟨p, hp, hs⟩)))
  refine stage_of_yields (fun p => [.text p.publisherID, .text p.name, .text p.payoutCurrency])
    ((publishers_iff c).mpr fun p hp s hs => plain_of_tame (htame p hp s hs)) (fun _ => rfl) fun p hp => ?_
  exact copy.publisher_typed fun s hs => textOk_of_tame (htame p hp s hs)

/-- The attributes of a product are a document of three texts. -/
theorem flat_attributeMembers {color unit modifier : String} (hcolor : Generator.spelled color = true)
    (hunit : Generator.spelled unit = true) (hmodifier : Generator.spelled modifier = true) :
    Flat (Generator.attributeMembers color unit modifier) := by
  have hnul : ∀ {w : String}, Generator.spelled w = true → '\x00' ∉ w.toList := by
    intro w hw hmem
    exact absurd (Generator.spelled_iff.mp hw _ hmem).1.1 (by decide)
  have hnames : ["color".toList, "spec".toList, "feature".toList].Nodup := by decide
  refine ⟨hnames, ?_⟩
  simp only [Generator.attributeMembers, List.mem_cons, List.not_mem_nil, or_false, forall_eq_or_imp, forall_eq]
  exact ⟨⟨by decide, _, rfl, hnul hcolor⟩, ⟨by decide, _, rfl, hnul hunit⟩, ⟨by decide, _, rfl, hnul hmodifier⟩⟩

theorem stage_products (hc : c.Written) :
    copy.products.stage (some (Generator.writeCSV c).products) = .ok (c.products.map seededProduct) := by
  have htame : ∀ p ∈ c.products, ∀ s ∈
      [p.productID, p.canonicalTitle, p.brand, p.categoryID, p.description, p.attributesJSON], tame s = true := by
    intro p hp s hs
    refine hc.tame s ?_
    rw [Generator.Catalog.texts, List.mem_append, List.mem_append]
    exact Or.inl (Or.inr (List.mem_flatMap.mpr ⟨p, hp, hs⟩))
  refine stage_of_yields (fun p => [.text p.productID, .text p.canonicalTitle, .text p.brand, .text p.categoryID,
    .text p.description, .text p.attributesJSON])
    ((products_iff c).mpr fun p hp s hs => plain_of_tame (htame p hp s hs)) (fun _ => rfl) fun p hp => ?_
  obtain ⟨color, unit, modifier, ⟨hcolor, hunit, hmodifier⟩, hparse⟩ := (hc.products p hp).attributes.2
  have hrow : seededProduct p = ⟨p.productID, p.canonicalTitle, p.brand, p.categoryID, p.description,
      .obj (Generator.attributeMembers color unit modifier)⟩ := by
    rw [seededProduct, hparse, Option.getD_some]
  rw [hrow]
  exact copy.product_typed (fun s hs => textOk_of_tame (htame p hp s hs)) hparse
    (flat_attributeMembers hcolor hunit hmodifier)

theorem stage_generated_listings (hc : c.Written) (hs : Generator.Schema c) {env : Partitions.Env}
    (henv : env.bind = copy.listing) :
    env.stage (some (Generator.writeCSV c).listings) = .ok (c.listings.map seededListing) := by
  have htame : ∀ l ∈ c.listings, ∀ s ∈
      [l.listingID, l.productID, l.merchantID, l.merchantSKU, l.listingTitle, l.currency, l.deepLinkURL],
      tame s = true := by
    intro l hl s hs
    refine hc.tame s ?_
    rw [Generator.Catalog.texts, List.mem_append]
    exact Or.inr (List.mem_flatMap.mpr ⟨l, hl, hs⟩)
  rw [stage_listings]
  refine stage_of_yields (fun l => [.text l.listingID, .text l.productID, .text l.merchantID, .text l.merchantSKU,
    .text l.listingTitle, .int l.priceCents.toInt, .text l.currency, .bool l.inStock, .int l.commissionBps.toInt,
    .text l.deepLinkURL])
    ((listings_iff c).mpr fun l hl s hs => plain_of_tame (htame l hl s hs)) (fun _ => rfl) fun l hl => ?_
  obtain ⟨-, hrate⟩ := hs.listings_check l hl
  rw [henv]
  exact copy.listing_typed (fun s hs => textOk_of_tame (htame l hl s hs)) ⟨l.priceCents.le_toInt, l.priceCents.toInt_lt⟩
    (int4_of_bounds hrate (by decide))

end Staging

/-! ## From the generator to the tables -/

/-- The reference files of a catalogue. -/
def seedDir (c : Generator.Catalog) : Reference.SeedDir where
  merchants := some (Generator.writeCSV c).merchants
  publishers := some (Generator.writeCSV c).publishers
  products := some (Generator.writeCSV c).products

/-- The tables behind the reference data of a catalogue. -/
def seeded (c : Generator.Catalog) (db : Reference.Database) : Reference.Database where
  merchants := ⟨Table.upsert (·.merchantID) (c.merchants.map seededMerchant) db.merchants.rows, none⟩
  publishers := ⟨Table.upsert (·.publisherID) (c.publishers.map seededPublisher) db.publishers.rows, none⟩
  products := ⟨Table.upsert (·.productID) (c.products.map seededProduct) db.products.rows, none⟩

/-- What the listings find around them. -/
def Copy.env (copy : Copy) (bucket : Bytes → Fin Partitions.ListingPartitions) (db : Reference.Database) :
    Partitions.Env where
  bucket := bucket
  products := db.products.rows.map (·.productID)
  merchants := db.merchants.rows.map (·.merchantID)
  bind := copy.listing

section Seeding

variable (copy : Copy) {c : Generator.Catalog}

/-- A file whose rows the table can hold is taken. -/
theorem slot_load {ρ : Type} {t : Reference.Target ρ} {file : Option Bytes} {new : List ρ}
    (hstage : t.stage file = .ok new) (hchecked : ∀ r ∈ new, t.checked r = true) (hkeyed : (new.map t.key).Nodup)
    (s : Reference.Slot ρ) : s.load t file = (⟨Table.upsert t.key new s.rows, none⟩, true) := by
  simp only [Reference.Slot.load, hstage]
  exact if_pos ⟨List.all_eq_true.mpr hchecked, hkeyed⟩

/-- **The reference data of a generated catalogue is taken**, whatever is there already. -/
theorem load_generated (hc : c.Written) (hs : Generator.Schema c) (db : Reference.Database) :
    db.load copy.toBinding (seedDir c) = (seeded c db, true) := by
  have hmerchants : db.merchants.load copy.merchants (seedDir c).merchants = ((seeded c db).merchants, true) := by
    refine slot_load (stage_merchants copy hc hs) (fun r hr => ?_) ?_ db.merchants
    · obtain ⟨m, hm, rfl⟩ := List.mem_map.mp hr
      obtain ⟨hrate, hhold, hreversal⟩ := hs.merchants_check m hm
      simp [Reference.Binding.merchants, seededMerchant, hrate, hhold, hreversal]
    · rw [List.map_map]
      exact hs.merchants_pkey
  have hpublishers : db.publishers.load copy.publishers (seedDir c).publishers = ((seeded c db).publishers, true) := by
    refine slot_load (stage_publishers copy hc) (fun _ _ => rfl) ?_ db.publishers
    rw [List.map_map]
    exact hs.publishers_pkey
  have hproducts : db.products.load copy.products (seedDir c).products = ((seeded c db).products, true) := by
    refine slot_load (stage_products copy hc) (fun _ _ => rfl) ?_ db.products
    rw [List.map_map]
    exact hs.products_pkey
  simp only [Reference.Database.load, hmerchants, hpublishers, hproducts]
  rfl

/-- The listings of a generated catalogue are ones that the tables can hold. -/
theorem valid_listings (hs : Generator.Schema c) (hne : c.listings ≠ [])
    (bucket : Bytes → Fin Partitions.ListingPartitions) (db : Reference.Database) :
    Partitions.Valid (copy.env bucket (seeded c db)) (c.listings.map seededListing) where
  nonempty := by simpa using hne
  checked := by
    refine List.all_eq_true.mpr fun r hr => ?_
    obtain ⟨l, hl, rfl⟩ := List.mem_map.mp hr
    obtain ⟨hprice, hrate⟩ := hs.listings_check l hl
    simp [Partitions.Staged.checked, seededListing, hprice, hrate]
  known := by
    refine List.all_eq_true.mpr fun r hr => ?_
    obtain ⟨l, hl, rfl⟩ := List.mem_map.mp hr
    have hproduct : l.productID ∈ (seeded c db).products.rows.map (·.productID) := by
      refine Table.key_mem_upsert.mpr (Or.inr ?_)
      rw [List.map_map]
      exact hs.listings_product_fkey l hl
    have hmerchant : l.merchantID ∈ (seeded c db).merchants.rows.map (·.merchantID) := by
      refine Table.key_mem_upsert.mpr (Or.inr ?_)
      rw [List.map_map]
      exact hs.listings_merchant_fkey l hl
    rw [Partitions.Env.known, Bool.and_eq_true, decide_eq_true_eq, decide_eq_true_eq]
    exact ⟨hproduct, hmerchant⟩
  primary := by
    rw [List.map_map]
    exact hs.listings_pkey
  sku := by
    rw [List.map_map]
    exact hs.listings_merchant_sku_key

/-- There is a listing, if there is a product and a merchant. -/
theorem listings_ne_nil {cfg : Generator.Config} {g : Generator.Generated} (h : g.Loads cfg)
    (hproducts : g.catalog.products.length = cfg.CanonicalProducts) (hcount : 0 < cfg.CanonicalProducts)
    (hmerchants : 0 < cfg.MerchantCount) : g.catalog.listings ≠ [] := by
  have hoffered := h.offered
  cases hp : g.catalog.products with
  | nil =>
    rw [hp, List.length_nil] at hproducts
    omega
  | cons p products =>
    rw [hp] at hoffered
    cases ho : g.offers with
    | nil =>
      rw [ho] at hoffered
      cases hoffered
    | cons o offers =>
      rw [ho] at hoffered
      obtain ⟨hfirst, -⟩ := List.forall₂_cons.mp hoffered
      obtain ⟨k, hk, -, hlength⟩ := hfirst.count
      intro hnone
      have hlistings := hfirst.listings
      rw [hnone, List.filter_nil] at hlistings
      rw [← hlistings, List.length_nil] at hlength
      omega

/-- The two loads of a catalogue: of the reference files, from any state of their tables, and of the listings behind
any loads of listings over those tables. -/
structure Seeds (copy : Copy) (bucket : Bytes → Fin Partitions.ListingPartitions) (c : Generator.Catalog) : Prop where
  reference : ∀ w : Reference.World, ∃ n, Reference.run copy.toBinding w
    (.load (seedDir c) :: List.replicate n (.statement w.calls.length)) =
      some ⟨seeded c w.db, w.calls ++ [⟨[], false⟩], w.dirs ++ [seedDir c]⟩
  listings : ∀ (db : Reference.Database) (as : List Partitions.Action) (w : Partitions.World) (generation : Int64),
    Runs.run (Partitions.step (copy.env bucket (seeded c db))) .init as = some w → w.call = none →
    generation ∉ w.generations → ∃ n w', Runs.run (Partitions.step (copy.env bucket (seeded c db))) w
      (.load (some (Generator.writeCSV c).listings) generation :: (List.replicate n .statement ++ [.succeed]))
        = some w' ∧ (Partitions.contents w'.db).Perm (c.listings.map seededListing)

/-- **What the generator writes is what the tables hold** in the end, text for text and number for number, whatever is
drawn. -/
theorem generated_seeds (t : GoQuote.PrintTable) (copy : Copy) (bucket : Bytes → Fin Partitions.ListingPartitions)
    {cfg : Generator.Config} (hproducts : 0 < cfg.CanonicalProducts) (hmerchants : 0 < cfg.MerchantCount) :
    Draws.Yields (Generator.generate t cfg) fun g => Seeds copy bucket g.catalog := by
  have hyields := (Generator.yields_generate t cfg).and
    ((Generator.yields_written t cfg).and (Generator.yields_length_products t cfg))
  refine hyields.mono fun g ⟨hloads, hwritten, hlength⟩ => ⟨fun w => ?_, ?_⟩
  · obtain ⟨n, hn⟩ := Reference.run_load_alone copy.toBinding w (seedDir g.catalog)
    rw [load_generated copy hwritten hloads.schema] at hn
    exact ⟨n, hn⟩
  · intro db as w generation hrun hidle hnew
    have hinv := Partitions.run_inv hrun
    have hne := listings_ne_nil hloads hlength hproducts hmerchants
    have hvalid := valid_listings copy hloads.schema hne bucket db
    have hstage : (copy.env bucket (seeded g.catalog db)).stage (some (Generator.writeCSV g.catalog).listings)
        = .ok _ := stage_generated_listings copy hwritten hloads.schema rfl
    obtain ⟨n, u, hload, hcall, hcommitted, -⟩ := Partitions.run_load hinv hidle hstage hvalid hnew
    have hu : Partitions.Inv _ u := Runs.run_invariant (fun _ _ _ => Partitions.step_inv) hinv hload
    have hsucceed : Partitions.step (copy.env bucket (seeded g.catalog db)) u .succeed
        = some { u with call := none, returned := g.catalog.listings.map seededListing } :=
      Partitions.step_succeed_iff.mpr ⟨_, hcall, rfl, rfl⟩
    refine ⟨n, { u with call := none, returned := g.catalog.listings.map seededListing }, ?_,
      hcommitted ▸ Partitions.contents_perm hu.holds⟩
    rw [← List.cons_append, Runs.run_append_eq_some]
    exact ⟨u, hload, by rw [Runs.run_cons_of hsucceed, Runs.run_nil]⟩

end Seeding

namespace Sample

def bindListing : List Value → Option Partitions.Staged
  | [.text id, .text product, .text merchant, .text sku, .text title, .int price, .text currency, .bool inStock,
      .int rate, .text url] => some ⟨id, product, merchant, sku, title, price, currency, inStock, rate, url⟩
  | _ => none

theorem bindProduct_eq {id title brand category description attributes : Bytes} {v : Json}
    (h : Json.parse (Utf8.text attributes) = some v) :
    Reference.Sample.bindProduct
      [.text id, .text title, .text brand, .text category, .text description, .text attributes]
      = some ⟨id, title, brand, category, description, v⟩ := by
  rw [Reference.Sample.bindProduct, h]
  rfl

/-- A `COPY` that does not look at the values. -/
def copy : Copy where
  merchant := Reference.Sample.bindMerchant
  publisher := Reference.Sample.bindPublisher
  product := Reference.Sample.bindProduct
  listing := bindListing
  merchant_typed _ _ := rfl
  publisher_typed _ := rfl
  product_typed _ h _ := bindProduct_eq h
  listing_typed _ _ _ := rfl

/-- Three products, two merchants and a publisher. -/
def cfg : Generator.Config := ⟨3, 2, 1⟩

/-- A hash of the merchant. -/
def bucket (merchantID : Bytes) : Fin Partitions.ListingPartitions :=
  ⟨merchantID.foldl (fun n b => n + b.toNat) 0 % 8, Nat.mod_lt _ (Nat.succ_pos 7)⟩

end Sample

/-- Some draws make a catalogue of three products, and it seeds the database. -/
theorem generated_seeds_sample : ∃ draws g,
    (Generator.generate GoQuote.asciiTable Sample.cfg).run draws = some (g, []) ∧
    g.catalog.products.length = 3 ∧ Seeds Sample.copy Sample.bucket g.catalog := by
  obtain ⟨draws, g, hrun⟩ := Generator.exists_generated GoQuote.asciiTable Sample.cfg
  exact ⟨draws, g, hrun, Generator.yields_length_products GoQuote.asciiTable Sample.cfg draws g [] hrun,
    generated_seeds GoQuote.asciiTable Sample.copy Sample.bucket (by decide) (by decide) draws g [] hrun⟩

end Ingest
