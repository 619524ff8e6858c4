import AgenticAttribution.Generator.Constraints

/-!
# Generator.Texts — the texts of a generated catalogue

Every text of `internal/generator/generate.go` is visible ASCII, and none of them could be taken for a number or a flag
(`yields_written`).  The vocabulary is checked word by word; the rest follows from how the texts are put together.
-/

namespace Generator

open Draws Digits

/-! ## Visible and worded texts -/

section Texts

/-- Visible ASCII and blanks. -/
def printable (s : Bytes) : Bool := s.all fun b => 0x20 ≤ b && b < 0x7f

/-- Some byte behind the first one is no digit. -/
def worded (s : Bytes) : Bool := s.tail.any fun b => b < 0x30 || 0x39 < b

/-- A text that no reader mistakes. -/
def tame (s : Bytes) : Bool := printable s && worded s

variable {r s : Bytes}

theorem tame_iff : tame s = true ↔ printable s = true ∧ worded s = true := Bool.and_eq_true_iff

@[simp] theorem printable_append : printable (r ++ s) = (printable r && printable s) := List.all_append

theorem printable_of_subset (h : r ⊆ s) (hs : printable s = true) : printable r = true :=
  List.all_eq_true.mpr fun b hb => List.all_eq_true.mp hs b (h hb)

theorem worded_append (h : worded r = true) (s : Bytes) : worded (r ++ s) = true := by
  cases r with
  | nil => cases h
  | cons b r =>
    have h : r.any (fun b => b < 0x30 || 0x39 < b) = true := h
    show (r ++ s).any (fun b => b < 0x30 || 0x39 < b) = true
    rw [List.any_append, h, Bool.true_or]

theorem tame_append (h : tame r = true) (hs : printable s = true) : tame (r ++ s) = true := by
  obtain ⟨hr, hw⟩ := tame_iff.mp h
  exact tame_iff.mpr ⟨by rw [printable_append, hr, hs]; rfl, worded_append hw s⟩

/-- Behind any byte, a byte that is no digit makes a text worded. -/
theorem worded_cons {c : UInt8} (hc : (c < 0x30 || 0x39 < c) = true) (hr : r ≠ []) (s : Bytes) :
    worded (r ++ c :: s) = true := by
  cases r with
  | nil => exact absurd rfl hr
  | cons b r =>
    show (r ++ c :: s).any (fun b => b < 0x30 || 0x39 < b) = true
    rw [List.any_append, List.any_cons, hc, Bool.true_or, Bool.or_true]

theorem printable_encode {cs : List Char} (h : ∀ c ∈ cs, 0x20 ≤ c.toNat ∧ c.toNat < 0x7f) :
    printable (Utf8.encode cs) = true := by
  refine List.all_eq_true.mpr fun b hb => ?_
  obtain ⟨c, hc, hb⟩ := List.mem_flatMap.mp hb
  obtain ⟨hlow, hhigh⟩ := h c hc
  rw [Utf8.utf8EncodeChar_of_lt (by omega), List.mem_singleton] at hb
  subst hb
  have hval : (UInt8.ofNat c.toNat).toNat = c.toNat := by
    simp only [UInt8.toNat_ofNat']
    omega
  simp only [Bool.and_eq_true, decide_eq_true_eq, UInt8.le_iff_toNat_le, UInt8.lt_iff_toNat_lt, hval]
  exact ⟨hlow, hhigh⟩

theorem printable_digits {cs : List Char} (h : ∀ c ∈ cs, c.isDigit = true) : printable (Utf8.encode cs) = true := by
  refine printable_encode fun c hc => ?_
  have hdigit := h c hc
  simp only [Char.isDigit, Bool.and_eq_true, decide_eq_true_eq, UInt32.le_iff_toNat_le] at hdigit
  have hlow : 48 ≤ c.toNat := hdigit.1
  have hhigh : c.toNat ≤ 57 := hdigit.2
  omega

theorem printable_identifier {lead : String} (h : printable (Utf8.str lead) = true) (width i : ℕ) :
    printable (identifier lead width i) = true := by
  rw [identifier, printable_append, h, printable_digits fun _ hc => isDigit_of_mem_padNat hc]
  rfl

theorem tame_identifier {lead : String} (h : tame (Utf8.str lead) = true) (width i : ℕ) :
    tame (identifier lead width i) = true :=
  tame_append h (printable_digits fun _ hc => isDigit_of_mem_padNat hc)

theorem printable_toLower (h : printable s = true) : printable (toLower s) = true := by
  refine List.all_eq_true.mpr fun b hb => ?_
  obtain ⟨c, hc, rfl⟩ := List.mem_map.mp hb
  have hrange := List.all_eq_true.mp h c hc
  split_ifs with hletter
  · simp [UInt8.le_iff_toNat_le, UInt8.lt_iff_toNat_lt, UInt8.toNat_add] at *
    omega
  · exact hrange

theorem printable_toUpper (h : printable s = true) : printable (toUpper s) = true := by
  refine List.all_eq_true.mpr fun b hb => ?_
  obtain ⟨c, hc, rfl⟩ := List.mem_map.mp hb
  have hrange := List.all_eq_true.mp h c hc
  split_ifs with hletter
  · simp [UInt8.le_iff_toNat_le, UInt8.lt_iff_toNat_lt, UInt8.toNat_sub] at *
    omega
  · exact hrange

theorem printable_trimSpace (h : printable s = true) : printable (trimSpace s) = true := by
  refine printable_of_subset (fun b hb => ?_) h
  have hb := (List.dropWhile_sublist isBlank).subset (List.mem_reverse.mp hb)
  exact (List.dropWhile_sublist isBlank).subset (List.mem_reverse.mp hb)

theorem printable_trimPrefix (h : printable s = true) (lead : Bytes) : printable (trimPrefix s lead) = true := by
  unfold trimPrefix
  split_ifs
  · exact printable_of_subset (List.drop_subset _ _) h
  · exact h

def visible (c : Char) : Bool := 0x20 ≤ c.toNat && c.toNat < 0x7f

/-- What a template makes of visible texts. -/
theorem printable_sprintf {template : List Char} {args : List Bytes} (ht : template.all visible = true)
    (ha : ∀ arg ∈ args, printable arg = true) : printable (sprintf template args) = true := by
  replace ht : ∀ c ∈ template, 0x20 ≤ c.toNat ∧ c.toNat < 0x7f := by simpa [visible] using ht
  induction template, args using sprintf.induct with
  | case1 template arg args ih =>
    rw [sprintf, printable_append, ha arg List.mem_cons_self,
      ih (fun a h => ha a (List.mem_cons_of_mem _ h))
        fun c hc => ht c (List.mem_cons_of_mem _ (List.mem_cons_of_mem _ hc))]
    rfl
  | case2 c template args hne ih =>
    have hc : printable (Utf8.encode [c]) = true := printable_encode fun d hd => by
      rw [List.mem_singleton.mp hd]
      exact ht c List.mem_cons_self
    rw [sprintf, printable_append, hc, ih ha fun d hd => ht d (List.mem_cons_of_mem _ hd)]
    · rfl
    · exact hne
  | case3 args => rfl

end Texts

/-! ## The rows -/

section Rows

/-- A word that is quoted as it is. -/
def spelled (w : String) : Bool :=
  w.toList.all fun c => decide ((0x20 ≤ c.toNat ∧ c.toNat < 0x7f) ∧ c ≠ '"' ∧ c ≠ '\\')

theorem spelled_iff {w : String} : spelled w = true ↔
    ∀ c ∈ w.toList, (0x20 ≤ c.toNat ∧ c.toNat < 0x7f) ∧ c ≠ '"' ∧ c ≠ '\\' := by
  simp [spelled]

theorem printable_of_spelled {w : String} (h : spelled w = true) : printable (Utf8.str w) = true :=
  printable_encode fun c hc => (spelled_iff.mp h c hc).1

/-- A word whose second letter is no digit. -/
def named (w : String) : Bool := spelled w && w.toList.tail.head?.any fun c => c.toNat < 0x30 || 0x39 < c.toNat

theorem tame_of_named {w : String} (h : named w = true) : tame (Utf8.str w) = true := by
  obtain ⟨hspelled, hsecond⟩ := Bool.and_eq_true_iff.mp h
  obtain ⟨c, hc, hdigit⟩ := (Option.any_eq_true _ _).mp hsecond
  have hvisible := spelled_iff.mp hspelled
  refine tame_iff.mpr ⟨printable_of_spelled hspelled, ?_⟩
  obtain ⟨b, r, hw⟩ : ∃ b r, w.toList = b :: c :: r := by
    cases hw : w.toList with
    | nil => simp [hw] at hc
    | cons b r =>
      rw [hw, List.tail_cons] at hc
      obtain ⟨r', rfl⟩ := List.head?_eq_some_iff.mp hc
      exact ⟨b, r', rfl⟩
  obtain ⟨⟨-, hlow⟩, -⟩ := hvisible c (by simp [hw])
  have hb : Utf8.encode [b] ≠ [] := by
    intro he
    have hpos := Utf8.utf8EncodeChar_length_pos b
    rw [Utf8.encode_cons, Utf8.encode_nil, List.append_nil] at he
    rw [he] at hpos
    exact absurd hpos (by decide)
  have hstr : Utf8.str w = Utf8.encode [b] ++ UInt8.ofNat c.toNat :: Utf8.encode r := by
    rw [Utf8.str, hw, Utf8.encode_cons, Utf8.encode_cons, Utf8.utf8EncodeChar_of_lt (c := c) (by omega)]
    simp
  rw [hstr]
  refine worded_cons ?_ hb _
  have hval : (UInt8.ofNat c.toNat).toNat = c.toNat := by
    simp only [UInt8.toNat_ofNat']
    omega
  simpa [UInt8.lt_iff_toNat_lt, hval] using hdigit

theorem named_words : ∀ w ∈ brands ++ merchantPrefixes ++ publisherNames ++ categories.map (·.id),
    named w = true := by
  decide +kernel

theorem spelled_words : (∀ w ∈ colors ++ merchantSuffixes, spelled w = true) ∧
    ∀ cat ∈ categories, ∀ w ∈ cat.types ++ cat.modifiers ++ cat.units, spelled w = true := by
  decide +kernel

theorem tame_usd : tame (Utf8.str "USD") = true := by decide

/-! ### Merchants and publishers -/

structure MerchantTexts (m : Merchant) : Prop where
  id : ∃ i, m.merchantID = identifier "mer_" 6 i
  name : tame m.name = true
  days : m.holdPeriodDays.toInt ≤ 120 ∧ m.reversalWindowDays.toInt ≤ 120

theorem yields_merchantTexts (i : ℕ) : Yields (buildMerchant i) MerchantTexts := by
  refine yields_bind (yields_pick _) fun lead hlead => yields_bind (yields_pick _) fun suffix hsuffix => ?_
  refine yields_bind (yields_intn _) fun commission hcommission => ?_
  refine yields_bind (yields_pick _) fun hold hhold => yields_bind (yields_pick _) fun reversal hreversal => ?_
  have hdays : ∀ days ∈ [30, 45, 60] ++ [60, 90, 120], (Int64.ofNat days).toInt ≤ 120 := by decide
  refine yields_pure ⟨⟨i, rfl⟩, ?_, hdays _ (List.mem_append_left _ hhold), hdays _ (List.mem_append_right _ hreversal)⟩
  have hlead : tame (Utf8.str lead) = true := tame_of_named (named_words lead (by simp [hlead]))
  have hsuffix : printable (Utf8.str suffix) = true := printable_of_spelled (spelled_words.1 suffix (by simp [hsuffix]))
  show tame (Utf8.str lead ++ sprintf " %s".toList [Utf8.str suffix]) = true
  exact tame_append hlead (printable_sprintf (by decide) (by simpa using hsuffix))

theorem tame_publisherName (i : ℕ) : tame (publisherName i) = true := by
  have hname : tame (Utf8.str (publisherNames.getD (i % publisherNames.length) "")) = true := by
    have hlt : i % publisherNames.length < publisherNames.length := Nat.mod_lt _ (by decide)
    rw [List.getD_eq_getElem?_getD, List.getElem?_eq_getElem hlt, Option.getD_some]
    exact tame_of_named (named_words _ (by simp [List.getElem_mem hlt]))
  unfold publisherName
  split_ifs
  · refine tame_append hname (printable_sprintf (by decide : " %s".toList.all visible = true) ?_)
    intro arg harg
    rw [List.mem_singleton.mp harg]
    exact printable_digits fun c hc => isDigit_of_mem_natChars hc
  · exact hname

/-! ### Products -/

section Attributes

variable {t : GoQuote.PrintTable} {color unit modifier : String}

/-- The members of the attributes of a product. -/
def attributeMembers (color unit modifier : String) : List (List Char × Json) :=
  [("color".toList, .str color.toList), ("spec".toList, .str unit.toList), ("feature".toList, .str modifier.toList)]

theorem quoted_of_spelled {w : String} (h : spelled w = true) :
    Json.literal (GoQuote.quoteRune t) w.toList = '"' :: w.toList ++ ['"'] :=
  GoQuote.literal_quoteRune (spelled_iff.mp h)

/-- The attributes as they are written. -/
theorem buildAttributes_eq : buildAttributes t (Utf8.str modifier) (Utf8.str unit) (Utf8.str color) =
    Utf8.encode (Json.write (Json.literal (GoQuote.quoteRune t)) (.obj (attributeMembers color unit modifier))) := by
  have hcolor := quoted_of_spelled (t := t) (w := "color") (by decide)
  have hspec := quoted_of_spelled (t := t) (w := "spec") (by decide)
  have hfeature := quoted_of_spelled (t := t) (w := "feature") (by decide)
  rw [buildAttributes, Utf8.str, Utf8.str, Utf8.str, GoQuote.quote_encode, GoQuote.quote_encode, GoQuote.quote_encode]
  simp only [attributeMembers, Json.write, Json.writeMembers, Json.commaSep, hcolor, hspec, hfeature]
  simp

/-- The attributes are an object of three texts. -/
theorem parse_buildAttributes (hcolor : spelled color = true) (hunit : spelled unit = true)
    (hmodifier : spelled modifier = true) :
    Json.parse (Utf8.text (buildAttributes t (Utf8.str modifier) (Utf8.str unit) (Utf8.str color)))
      = some (.obj (attributeMembers color unit modifier)) := by
  have hreads : ∀ {w : String}, spelled w = true → Json.ReadsBack (Json.literal (GoQuote.quoteRune t)) w.toList := by
    intro w hw
    refine Json.readsBack_literal fun c hc => GoQuote.reads_quoteRune ?_
    obtain ⟨hrange, -⟩ := spelled_iff.mp hw c hc
    exact ⟨fun hlow => by omega, by omega, fun hlong => by omega⟩
  rw [buildAttributes_eq, Utf8.text_encode]
  refine Json.parse_write ⟨hreads (by decide), hreads hcolor, hreads (by decide), hreads hunit, hreads (by decide),
    hreads hmodifier, trivial⟩

theorem tame_buildAttributes (hcolor : spelled color = true) (hunit : spelled unit = true)
    (hmodifier : spelled modifier = true) :
    tame (buildAttributes t (Utf8.str modifier) (Utf8.str unit) (Utf8.str color)) = true := by
  have hvisible : ∀ {w : String}, spelled w = true → ∀ c ∈ w.toList, 0x20 ≤ c.toNat ∧ c.toNat < 0x7f :=
    fun hw c hc => (spelled_iff.mp hw c hc).1
  have hquote : ∀ {w : String}, spelled w = true →
      printable (Utf8.encode (GoQuote.quote t (Utf8.str w))) = true := by
    intro w hw
    rw [Utf8.str, GoQuote.quote_encode, quoted_of_spelled hw]
    refine printable_encode fun c hc => ?_
    rcases List.mem_append.mp hc with hc | hc
    · rcases List.mem_cons.mp hc with rfl | hc
      · decide
      · exact hvisible hw c hc
    · rw [List.mem_singleton.mp hc]
      decide
  refine tame_iff.mpr ⟨?_, worded_cons (r := Utf8.encode ['\x7b']) (c := 0x22) rfl (by decide) _⟩
  simp only [buildAttributes, Utf8.encode_append, printable_append, hquote hcolor, hquote hunit, hquote hmodifier]
  decide

end Attributes

structure ProductTexts (p : Product) : Prop where
  id : ∃ i, p.productID = identifier "prd_" 8 i
  title : tame p.canonicalTitle = true
  brand : tame p.brand = true
  category : tame p.categoryID = true
  description : tame p.description = true
  attributes : tame p.attributesJSON = true ∧ ∃ color unit modifier,
    (spelled color = true ∧ spelled unit = true ∧ spelled modifier = true) ∧
      Json.parse (Utf8.text p.attributesJSON) = some (.obj (attributeMembers color unit modifier))

theorem yields_productTexts (t : GoQuote.PrintTable) (i : ℕ) : Yields (buildProduct t i) ProductTexts := by
  refine yields_bind (yields_pick _) fun cat hcat => yields_bind (yields_pick _) fun brand hbrand => ?_
  refine yields_bind (yields_pick _) fun productType htype => yields_bind (yields_pick _) fun modifier hmodifier => ?_
  refine yields_bind (yields_pick _) fun unit hunit => yields_bind (yields_pick _) fun color hcolor => yields_pure ?_
  have htype := spelled_words.2 cat hcat productType (by simp [htype])
  have hmodifier := spelled_words.2 cat hcat modifier (by simp [hmodifier])
  have hunit := spelled_words.2 cat hcat unit (by simp [hunit])
  have hcolor := spelled_words.1 color (by simp [hcolor])
  have hbrand : tame (Utf8.str brand) = true := tame_of_named (named_words brand (by simp [hbrand]))
  have hcat : tame (Utf8.str cat.id) = true := tame_of_named (named_words cat.id (by simp [List.mem_map_of_mem hcat]))
  have hargs : ∀ {w}, spelled w = true → printable (Utf8.str w) = true := printable_of_spelled
  refine ⟨⟨i, rfl⟩, ?_, hbrand, hcat, ?_, tame_buildAttributes hcolor hunit hmodifier, color, unit, modifier,
    ⟨hcolor, hunit, hmodifier⟩, parse_buildAttributes hcolor hunit hmodifier⟩
  · show tame (Utf8.str brand ++ sprintf " %s %s %s %s".toList
      [Utf8.str modifier, Utf8.str productType, Utf8.str unit, Utf8.str color]) = true
    exact tame_append hbrand (printable_sprintf (by decide)
      (by simp [hargs hmodifier, hargs htype, hargs hunit, hargs hcolor]))
  · refine tame_iff.mpr ⟨printable_sprintf (by decide) ?_,
      worded_cons (r := Utf8.encode ['T']) (c := 0x68) rfl (by decide) _⟩
    simp [hargs hmodifier, hargs htype, hargs hunit, printable_toLower (hargs hmodifier),
      printable_toLower (hargs hcolor)]

/-! ### Listings -/

structure ListingTexts (l : Listing) : Prop where
  id : ∃ i, l.listingID = identifier "lst_" 10 i
  product : ∃ i, l.productID = identifier "prd_" 8 i
  merchant : ∃ i, l.merchantID = identifier "mer_" 6 i
  sku : tame l.merchantSKU = true
  title : tame l.listingTitle = true
  currency : l.currency = Utf8.str "USD"
  url : tame l.deepLinkURL = true

theorem tame_merchantSKU (i j : ℕ) : tame (merchantSKU (identifier "mer_" 6 i) (identifier "prd_" 8 j)) = true := by
  have hdigits : ∀ w k, printable (Utf8.encode (padNat w k)) = true :=
    fun w k => printable_digits fun _ hc => isDigit_of_mem_padNat hc
  rw [merchantSKU_eq, drop_identifier (by decide), drop_identifier (by decide), List.append_nil]
  refine tame_iff.mpr ⟨?_, worded_cons (c := 0x2d) rfl ?_ _⟩
  · rw [printable_append, printable_append, printable_toUpper (hdigits 6 i), hdigits 8 j]
    rfl
  · have hlen : 0 < (Utf8.encode (padNat 6 i)).length := by
      cases hpad : padNat 6 i with
      | nil => exact absurd (List.append_eq_nil_iff.mp hpad).2 (natChars_ne_nil i)
      | cons c cs =>
        rw [Utf8.encode_cons, List.length_append]
        have := Utf8.utf8EncodeChar_length_pos c
        omega
    refine List.ne_nil_of_length_pos ?_
    rwa [toUpper, List.length_map]

theorem tame_driftTitle {brand title : Bytes} (hbrand : tame brand = true) (htitle : printable title = true) :
    Yields (driftTitle brand title) fun drifted => tame drifted = true := by
  refine yields_bind (yields_pick _) fun template htemplate => yields_pure ?_
  have hrest : printable (trimSpace (trimPrefix title brand)) = true :=
    printable_trimSpace (printable_trimPrefix htitle brand)
  have hafter : ∀ after : List Char, after.all visible = true →
      tame (brand ++ sprintf after [trimSpace (trimPrefix title brand)]) = true :=
    fun _ hvisible => tame_append hbrand (printable_sprintf hvisible (by simpa using hrest))
  simp only [titleDriftTemplates, List.mem_cons, List.not_mem_nil, or_false] at htemplate
  rcases htemplate with rfl | rfl | rfl | rfl | rfl | rfl
  · exact hafter " %s".toList (by decide)
  · exact hafter " - %s".toList (by decide)
  · exact hafter " | %s".toList (by decide)
  · exact hafter " %s - Brand New".toList (by decide)
  · exact hafter " %s (Free Ship)".toList (by decide)
  · refine tame_iff.mpr ⟨printable_sprintf (by decide) ?_, worded_cons (r := [0x4e]) (c := 0x45) rfl (by decide) _⟩
    simp [(tame_iff.mp hbrand).1, hrest]

theorem yields_listingTexts {p : Product} (hp : ProductTexts p) {m : Merchant} (hm : MerchantTexts m) (reference : ℤ)
    (listingSeq : ℕ) : Yields (buildListing p reference m listingSeq) ListingTexts := by
  refine yields_bind (tame_driftTitle hp.brand (tame_iff.mp hp.title).1) fun title htitle => ?_
  refine yields_bind (P := fun _ => True) (fun _ _ _ _ => trivial) fun price _ => ?_
  refine yields_bind (yields_intn _) fun stock _ => ?_
  refine yields_bind (yields_varyCommission _) fun rate _ => yields_pure ?_
  obtain ⟨i, hi⟩ := hm.id
  obtain ⟨j, hj⟩ := hp.id
  refine ⟨⟨_, rfl⟩, ⟨j, hj⟩, ⟨i, hi⟩, ?_, htitle, rfl, ?_⟩
  · simp only [hi, hj]
    exact tame_merchantSKU i j
  · simp only [hi, hj]
    refine tame_iff.mpr ⟨printable_sprintf (by decide) ?_,
      worded_cons (r := Utf8.encode ['h']) (c := 0x74) rfl (by decide) _⟩
    have hlead : printable (Utf8.str "mer_") = true ∧ printable (Utf8.str "prd_") = true := by decide
    simp [printable_identifier hlead.1, printable_identifier hlead.2]

theorem mem_of_pickMerchants (merchants : List Merchant) (want : ℕ) :
    Yields (pickMerchants merchants want) fun picked => ∀ m ∈ picked, m ∈ merchants := by
  unfold pickMerchants
  split_ifs
  · exact yields_pure fun m hm => hm
  · refine yields_bind (P := fun _ => True) (fun _ _ _ _ => trivial) fun chosen _ => yields_pure fun m hm => ?_
    obtain ⟨i, -, hi⟩ := List.mem_filterMap.mp hm
    exact List.mem_of_getElem? hi

theorem yields_offersTexts {merchants : List Merchant} (hm : ∀ m ∈ merchants, MerchantTexts m) {p : Product}
    (hp : ProductTexts p) (listingSeq : ℕ) :
    Yields (buildOffers merchants listingSeq p) fun o => ∀ l ∈ o.listings, ListingTexts l := by
  refine yields_bind (yields_intn _) fun extra _ => yields_bind (yields_intn _) fun above _ => ?_
  refine yields_bind (mem_of_pickMerchants merchants _) fun picked hpicked => ?_
  refine yields_bind (yields_each (R := fun _ l => ListingTexts l) fun m hmem => ?_) fun listings hall =>
    yields_pure fun l hl => (mem_of_forall₂ hall hl).choose_spec.2
  exact yields_listingTexts hp (hm m.1 (hpicked _ ((List.mem_zipIdx hmem).2.2 ▸ List.getElem_mem _))) _ m.2

theorem yields_listingsTexts {merchants : List Merchant} (hm : ∀ m ∈ merchants, MerchantTexts m) :
    ∀ {products : List Product} (listingSeq : ℕ), (∀ p ∈ products, ProductTexts p) →
      Yields (buildListings merchants listingSeq products) fun offers =>
        ∀ l ∈ offers.flatMap (·.listings), ListingTexts l
  | [], _, _ => yields_pure (by simp)
  | p :: products, listingSeq, hp => by
    refine yields_bind (yields_offersTexts hm (hp p List.mem_cons_self) listingSeq) fun o ho => ?_
    refine yields_bind (yields_listingsTexts hm _ fun q hq => hp q (List.mem_cons_of_mem p hq)) fun rest hrest => ?_
    refine yields_pure fun l hl => ?_
    rw [List.flatMap_cons, List.mem_append] at hl
    exact hl.elim (ho l) (hrest l)

end Rows

/-! ## The catalogue -/

/-- **The texts of a catalogue as they are generated.** -/
structure Catalog.Written (c : Catalog) : Prop where
  merchants : ∀ m ∈ c.merchants, MerchantTexts m
  publishers : ∀ p ∈ c.publishers, tame p.publisherID = true ∧ tame p.name = true ∧ tame p.payoutCurrency = true
  products : ∀ p ∈ c.products, ProductTexts p
  listings : ∀ l ∈ c.listings, ListingTexts l

theorem yields_written (t : GoQuote.PrintTable) (cfg : Config) :
    Yields (generate t cfg) fun g => g.catalog.Written := by
  refine yields_bind (yields_each (R := fun _ m => MerchantTexts m) fun i _ => yields_merchantTexts i)
    fun merchants hmerchants => ?_
  refine yields_bind (yields_each (R := fun _ p => ProductTexts p) fun i _ => yields_productTexts t i)
    fun products hproducts => ?_
  have hm : ∀ m ∈ merchants, MerchantTexts m := fun m hm => (mem_of_forall₂ hmerchants hm).choose_spec.2
  have hp : ∀ p ∈ products, ProductTexts p := fun p hp => (mem_of_forall₂ hproducts hp).choose_spec.2
  refine yields_bind (yields_listingsTexts hm 0 hp) fun offers hoffers => yields_pure ⟨hm, ?_, hp, hoffers⟩
  intro p hp
  obtain ⟨i, -, rfl⟩ := List.mem_map.mp hp
  exact ⟨tame_identifier (by decide) 6 i, tame_publisherName i, tame_usd⟩

theorem yields_length_products (t : GoQuote.PrintTable) (cfg : Config) :
    Yields (generate t cfg) fun g => g.catalog.products.length = cfg.CanonicalProducts := by
  refine yields_bind (yields_buildMerchants _) fun merchants _ => ?_
  refine yields_bind (yields_buildProducts t _) fun products hproducts => ?_
  refine yields_bind (P := fun _ => True) (fun _ _ _ _ => trivial) fun offers _ => yields_pure ?_
  have hlength := congrArg List.length hproducts
  rwa [List.length_map, List.length_map, List.length_range] at hlength

/-- **Every text of such a catalogue is visible ASCII and reads as a text.** -/
theorem Catalog.Written.tame {c : Catalog} (hg : c.Written) : ∀ s ∈ c.texts, tame s = true := by
  intro s hs
  simp only [Catalog.texts, List.mem_append, List.mem_flatMap, List.mem_cons, List.not_mem_nil, or_false] at hs
  rcases hs with ((⟨m, hm, hs⟩ | ⟨p, hp, hs⟩) | ⟨p, hp, hs⟩) | ⟨l, hl, hs⟩
  · obtain ⟨⟨i, hi⟩, hname, -⟩ := hg.merchants m hm
    rcases hs with rfl | rfl
    · rw [hi]
      exact tame_identifier (by decide) 6 i
    · exact hname
  · obtain ⟨hid, hname, hcurrency⟩ := hg.publishers p hp
    rcases hs with rfl | rfl | rfl
    · exact hid
    · exact hname
    · exact hcurrency
  · have h := hg.products p hp
    obtain ⟨i, hi⟩ := h.id
    rcases hs with rfl | rfl | rfl | rfl | rfl | rfl
    · rw [hi]
      exact tame_identifier (by decide) 8 i
    · exact h.title
    · exact h.brand
    · exact h.category
    · exact h.description
    · exact h.attributes.1
  · have h := hg.listings l hl
    obtain ⟨i, hi⟩ := h.id
    obtain ⟨j, hj⟩ := h.product
    obtain ⟨k, hk⟩ := h.merchant
    rcases hs with rfl | rfl | rfl | rfl | rfl | rfl | rfl
    · rw [hi]
      exact tame_identifier (by decide) 10 i
    · rw [hj]
      exact tame_identifier (by decide) 8 j
    · rw [hk]
      exact tame_identifier (by decide) 6 k
    · exact h.sku
    · exact h.title
    · rw [h.currency]
      exact tame_usd
    · exact h.url

end Generator
