import AgenticAttribution.Attribution.Canonical
import AgenticAttribution.Settlement.Progress

/-!
# Settlement.Integrity — every settlement goes back to a mint

A call is `Traced` when its program counter tells what it has established: that its assertion verified, and which
listing it was checked against.  Every step keeps that, and every settlement row was begun by a traced call
(`traced_run`).  If nobody forges signatures, a row therefore carries the arguments of one `Mint` call
(`attribution_integrity`).
-/

namespace Settlement

open Attribution Calendar

/-- The listing is one that a lookup for the request can have returned, and it matches the request. -/
structure Listed (req : Request) (listing : Listing) : Prop where
  row : ∃ row : ListingRow, row.ok = true ∧ row.productID = req.assertion.productID ∧
    row.merchantID = req.merchantID ∧ row.listing = listing
  inStock : listing.inStock = true
  currency : listing.currency = req.currency
  price : listing.priceCents = req.grossAmountCents

theorem Found.listed {s : Sys} {req : Request} {listing : Listing} (h : Found s req listing) : Listed req listing := by
  obtain ⟨⟨row, hrow, hp, hm, hl⟩, hs, hc, hg⟩ := h
  exact ⟨⟨row, s.db.catalog.listings_ok row hrow, hp, hm, hl⟩, hs, hc, hg⟩

/-- The listing that a call has in hand before its claim. -/
def Pc.listing : Pc → Option Listing
  | checked l | accepted l => some l
  | _ => none

/-- A call past the verification of its assertion. -/
def Pc.past : Pc → Bool
  | returned _ | answered _ => false
  | _ => true

/-- A call before `Begin`. -/
def Pc.early : Pc → Bool
  | verified | checked _ | accepted _ => true
  | _ => false

structure Traced (svc : Service) (call : Call) : Prop where
  fresh : call.pc.early = true → call.begun = none
  verified : call.pc.past = true ∨ call.begun ≠ none → svc.verify call.req call.now = none
  listed : ∀ l, call.pc.listing = some l → Listed call.req l
  begun : ∀ l p, call.begun = some (l, p) → Listed call.req l ∧ ∃ newID, p = call.req.pending l newID

/-- The row was begun by one of the calls. -/
def Begun (s : Sys) (r : SettlementRow) : Prop :=
  ∃ call ∈ s.calls, ∃ l p, call.begun = some (l, p) ∧ r.terms = p.row

/-- What is known about the calls and the rows. -/
structure Trace (svc : Service) (s : Sys) : Prop where
  calls : ∀ call ∈ s.calls, Traced svc call
  rows : ∀ r ∈ s.db.settlements, Begun s r

section Steps

variable {svc : Service} {s t : Sys} {a : Action} {c : ℕ} {call : Call}

theorem trace_init (svc : Service) (catalog : Catalog) : Trace svc (Sys.init catalog) := by
  refine ⟨?_, ?_⟩
  · intro call hc
    cases hc
  · intro r hr
    cases hr

/-- A call that stops keeps what it had begun. -/
theorem Traced.stop (h : Traced svc call) {pc : Pc} (hpast : pc.past = false) (hearly : pc.early = false)
    (hlist : pc.listing = none) : Traced svc { call with pc } := by
  refine ⟨?_, ?_, ?_, h.begun⟩
  · intro he
    rw [hearly] at he
    cases he
  · rintro (hp | hb)
    · rw [hpast] at hp
      cases hp
    · exact h.verified (Or.inr hb)
  · intro l hl
    rw [hlist] at hl
    cases hl

/-- A call that goes on with a listing in hand or behind it. -/
theorem Traced.go (h : Traced svc call) (hpast : call.pc.past = true) {pc : Pc}
    (hearly : pc.early = true → call.pc.early = true) (hlist : ∀ l, pc.listing = some l → Listed call.req l) :
    Traced svc { call with pc } :=
  ⟨fun he => h.fresh (hearly he), fun _ => h.verified (Or.inl hpast), hlist, h.begun⟩

theorem Traced.begins (h : Traced svc call) {l : Listing} (hpc : call.pc = .accepted l) (newID : Bytes) {pc : Pc}
    (hearly : pc.early = false) (hlist : pc.listing = none) :
    Traced svc { call with begun := some (l, call.req.pending l newID), pc } := by
  have hl : Listed call.req l := h.listed l (by rw [hpc]; rfl)
  refine ⟨?_, fun _ => h.verified (Or.inl (by rw [hpc]; rfl)), ?_, ?_⟩
  · intro he
    rw [hearly] at he
    cases he
  · intro l' hl'
    rw [hlist] at hl'
    cases hl'
  · intro l' p hb
    obtain ⟨rfl, rfl⟩ := Prod.mk.inj (Option.some.inj hb)
    exact ⟨hl, newID, rfl⟩

theorem traced_entered (svc : Service) (req : Request) (now : ℤ) : Traced svc (svc.entered req now) := by
  cases hv : svc.verify req now with
  | none =>
    have he : svc.entered req now = ⟨req, now, none, .verified⟩ := by simp only [Service.entered, hv]
    rw [he]
    refine ⟨fun _ => rfl, fun _ => hv, ?_, ?_⟩
    · intro l hl
      cases hl
    · intro l p hb
      cases hb
  | some e =>
    have he : svc.entered req now = ⟨req, now, none, .returned (.error e)⟩ := by simp only [Service.entered, hv]
    rw [he]
    refine ⟨fun _ => rfl, ?_, ?_, ?_⟩
    · rintro (hp | hb)
      · cases hp
      · exact absurd rfl hb
    · intro l hl
      cases hl
    · intro l p hb
      cases hb

/-- Changing one call to a traced one that keeps what it had begun. -/
theorem Trace.put (h : Trace svc s) (hc : s.calls[c]? = some call) {new : Call} (hnew : Traced svc new)
    (hbegun : ∀ b, call.begun = some b → new.begun = some b) : Trace svc (s.put c new) := by
  refine ⟨?_, ?_⟩
  · intro call' hc'
    rcases mem_put hc' with rfl | hc'
    · exact hnew
    · exact h.calls call' hc'
  · intro r hr
    obtain ⟨call', hmem, l, p, hb, ht⟩ := h.rows r hr
    obtain ⟨i, hi⟩ := List.mem_iff_getElem?.mp hmem
    by_cases hci : c = i
    · subst hci
      rw [hc, Option.some.injEq] at hi
      subst hi
      exact ⟨new, List.mem_of_getElem? (i := c) (by rw [get_put hc, if_pos rfl]), l, p, hbegun _ hb, ht⟩
    · exact ⟨call', List.mem_of_getElem? (i := i) (by rw [get_put hc, if_neg hci, hi]), l, p, hb, ht⟩

theorem Trace.frame (h : Trace svc s) {t : Sys} (hcalls : t.calls = s.calls)
    (hrows : ∀ r ∈ t.db.settlements, ∃ q ∈ s.db.settlements, r.terms = q.terms) : Trace svc t := by
  refine ⟨fun call hc => h.calls call (hcalls ▸ hc), ?_⟩
  intro r hr
  obtain ⟨q, hq, ht⟩ := hrows r hr
  obtain ⟨call, hc, l, p, hb, ht'⟩ := h.rows q hq
  exact ⟨call, hcalls ▸ hc, l, p, hb, ht.trans ht'⟩

theorem listing_settlePc (p : PendingSettlement) (answer : Except Err SettleResponse) :
    (settlePc p answer).listing = none := by
  unfold settlePc
  cases settleFailure answer <;> rfl

theorem early_beginPc (p : PendingSettlement) (r : Option Err) :
    (beginPc p r).early = false ∧ (beginPc p r).listing = none := by
  cases r <;> exact ⟨rfl, rfl⟩

/-- `Begin` is the one step that adds a row, and its call had not begun before. -/
theorem Trace.begins (h : Trace svc s) (hc : s.calls[c]? = some call) {l : Listing} (hpc : call.pc = .accepted l)
    (newID : Bytes) {pc : Pc} (hpc' : pc.early = false ∧ pc.listing = none) {db : DB}
    (hrows : ∀ r ∈ db.settlements, r ∈ s.db.settlements ∨ r = (call.req.pending l newID).row) :
    Trace svc ({ s with db }.put c { call with begun := some (l, call.req.pending l newID), pc }) := by
  have htraced := h.calls call (List.mem_of_getElem? hc)
  have hnew := htraced.begins hpc newID hpc'.1 hpc'.2
  have hc' : ({ s with db } : Sys).calls[c]? = some call := hc
  refine ⟨?_, ?_⟩
  · intro call' hmem
    rcases mem_put hmem with rfl | hmem
    · exact hnew
    · exact h.calls call' hmem
  · intro q hq
    rcases hrows q hq with hq | rfl
    · obtain ⟨call', hmem, l', p', hb, ht⟩ := h.rows q hq
      obtain ⟨i, hi⟩ := List.mem_iff_getElem?.mp hmem
      have hci : c ≠ i := by
        rintro rfl
        rw [hc, Option.some.injEq] at hi
        subst hi
        rw [htraced.fresh (by rw [hpc]; rfl)] at hb
        cases hb
      exact ⟨call', List.mem_of_getElem? (i := i) (by rw [get_put hc', if_neg hci]; exact hi), l', p', hb, ht⟩
    · exact ⟨_, List.mem_of_getElem? (i := c) (by rw [get_put hc', if_pos rfl]), l, _, rfl, rfl⟩

/-- The rows behind an update on the same terms. -/
theorem rows_of_update {id : Bytes} {f : SettlementRow → SettlementRow} (hf : ∀ r, (f r).terms = r.terms) :
    ∀ r ∈ Table.update (pendingAt id) f s.db.settlements, ∃ q ∈ s.db.settlements, r.terms = q.terms := by
  intro r hr
  obtain ⟨q, hq, ht, -⟩ := update_terms hf hr
  exact ⟨q, hq, ht⟩

theorem rows_same : ∀ r ∈ s.db.settlements, ∃ q ∈ s.db.settlements, r.terms = q.terms :=
  fun r hr => ⟨r, hr, rfl⟩

/-- **Every step keeps the trace.** -/
theorem trace_step (h : Trace svc s) (hs : step svc s a = some t) : Trace svc t := by
  have htraced : ∀ {c : ℕ} {call : Call}, s.calls[c]? = some call → Traced svc call :=
    fun hc => h.calls _ (List.mem_of_getElem? hc)
  cases moves_of_step hs with
  | entered req now =>
    refine ⟨?_, ?_⟩
    · intro call hc
      rcases List.mem_append.mp hc with hc | hc
      · exact h.calls call hc
      · rw [List.mem_singleton.mp hc]
        exact traced_entered svc req now
    · intro r hr
      obtain ⟨call, hc, hrest⟩ := h.rows r hr
      exact ⟨call, List.mem_append_left _ hc, hrest⟩
  | turnedDown e hc hpc => exact h.put hc ((htraced hc).stop rfl rfl rfl) fun _ => id
  | found hc hpc hl =>
    refine h.put hc ((htraced hc).go (by rw [hpc]; rfl) (fun _ => by rw [hpc]; rfl) ?_) fun _ => id
    intro l hl'
    rw [← Option.some.inj hl']
    exact hl.listed
  | @accepted c answer call listing hc hpc hv =>
    refine h.put hc ((htraced hc).go (by rw [hpc]; rfl) (fun _ => by rw [hpc]; rfl) ?_) fun _ => id
    intro l hl'
    exact (htraced hc).listed l (by rw [hpc]; exact hl')
  | notBegun e hc hpc => exact h.begins hc hpc _ ⟨rfl, rfl⟩ fun r hr => Or.inl hr
  | begun r hc hpc hadm =>
    refine h.begins hc hpc _ (early_beginPc _ r) ?_
    intro q hq
    rcases List.mem_append.mp hq with hq | hq
    · exact Or.inl hq
    · exact Or.inr (List.mem_singleton.mp hq)
  | @paid c moved answer call p hc hpc =>
    have hframe := h.frame (t := { s with exchanges := s.exchanges ++
      [call.req.exchange p moved answer] }) rfl rows_same
    refine hframe.put hc ((htraced hc).go (by rw [hpc]; rfl) ?_ ?_) fun _ => id
    · intro he
      unfold settlePc at he
      cases hf : settleFailure answer <;> rw [hf] at he <;> cases he
    · intro l hl
      rw [listing_settlePc] at hl
      cases hl
  | notConfirmed e hc hpc => exact h.put hc ((htraced hc).stop rfl rfl rfl) fun _ => id
  | @confirmed c now fate call p response r hc hpc hconf =>
    have hframe := h.frame (t := { s with db := s.db.confirm p response.transaction now }) rfl
      (rows_of_update (terms_confirm response.transaction now))
    refine hframe.put hc ((htraced hc).stop ?_ ?_ ?_) fun _ => id <;> cases r <;> rfl
  | notFailed e hc hpc => exact h.put hc ((htraced hc).stop rfl rfl rfl) fun _ => id
  | @failed c fate call p err e hc hpc =>
    have hframe := h.frame (t := { s with db := s.db.fail p.settlementID }) rfl (rows_of_update terms_fail)
    exact hframe.put hc ((htraced hc).stop rfl rfl rfl) fun _ => id
  | @journalled c fate call result rows hc hpc =>
    have hframe := h.frame (t := { s with db := { s.db with rejected := rows } }) rfl rows_same
    exact hframe.put hc ((htraced hc).stop rfl rfl rfl) fun _ => id
  | minted hr => exact h.frame rfl rows_same
  | catalogued hx => exact h.frame rfl rows_same
  | rejected rows => exact h.frame rfl rows_same

theorem trace_run {catalog : Catalog} {as : List Action} (h : run svc (Sys.init catalog) as = some s) : Trace svc s :=
  Runs.run_invariant (fun _ _ _ hi hst => trace_step hi hst) (trace_init svc catalog) h

end Steps

/-! ## Where the calls come from -/

section Entered

variable {svc : Service}

/-- A call keeps its request and its clock value. -/
theorem call_step {s t : Sys} {a : Action} (h : step svc s a = some t) {call : Call} (hc : call ∈ t.calls) :
    a = .enter call.req call.now ∨ ∃ old ∈ s.calls, old.req = call.req ∧ old.now = call.now := by
  have hput : ∀ {u : Sys} {c : ℕ} {old new : Call}, u.calls = s.calls → s.calls[c]? = some old →
      call ∈ (u.put c new).calls → old.req = new.req → old.now = new.now →
      ∃ old ∈ s.calls, old.req = call.req ∧ old.now = call.now := by
    intro u c old new hu hold hmem hr hn
    rcases mem_put hmem with rfl | hmem
    · exact ⟨old, List.mem_of_getElem? hold, hr, hn⟩
    · exact ⟨call, hu ▸ hmem, rfl, rfl⟩
  cases moves_of_step h with
  | entered req now =>
    rcases List.mem_append.mp hc with hc | hc
    · exact Or.inr ⟨call, hc, rfl, rfl⟩
    · rw [List.mem_singleton.mp hc]
      exact Or.inl rfl
  | turnedDown e hold _ => exact Or.inr (hput rfl hold hc rfl rfl)
  | found hold _ _ => exact Or.inr (hput rfl hold hc rfl rfl)
  | accepted hold _ _ => exact Or.inr (hput rfl hold hc rfl rfl)
  | notBegun e hold _ => exact Or.inr (hput rfl hold hc rfl rfl)
  | begun r hold _ _ => exact Or.inr (hput rfl hold hc rfl rfl)
  | paid hold _ => exact Or.inr (hput rfl hold hc rfl rfl)
  | notConfirmed e hold _ => exact Or.inr (hput rfl hold hc rfl rfl)
  | confirmed r hold _ _ => exact Or.inr (hput rfl hold hc rfl rfl)
  | notFailed e hold _ => exact Or.inr (hput rfl hold hc rfl rfl)
  | failed e hold _ => exact Or.inr (hput rfl hold hc rfl rfl)
  | journalled rows hold _ => exact Or.inr (hput rfl hold hc rfl rfl)
  | _ => exact Or.inr ⟨call, hc, rfl, rfl⟩

/-- Every call of a run entered with it, or was there before. -/
theorem call_run : ∀ {as : List Action} {s t : Sys}, run svc s as = some t → ∀ call ∈ t.calls,
    .enter call.req call.now ∈ as ∨ ∃ old ∈ s.calls, old.req = call.req ∧ old.now = call.now
  | [], s, t, h, call, hc => by
    rw [run, Runs.run_nil, Option.some.injEq] at h
    exact Or.inr ⟨call, h ▸ hc, rfl, rfl⟩
  | a :: as, s, t, h, call, hc => by
    obtain ⟨u, hu, ht⟩ := Runs.run_cons_eq_some.mp h
    rcases call_run ht call hc with hin | ⟨mid, hmid, hr, hn⟩
    · exact Or.inl (List.mem_cons_of_mem _ hin)
    · rcases call_step hu hmid with rfl | ⟨old, hold, hr', hn'⟩
      · rw [hr, hn]
        exact Or.inl List.mem_cons_self
      · exact Or.inr ⟨old, hold, hr'.trans hr, hn'.trans hn⟩

end Entered

/-! ## Back to the mint -/

section Mint

/-- The signature that an assertion presents verifies only if its document is one that was minted. -/
def Unforged (E : Ed25519) (pk : E.PublicKey) (minted : List MintArgs) (a : Assertion) : Prop :=
  ∀ raw, Base64.decodeStd (Base64.symsOfBytes (a.signature.drop (Utf8.encode signaturePrefix).length)) = .ok raw →
    E.verify pk (canonicalize a) raw = true → ∃ m ∈ minted, m.payload = canonicalize a

/-- The row settles the assertion of the mint `m`, in a call that verified it before its expiry. -/
structure Settles (svc : Service) (s : Sys) (r : SettlementRow) (m : MintArgs) : Prop where
  assertionID : r.assertionID = m.assertionID
  publisherID : r.publisherID = m.publisherID
  productID : r.productID = m.productID
  searchRequestID : r.searchRequestID = nullable m.searchRequestID
  call : ∃ call ∈ s.calls, ∃ listing p, call.begun = some (listing, p) ∧ r.terms = p.row ∧
    Listed call.req listing ∧ r.commissionBps = min m.commissionBps listing.commissionBps ∧
    svc.verify call.req call.now = none ∧ call.now < (m.issuedAt + ttl) / second * second

theorem valid_of_textOk {s : Bytes} (h : textOk s = true) : Utf8.valid s = true :=
  (Bool.and_eq_true_iff.mp h).1

theorem eq_of_decode_eq_of_textOk {s t : Bytes} (hs : textOk s = true) (h : Utf8.decode t = Utf8.decode s) : t = s :=
  eq_of_decode_eq (valid_of_textOk hs) h

/-- A stored search request identifier is valid text, or empty. -/
theorem eq_of_nullable {s t : Bytes} (hs : (nullable s).all textOk = true) (h : Utf8.decode t = Utf8.decode s) :
    t = s := by
  by_cases hnil : s = []
  · subst hnil
    exact Utf8.decode_eq_some_iff.mp (show Utf8.decode t = ([] : List Char).map some from h)
  · rw [nullable, if_neg hnil, Option.all_some] at hs
    exact eq_of_decode_eq_of_textOk hs h

/-- The document of a mint, accepted by `Verify`, expires when the mint said. -/
theorem expiry_of_payload {E : Ed25519} {pk : E.PublicKey} {a : Assertion} {now expires : ℤ} {raw : Bytes}
    {m : MintArgs} (h : Accepts E pk a now raw expires) (hm : m.payload = canonicalize a) :
    now < (m.issuedAt + ttl) / second * second := by
  have hexp : Utf8.decode a.expiresAt = Utf8.decode m.assertion.expiresAt := (canonicalize_inj hm).expiresAt.symm
  have heq : a.expiresAt = Utf8.encode (formatRFC3339 (m.issuedAt + ttl)) :=
    eq_of_decode_eq (Utf8.valid_encode _) hexp
  have hparse := h.parses
  rw [heq, latin1_formatRFC3339, parseRFC3339_format] at hparse
  split_ifs at hparse
  rw [Option.some.inj hparse]
  exact h.unexpired

variable {svc : Service} {s : Sys}

theorem settles_of_row (hi : Inv s) (ht : Trace svc s)
    (hunf : ∀ call ∈ s.calls, Unforged svc.ed25519 svc.publicKey s.minted call.req.assertion)
    {r : SettlementRow} (hr : r ∈ s.db.settlements) : ∃ m ∈ s.minted, Settles svc s r m := by
  obtain ⟨call, hc, l, p, hb, hterms⟩ := ht.rows r hr
  have htraced := ht.calls call hc
  obtain ⟨hlisted, newID, rfl⟩ := htraced.begun l p hb
  have hverify := htraced.verified (Or.inr (by rw [hb]; exact Option.some_ne_none _))
  obtain ⟨raw, expires, hacc⟩ := (verify_eq_none_iff svc.ed25519).mp (Option.map_eq_none_iff.mp hverify)
  obtain ⟨m, hm, hpay⟩ := hunf call hc raw hacc.base64 hacc.verifies
  obtain ⟨hid, hpub, hprod, hreq, -, -, hbps⟩ := canonicalize_inj hpay
  have htexts : (call.req.pending l newID).row.textsOk = true := by
    rw [← textsOk_eq_of_terms (s := (call.req.pending l newID).row) hterms]
    exact hi.books.texts r hr
  simp only [SettlementRow.textsOk, Bool.and_eq_true] at htexts
  obtain ⟨⟨⟨⟨⟨⟨⟨-, haid⟩, hsrid⟩, hpubt⟩, -⟩, hprodt⟩, -⟩, -⟩ := htexts
  have hfields : ∀ {α : Type} (f : SettlementRow → α), (∀ q : SettlementRow, f q = f q.terms) →
      f r = f (call.req.pending l newID).row := by
    intro α f hf
    rw [hf r, hterms]
  refine ⟨m, hm, ?_, ?_, ?_, ?_, call, hc, l, _, hb, hterms, hlisted, ?_, hverify, expiry_of_payload hacc hpay⟩
  · rw [hfields (·.assertionID) fun _ => rfl]
    exact (eq_of_decode_eq_of_textOk haid hid).symm
  · rw [hfields (·.publisherID) fun _ => rfl]
    exact (eq_of_decode_eq_of_textOk hpubt hpub).symm
  · rw [hfields (·.productID) fun _ => rfl]
    exact (eq_of_decode_eq_of_textOk hprodt hprod).symm
  · rw [hfields (·.searchRequestID) fun _ => rfl]
    exact congrArg nullable (eq_of_nullable hsrid hreq).symm
  · rw [hfields (·.commissionBps) fun _ => rfl]
    show effectiveCommissionBps call.req.assertion.commissionBps l.commissionBps = _
    rw [effectiveCommissionBps_eq_min]
    exact congrArg (min · l.commissionBps) hbps.symm

end Mint

/-- **Attribution integrity.**  If the signatures presented verify only on documents that were minted, and minted
assertion identifiers are distinct, then in every state that a run reaches every settlement row settles exactly one
mint, and no two rows settle the same. -/
theorem attribution_integrity (svc : Service) (catalog : Catalog) {as : List Action} {s : Sys}
    (h : run svc (Sys.init catalog) as = some s)
    (hids : (s.minted.map (·.assertionID)).Nodup)
    (hunf : ∀ req now, .enter req now ∈ as → Unforged svc.ed25519 svc.publicKey s.minted req.assertion) :
    (∀ r ∈ s.db.settlements, ∃! m, m ∈ s.minted ∧ Settles svc s r m) ∧
      ∀ r ∈ s.db.settlements, ∀ r' ∈ s.db.settlements, ∀ m, Settles svc s r m → Settles svc s r' m → r = r' := by
  have hi : Inv s := inv_reachable h
  have hcalls : ∀ call ∈ s.calls, Unforged svc.ed25519 svc.publicKey s.minted call.req.assertion := by
    intro call hc
    rcases call_run h call hc with hin | ⟨old, hold, -⟩
    · exact hunf call.req call.now hin
    · cases hold
  refine ⟨?_, ?_⟩
  · intro r hr
    obtain ⟨m, hm, hset⟩ := settles_of_row hi (trace_run h) hcalls hr
    refine ⟨m, ⟨hm, hset⟩, ?_⟩
    rintro m' ⟨hm', hset'⟩
    exact Table.Keyed.eq_of_key_eq hids hm' hm (hset'.assertionID.symm.trans hset.assertionID)
  · intro r hr r' hr' m hm hm'
    exact hi.books.assertions.eq_of_key_eq hr hr' (hm.assertionID.trans hm'.assertionID.symm)

theorem attribution_integrity_sample : ∃! m, m ∈ Sample.final.minted ∧
    Settles Sample.service Sample.final Sample.row m := by
  have hunf : ∀ req now, .enter req now ∈ Sample.actions →
      Unforged Sample.service.ed25519 Sample.service.publicKey Sample.final.minted req.assertion := by
    intro req now hmem raw _ _
    have hreq : req = Sample.request := by
      simp only [Sample.actions, beginActions, payActions, List.cons_append, List.nil_append, List.mem_cons,
        List.not_mem_nil, or_false, reduceCtorEq, false_or, Action.enter.injEq] at hmem
      exact hmem.1
    subst hreq
    exact ⟨Sample.mintArgs, List.mem_cons_self, rfl⟩
  exact (attribution_integrity Sample.service Sample.catalog Sample.run_actions (by decide) hunf).1 Sample.row
    (by decide)

end Settlement
