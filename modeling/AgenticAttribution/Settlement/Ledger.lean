import AgenticAttribution.Settlement.Progress

/-!
# Settlement.Ledger — the double-entry contract

What any run of concurrent settlements leaves in the four tables, read off the invariant: claims and settlements
are in bijection, and a settlement has its three balanced entries exactly while it is confirmed
(`ledger_contract`).  `facilitator.Settle` is invoked at most once for an assertion, and behind its claim
(`settle_once`).
-/

namespace Settlement

/-- The contract between the tables. -/
structure LedgerContract (db : DB) : Prop where
  claimKey : (db.consumed.map (·.assertionID)).Nodup
  settlementKey : (db.settlements.map (·.settlementID)).Nodup
  row_of_claim : ∀ c ∈ db.consumed, ∃! r, r ∈ db.settlements ∧ r.assertionID = c.assertionID
  claim_of_row : ∀ r ∈ db.settlements, ∃! c, c ∈ db.consumed ∧ c.assertionID = r.assertionID
  confirmed : ∀ r ∈ db.settlements, r.status = .confirmed →
    db.entriesOf r.settlementID = r.entries ∧ ((db.entriesOf r.settlementID).map (·.amountCents)).sum = 0
  unposted : ∀ r ∈ db.settlements, r.status = .pending ∨ r.status = .failed → db.entriesOf r.settlementID = []
  status : ∀ r ∈ db.settlements, r.status = .pending ∨ r.status = .confirmed ∨ r.status = .failed

theorem Books.contract {db : DB} (h : Books db) : LedgerContract db := by
  have hclaims : Table.Keyed (·.assertionID) db.consumed := by
    rw [Table.Keyed, h.claims]
    exact h.assertions
  refine ⟨hclaims, h.ids, ?_, ?_, ?_, ?_, ?_⟩
  · intro c hc
    have hmem : c.assertionID ∈ db.settlements.map (·.assertionID) :=
      h.claims ▸ List.mem_map.mpr ⟨c, hc, rfl⟩
    obtain ⟨r, hr, he⟩ := List.mem_map.mp hmem
    exact ⟨r, ⟨hr, he⟩, fun r' hr' => h.assertions.eq_of_key_eq hr'.1 hr (hr'.2.trans he.symm)⟩
  · intro r hr
    have hmem : r.assertionID ∈ db.consumed.map (·.assertionID) :=
      h.claims ▸ List.mem_map.mpr ⟨r, hr, rfl⟩
    obtain ⟨c, hc, he⟩ := List.mem_map.mp hmem
    exact ⟨c, ⟨hc, he⟩, fun c' hc' => hclaims.eq_of_key_eq hc'.1 hc (hc'.2.trans he.symm)⟩
  · intro r hr hs
    have hposted : db.entriesOf r.settlementID = r.entries := by rw [h.posted r hr, if_pos hs]
    exact ⟨hposted, by rw [hposted]; exact SettlementRow.sum_entries (h.checks r hr)⟩
  · rintro r hr (hs | hs) <;> exact h.unposted hr (by rw [hs]; exact Status.noConfusion)
  · intro r hr
    have hrev := h.statuses r hr
    cases hs : r.status with
    | pending => exact Or.inl rfl
    | confirmed => exact Or.inr (Or.inl rfl)
    | failed => exact Or.inr (Or.inr rfl)
    | reversed => exact absurd hs hrev

section Steps

variable {svc : Service} {s t : Sys} {a : Action}

/-- A step moves each settlement at most once along `pending → confirmed` or `pending → failed`. -/
theorem advances_step (h : step svc s a = some t) : Advances s.db t.db := by
  cases moves_of_step h with
  | begun r hc hpc hadm => exact advances_claim s.db _
  | confirmed r hc hpc hconf => exact advances_confirm s.db _ _ _
  | failed e hc hpc => exact advances_fail s.db _
  | journalled rows hc hpc => exact Advances.of_eq rfl
  | catalogued h => exact Advances.of_eq rfl
  | rejected rows => exact Advances.of_eq rfl
  | _ => exact Advances.refl s.db

theorem advances_run {as : List Action} (h : run svc s as = some t) : Advances s.db t.db :=
  Runs.run_transition (P := fun _ => True) (R := fun s t => Advances s.db t.db) (fun _ _ _ _ _ => trivial)
    (fun s => Advances.refl s.db) (fun _ _ _ => Advances.trans) (fun _ _ _ _ hs => advances_step hs) trivial h

/-- A settlement that a step adds is pending. -/
theorem pending_of_new (h : step svc s a = some t) {r : SettlementRow} (hr : r ∈ t.db.settlements)
    (hnew : r.settlementID ∉ s.db.settlements.map (·.settlementID)) : r.status = .pending := by
  have hupdate : ∀ {id : Bytes} {f : SettlementRow → SettlementRow}, (∀ r, (f r).terms = r.terms) →
      r ∉ Table.update (pendingAt id) f s.db.settlements := by
    intro id f hf hmem
    obtain ⟨q, hq, ht, -⟩ := update_terms hf hmem
    exact hnew (List.mem_map.mpr ⟨q, hq, (settlementID_eq_of_terms ht).symm⟩)
  have hold : r ∉ s.db.settlements := fun hmem => hnew (List.mem_map.mpr ⟨r, hmem, rfl⟩)
  cases moves_of_step h with
  | begun r' hc hpc hadm =>
    rcases List.mem_append.mp hr with hr | hr
    · exact absurd hr hold
    · rw [List.mem_singleton.mp hr]
      rfl
  | @confirmed c now fate call p response r' hc hpc hconf =>
    exact absurd hr (hupdate (terms_confirm response.transaction now))
  | failed e hc hpc => exact absurd hr (hupdate terms_fail)
  | _ => exact absurd hr hold

/-- A step invokes `facilitator.Settle` at most once, and only for an assertion whose claim and pending row are in
the database. -/
theorem exchange_step (hi : Inv s) (h : step svc s a = some t) :
    t.exchanges = s.exchanges ∨ ∃ x, t.exchanges = s.exchanges ++ [x] ∧
      x.assertionID ∈ s.db.consumed.map (·.assertionID) ∧
      ∃ r ∈ s.db.settlements, r.assertionID = x.assertionID ∧ r.settlementID = x.settlementID ∧
        r.status = .pending := by
  cases moves_of_step h with
  | @paid c moved answer call p hc hpc =>
    have hrow : p.row ∈ s.db.settlements := hi.pending c p ⟨call, hc, by rw [hpc]; rfl⟩
    refine Or.inr ⟨_, rfl, ?_, p.row, hrow, rfl, rfl, rfl⟩
    rw [hi.books.claims]
    exact List.mem_map.mpr ⟨p.row, hrow, rfl⟩
  | _ => exact Or.inl rfl

end Steps

/-- **The ledger contract** holds in every state that any run of concurrent settlements reaches; from there on
settlements only advance, and a settlement that a step adds is pending. -/
theorem ledger_contract (svc : Service) (catalog : Catalog) {as : List Action} {s : Sys}
    (h : run svc (Sys.init catalog) as = some s) :
    LedgerContract s.db ∧
      (∀ bs t, run svc s bs = some t → Advances s.db t.db) ∧
      ∀ a t, step svc s a = some t → ∀ r ∈ t.db.settlements,
        r.settlementID ∉ s.db.settlements.map (·.settlementID) → r.status = .pending :=
  ⟨(inv_reachable h).books.contract, fun _ _ => advances_run, fun _ _ hs _ hr hnew => pending_of_new hs hr hnew⟩

theorem ledger_contract_sample : LedgerContract Sample.final.db :=
  (ledger_contract Sample.service Sample.catalog Sample.run_actions).1

/-- **At most one payment for an assertion**, and none before the claim and the pending row are committed. -/
theorem settle_once (svc : Service) (catalog : Catalog) {as : List Action} {s : Sys}
    (h : run svc (Sys.init catalog) as = some s) :
    (s.exchanges.map (·.assertionID)).Nodup ∧
      ∀ a t, step svc s a = some t → t.exchanges = s.exchanges ∨ ∃ x, t.exchanges = s.exchanges ++ [x] ∧
        x.assertionID ∈ s.db.consumed.map (·.assertionID) ∧
        ∃ r ∈ s.db.settlements, r.assertionID = x.assertionID ∧ r.settlementID = x.settlementID ∧
          r.status = .pending :=
  ⟨(inv_reachable h).paidOnce, fun _ _ hs => exchange_step (inv_reachable h) hs⟩

namespace Sample

/-- Two calls with one assertion.  Both pass the checks before either of them has claimed it. -/
def raceActions : List Action :=
  [.enter request 0, .lookup 0 0 .done, .verifyPayment 0 (.ok verified)] ++
    beginActions request 0 0 verified secondID 1 ++
    [.begin 0 settlementID .done, .settlePayment 1 true (.ok response)]

/-- The claim of the second call. -/
def raced : PendingSettlement := request.pending listingRow.listing secondID

def raceFinal : Sys :=
  ⟨(DB.empty catalog).claim raced,
    [⟨request, 0, some (listingRow.listing, pending), .returned (.error Sentinel.assertionReused.err)⟩,
      ⟨request, 0, some (listingRow.listing, raced), .settled raced response⟩],
    [], [request.exchange raced true (.ok response)]⟩

theorem run_race : run service (Sys.init catalog) raceActions = some raceFinal := by
  have hfirst := run_accepts (s := Sys.init catalog) claimable
  have hsecond : Claimable service ((Sys.init catalog).push ⟨request, 0, none, .accepted listingRow.listing⟩).db request
      0 listingRow.listing 0 verified secondID :=
    ⟨claimable.verifies, claimable.found, claimable.matching, rfl,
      ⟨by decide, by decide, by decide, by decide, by decide, by decide, by decide⟩⟩
  rw [raceActions, List.append_assoc]
  refine Runs.run_append_eq_some.mpr ⟨_, hfirst, Runs.run_append_eq_some.mpr ⟨_, run_begins hsecond, ?_⟩⟩
  rfl

end Sample

/-- Of the two calls one pays, and the other is told that the assertion is used. -/
theorem settle_once_sample : Sample.raceFinal.exchanges.length = 1 ∧
    (Sample.raceFinal.exchanges.map (·.assertionID)).Nodup :=
  ⟨rfl, (settle_once Sample.service Sample.catalog Sample.run_race).1⟩

end Settlement
