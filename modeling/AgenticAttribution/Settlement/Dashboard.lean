import AgenticAttribution.Lib.Digits
import AgenticAttribution.Lib.GoStruct
import AgenticAttribution.Settlement.Progress
import AgenticAttribution.Settlement.Reports

/-!
# Settlement.Dashboard — the two pages of a publisher

`handleListPublishers` and `handlePublisherDetail` of `internal/settlement/handler.go`, as the JSON of what the two
queries report.  `PublisherSummary` embeds `Publisher` and shadows all of its counts but `failed_count`, which is
promoted and never filled in.  `pages_agree_iff` is what comes of it in a state, and `pages_agree` along the runs of
the store.
-/

namespace Settlement

open Attribution GoStruct Query
open Group (group)

/-! ## The pages -/

section Pages

def textMember (name : String) (s : Bytes) : Field := .named name (.str (Utf8.text s))

def numberMember (name : String) (n : ℤ) : Field := .named name (.num (Digits.intChars n))

def Reports.Publisher.fields (p : Reports.Publisher) : List Field :=
  [textMember "publisher_id" p.publisherID,
   textMember "name" p.name,
   textMember "payout_currency" p.currency,
   numberMember "settlement_count" p.settlementCount,
   numberMember "earned_cents" p.earnedCents,
   numberMember "blocked_count" p.blockedCount,
   numberMember "failed_count" p.failedCount]

/-- The embedded struct; a selector finds the outer counts, so the scan leaves its own at zero. -/
def Reports.PublisherSummary.embedded (s : Reports.PublisherSummary) : Reports.Publisher :=
  ⟨s.publisherID, s.name, s.currency, 0, 0, 0, s.failedCount⟩

def Reports.PublisherSummary.fields (s : Reports.PublisherSummary) : List Field :=
  [.embedded s.embedded.fields,
   numberMember "settlement_count" s.settlementCount,
   numberMember "gross_amount_cents" s.grossAmountCents,
   numberMember "earned_cents" s.earnedCents,
   numberMember "platform_fee_cents" s.platformFeeCents,
   numberMember "search_request_count" s.searchRequests,
   numberMember "assertions_consumed" s.assertionsIssued,
   numberMember "average_commission_bps" s.averageCommission,
   numberMember "blocked_count" s.blockedCount]

/-- `handleListPublishers`; `none` is an error status. -/
def handleListPublishers (collate : Bytes → Bytes → Bool) (db : DB) : Option Json :=
  (Store.listPublishers collate db).map fun publishers =>
    Json.ofProps [("publishers", some (.arr (publishers.map fun p => marshal p.fields)))]

/-- `handlePublisherDetail`, beside the settlements and the rejections that two other queries report. -/
def handlePublisherDetail (db : DB) (publisherID : Bytes) (recent : Option (Json × Json)) : Option Json := do
  let summary ← Store.publisherSummary db publisherID
  let (settlements, rejections) ← recent
  return Json.ofProps
    [("rejections", some rejections), ("settlements", some settlements), ("summary", some (marshal summary.fields))]

end Pages

/-! ## The store in sequence -/

section Sequence

/-- The calls of the store that write, with their fates. -/
inductive StoreAction where
  | begin (p : PendingSettlement) (fate : Fate)
  | confirm (p : PendingSettlement) (txHash : Bytes) (confirmedAt : ℤ) (fate : Fate)
  | fail (settlementID : Bytes) (fate : Fate)
  | recordRejection (r : Rejection) (fate : Fate)

/-- Whatever a call returns, the next may follow. -/
def storeStep (d : Driver) (db : DB) : StoreAction → Option DB
  | .begin p fate => some (Store.begin d db p fate).1
  | .confirm p txHash confirmedAt fate => some (Store.confirm d db p txHash confirmedAt fate).1
  | .fail settlementID fate => some (Store.fail d db settlementID fate).1
  | .recordRejection r fate => some (Store.recordRejection d db r fate).1

end Sequence

/-! ## What is asked -/

section Spec

/-- The value under a key is the same in both objects, if both have it. -/
def AgreeOn (entry summary : Json) : Prop :=
  ∀ key v w, entry.prop key = some v → summary.prop key = some w → v = w

/-- The entry of a publisher in the list. -/
def IsEntry (page : Json) (publisherID : Bytes) (entry : Json) : Prop :=
  ∃ entries, page.prop "publishers" = some (.arr entries) ∧ entry ∈ entries ∧
    entry.prop "publisher_id" = some (.str (Utf8.text publisherID))

/-- **The two pages of a publisher agree**, if both are answered. -/
def PagesAgree (collate : Bytes → Bytes → Bool) (db : DB) (p : Publisher) : Prop :=
  ∀ list detail entry summary recent, handleListPublishers collate db = some list →
    handlePublisherDetail db p.publisherID recent = some detail → IsEntry list p.publisherID entry →
      detail.prop "summary" = some summary → AgreeOn entry summary

/-- The call marks a pending settlement failed. -/
def MarksFailed (db : DB) (a : StoreAction) : Prop :=
  ∃ id fate, a = .fail id fate ∧ (∀ why, fate ≠ .lost 1 why) ∧ ∃ r ∈ db.settlements, pendingAt id r = true

end Spec

/-! ## Where the objects differ -/

section Fields

variable {p : Reports.Publisher} {s : Reports.PublisherSummary}

/-- A field of the summary, by its place and its depth. -/
theorem prop_summary {name : String} {v : Json} (i d : ℕ) (hf : (placedAll 0 s.fields)[i]? = some ⟨d, name, v⟩)
    (hdom : dominant (placedAll 0 s.fields) ⟨d, name, v⟩ = true) : (marshal s.fields).prop name = some v :=
  prop_of_placed (List.mem_of_getElem? hf) hdom

theorem prop_entry {name : String} {v : Json} (i : ℕ) (hf : (placedAll 0 p.fields)[i]? = some ⟨0, name, v⟩)
    (hdom : dominant (placedAll 0 p.fields) ⟨0, name, v⟩ = true) : (marshal p.fields).prop name = some v :=
  prop_of_placed (List.mem_of_getElem? hf) hdom

theorem prop_failedCount : (marshal s.fields).prop "failed_count" = some (.num (Digits.intChars s.failedCount)) :=
  prop_summary 6 1 rfl rfl

theorem prop_entry_failedCount :
    (marshal p.fields).prop "failed_count" = some (.num (Digits.intChars p.failedCount)) :=
  prop_entry 6 rfl rfl

theorem prop_entry_publisherID : (marshal p.fields).prop "publisher_id" = some (.str (Utf8.text p.publisherID)) :=
  prop_entry 0 rfl rfl

/-- The list entry that a summary goes with. -/
def Reports.PublisherSummary.entry (s : Reports.PublisherSummary) : Reports.Publisher :=
  ⟨s.publisherID, s.name, s.currency, s.settlementCount, s.earnedCents, s.blockedCount, s.failedCount⟩

/-- Where a name stands twice in the summary, the outer field is written. -/
theorem agreeOn_entry (s : Reports.PublisherSummary) : AgreeOn (marshal s.entry.fields) (marshal s.fields) := by
  have hfields : ∀ f ∈ placedAll 0 s.entry.fields, (marshal s.fields).prop f.name = some f.value :=
    List.forall_mem_cons.mpr ⟨prop_summary 0 1 rfl rfl,
      List.forall_mem_cons.mpr ⟨prop_summary 1 1 rfl rfl,
      List.forall_mem_cons.mpr ⟨prop_summary 2 1 rfl rfl,
      List.forall_mem_cons.mpr ⟨prop_summary 7 0 rfl rfl,
      List.forall_mem_cons.mpr ⟨prop_summary 9 0 rfl rfl,
      List.forall_mem_cons.mpr ⟨prop_summary 14 0 rfl rfl,
      List.forall_mem_cons.mpr ⟨prop_summary 6 1 rfl rfl, List.forall_mem_nil _⟩⟩⟩⟩⟩⟩⟩
  intro key v w hv hw
  obtain ⟨f, hf, rfl, rfl⟩ := placed_of_prop hv
  exact Option.some.inj ((hfields f hf).symm.trans hw)

end Fields

/-! ## In a state -/

section State

variable {collate : Bytes → Bytes → Bool} {db : DB} {p : Publisher} {list detail : Json} {recent : Option (Json × Json)}

/-- The identifiers of the publishers are a key. -/
def Catalog.PublisherKey (c : Catalog) : Prop := (c.publishers.map fun p => Utf8.text p.publisherID).Nodup

/-- The entry of a publisher is the row of the publisher. -/
theorem entry_eq (hkey : db.catalog.PublisherKey) (hp : p ∈ db.catalog.publishers)
    (hlist : handleListPublishers collate db = some list) {entry : Json} (h : IsEntry list p.publisherID entry) :
    entry = marshal (db.reported p).fields := by
  obtain ⟨rows, hrows, rfl⟩ := Option.map_eq_some_iff.mp hlist
  obtain ⟨entries, hentries, hmem, hid⟩ := h
  rw [Json.prop_ofProps_self, Option.some.injEq, Json.arr.injEq] at hentries
  subst hentries
  obtain ⟨row, hrow, rfl⟩ := List.mem_map.mp hmem
  obtain ⟨q, hq, rfl⟩ := (mem_listPublishers hrows).mp hrow
  rw [prop_entry_publisherID] at hid
  have hsame : Utf8.text q.publisherID = Utf8.text p.publisherID := Json.str.inj (Option.some.inj hid)
  rw [List.inj_on_of_nodup_map hkey hq hp hsame]

/-- There is an entry for every publisher. -/
theorem isEntry_reported (hp : p ∈ db.catalog.publishers) (hlist : handleListPublishers collate db = some list) :
    IsEntry list p.publisherID (marshal (db.reported p).fields) := by
  obtain ⟨rows, hrows, rfl⟩ := Option.map_eq_some_iff.mp hlist
  refine ⟨_, Json.prop_ofProps_self _ _ _, List.mem_map_of_mem ?_, prop_entry_publisherID⟩
  exact (mem_listPublishers hrows).mpr ⟨p, hp, rfl⟩

/-- The summary of a publisher has the values of its entry, and no failures. -/
theorem summary_eq (hkey : db.catalog.PublisherKey) (hp : p ∈ db.catalog.publishers)
    (hdetail : handlePublisherDetail db p.publisherID recent = some detail) :
    ∃ s : Reports.PublisherSummary, detail.prop "summary" = some (marshal s.fields) ∧
      s.entry = { db.reported p with failedCount := 0 } := by
  obtain ⟨s, hs, hdetail⟩ := Option.bind_eq_some_iff.mp hdetail
  obtain ⟨⟨settlements, rejections⟩, -, hdetail⟩ := Option.bind_eq_some_iff.mp hdetail
  obtain rfl := Option.some.inj hdetail
  refine ⟨s, ?_, ?_⟩
  · rw [Json.prop_ofProps_of_ne (by decide), Json.prop_ofProps_of_ne (by decide), Json.prop_ofProps_self]
  · obtain ⟨q, hq, hid, rfl⟩ := publisherSummary_eq_some hs
    obtain rfl := List.inj_on_of_nodup_map hkey hq hp (congrArg Utf8.text hid)
    rfl

theorem pagesAgree_of (hkey : db.catalog.PublisherKey) (hp : p ∈ db.catalog.publishers)
    (h : db.failedCount p.publisherID = 0) : PagesAgree collate db p := by
  intro list detail entry summary recent hlist hdetail hentry hsummary
  obtain ⟨s, hs, hrow⟩ := summary_eq hkey hp hdetail
  obtain rfl := Option.some.inj (hs.symm.trans hsummary)
  have hreported : db.reported p = s.entry := by
    rw [hrow, ← h]
    rfl
  rw [entry_eq hkey hp hlist hentry, hreported]
  exact agreeOn_entry s

/-- **Two pages that are answered agree exactly if no settlement of the publisher failed.** -/
theorem pages_agree_iff (hkey : db.catalog.PublisherKey) (hp : p ∈ db.catalog.publishers)
    (hlist : handleListPublishers collate db = some list)
    (hdetail : handlePublisherDetail db p.publisherID recent = some detail) :
    PagesAgree collate db p ↔ db.failedCount p.publisherID = 0 := by
  refine ⟨fun h => ?_, pagesAgree_of hkey hp⟩
  obtain ⟨s, hs, hrow⟩ := summary_eq hkey hp hdetail
  have hagree := h _ _ _ _ _ hlist hdetail (isEntry_reported hp hlist) hs
  have hsame := hagree _ _ _ prop_entry_failedCount prop_failedCount
  have hcount : ((db.failedCount p.publisherID : ℕ) : ℤ) = s.failedCount :=
    Digits.intChars_injective (Json.num.inj hsame)
  have hzero : s.failedCount = 0 := congrArg Reports.Publisher.failedCount hrow
  omega

end State

/-! ## Along a run -/

section Runs

variable {d : Driver} {collate : Bytes → Bytes → Bool} {db t : DB} {a : StoreAction} {as : List StoreAction}
  {catalog : Catalog}

def NoneFailed (db : DB) : Prop := ∀ r ∈ db.settlements, r.status ≠ .failed

theorem failedCount_eq_zero {publisherID : Bytes} : db.failedCount publisherID = 0 ↔
    ∀ r ∈ db.settlements, r.publisherID = publisherID → r.status ≠ .failed := by
  rw [DB.failedCount, List.length_eq_zero_iff, DB.settledBy, DB.inStatus, group, List.filter_filter,
    List.filter_eq_nil_iff]
  simp only [Bool.and_eq_true, decide_eq_true_eq, not_and, ne_eq]

theorem noneFailed_update {id : Bytes} {f : SettlementRow → SettlementRow} (h : NoneFailed db)
    (hf : ∀ r ∈ db.settlements, pendingAt id r = true → (f r).status ≠ .failed) :
    NoneFailed { db with settlements := Table.update (pendingAt id) f db.settlements } := by
  intro r hr
  obtain ⟨q, hq, rfl⟩ := Table.mem_update.mp hr
  split_ifs with hp
  · exact hf q hq hp
  · exact h q hq

/-- **What a call can do.** -/
theorem storeStep_cases (hs : storeStep d db a = some t) :
    t = db ∨ (∃ p, t = db.claim p) ∨ (∃ p txHash confirmedAt, t = db.confirm p txHash confirmedAt) ∨
      (∃ id fate, a = .fail id fate ∧ (∀ why, fate ≠ .lost 1 why) ∧ t = db.fail id) ∨
        ∃ rejected, t = { db with rejected } := by
  cases a with
  | begin p fate =>
    obtain rfl := Option.some.inj hs
    rcases Store.begin_cases (Prod.eta (Store.begin d db p fate)).symm with ⟨hdb, -⟩ | ⟨-, hdb⟩
    · exact Or.inl hdb
    · exact Or.inr (Or.inl ⟨p, hdb⟩)
  | confirm p txHash confirmedAt fate =>
    obtain rfl := Option.some.inj hs
    rcases Store.confirm_cases (Prod.eta (Store.confirm d db p txHash confirmedAt fate)).symm with ⟨hdb, -⟩ | ⟨-, hdb⟩
    · exact Or.inl hdb
    · exact Or.inr (Or.inr (Or.inl ⟨p, txHash, confirmedAt, hdb⟩))
  | fail id fate =>
    obtain rfl := Option.some.inj hs
    by_cases hlost : ∃ why, fate = .lost 1 why
    · obtain ⟨why, rfl⟩ := hlost
      exact Or.inl rfl
    · rcases Store.fail_cases (Prod.eta (Store.fail d db id fate)).symm with ⟨hdb, -⟩ | hdb
      · exact Or.inl hdb
      · exact Or.inr (Or.inr (Or.inr (Or.inl ⟨id, fate, rfl, fun why hfate => hlost ⟨why, hfate⟩, hdb⟩)))
  | recordRejection r fate =>
    obtain rfl := Option.some.inj hs
    rcases Store.recordRejection_cases (Prod.eta (Store.recordRejection d db r fate)).symm with ⟨hdb, -⟩ | hdb
    · exact Or.inl hdb
    · exact Or.inr (Or.inr (Or.inr (Or.inr ⟨_, hdb⟩)))

theorem catalog_step (hs : storeStep d db a = some t) : t.catalog = db.catalog := by
  rcases storeStep_cases hs with rfl | ⟨p, rfl⟩ | ⟨p, txHash, confirmedAt, rfl⟩ | ⟨id, fate, -, -, rfl⟩ | ⟨_, rfl⟩
  all_goals rfl

/-- **Only a call that marks a settlement failed makes a failed one.** -/
theorem noneFailed_step (h : NoneFailed db) (ha : ¬MarksFailed db a) (hs : storeStep d db a = some t) :
    NoneFailed t := by
  rcases storeStep_cases hs with rfl | ⟨p, rfl⟩ | ⟨p, txHash, confirmedAt, rfl⟩ | ⟨id, fate, hfail, hfate, rfl⟩ |
    ⟨_, rfl⟩
  · exact h
  · intro r hr
    rcases List.mem_append.mp hr with hr | hr
    · exact h r hr
    · rw [List.mem_singleton.mp hr]
      nofun
  · exact noneFailed_update h fun _ _ _ => nofun
  · exact noneFailed_update h fun r hr hp => absurd ⟨id, fate, hfail, hfate, r, hr, hp⟩ ha
  · exact h

/-- **The two pages of every publisher agree as long as no settlement is marked failed**; from then on those of its
publisher do not, if both are answered. -/
theorem pages_agree (d : Driver) (collate : Bytes → Bytes → Bool) (hkey : catalog.PublisherKey)
    (h : Runs.run (storeStep d) (DB.empty catalog) as = some db) :
    (Runs.Each (storeStep d) (fun db a => ¬MarksFailed db a) (DB.empty catalog) as →
      Runs.Always (storeStep d) (fun db => ∀ p ∈ catalog.publishers, PagesAgree collate db p) (DB.empty catalog) as) ∧
    ∀ p ∈ catalog.publishers, ∀ list detail recent, handleListPublishers collate db = some list →
      handlePublisherDetail db p.publisherID recent = some detail →
        (PagesAgree collate db p ↔ ∀ r ∈ db.settlements, r.publisherID = p.publisherID → r.status ≠ .failed) := by
  have hcatalog : ∀ {as db}, Runs.run (storeStep d) (DB.empty catalog) as = some db → db.catalog = catalog :=
    fun hrun => Runs.run_invariant (P := fun db : DB => db.catalog = catalog)
      (fun _ _ _ hc hs => (catalog_step hs).trans hc) rfl hrun
  constructor
  · intro heach bs u hbs hu p hp
    have hempty : NoneFailed (DB.empty catalog) := fun r hr => by cases hr
    have hnone : NoneFailed u :=
      Runs.always_of_each (fun _ _ _ hn ha hs => noneFailed_step hn ha hs) hempty heach bs u hbs hu
    have hc := hcatalog hu
    exact pagesAgree_of (hc ▸ hkey) (hc ▸ hp) (failedCount_eq_zero.mpr fun r hr _ => hnone r hr)
  · intro p hp list detail recent hlist hdetail
    have hc := hcatalog h
    rw [pages_agree_iff (hc ▸ hkey) (hc ▸ hp) hlist hdetail, failedCount_eq_zero]

end Runs

/-! ## A settlement that fails -/

namespace Sample

def failing : List StoreAction := [.begin pending .done, .fail settlementID .done]

def failedDB : DB := ((DB.empty catalog).claim pending).fail settlementID

theorem run_failing : Runs.run (storeStep service.driver) (DB.empty catalog) failing = some failedDB := by
  have hbegin : storeStep service.driver (DB.empty catalog) (.begin pending .done) =
      some ((DB.empty catalog).claim pending) :=
    congrArg (fun out : DB × Option Err => some out.1) (Store.begin_of_admits service.driver claimable.admits)
  have hfail : storeStep service.driver ((DB.empty catalog).claim pending) (.fail settlementID .done) = some failedDB :=
    congrArg (fun out : DB × Option Err => some out.1) (Store.fail_of_textOk service.driver _ (by decide))
  exact (Runs.run_cons_of hbegin _).trans (Runs.run_cons_of hfail _)

theorem publisherKey_catalog : catalog.PublisherKey := List.nodup_singleton _

/-- The order of the bytes. -/
def bytewise (s t : Bytes) : Bool := decide (s ≤ t)

theorem pages_agree_sample :
    (Runs.Each (storeStep service.driver) (fun db a => ¬MarksFailed db a) (DB.empty catalog) failing →
      Runs.Always (storeStep service.driver) (fun db => ∀ p ∈ catalog.publishers, PagesAgree bytewise db p)
        (DB.empty catalog) failing) ∧
    ∀ p ∈ catalog.publishers, ∀ list detail recent, handleListPublishers bytewise failedDB = some list →
      handlePublisherDetail failedDB p.publisherID recent = some detail →
        (PagesAgree bytewise failedDB p ↔
          ∀ r ∈ failedDB.settlements, r.publisherID = p.publisherID → r.status ≠ .failed) :=
  pages_agree service.driver bytewise publisherKey_catalog run_failing

/-- **The list counts a failure that the summary does not.** -/
theorem pages_disagree : Runs.run (storeStep service.driver) (DB.empty catalog) failing = some failedDB ∧
    ∃ p ∈ failedDB.catalog.publishers, ¬PagesAgree bytewise failedDB p := by
  refine ⟨run_failing, _, List.mem_singleton_self _, fun hagree => ?_⟩
  obtain ⟨list, hlist⟩ : ∃ list, handleListPublishers bytewise failedDB = some list := ⟨_, rfl⟩
  obtain ⟨detail, hdetail⟩ : ∃ detail, handlePublisherDetail failedDB (Utf8.str "pub_1") (some (.arr [], .arr [])) =
      some detail := ⟨_, rfl⟩
  have hnone := failedCount_eq_zero.mp
    ((pages_agree_iff publisherKey_catalog (List.mem_singleton_self _) hlist hdetail).mp hagree)
  exact hnone pending.row.fail (List.mem_singleton_self _) rfl rfl

end Sample

end Settlement
