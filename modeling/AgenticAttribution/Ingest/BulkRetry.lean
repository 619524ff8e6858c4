import AgenticAttribution.Ingest.Embedding

/-!
# Ingest.BulkRetry — which bulk failures are retried

`bulkAttempt` scans the items of a response and returns at the first that failed, so a rejection under pressure in
front of a document that can never go in hides it, and the whole batch is sent again.  `bulkIndex_cases` says what
the attempts of one `BulkIndex` come to; `bulk_retries_iff` says when it retries only what retrying can fix.
-/

namespace Ingest

open Fallible

/-! ## One response -/

section Response

/-- The item was not taken. -/
def BulkItem.failed (item : BulkItem) : Bool := 300 ≤ item.status

/-- The item was not taken, and not for the pressure that the cluster is under. -/
def BulkItem.permanent (item : BulkItem) : Bool := 300 ≤ item.status && item.status ≠ 429

/-- The error for an item that failed for good. -/
def permanentError (i : ℕ) (item : BulkItem) : Err :=
  .plain (Utf8.str "bulk item " ++ number i ++ Utf8.str " failed with " ++ number item.status ++ Utf8.str ": " ++
    truncate item.error 256)

theorem permanent_iff {item : BulkItem} : item.permanent = true ↔ item.failed = true ∧ item.status ≠ 429 := by
  simp [BulkItem.permanent, BulkItem.failed]

/-- **What the scan finds**: the first item that failed, whatever comes behind it. -/
theorem itemFailure_of_first {items : List BulkItem} {item : BulkItem} (h : items.find? BulkItem.failed = some item)
    (n : ℕ) : (item.status = 429 ∧ (itemFailure n items).is .bulkRejected = true) ∨
      (item.permanent = true ∧ ∃ i, items[i]? = some item ∧ itemFailure n items = permanentError (n + i) item) := by
  induction items generalizing n with
  | nil => cases h
  | cons first items ih =>
    by_cases hfirst : first.failed = true
    · rw [List.find?_cons_of_pos hfirst, Option.some.injEq] at h
      obtain rfl := h
      by_cases hpressure : first.status = 429
      · rw [itemFailure, if_pos hpressure]
        exact Or.inl ⟨hpressure, rfl⟩
      · have hstatus : first.status ≥ 300 := by simpa [BulkItem.failed] using hfirst
        rw [itemFailure, if_neg hpressure, if_pos hstatus]
        exact Or.inr ⟨permanent_iff.mpr ⟨hfirst, hpressure⟩, 0, rfl, rfl⟩
    · rw [List.find?_cons_of_neg hfirst] at h
      have hstatus : ¬first.status ≥ 300 := by simpa [BulkItem.failed] using hfirst
      have hpressure : first.status ≠ 429 := by
        intro h429
        rw [h429] at hstatus
        exact hstatus (by decide)
      rw [itemFailure, if_neg hpressure, if_neg hstatus]
      rcases ih h (n + 1) with hrejected | ⟨hperm, i, hi, hfailure⟩
      · exact Or.inl hrejected
      · refine Or.inr ⟨hperm, i + 1, hi, ?_⟩
        rw [hfailure, Nat.add_assoc, Nat.add_comm 1 i]

end Response

/-! ## One attempt -/

section Attempt

/-- The items of the response, if there is one. -/
def BulkAttempt.items (t : BulkAttempt) : List BulkItem :=
  match t.response with
  | .ok r => r.items
  | .error _ => []

/-- A document of the batch can never go in. -/
def BulkAttempt.Permanent (t : BulkAttempt) : Prop := ∃ item ∈ t.items, item.permanent = true

/-- The attempt failed in a way that is worth another one. -/
def BulkAttempt.Rejected (t : BulkAttempt) : Prop :=
  ∃ err, bulkOutcome t.response = .error err ∧ err.is .bulkRejected = true

/-- A document that can never go in shows: the response reports errors, and no item that was rejected under pressure
stands in front of the first such document. -/
def BulkAttempt.Shows (t : BulkAttempt) : Prop :=
  t.Permanent → (∃ r, t.response = .ok r ∧ r.errors = true) ∧
    ∀ item, t.items.find? BulkItem.failed = some item → item.status ≠ 429

/-- The attempt fails with the error of a document that can never go in. -/
def BulkAttempt.FailsFor (t : BulkAttempt) (r : Except Err Unit) : Prop :=
  ∃ i item, t.items[i]? = some item ∧ item.permanent = true ∧ r = .error (permanentError i item)

variable {t : BulkAttempt}

theorem first_of_permanent (h : t.Permanent) : ∃ item, t.items.find? BulkItem.failed = some item := by
  obtain ⟨item, hitem, hperm⟩ := h
  exact Option.isSome_iff_exists.mp (List.find?_isSome.mpr ⟨item, hitem, (permanent_iff.mp hperm).1⟩)

/-- A document that shows is what the attempt fails for. -/
theorem failsFor_of_shows (hshows : t.Shows) (h : t.Permanent) : t.FailsFor (bulkOutcome t.response) := by
  obtain ⟨⟨r, hr, herrors⟩, hfirst⟩ := hshows h
  obtain ⟨item, hitem⟩ := first_of_permanent h
  have hitems : t.items = r.items := by simp only [BulkAttempt.items, hr]
  rw [hitems] at hitem hfirst
  rcases itemFailure_of_first hitem 0 with ⟨h429, -⟩ | ⟨hperm, i, hi, hfailure⟩
  · exact absurd h429 (hfirst item hitem)
  · refine ⟨i, item, by rw [hitems, hi], hperm, ?_⟩
    simp only [bulkOutcome, hr, herrors, Bool.not_true, Bool.false_eq_true, if_false, hfailure, Nat.zero_add]

theorem BulkAttempt.FailsFor.not_rejected (h : t.FailsFor (bulkOutcome t.response)) : ¬t.Rejected := by
  obtain ⟨i, item, -, -, hout⟩ := h
  rintro ⟨err, herr, his⟩
  obtain rfl := Except.error.inj (hout.symm.trans herr)
  cases his

/-- An attempt that fails for a document that can never go in shows it. -/
theorem shows_of_failsFor (h : t.FailsFor (bulkOutcome t.response)) : t.Shows := by
  intro hperm
  obtain ⟨i, item, hi, -, hout⟩ := h
  have hr : ∃ r, t.response = .ok r := by
    cases hresponse : t.response with
    | ok r => exact ⟨r, rfl⟩
    | error err =>
      simp only [BulkAttempt.items, hresponse] at hi
      cases hi
  obtain ⟨r, hr⟩ := hr
  have hitems : t.items = r.items := by simp only [BulkAttempt.items, hr]
  rw [hr, bulkOutcome] at hout
  split_ifs at hout with herrors
  have hfailure := Except.error.inj hout
  refine ⟨⟨r, hr, by simpa using herrors⟩, ?_⟩
  intro first hfirst h429
  rw [hitems] at hfirst
  rcases itemFailure_of_first hfirst 0 with ⟨-, his⟩ | ⟨hperm, -⟩
  · rw [hfailure] at his
    cases his
  · exact (permanent_iff.mp hperm).2 h429

end Attempt

/-! ## One batch -/

section Batch

variable {F : Type} {cl : Cluster F} {index : Bytes} {docs : List (ProductDocument F)} {body : List BulkLine}
  {w w' s u : Session} {tried : List BulkAttempt} {r : Except Err Unit} {k : ℕ}

/-- What `retryUnderPressure` fails with, unless there is to be another attempt. -/
def stopRetry (cl : Cluster F) (err : Err) (w : Session) : Option Err :=
  if !err.is .bulkRejected then some err else cl.cancelled w.requests

/-- What `ctx.Err()` returns. -/
def contextErrors : List Err := [.plain (Utf8.str "context canceled"), .plain (Utf8.str "context deadline exceeded")]

theorem stopRetry_eq_none {err : Err} (h : stopRetry cl err w = none) : err.is .bulkRejected = true := by
  unfold stopRetry at h
  split_ifs at h with his
  simpa using his

theorem attempts_of_again (h : Retry.Again (stopRetry cl) (bulkAttempt cl body) k s u) :
    ∃ before, u.attempts = s.attempts ++ before ∧ before.length = k ∧ ∀ t ∈ before, t.Rejected := by
  induction h with
  | none s => exact ⟨[], (List.append_nil _).symm, rfl, fun _ ht => by cases ht⟩
  | @one k e s t u hattempt hagain _ ih =>
    obtain ⟨before, hlog, rfl, hrejected⟩ := ih
    obtain ⟨houtcome, rfl⟩ := Prod.mk.inj hattempt
    refine ⟨⟨body, bulkResponse cl body s.requests⟩ :: before, ?_, rfl, ?_⟩
    · rw [hlog, List.append_assoc]
      rfl
    · intro t ht
      rcases List.mem_cons.mp ht with rfl | ht
      · exact ⟨e, houtcome, stopRetry_eq_none hagain⟩
      · exact hrejected t ht

/-- How `BulkIndex` ends: its last attempt decides, unless that was rejected under pressure and the run was called
off while it waited. -/
def EndsWith (cl : Cluster F) (t : BulkAttempt) (r : Except Err Unit) : Prop :=
  bulkOutcome t.response = r ∨ t.Rejected ∧ ∃ n e, cl.cancelled n = some e ∧ r = .error e

/-- **The attempts of one `BulkIndex`**: all but the last were rejected under pressure, and the last one decides. -/
theorem bulkIndex_cases (hne : docs ≠ []) (h : BulkIndex cl index docs w = (r, w')) :
    (w' = w ∧ ∃ err, r = .error err) ∨ ∃ before t, w'.attempts = w.attempts ++ (before ++ [t]) ∧
      before.length < bulkMaxAttempts ∧ (∀ b ∈ before, b.Rejected) ∧ EndsWith cl t r := by
  rw [BulkIndex, if_neg hne] at h
  split at h
  · rename_i err _
    obtain ⟨rfl, rfl⟩ := Prod.mk.inj h
    exact Or.inl ⟨rfl, err, rfl⟩
  · rename_i body _
    have hrun : Retry.run (stopRetry cl) (bulkAttempt cl body) (bulkMaxAttempts - 1) w = (r, w') := h
    obtain ⟨k, hk, u, hagain, hlast⟩ := Retry.run_cases hrun
    obtain ⟨before, hlog, rfl, hrejected⟩ := attempts_of_again hagain
    refine Or.inr ⟨before, ⟨body, bulkResponse cl body u.requests⟩, ?_, Nat.lt_succ_of_le hk, hrejected, ?_⟩
    · have hw' : w' = (bulkAttempt cl body u).2 := by
        rcases hlast with hlast | ⟨e, e', hlast, -, -⟩ <;> rw [hlast]
      rw [hw', bulkAttempt, hlog, List.append_assoc]
    · rcases hlast with hlast | ⟨e, e', hlast, hstop, rfl⟩
      · exact Or.inl (Prod.mk.inj hlast).1
      · have houtcome : bulkOutcome (bulkResponse cl body u.requests) = .error e := (Prod.mk.inj hlast).1
        unfold stopRetry at hstop
        split_ifs at hstop with his
        · rw [← Option.some.inj hstop]
          exact Or.inl houtcome
        · exact Or.inr ⟨⟨e, houtcome, by simpa using his⟩, w'.requests, e', hstop, rfl⟩

/-- A document that can never go in ends the run at once, with its error. -/
def StopsAtPermanent (tried : List BulkAttempt) (r : Except Err Unit) : Prop :=
  ∀ before t after, tried = before ++ t :: after → t.Permanent → after = [] ∧ t.FailsFor r

/-- The error for a document is not one of the context's. -/
theorem permanentError_not_mem (i : ℕ) (item : BulkItem) : permanentError i item ∉ contextErrors := by
  intro h
  have hhead : (permanentError i item).text.head? = some 98 := rfl
  simp only [contextErrors, List.mem_cons, List.not_mem_nil, or_false] at h
  rcases h with h | h
  · rw [h] at hhead
    cases hhead
  · rw [h] at hhead
    cases hhead

theorem stopsAtPermanent_iff {before : List BulkAttempt} {t : BulkAttempt}
    (hcontext : ∀ n err, cl.cancelled n = some err → err ∈ contextErrors) (hbefore : ∀ b ∈ before, b.Rejected)
    (hends : EndsWith cl t r) :
    StopsAtPermanent (before ++ [t]) r ↔ ∀ b ∈ before ++ [t], b.Shows := by
  constructor
  · intro hstops b hb hperm
    obtain ⟨front, after, hsplit⟩ := List.append_of_mem hb
    obtain ⟨rfl, hfails⟩ := hstops front b after hsplit hperm
    obtain ⟨-, hlast⟩ := List.append_inj' hsplit rfl
    obtain rfl := (List.cons.inj hlast).1
    rcases hends with hout | ⟨-, n, e, hcancelled, hr⟩
    · rw [← hout] at hfails
      exact shows_of_failsFor hfails hperm
    · obtain ⟨i, item, -, -, hr'⟩ := hfails
      obtain rfl := Except.error.inj (hr.symm.trans hr')
      exact absurd (hcontext n _ hcancelled) (permanentError_not_mem i item)
  · intro hshows front b after hsplit hperm
    have hb : b ∈ before ++ [t] := by
      rw [hsplit]
      exact List.mem_append_right _ List.mem_cons_self
    have hfails := failsFor_of_shows (hshows b hb) hperm
    rcases List.eq_nil_or_concat after with rfl | ⟨after', x, rfl⟩
    · obtain ⟨-, hlast⟩ := List.append_inj' hsplit rfl
      obtain rfl := (List.cons.inj hlast).1
      refine ⟨rfl, ?_⟩
      rcases hends with hout | ⟨hrejected, -⟩
      · rw [← hout]
        exact hfails
      · exact absurd hrejected hfails.not_rejected
    · -- only the last attempt was not rejected
      rw [List.concat_eq_append, ← List.cons_append, ← List.append_assoc] at hsplit
      obtain ⟨hfront, -⟩ := List.append_inj' hsplit rfl
      have hb' : b ∈ before := hfront ▸ List.mem_append_right _ List.mem_cons_self
      exact absurd (hbefore b hb') hfails.not_rejected

/-- **When bulk indexing retries only what retrying can fix.**  Of a batch there are at most eight attempts, and it
succeeds only if the last one was reported free of errors.  A document that can never go in ends it at once exactly
if it shows in every response: if no rejection under pressure stands in front of it. -/
theorem bulk_retries_iff (cl : Cluster F) (index : Bytes) {docs : List (ProductDocument F)} {w w' : Session}
    {r : Except Err Unit} (hcontext : ∀ n err, cl.cancelled n = some err → err ∈ contextErrors) (hne : docs ≠ [])
    (h : BulkIndex cl index docs w = (r, w')) :
    ∃ tried, w'.attempts = w.attempts ++ tried ∧ tried.length ≤ bulkMaxAttempts ∧
      (r = .ok () → ∃ t, tried.getLast? = some t ∧ t.Free) ∧
      (StopsAtPermanent tried r ↔ ∀ t ∈ tried, t.Shows) := by
  rcases bulkIndex_cases hne h with ⟨rfl, err, rfl⟩ | ⟨before, t, hlog, hlen, hbefore, hends⟩
  · refine ⟨[], (List.append_nil _).symm, Nat.zero_le _, fun hr => (by cases hr), ?_⟩
    refine iff_of_true ?_ fun _ ht => (by cases ht)
    intro front b after hsplit _
    simp at hsplit
  · refine ⟨before ++ [t], hlog, ?_, ?_, stopsAtPermanent_iff hcontext hbefore hends⟩
    · rw [List.length_append]
      exact hlen
    · rintro rfl
      refine ⟨t, List.getLast?_concat, ?_⟩
      rcases hends with hout | ⟨-, n, e, -, hr⟩
      · exact free_of_outcome hout
      · cases hr

end Batch

theorem bulk_retries_iff_sample : ∃ tried, Bulk.session.attempts = tried ∧ tried.length ≤ bulkMaxAttempts ∧
    (StopsAtPermanent tried (.ok ()) ↔ ∀ t ∈ tried, t.Shows) := by
  obtain ⟨tried, hlog, hlen, -, hiff⟩ := bulk_retries_iff Bulk.cluster Bulk.index (fun _ _ h => (by cases h))
    (List.cons_ne_nil _ _) Bulk.bulkIndex_sample
  exact ⟨tried, hlog, hlen, hiff⟩

/-! ## A rejection in front of a malformed document -/

namespace Mixed

/-- The first item is rejected under pressure once, the second for good. -/
def cluster : Cluster Bool :=
  { Bulk.cluster with
    bulk := fun n _ => .ok (if n = 0 then [1] else [])
    unmarshalBulk := fun raw =>
      .ok (if raw = [] then ⟨true, [⟨201, []⟩, ⟨400, []⟩]⟩ else ⟨true, [⟨429, []⟩, ⟨400, []⟩]⟩) }

def docs : List (ProductDocument Bool) := [Bulk.document, Bulk.document]

def body : List BulkLine := [Bulk.line, Bulk.line]

def first : BulkAttempt := ⟨body, .ok ⟨true, [⟨429, []⟩, ⟨400, []⟩]⟩⟩

def second : BulkAttempt := ⟨body, .ok ⟨true, [⟨201, []⟩, ⟨400, []⟩]⟩⟩

theorem bulkIndex_docs : BulkIndex cluster Bulk.index docs ⟨0, []⟩
    = (.error (permanentError 1 ⟨400, []⟩), ⟨2, [first, second]⟩) := by
  have hfirst : bulkAttempt cluster body ⟨0, []⟩
      = (.error (errBulkRejected.annotate (Utf8.str ": item 0: ")), ⟨1, [first]⟩) := rfl
  have hsecond : bulkAttempt cluster body ⟨1, [first]⟩
      = (.error (permanentError 1 ⟨400, []⟩), ⟨2, [first, second]⟩) := rfl
  have hne : docs ≠ [] := List.cons_ne_nil _ _
  rw [BulkIndex, if_neg hne]
  show retryUnderPressure cluster (bulkAttempt cluster body) ⟨0, []⟩ = _
  refine (Retry.run_of_again hfirst rfl).trans ?_
  simp only [Retry.run, hsecond]
  rfl

end Mixed

/-- A document that can never go in, behind one that was rejected under pressure: the batch is sent again. -/
theorem permanent_retried : ∃ r w', BulkIndex Mixed.cluster Bulk.index Mixed.docs ⟨0, []⟩ = (r, w') ∧
    w'.attempts = [Mixed.first, Mixed.second] ∧ Mixed.first.Permanent ∧ ¬StopsAtPermanent w'.attempts r := by
  have hperm : Mixed.first.Permanent := ⟨⟨400, []⟩, List.mem_cons_of_mem _ List.mem_cons_self, rfl⟩
  refine ⟨_, _, Mixed.bulkIndex_docs, rfl, hperm, ?_⟩
  intro hstops
  cases (hstops [] Mixed.first [Mixed.second] rfl hperm).1

end Ingest
