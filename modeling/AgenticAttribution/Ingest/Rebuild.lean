import AgenticAttribution.Ingest.Pipeline

/-!
# Ingest.Rebuild — the alias through every sequence of rebuilds

Once a run has succeeded, the alias resolves to one index, and that index has every document of a complete ingest
whose count matched.  The invariant says what a run has achieved by the request it is at (`Achieved`).  Two things
break it: a `DELETE` that covers the index in use, and an error on reading the alias that is taken for its absence.
`always_served_iff` says that there is nothing else.
-/

namespace Ingest

open Fallible

variable {nm : Naming} {F : Type} {model : Bytes → List F}

/-! ## The indices -/

section Indices

variable {indices : List (Index nm F)} {i j : Index nm F} {name : IndexName nm} {docs : List (ProductDocument F)}

/-- The names tell the indices apart. -/
def Distinct (indices : List (Index nm F)) : Prop := Table.Keyed Index.name indices

/-- The index is new: it is there, and the alias does not have it. -/
structure Fresh (indices : List (Index nm F)) (name : IndexName nm) (i : Index nm F) : Prop where
  mem : i ∈ indices
  name : i.name = name
  unaliased : i.aliased = false

theorem mem_resolved : i ∈ resolved indices ↔ i ∈ indices ∧ i.aliased = true := List.mem_filter

theorem Distinct.delete (h : Distinct indices) (path : Bytes) : Distinct (delete path indices) :=
  h.sublist (List.Sublist.map _ List.filter_sublist)

theorem Distinct.put (h : Distinct indices) (hnew : name ∉ indices.map (·.name)) : Distinct (put name indices) :=
  Table.Keyed.append h hnew

theorem Distinct.store (h : Distinct indices) : Distinct (store name docs indices) :=
  Table.Keyed.update h fun _ => rfl

theorem Distinct.repoint (h : Distinct indices) (old : List (IndexName nm)) : Distinct (repoint name old indices) := by
  have hnames : (Ingest.repoint name old indices).map (·.name) = indices.map (·.name) := by
    rw [Ingest.repoint, List.map_map]
    rfl
  unfold Distinct Table.Keyed
  rw [hnames]
  exact h

theorem Fresh.eq_of_name (hd : Distinct indices) (hf : Fresh indices name i) (hj : j ∈ indices)
    (hname : j.name = name) :
    j = i :=
  hd.eq_of_key_eq hj hf.mem (hname.trans hf.name.symm)

theorem resolved_delete (path : Bytes) : resolved (delete path indices)
    = (resolved indices).filter fun i => !nm.covers path i.name.text := by
  rw [resolved, delete, resolved, List.filter_filter, List.filter_filter]
  exact List.filter_congr fun i _ => Bool.and_comm _ _

theorem resolved_put : resolved (put name indices) = resolved indices := by
  rw [resolved, put, List.filter_append]
  exact List.append_nil _

/-- What is stored in the new index does not show behind the alias. -/
theorem resolved_store (hd : Distinct indices) (hf : Fresh indices name i) :
    resolved (store name docs indices) = resolved indices := by
  have hflag : ((fun i : Index nm F => i.aliased) ∘ fun i : Index nm F =>
      if decide (i.name = name) = true then { i with received := i.received ++ docs } else i) = fun i => i.aliased := by
    funext j
    rw [Function.comp_apply]
    split_ifs <;> rfl
  rw [resolved, store, Table.update, List.filter_map, hflag, resolved]
  refine (List.map_congr_left fun j hj => ?_).trans (List.map_id _)
  obtain ⟨hmem, haliased⟩ := List.mem_filter.mp hj
  refine if_neg fun hname => ?_
  rw [hf.eq_of_name hd hmem (of_decide_eq_true hname), hf.unaliased] at haliased
  cases haliased

theorem resolved_repoint (hd : Distinct indices) (hf : Fresh indices name i) {old : List (IndexName nm)}
    (hold : ∀ j ∈ indices, j.aliased = true → j.name ∈ old) :
    resolved (repoint name old indices) = [{ i with aliased := true }] := by
  rw [resolved, repoint, List.filter_map, hd.filter_eq_singleton hf.mem, List.map_singleton, if_pos hf.name]
  intro j hj
  rw [Function.comp_apply, hf.name]
  dsimp only
  by_cases hname : j.name = name
  · rw [if_pos hname]
    exact iff_of_true rfl hname
  · rw [if_neg hname]
    refine iff_of_false (fun h => ?_) hname
    split_ifs at h with hin
    exact hin (hold j hj h)

theorem Fresh.store (hf : Fresh indices name i) (docs : List (ProductDocument F)) :
    Fresh (store name docs indices) name { i with received := i.received ++ docs } :=
  ⟨Table.mem_update_of hf.mem (decide_eq_true hf.name), hf.name, hf.unaliased⟩

theorem fresh_put : Fresh (put name indices) name ⟨name, [], false⟩ :=
  ⟨List.mem_append_right _ (List.mem_singleton_self _), rfl, rfl⟩

end Indices

/-! ## The feed -/

section Feed

variable {feed : Feed F}

/-- The documents of the batches. -/
def Feed.documents (feed : Feed F) : List (ProductDocument F) := feed.batches.flatten

/-- The index has received the whole ingest: every document of the catalog's rows, each with its vector, and as many
as Postgres counted. -/
structure Complete (model : Bytes → List F) (feed : Feed F) (i : Index nm F) : Prop where
  streamed : assemble feed.indexedAt feed.rows = .ok feed.documents
  received : ∀ d ∈ feed.documents, d.embedded model ∈ i.received
  counted : i.count = feed.expected

/-- What a feed that ends well has streamed: the documents of its rows. -/
theorem Feed.documents_eq (h : feed.err = none) : assemble feed.indexedAt feed.rows = .ok feed.documents := by
  obtain ⟨n, hstream⟩ := feed.streamed h
  obtain ⟨-, batches, hdocs, -, heffects, -⟩ := stream_eq_ok (by decide) hstream
  have hcollect : ∀ (batches done all : List (List (ProductDocument F))),
      batches.foldlM (fun done batch => (.ok (done ++ [batch]) : Except Err _)) done = .ok all →
      all = done ++ batches := by
    intro batches
    induction batches with
    | nil =>
      intro done all h
      rw [foldlM_nil_eq_ok.mp h, List.append_nil]
    | cons batch batches ih =>
      intro done all h
      obtain ⟨t, ht, h⟩ := foldlM_cons_eq_ok.mp h
      rw [ih t all h, ← Except.ok.inj ht, List.append_assoc, List.singleton_append]
  rw [hdocs, Feed.documents, hcollect batches [] _ heffects, List.nil_append]

end Feed

/-! ## What a run has achieved -/

section Invariant

variable {sys t : System nm F} {run : Run nm F}

/-- The alias resolves to one index, which has a complete ingest. -/
def Live (model : Bytes → List F) (sys : System nm F) : Prop :=
  ∃ i feed, resolved sys.indices = [i] ∧ feed ∈ sys.feeds ∧ Complete model feed i

/-- What is asked of a state: if a run has succeeded, the alias is live. -/
def Served (model : Bytes → List F) (sys : System nm F) : Prop := sys.succeeded = true → Live model sys

/-- The new index has the documents, except for those that are still to come. -/
structure Building (model : Bytes → List F) (indices : List (Index nm F)) (feed : Feed F) (name : IndexName nm)
    (coming : List (ProductDocument F)) (i : Index nm F) : Prop where
  fresh : Fresh indices name i
  received : ∀ d ∈ feed.documents, d.embedded model ∈ i.received ∨ d ∈ coming

/-- The new index has all the documents. -/
def Built (model : Bytes → List F) (indices : List (Index nm F)) (feed : Feed F) (name : IndexName nm) : Prop :=
  feed.err = none ∧ ∃ i, Building model indices feed name [] i

/-- The new index has been validated. -/
def Valid (model : Bytes → List F) (indices : List (Index nm F)) (feed : Feed F) (name : IndexName nm) : Prop :=
  ∃ i, Fresh indices name i ∧ Complete model feed i

/-- What a run has achieved when it is about to make a request. -/
def Achieved (model : Bytes → List F) (indices : List (Index nm F)) (feed : Feed F) : Pc nm F → Prop
  | .drop | .create => True
  | .bulk name rest _ => ∃ i, Building model indices feed name rest.flatten i
  | .settings name | .refresh name | .forceMerge name | .count name => Built model indices feed name
  | .readAlias name => Valid model indices feed name
  | .swap name current => Valid model indices feed name ∧ ∀ i ∈ indices, i.aliased = true → i.name ∈ current
  | .retire name rest => name ∉ rest ∧ ∃ i, resolved indices = [i] ∧ i.name = name ∧ Complete model feed i

/-- **The invariant.** -/
structure Inv (model : Bytes → List F) (sys : System nm F) : Prop where
  distinct : Distinct sys.indices
  served : Served model sys
  achieved : ∀ run, sys.run = some run → run.feed ∈ sys.feeds ∧ Achieved model sys.indices run.feed run.pc

theorem inv_init {indices : List (Index nm F)} (h : Distinct indices) : Inv model (System.init indices) where
  distinct := h
  served hs := by cases hs
  achieved run hr := by cases hr

/-! ## The two conditions -/

/-- A step that carries out the first `DELETE` of a run. -/
def Drops (sys : System nm F) (a : Action nm F) (run : Run nm F) : Prop :=
  sys.run = some run ∧ run.pc = .drop ∧ (a = .reply .done ∨ ∃ err, a = .reply (.failed err true))

/-- Once a run has succeeded, no run deletes the index in use to make room for its own. -/
def Spares (sys : System nm F) (a : Action nm F) : Prop :=
  ∀ run, Drops sys a run → sys.succeeded = true →
    ∀ i ∈ resolved sys.indices, nm.covers run.indexName i.name.text = false

/-- An error is taken for a missing alias only if there is none. -/
def ReadsRight (sys : System nm F) (a : Action nm F) : Prop :=
  ∀ run name err took, sys.run = some run → run.pc = .readAlias name → a = .reply (.failed err took) →
    missingAlias err = true → resolved sys.indices = []

/-! ## One step -/

theorem Served.of_resolved (h : Served model sys) {indices : List (Index nm F)}
    (hsame : resolved indices = resolved sys.indices) : Served model { sys with indices } := by
  intro hs
  obtain ⟨i, feed, hi, hfeed, hcomplete⟩ := h hs
  exact ⟨i, feed, hsame.trans hi, hfeed, hcomplete⟩

/-- Behind a request, what has to be said is what holds of the indices and of the next request. -/
theorem inv_goto {indices : List (Index nm F)} {next : Option (Pc nm F)} (hfeed : run.feed ∈ sys.feeds)
    (hd : Distinct indices) (hs : Served model { sys with indices })
    (hnext : ∀ pc, next = some pc → Achieved model indices run.feed pc) :
    Inv model (({ sys with indices } : System nm F).goto run next) where
  distinct := hd
  served := hs
  achieved run' hr := by
    obtain ⟨pc, hpc, rfl⟩ := Option.map_eq_some_iff.mp hr
    exact ⟨hfeed, hnext pc hpc⟩

theorem Inv.stop (h : Inv model sys) (hrun : sys.run = some run) : Inv model (sys.goto run none) :=
  inv_goto (h.achieved run hrun).1 h.distinct h.served fun _ hpc => by cases hpc

theorem Inv.refused (h : Inv model sys) (hrun : sys.run = some run) {r : Reply} (hstep : sys.refused run r = some t) :
    Inv model t := by
  cases r with
  | done => cases hstep
  | failed err took =>
    obtain rfl := Option.some.inj hstep
    exact h.stop hrun

/-- A request any failure of which is fatal. -/
theorem Inv.after (h : Inv model sys) (hrun : sys.run = some run) {effect : List (Index nm F) → List (Index nm F)}
    {next : Option (Pc nm F)} (r : Reply) (hd : Distinct (effect sys.indices))
    (hs : Served model { sys with indices := effect sys.indices })
    (hnext : ∀ pc, next = some pc → Achieved model (effect sys.indices) run.feed pc) :
    Inv model (sys.after run effect next fatal r) := by
  have hfeed := (h.achieved run hrun).1
  cases r with
  | done => exact inv_goto hfeed hd hs hnext
  | failed err took =>
    cases took with
    | false => exact h.stop hrun
    | true => exact inv_goto hfeed hd hs fun _ hpc => by cases hpc

theorem achieved_next {indices : List (Index nm F)} {feed : Feed F} {name : IndexName nm}
    {rest : List (List (ProductDocument F))} {i : Index nm F} {pc : Pc nm F}
    (hb : Building model indices feed name rest.flatten i) (hpc : feed.next name rest = some pc) :
    Achieved model indices feed pc := by
  unfold Feed.next at hpc
  split_ifs at hpc with hrest herr
  · obtain rfl := Option.some.inj hpc
    rw [hrest] at hb
    exact ⟨Option.isNone_iff_eq_none.mp herr, i, hb⟩
  · obtain rfl := Option.some.inj hpc
    exact ⟨i, hb⟩

theorem inv_drop (h : Inv model sys) (hrun : sys.run = some run) (hpc : run.pc = .drop) {r : Reply}
    (hq : Spares sys (.reply r)) (hstep : sys.reply run r = some t) : Inv model t := by
  have hfeed := (h.achieved run hrun).1
  have hspared : Drops sys (.reply r) run → Served model { sys with indices := delete run.indexName sys.indices } := by
    intro hdrops
    by_cases hs : sys.succeeded = true
    · refine h.served.of_resolved ?_
      rw [resolved_delete]
      refine List.filter_eq_self.mpr fun i hi => ?_
      rw [hq run hdrops hs i hi]
      rfl
    · exact fun hs' => absurd hs' hs
  have hcreate : ∀ indices (next : Option (Pc nm F)), next = some .create ∨ next = none →
      ∀ pc, next = some pc → Achieved model indices run.feed pc := by
    intro indices next hnext pc hpc
    rcases hnext with rfl | rfl
    · obtain rfl := Option.some.inj hpc
      trivial
    · cases hpc
  unfold System.reply at hstep
  rw [hpc] at hstep
  obtain rfl := Option.some.inj hstep
  cases r with
  | done =>
    exact inv_goto hfeed (h.distinct.delete _) (hspared ⟨hrun, hpc, Or.inl rfl⟩) (hcreate _ _ (Or.inl rfl))
  | failed err took =>
    have htolerated : (if contains err.text "index_not_found_exception" then some (Pc.create : Pc nm F) else none)
        = some .create ∨ (if contains err.text "index_not_found_exception" then some (Pc.create : Pc nm F) else none)
        = none := by
      split_ifs
      · exact Or.inl rfl
      · exact Or.inr rfl
    cases took with
    | false => exact inv_goto hfeed h.distinct h.served (hcreate _ _ htolerated)
    | true =>
      exact inv_goto hfeed (h.distinct.delete _) (hspared ⟨hrun, hpc, Or.inr ⟨err, rfl⟩⟩) (hcreate _ _ htolerated)

theorem inv_create (h : Inv model sys) (hrun : sys.run = some run) {r : Reply} (hstep : sys.create run r = some t) :
    Inv model t := by
  unfold System.create at hstep
  dsimp only at hstep
  split_ifs at hstep with hvalid hin
  · exact h.refused hrun hstep
  · obtain rfl := Option.some.inj hstep
    refine h.after hrun r (h.distinct.put hin) (h.served.of_resolved resolved_put) fun pc hpc => ?_
    exact achieved_next ⟨fresh_put, fun d hd => Or.inr hd⟩ hpc
  · exact h.refused hrun hstep

theorem inv_bulked (h : Inv model sys) (hrun : sys.run = some run) {name : IndexName nm}
    {batch : List (ProductDocument F)} {rest : List (List (ProductDocument F))} {tries : ℕ}
    (hpc : run.pc = .bulk name (batch :: rest) tries) (stored : List ℕ) (err : Option Err) :
    Inv model (({ sys with indices := store name (bulkStored model batch stored err) sys.indices } : System nm F).goto
      run (run.afterBulk name batch rest tries err)) := by
  obtain ⟨hfeed, hachieved⟩ := h.achieved run hrun
  rw [hpc] at hachieved
  obtain ⟨i, hb⟩ := hachieved
  refine inv_goto hfeed h.distinct.store (h.served.of_resolved (resolved_store h.distinct hb.fresh)) fun pc hnext => ?_
  cases err with
  | none =>
    refine achieved_next ⟨hb.fresh.store _, fun d hd => ?_⟩ hnext
    rcases hb.received d hd with hd | hd
    · exact Or.inl (List.mem_append_left _ hd)
    · rcases List.mem_append.mp hd with hd | hd
      · exact Or.inl (List.mem_append_right _ (List.mem_map_of_mem hd))
      · exact Or.inr hd
  | some err =>
    simp only [Run.afterBulk] at hnext
    split_ifs at hnext
    obtain rfl := Option.some.inj hnext
    refine ⟨_, hb.fresh.store _, fun d hd => ?_⟩
    exact (hb.received d hd).imp (fun hd => List.mem_append_left _ hd) id

/-- The count is that of the new index. -/
theorem counted_eq {name : IndexName nm} {i : Index nm F} (hd : Distinct sys.indices) (hf : Fresh sys.indices name i) :
    sys.counted name = some i.count := by
  have hfind : sys.indices.find? (fun j => decide (j.name = name)) = some i := by
    cases hfound : sys.indices.find? fun j => decide (j.name = name) with
    | none => exact absurd (decide_eq_true hf.name) (List.find?_eq_none.mp hfound i hf.mem)
    | some j =>
      have hname := List.find?_some hfound
      rw [hf.eq_of_name hd (List.mem_of_find?_eq_some hfound) (of_decide_eq_true hname)]
  rw [System.counted, hfind, Option.map_some]

theorem inv_swap (h : Inv model sys) (hrun : sys.run = some run) {name : IndexName nm} {current : List (IndexName nm)}
    (hpc : run.pc = .swap name current) {r : Reply} (hstep : sys.swap run name current r = some t) : Inv model t := by
  obtain ⟨hfeed, hachieved⟩ := h.achieved run hrun
  rw [hpc] at hachieved
  obtain ⟨⟨i, hf, hcomplete⟩, hcurrent⟩ := hachieved
  have hself : name ∉ current.filter fun old => decide (old ≠ name) := fun hin =>
    of_decide_eq_true (List.mem_filter.mp hin).2 rfl
  have hold : ∀ j ∈ sys.indices, j.aliased = true → j.name ∈ current.filter fun old => decide (old ≠ name) := by
    intro j hj haliased
    refine List.mem_filter.mpr ⟨hcurrent j hj haliased, decide_eq_true fun hname => ?_⟩
    rw [hf.eq_of_name h.distinct hj hname, hf.unaliased] at haliased
    cases haliased
  have hresolved := resolved_repoint h.distinct hf hold
  have hcomplete' : Complete model run.feed { i with aliased := true } :=
    ⟨hcomplete.streamed, hcomplete.received, hcomplete.counted⟩
  unfold System.swap at hstep
  dsimp only at hstep
  split at hstep
  · obtain rfl := Option.some.inj hstep
    refine h.after hrun r (h.distinct.repoint _) (fun _ => ⟨_, run.feed, hresolved, hfeed, hcomplete'⟩)
      fun pc hnext => ?_
    obtain rfl := Option.some.inj hnext
    refine ⟨?_, _, hresolved, hf.name, hcomplete'⟩
    split_ifs
    · exact hself
    · exact List.not_mem_nil
  · exact h.refused hrun hstep

theorem inv_retire (h : Inv model sys) (hrun : sys.run = some run) {name old : IndexName nm}
    {rest : List (IndexName nm)} (hpc : run.pc = .retire name (old :: rest)) (r : Reply) :
    Inv model (sys.after run (delete old.text) (some (.retire name rest)) fatal r) := by
  obtain ⟨hfeed, hachieved⟩ := h.achieved run hrun
  rw [hpc] at hachieved
  obtain ⟨hnotin, i, hresolved, hname, hcomplete⟩ := hachieved
  -- the path of a retired index is its name, which is not the new one's
  have hspared : nm.covers old.text i.name.text = false := by
    refine Bool.eq_false_iff.mpr fun hcovers => hnotin ?_
    have htext : i.name.text = old.text := (nm.covers_iff old.valid).mp hcovers
    have hsame : i.name = old := by
      cases hi : i.name
      cases old
      simp only [hi] at htext
      simp only [htext]
    rw [← hname, hsame]
    exact List.mem_cons_self
  have hkept : resolved (delete old.text sys.indices) = [i] := by
    rw [resolved_delete, hresolved, List.filter_cons_of_pos (by rw [hspared]; rfl), List.filter_nil]
  refine h.after hrun r (h.distinct.delete _) (h.served.of_resolved (hkept.trans hresolved.symm)) fun pc hnext => ?_
  obtain rfl := Option.some.inj hnext
  exact ⟨fun hin => hnotin (List.mem_cons_of_mem _ hin), i, hkept, hname, hcomplete⟩

theorem inv_readAlias (h : Inv model sys) (hrun : sys.run = some run) {name : IndexName nm}
    (hpc : run.pc = .readAlias name) {current : List (IndexName nm)}
    (hcurrent : ∀ i ∈ sys.indices, i.aliased = true → i.name ∈ current) :
    Inv model (sys.goto run (some (.swap name current))) := by
  obtain ⟨hfeed, hachieved⟩ := h.achieved run hrun
  rw [hpc] at hachieved
  refine inv_goto hfeed h.distinct h.served fun pc hnext => ?_
  obtain rfl := Option.some.inj hnext
  exact ⟨hachieved, hcurrent⟩

/-- A request that changes nothing behind the new index, and does not depend on what it finds. -/
theorem inv_settle (h : Inv model sys) (hrun : sys.run = some run) {next : Pc nm F} (r : Reply)
    (hnext : Achieved model sys.indices run.feed run.pc → Achieved model sys.indices run.feed next) :
    Inv model (sys.after run id (some next) fatal r) := by
  refine h.after hrun r h.distinct h.served fun pc hpc => ?_
  obtain rfl := Option.some.inj hpc
  exact hnext (h.achieved run hrun).2

theorem inv_count (h : Inv model sys) (hrun : sys.run = some run) {name : IndexName nm} (hpc : run.pc = .count name)
    (r : Reply) : Inv model (sys.after run id (sys.validate run name) fatal r) := by
  obtain ⟨hfeed, hachieved⟩ := h.achieved run hrun
  rw [hpc] at hachieved
  obtain ⟨herr, i, hb⟩ := hachieved
  refine h.after hrun r h.distinct h.served fun pc hnext => ?_
  unfold System.validate at hnext
  split_ifs at hnext with hcount
  obtain rfl := Option.some.inj hnext
  rw [counted_eq h.distinct hb.fresh, Option.some.injEq] at hcount
  refine ⟨i, hb.fresh, Feed.documents_eq herr, fun d hd => ?_, hcount⟩
  exact (hb.received d hd).resolve_right List.not_mem_nil

theorem inv_reply (h : Inv model sys) (hrun : sys.run = some run) {r : Reply} (hq : Spares sys (.reply r))
    (hread : ReadsRight sys (.reply r)) (hstep : sys.reply run r = some t) : Inv model t := by
  cases hpc : run.pc with
  | drop => exact inv_drop h hrun hpc hq hstep
  | create =>
    simp only [System.reply, hpc] at hstep
    exact inv_create h hrun hstep
  | bulk name rest tries =>
    simp only [System.reply, hpc] at hstep
    cases hstep
  | settings name =>
    simp only [System.reply, hpc, Option.some.injEq] at hstep
    exact hstep ▸ inv_settle h hrun r fun hachieved => by rwa [hpc] at hachieved
  | refresh name =>
    simp only [System.reply, hpc, Option.some.injEq] at hstep
    exact hstep ▸ inv_settle h hrun r fun hachieved => by rwa [hpc] at hachieved
  | forceMerge name =>
    simp only [System.reply, hpc, Option.some.injEq] at hstep
    exact hstep ▸ inv_settle h hrun r fun hachieved => by rwa [hpc] at hachieved
  | count name =>
    simp only [System.reply, hpc, Option.some.injEq] at hstep
    exact hstep ▸ inv_count h hrun hpc r
  | readAlias name =>
    simp only [System.reply, hpc] at hstep
    cases r with
    | done => cases hstep
    | failed err took =>
      simp only [Option.some.injEq] at hstep
      split_ifs at hstep with hmissing
      · -- the alias is taken to be missing, and it is
        rw [← hstep]
        refine inv_readAlias h hrun hpc fun i hi haliased => ?_
        have hempty := hread run name err took hrun hpc rfl hmissing
        exact absurd (mem_resolved.mpr ⟨hi, haliased⟩) (by rw [hempty]; exact List.not_mem_nil)
      · exact hstep ▸ h.stop hrun
  | swap name current =>
    simp only [System.reply, hpc] at hstep
    exact inv_swap h hrun hpc hstep
  | retire name rest =>
    cases rest with
    | nil =>
      simp only [System.reply, hpc] at hstep
      cases hstep
    | cons old rest =>
      simp only [System.reply, hpc, Option.some.injEq] at hstep
      exact hstep ▸ inv_retire h hrun hpc r

theorem inv_advance (h : Inv model sys) (hrun : sys.run = some run) {a : Action nm F} (hq : Spares sys a)
    (hread : ReadsRight sys a) (hstep : sys.advance model run a = some t) : Inv model t := by
  cases a with
  | start indexVersion dropRetired feed => cases hstep
  | stop =>
    obtain rfl := Option.some.inj hstep
    exact h.stop hrun
  | reply r => exact inv_reply h hrun hq hread hstep
  | bulked stored err =>
    simp only [System.advance] at hstep
    split at hstep
    · rename_i name batch rest tries hpc
      obtain rfl := Option.some.inj hstep
      exact inv_bulked h hrun hpc stored err
    · cases hstep
  | aliases current =>
    simp only [System.advance] at hstep
    split at hstep
    · rename_i name hpc
      split_ifs at hstep with hperm
      obtain rfl := Option.some.inj hstep
      refine inv_readAlias h hrun hpc fun i hi haliased => ?_
      exact hperm.mem_iff.mpr (List.mem_map_of_mem (mem_resolved.mpr ⟨hi, haliased⟩))
    · cases hstep
  | finish =>
    simp only [System.advance] at hstep
    split at hstep
    · rename_i name hpc
      obtain rfl := Option.some.inj hstep
      obtain ⟨hfeed, hachieved⟩ := h.achieved run hrun
      rw [hpc] at hachieved
      obtain ⟨-, i, hresolved, -, hcomplete⟩ := hachieved
      exact ⟨h.distinct, fun _ => ⟨i, run.feed, hresolved, hfeed, hcomplete⟩, fun _ hr => by cases hr⟩
    · cases hstep

/-- **A step keeps the invariant**, if it spares the index in use and reads the alias right. -/
theorem inv_step (h : Inv model sys) {a : Action nm F} (hread : ReadsRight sys a) (hq : Spares sys a)
    (hstep : step model sys a = some t) : Inv model t := by
  unfold step at hstep
  split at hstep
  · rename_i run hrun
    exact inv_advance h hrun hq hread hstep
  · split at hstep
    · rename_i indexVersion dropRetired feed
      obtain rfl := Option.some.inj hstep
      refine ⟨h.distinct, fun hs => ?_, fun run hr => ?_⟩
      · obtain ⟨i, feed', hi, hfeed, hcomplete⟩ := h.served hs
        exact ⟨i, feed', hi, List.mem_append_left _ hfeed, hcomplete⟩
      · obtain rfl := Option.some.inj hr
        exact ⟨List.mem_append_right _ (List.mem_singleton_self _), trivial⟩
    · cases hstep

/-- **A step that does not spare the index in use** leaves the alias without one. -/
theorem spares_of_served (h : Inv model sys) {a : Action nm F} (hstep : step model sys a = some t)
    (hs : Served model t) : Spares sys a := by
  rintro run ⟨hrun, hpc, hdone⟩ hsucceeded i hi
  have hdeleted : t.indices = delete run.indexName sys.indices ∧ t.succeeded = sys.succeeded := by
    unfold step at hstep
    rw [hrun] at hstep
    rcases hdone with rfl | ⟨err, rfl⟩
    · simp only [System.advance, System.reply, hpc, Option.some.injEq] at hstep
      exact hstep ▸ ⟨rfl, rfl⟩
    · simp only [System.advance, System.reply, hpc, Option.some.injEq] at hstep
      exact hstep ▸ ⟨rfl, rfl⟩
  obtain ⟨i', feed, hresolved, -, -⟩ := h.served hsucceeded
  obtain ⟨j, feed', hleft, -, -⟩ := hs (hdeleted.2.trans hsucceeded)
  rw [hresolved, List.mem_singleton] at hi
  subst hi
  rw [hdeleted.1, resolved_delete, hresolved] at hleft
  have hj : j ∈ [i].filter fun i => !nm.covers run.indexName i.name.text := hleft ▸ List.mem_singleton_self j
  obtain ⟨hmem, hspared⟩ := List.mem_filter.mp hj
  rw [List.mem_singleton.mp hmem] at hspared
  simpa using hspared

/-! ## Every sequence of runs -/

/-- **The rebuild has no downtime exactly if no run deletes the index in use**, as far as no error on reading the
alias is taken for its absence. -/
theorem always_served_iff (model : Bytes → List F) {indices : List (Index nm F)} (hd : Distinct indices)
    {actions : List (Action nm F)} (hrun : Runs.run (step model) (System.init indices) actions = some t)
    (hread : Runs.Each (step model) ReadsRight (System.init indices) actions) :
    Runs.Always (step model) (Served model) (System.init indices) actions ↔
      Runs.Each (step model) Spares (System.init indices) actions :=
  Runs.always_iff (fun _ h => h.served) (fun _ _ _ h hread hq hstep => inv_step h hread hq hstep)
    (fun _ _ _ h hstep hs => spares_of_served h hstep hs) (inv_init hd) hread hrun

end Invariant

/-! ## A rebuild under the version in use -/

namespace Rerun

/-- A cluster where every text is a name and stands for itself. -/
def naming : Naming := ⟨fun _ => true, fun path other => decide (other = path), fun _ => decide_eq_true_iff⟩

def name : IndexName naming := ⟨versioned (Utf8.str "1"), rfl⟩

def feed : Feed Bool where
  indexedAt := []
  rows := [Bulk.row]
  expected := 1
  batches := [[Bulk.document]]
  err := none
  streamed _ := ⟨1, rfl⟩

def notFound : Err := .plain (Utf8.str "index_not_found_exception")

def noAlias : Err := .plain (Utf8.str "alias_not_found")

/-- A run under version 1, and the requests of one that succeeds in an empty cluster. -/
def first : List (Action naming Bool) :=
  [.start (Utf8.str "1") false feed, .reply (.failed notFound false), .reply .done, .bulked [] none, .reply .done,
    .reply .done, .reply .done, .reply .done, .reply (.failed noAlias false), .reply .done, .finish]

def built (aliased : Bool) : Index naming Bool := ⟨name, [Bulk.document.embedded Bulk.model], aliased⟩

def at_ (indices : List (Index naming Bool)) (pc : Pc naming Bool) : System naming Bool :=
  ⟨indices, some ⟨versioned (Utf8.str "1"), false, feed, pc⟩, [feed], false⟩

def served : System naming Bool := ⟨[built true], none, [feed], true⟩

/-- Where there is no index to delete, the run goes on. -/
theorem step_drop {sys : System naming Bool} {run : Run naming Bool} (hrun : sys.run = some run)
    (hpc : run.pc = .drop) :
    step Bulk.model sys (.reply (.failed notFound false)) = some (sys.goto run (some .create)) := by
  have hcontains : contains notFound.text "index_not_found_exception" = true :=
    decide_eq_true ⟨[], [], List.append_nil _⟩
  simp only [step, hrun, System.advance, System.reply, hpc, System.after, hcontains, Bool.false_eq_true, if_false,
    if_true]
  rfl

theorem step_readAlias : step Bulk.model (at_ [built false] (.readAlias name)) (.reply (.failed noAlias false))
    = some (at_ [built false] (.swap name [])) := by
  have hmissing : missingAlias noAlias = true :=
    Bool.or_eq_true_iff.mpr (Or.inl (decide_eq_true ⟨[], [], List.append_nil _⟩))
  show some (System.goto _ _ (if missingAlias noAlias = true then _ else _)) = _
  rw [if_pos hmissing]
  rfl

/-- What is asked of a step. -/
def Careful (sys : System naming Bool) (a : Action naming Bool) : Prop := ReadsRight sys a ∧ Spares sys a

/-- A step that is neither a `DELETE` that makes room nor an error. -/
theorem careful_of_done {sys : System naming Bool} {a : Action naming Bool}
    (hpc : ∀ run, sys.run = some run → run.pc ≠ .drop) (ha : ∀ err took, a ≠ .reply (.failed err took)) :
    Careful sys a :=
  ⟨fun _ _ err took _ _ h _ => absurd h (ha err took), fun run hdrops => absurd hdrops.2.1 (hpc run hdrops.1)⟩

/-- Up to the first success there is nothing to spare, and no alias to read wrong. -/
theorem careful_first (indices : List (Index naming Bool)) (pc : Pc naming Bool) (a : Action naming Bool)
    (h : resolved indices = []) : Careful (at_ indices pc) a :=
  ⟨fun _ _ _ _ _ _ _ _ => h, fun _ _ hsucceeded => by cases hsucceeded⟩

/-- What a run does when nothing fails but what must. -/
theorem steps_first : Runs.Each (step Bulk.model) Careful (System.init []) first ∧
    Runs.run (step Bulk.model) (System.init []) first = some served := by
  have hstart : step Bulk.model (System.init []) (.start (Utf8.str "1") false feed) = some (at_ [] .drop) := rfl
  have hcreate : step Bulk.model (at_ [] .create) (.reply .done)
      = some (at_ [⟨name, [], false⟩] (.bulk name [[Bulk.document]] 1)) := rfl
  have hbulk : step Bulk.model (at_ [⟨name, [], false⟩] (.bulk name [[Bulk.document]] 1)) (.bulked [] none)
      = some (at_ [built false] (.settings name)) := rfl
  have hsettings : step Bulk.model (at_ [built false] (.settings name)) (.reply .done)
      = some (at_ [built false] (.refresh name)) := rfl
  have hrefresh : step Bulk.model (at_ [built false] (.refresh name)) (.reply .done)
      = some (at_ [built false] (.forceMerge name)) := rfl
  have hmerge : step Bulk.model (at_ [built false] (.forceMerge name)) (.reply .done)
      = some (at_ [built false] (.count name)) := rfl
  have hcount : step Bulk.model (at_ [built false] (.count name)) (.reply .done)
      = some (at_ [built false] (.readAlias name)) := rfl
  have hswap : step Bulk.model (at_ [built false] (.swap name [])) (.reply .done)
      = some (at_ [built true] (.retire name [])) := rfl
  have hfinish : step Bulk.model (at_ [built true] (.retire name [])) .finish = some served := rfl
  have hlast : Careful (at_ [built true] (.retire name [])) .finish := by
    refine careful_of_done (fun run hrun hdrop => ?_) (fun _ _ h => by cases h)
    obtain rfl := Option.some.inj hrun
    cases hdrop
  refine Runs.each_run_cons hstart (careful_of_done (fun _ h => by cases h) (fun _ _ h => by cases h)) ?_
  refine Runs.each_run_cons (step_drop rfl rfl) (careful_first _ _ _ rfl) ?_
  refine Runs.each_run_cons hcreate (careful_first _ _ _ rfl) ?_
  refine Runs.each_run_cons hbulk (careful_first _ _ _ rfl) ?_
  refine Runs.each_run_cons hsettings (careful_first _ _ _ rfl) ?_
  refine Runs.each_run_cons hrefresh (careful_first _ _ _ rfl) ?_
  refine Runs.each_run_cons hmerge (careful_first _ _ _ rfl) ?_
  refine Runs.each_run_cons hcount (careful_first _ _ _ rfl) ?_
  refine Runs.each_run_cons step_readAlias (careful_first _ _ _ rfl) ?_
  refine Runs.each_run_cons hswap (careful_first _ _ _ rfl) ?_
  exact Runs.each_run_cons hfinish hlast ⟨trivial, rfl⟩

/-- A second run under the version in use, as far as its first request. -/
def again : List (Action naming Bool) := [.start (Utf8.str "1") false feed, .reply .done]

theorem run_again : Runs.run (step Bulk.model) served again
    = some ⟨[], some ⟨versioned (Utf8.str "1"), false, feed, .create⟩, [feed, feed], true⟩ := rfl

/-! ### A rebuild under the next version -/

def nextName : IndexName naming := ⟨versioned (Utf8.str "2"), rfl⟩

def nextBuilt (aliased : Bool) : Index naming Bool := ⟨nextName, [Bulk.document.embedded Bulk.model], aliased⟩

/-- What a run that was stopped leaves of the next index. -/
def left : Index naming Bool := ⟨nextName, [], false⟩

/-- A run under version 2, which is the `n`-th. -/
def atNext (n : ℕ) (indices : List (Index naming Bool)) (pc : Pc naming Bool) : System naming Bool :=
  ⟨indices, some ⟨versioned (Utf8.str "2"), true, feed, pc⟩, List.replicate n feed, true⟩

def stopped : System naming Bool := ⟨[built true, left], none, [feed, feed], true⟩

def moved : System naming Bool := ⟨[nextBuilt true], none, [feed, feed, feed], true⟩

/-- A run under version 2 that is stopped. -/
def cutShort : List (Action naming Bool) :=
  [.start (Utf8.str "2") true feed, .reply (.failed notFound false), .reply .done, .stop]

/-- A run that deletes what is left of it and, in the end, the index that it replaces. -/
def second : List (Action naming Bool) :=
  [.start (Utf8.str "2") true feed, .reply .done, .reply .done, .bulked [] none, .reply .done, .reply .done,
    .reply .done, .reply .done, .aliases [name], .reply .done, .reply .done, .finish]

theorem careful_atNext {n : ℕ} {indices : List (Index naming Bool)} {pc : Pc naming Bool} {a : Action naming Bool}
    (hpc : pc ≠ .drop) (ha : ∀ err took, a ≠ .reply (.failed err took)) : Careful (atNext n indices pc) a := by
  refine careful_of_done (fun run hrun => ?_) ha
  obtain rfl := Option.some.inj hrun
  exact hpc

/-- The `DELETE` of version 2 does not address the index in use. -/
theorem careful_drop {n : ℕ} {indices : List (Index naming Bool)} {r : Reply}
    (hresolved : resolved indices = [built true]) : Careful (atNext n indices .drop) (.reply r) := by
  refine ⟨fun run name err took hrun hpc => ?_, fun run hdrops _ i hi => ?_⟩
  · obtain rfl := Option.some.inj hrun
    cases hpc
  · obtain rfl := Option.some.inj hdrops.1
    have hi : i ∈ resolved indices := hi
    rw [hresolved] at hi
    rw [List.mem_singleton.mp hi]
    rfl

theorem careful_start {sys : System naming Bool} (v : Bytes) (dropRetired : Bool) (f : Feed Bool)
    (h : sys.run = none) : Careful sys (.start v dropRetired f) :=
  careful_of_done (fun run hrun => by rw [h] at hrun; cases hrun) (fun _ _ h => by cases h)

theorem careful_reply {n : ℕ} {indices : List (Index naming Bool)} {pc : Pc naming Bool} (hpc : pc ≠ .drop) :
    Careful (atNext n indices pc) (.reply .done) :=
  careful_atNext hpc fun _ _ h => by cases h

theorem step_create (n : ℕ) : step Bulk.model (atNext n [built true] .create) (.reply .done)
    = some (atNext n [built true, left] (.bulk nextName [[Bulk.document]] 1)) := rfl

theorem steps_cutShort : Runs.Each (step Bulk.model) Careful served cutShort ∧
    Runs.run (step Bulk.model) served cutShort = some stopped := by
  have hstart : step Bulk.model served (.start (Utf8.str "2") true feed) = some (atNext 2 [built true] .drop) := rfl
  have hstop : step Bulk.model (atNext 2 [built true, left] (.bulk nextName [[Bulk.document]] 1)) .stop
      = some stopped := rfl
  refine Runs.each_run_cons hstart (careful_start _ _ _ rfl) ?_
  refine Runs.each_run_cons (step_drop rfl rfl) (careful_drop rfl) ?_
  refine Runs.each_run_cons (step_create 2) (careful_reply (by simp)) ?_
  exact Runs.each_run_cons hstop (careful_atNext (by simp) (by simp)) ⟨trivial, rfl⟩

theorem steps_second : Runs.Each (step Bulk.model) Careful stopped second ∧
    Runs.run (step Bulk.model) stopped second = some moved := by
  have hstart : step Bulk.model stopped (.start (Utf8.str "2") true feed)
      = some (atNext 3 [built true, left] .drop) := rfl
  have hdrop : step Bulk.model (atNext 3 [built true, left] .drop) (.reply .done)
      = some (atNext 3 [built true] .create) := rfl
  have hbulk : step Bulk.model (atNext 3 [built true, left] (.bulk nextName [[Bulk.document]] 1)) (.bulked [] none)
      = some (atNext 3 [built true, nextBuilt false] (.settings nextName)) := rfl
  have hsettings : step Bulk.model (atNext 3 [built true, nextBuilt false] (.settings nextName)) (.reply .done)
      = some (atNext 3 [built true, nextBuilt false] (.refresh nextName)) := rfl
  have hrefresh : step Bulk.model (atNext 3 [built true, nextBuilt false] (.refresh nextName)) (.reply .done)
      = some (atNext 3 [built true, nextBuilt false] (.forceMerge nextName)) := rfl
  have hmerge : step Bulk.model (atNext 3 [built true, nextBuilt false] (.forceMerge nextName)) (.reply .done)
      = some (atNext 3 [built true, nextBuilt false] (.count nextName)) := rfl
  have hcount : step Bulk.model (atNext 3 [built true, nextBuilt false] (.count nextName)) (.reply .done)
      = some (atNext 3 [built true, nextBuilt false] (.readAlias nextName)) := rfl
  have hread : step Bulk.model (atNext 3 [built true, nextBuilt false] (.readAlias nextName)) (.aliases [name])
      = some (atNext 3 [built true, nextBuilt false] (.swap nextName [name])) := by
    have hperm : [name].Perm ((resolved [built true, nextBuilt false]).map (·.name)) := .refl _
    exact (if_pos hperm : (if _ then _ else none) = _)
  have hswap : step Bulk.model (atNext 3 [built true, nextBuilt false] (.swap nextName [name])) (.reply .done)
      = some (atNext 3 [built false, nextBuilt true] (.retire nextName [name])) := rfl
  have hretire : step Bulk.model (atNext 3 [built false, nextBuilt true] (.retire nextName [name])) (.reply .done)
      = some (atNext 3 [nextBuilt true] (.retire nextName [])) := rfl
  have hfinish : step Bulk.model (atNext 3 [nextBuilt true] (.retire nextName [])) .finish = some moved := rfl
  refine Runs.each_run_cons hstart (careful_start _ _ _ rfl) ?_
  refine Runs.each_run_cons hdrop (careful_drop rfl) ?_
  refine Runs.each_run_cons (step_create 3) (careful_reply (by simp)) ?_
  refine Runs.each_run_cons hbulk (careful_atNext (by simp) (by simp)) ?_
  refine Runs.each_run_cons hsettings (careful_reply (by simp)) ?_
  refine Runs.each_run_cons hrefresh (careful_reply (by simp)) ?_
  refine Runs.each_run_cons hmerge (careful_reply (by simp)) ?_
  refine Runs.each_run_cons hcount (careful_reply (by simp)) ?_
  refine Runs.each_run_cons hread (careful_atNext (by simp) (by simp)) ?_
  refine Runs.each_run_cons hswap (careful_reply (by simp)) ?_
  refine Runs.each_run_cons hretire (careful_reply (by simp)) ?_
  exact Runs.each_run_cons hfinish (careful_atNext (by simp) (by simp)) ⟨trivial, rfl⟩

end Rerun

/-- A rerun under the version in use leaves the alias without an index. -/
theorem rerun_unserved :
    ¬Runs.Always (step Bulk.model) (Served Bulk.model) (System.init []) (Rerun.first ++ Rerun.again) := by
  intro halways
  have hserved := halways _ _ (List.prefix_refl _)
    (Runs.run_append_eq_some.mpr ⟨_, Rerun.steps_first.2, Rerun.run_again⟩)
  obtain ⟨i, feed, hresolved, -, -⟩ := hserved rfl
  cases hresolved

/-- Through a rebuild that is stopped and one that succeeds, the alias always has its index. -/
theorem always_served_iff_sample :
    Runs.Always (step Bulk.model) (Served Bulk.model) (System.init [])
        (Rerun.first ++ (Rerun.cutShort ++ Rerun.second)) ∧
      Runs.run (step Bulk.model) (System.init []) (Rerun.first ++ (Rerun.cutShort ++ Rerun.second))
        = some Rerun.moved := by
  obtain ⟨hcareful, hrun⟩ :=
    Runs.each_run_append Rerun.steps_first (Runs.each_run_append Rerun.steps_cutShort Rerun.steps_second)
  exact ⟨(always_served_iff Bulk.model Table.keyed_nil hrun (hcareful.mono fun _ _ h => h.1)).mpr
    (hcareful.mono fun _ _ h => h.2), hrun⟩

end Ingest
