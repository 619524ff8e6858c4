import AgenticAttribution.Ingest.Partitions
import AgenticAttribution.Lib.Run

/-!
# Ingest.Loads — loads of listings, one after another

Calls of `LoadListings` and `DropRetiredPartitions` as they go, statement by statement.  A statement outside of the
swap takes effect at once, the swap when its transaction commits, and a call may fail at any point: because a statement
fails, or because the loader is cut off.

`loads_committed` says what the live table holds at every instant of every run, and that what failed calls leave behind
does not stand in the way of a later load.
-/

namespace Ingest.Partitions

open Fallible Runs Script

/-! ## Calls -/

/-- A call under way, with the rows it has staged if it is a load. -/
structure Call where
  client : Client Statement Database
  rows : Option (List Staged)

structure World where
  db : Database
  call : Option Call
  /-- The rows of the last load that has committed. -/
  committed : List Staged
  /-- The rows of the last load that has returned without an error. -/
  returned : List Staged
  /-- The generations of the loads so far. -/
  generations : List Int64

/-- The tables of the migrations. -/
def World.init : World where
  db
    | .live i => some ⟨[], [.pkey, .skuKey, .productIdx, .updatedIdx].map fun kind => ⟨i, none, kind⟩, some i⟩
    | _ => none
  call := none
  committed := []
  returned := []
  generations := []

inductive Action where
  /-- `LoadListings` of a seed file, at a reading of the clock. -/
  | load (file : Option Bytes) (generation : Int64)
  /-- `DropRetiredPartitions`. -/
  | dropRetired
  /-- The next statement of the call, which fails if the statement does. -/
  | statement
  /-- The call fails here. -/
  | fail
  /-- The call returns without an error. -/
  | succeed

def step (env : Env) (w : World) : Action → Option World
  | .load file generation =>
    match w.call with
    | some _ => none
    | none =>
      let staged := env.stage file
      some { w with
        call := some ⟨.single (prepare staged generation) (some swapPartitions), staged.toOption⟩
        generations := generation :: w.generations }
  | .dropRetired =>
    match w.call with
    | some _ => none
    | none => some { w with call := some ⟨.single dropRetiredPartitions none, none⟩ }
  | .statement =>
    match w.call with
    | none => none
    | some c =>
      match c.client.next (exec env) w.db with
      | none => none
      | some (.error _) => some { w with call := none }
      | some (.ok (db, client)) =>
        some { w with
          db := db
          call := some { c with client := client }
          committed := if client.isCommitted then c.rows.getD w.committed else w.committed }
  | .fail => w.call.map fun _ => { w with call := none }
  | .succeed =>
    w.call.bind fun c =>
      if c.client.size = 0 then some { w with call := none, returned := c.rows.getD w.returned } else none

/-- A load has committed and not yet returned. -/
def World.swapped (w : World) : Bool := w.call.any fun c => c.client.isCommitted

/-! ## The invariant -/

/-- What a call can rely on, with these rows committed: its single statements leave the live tables alone, and its
transaction, once the statements before it have succeeded, leads to the rows it has staged. -/
def Sound (env : Env) (committed : List Staged) (db : Database) (c : Call) : Prop :=
  match c.client with
  | .single left none => (∀ st ∈ left, st.Offline) ∧ c.rows = none
  | .single left (some swap) => (∀ st ∈ left, st.Offline) ∧ ∀ s, left.foldlM (exec env) db = .ok s →
      ∃ rows t, c.rows = some rows ∧ swap.foldlM (exec env) s = .ok t ∧ Holds env rows t
  | .inside left work => ∃ rows t, c.rows = some rows ∧ left.foldlM (exec env) work = .ok t ∧ Holds env rows t
  | .committed => c.rows = some committed

/-- The indexes that bear a generation bear one of these. -/
def Stamped (generations : List Int64) (db : Database) : Prop :=
  ∀ ix g, used db ix = true → ix.generation = some g → g ∈ generations

/-- The index that the statement makes bears one of these generations, if any. -/
def Marks (generations : List Int64) (st : Statement) : Prop :=
  ∀ ix g, st.creates = some ix → ix.generation = some g → g ∈ generations

def Marked (generations : List Int64) : Client Statement Database → Prop
  | .single left swap => ∀ st ∈ left ++ swap.getD [], Marks generations st
  | .inside left work => Stamped generations work ∧ ∀ st ∈ left, Marks generations st
  | .committed => True

structure Inv (env : Env) (w : World) : Prop where
  holds : Holds env w.committed w.db
  sound : ∀ c, w.call = some c → Sound env w.committed w.db c
  stamped : Stamped w.generations w.db
  marked : ∀ c, w.call = some c → Marked w.generations c.client

section Invariant

variable {env : Env} {w w' : World}

theorem init_live {n : TableName} {r : Relation} (h : World.init.db n = some r) :
    ∃ i, n = .live i ∧ r.rows = [] ∧ r.partition = some i ∧ ∀ ix ∈ r.indexes, ix.generation = none := by
  cases n with
  | live i =>
    cases h
    refine ⟨i, rfl, rfl, rfl, fun ix hix => ?_⟩
    obtain ⟨kind, -, rfl⟩ := List.mem_map.mp hix
    rfl
  | _ => exact nomatch h

theorem inv_init : Inv env .init where
  holds := by
    refine ⟨⟨fun i => ⟨_, rfl, rfl⟩, fun n r i hn hi => ?_⟩, fun i r hr => ?_⟩
    · obtain ⟨j, rfl, -, hj, -⟩ := init_live hn
      rw [hj, Option.some.injEq] at hi
      rw [hi]
    · obtain ⟨j, -, hrows, -⟩ := init_live hr
      exact hrows
  sound := nofun
  stamped := by
    intro ix g hix hg
    obtain ⟨n, r, hr, hmem⟩ := used_iff.mp hix
    obtain ⟨j, -, -, -, hnone⟩ := init_live hr
    rw [hnone ix hmem] at hg
    exact nomatch hg
  marked := nofun

theorem foldlM_holds {rows : List Staged} {left : List Statement} (hoff : ∀ st ∈ left, st.Offline) {db t : Database}
    (hdb : Holds env rows db) (h : left.foldlM (exec env) db = .ok t) : Holds env rows t := by
  induction left generalizing db with
  | nil =>
    obtain rfl := foldlM_nil_eq_ok.mp h
    exact hdb
  | cons st left ih =>
    obtain ⟨u, hu, ht⟩ := foldlM_cons_eq_ok.mp h
    have hst : Holds env rows u := exec_holds (hoff st List.mem_cons_self) hdb hu
    exact ih (fun st' hst' => hoff st' (List.mem_cons_of_mem st hst')) hst ht

/-- Known rows fit into `listings`, in the replacements that are built from them. -/
theorem fits_replacement {rows : List Staged} (generation : Int64) (hknown : rows.all env.known = true) :
    Fits env fun i => replacement env generation i rows where
  bucket _ := List.all_eq_true.mpr fun _ hr => (List.mem_filter.mp hr).2
  known _ := List.all_eq_true.mpr fun r hr => List.all_eq_true.mp hknown r (List.mem_filter.mp hr).1

/-- **A load is sound from the start.** -/
theorem sound_load {committed : List Staged} {db : Database} (hdb : Holds env committed db)
    (staged : Except StageError (List Staged)) (generation : Int64) :
    Sound env committed db ⟨.single (prepare staged generation) (some swapPartitions), staged.toOption⟩ := by
  refine ⟨fun st hst => (mem_prepare hst).1, fun s hs => ?_⟩
  obtain ⟨rows, rfl, hknown, hnext⟩ := prepare_eq_ok hs
  have hholds : Holds env committed s := foldlM_holds (fun st hst => (mem_prepare hst).1) hdb hs
  obtain ⟨t, ht, hpartitioned, hlive⟩ :=
    swapPartitions_ok (fits_replacement generation hknown) hholds.toPartitioned hnext
  refine ⟨rows, t, rfl, ht, hpartitioned, fun i r hr => ?_⟩
  rw [hlive i, Option.some.injEq] at hr
  rw [← hr]
  rfl

theorem exec_stamped {generations : List Int64} {db t : Database} {st : Statement} (hdb : Stamped generations db)
    (hst : Marks generations st) (h : exec env db st = .ok t) : Stamped generations t := by
  intro ix g hix hg
  rcases exec_used h hix with hused | hcreates
  · exact hdb ix g hused hg
  · exact hst ix g hcreates hg

theorem step_load_iff {file : Option Bytes} {generation : Int64} : step env w (.load file generation) = some w' ↔
    w.call = none ∧ w' = { w with
      call := some ⟨.single (prepare (env.stage file) generation) (some swapPartitions), (env.stage file).toOption⟩
      generations := generation :: w.generations } := by
  unfold step
  cases hcall : w.call with
  | none => rw [Option.some.injEq, eq_comm (b := w'), and_iff_right rfl]
  | some c => exact iff_of_false (fun h => nomatch h) fun h => nomatch h.1

theorem step_dropRetired_iff : step env w .dropRetired = some w' ↔
    w.call = none ∧ w' = { w with call := some ⟨.single dropRetiredPartitions none, none⟩ } := by
  unfold step
  cases hcall : w.call with
  | none => rw [Option.some.injEq, eq_comm (b := w'), and_iff_right rfl]
  | some c => exact iff_of_false (fun h => nomatch h) fun h => nomatch h.1

theorem step_succeed_iff : step env w .succeed = some w' ↔
    ∃ c, w.call = some c ∧ c.client.size = 0 ∧
      w' = { w with call := none, returned := c.rows.getD w.returned } := by
  constructor
  · intro h
    obtain ⟨c, hc, h⟩ := Option.bind_eq_some_iff.mp h
    split_ifs at h with hsize
    exact ⟨c, hc, hsize, (Option.some.inj h).symm⟩
  · rintro ⟨c, hc, hsize, rfl⟩
    exact Option.bind_eq_some_iff.mpr ⟨c, hc, if_pos hsize⟩

/-- What a statement of a call does. -/
theorem step_statement (h : step env w .statement = some w') : ∃ c, w.call = some c ∧
    ((∃ e, c.client.next (exec env) w.db = some (.error e) ∧ w' = { w with call := none }) ∨
      ∃ db client, c.client.next (exec env) w.db = some (.ok (db, client)) ∧
        w' = { w with
          db := db
          call := some { c with client := client }
          committed := if client.isCommitted then c.rows.getD w.committed else w.committed }) := by
  simp only [step] at h
  split at h
  · exact nomatch h
  · rename_i c hc
    refine ⟨c, hc, ?_⟩
    split at h
    · exact nomatch h
    · rename_i e he
      cases h
      exact Or.inl ⟨e, he, rfl⟩
    · rename_i db client hnext
      cases h
      exact Or.inr ⟨db, client, hnext, rfl⟩

/-- **A statement that succeeds keeps the invariant**: a single one because it leaves the live tables alone, the commit
because the call is sound. -/
theorem inv_next {c : Call} {db : Database} {client : Client Statement Database} (hinv : Inv env w)
    (hc : w.call = some c) (h : c.client.next (exec env) w.db = some (.ok (db, client))) :
    Inv env { w with
      db := db
      call := some { c with client := client }
      committed := if client.isCommitted then c.rows.getD w.committed else w.committed } := by
  have hsound := hinv.sound c hc
  have hmarked := hinv.marked c hc
  obtain ⟨client₀, rows⟩ := c
  rcases Client.next_cases h with ⟨st, left, swap, rfl, hst, rfl⟩ | ⟨swap, rfl, rfl, rfl⟩ |
    ⟨st, left, work, work', rfl, hst, rfl, rfl⟩ | ⟨rfl, rfl⟩
  · have hoff : ∀ st' ∈ st :: left, st'.Offline := by
      cases swap with
      | none => exact hsound.1
      | some js => exact hsound.1
    refine ⟨exec_holds (hoff st List.mem_cons_self) hinv.holds hst, fun c hc => ?_, ?_, fun c hc => ?_⟩
    · cases hc
      have hleft : ∀ st' ∈ left, st'.Offline := fun st' hst' => hoff st' (List.mem_cons_of_mem st hst')
      cases swap with
      | none => exact ⟨hleft, hsound.2⟩
      | some js => exact ⟨hleft, fun s hs => hsound.2 s (foldlM_cons_eq_ok.mpr ⟨db, hst, hs⟩)⟩
    · exact exec_stamped hinv.stamped (hmarked st List.mem_cons_self) hst
    · cases hc
      exact fun st' hst' => hmarked st' (List.mem_cons_of_mem st hst')
  · refine ⟨hinv.holds, fun c hc => ?_, hinv.stamped, fun c hc => ?_⟩
    · cases hc
      exact hsound.2 w.db rfl
    · cases hc
      exact ⟨hinv.stamped, hmarked⟩
  · refine ⟨hinv.holds, fun c hc => ?_, hinv.stamped, fun c hc => ?_⟩
    · cases hc
      obtain ⟨rows', t, hrows, ht, hholds⟩ := hsound
      obtain ⟨u, hu, ht⟩ := foldlM_cons_eq_ok.mp ht
      obtain rfl := Except.ok.inj (hst.symm.trans hu)
      exact ⟨rows', t, hrows, ht, hholds⟩
    · cases hc
      exact ⟨exec_stamped hmarked.1 (hmarked.2 st List.mem_cons_self) hst,
        fun st' hst' => hmarked.2 st' (List.mem_cons_of_mem st hst')⟩
  · obtain ⟨rows', t, hrows, ht, hholds⟩ := hsound
    obtain rfl := foldlM_nil_eq_ok.mp ht
    cases hrows
    exact ⟨hholds, fun c hc => by cases hc; rfl, hmarked.1, fun c hc => by cases hc; trivial⟩

theorem step_inv {a : Action} (hinv : Inv env w) (h : step env w a = some w') : Inv env w' := by
  cases a with
  | load file generation =>
    obtain ⟨-, rfl⟩ := step_load_iff.mp h
    refine ⟨hinv.holds, fun c hc => ?_, fun ix g hix hg => ?_, fun c hc => ?_⟩
    · cases hc
      exact sound_load hinv.holds _ _
    · exact List.mem_cons_of_mem _ (hinv.stamped ix g hix hg)
    · cases hc
      intro st hst ix g hix hg
      rcases List.mem_append.mp hst with hst | hst
      · rw [(mem_prepare hst).2 ix hix, Option.some.injEq] at hg
        exact hg ▸ List.mem_cons_self
      · rw [creates_of_mem_swapPartitions hst] at hix
        exact nomatch hix
  | dropRetired =>
    obtain ⟨-, rfl⟩ := step_dropRetired_iff.mp h
    refine ⟨hinv.holds, fun c hc => ?_, hinv.stamped, fun c hc => ?_⟩
    · cases hc
      exact ⟨fun st hst => (mem_dropRetiredPartitions hst).1, rfl⟩
    · cases hc
      intro st hst ix g hix hg
      rw [Option.getD_none, List.append_nil] at hst
      rw [(mem_dropRetiredPartitions hst).2] at hix
      exact nomatch hix
  | statement =>
    obtain ⟨c, hc, ⟨e, -, rfl⟩ | ⟨db, client, hnext, rfl⟩⟩ := step_statement h
    · exact ⟨hinv.holds, nofun, hinv.stamped, nofun⟩
    · exact inv_next hinv hc hnext
  | fail =>
    obtain ⟨c, -, rfl⟩ := Option.map_eq_some_iff.mp h
    exact ⟨hinv.holds, nofun, hinv.stamped, nofun⟩
  | succeed =>
    obtain ⟨c, -, -, rfl⟩ := step_succeed_iff.mp h
    exact ⟨hinv.holds, nofun, hinv.stamped, nofun⟩

/-- **The invariant holds at every instant.** -/
theorem run_inv {as : List Action} (h : run (step env) .init as = some w) : Inv env w :=
  run_invariant (fun _ _ _ => step_inv) inv_init h

end Invariant

/-! ## Runs -/

section Runs

variable {env : Env} {w w' : World} {c : Call}

/-- **A call runs to its end** if what it has left to send comes to one. -/
theorem run_statements {t : Database} (hc : w.call = some c) (h : c.client.rest (exec env) w.db = .ok t) :
    ∃ n w' c', run (step env) w (List.replicate n .statement) = some w' ∧ w'.call = some c' ∧ c'.client.size = 0 ∧
      c'.rows = c.rows ∧ w'.db = t ∧ w'.returned = w.returned ∧ w'.generations = w.generations := by
  induction hn : c.client.size generalizing w c with
  | zero =>
    have hdb : w.db = t := Except.ok.inj ((Client.rest_of_size hn).symm.trans h)
    exact ⟨0, w, c, rfl, hc, hn, rfl, hdb, rfl, rfl⟩
  | succ n ih =>
    rcases Client.next_of_rest h with ⟨hnone, -⟩ | ⟨db, client, hnext⟩
    · rw [Client.next_eq_none_iff, hn] at hnone
      exact nomatch hnone
    · let u : World := { w with
        db := db
        call := some { c with client := client }
        committed := if client.isCommitted then c.rows.getD w.committed else w.committed }
      have hstep : step env w .statement = some u := by
        simp only [step, hc, hnext]
        rfl
      have hsize : client.size = n := by
        rw [Client.size_next hnext] at hn
        exact Nat.succ.inj hn
      obtain ⟨k, w', c', hrun, hc', hend, hrows, hdb, hreturned, hgenerations⟩ :=
        ih (w := u) (c := { c with client := client }) rfl ((Client.rest_next hnext).trans h) hsize
      refine ⟨k + 1, w', c', ?_, hc', hend, hrows, hdb, hreturned, hgenerations⟩
      rw [List.replicate_succ, run_cons_of hstep]
      exact hrun

/-- **A call that returns without an error has come to its end.** -/
theorem rest_of_succeed {n : ℕ} (hc : w.call = some c)
    (h : run (step env) w (List.replicate n .statement ++ [.succeed]) = some w') :
    ∃ t, c.client.rest (exec env) w.db = .ok t := by
  induction n generalizing w c with
  | zero =>
    obtain ⟨u, hu, -⟩ := run_cons_eq_some.mp h
    obtain ⟨c', hc', hsize, -⟩ := step_succeed_iff.mp hu
    obtain rfl := Option.some.inj (hc.symm.trans hc')
    exact ⟨w.db, Client.rest_of_size hsize⟩
  | succ n ih =>
    rw [List.replicate_succ, List.cons_append] at h
    obtain ⟨u, hu, h⟩ := run_cons_eq_some.mp h
    obtain ⟨c', hc', ⟨e, -, rfl⟩ | ⟨db, client, hnext, rfl⟩⟩ := step_statement hu
    · cases n <;> exact nomatch h
    · obtain rfl := Option.some.inj (hc.symm.trans hc')
      obtain ⟨t, ht⟩ := ih (c := { c with client := client }) rfl h
      exact ⟨t, (Client.rest_next hnext).symm.trans ht⟩

/-- The steps but for a failure between the commit of a load and its return. -/
def Undisturbed (w : World) (a : Action) : Prop := a = .fail → w.swapped = false

theorem step_returned {a : Action} (hinv : Inv env w) (hreturned : w.swapped = false → w.committed = w.returned)
    (ha : Undisturbed w a) (h : step env w a = some w') : w'.swapped = false → w'.committed = w'.returned := by
  intro hswapped
  cases a with
  | load file generation =>
    obtain ⟨hidle, rfl⟩ := step_load_iff.mp h
    exact hreturned (by rw [World.swapped, hidle]; rfl)
  | dropRetired =>
    obtain ⟨hidle, rfl⟩ := step_dropRetired_iff.mp h
    exact hreturned (by rw [World.swapped, hidle]; rfl)
  | statement =>
    have hbefore : ∀ c, w.call = some c → c.client.next (exec env) w.db ≠ none → w.swapped = false := by
      intro c hc hnext
      rw [World.swapped, hc]
      cases hclient : c.client with
      | committed => exact absurd (by rw [hclient]; rfl) hnext
      | _ => simp [hclient, Client.isCommitted]
    obtain ⟨c, hc, ⟨e, hnext, rfl⟩ | ⟨db, client, hnext, rfl⟩⟩ := step_statement h
    · exact hreturned (hbefore c hc (by rw [hnext]; exact Option.some_ne_none _))
    · have hclient : client.isCommitted = false := hswapped
      show (if client.isCommitted then c.rows.getD w.committed else w.committed) = w.returned
      rw [hclient, if_neg Bool.false_ne_true]
      exact hreturned (hbefore c hc (by rw [hnext]; exact Option.some_ne_none _))
  | fail =>
    obtain ⟨c, -, rfl⟩ := Option.map_eq_some_iff.mp h
    exact hreturned (ha rfl)
  | succeed =>
    obtain ⟨c, hc, hsize, rfl⟩ := step_succeed_iff.mp h
    have hsound := hinv.sound c hc
    show w.committed = c.rows.getD w.returned
    obtain ⟨client, rows⟩ := c
    match client, hsize with
    | .single [] none, _ =>
      rw [hsound.2]
      exact hreturned (by rw [World.swapped, hc]; rfl)
    | .committed, _ =>
      have hrows : rows = some w.committed := hsound
      rw [hrows]
      rfl

/-- **Valid data is loaded**, from whatever state earlier calls have left the tables in. -/
theorem run_load (hinv : Inv env w) (hidle : w.call = none) {file : Option Bytes} {rows : List Staged}
    {generation : Int64} (hstage : env.stage file = .ok rows) (hvalid : Valid env rows)
    (hgeneration : generation ∉ w.generations) :
    ∃ n w', run (step env) w (.load file generation :: List.replicate n .statement) = some w' ∧
      w'.call = some ⟨.committed, some rows⟩ ∧ w'.committed = rows ∧ w'.returned = w.returned ∧
      w'.generations = generation :: w.generations ∧
      ∀ i, w'.db (.live i) = some { replacement env generation i rows with partition := some i } := by
  let start : Call := ⟨.single (prepare (.ok rows) generation) (some swapPartitions), some rows⟩
  let u : World := { w with call := some start, generations := generation :: w.generations }
  have hstart : step env w (.load file generation) = some u := by
    refine step_load_iff.mpr ⟨hidle, ?_⟩
    rw [hstage]
    rfl
  have hu : Inv env u := step_inv hinv hstart
  have hfresh : Fresh generation w.db := fun ix hix hg => hgeneration (hinv.stamped ix generation hix hg)
  obtain ⟨s, hs⟩ := prepare_ok hvalid hfresh
  obtain ⟨rows', hrows', -, hnext⟩ := prepare_eq_ok hs
  cases hrows'
  have hs' : Holds env w.committed s := foldlM_holds (fun st hst => (mem_prepare hst).1) hinv.holds hs
  obtain ⟨t, ht, -, hlive⟩ :=
    swapPartitions_ok (fits_replacement generation hvalid.known) hs'.toPartitioned hnext
  have hrest : start.client.rest (exec env) u.db = .ok t := bind_eq_ok.mpr ⟨s, hs, ht⟩
  obtain ⟨n, w', c', hrun, hc', hsize, hrows, rfl, hreturned, hgenerations⟩ := run_statements rfl hrest
  have hw' : Inv env w' := run_invariant (fun _ _ _ => step_inv) hu hrun
  have hsound := hw'.sound c' hc'
  obtain ⟨client, rows''⟩ := c'
  obtain rfl : rows'' = some rows := hrows
  match client, hsize with
  | .single [] none, _ => exact nomatch hsound.2
  | .committed, _ =>
    refine ⟨n, w', ?_, hc', (Option.some.inj hsound).symm, hreturned, hgenerations, hlive⟩
    rw [run_cons_of hstart]
    exact hrun

/-- **A generation is good for one load only**: with the names of the live indexes no replacement can be built. -/
theorem not_run_load_again {file : Option Bytes} {generation : Int64} {r : Relation} (hlive : w.db (.live 0) = some r)
    (hix : ⟨0, some generation, .pkey⟩ ∈ r.indexes) (n : ℕ) :
    run (step env) w (.load file generation :: (List.replicate n .statement ++ [.succeed])) ≠ some w' := by
  intro h
  obtain ⟨u, hu, h⟩ := run_cons_eq_some.mp h
  obtain ⟨-, rfl⟩ := step_load_iff.mp hu
  obtain ⟨t, ht⟩ := rest_of_succeed (c := ⟨.single (prepare (env.stage file) generation) (some swapPartitions), _⟩)
    rfl h
  obtain ⟨s, hs, -⟩ := bind_eq_ok.mp ht
  cases hstage : env.stage file with
  | error e =>
    rw [hstage] at hs
    cases hs
  | ok rows =>
    rw [hstage, prepare, ← List.append_assoc, foldlM_append_eq_ok] at hs
    obtain ⟨v, hv, hs⟩ := hs
    obtain ⟨-, -, rfl⟩ := staging_eq_ok.mp hv
    have hfirst : List.finRange ListingPartitions = 0 :: (List.finRange ListingPartitions).tail := rfl
    rw [buildReplacementPartitions, hfirst, List.flatMap_cons, foldlM_append_eq_ok] at hs
    obtain ⟨v, hv, -⟩ := hs
    obtain ⟨-, -, -, -, -, hnames, -⟩ := build_eq_ok.mp hv
    have hused : used (Function.update (Function.update w.db .staging (some { rows := rows })) (.next 0) none)
        ⟨0, some generation, .pkey⟩ = true := by
      refine used_iff.mpr ⟨.live 0, r, ?_, hix⟩
      simp [hlive]
    rw [hnames .pkey] at hused
    cases hused

end Runs

/-! ## All or nothing -/

/-- **All or nothing.**  At every instant of every run of calls the live table holds exactly the rows of the last load
that has committed, each of them once and in the partition of its bucket.  That is the last load that has returned
without an error, except from the commit of a load to its return, as long as no load fails in between.  And whatever
earlier calls have left behind, a load of valid data at a new reading of the clock returns without an error. -/
theorem loads_committed {env : Env} {as : List Action} {w : World} (h : run (step env) .init as = some w) :
    Holds env w.committed w.db ∧ (contents w.db).Perm w.committed ∧
    (Each (step env) Undisturbed .init as → w.swapped = false → w.committed = w.returned) ∧
    (w.call = none → ∀ file rows generation, env.stage file = .ok rows → Valid env rows →
      generation ∉ w.generations → ∃ n w',
        run (step env) w (.load file generation :: (List.replicate n .statement ++ [.succeed])) = some w' ∧
          w'.returned = rows ∧ (contents w'.db).Perm rows) := by
  have hinv : Inv env w := run_inv h
  refine ⟨hinv.holds, contents_perm hinv.holds, fun heach => ?_, ?_⟩
  · have hstep : ∀ s a t, (Inv env s ∧ (s.swapped = false → s.committed = s.returned)) → Undisturbed s a →
        step env s a = some t → Inv env t ∧ (t.swapped = false → t.committed = t.returned) :=
      fun s a t hs ha ht => ⟨step_inv hs.1 ht, step_returned hs.1 hs.2 ha ht⟩
    exact (each_invariant hstep ⟨inv_init, fun _ => rfl⟩ heach h).2
  · intro hidle file rows generation hstage hvalid hnew
    obtain ⟨n, u, hrun, hcall, hcommitted, -⟩ := run_load hinv hidle hstage hvalid hnew
    have hu : Inv env u := run_invariant (fun _ _ _ => step_inv) hinv hrun
    have hsucceed : step env u .succeed = some { u with call := none, returned := rows } :=
      step_succeed_iff.mpr ⟨_, hcall, rfl, rfl⟩
    refine ⟨n, { u with call := none, returned := rows }, ?_, rfl, hcommitted ▸ contents_perm hu.holds⟩
    rw [← List.cons_append, run_append_eq_some]
    exact ⟨u, hrun, by rw [run_cons_of hsucceed, run_nil]⟩

namespace Sample.Feed

/-- A feed of one listing. -/
def listing : Generator.Listing where
  listingID := Utf8.str "lst_00000001"
  productID := Utf8.str "prd_00000001"
  merchantID := Utf8.str "mer_000000"
  merchantSKU := Utf8.str "SKU-000001"
  listingTitle := Utf8.str "Running shoe"
  priceCents := 12999
  currency := Utf8.str "USD"
  inStock := true
  commissionBps := 500
  deepLinkURL := Utf8.str "https://shop.example/p/1"

def staged : Staged where
  listingID := listing.listingID
  productID := listing.productID
  merchantID := listing.merchantID
  merchantSKU := listing.merchantSKU
  listingTitle := listing.listingTitle
  priceCents := 12999
  currency := listing.currency
  inStock := true
  commissionBps := 500
  deepLinkURL := listing.deepLinkURL

def env : Env where
  bucket _ := 1
  products := [listing.productID]
  merchants := [listing.merchantID]
  bind
    | [.text listingID, .text productID, .text merchantID, .text merchantSKU, .text listingTitle, .int priceCents,
        .text currency, .bool inStock, .int commissionBps, .text deepLinkURL] =>
      some ⟨listingID, productID, merchantID, merchantSKU, listingTitle, priceCents, currency, inStock, commissionBps,
        deepLinkURL⟩
    | _ => none

def file : Bytes := Generator.writeRows Generator.listingColumns [listing.record]

theorem stage_file : env.stage (some file) = .ok [staged] := by
  have hcopy : copyCSVDirect listingCopyColumns file
      = .ok ([listing.record].map (List.map fun f => coerce (Csv.unix f))) :=
    copyCSVDirect_writeRows (by decide) rfl (by simp [listingCopyColumns, Generator.Listing.record])
  have htexts : ∀ s ∈ [listing.listingID, listing.productID, listing.merchantID, listing.merchantSKU,
      listing.listingTitle, listing.currency, listing.deepLinkURL], coerce (Csv.unix s) = .text s := by decide
  simp only [List.forall_mem_cons] at htexts
  obtain ⟨hlisting, hproduct, hmerchant, hsku, htitle, hcurrency, hurl, -⟩ := htexts
  rw [Env.stage]
  simp only [hcopy, Generator.Listing.record, List.map_cons, List.map_nil, hlisting, hproduct, hmerchant, hsku, htitle,
    hcurrency, hurl, coerce_itoa, coerce_boolForCopy]
  rfl

theorem valid : Valid env [staged] where
  nonempty := List.cons_ne_nil _ _
  checked := rfl
  known := by decide
  primary := List.nodup_singleton _
  sku := List.nodup_singleton _

end Sample.Feed

/-- The feed is loaded up to its commit, and then the loader is cut off. -/
theorem run_cut : ∃ n w, run (step Sample.Feed.env) .init
    (.load (some Sample.Feed.file) 1 :: List.replicate n .statement ++ [.fail]) = some w ∧ w.call = none ∧
      w.committed = [Sample.Feed.staged] ∧ w.returned = [] ∧ w.generations = [1] ∧
      ∃ r, w.db (.live 0) = some r ∧ ⟨0, some 1, .pkey⟩ ∈ r.indexes := by
  obtain ⟨n, w, hrun, hcall, hcommitted, hreturned, hgenerations, hlive⟩ := run_load inv_init rfl
    Sample.Feed.stage_file Sample.Feed.valid (show (1 : Int64) ∉ World.init.generations from List.not_mem_nil)
  have hfail : step Sample.Feed.env w .fail = some { w with call := none } := by
    simp only [step, hcall, Option.map_some]
  refine ⟨n, { w with call := none }, ?_, rfl, hcommitted, hreturned, hgenerations, _, hlive 0, List.mem_cons_self⟩
  rw [run_append_eq_some]
  exact ⟨w, hrun, by rw [run_cons_of hfail, run_nil]⟩

/-- Behind that the rows are there, and the feed can be loaded once more at a later reading of the clock. -/
theorem loads_committed_feed : ∃ as w, run (step Sample.Feed.env) .init as = some w ∧
    (contents w.db).Perm [Sample.Feed.staged] ∧ ∃ n w',
      run (step Sample.Feed.env) w
        (.load (some Sample.Feed.file) 2 :: (List.replicate n .statement ++ [.succeed])) = some w' ∧
          w'.returned = [Sample.Feed.staged] ∧ (contents w'.db).Perm [Sample.Feed.staged] := by
  obtain ⟨n, w, hrun, hcall, hcommitted, -, hgenerations, -⟩ := run_cut
  obtain ⟨-, hperm, -, hload⟩ := loads_committed hrun
  have hnew : (2 : Int64) ∉ w.generations := by
    rw [hgenerations]
    decide
  exact ⟨_, w, hrun, hcommitted ▸ hperm, hload hcall _ _ _ Sample.Feed.stage_file Sample.Feed.valid hnew⟩

/-- A load that fails although its swap has committed: the reader sees rows that no load has returned, and the reading
of the clock is used up. -/
theorem not_all_or_nothing : ∃ as w, run (step Sample.Feed.env) .init as = some w ∧ w.call = none ∧
    ¬(contents w.db).Perm w.returned ∧
    ¬∃ n w', run (step Sample.Feed.env) w
      (.load (some Sample.Feed.file) 1 :: (List.replicate n .statement ++ [.succeed])) = some w' := by
  obtain ⟨n, w, hrun, hcall, hcommitted, hreturned, -, r, hlive, hix⟩ := run_cut
  refine ⟨_, w, hrun, hcall, fun hperm => ?_, ?_⟩
  · have hrows : (contents w.db).Perm [Sample.Feed.staged] := hcommitted ▸ contents_perm (run_inv hrun).holds
    have hlen := (hrows.symm.trans hperm).length_eq
    rw [hreturned] at hlen
    exact nomatch hlen
  · rintro ⟨k, w', h⟩
    exact not_run_load_again hlive hix k h

end Ingest.Partitions
