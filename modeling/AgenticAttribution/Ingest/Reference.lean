import AgenticAttribution.Ingest.Partitions
import AgenticAttribution.Lib.JsonRead
import AgenticAttribution.Lib.Run
import Mathlib.Logic.Relation

/-!
# Ingest.Reference — merchants, publishers and products

`LoadReference` and `copyCSVUpsert` of `internal/ingest/postgres.go`.  The rows of a seed file go into a staging table
first, and one statement merges them into the table that others refer to.  The staging table has one name for all
loads, so that loads at the same time get in each other's way; they can spoil what is loaded, but not the tables
(`tables_kept`).  A load that has the staging tables to itself does what it should (`run_load_alone`).
-/

namespace Ingest.Reference

open Partitions (StageError)

/-! ## One table -/

/-- A reference table: what `COPY` makes of the values of a row, its primary key, and its `CHECK` constraints. -/
structure Target (ρ : Type) where
  columns : List String
  bind : List Value → Option ρ
  key : ρ → Bytes
  checked : ρ → Bool

/-- A reference table with `…_upsert_staging`, if that is there. -/
structure Slot (ρ : Type) where
  rows : List ρ
  staging : Option (List ρ)

/-- The rows that a seed file stages. -/
def Target.stage {ρ : Type} (t : Target ρ) (file : Option Bytes) : Except StageError (List ρ) :=
  match file with
  | none => .error .open
  | some file =>
    match copyCSVDirect t.columns file with
    | .error e => .error (.source e)
    | .ok rows =>
      match rows.mapM t.bind with
      | none => .error .bind
      | some rows => .ok rows

inductive SqlError where
  | stage (e : StageError)
  | undefinedTable
  | duplicateTable
  | checkViolation
  /-- `ON CONFLICT DO UPDATE` does not touch a row twice. -/
  | cardinalityViolation
  deriving DecidableEq

inductive Statement (ρ : Type) where
  /-- `DROP TABLE IF EXISTS`. -/
  | clear
  /-- `CREATE UNLOGGED TABLE … (LIKE … INCLUDING DEFAULTS)`. -/
  | create
  /-- `copyCSVDirect` into the staging table. -/
  | copy (staged : Except StageError (List ρ))
  /-- `INSERT INTO … SELECT … ON CONFLICT … DO UPDATE`. -/
  | upsert

def Slot.exec {ρ : Type} (t : Target ρ) (s : Slot ρ) : Statement ρ → Except SqlError (Slot ρ)
  | .clear => .ok { s with staging := none }
  | .create => if s.staging.isSome then .error .duplicateTable else .ok { s with staging := some [] }
  | .copy (.error e) => .error (.stage e)
  | .copy (.ok rows) =>
    match s.staging with
    | none => .error .undefinedTable
    | some old => .ok { s with staging := some (old ++ rows) }
  | .upsert =>
    match s.staging with
    | none => .error .undefinedTable
    | some new =>
      if !new.all t.checked then .error .checkViolation
      else if ¬(new.map t.key).Nodup then .error .cardinalityViolation
      else .ok { s with rows := Table.upsert t.key new s.rows }

/-! ## The three tables -/

structure Merchant where
  merchantID : Bytes
  name : Bytes
  defaultCommissionBps : ℤ
  holdPeriodDays : ℤ
  reversalWindowDays : ℤ
  deriving DecidableEq

structure Publisher where
  publisherID : Bytes
  name : Bytes
  payoutCurrency : Bytes

structure Product where
  productID : Bytes
  canonicalTitle : Bytes
  brand : Bytes
  categoryID : Bytes
  description : Bytes
  attributes : Json

structure Database where
  merchants : Slot Merchant
  publishers : Slot Publisher
  products : Slot Product

/-- What `COPY` makes of the rows of the three tables. -/
structure Binding where
  merchant : List Value → Option Merchant
  publisher : List Value → Option Publisher
  product : List Value → Option Product

section Tables

variable (b : Binding)

def Binding.merchants : Target Merchant where
  columns := merchantCopyColumns
  bind := b.merchant
  key := (·.merchantID)
  checked m := (0 ≤ m.defaultCommissionBps && m.defaultCommissionBps ≤ 10000) && 0 ≤ m.holdPeriodDays &&
    0 ≤ m.reversalWindowDays

def Binding.publishers : Target Publisher where
  columns := publisherCopyColumns
  bind := b.publisher
  key := (·.publisherID)
  checked _ := true

def Binding.products : Target Product where
  columns := productCopyColumns
  bind := b.product
  key := (·.productID)
  checked _ := true

/-- A statement on one of the tables. -/
inductive Query where
  | merchants (st : Statement Merchant)
  | publishers (st : Statement Publisher)
  | products (st : Statement Product)

def exec (db : Database) : Query → Except SqlError Database
  | .merchants st => (db.merchants.exec b.merchants st).map fun s => { db with merchants := s }
  | .publishers st => (db.publishers.exec b.publishers st).map fun s => { db with publishers := s }
  | .products st => (db.products.exec b.products st).map fun s => { db with products := s }

/-! ## Loads -/

/-- What a load has to do next. -/
inductive Op where
  /-- A statement that ends the load if it fails, with the one that was deferred up to here. -/
  | send (st : Query) (deferred : Option Query)
  /-- A statement that was deferred; its error is ignored. -/
  | deferred (st : Query)

/-- `copyCSVUpsert`. -/
def copyCSVUpsert {ρ : Type} (on : Statement ρ → Query) (staged : Except StageError (List ρ)) : List Op :=
  [.send (on .clear) none, .send (on .create) none, .send (on (.copy staged)) (some (on .clear)),
    .send (on .upsert) (some (on .clear)), .deferred (on .clear)]

/-- The files of a seed directory, where they can be opened. -/
structure SeedDir where
  merchants : Option Bytes
  publishers : Option Bytes
  products : Option Bytes

def loadReference (dir : SeedDir) : List Op :=
  copyCSVUpsert .merchants (b.merchants.stage dir.merchants) ++
    copyCSVUpsert .publishers (b.publishers.stage dir.publishers) ++
    copyCSVUpsert .products (b.products.stage dir.products)

structure Call where
  left : List Op
  /-- The load returns an error. -/
  failed : Bool

structure World where
  db : Database
  calls : List Call
  /-- The seed directories that have been loaded from. -/
  dirs : List SeedDir

inductive Action where
  /-- `LoadReference`. -/
  | load (dir : SeedDir)
  /-- The next statement of a call, which fails if the statement does. -/
  | statement (c : ℕ)
  /-- The next statement of a call fails for some other reason. -/
  | fail (c : ℕ)
  /-- The process of a call ends. -/
  | cut (c : ℕ)

/-- The call behind an error of its next statement. -/
def Call.fails : Call → Call
  | ⟨.send _ deferred :: _, _⟩ => ⟨deferred.toList.map .deferred, true⟩
  | ⟨.deferred _ :: left, failed⟩ => ⟨left, failed⟩
  | ⟨[], failed⟩ => ⟨[], failed⟩

/-- The next statement of a call. -/
def Call.next (db : Database) (call : Call) : Option (Database × Call) :=
  match call.left with
  | [] => none
  | .send st _ :: left | .deferred st :: left =>
    match exec b db st with
    | .error _ => some (db, call.fails)
    | .ok db => some (db, { call with left })

def step (w : World) : Action → Option World
  | .load dir => some { w with calls := w.calls ++ [⟨loadReference b dir, false⟩], dirs := w.dirs ++ [dir] }
  | .statement c => do
    let call ← w.calls[c]?
    let (db, call) ← call.next b w.db
    return { w with db, calls := w.calls.set c call }
  | .fail c => do
    let call ← w.calls[c]?
    return { w with calls := w.calls.set c call.fails }
  | .cut c => do
    let _ ← w.calls[c]?
    return { w with calls := w.calls.set c ⟨[], true⟩ }

abbrev run (w : World) (as : List Action) : Option World := Runs.run (step b) w as

end Tables

/-! ## What loads leave alone -/

/-- The row is in one of the files. -/
def Given {ρ : Type} (t : Target ρ) (files : List (Option Bytes)) (r : ρ) : Prop :=
  ∃ file ∈ files, ∃ rows, t.stage file = .ok rows ∧ r ∈ rows

/-- What holds of a table that held `start` and has been loaded from these files: its key is a key, no key is gone,
and every row is an old one or comes from a file.  Rows may stay behind in the staging table, and they come from a file
too. -/
structure Kept {ρ : Type} (t : Target ρ) (start : List ρ) (files : List (Option Bytes)) (s : Slot ρ) : Prop where
  keyed : Table.Keyed t.key s.rows
  keys : ∀ r ∈ start, t.key r ∈ s.rows.map t.key
  checked : ∀ r ∈ s.rows, t.checked r = true
  rows : ∀ r ∈ s.rows, r ∈ start ∨ Given t files r
  staged : ∀ new, s.staging = some new → ∀ r ∈ new, Given t files r

/-- What the statement copies is one of the files. -/
def Statement.From {ρ : Type} (t : Target ρ) (files : List (Option Bytes)) : Statement ρ → Prop
  | .copy (.ok rows) => ∃ file ∈ files, t.stage file = .ok rows
  | _ => True

section Slots

variable {ρ : Type} {t : Target ρ} {start : List ρ} {files files' : List (Option Bytes)} {s s' : Slot ρ}

theorem Given.mono (h : files ⊆ files') {r : ρ} (hr : Given t files r) : Given t files' r := by
  obtain ⟨file, hfile, hrows⟩ := hr
  exact ⟨file, h hfile, hrows⟩

theorem Statement.From.mono (h : files ⊆ files') {st : Statement ρ} (hst : st.From t files) : st.From t files' := by
  cases st with
  | copy staged =>
    cases staged with
    | error e => trivial
    | ok rows =>
      obtain ⟨file, hfile, hrows⟩ := hst
      exact ⟨file, h hfile, hrows⟩
  | _ => trivial

theorem Kept.mono (h : files ⊆ files') (hs : Kept t start files s) : Kept t start files' s where
  keyed := hs.keyed
  keys := hs.keys
  checked := hs.checked
  rows r hr := (hs.rows r hr).imp_right (Given.mono h)
  staged new hnew r hr := (hs.staged new hnew r hr).mono h

/-- The staging table alone changes. -/
theorem Kept.restage (hs : Kept t start files s) {staging : Option (List ρ)}
    (h : ∀ new, staging = some new → ∀ r ∈ new, Given t files r) : Kept t start files { s with staging } :=
  ⟨hs.keyed, hs.keys, hs.checked, hs.rows, h⟩

/-- **No statement spoils the table.** -/
theorem Kept.exec (hs : Kept t start files s) {st : Statement ρ} (hst : st.From t files) (h : s.exec t st = .ok s') :
    Kept t start files s' := by
  cases st with
  | clear =>
    obtain rfl := Except.ok.inj h
    exact hs.restage (by simp)
  | create =>
    simp only [Slot.exec] at h
    split_ifs at h
    obtain rfl := Except.ok.inj h
    exact hs.restage (by simp)
  | copy staged =>
    cases staged with
    | error e => cases h
    | ok rows =>
      obtain ⟨file, hfile, hrows⟩ := hst
      cases hold : s.staging with
      | none =>
        simp only [Slot.exec, hold] at h
        cases h
      | some old =>
        simp only [Slot.exec, hold] at h
        obtain rfl := Except.ok.inj h
        refine hs.restage fun new hnew r hr => ?_
        obtain rfl := Option.some.inj hnew
        rcases List.mem_append.mp hr with hr | hr
        · exact hs.staged old hold r hr
        · exact ⟨file, hfile, rows, hrows, hr⟩
  | upsert =>
    cases hold : s.staging with
    | none =>
      simp only [Slot.exec, hold] at h
      cases h
    | some new =>
      simp only [Slot.exec, hold] at h
      split_ifs at h with hchecked hkeyed
      obtain rfl := Except.ok.inj h
      have hchecked : new.all t.checked = true := by simpa using hchecked
      have hnew : Table.Keyed t.key new := hkeyed
      refine ⟨hs.keyed.upsert hnew, fun r hr => Table.key_mem_upsert.mpr (Or.inl (hs.keys r hr)), ?_, ?_,
        fun _ h r hr => hs.staged new hold r (Option.some.inj h ▸ hr)⟩
      · intro r hr
        rcases (Table.mem_upsert_iff hnew).mp hr with hr | ⟨hr, -⟩
        · exact List.all_eq_true.mp hchecked r hr
        · exact hs.checked r hr
      · intro r hr
        rcases (Table.mem_upsert_iff hnew).mp hr with hr | ⟨hr, -⟩
        · exact Or.inr (hs.staged new hold r hr)
        · exact hs.rows r hr

end Slots

/-- The three tables, behind loads from these directories. -/
structure Database.Kept (b : Binding) (db start : Database) (dirs : List SeedDir) : Prop where
  merchants : Reference.Kept b.merchants start.merchants.rows (dirs.map (·.merchants)) db.merchants
  publishers : Reference.Kept b.publishers start.publishers.rows (dirs.map (·.publishers)) db.publishers
  products : Reference.Kept b.products start.products.rows (dirs.map (·.products)) db.products

def Query.From (b : Binding) (dirs : List SeedDir) : Query → Prop
  | .merchants st => st.From b.merchants (dirs.map (·.merchants))
  | .publishers st => st.From b.publishers (dirs.map (·.publishers))
  | .products st => st.From b.products (dirs.map (·.products))

/-- The statements of an operation. -/
def Op.queries : Op → List Query
  | .send st later => st :: later.toList
  | .deferred st => [st]

/-- Tables that hold what they may. -/
structure Database.Sound (b : Binding) (db : Database) : Prop where
  merchants : Table.Keyed b.merchants.key db.merchants.rows ∧ ∀ r ∈ db.merchants.rows, b.merchants.checked r = true
  publishers : Table.Keyed b.publishers.key db.publishers.rows ∧
    ∀ r ∈ db.publishers.rows, b.publishers.checked r = true
  products : Table.Keyed b.products.key db.products.rows ∧ ∀ r ∈ db.products.rows, b.products.checked r = true
  unstaged : db.merchants.staging = none ∧ db.publishers.staging = none ∧ db.products.staging = none

structure Inv (b : Binding) (start : Database) (w : World) : Prop where
  kept : w.db.Kept b start w.dirs
  calls : ∀ call ∈ w.calls, ∀ op ∈ call.left, ∀ q ∈ op.queries, q.From b w.dirs

section Tables

variable {b : Binding} {start : Database} {w w' : World}

theorem Query.From.mono {dirs dirs' : List SeedDir} (h : dirs ⊆ dirs') {q : Query} (hq : q.From b dirs) :
    q.From b dirs' := by
  cases q with
  | merchants st => exact Statement.From.mono (List.map_subset _ h) hq
  | publishers st => exact Statement.From.mono (List.map_subset _ h) hq
  | products st => exact Statement.From.mono (List.map_subset _ h) hq

theorem Database.Kept.mono {dirs dirs' : List SeedDir} (h : dirs ⊆ dirs') {db : Database} (hdb : db.Kept b start dirs) :
    db.Kept b start dirs' :=
  ⟨hdb.merchants.mono (List.map_subset _ h), hdb.publishers.mono (List.map_subset _ h),
    hdb.products.mono (List.map_subset _ h)⟩

theorem Database.Kept.exec {dirs : List SeedDir} {db db' : Database} (hdb : db.Kept b start dirs) {q : Query}
    (hq : q.From b dirs) (h : Reference.exec b db q = .ok db') : db'.Kept b start dirs := by
  cases q with
  | merchants st =>
    obtain ⟨s, hs, rfl⟩ := Fallible.map_eq_ok.mp h
    exact ⟨hdb.merchants.exec hq hs, hdb.publishers, hdb.products⟩
  | publishers st =>
    obtain ⟨s, hs, rfl⟩ := Fallible.map_eq_ok.mp h
    exact ⟨hdb.merchants, hdb.publishers.exec hq hs, hdb.products⟩
  | products st =>
    obtain ⟨s, hs, rfl⟩ := Fallible.map_eq_ok.mp h
    exact ⟨hdb.merchants, hdb.publishers, hdb.products.exec hq hs⟩

/-- What a failed call has left is part of what it had left. -/
theorem queries_fails {call : Call} {op : Op} {q : Query} (hop : op ∈ call.fails.left) (hq : q ∈ op.queries) :
    ∃ op ∈ call.left, q ∈ op.queries := by
  obtain ⟨left, failed⟩ := call
  match left with
  | [] => cases hop
  | .deferred st :: left => exact ⟨op, List.mem_cons_of_mem _ hop, hq⟩
  | .send st deferred :: left =>
    obtain ⟨st', hst', rfl⟩ := List.mem_map.mp hop
    have hq : q ∈ [st'] := hq
    obtain rfl := List.mem_singleton.mp hq
    exact ⟨.send st deferred, List.mem_cons_self, List.mem_cons_of_mem _ hst'⟩

/-- The next statement of a call is one of its own. -/
theorem next_cases {db db' : Database} {call call' : Call} (h : call.next b db = some (db', call')) :
    (db' = db ∧ call' = call.fails) ∨ ∃ op left, call.left = op :: left ∧ call' = { call with left } ∧
      ∃ q ∈ op.queries, exec b db q = .ok db' := by
  obtain ⟨left, failed⟩ := call
  match left with
  | [] => cases h
  | .send st deferred :: left =>
    simp only [Call.next] at h
    split at h
    · obtain ⟨rfl, rfl⟩ := Prod.mk.inj (Option.some.inj h)
      exact Or.inl ⟨rfl, rfl⟩
    · rename_i db'' hexec
      obtain ⟨rfl, rfl⟩ := Prod.mk.inj (Option.some.inj h)
      exact Or.inr ⟨_, left, rfl, rfl, st, List.mem_cons_self, hexec⟩
  | .deferred st :: left =>
    simp only [Call.next] at h
    split at h
    · obtain ⟨rfl, rfl⟩ := Prod.mk.inj (Option.some.inj h)
      exact Or.inl ⟨rfl, rfl⟩
    · rename_i db'' hexec
      obtain ⟨rfl, rfl⟩ := Prod.mk.inj (Option.some.inj h)
      exact Or.inr ⟨_, left, rfl, rfl, st, List.mem_cons_self, hexec⟩

/-- The statements of `copyCSVUpsert` copy the file and nothing else. -/
theorem from_copyCSVUpsert {ρ : Type} (on : Statement ρ → Query) {staged : Except StageError (List ρ)}
    {dirs : List SeedDir} (hcopy : (on (.copy staged)).From b dirs) (hclear : (on .clear).From b dirs)
    (hcreate : (on .create).From b dirs) (hupsert : (on .upsert).From b dirs) :
    ∀ op ∈ copyCSVUpsert on staged, ∀ q ∈ op.queries, q.From b dirs := by
  simp [copyCSVUpsert, Op.queries, hcopy, hclear, hcreate, hupsert]

theorem from_copy {ρ : Type} {t : Target ρ} {files : List (Option Bytes)} {file : Option Bytes} (h : file ∈ files) :
    Statement.From t files (.copy (t.stage file)) := by
  cases hs : t.stage file with
  | error e => trivial
  | ok rows => exact ⟨file, h, hs⟩

theorem from_loadReference {dirs : List SeedDir} {dir : SeedDir} (h : dir ∈ dirs) :
    ∀ op ∈ loadReference b dir, ∀ q ∈ op.queries, q.From b dirs := by
  intro op hop
  rw [loadReference, List.mem_append, List.mem_append] at hop
  rcases hop with (hop | hop) | hop
  · have hcopy := from_copy (t := b.merchants) (List.mem_map_of_mem (f := (·.merchants)) h)
    exact from_copyCSVUpsert .merchants hcopy trivial trivial trivial op hop
  · have hcopy := from_copy (t := b.publishers) (List.mem_map_of_mem (f := (·.publishers)) h)
    exact from_copyCSVUpsert .publishers hcopy trivial trivial trivial op hop
  · have hcopy := from_copy (t := b.products) (List.mem_map_of_mem (f := (·.products)) h)
    exact from_copyCSVUpsert .products hcopy trivial trivial trivial op hop

/-- A call goes on with what it had left. -/
theorem Inv.set (h : Inv b start w) {c : ℕ} {call : Call} {db : Database} (hdb : db.Kept b start w.dirs)
    (hcall : ∀ op ∈ call.left, ∀ q ∈ op.queries, q.From b w.dirs) :
    Inv b start { w with db, calls := w.calls.set c call } := by
  refine ⟨hdb, fun call' hcall' => ?_⟩
  rcases List.mem_or_eq_of_mem_set hcall' with hcall' | rfl
  · exact h.calls call' hcall'
  · exact hcall

theorem inv_step (h : Inv b start w) {a : Action} (hs : step b w a = some w') : Inv b start w' := by
  cases a with
  | load dir =>
    obtain rfl := Option.some.inj hs
    have hsub : w.dirs ⊆ w.dirs ++ [dir] := List.subset_append_left _ _
    refine ⟨h.kept.mono hsub, fun call hcall op hop q hq => ?_⟩
    rcases List.mem_append.mp hcall with hcall | hcall
    · exact (h.calls call hcall op hop q hq).mono hsub
    · rw [List.mem_singleton.mp hcall] at hop
      exact from_loadReference (List.mem_append_right _ List.mem_cons_self) op hop q hq
  | statement c =>
    obtain ⟨call, hcall, hs⟩ := Option.bind_eq_some_iff.mp hs
    obtain ⟨⟨db, call'⟩, hnext, hs⟩ := Option.bind_eq_some_iff.mp hs
    obtain rfl := Option.some.inj hs
    have hown := h.calls call (List.mem_of_getElem? hcall)
    rcases next_cases hnext with ⟨rfl, rfl⟩ | ⟨op, left, hleft, rfl, q, hq, hexec⟩
    · refine h.set h.kept fun op hop q hq => ?_
      obtain ⟨op', hop', hq'⟩ := queries_fails hop hq
      exact hown op' hop' q hq'
    · refine h.set (h.kept.exec (hown op (hleft ▸ List.mem_cons_self) q hq) hexec) fun op' hop' => ?_
      exact hown op' (hleft ▸ List.mem_cons_of_mem _ hop')
  | fail c =>
    obtain ⟨call, hcall, hs⟩ := Option.bind_eq_some_iff.mp hs
    obtain rfl := Option.some.inj hs
    refine h.set h.kept fun op hop q hq => ?_
    obtain ⟨op', hop', hq'⟩ := queries_fails hop hq
    exact h.calls call (List.mem_of_getElem? hcall) op' hop' q hq'
  | cut c =>
    obtain ⟨call, -, hs⟩ := Option.bind_eq_some_iff.mp hs
    obtain rfl := Option.some.inj hs
    exact h.set h.kept (by simp)

end Tables

/-- **Whatever loads are cut off, fail or run at the same time, the tables stay tables**: keys stay keys and none of
them goes, the constraints hold, and no row is made up, neither there nor among the rows that stay staged. -/
theorem tables_kept {b : Binding} {db : Database} (hdb : db.Sound b) {as : List Action} {w : World}
    (h : run b ⟨db, [], []⟩ as = some w) : w.db.Kept b db w.dirs := by
  have hstart : Inv b db ⟨db, [], []⟩ := by
    obtain ⟨hm, hp, hq⟩ := hdb.unstaged
    refine ⟨⟨?_, ?_, ?_⟩, by simp⟩
    · exact ⟨hdb.merchants.1, fun r hr => List.mem_map_of_mem hr, hdb.merchants.2, fun r hr => Or.inl hr, by simp [hm]⟩
    · exact ⟨hdb.publishers.1, fun r hr => List.mem_map_of_mem hr, hdb.publishers.2, fun r hr => Or.inl hr,
        by simp [hp]⟩
    · exact ⟨hdb.products.1, fun r hr => List.mem_map_of_mem hr, hdb.products.2, fun r hr => Or.inl hr, by simp [hq]⟩
  exact (Runs.run_invariant (fun _ _ _ hi hs => inv_step hi hs) hstart h).kept

/-! ## A load by itself -/

/-- What a file makes of a table, and whether it is taken. -/
def Slot.load {ρ : Type} (t : Target ρ) (s : Slot ρ) (file : Option Bytes) : Slot ρ × Bool :=
  match t.stage file with
  | .error _ => (⟨s.rows, none⟩, false)
  | .ok new =>
    if new.all t.checked ∧ (new.map t.key).Nodup then (⟨Table.upsert t.key new s.rows, none⟩, true)
    else (⟨s.rows, none⟩, false)

/-- What a seed directory makes of the tables, one after the other up to the first that is not taken. -/
def Database.load (b : Binding) (db : Database) (dir : SeedDir) : Database × Bool :=
  let (merchants, taken) := db.merchants.load b.merchants dir.merchants
  if !taken then ({ db with merchants }, false)
  else
    let (publishers, taken) := db.publishers.load b.publishers dir.publishers
    if !taken then ({ db with merchants, publishers }, false)
    else
      let (products, taken) := db.products.load b.products dir.products
      (⟨merchants, publishers, products⟩, taken)

section Alone

variable {b : Binding} {db db' : Database} {st : Query} {later : Option Query} {left : List Op} {failed : Bool}

/-- The next statement of a call, if it is the only one. -/
def Next (b : Binding) (s s' : Database × Call) : Prop := s.2.next b s.1 = some s'

theorem next_send (h : exec b db st = .ok db') :
    Next b (db, ⟨.send st later :: left, failed⟩) (db', ⟨left, failed⟩) := by
  simp only [Next, Call.next, h]

theorem next_refused {e : SqlError} (h : exec b db st = .error e) :
    Next b (db, ⟨.send st later :: left, failed⟩) (db, ⟨later.toList.map .deferred, true⟩) := by
  simp only [Next, Call.next, h, Call.fails]

theorem next_deferred (h : exec b db st = .ok db') :
    Next b (db, ⟨.deferred st :: left, failed⟩) (db', ⟨left, failed⟩) := by
  simp only [Next, Call.next, h]

/-- **`copyCSVUpsert` by itself**, on one of the tables. -/
theorem leads_copyCSVUpsert {ρ : Type} (t : Target ρ) (on : Statement ρ → Query) (get : Database → Slot ρ)
    (put : Database → Slot ρ → Database)
    (hexec : ∀ db st, exec b db (on st) = ((get db).exec t st).map (put db)) (hget : ∀ db s, get (put db s) = s)
    (hput : ∀ db s s', put (put db s) s' = put db s') (db : Database) (file : Option Bytes) (left : List Op) :
    Relation.ReflTransGen (Next b) (db, ⟨copyCSVUpsert on (t.stage file) ++ left, false⟩)
      (put db ((get db).load t file).1, if ((get db).load t file).2 then ⟨left, false⟩ else ⟨[], true⟩) := by
  have hclear : ∀ s, exec b (put db s) (on .clear) = .ok (put db ⟨s.rows, none⟩) := fun s => by
    rw [hexec, hget, Slot.exec, Except.map, hput]
  have hfirst : exec b db (on .clear) = .ok (put db ⟨(get db).rows, none⟩) := by
    rw [hexec, Slot.exec, Except.map]
  have hcreate : exec b (put db ⟨(get db).rows, none⟩) (on .create) = .ok (put db ⟨(get db).rows, some []⟩) := by
    simp only [hexec, hget, Slot.exec, Option.isSome_none, Bool.false_eq_true, if_false, Except.map, hput]
  refine .head (next_send hfirst) (.head (next_send hcreate) ?_)
  have hback : ∀ new, Relation.ReflTransGen (Next b)
      (put db ⟨(get db).rows, some new⟩, ⟨[.deferred (on .clear)], true⟩)
      (put db ⟨(get db).rows, none⟩, ⟨[], true⟩) := fun new => .single (next_deferred (hclear _))
  cases hstage : t.stage file with
  | error e =>
    have hcopy : exec b (put db ⟨(get db).rows, some []⟩) (on (.copy (.error e))) = .error (.stage e) := by
      rw [hexec, Slot.exec, Except.map]
    simp only [Slot.load, hstage]
    exact .head (next_refused hcopy) (hback [])
  | ok new =>
    have hcopy : exec b (put db ⟨(get db).rows, some []⟩) (on (.copy (.ok new)))
        = .ok (put db ⟨(get db).rows, some new⟩) := by
      simp only [hexec, hget, Slot.exec, Except.map, hput, List.nil_append]
    refine .head (next_send hcopy) ?_
    by_cases htaken : new.all t.checked ∧ (new.map t.key).Nodup
    · have hupsert : exec b (put db ⟨(get db).rows, some new⟩) (on .upsert)
          = .ok (put db ⟨Table.upsert t.key new (get db).rows, some new⟩) := by
        simp [hexec, hget, Slot.exec, htaken, Except.map, hput]
      simp only [Slot.load, hstage, if_pos htaken]
      exact .head (next_send hupsert) (.single (next_deferred (hclear _)))
    · have hupsert : ∃ e, exec b (put db ⟨(get db).rows, some new⟩) (on .upsert) = .error e := by
        rw [hexec, hget, Slot.exec]
        by_cases hchecked : new.all t.checked = true
        · have hkeyed : ¬(new.map t.key).Nodup := fun h => htaken ⟨hchecked, h⟩
          exact ⟨.cardinalityViolation, by simp [hchecked, hkeyed, Except.map]⟩
        · exact ⟨.checkViolation, by simp [hchecked, Except.map]⟩
      obtain ⟨e, hupsert⟩ := hupsert
      simp only [Slot.load, hstage, if_neg htaken]
      exact .head (next_refused hupsert) (hback new)

/-- **`LoadReference` by itself.** -/
theorem leads_loadReference (b : Binding) (db : Database) (dir : SeedDir) :
    Relation.ReflTransGen (Next b) (db, ⟨loadReference b dir, false⟩)
      ((db.load b dir).1, ⟨[], !(db.load b dir).2⟩) := by
  have hmerchants := leads_copyCSVUpsert (b := b) b.merchants .merchants (·.merchants)
    (fun db merchants => { db with merchants }) (fun _ _ => rfl) (fun _ _ => rfl) (fun _ _ _ => rfl) db dir.merchants
    (copyCSVUpsert .publishers (b.publishers.stage dir.publishers) ++
      copyCSVUpsert .products (b.products.stage dir.products))
  rw [loadReference, List.append_assoc, Database.load]
  cases hm : db.merchants.load b.merchants dir.merchants with
  | mk merchants taken =>
    rw [hm] at hmerchants
    cases taken with
    | false => exact hmerchants
    | true =>
      refine hmerchants.trans ?_
      have hpublishers := leads_copyCSVUpsert (b := b) b.publishers .publishers (·.publishers)
        (fun db publishers => { db with publishers }) (fun _ _ => rfl) (fun _ _ => rfl) (fun _ _ _ => rfl)
        { db with merchants } dir.publishers (copyCSVUpsert .products (b.products.stage dir.products))
      simp only [Bool.not_true, Bool.false_eq_true, if_false, if_true]
      cases hp : db.publishers.load b.publishers dir.publishers with
      | mk publishers taken =>
        rw [hp] at hpublishers
        cases taken with
        | false => exact hpublishers
        | true =>
          refine hpublishers.trans ?_
          have hproducts := leads_copyCSVUpsert (b := b) b.products .products (·.products)
            (fun db products => { db with products }) (fun _ _ => rfl) (fun _ _ => rfl) (fun _ _ _ => rfl)
            { db with merchants, publishers } dir.products []
          simp only [Bool.not_true, Bool.false_eq_true, if_false, if_true]
          cases hq : db.products.load b.products dir.products with
          | mk products taken =>
            rw [hq, List.append_nil] at hproducts
            cases taken <;> exact hproducts

/-- The statements of one call, one after the other. -/
theorem run_of_leads {s s' : Database × Call} (h : Relation.ReflTransGen (Next b) s s') {w : World} {c : ℕ}
    (hdb : w.db = s.1) (hcall : w.calls[c]? = some s.2) :
    ∃ n, run b w (List.replicate n (.statement c)) = some { w with db := s'.1, calls := w.calls.set c s'.2 } := by
  induction h using Relation.ReflTransGen.head_induction_on generalizing w with
  | refl =>
    refine ⟨0, ?_⟩
    have hself : w.calls.set c s'.2 = w.calls := by
      obtain ⟨hlt, heq⟩ := List.getElem?_eq_some_iff.mp hcall
      rw [← heq, List.set_getElem_self]
    rw [hself, ← hdb]
    rfl
  | @head s u hnext hrest ih =>
    have hlt : c < w.calls.length := (List.getElem?_eq_some_iff.mp hcall).1
    have hstep : step b w (.statement c) = some { w with db := u.1, calls := w.calls.set c u.2 } := by
      have hnext : s.2.next b w.db = some u := hdb.symm ▸ hnext
      simp only [step, hcall, Option.bind_eq_bind, Option.bind_some, hnext]
      rfl
    obtain ⟨n, hn⟩ := ih (w := { w with db := u.1, calls := w.calls.set c u.2 }) rfl (by simp [hlt])
    refine ⟨n + 1, ?_⟩
    rw [List.replicate_succ, run, Runs.run_cons_of hstep]
    refine hn.trans ?_
    simp

/-- **A load that runs by itself** does to the tables what `Database.load` says, from whatever state other loads have
left the staging tables in, and says whether it was taken. -/
theorem run_load_alone (b : Binding) (w : World) (dir : SeedDir) :
    ∃ n, run b w (.load dir :: List.replicate n (.statement w.calls.length)) = some
      { db := (w.db.load b dir).1
        calls := w.calls ++ [⟨[], !(w.db.load b dir).2⟩]
        dirs := w.dirs ++ [dir] } := by
  let u : World := { w with calls := w.calls ++ [⟨loadReference b dir, false⟩], dirs := w.dirs ++ [dir] }
  have hstart : step b w (.load dir) = some u := rfl
  have hcall : u.calls[w.calls.length]? = some ⟨loadReference b dir, false⟩ := by simp [u]
  obtain ⟨n, hn⟩ := run_of_leads (leads_loadReference b w.db dir) (w := u) rfl hcall
  refine ⟨n, ?_⟩
  rw [run, Runs.run_cons_of hstart]
  refine hn.trans ?_
  simp [u]

end Alone

/-! ## Loads that get in each other's way -/

namespace Sample

def bindMerchant : List Value → Option Merchant
  | [.text id, .text name, .int rate, .int hold, .int reversal] => some ⟨id, name, rate, hold, reversal⟩
  | _ => none

def bindPublisher : List Value → Option Publisher
  | [.text id, .text name, .text currency] => some ⟨id, name, currency⟩
  | _ => none

def bindProduct : List Value → Option Product
  | [.text id, .text title, .text brand, .text category, .text description, .text attributes] =>
    (Json.parse (Utf8.text attributes)).map fun v => ⟨id, title, brand, category, description, v⟩
  | _ => none

/-- A `COPY` that does not look at the values. -/
def binding : Binding := ⟨bindMerchant, bindPublisher, bindProduct⟩

def merchant (id name : String) (rate : ℤ) : Merchant := ⟨Utf8.str id, Utf8.str name, rate, 30, 60⟩

/-- One merchant. -/
def database : Database where
  merchants := ⟨[merchant "mer_000000" "Summit Goods" 500], none⟩
  publishers := ⟨[], none⟩
  products := ⟨[], none⟩

theorem sound : database.Sound binding where
  merchants := ⟨List.nodup_singleton _, by decide⟩
  publishers := ⟨List.nodup_nil, by simp [database]⟩
  products := ⟨List.nodup_nil, by simp [database]⟩
  unstaged := ⟨rfl, rfl, rfl⟩

/-- The merchant at another rate, and a second one. -/
def file : Bytes :=
  Utf8.str "merchant_id,name,default_commission_bps,hold_period_days,reversal_window_days
mer_000000,Summit Goods,700,30,60
mer_000001,Harbor Market,900,30,60
"

def dir : SeedDir := ⟨some file, none, none⟩

/-- The rows of the file. -/
def given : List Merchant := [merchant "mer_000000" "Summit Goods" 700, merchant "mer_000001" "Harbor Market" 900]

/-- The second load drops what the first has staged, and the first merges what the second has staged; the second then
is cut off. -/
def actions : List Action :=
  [.load dir, .statement 0, .statement 0, .statement 0, .load dir, .statement 1, .statement 1, .statement 1,
    .statement 0, .cut 1]

theorem run_actions : (run binding ⟨database, [], []⟩ actions).map (fun w =>
    (w.db.merchants.rows, w.db.merchants.staging)) = some (given, some given) := by
  decide +kernel

end Sample

/-- The merchants are merged, and the rows that the load cut off has staged stay behind. -/
theorem tables_kept_sample : ∃ w, run Sample.binding ⟨Sample.database, [], []⟩ Sample.actions = some w ∧
    w.db.merchants.rows = Sample.given ∧ w.db.merchants.staging = some Sample.given ∧
    w.db.Kept Sample.binding Sample.database w.dirs := by
  obtain ⟨w, hrun, hrows⟩ := Option.map_eq_some_iff.mp Sample.run_actions
  exact ⟨w, hrun, congrArg Prod.fst hrows, congrArg Prod.snd hrows, tables_kept Sample.sound hrun⟩

end Ingest.Reference
