import AgenticAttribution.Ingest.SeedFiles
import AgenticAttribution.Lib.Script
import AgenticAttribution.Lib.Table
import Mathlib.Data.List.FinRange
import Mathlib.Logic.Function.Basic

/-!
# Ingest.Partitions — the statements that replace the listings

`listings` is partitioned by the hash of the merchant into eight tables.  A load stages a file, builds a replacement
for each of the eight from what it staged, and swaps them in by detaching, renaming and attaching tables in one
transaction.  Here are the tables, what each statement does to them, and the two lists of statements.

Names matter: a table that is renamed keeps its indexes under the names they have, and no two indexes of the database
share a name.
-/

namespace Ingest.Partitions

open Fallible

/-! ## Tables -/

/-- `ListingPartitions`, the modulus of the partitioning. -/
abbrev ListingPartitions : ℕ := 8

/-- A row of `listings_staging`, and of `listings` but for the time of its update. -/
structure Staged where
  listingID : Bytes
  productID : Bytes
  merchantID : Bytes
  merchantSKU : Bytes
  listingTitle : Bytes
  priceCents : ℤ
  currency : Bytes
  inStock : Bool
  commissionBps : ℤ
  deepLinkURL : Bytes
  deriving DecidableEq

/-- The `CHECK` constraints of `listings`. -/
def Staged.checked (r : Staged) : Bool := 0 ≤ r.priceCents && 0 ≤ r.commissionBps && r.commissionBps ≤ 10000

def Staged.primaryKey (r : Staged) : Bytes × Bytes := (r.listingID, r.merchantID)

def Staged.skuKey (r : Staged) : Bytes × Bytes := (r.merchantID, r.merchantSKU)

inductive TableName where
  /-- `listings_staging`. -/
  | staging
  /-- `listings_p%d`. -/
  | live (i : Fin ListingPartitions)
  /-- `listings_p%d_next`. -/
  | next (i : Fin ListingPartitions)
  /-- `listings_p%d_prev`. -/
  | retired (i : Fin ListingPartitions)
  deriving DecidableEq

def tableNames : List TableName :=
  .staging :: (List.finRange ListingPartitions).flatMap fun i => [.live i, .next i, .retired i]

inductive IndexKind where
  | pkey
  | skuKey
  | productIdx
  | updatedIdx
  deriving DecidableEq

/-- `listings_p%d_%s_pkey` and so on, or without a generation the name that the migrations gave the index. -/
structure IndexName where
  partition : Fin ListingPartitions
  generation : Option Int64
  kind : IndexKind
  deriving DecidableEq

/-- The columns that an index keeps unique. -/
def IndexKind.key : IndexKind → Option (Staged → Bytes × Bytes)
  | .pkey => some Staged.primaryKey
  | .skuKey => some Staged.skuKey
  | .productIdx | .updatedIdx => none

/-- A table, and the bucket of `listings` whose partition it is. -/
structure Relation where
  rows : List Staged := []
  indexes : List IndexName := []
  partition : Option (Fin ListingPartitions) := none

abbrev Database := TableName → Option Relation

/-- What a reader of `listings` sees. -/
def contents (db : Database) : List Staged :=
  tableNames.flatMap fun n =>
    match db n with
    | some r => if r.partition.isSome then r.rows else []
    | none => []

def used (db : Database) (ix : IndexName) : Bool := tableNames.any fun n => (db n).any fun r => ix ∈ r.indexes

def attached (db : Database) (i : Fin ListingPartitions) : Bool :=
  tableNames.any fun n => (db n).any fun r => r.partition = some i

/-! ## Statements -/

/-- What the statements find around them: the bucket that `satisfies_hash_partition` puts a merchant in, the products
and merchants there are, and what `COPY` makes of a row. -/
structure Env where
  bucket : Bytes → Fin ListingPartitions
  products : List Bytes
  merchants : List Bytes
  bind : List Value → Option Staged

variable (env : Env)

def Env.inBucket (i : Fin ListingPartitions) (r : Staged) : Bool := env.bucket r.merchantID = i

/-- The row refers to a product and a merchant. -/
def Env.known (r : Staged) : Bool := r.productID ∈ env.products && r.merchantID ∈ env.merchants

inductive StageError where
  | open
  | source (e : CopyError)
  | bind
  deriving DecidableEq

/-- The rows that a seed file stages. -/
def Env.stage (file : Option Bytes) : Except StageError (List Staged) :=
  match file with
  | none => .error .open
  | some file =>
    match copyCSVDirect listingCopyColumns file with
    | .error e => .error (.source e)
    | .ok rows =>
      match rows.mapM env.bind with
      | none => .error .bind
      | some rows => .ok rows

inductive SqlError where
  | stage (e : StageError)
  | undefinedTable
  | duplicateName
  | checkViolation
  | uniqueViolation
  | foreignKeyViolation
  | partitionViolation
  | notAPartition
  | alreadyAPartition
  | overlap
  /-- `validateStaging` refuses. -/
  | empty
  | miscount
  | orphaned
  deriving DecidableEq

inductive Statement where
  /-- `DROP TABLE IF EXISTS`. -/
  | drop (n : TableName)
  /-- `createStagingListings`. -/
  | createStaging
  /-- `copyCSVDirect` into the staging table. -/
  | copy (staged : Except StageError (List Staged))
  /-- The count of `validateStaging`, with what `COPY` reported. -/
  | count (expected : ℕ)
  /-- The orphans of `validateStaging`. -/
  | orphans
  /-- `CREATE TABLE … (LIKE listings INCLUDING DEFAULTS INCLUDING CONSTRAINTS)`. -/
  | createLike (n : TableName)
  /-- `INSERT INTO … SELECT … WHERE satisfies_hash_partition(…)`. -/
  | insert (n : TableName) (i : Fin ListingPartitions)
  /-- `ADD CONSTRAINT … PRIMARY KEY` and `CREATE [UNIQUE] INDEX`. -/
  | index (n : TableName) (ix : IndexName)
  | detach (n : TableName)
  | rename (n m : TableName)
  | attach (n : TableName) (i : Fin ListingPartitions)

/-- Changes a table that has to be there. -/
def alter (db : Database) (n : TableName) (f : Relation → Except SqlError Relation) : Except SqlError Database :=
  match db n with
  | none => .error .undefinedTable
  | some r => (f r).map fun r => Function.update db n (some r)

/-- The rows have no two of one key. -/
def unique (key : Option (Staged → Bytes × Bytes)) (rows : List Staged) : Bool :=
  match key with
  | none => true
  | some key => (rows.map key).Nodup

def exec (db : Database) : Statement → Except SqlError Database
  | .drop n => .ok (Function.update db n none)
  | .createStaging => .ok (if (db .staging).isSome then db else Function.update db .staging (some {}))
  | .copy (.error e) => .error (.stage e)
  | .copy (.ok rows) => alter db .staging fun r => .ok { r with rows := r.rows ++ rows }
  | .count expected =>
    match db .staging with
    | none => .error .undefinedTable
    | some r =>
      if r.rows.length = 0 then .error .empty else if r.rows.length ≠ expected then .error .miscount else .ok db
  | .orphans =>
    match db .staging with
    | none => .error .undefinedTable
    | some r => if r.rows.all env.known then .ok db else .error .orphaned
  | .createLike n => if (db n).isSome then .error .duplicateName else .ok (Function.update db n (some {}))
  | .insert n i =>
    match db .staging with
    | none => .error .undefinedTable
    | some staging =>
      let rows := staging.rows.filter (env.inBucket i)
      alter db n fun r =>
        if rows.all Staged.checked then .ok { r with rows := r.rows ++ rows } else .error .checkViolation
  | .index n ix =>
    alter db n fun r =>
      if used db ix then .error .duplicateName
      else if unique ix.kind.key r.rows then .ok { r with indexes := r.indexes ++ [ix] }
      else .error .uniqueViolation
  | .detach n =>
    alter db n fun r => if r.partition.isSome then .ok { r with partition := none } else .error .notAPartition
  | .rename n m =>
    match db n with
    | none => .error .undefinedTable
    | some r =>
      if (db m).isSome then .error .duplicateName
      else .ok (Function.update (Function.update db n none) m (some r))
  -- the table brings the indexes along that `listings` has, so none is built
  | .attach n i =>
    alter db n fun r =>
      if r.partition.isSome then .error .alreadyAPartition
      else if attached db i then .error .overlap
      else if !r.rows.all (env.inBucket i) then .error .partitionViolation
      else if !r.rows.all env.known then .error .foreignKeyViolation
      else .ok { r with partition := some i }

/-! ## The lists of statements -/

def build (generation : Int64) (i : Fin ListingPartitions) : List Statement :=
  let ix kind : IndexName := ⟨i, some generation, kind⟩
  [.drop (.next i), .createLike (.next i), .insert (.next i) i, .index (.next i) (ix .pkey),
    .index (.next i) (ix .skuKey), .index (.next i) (ix .productIdx), .index (.next i) (ix .updatedIdx)]

def buildReplacementPartitions (generation : Int64) : List Statement :=
  (List.finRange ListingPartitions).flatMap (build generation)

def validateStaging (expected : ℕ) : List Statement := [.count expected, .orphans]

/-- The statements of `LoadListings` up to the swap, for a file that stages these rows. -/
def prepare (staged : Except StageError (List Staged)) (generation : Int64) : List Statement :=
  [.drop .staging, .createStaging, .copy staged] ++
    match staged with
    | .error _ => []
    | .ok rows => validateStaging rows.length ++ buildReplacementPartitions generation

def swap (i : Fin ListingPartitions) : List Statement :=
  [.drop (.retired i), .detach (.live i), .rename (.live i) (.retired i), .rename (.next i) (.live i),
    .attach (.live i) i]

def swapPartitions : List Statement := (List.finRange ListingPartitions).flatMap swap

def dropRetiredPartitions : List Statement := (List.finRange ListingPartitions).map fun i => .drop (.retired i)

/-! ## What the statements do -/

section Statements

variable {env} {db t : Database} {n : TableName} {r : Relation} {ix : IndexName}

theorem mem_tableNames (n : TableName) : n ∈ tableNames := by
  cases n <;> simp [tableNames]

theorem any_iff {p : Relation → Bool} :
    (tableNames.any fun n => (db n).any p) = true ↔ ∃ n r, db n = some r ∧ p r = true := by
  rw [List.any_eq_true]
  constructor
  · rintro ⟨n, -, h⟩
    cases hn : db n with
    | none =>
      rw [hn] at h
      exact nomatch h
    | some r =>
      rw [hn] at h
      exact ⟨n, r, hn, h⟩
  · rintro ⟨n, r, hr, hp⟩
    refine ⟨n, mem_tableNames n, ?_⟩
    rw [hr]
    exact hp

theorem used_iff : used db ix = true ↔ ∃ n r, db n = some r ∧ ix ∈ r.indexes := by
  simp only [used, any_iff, decide_eq_true_eq]

theorem attached_iff {i : Fin ListingPartitions} :
    attached db i = true ↔ ∃ n r, db n = some r ∧ r.partition = some i := by
  simp only [attached, any_iff, decide_eq_true_eq]

theorem alter_eq_ok {f : Relation → Except SqlError Relation} :
    alter db n f = .ok t ↔ ∃ r r', db n = some r ∧ f r = .ok r' ∧ t = Function.update db n (some r') := by
  cases h : db n with
  | none => simp [alter, h]
  | some r =>
    simp only [alter, h, map_eq_ok, Option.some.injEq]
    constructor
    · rintro ⟨r', hr', rfl⟩
      exact ⟨r, r', rfl, hr', rfl⟩
    · rintro ⟨r, r', rfl, hr', rfl⟩
      exact ⟨r', hr', rfl⟩

theorem alter_update_eq_ok {f : Relation → Except SqlError Relation} :
    alter (Function.update db n (some r)) n f = .ok t ↔ ∃ r', f r = .ok r' ∧ t = Function.update db n (some r') := by
  rw [alter, Function.update_self]
  simp only [map_eq_ok, Function.update_idem, eq_comm]

/-- The names in use are those of the table and those of the others. -/
theorem used_update : used (Function.update db n (some r)) ix = true
    ↔ ix ∈ r.indexes ∨ used (Function.update db n none) ix = true := by
  rw [used_iff, used_iff]
  constructor
  · rintro ⟨m, q, hq, hix⟩
    by_cases hm : m = n
    · subst hm
      rw [Function.update_self, Option.some.injEq] at hq
      exact Or.inl (hq ▸ hix)
    · rw [Function.update_of_ne hm] at hq
      exact Or.inr ⟨m, q, by rwa [Function.update_of_ne hm], hix⟩
  · rintro (hix | ⟨m, q, hq, hix⟩)
    · exact ⟨n, r, Function.update_self n _ db, hix⟩
    · have hm : m ≠ n := by
        rintro rfl
        rw [Function.update_self] at hq
        exact nomatch hq
      rw [Function.update_of_ne hm] at hq
      exact ⟨m, q, by rwa [Function.update_of_ne hm], hix⟩

theorem exec_createLike : exec env (Function.update db n none) (.createLike n)
    = .ok (Function.update db n (some {})) := by
  simp only [exec, Function.update_self, Function.update_idem, Option.isSome_none, Bool.false_eq_true, if_false]

theorem exec_insert_eq_ok {i : Fin ListingPartitions} (hn : n ≠ .staging) :
    exec env (Function.update db n (some r)) (.insert n i) = .ok t ↔
      ∃ staging, db .staging = some staging ∧ (staging.rows.filter (env.inBucket i)).all Staged.checked = true ∧
        t = Function.update db n (some { r with rows := r.rows ++ staging.rows.filter (env.inBucket i) }) := by
  cases h : db .staging with
  | none => simp [exec, Function.update_of_ne hn.symm, h]
  | some staging =>
    simp only [exec, Function.update_of_ne hn.symm, h, alter_update_eq_ok, Option.some.injEq, exists_eq_left']
    by_cases hall : (staging.rows.filter (env.inBucket i)).all Staged.checked = true
    · simp [hall]
    · simp [hall]

theorem exec_index_eq_ok : exec env (Function.update db n (some r)) (.index n ix) = .ok t ↔
    used (Function.update db n none) ix = false ∧ ix ∉ r.indexes ∧ unique ix.kind.key r.rows = true ∧
      t = Function.update db n (some { r with indexes := r.indexes ++ [ix] }) := by
  simp only [exec, alter_update_eq_ok]
  by_cases hused : used (Function.update db n (some r)) ix = true
  · rw [if_pos hused]
    have hor := used_update.mp hused
    constructor
    · rintro ⟨r', h, -⟩
      exact nomatch h
    · rintro ⟨hnot, hix, -⟩
      rcases hor with hor | hor
      · exact absurd hor hix
      · exact absurd hor (hnot ▸ Bool.false_ne_true)
  · rw [if_neg hused]
    rw [used_update, not_or, Bool.not_eq_true] at hused
    by_cases huniq : unique ix.kind.key r.rows = true
    · simp [huniq, hused]
    · simp [huniq]

/-- The statement leaves the live tables alone. -/
def Statement.Offline : Statement → Prop
  | .drop n | .createLike n | .insert n _ | .index n _ => ∀ i, n ≠ .live i
  | .createStaging | .copy _ | .count _ | .orphans => True
  | .detach _ | .rename _ _ | .attach _ _ => False

/-- The index that a statement makes. -/
def Statement.creates : Statement → Option IndexName
  | .index _ ix => some ix
  | _ => none

/-- The statement replaces one table: by a new one, or by what it makes of the table there is, whose indexes it keeps
but for the one it makes, and which it leaves the partition it was unless it is about partitions. -/
structure Replaces (st : Statement) (db t : Database) (n : TableName) (o : Option Relation) : Prop where
  update : t = Function.update db n o
  offline : st.Offline → ∀ i, n ≠ .live i
  relation : ∀ r', o = some r' → r' = {} ∨ ∃ r, db n = some r ∧ (st.Offline → r'.partition = r.partition) ∧
    ∀ ix ∈ r'.indexes, ix ∈ r.indexes ∨ st.creates = some ix

theorem replaces_alter {st : Statement} {f : Relation → Except SqlError Relation} (h : alter db n f = .ok t)
    (hoff : st.Offline → ∀ i, n ≠ .live i)
    (hf : ∀ r r', f r = .ok r' → (st.Offline → r'.partition = r.partition) ∧
      ∀ ix ∈ r'.indexes, ix ∈ r.indexes ∨ st.creates = some ix) : ∃ n o, Replaces st db t n o := by
  obtain ⟨r, r', hr, hr', rfl⟩ := alter_eq_ok.mp h
  refine ⟨n, some r', rfl, hoff, fun q hq => Or.inr ⟨r, hr, ?_⟩⟩
  obtain rfl := Option.some.inj hq
  exact hf r r' hr'

theorem replaces_self (st : Statement) (db : Database) : ∃ n o, Replaces st db db n o :=
  ⟨.staging, db .staging, (Function.update_eq_self _ db).symm, fun _ => nofun,
    fun r hr => Or.inr ⟨r, hr, fun _ => rfl, fun _ => Or.inl⟩⟩

/-- **What a statement can do**: rename a table, or replace one. -/
theorem exec_cases {st : Statement} (h : exec env db st = .ok t) :
    (∃ n m r, st = .rename n m ∧ db n = some r ∧ t = Function.update (Function.update db n none) m (some r)) ∨
      ∃ n o, Replaces st db t n o := by
  cases st with
  | rename n m =>
    simp only [exec] at h
    split at h
    · exact nomatch h
    · rename_i r hr
      split_ifs at h
      cases h
      exact Or.inl ⟨n, m, r, rfl, hr, rfl⟩
  | drop n =>
    cases h
    exact Or.inr ⟨n, none, rfl, id, nofun⟩
  | createStaging =>
    right
    simp only [exec, Except.ok.injEq] at h
    subst h
    by_cases hsome : (db .staging).isSome
    · rw [if_pos hsome]
      exact replaces_self _ db
    · rw [if_neg hsome]
      exact ⟨.staging, some {}, rfl, fun _ => nofun, fun r hr => Or.inl (Option.some.inj hr).symm⟩
  | copy staged =>
    right
    cases staged with
    | error e => exact nomatch h
    | ok rows =>
      refine replaces_alter (n := .staging) h (fun _ => nofun) ?_
      rintro r r' ⟨⟩
      exact ⟨fun _ => rfl, fun _ => Or.inl⟩
  | count expected =>
    simp only [exec] at h
    split at h
    · exact nomatch h
    · split_ifs at h
      cases h
      exact Or.inr (replaces_self _ db)
  | orphans =>
    simp only [exec] at h
    split at h
    · exact nomatch h
    · split_ifs at h
      cases h
      exact Or.inr (replaces_self _ db)
  | createLike n =>
    simp only [exec] at h
    split_ifs at h
    cases h
    exact Or.inr ⟨n, some {}, rfl, id, fun r hr => Or.inl (Option.some.inj hr).symm⟩
  | insert n i =>
    simp only [exec] at h
    split at h
    · exact nomatch h
    · refine Or.inr (replaces_alter h id fun r r' hr' => ?_)
      split_ifs at hr'
      cases hr'
      exact ⟨fun _ => rfl, fun _ => Or.inl⟩
  | index n ix =>
    refine Or.inr (replaces_alter h id fun r r' hr' => ?_)
    split_ifs at hr'
    cases hr'
    refine ⟨fun _ => rfl, fun ix' hix' => ?_⟩
    rcases List.mem_append.mp hix' with hix' | hix'
    · exact Or.inl hix'
    · exact Or.inr (congrArg some (List.mem_singleton.mp hix').symm)
  | detach n =>
    refine Or.inr (replaces_alter h False.elim fun r r' hr' => ?_)
    split_ifs at hr'
    cases hr'
    exact ⟨False.elim, fun _ => Or.inl⟩
  | attach n i =>
    refine Or.inr (replaces_alter h False.elim fun r r' hr' => ?_)
    split_ifs at hr'
    cases hr'
    exact ⟨False.elim, fun _ => Or.inl⟩

theorem used_of_update_none (h : used (Function.update db n none) ix = true) : used db ix = true := by
  obtain ⟨m, r, hr, hix⟩ := used_iff.mp h
  by_cases hm : m = n
  · subst hm
    rw [Function.update_self] at hr
    exact nomatch hr
  · rw [Function.update_of_ne hm] at hr
    exact used_iff.mpr ⟨m, r, hr, hix⟩

/-- The names in use are those of before and that of the index that was made. -/
theorem exec_used {st : Statement} (h : exec env db st = .ok t) (hix : used t ix = true) :
    used db ix = true ∨ st.creates = some ix := by
  rcases exec_cases h with ⟨n, m, r, -, hr, rfl⟩ | ⟨n, o, hreplaces⟩
  · rcases used_update.mp hix with hmem | hused
    · exact Or.inl (used_iff.mpr ⟨n, r, hr, hmem⟩)
    · exact Or.inl (used_of_update_none (used_of_update_none hused))
  · rw [hreplaces.update] at hix
    cases o with
    | none => exact Or.inl (used_of_update_none hix)
    | some r' =>
      rcases used_update.mp hix with hmem | hused
      · rcases hreplaces.relation r' rfl with rfl | ⟨r, hr, -, hindexes⟩
        · exact absurd hmem List.not_mem_nil
        · exact (hindexes ix hmem).imp_left fun hold => used_iff.mpr ⟨n, r, hr, hold⟩
      · exact Or.inl (used_of_update_none hused)

/-- The names of the indexes of a replacement. -/
def stamped (generation : Int64) (i : Fin ListingPartitions) : List IndexName :=
  [.pkey, .skuKey, .productIdx, .updatedIdx].map fun kind => ⟨i, some generation, kind⟩

/-- The replacement of a bucket. -/
def replacement (env : Env) (generation : Int64) (i : Fin ListingPartitions) (rows : List Staged) : Relation :=
  ⟨rows.filter (env.inBucket i), stamped generation i, none⟩

/-- **A replacement is built** exactly if the staged rows of its bucket satisfy the constraints and none of its indexes
has a name that is in use. -/
theorem build_eq_ok {generation : Int64} {i : Fin ListingPartitions} :
    (build generation i).foldlM (exec env) db = .ok t ↔ ∃ staging, db .staging = some staging ∧
      (staging.rows.filter (env.inBucket i)).all Staged.checked = true ∧
      unique (some Staged.primaryKey) (staging.rows.filter (env.inBucket i)) = true ∧
      unique (some Staged.skuKey) (staging.rows.filter (env.inBucket i)) = true ∧
      (∀ kind, used (Function.update db (.next i) none) ⟨i, some generation, kind⟩ = false) ∧
      t = Function.update db (.next i) (some (replacement env generation i staging.rows)) := by
  have hdrop : exec env db (.drop (.next i)) = .ok (Function.update db (.next i) none) := rfl
  rw [build, List.foldlM_cons, hdrop, ok_bind, List.foldlM_cons, exec_createLike, ok_bind]
  simp only [foldlM_cons_eq_ok, foldlM_nil_eq_ok, exec_insert_eq_ok (show TableName.next i ≠ .staging from nofun)]
  constructor
  · rintro ⟨t₁, ⟨staging, hstaging, hchecked, rfl⟩, t₂, h₂, t₃, h₃, t₄, h₄, t₅, h₅, rfl⟩
    obtain ⟨hpkey, -, hprimary, rfl⟩ := exec_index_eq_ok.mp h₂
    obtain ⟨hsku, -, hunique, rfl⟩ := exec_index_eq_ok.mp h₃
    obtain ⟨hproduct, -, -, rfl⟩ := exec_index_eq_ok.mp h₄
    obtain ⟨hupdated, -, -, rfl⟩ := exec_index_eq_ok.mp h₅
    refine ⟨staging, hstaging, hchecked, hprimary, hunique, ?_, rfl⟩
    intro kind
    cases kind <;> assumption
  · rintro ⟨staging, hstaging, hchecked, hprimary, hunique, hfresh, rfl⟩
    refine ⟨_, ⟨staging, hstaging, hchecked, rfl⟩, _, exec_index_eq_ok.mpr ⟨hfresh .pkey, by simp, hprimary, rfl⟩,
      _, exec_index_eq_ok.mpr ⟨hfresh .skuKey, by simp, hunique, rfl⟩,
      _, exec_index_eq_ok.mpr ⟨hfresh .productIdx, by simp, rfl, rfl⟩,
      _, exec_index_eq_ok.mpr ⟨hfresh .updatedIdx, by simp, rfl, rfl⟩, rfl⟩

end Statements

/-! ## The live table -/

/-- Every bucket has its live table for a partition, and nothing else is one. -/
structure Partitioned (db : Database) : Prop where
  live : ∀ i, ∃ r, db (.live i) = some r ∧ r.partition = some i
  alone : ∀ n r i, db n = some r → r.partition = some i → n = .live i

/-- The live table holds these rows, each in the partition of its bucket. -/
structure Holds (env : Env) (rows : List Staged) (db : Database) : Prop extends Partitioned db where
  rows : ∀ i r, db (.live i) = some r → r.rows = rows.filter (env.inBucket i)

section Live

variable {env} {db t : Database} {rows : List Staged}

/-- **A reader sees the rows, each of them once.** -/
theorem contents_perm (h : Holds env rows db) : (contents db).Perm rows := by
  have hrows : ∀ i, (match db (.live i) with
      | some r => if r.partition.isSome then r.rows else []
      | none => []) = rows.filter (env.inBucket i) := by
    intro i
    obtain ⟨r, hr, hpartition⟩ := h.live i
    simp only [hr, hpartition, Option.isSome_some, if_true, h.rows i r hr]
  have hothers : ∀ n, (∀ i, n ≠ .live i) → (match db n with
      | some r => if r.partition.isSome then r.rows else []
      | none => []) = [] := by
    intro n hn
    cases hdb : db n with
    | none => rfl
    | some r =>
      cases hpartition : r.partition with
      | none => simp only [hpartition, Option.isSome_none, Bool.false_eq_true, if_false]
      | some i => exact absurd (h.alone n r i hdb hpartition) (hn i)
  have hcontents : contents db = (List.finRange ListingPartitions).flatMap fun i => rows.filter (env.inBucket i) := by
    rw [contents, tableNames, List.flatMap_cons, hothers .staging nofun, List.nil_append, List.flatMap_assoc]
    refine List.flatMap_congr fun i _ => ?_
    simp only [List.flatMap_cons, List.flatMap_nil, hrows, hothers (.next i) nofun, hothers (.retired i) nofun,
      List.append_nil]
  rw [hcontents]
  exact Table.flatMap_filter_perm (List.nodup_finRange _) fun r _ => List.mem_finRange _

/-- **Away from the live tables a statement changes nothing that a reader sees.** -/
theorem exec_holds {st : Statement} (hoff : st.Offline) (hdb : Holds env rows db) (h : exec env db st = .ok t) :
    Holds env rows t := by
  rcases exec_cases h with ⟨n, m, r, rfl, -, -⟩ | ⟨n, o, hreplaces⟩
  · exact hoff.elim
  have hn := hreplaces.offline hoff
  obtain rfl := hreplaces.update
  have hlive : ∀ i, Function.update db n o (.live i) = db (.live i) := fun i => Function.update_of_ne (hn i).symm _ _
  refine ⟨⟨fun i => ?_, fun m r i hm hi => ?_⟩, fun i r hr => ?_⟩
  · rw [hlive]
    exact hdb.live i
  · by_cases he : m = n
    · subst he
      rw [Function.update_self] at hm
      rcases hreplaces.relation r hm with rfl | ⟨q, hq, hpartition, -⟩
      · exact nomatch hi
      · exact hdb.alone m q i hq (hpartition hoff ▸ hi)
    · rw [Function.update_of_ne he] at hm
      exact hdb.alone m r i hm hi
  · rw [hlive] at hr
    exact hdb.rows i r hr

end Live

/-! ## The swap -/

section Swap

variable {env} {db t : Database} {rows : List Staged} {i : Fin ListingPartitions}

theorem exec_detach_of {n : TableName} {r : Relation} (h : db n = some r) (hr : r.partition = some i) :
    exec env db (.detach n) = .ok (Function.update db n (some { r with partition := none })) := by
  simp only [exec, alter, h, hr, Option.isSome_some, if_true]
  rfl

theorem exec_rename_of {n m : TableName} {r : Relation} (h : db n = some r) (hm : db m = none) :
    exec env db (.rename n m) = .ok (Function.update (Function.update db n none) m (some r)) := by
  simp only [exec, h, hm, Option.isSome_none, Bool.false_eq_true, if_false]

theorem exec_attach_of {n : TableName} {r : Relation} (h : db n = some r) (hr : r.partition = none)
    (hfree : ∀ m q, db m = some q → q.partition ≠ some i) (hbucket : r.rows.all (env.inBucket i) = true)
    (hknown : r.rows.all env.known = true) :
    exec env db (.attach n i) = .ok (Function.update db n (some { r with partition := some i })) := by
  have hattached : attached db i = false := by
    rw [← Bool.not_eq_true, attached_iff]
    rintro ⟨m, q, hq, hqi⟩
    exact hfree m q hq hqi
  simp only [exec, alter, h, hr, hattached, hbucket, hknown, Option.isSome_none, Bool.false_eq_true, if_false,
    Bool.not_true]
  rfl

/-- **A swap puts the replacement in the place of the live table**, which it retires. -/
theorem swap_ok (hdb : Partitioned db) {q : Relation} (hq : db (.next i) = some q)
    (hbucket : q.rows.all (env.inBucket i) = true) (hknown : q.rows.all env.known = true) :
    ∃ r t, db (.live i) = some r ∧ (swap i).foldlM (exec env) db = .ok t ∧
      t (.live i) = some { q with partition := some i } ∧ t (.next i) = none ∧
      t (.retired i) = some { r with partition := none } ∧
      ∀ n, n ≠ .live i → n ≠ .next i → n ≠ .retired i → t n = db n := by
  obtain ⟨r, hr, hri⟩ := hdb.live i
  have hqnone : q.partition = none := by
    cases hpartition : q.partition with
    | none => rfl
    | some j => exact nomatch hdb.alone _ q j hq hpartition
  -- the old table goes out of `listings`, out of its name, and the new one takes its place
  let db₁ := Function.update db (.retired i) none
  let db₂ := Function.update db₁ (.live i) (some { r with partition := none })
  let db₃ := Function.update (Function.update db₂ (.live i) none) (.retired i) (some { r with partition := none })
  let db₄ := Function.update (Function.update db₃ (.next i) none) (.live i) (some q)
  have hothers : ∀ n, n ≠ .live i → n ≠ .next i → n ≠ .retired i → db₄ n = db n := by
    intro n hlive hnext hretired
    simp only [db₄, db₃, db₂, db₁, ne_eq, hlive, hnext, hretired, not_false_eq_true, Function.update_of_ne]
  have hretired : db₄ (.retired i) = some { r with partition := none } := by simp [db₄, db₃]
  have hnext : db₄ (.next i) = none := by simp [db₄]
  have hlive : db₄ (.live i) = some q := Function.update_self _ _ _
  have hfree : ∀ m p, db₄ m = some p → p.partition ≠ some i := by
    intro m p hm hp
    by_cases hl : m = .live i
    · rw [hl, hlive, Option.some.injEq] at hm
      rw [← hm, hqnone] at hp
      exact nomatch hp
    by_cases hx : m = .next i
    · rw [hx, hnext] at hm
      exact nomatch hm
    by_cases hy : m = .retired i
    · rw [hy, hretired, Option.some.injEq] at hm
      rw [← hm] at hp
      exact nomatch hp
    · rw [hothers m hl hx hy] at hm
      exact hl (hdb.alone m p i hm hp)
  have h₁ : exec env db (.drop (.retired i)) = .ok db₁ := rfl
  have h₂ : exec env db₁ (.detach (.live i)) = .ok db₂ := exec_detach_of (by simp [db₁, hr]) hri
  have h₃ : exec env db₂ (.rename (.live i) (.retired i)) = .ok db₃ :=
    exec_rename_of (Function.update_self _ _ _) (by simp [db₂, db₁])
  have h₄ : exec env db₃ (.rename (.next i) (.live i)) = .ok db₄ :=
    exec_rename_of (by simp [db₃, db₂, db₁, hq]) (by simp [db₃])
  have h₅ : exec env db₄ (.attach (.live i) i) =
      .ok (Function.update db₄ (.live i) (some { q with partition := some i })) :=
    exec_attach_of hlive hqnone hfree hbucket hknown
  refine ⟨r, Function.update db₄ (.live i) (some { q with partition := some i }), hr, ?_,
    Function.update_self _ _ _, ?_, ?_, fun n hlive hx hy => ?_⟩
  · rw [swap, List.foldlM_cons, h₁, ok_bind, List.foldlM_cons, h₂, ok_bind, List.foldlM_cons, h₃, ok_bind,
      List.foldlM_cons, h₄, ok_bind, List.foldlM_cons, h₅, ok_bind]
    rfl
  · rw [Function.update_of_ne (show TableName.next i ≠ .live i from nofun)]
    exact hnext
  · rw [Function.update_of_ne (show TableName.retired i ≠ .live i from nofun)]
    exact hretired
  · rw [Function.update_of_ne hlive]
    exact hothers n hlive hx hy

/-- The state of the swap when these buckets are left, for the replacements `q`. -/
structure Swapping (q : Fin ListingPartitions → Relation) (left : List (Fin ListingPartitions)) (db : Database) : Prop
    extends Partitioned db where
  nodup : left.Nodup
  next : ∀ i ∈ left, db (.next i) = some (q i)
  done : ∀ i, i ∉ left → db (.live i) = some { q i with partition := some i }

/-- The replacements fit into `listings`. -/
structure Fits (env : Env) (q : Fin ListingPartitions → Relation) : Prop where
  bucket : ∀ i, (q i).rows.all (env.inBucket i) = true
  known : ∀ i, (q i).rows.all env.known = true

theorem swap_swapping {q : Fin ListingPartitions → Relation} (hfits : Fits env q)
    {left : List (Fin ListingPartitions)} (h : Swapping q (i :: left) db) :
    ∃ t, (swap i).foldlM (exec env) db = .ok t ∧ Swapping q left t := by
  obtain ⟨hi, hnodup⟩ := List.nodup_cons.mp h.nodup
  have hq := h.next i List.mem_cons_self
  obtain ⟨r, t, -, ht, hlive, hnext, hretired, hothers⟩ := swap_ok h.toPartitioned hq (hfits.bucket i) (hfits.known i)
  have hlive' : ∀ j, j ≠ i → t (.live j) = db (.live j) := by
    intro j hj
    exact hothers _ (fun he => hj (TableName.live.inj he)) nofun nofun
  refine ⟨t, ht, ⟨fun j => ?_, fun n r' j hn hj => ?_⟩, hnodup, fun j hj => ?_, fun j hj => ?_⟩
  · by_cases hji : j = i
    · exact ⟨_, hji ▸ hlive, hji ▸ rfl⟩
    · rw [hlive' j hji]
      exact h.live j
  · by_cases hl : n = .live i
    · rw [hl, hlive, Option.some.injEq] at hn
      rw [← hn, Option.some.injEq] at hj
      rw [hl, hj]
    by_cases hx : n = .next i
    · rw [hx, hnext] at hn
      exact nomatch hn
    by_cases hp : n = .retired i
    · rw [hp, hretired, Option.some.injEq] at hn
      rw [← hn] at hj
      exact nomatch hj
    · rw [hothers n hl hx hp] at hn
      exact h.alone n r' j hn hj
  · have hji : j ≠ i := fun he => hi (he ▸ hj)
    rw [hothers (.next j) nofun (fun he => hji (TableName.next.inj he)) nofun]
    exact h.next j (List.mem_cons_of_mem i hj)
  · by_cases hji : j = i
    · rw [hji, hlive]
    · rw [hlive' j hji]
      exact h.done j fun hmem => (List.mem_cons.mp hmem).elim hji hj

/-- **The swap puts every replacement in the place of its live table.** -/
theorem swapPartitions_ok {q : Fin ListingPartitions → Relation} (hfits : Fits env q) (hdb : Partitioned db)
    (hnext : ∀ i, db (.next i) = some (q i)) :
    ∃ t, swapPartitions.foldlM (exec env) db = .ok t ∧ Partitioned t ∧
      ∀ i, t (.live i) = some { q i with partition := some i } := by
  have hstart : Swapping q (List.finRange ListingPartitions) db :=
    ⟨hdb, List.nodup_finRange _, fun i _ => hnext i, fun i hi => absurd (List.mem_finRange i) hi⟩
  obtain ⟨t, ht, hend⟩ := foldlM_succeeds (P := Swapping q) (fun i left s hs => swap_swapping hfits hs) hstart
  rw [swapPartitions, foldlM_flatMap]
  exact ⟨t, ht, hend.toPartitioned, fun i => hend.done i List.not_mem_nil⟩

end Swap

/-! ## The preparation -/

/-- Rows that `listings` can hold, and at least one. -/
structure Valid (env : Env) (rows : List Staged) : Prop where
  nonempty : rows ≠ []
  checked : rows.all Staged.checked = true
  known : rows.all env.known = true
  primary : (rows.map Staged.primaryKey).Nodup
  sku : (rows.map Staged.skuKey).Nodup

/-- No index of the database bears the generation. -/
def Fresh (generation : Int64) (db : Database) : Prop := ∀ ix, used db ix = true → ix.generation ≠ some generation

section Prepare

variable {env} {db t : Database} {rows : List Staged} {generation : Int64}

/-- **What a file stages is accepted** exactly if there is some of it and it refers to nothing unknown. -/
theorem staging_eq_ok :
    (([.drop .staging, .createStaging, .copy (.ok rows)] : List Statement) ++ validateStaging rows.length).foldlM
      (exec env) db = .ok t ↔
      rows ≠ [] ∧ rows.all env.known = true ∧ t = Function.update db .staging (some { rows := rows }) := by
  have hdrop : exec env db (.drop .staging) = .ok (Function.update db .staging none) := rfl
  have hcreate : exec env (Function.update db .staging none) .createStaging
      = .ok (Function.update db .staging (some {})) := by
    simp only [exec, Function.update_self, Function.update_idem, Option.isSome_none, Bool.false_eq_true, if_false]
  have hcopy : exec env (Function.update db .staging (some {})) (.copy (.ok rows))
      = .ok (Function.update db .staging (some { rows := rows })) := by
    simp [exec, alter, Except.map]
  have hcount : exec env (Function.update db .staging (some { rows := rows })) (.count rows.length)
      = if rows = [] then .error .empty else .ok (Function.update db .staging (some { rows := rows })) := by
    simp [exec]
  have horphans : exec env (Function.update db .staging (some { rows := rows })) .orphans
      = if rows.all env.known then .ok (Function.update db .staging (some { rows := rows }))
        else .error .orphaned := by
    simp only [exec, Function.update_self]
  rw [List.cons_append, List.foldlM_cons, hdrop, ok_bind, List.cons_append, List.foldlM_cons, hcreate, ok_bind,
    List.cons_append, List.foldlM_cons, hcopy, ok_bind, List.nil_append, validateStaging, List.foldlM_cons, hcount]
  by_cases hempty : rows = []
  · rw [if_pos hempty]
    exact iff_of_false nofun fun h => h.1 hempty
  rw [if_neg hempty, ok_bind, foldlM_singleton_eq_ok, horphans]
  by_cases hknown : rows.all env.known = true
  · rw [if_pos hknown, Except.ok.injEq]
    exact ⟨fun h => ⟨hempty, hknown, h.symm⟩, fun h => h.2.2.symm⟩
  · rw [if_neg hknown]
    exact iff_of_false nofun fun h => hknown h.2.1

/-- Behind the build every bucket has its replacement. -/
theorem buildReplacementPartitions_next {staging : Relation} (hstaging : db .staging = some staging)
    (h : (buildReplacementPartitions generation).foldlM (exec env) db = .ok t) (i : Fin ListingPartitions) :
    t (.next i) = some (replacement env generation i staging.rows) := by
  rw [buildReplacementPartitions, foldlM_flatMap] at h
  let P (done : List (Fin ListingPartitions)) (s : Database) : Prop := s .staging = some staging ∧
    ∀ j ∈ done, s (.next j) = some (replacement env generation j staging.rows)
  have hstep : ∀ done s j s', P done s → (build generation j).foldlM (exec env) s = .ok s' → P (done ++ [j]) s' := by
    rintro done s j s' ⟨hs, hdone⟩ h
    obtain ⟨staging', hstaging', -, -, -, -, rfl⟩ := build_eq_ok.mp h
    obtain rfl := Option.some.inj (hs.symm.trans hstaging')
    refine ⟨(Function.update_of_ne (show TableName.staging ≠ .next j from nofun) _ _).trans hs, fun k hk => ?_⟩
    by_cases hkj : k = j
    · rw [hkj]
      exact Function.update_self _ _ _
    · have hk : k ∈ done := by simpa [hkj] using hk
      rw [Function.update_of_ne fun he => hkj (TableName.next.inj he)]
      exact hdone k hk
  have hend : P ([] ++ List.finRange ListingPartitions) t := foldlM_invariant hstep ⟨hstaging, nofun⟩ h
  exact hend.2 i (List.mem_finRange i)

/-- The build of what is left, with names that are not in use. -/
structure Building (staging : Relation) (generation : Int64) (left : List (Fin ListingPartitions)) (db : Database) :
    Prop where
  nodup : left.Nodup
  staging : db .staging = some staging
  fresh : ∀ i ∈ left, ∀ kind, used db ⟨i, some generation, kind⟩ = false

theorem unique_filter {key : Staged → Bytes × Bytes} (h : (rows.map key).Nodup) (p : Staged → Bool) :
    unique (some key) (rows.filter p) = true := by
  have hsub : ((rows.filter p).map key).Sublist (rows.map key) := List.filter_sublist.map key
  exact decide_eq_true (h.sublist hsub)

/-- **Rows that `listings` can hold are built from under a new generation.** -/
theorem buildReplacementPartitions_ok {staging : Relation} (hvalid : Valid env staging.rows)
    (hstaging : db .staging = some staging) (hfresh : Fresh generation db) :
    ∃ t, (buildReplacementPartitions generation).foldlM (exec env) db = .ok t := by
  have hstart : Building staging generation (List.finRange ListingPartitions) db := by
    refine ⟨List.nodup_finRange _, hstaging, fun i _ kind => ?_⟩
    rw [← Bool.not_eq_true]
    exact fun hused => hfresh _ hused rfl
  have hstep : ∀ i left s, Building staging generation (i :: left) s →
      ∃ s', (build generation i).foldlM (exec env) s = .ok s' ∧ Building staging generation left s' := by
    intro i left s hs
    obtain ⟨hi, hnodup⟩ := List.nodup_cons.mp hs.nodup
    have hchecked : (staging.rows.filter (env.inBucket i)).all Staged.checked = true :=
      List.all_eq_true.mpr fun r hr => List.all_eq_true.mp hvalid.checked r (List.mem_filter.mp hr).1
    have hnames : ∀ kind, used (Function.update s (.next i) none) ⟨i, some generation, kind⟩ = false := by
      intro kind
      rw [← Bool.not_eq_true]
      intro hused
      exact absurd (used_of_update_none hused) (by rw [hs.fresh i List.mem_cons_self kind]; exact Bool.false_ne_true)
    refine ⟨_, build_eq_ok.mpr ⟨staging, hs.staging, hchecked, unique_filter hvalid.primary _,
      unique_filter hvalid.sku _, hnames, rfl⟩, hnodup,
      (Function.update_of_ne (show TableName.staging ≠ .next i from nofun) _ _).trans hs.staging, ?_⟩
    intro j hj kind
    rw [← Bool.not_eq_true, used_update]
    rintro (hix | hused)
    · have hij : i = j := by
        obtain ⟨kind', -, he⟩ := List.mem_map.mp hix
        exact (IndexName.mk.inj he).1
      exact hi (hij ▸ hj)
    · exact absurd (used_of_update_none hused)
        (by rw [hs.fresh j (List.mem_cons_of_mem i hj) kind]; exact Bool.false_ne_true)
  obtain ⟨t, ht, -⟩ := foldlM_succeeds (P := Building staging generation) hstep hstart
  rw [buildReplacementPartitions, foldlM_flatMap]
  exact ⟨t, ht⟩

theorem used_staging {ix : IndexName}
    (h : used (Function.update db .staging (some { rows := rows })) ix = true) : used db ix = true := by
  rcases used_update.mp h with h | h
  · exact absurd h List.not_mem_nil
  · exact used_of_update_none h

/-- **Valid data is prepared**, whatever an earlier load has left. -/
theorem prepare_ok (hvalid : Valid env rows) (hfresh : Fresh generation db) :
    ∃ t, (prepare (.ok rows) generation).foldlM (exec env) db = .ok t := by
  have hfresh' : Fresh generation (Function.update db .staging (some { rows := rows })) :=
    fun ix hix => hfresh ix (used_staging hix)
  obtain ⟨t, ht⟩ := buildReplacementPartitions_ok hvalid (Function.update_self _ _ _) hfresh'
  refine ⟨t, ?_⟩
  rw [prepare, ← List.append_assoc, foldlM_append_eq_ok]
  exact ⟨_, staging_eq_ok.mpr ⟨hvalid.nonempty, hvalid.known, rfl⟩, ht⟩

/-- What is prepared is known, and there is a replacement of every bucket. -/
theorem prepare_eq_ok {staged : Except StageError (List Staged)}
    (h : (prepare staged generation).foldlM (exec env) db = .ok t) :
    ∃ rows, staged = .ok rows ∧ rows.all env.known = true ∧
      ∀ i, t (.next i) = some (replacement env generation i rows) := by
  cases staged with
  | error e => exact nomatch h
  | ok rows =>
    rw [prepare, ← List.append_assoc, foldlM_append_eq_ok] at h
    obtain ⟨u, hu, ht⟩ := h
    obtain ⟨-, hknown, rfl⟩ := staging_eq_ok.mp hu
    exact ⟨rows, rfl, hknown, buildReplacementPartitions_next (Function.update_self _ _ _) ht⟩

/-- The preparation leaves the live tables alone, and every index it makes bears the generation. -/
theorem mem_prepare {staged : Except StageError (List Staged)} {st : Statement}
    (h : st ∈ prepare staged generation) :
    st.Offline ∧ ∀ ix, st.creates = some ix → ix.generation = some generation := by
  have hfirst : st ∈ [.drop .staging, .createStaging, .copy staged] →
      st.Offline ∧ ∀ ix, st.creates = some ix → ix.generation = some generation := by
    intro h
    simp only [List.mem_cons, List.not_mem_nil, or_false] at h
    rcases h with rfl | rfl | rfl
    · exact ⟨nofun, nofun⟩
    · exact ⟨trivial, nofun⟩
    · exact ⟨trivial, nofun⟩
  cases staged with
  | error e =>
    rw [prepare, List.append_nil] at h
    exact hfirst h
  | ok rows =>
    rw [prepare, List.mem_append, List.mem_append, validateStaging, buildReplacementPartitions, List.mem_flatMap] at h
    rcases h with h | h | ⟨i, -, h⟩
    · exact hfirst h
    · simp only [List.mem_cons, List.not_mem_nil, or_false] at h
      rcases h with rfl | rfl <;> exact ⟨trivial, nofun⟩
    · simp only [build, List.mem_cons, List.not_mem_nil, or_false] at h
      rcases h with rfl | rfl | rfl | rfl | rfl | rfl | rfl
      · exact ⟨nofun, nofun⟩
      · exact ⟨nofun, nofun⟩
      · exact ⟨nofun, nofun⟩
      all_goals exact ⟨nofun, fun ix hix => Option.some.inj hix ▸ rfl⟩

theorem creates_of_mem_swapPartitions {st : Statement} (h : st ∈ swapPartitions) : st.creates = none := by
  obtain ⟨i, -, h⟩ := List.mem_flatMap.mp h
  simp only [swap, List.mem_cons, List.not_mem_nil, or_false] at h
  rcases h with rfl | rfl | rfl | rfl | rfl <;> rfl

theorem mem_dropRetiredPartitions {st : Statement} (h : st ∈ dropRetiredPartitions) :
    st.Offline ∧ st.creates = none := by
  obtain ⟨i, -, rfl⟩ := List.mem_map.mp h
  exact ⟨nofun, rfl⟩

end Prepare

end Ingest.Partitions
