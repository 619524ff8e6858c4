import AgenticAttribution.Lib.Group
import Mathlib.Algebra.BigOperators.Group.List.Basic
import Mathlib.Data.List.Dedup

/-!
# Lib.Query — grouping and left joins

`GROUP BY` over a table, and a `LEFT JOIN` to what it gives.  The groups have distinct keys, so the join has one
row for each row on its left (`leftJoin_groupBy`); with `COALESCE` it is the aggregate over the rows with that key,
be there any or none (`coalesce_group`).  A sum over a table whose rows refer to another is the sum of the groups of
its rows (`sum_groups`).
-/

namespace Query

open Group (group mem_group group_eq_nil group_eq_singleton)

variable {ρ σ κ α β : Type*} [DecidableEq κ]

/-- The group with the key `k`, if there is one. -/
def group? (key : ρ → κ) (k : κ) (rows : List ρ) : Option (List ρ) :=
  if k ∈ rows.map key then some (group key k rows) else none

/-- `SELECT key, agg FROM rows GROUP BY key`. -/
def groupBy (key : ρ → κ) (agg : List ρ → α) (rows : List ρ) : List (κ × α) :=
  (rows.map key).dedup.map fun k => (k, agg (group key k rows))

/-- `left LEFT JOIN right ON right.key = key`. -/
def leftJoin (key : σ → κ) (left : List σ) (right : List (κ × α)) : List (σ × Option α) :=
  left.flatMap fun l =>
    match right.filter fun r => r.1 = key l with
    | [] => [(l, none)]
    | found => found.map fun r => (l, some r.2)

variable {key : ρ → κ} {agg : List ρ → α} {rows : List ρ} {k : κ}

/-- Of distinct keys, at most one is the key that is looked for. -/
theorem filter_eq_of_nodup {ks : List κ} (h : ks.Nodup) :
    (ks.filter fun x => x = k) = if k ∈ ks then [k] else [] := by
  induction ks with
  | nil => rfl
  | cons x ks ih =>
    obtain ⟨hx, hks⟩ := List.nodup_cons.mp h
    by_cases hk : x = k
    · subst hk
      simp [ih hks, hx]
    · have hk' : k ≠ x := fun h => hk h.symm
      simp [hk, hk', ih hks]

theorem filter_groupBy : ((groupBy key agg rows).filter fun g => g.1 = k)
    = if k ∈ rows.map key then [(k, agg (group key k rows))] else [] := by
  have hkeys : (((rows.map key).dedup).filter fun x => x = k) = if k ∈ rows.map key then [k] else [] := by
    rw [filter_eq_of_nodup (List.nodup_dedup _)]
    simp only [List.mem_dedup]
  rw [groupBy, List.filter_map]
  show List.map _ (((rows.map key).dedup).filter fun x => x = k) = _
  rw [hkeys]
  split_ifs <;> rfl

/-- **A join to the groups has one row for each row on its left.** -/
theorem leftJoin_groupBy (key' : σ → κ) (left : List σ) :
    leftJoin key' left (groupBy key agg rows) = left.map fun l => (l, (group? key (key' l) rows).map agg) := by
  unfold leftJoin group?
  rw [List.map_eq_flatMap]
  refine List.flatMap_congr fun l _ => ?_
  rw [filter_groupBy]
  split_ifs <;> rfl

/-- **`COALESCE` fills in for the group that is missing.** -/
theorem coalesce_group {d : α} (hd : agg [] = d) : ((group? key k rows).map agg).getD d = agg (group key k rows) := by
  unfold group?
  split_ifs with h
  · rfl
  · rw [group_eq_nil h, hd]
    rfl

/-! ## Joins to the rows that are referred to -/

section Joins

/-- `left JOIN right ON right.key = key`. -/
def innerJoin (key : σ → κ) (left : List σ) (key' : ρ → κ) (right : List ρ) : List (σ × ρ) :=
  left.flatMap fun l => (group key' (key l) right).map fun r => (l, r)

variable {key' : σ → κ} {left : List σ} {l : σ} {r : ρ}

theorem mem_innerJoin : (l, r) ∈ innerJoin key' left key rows ↔ l ∈ left ∧ r ∈ rows ∧ key r = key' l := by
  simp only [innerJoin, List.mem_flatMap, List.mem_map, mem_group, Prod.mk.injEq]
  constructor
  · rintro ⟨l', hl, r', hr, rfl, rfl⟩
    exact ⟨hl, hr⟩
  · rintro ⟨hl, hr⟩
    exact ⟨l, hl, r, hr, rfl, rfl⟩

theorem mem_join (key' : σ → κ) (hl : l ∈ left) (hr : r ∈ rows) (hk : key r = key' l) :
    (l, r) ∈ innerJoin key' left key rows :=
  mem_innerJoin.mpr ⟨hl, hr, hk⟩

/-- **A join along a foreign key neither loses a row nor repeats one.** -/
theorem map_fst_innerJoin (key' : σ → κ) (left : List σ) (hkeys : (rows.map key).Nodup)
    (hrefs : ∀ l ∈ left, key' l ∈ rows.map key) :
    (innerJoin key' left key rows).map Prod.fst = left := by
  induction left with
  | nil => rfl
  | cons l left ih =>
    obtain ⟨r, -, -, hr⟩ := group_eq_singleton hkeys (hrefs l List.mem_cons_self)
    have hrest := ih fun l' hl' => hrefs l' (List.mem_cons_of_mem _ hl')
    rw [innerJoin] at hrest ⊢
    rw [List.flatMap_cons, hr, List.map_append, hrest]
    rfl

/-- Whatever the keys, a row whose references are there is joined to something. -/
theorem innerJoin_ne_nil (hl : l ∈ left) (hk : key' l ∈ rows.map key) : innerJoin key' left key rows ≠ [] := by
  obtain ⟨r, hr, he⟩ := List.mem_map.mp hk
  exact List.ne_nil_of_mem (mem_innerJoin.mpr ⟨hl, hr, he⟩)

variable {right : List (κ × α)} {o : Option α}

theorem mem_leftJoin (h : (l, o) ∈ leftJoin key' left right) : l ∈ left ∧ ∀ a, o = some a → (key' l, a) ∈ right := by
  obtain ⟨l', hl, h⟩ := List.mem_flatMap.mp h
  split at h
  · obtain ⟨rfl, rfl⟩ := Prod.mk.injEq .. ▸ List.mem_singleton.mp h
    exact ⟨hl, fun a ha => absurd ha.symm (Option.some_ne_none a)⟩
  · obtain ⟨r, hr, he⟩ := List.mem_map.mp h
    obtain ⟨rfl, rfl⟩ := Prod.mk.injEq .. ▸ he
    obtain ⟨hmem, hkey⟩ := List.mem_filter.mp hr
    refine ⟨hl, fun a ha => ?_⟩
    obtain rfl := Option.some.inj ha
    rw [← of_decide_eq_true hkey]
    exact hmem

theorem leftJoin_ne_nil (hl : left ≠ []) : leftJoin key' left right ≠ [] := by
  obtain ⟨l, left, rfl⟩ := List.exists_cons_of_ne_nil hl
  simp only [leftJoin, List.flatMap_cons, ne_eq, List.append_eq_nil_iff, not_and]
  intro h
  split at h
  · cases h
  · rename_i found hfound
    exact absurd (List.map_eq_nil_iff.mp h) hfound

end Joins

/-! ## Sums over the rows that refer to another table -/

section Sums

variable {M : Type*} [AddCommMonoid M]

theorem sum_single (c : M) {ks : List κ} (h : ks.Nodup) (hk : k ∈ ks) :
    (ks.map fun x => if k = x then c else 0).sum = c := by
  induction ks with
  | nil => cases hk
  | cons x ks ih =>
    obtain ⟨hx, hks⟩ := List.nodup_cons.mp h
    rw [List.map_cons, List.sum_cons]
    by_cases hkx : k = x
    · subst hkx
      have hrest : (ks.map fun x => if k = x then c else 0).sum = 0 := by
        refine List.sum_eq_zero fun y hy => ?_
        obtain ⟨x, hmem, rfl⟩ := List.mem_map.mp hy
        refine if_neg fun he : k = x => hx ?_
        rw [he]
        exact hmem
      rw [if_pos rfl, hrest, add_zero]
    · have hmem : k ∈ ks := (List.mem_cons.mp hk).resolve_left hkx
      rw [if_neg hkx, zero_add, ih hks hmem]

/-- What a condition leaves out counts as nothing. -/
theorem sum_filter (p : ρ → Bool) (g : ρ → M) (rows : List ρ) :
    ((rows.filter p).map g).sum = (rows.map fun r => if p r then g r else 0).sum := by
  induction rows with
  | nil => rfl
  | cons r rows ih =>
    rw [List.filter_cons, List.map_cons, List.sum_cons, ← ih]
    by_cases hp : p r = true
    · rw [if_pos hp, if_pos hp, List.map_cons, List.sum_cons]
    · rw [if_neg hp, if_neg hp, zero_add]

/-- **A sum over rows is the sum over the rows they refer to**, each of them with its group. -/
theorem sum_groups (parent : σ → κ) {parents : List σ} (hkeys : (parents.map parent).Nodup) (g : ρ → M)
    (hrefs : ∀ r ∈ rows, key r ∈ parents.map parent) :
    (parents.map fun p => ((group key (parent p) rows).map g).sum).sum = (rows.map g).sum := by
  induction rows with
  | nil =>
    refine List.sum_eq_zero fun y hy => ?_
    obtain ⟨p, -, rfl⟩ := List.mem_map.mp hy
    rfl
  | cons r rows ih =>
    have hcons : ∀ p, ((group key (parent p) (r :: rows)).map g).sum
        = (if key r = parent p then g r else 0) + ((group key (parent p) rows).map g).sum := by
      intro p
      unfold group
      rw [sum_filter, sum_filter, List.map_cons, List.sum_cons]
      simp only [decide_eq_true_eq]
    have hone : (parents.map fun p => if key r = parent p then g r else 0).sum = g r := by
      have hsum := sum_single (g r) hkeys (hrefs r List.mem_cons_self)
      rwa [List.map_map] at hsum
    simp only [hcons]
    rw [List.sum_map_add, hone, ih fun r' hr' => hrefs r' (List.mem_cons_of_mem _ hr'), List.map_cons, List.sum_cons]

end Sums

end Query
