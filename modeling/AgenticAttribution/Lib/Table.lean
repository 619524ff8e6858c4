import Mathlib.Data.List.Basic
import Mathlib.Data.List.Nodup

/-!
# Lib.Table — relational tables as lists of rows

A table is the list of its rows in the order of insertion, a primary key a function on rows whose values are
pairwise distinct.  `update` is `UPDATE … SET … WHERE`; what it does to a table in which the key picks out at most
one row is the change of that row (`mem_update_key`).
-/

namespace Table

variable {ρ κ : Type*}

/-- The rows behind `UPDATE … SET f WHERE p`. -/
def update (p : ρ → Bool) (f : ρ → ρ) (rows : List ρ) : List ρ := rows.map fun r => if p r then f r else r

/-- The number of rows an update touches. -/
def affected (p : ρ → Bool) (rows : List ρ) : ℕ := rows.countP p

/-- The key is unique. -/
def Keyed (key : ρ → κ) (rows : List ρ) : Prop := (rows.map key).Nodup

variable {key : ρ → κ} {rows : List ρ} {p : ρ → Bool} {f : ρ → ρ}

theorem keyed_nil : Keyed key ([] : List ρ) := List.nodup_nil

theorem Keyed.eq_of_key_eq (h : Keyed key rows) {r s : ρ} (hr : r ∈ rows) (hs : s ∈ rows) (he : key r = key s) :
    r = s :=
  List.inj_on_of_nodup_map h hr hs he

theorem Keyed.append (h : Keyed key rows) {r : ρ} (hr : key r ∉ rows.map key) : Keyed key (rows ++ [r]) := by
  rw [Keyed, List.map_append, List.map_singleton]
  exact List.Nodup.append h (List.nodup_singleton _) (List.disjoint_singleton.mpr hr)

theorem map_update {β : Type*} {g : ρ → β} (hg : ∀ r, g (f r) = g r) : (update p f rows).map g = rows.map g := by
  rw [update, List.map_map]
  refine List.map_congr_left fun r _ => ?_
  by_cases h : p r = true
  · rw [Function.comp_apply, if_pos h, hg]
  · rw [Function.comp_apply, if_neg h]

theorem Keyed.update (h : Keyed key rows) (hkey : ∀ r, key (f r) = key r) : Keyed key (update p f rows) := by
  rw [Keyed, map_update hkey]
  exact h

theorem mem_update {r : ρ} : r ∈ update p f rows ↔ ∃ s ∈ rows, (if p s then f s else s) = r := List.mem_map

/-- An update leaves the rows alone that its condition does not pick out. -/
theorem mem_update_of_not {r : ρ} (hr : r ∈ rows) (hp : p r = false) : r ∈ update p f rows :=
  mem_update.mpr ⟨r, hr, by rw [hp]; rfl⟩

theorem mem_update_of {r : ρ} (hr : r ∈ rows) (hp : p r = true) : f r ∈ update p f rows :=
  mem_update.mpr ⟨r, hr, if_pos hp⟩

/-- **What an update does to a count**: the rows it picks out stop counting as they were and count as they are. -/
theorem countP_update (p : ρ → Bool) (f : ρ → ρ) (q : ρ → Bool) (rows : List ρ) :
    (update p f rows).countP q + rows.countP (fun r => p r && q r)
      = rows.countP q + rows.countP fun r => p r && q (f r) := by
  induction rows with
  | nil => rfl
  | cons r rows ih =>
    have hcons : update p f (r :: rows) = (if p r then f r else r) :: update p f rows := rfl
    rw [hcons]
    generalize update p f rows = out at ih ⊢
    simp only [List.countP_cons]
    cases hp : p r <;> cases hq : q r <;> cases hf : q (f r) <;> simp [hq, hf] <;> omega

theorem countP_update_eq {q : ρ → Bool} (h : ∀ r ∈ rows, p r = true → q (f r) = q r) :
    (update p f rows).countP q = rows.countP q := by
  have hsame : rows.countP (fun r => p r && q (f r)) = rows.countP fun r => p r && q r := by
    refine List.countP_congr fun r hr => ?_
    cases hp : p r with
    | false => simp
    | true => simp [h r hr hp]
  have htotal := countP_update p f q rows
  omega

/-- A condition that holds of one row only counts it. -/
theorem Keyed.countP_eq (h : Keyed key rows) {r : ρ} (hr : r ∈ rows) (hp : ∀ s ∈ rows, p s = true → key s = key r) :
    rows.countP p = if p r then 1 else 0 := by
  induction rows with
  | nil => cases hr
  | cons s rows ih =>
    obtain ⟨hs, hrows⟩ := List.nodup_cons.mp h
    rw [List.countP_cons]
    rcases List.mem_cons.mp hr with rfl | hr
    · have hrest : rows.countP p = 0 := by
        refine List.countP_eq_zero.mpr fun t ht hpt => hs ?_
        rw [← hp t (List.mem_cons_of_mem _ ht) hpt]
        exact List.mem_map_of_mem ht
      rw [hrest, Nat.zero_add]
    · have hne : ¬p s = true := by
        intro hps
        refine hs ?_
        rw [hp s List.mem_cons_self hps]
        exact List.mem_map_of_mem hr
      rw [ih hrows hr fun t ht => hp t (List.mem_cons_of_mem _ ht), if_neg hne, Nat.add_zero]

/-- A condition on the key picks out one row. -/
theorem Keyed.filter_eq_singleton (h : Keyed key rows) {r : ρ} (hr : r ∈ rows)
    (hp : ∀ s ∈ rows, p s = true ↔ key s = key r) : rows.filter p = [r] := by
  induction rows with
  | nil => cases hr
  | cons s rows ih =>
    obtain ⟨hs, hrows⟩ := List.nodup_cons.mp h
    rcases List.mem_cons.mp hr with rfl | hr
    · have hrest : rows.filter p = [] := by
        refine List.filter_eq_nil_iff.mpr fun t ht hpt => hs ?_
        rw [← (hp t (List.mem_cons_of_mem _ ht)).mp hpt]
        exact List.mem_map_of_mem ht
      rw [List.filter_cons_of_pos ((hp r List.mem_cons_self).mpr rfl), hrest]
    · have hne : ¬p s = true := by
        intro hps
        refine hs ?_
        rw [(hp s List.mem_cons_self).mp hps]
        exact List.mem_map_of_mem hr
      rw [List.filter_cons_of_neg hne, ih hrows hr fun t ht => hp t (List.mem_cons_of_mem _ ht)]

theorem affected_eq_zero : affected p rows = 0 ↔ ∀ r ∈ rows, p r = false := by
  simp [affected, List.countP_eq_zero]

theorem affected_pos : affected p rows ≠ 0 ↔ ∃ r ∈ rows, p r = true := by
  rw [Ne, affected_eq_zero]
  simp

/-! ## Upserts -/

section Upsert

variable [DecidableEq κ] {new : List ρ}

/-- The rows behind `INSERT … SELECT … ON CONFLICT (key) DO UPDATE`: a new row takes the place of the one that has its
key, or comes behind the others. -/
def upsert (key : ρ → κ) (new rows : List ρ) : List ρ :=
  rows.map (fun r => (new.find? fun n => key n = key r).getD r) ++ new.filter fun n => key n ∉ rows.map key

theorem key_getD_find (r : ρ) : key ((new.find? fun n => key n = key r).getD r) = key r := by
  cases h : new.find? fun n => key n = key r with
  | none => rfl
  | some n => simpa using List.find?_some h

theorem map_key_upsert : (upsert key new rows).map key = rows.map key ++ (new.map key).filter (· ∉ rows.map key) := by
  have hold : (rows.map fun r => (new.find? fun n => key n = key r).getD r).map key = rows.map key := by
    rw [List.map_map]
    exact List.map_congr_left fun r _ => key_getD_find r
  rw [upsert, List.map_append, hold, List.filter_map]
  rfl

/-- No key is lost. -/
theorem key_mem_upsert {k : κ} : k ∈ (upsert key new rows).map key ↔ k ∈ rows.map key ∨ k ∈ new.map key := by
  rw [map_key_upsert, List.mem_append, List.mem_filter, decide_eq_true_eq]
  tauto

theorem Keyed.upsert (h : Keyed key rows) (hnew : Keyed key new) : Keyed key (upsert key new rows) := by
  rw [Keyed, map_key_upsert]
  refine List.Nodup.append h (hnew.filter _) fun k hk hk' => ?_
  exact of_decide_eq_true (List.mem_filter.mp hk').2 hk

/-- **The new rows are there, and those of the others whose keys are none of theirs.** -/
theorem mem_upsert_iff (hnew : Keyed key new) {r : ρ} :
    r ∈ upsert key new rows ↔ r ∈ new ∨ (r ∈ rows ∧ key r ∉ new.map key) := by
  rw [Table.upsert, List.mem_append, List.mem_map, List.mem_filter, decide_eq_true_eq]
  constructor
  · rintro (⟨s, hs, rfl⟩ | ⟨hr, -⟩)
    · cases h : new.find? fun n => key n = key s with
      | none =>
        refine Or.inr ⟨hs, fun hk => ?_⟩
        obtain ⟨n, hn, hkey⟩ := List.mem_map.mp hk
        exact List.find?_eq_none.mp h n hn (decide_eq_true hkey)
      | some n => exact Or.inl (List.mem_of_find?_eq_some h)
    · exact Or.inl hr
  · rintro (hr | ⟨hr, hk⟩)
    · by_cases hk : key r ∈ rows.map key
      · obtain ⟨s, hs, hkey⟩ := List.mem_map.mp hk
        refine Or.inl ⟨s, hs, ?_⟩
        cases h : new.find? fun n => key n = key s with
        | none => exact absurd (decide_eq_true hkey.symm) (List.find?_eq_none.mp h r hr)
        | some n =>
          have hn : key n = key s := by simpa using List.find?_some h
          exact hnew.eq_of_key_eq (List.mem_of_find?_eq_some h) hr (hn.trans hkey)
      · exact Or.inr ⟨hr, hk⟩
    · refine Or.inl ⟨r, hr, ?_⟩
      have hnone : (new.find? fun n => key n = key r) = none := by
        refine List.find?_eq_none.mpr fun n hn hkey => hk ?_
        rw [← of_decide_eq_true hkey]
        exact List.mem_map_of_mem hn
      rw [hnone, Option.getD_none]

end Upsert

/-! ## Partitions -/

/-- **The parts of a table**, one for each of the keys, hold each of its rows once. -/
theorem flatMap_filter_perm {κ : Type*} [DecidableEq κ] {f : ρ → κ} {ks : List κ} (hks : ks.Nodup) {rows : List ρ}
    (hall : ∀ r ∈ rows, f r ∈ ks) : (ks.flatMap fun k => rows.filter fun r => f r = k).Perm rows := by
  induction ks generalizing rows with
  | nil =>
    have hnil : rows = [] := List.eq_nil_iff_forall_not_mem.mpr fun r hr => List.not_mem_nil (hall r hr)
    rw [hnil]
    rfl
  | cons k ks ih =>
    obtain ⟨hk, hks⟩ := List.nodup_cons.mp hks
    let others := rows.filter fun r => !decide (f r = k)
    have hothers : ∀ r ∈ others, f r ∈ ks := by
      intro r hr
      obtain ⟨hr, hne⟩ := List.mem_filter.mp hr
      rcases List.mem_cons.mp (hall r hr) with he | he
      · simp [he] at hne
      · exact he
    have hparts : (ks.flatMap fun k' => rows.filter fun r => f r = k')
        = ks.flatMap fun k' => others.filter fun r => f r = k' := by
      refine List.flatMap_congr fun k' hk' => ?_
      rw [List.filter_filter]
      refine List.filter_congr fun r _ => ?_
      by_cases he : f r = k'
      · have hne : k' ≠ k := fun hkk => hk (hkk ▸ hk')
        simp [he, hne]
      · simp [he]
    rw [List.flatMap_cons, hparts]
    exact ((ih hks hothers).append_left _).trans (List.filter_append_perm _ rows)

end Table
