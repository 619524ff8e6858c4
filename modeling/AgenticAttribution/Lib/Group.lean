import Mathlib.Data.List.Induction
import Mathlib.Data.List.Nodup

/-!
# Lib.Group — grouping by a key

`groups key xs` has one group for each key of `xs`, in the order in which the keys first occur.  If the elements
with one key stand together (`Contiguous`), a further element extends the last group or opens a new one, and all
groups but the last are final: they are groups of every contiguous list that goes on (`groups_dropLast_prefix`).
-/

namespace Group

variable {α κ : Type*} {key : α → κ} {xs ys : List α} {x y : α}

/-! ## Contiguous lists -/

section Contiguous

/-- Elements with one key stand together. -/
def Contiguous (key : α → κ) (xs : List α) : Prop :=
  ∀ before x between y after, xs = before ++ x :: (between ++ y :: after) → key x = key y →
    ∀ z ∈ between, key z = key x

theorem Contiguous.left (h : Contiguous key (xs ++ ys)) : Contiguous key xs := by
  intro before x between y after hxs hkey
  refine h before x between y (after ++ ys) ?_ hkey
  rw [hxs]
  simp

/-- A key that occurs again occurs just before. -/
theorem Contiguous.key_last (h : Contiguous key (xs ++ [x] ++ [y])) (hmem : key y ∈ (xs ++ [x]).map key) :
    key x = key y := by
  obtain ⟨z, hz, hkey⟩ := List.mem_map.mp hmem
  rcases List.mem_append.mp hz with hz | hz
  · obtain ⟨before, between, rfl⟩ := List.append_of_mem hz
    have hx := h before z (between ++ [x]) y [] (by simp) hkey x (by simp)
    rw [hx, hkey]
  · rw [← List.mem_singleton.mp hz, hkey]

/-- Elements in the order of their keys. -/
theorem contiguous_of_pairwise {le : κ → κ → Prop} (hle : ∀ j k, le j k → le k j → j = k)
    (h : xs.Pairwise fun x y => le (key x) (key y)) : Contiguous key xs := by
  intro before x between y after hxs hkey z hz
  rw [hxs] at h
  obtain ⟨hx, hbetween⟩ := List.pairwise_cons.mp (List.pairwise_append.mp h).2.1
  have hxz : le (key x) (key z) := hx z (List.mem_append_left _ hz)
  have hzy : le (key z) (key y) := (List.pairwise_append.mp hbetween).2.2 z hz y List.mem_cons_self
  rw [← hkey] at hzy
  exact hle _ _ hzy hxz

end Contiguous

/-! ## Groups -/

section Groups

variable [DecidableEq κ]

/-- The keys, in the order in which they first occur. -/
def keys (key : α → κ) (xs : List α) : List κ := (xs.map key).eraseDups

/-- The elements with the key `k`. -/
def group (key : α → κ) (k : κ) (xs : List α) : List α := xs.filter fun x => key x = k

/-- One group for each key. -/
def groups (key : α → κ) (xs : List α) : List (List α) := (keys key xs).map fun k => group key k xs

theorem mem_group {k : κ} : x ∈ group key k xs ↔ x ∈ xs ∧ key x = k := by
  simp only [group, List.mem_filter, decide_eq_true_eq]

/-- No key, no elements. -/
theorem group_eq_nil {k : κ} (h : k ∉ xs.map key) : group key k xs = [] := by
  refine List.filter_eq_nil_iff.mpr fun x hx hk => ?_
  exact h (List.mem_map.mpr ⟨x, hx, of_decide_eq_true hk⟩)

/-- Of elements with distinct keys, one has a key that is there. -/
theorem group_eq_singleton {k : κ} (hkeys : (xs.map key).Nodup) (hk : k ∈ xs.map key) :
    ∃ x ∈ xs, key x = k ∧ group key k xs = [x] := by
  obtain ⟨x, hx, rfl⟩ := List.mem_map.mp hk
  refine ⟨x, hx, rfl, ?_⟩
  have honly : ∀ x' ∈ group key (key x) xs, x' = x := fun x' hx' =>
    List.inj_on_of_nodup_map hkeys (mem_group.mp hx').1 hx (mem_group.mp hx').2
  have hnodup : (group key (key x) xs).Nodup := hkeys.of_map.filter _
  have hmem : x ∈ group key (key x) xs := mem_group.mpr ⟨hx, rfl⟩
  generalize group key (key x) xs = found at honly hnodup hmem
  match found with
  | [] => cases hmem
  | [a] => rw [honly a List.mem_cons_self]
  | a :: b :: _ =>
    obtain rfl := honly a List.mem_cons_self
    obtain rfl := honly b (List.mem_cons_of_mem _ List.mem_cons_self)
    simp at hnodup

theorem keys_concat_of_mem (h : key y ∈ xs.map key) : keys key (xs ++ [y]) = keys key xs := by
  rw [keys, List.map_append, List.map_singleton, List.eraseDups_append]
  have hnil : [key y].removeAll (xs.map key) = [] := by simpa [List.removeAll] using h
  rw [hnil, List.eraseDups_nil, List.append_nil]
  rfl

theorem keys_concat_of_not_mem (h : key y ∉ xs.map key) : keys key (xs ++ [y]) = keys key xs ++ [key y] := by
  rw [keys, List.map_append, List.map_singleton, List.eraseDups_append]
  have hself : [key y].removeAll (xs.map key) = [key y] := by simpa [List.removeAll] using h
  rw [hself, List.eraseDups_cons]
  rfl

/-- The keys are pairwise distinct, and they are the keys of the elements. -/
theorem keys_nodup (key : α → κ) (xs : List α) : (keys key xs).Nodup ∧ ∀ k, k ∈ keys key xs ↔ k ∈ xs.map key := by
  induction xs using List.reverseRecOn with
  | nil => exact ⟨List.nodup_nil, fun k => Iff.rfl⟩
  | append_singleton xs y ih =>
    obtain ⟨hnodup, hmem⟩ := ih
    by_cases h : key y ∈ xs.map key
    · rw [keys_concat_of_mem h]
      refine ⟨hnodup, fun k => ?_⟩
      rw [hmem, List.map_append, List.mem_append, List.map_singleton, List.mem_singleton]
      exact ⟨Or.inl, fun hk => hk.elim id fun hk => hk ▸ h⟩
    · rw [keys_concat_of_not_mem h]
      refine ⟨?_, fun k => ?_⟩
      · refine List.nodup_append.mpr ⟨hnodup, List.nodup_singleton _, ?_⟩
        intro a ha b hb hab
        rw [hab, List.mem_singleton.mp hb, hmem] at ha
        exact h ha
      · rw [List.mem_append, hmem, List.map_append, List.mem_append, List.map_singleton]

/-- The last key is the key of the last element. -/
theorem Contiguous.keys_concat (h : Contiguous key (xs ++ [x])) : ∃ init, keys key (xs ++ [x]) = init ++ [key x] := by
  induction xs using List.reverseRecOn generalizing x with
  | nil => exact ⟨[], rfl⟩
  | append_singleton xs w ih =>
    by_cases hmem : key x ∈ (xs ++ [w]).map key
    · obtain ⟨init, hinit⟩ := ih h.left
      refine ⟨init, ?_⟩
      rw [keys_concat_of_mem hmem, hinit, h.key_last hmem]
    · exact ⟨_, keys_concat_of_not_mem hmem⟩

theorem group_concat_of_ne {k : κ} (h : key y ≠ k) : group key k (xs ++ [y]) = group key k xs := by
  rw [group, List.filter_append]
  simp [group, h]

theorem group_concat_self : group key (key y) (xs ++ [y]) = group key (key y) xs ++ [y] := by
  rw [group, List.filter_append]
  simp [group]

/-- An element with a new key opens a group. -/
theorem groups_concat_of_not_mem (h : key y ∉ xs.map key) : groups key (xs ++ [y]) = groups key xs ++ [[y]] := by
  have hold : ∀ k ∈ keys key xs, group key k (xs ++ [y]) = group key k xs := by
    intro k hk
    refine group_concat_of_ne fun he => h ?_
    rw [he]
    exact ((keys_nodup key xs).2 k).mp hk
  rw [groups, keys_concat_of_not_mem h, List.map_append, List.map_congr_left hold, List.map_singleton,
    group_concat_self, group_eq_nil h]
  rfl

/-- An element with the key of the one before extends the last group. -/
theorem Contiguous.groups_concat (h : Contiguous key (xs ++ [x] ++ [y])) (hkey : key x = key y) :
    ∃ init last, groups key (xs ++ [x]) = init ++ [last] ∧ last ≠ [] ∧
      groups key (xs ++ [x] ++ [y]) = init ++ [last ++ [y]] := by
  obtain ⟨init, hinit⟩ := h.left.keys_concat
  have hmem : key y ∈ (xs ++ [x]).map key := hkey ▸ List.mem_map_of_mem (by simp)
  have hnodup := (keys_nodup key (xs ++ [x])).1
  rw [hinit] at hnodup
  have hold : ∀ k ∈ init, group key k (xs ++ [x] ++ [y]) = group key k (xs ++ [x]) := by
    intro k hk
    refine group_concat_of_ne fun he => ?_
    exact (List.nodup_append.mp hnodup).2.2 k hk (key x) (List.mem_singleton_self _) (he.symm.trans hkey.symm)
  refine ⟨init.map fun k => group key k (xs ++ [x]), group key (key x) (xs ++ [x]), ?_, ?_, ?_⟩
  · rw [groups, hinit, List.map_append, List.map_singleton]
  · rw [group_concat_self]
    exact List.append_ne_nil_of_right_ne_nil _ (List.cons_ne_nil _ _)
  · rw [groups, keys_concat_of_mem hmem, hinit, List.map_append, List.map_congr_left hold, List.map_singleton, hkey,
      group_concat_self]

/-- **All groups but the last are final.** -/
theorem Contiguous.groups_dropLast_prefix (h : Contiguous key (xs ++ ys)) :
    (groups key xs).dropLast <+: (groups key (xs ++ ys)).dropLast := by
  induction ys using List.reverseRecOn with
  | nil => simp only [List.append_nil, List.prefix_rfl]
  | append_singleton ys y ih =>
    rw [← List.append_assoc] at h ⊢
    refine (ih h.left).trans ?_
    rcases List.eq_nil_or_concat (xs ++ ys) with hnil | ⟨zs, z, hz⟩
    · rw [hnil]
      exact List.nil_prefix
    · rw [List.concat_eq_append] at hz
      rw [hz] at h ⊢
      by_cases hmem : key y ∈ (zs ++ [z]).map key
      · obtain ⟨init, last, hbefore, -, hafter⟩ := h.groups_concat (h.key_last hmem)
        simp only [hbefore, hafter, List.dropLast_concat, List.prefix_rfl]
      · rw [groups_concat_of_not_mem hmem, List.dropLast_concat]
        exact List.dropLast_prefix _

/-- When a new key begins, all groups are final. -/
theorem Contiguous.groups_prefix (h : Contiguous key (xs ++ y :: ys)) (hmem : key y ∉ xs.map key) :
    groups key xs <+: groups key (xs ++ y :: ys) := by
  have happend : xs ++ y :: ys = xs ++ [y] ++ ys := by simp
  rw [happend] at h ⊢
  have hfinal := h.groups_dropLast_prefix
  rw [groups_concat_of_not_mem hmem, List.dropLast_concat] at hfinal
  exact hfinal.trans (List.dropLast_prefix _)

end Groups

end Group
