import Mathlib.Data.List.Induction

/-!
# Lib.Once — things that may happen once

A sequence of attempts meets a guard that is to grant the first of any that are the same, and no other (`Exact`).
The guard compares attempts in its own way: it grants one that clashes with none before it.  `exact_iff` says when
that comes to the same: exactly if, along the sequence, an attempt clashes with an earlier one where it is the same
as an earlier one.

`granted l x` is whether `x` is granted after the attempts `l`.
-/

namespace Once

variable {α : Type*}

/-- A valid attempt is granted exactly if none that was granted before is the same. -/
def Exact (valid : α → Prop) (granted : List α → α → Prop) (same : α → α → Prop) (xs : List α) : Prop :=
  ∀ l x r, xs = l ++ x :: r → valid x →
    (granted l x ↔ ∀ l' y r', l = l' ++ y :: r' → granted l' y → ¬same x y)

/-- An attempt meets an earlier valid one that it is related to. -/
def Meets (valid : α → Prop) (rel : α → α → Prop) (l : List α) (x : α) : Prop := ∃ y ∈ l, valid y ∧ rel x y

/-- A guard that grants the valid attempts that clash with no valid one before. -/
structure Guard (valid : α → Prop) (granted : List α → α → Prop) (clash : α → α → Prop) (xs : List α) : Prop where
  valid_of : ∀ l x r, xs = l ++ x :: r → granted l x → valid x
  granted_iff : ∀ l x r, xs = l ++ x :: r → valid x → (granted l x ↔ ¬Meets valid clash l x)

/-- The first of the elements that satisfy a predicate. -/
theorem exists_first {P : α → Prop} {l : List α} (h : ∃ y ∈ l, P y) :
    ∃ l' y r, l = l' ++ y :: r ∧ P y ∧ ∀ z ∈ l', ¬P z := by
  classical
  obtain ⟨y, hy, hp⟩ := h
  cases hf : l.find? fun z => decide (P z) with
  | none => exact absurd hp (by simpa using List.find?_eq_none.mp hf y hy)
  | some z =>
    obtain ⟨hz, l', r, hl, hfirst⟩ := List.find?_eq_some_iff_append.mp hf
    exact ⟨l', z, r, hl, of_decide_eq_true hz, fun w hw => by simpa using hfirst w hw⟩

section Guards

variable {valid : α → Prop} {granted : List α → α → Prop} {clash same : α → α → Prop} {xs : List α}

theorem append_cons_append {l l' r r' : List α} {x y : α} (h : xs = l ++ x :: r) (hl : l = l' ++ y :: r') :
    xs = l' ++ y :: (r' ++ x :: r) := by
  rw [h, hl, List.append_assoc, List.cons_append]

theorem mem_of_eq_append {l l' r : List α} {y : α} (h : l = l' ++ y :: r) : y ∈ l := by
  rw [h]
  exact List.mem_append_right _ List.mem_cons_self

/-- The first of the earlier attempts that are the same as `x` is granted, if each attempt up to it is granted when
none before is the same. -/
theorem granted_first (htrans : ∀ x y z, same x y → same y z → same x z) {l r : List α} {x : α}
    (hx : xs = l ++ x :: r) (hmeets : Meets valid same l x)
    (hgrant : ∀ l' y r', xs = l' ++ y :: r' → valid y → ¬Meets valid same l' y → granted l' y) :
    ∃ l' y r', l = l' ++ y :: r' ∧ granted l' y ∧ same x y := by
  obtain ⟨l', y, r', hl, ⟨hy, hsame⟩, hfirst⟩ := exists_first hmeets
  refine ⟨l', y, r', hl, hgrant l' y _ (append_cons_append hx hl) hy ?_, hsame⟩
  rintro ⟨z, hz, hvz, hyz⟩
  exact hfirst z hz ⟨hvz, htrans x y z hsame hyz⟩

/-- **A guard is exact exactly if it sees what is the same.** -/
theorem exact_iff (hg : Guard valid granted clash xs) (htrans : ∀ x y z, same x y → same y z → same x z) :
    Exact valid granted same xs ↔
      ∀ l x r, xs = l ++ x :: r → valid x → (Meets valid clash l x ↔ Meets valid same l x) := by
  have hmeets : ∀ {l' l r' : List α} {x y : α} {r : List α}, xs = l ++ x :: r → l = l' ++ y :: r' →
      granted l' y → same x y → Meets valid same l x := by
    intro l' l r' x y r hx hl hy hsame
    exact ⟨y, mem_of_eq_append hl, hg.valid_of l' y _ (append_cons_append hx hl) hy, hsame⟩
  constructor
  · intro h l x r hx hv
    have hgrant : ∀ l' y r', xs = l' ++ y :: r' → valid y → ¬Meets valid same l' y → granted l' y := by
      intro l' y r' hy hvy hno
      refine (h l' y r' hy hvy).mpr fun l'' z r'' hz hgz hyz => hno ?_
      exact hmeets hy hz hgz hyz
    constructor
    · intro hclash
      by_contra hno
      exact (hg.granted_iff l x r hx hv).mp (hgrant l x r hx hv hno) hclash
    · intro hsame
      by_contra hno
      obtain ⟨l', y, r', hl, hy, hxy⟩ := granted_first htrans hx hsame hgrant
      exact (h l x r hx hv).mp ((hg.granted_iff l x r hx hv).mpr hno) l' y r' hl hy hxy
  · intro h l x r hx hv
    have hgrant : ∀ l' y r', xs = l' ++ y :: r' → valid y → ¬Meets valid same l' y → granted l' y :=
      fun l' y r' hy hvy hno => (hg.granted_iff l' y r' hy hvy).mpr fun hclash => hno ((h l' y r' hy hvy).mp hclash)
    constructor
    · intro hx' l' y r' hl hy hxy
      exact (hg.granted_iff l x r hx hv).mp hx' ((h l x r hx hv).mpr (hmeets hx hl hy hxy))
    · intro hnone
      refine hgrant l x r hx hv fun hsame => ?_
      obtain ⟨l', y, r', hl, hy, hxy⟩ := granted_first htrans hx hsame hgrant
      exact hnone l' y r' hl hy hxy

end Guards

end Once
