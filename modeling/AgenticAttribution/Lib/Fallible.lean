import Mathlib.Data.List.Basic

/-!
# Lib.Fallible — computations that may end in an error

`Except` as Go code uses it: a computation goes on from a value and stops at the first error.  A loop over a list is
a `foldlM`; `foldlM_invariant` is its rule, where the invariant may speak of the elements that are done, and
`foldlM_simulates` compares two loops over the same list.
-/

namespace Fallible

variable {ε α β σ τ : Type}

@[simp] theorem ok_bind (a : α) (f : α → Except ε β) : (Except.ok a >>= f) = f a := rfl

theorem bind_eq_ok {x : Except ε α} {f : α → Except ε β} {b : β} :
    (x >>= f) = .ok b ↔ ∃ a, x = .ok a ∧ f a = .ok b := by
  cases x with
  | error e => simp [bind, Except.bind]
  | ok a => simp [bind, Except.bind]

theorem bind_eq_error {x : Except ε α} {f : α → Except ε β} {e : ε} :
    (x >>= f) = .error e ↔ x = .error e ∨ ∃ a, x = .ok a ∧ f a = .error e := by
  cases x with
  | error e' => simp [bind, Except.bind]
  | ok a => simp [bind, Except.bind]

theorem map_eq_ok {x : Except ε α} {f : α → β} {b : β} : x.map f = .ok b ↔ ∃ a, x = .ok a ∧ f a = b := by
  cases x with
  | error e => simp [Except.map]
  | ok a => simp [Except.map]

/-- A guard lets through what it does not refuse. -/
theorem guard_eq_ok {P : Prop} [Decidable P] {e : ε} {x : Except ε α} {a : α} :
    (if P then .error e else x) = .ok a ↔ ¬P ∧ x = .ok a := by
  split_ifs with h
  · exact iff_of_false (fun h' => nomatch h') fun h' => h'.1 h
  · exact (and_iff_right h).symm

theorem check_eq_ok {b : Bool} {e : ε} {x : Except ε α} {a : α} :
    (if !b then .error e else x) = .ok a ↔ b = true ∧ x = .ok a := by
  rw [guard_eq_ok, Bool.not_eq_true', Bool.not_eq_false]

section Loops

variable {f : σ → α → Except ε σ} {s u : σ} {a : α} {as bs : List α}

theorem foldlM_cons_eq_ok :
    (a :: as).foldlM f s = .ok u ↔ ∃ t, f s a = .ok t ∧ as.foldlM f t = .ok u := by
  rw [List.foldlM_cons, bind_eq_ok]

theorem foldlM_append_eq_ok :
    (as ++ bs).foldlM f s = .ok u ↔ ∃ t, as.foldlM f s = .ok t ∧ bs.foldlM f t = .ok u := by
  rw [List.foldlM_append, bind_eq_ok]

theorem foldlM_nil_eq_ok : ([] : List α).foldlM f s = .ok u ↔ s = u := by
  rw [List.foldlM_nil]
  exact Except.ok.injEq s u ▸ Iff.rfl

theorem foldlM_singleton_eq_ok : [a].foldlM f s = .ok u ↔ f s a = .ok u := by
  rw [foldlM_cons_eq_ok]
  simp only [foldlM_nil_eq_ok, exists_eq_right]

/-- **Loop rule.**  The invariant `P done s` speaks of the elements that are done. -/
theorem foldlM_invariant {P : List α → σ → Prop}
    (hstep : ∀ done s a t, P done s → f s a = .ok t → P (done ++ [a]) t) :
    ∀ {as done : List α} {s u : σ}, P done s → as.foldlM f s = .ok u → P (done ++ as) u
  | [], done, s, u, hP, h => by
    obtain rfl := foldlM_nil_eq_ok.mp h
    rwa [List.append_nil]
  | a :: as, done, s, u, hP, h => by
    obtain ⟨t, ht, h⟩ := foldlM_cons_eq_ok.mp h
    have hrest := foldlM_invariant hstep (hstep done s a t hP ht) h
    rwa [List.append_assoc, List.singleton_append] at hrest

/-- **Two loops.**  If every round of the first is matched by a round of the second, so is the loop. -/
theorem foldlM_simulates {g : τ → α → Except ε τ} {R : σ → τ → Prop}
    (hstep : ∀ s t a s', R s t → f s a = .ok s' → ∃ t', g t a = .ok t' ∧ R s' t') :
    ∀ {as : List α} {s u : σ} {t : τ}, R s t → as.foldlM f s = .ok u → ∃ v, as.foldlM g t = .ok v ∧ R u v
  | [], s, u, t, hR, h => by
    obtain rfl := foldlM_nil_eq_ok.mp h
    exact ⟨t, rfl, hR⟩
  | a :: as, s, u, t, hR, h => by
    obtain ⟨s', hs', h⟩ := foldlM_cons_eq_ok.mp h
    obtain ⟨t', ht', hR'⟩ := hstep s t a s' hR hs'
    obtain ⟨v, hv, hRv⟩ := foldlM_simulates hstep hR' h
    exact ⟨v, foldlM_cons_eq_ok.mpr ⟨t', ht', hv⟩, hRv⟩

/-- **Loop rule for success.**  `P` speaks of the elements that are left. -/
theorem foldlM_succeeds {P : List α → σ → Prop}
    (hstep : ∀ a as s, P (a :: as) s → ∃ t, f s a = .ok t ∧ P as t) :
    ∀ {as : List α} {s : σ}, P as s → ∃ u, as.foldlM f s = .ok u ∧ P [] u
  | [], s, hP => ⟨s, rfl, hP⟩
  | a :: as, s, hP => by
    obtain ⟨t, ht, hrest⟩ := hstep a as s hP
    obtain ⟨u, hu, hend⟩ := foldlM_succeeds hstep hrest
    exact ⟨u, foldlM_cons_eq_ok.mpr ⟨t, ht, hu⟩, hend⟩

/-- A loop whose rounds are loops. -/
theorem foldlM_flatMap {g : β → List α} {bs : List β} :
    (bs.flatMap g).foldlM f s = bs.foldlM (fun s b => (g b).foldlM f s) s := by
  induction bs generalizing s with
  | nil => rfl
  | cons b bs ih =>
    rw [List.flatMap_cons, List.foldlM_append, List.foldlM_cons]
    exact congrArg _ (funext fun t => ih)

end Loops

end Fallible
