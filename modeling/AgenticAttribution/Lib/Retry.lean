import AgenticAttribution.Lib.Fallible

/-!
# Lib.Retry — attempts until one succeeds

A computation over a state that it changes whether or not it fails, tried up to a number of times.  What holds
before an attempt and survives it holds before the one that succeeds (`run_eq_ok`); a run is some attempts that
failed and were worth another one, and a last attempt (`run_cases`).
-/

namespace Retry

variable {ε α σ : Type}

/-- Up to `n + 1` attempts.  After a failure `stop` says what to fail with, unless there is another attempt. -/
def run (stop : ε → σ → Option ε) (attempt : σ → Except ε α × σ) : ℕ → σ → Except ε α × σ
  | 0, s => attempt s
  | n + 1, s =>
    match attempt s with
    | (.ok a, s) => (.ok a, s)
    | (.error e, s) =>
      match stop e s with
      | some e => (.error e, s)
      | none => run stop attempt n s

variable {stop : ε → σ → Option ε} {attempt : σ → Except ε α × σ} {s t : σ} {a : α} {n : ℕ}

theorem run_of_ok (h : attempt s = (.ok a, t)) : run stop attempt n s = (.ok a, t) := by
  cases n with
  | zero => exact h
  | succ n => simp only [run, h]

theorem run_of_again {e : ε} (h : attempt s = (.error e, t)) (hagain : stop e t = none) :
    run stop attempt (n + 1) s = run stop attempt n t := by
  simp only [run, h, hagain]

/-- **The attempt that succeeds.**  `P` holds before it if every attempt preserves it. -/
theorem run_eq_ok {P : σ → Prop} (hP : ∀ s, P s → P (attempt s).2) (hs : P s)
    (h : run stop attempt n s = (.ok a, t)) : ∃ s', P s' ∧ attempt s' = (.ok a, t) := by
  induction n generalizing s with
  | zero => exact ⟨s, hs, h⟩
  | succ n ih =>
    have hnext := hP s hs
    rw [run] at h
    split at h
    · rename_i a' s' hattempt
      exact ⟨s, hs, hattempt.trans h⟩
    · rename_i e s' hattempt
      rw [hattempt] at hnext
      split at h
      · cases (Prod.mk.inj h).1
      · exact ih hnext h

/-- So many attempts, each of which failed and was worth another one, lead from a state to a state. -/
inductive Again (stop : ε → σ → Option ε) (attempt : σ → Except ε α × σ) : ℕ → σ → σ → Prop where
  | none (s : σ) : Again stop attempt 0 s s
  | one {k : ℕ} {e : ε} {s t u : σ} (h : attempt s = (.error e, t)) (hagain : stop e t = Option.none)
    (hrest : Again stop attempt k t u) : Again stop attempt (k + 1) s u

/-- **The last attempt of a run**: its result is the run's, or it failed and the run was stopped. -/
theorem run_cases {r : Except ε α} (h : run stop attempt n s = (r, t)) :
    ∃ k ≤ n, ∃ u, Again stop attempt k s u ∧
      (attempt u = (r, t) ∨ ∃ e e', attempt u = (.error e, t) ∧ stop e t = some e' ∧ r = .error e') := by
  induction n generalizing s with
  | zero => exact ⟨0, Nat.le_refl _, s, .none s, Or.inl h⟩
  | succ n ih =>
    rw [run] at h
    split at h
    · rename_i a s' hattempt
      exact ⟨0, Nat.zero_le _, s, .none s, Or.inl (hattempt.trans h)⟩
    · rename_i e s' hattempt
      split at h
      · rename_i e' hstop
        obtain ⟨rfl, rfl⟩ := Prod.mk.inj h
        exact ⟨0, Nat.zero_le _, s, .none s, Or.inr ⟨e, e', hattempt, hstop, rfl⟩⟩
      · rename_i hagain
        obtain ⟨k, hk, u, hagains, hlast⟩ := ih h
        exact ⟨k + 1, Nat.succ_le_succ hk, u, .one hattempt hagain hagains, hlast⟩

end Retry
