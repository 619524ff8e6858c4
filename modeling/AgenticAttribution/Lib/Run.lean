import Mathlib.Data.List.Basic

/-!
# Lib.Run — runs of a deterministic labelled step function

A system is a partial function `step : σ → α → Option σ`: `step s a = none` says that the action `a` is not
enabled in `s`.  A run is a list of actions.  Nothing forces an action to be taken, so a component that crashes
is a component whose actions stop occurring, and an interleaving is an order of the list.
-/

namespace Runs

variable {σ α : Type*}

/-- The state after the actions `as`, in order; `none` if one of them is not enabled. -/
def run (step : σ → α → Option σ) : σ → List α → Option σ
  | s, [] => some s
  | s, a :: as => (step s a).bind fun t => run step t as

variable {step : σ → α → Option σ}

@[simp] theorem run_nil (s : σ) : run step s [] = some s := rfl

theorem run_cons (s : σ) (a : α) (as : List α) :
    run step s (a :: as) = (step s a).bind fun t => run step t as := rfl

theorem run_cons_of {s t : σ} {a : α} (h : step s a = some t) (as : List α) :
    run step s (a :: as) = run step t as := by
  rw [run_cons, h, Option.bind_some]

theorem run_cons_eq_some {s u : σ} {a : α} {as : List α} :
    run step s (a :: as) = some u ↔ ∃ t, step s a = some t ∧ run step t as = some u := by
  rw [run_cons, Option.bind_eq_some_iff]

theorem run_append_eq_some {s u : σ} {as bs : List α} :
    run step s (as ++ bs) = some u ↔ ∃ t, run step s as = some t ∧ run step t bs = some u := by
  induction as generalizing s with
  | nil => simp
  | cons a as ih =>
    rw [List.cons_append, run_cons_eq_some]
    constructor
    · rintro ⟨v, hv, h⟩
      obtain ⟨t, ht, hu⟩ := ih.mp h
      exact ⟨t, run_cons_eq_some.mpr ⟨v, hv, ht⟩, hu⟩
    · rintro ⟨t, ht, hu⟩
      obtain ⟨v, hv, h⟩ := run_cons_eq_some.mp ht
      exact ⟨v, hv, ih.mpr ⟨t, h, hu⟩⟩

/-- **Invariant rule.**  What every step preserves, every run preserves. -/
theorem run_invariant {P : σ → Prop} (hstep : ∀ s a t, P s → step s a = some t → P t) :
    ∀ {as : List α} {s t : σ}, P s → run step s as = some t → P t
  | [], s, t, hs, h => by
    rw [run_nil, Option.some.injEq] at h
    exact h ▸ hs
  | a :: as, s, t, hs, h => by
    obtain ⟨u, hu, ht⟩ := run_cons_eq_some.mp h
    exact run_invariant hstep (hstep s a u hs hu) ht

/-- **Transition rule.**  A preorder that contains every step taken from an invariant state contains every run
from such a state. -/
theorem run_transition {P : σ → Prop} {R : σ → σ → Prop} (hP : ∀ s a t, P s → step s a = some t → P t)
    (hrefl : ∀ s, R s s) (htrans : ∀ s t u, R s t → R t u → R s u)
    (hstep : ∀ s a t, P s → step s a = some t → R s t) :
    ∀ {as : List α} {s t : σ}, P s → run step s as = some t → R s t
  | [], s, t, _, h => by
    rw [run_nil, Option.some.injEq] at h
    exact h ▸ hrefl s
  | a :: as, s, t, hs, h => by
    obtain ⟨u, hu, ht⟩ := run_cons_eq_some.mp h
    exact htrans s u t (hstep s a u hs hu)
      (run_transition hP hrefl htrans hstep (hP s a u hs hu) ht)

/-- **Simulation rule.**  If every step of one system is matched by a run of another, every run is. -/
theorem run_simulates {τ β : Type*} {step' : τ → β → Option τ} {R : σ → τ → Prop}
    (hsim : ∀ s a s' t, R s t → step s a = some s' → ∃ bs t', run step' t bs = some t' ∧ R s' t') :
    ∀ {as : List α} {s s' : σ} {t : τ}, R s t → run step s as = some s' →
      ∃ bs t', run step' t bs = some t' ∧ R s' t'
  | [], s, s', t, hR, h => by
    rw [run_nil, Option.some.injEq] at h
    exact ⟨[], t, rfl, h ▸ hR⟩
  | a :: as, s, s', t, hR, h => by
    obtain ⟨u, hu, h⟩ := run_cons_eq_some.mp h
    obtain ⟨bs, v, hv, hR⟩ := hsim s a u t hR hu
    obtain ⟨cs, t', ht', hR⟩ := run_simulates hsim hR h
    exact ⟨bs ++ cs, t', run_append_eq_some.mpr ⟨v, hv, ht'⟩, hR⟩

/-- Every step of the run that starts in `s` is one that `Q` allows. -/
def Each (step : σ → α → Option σ) (Q : σ → α → Prop) : σ → List α → Prop
  | _, [] => True
  | s, a :: as => Q s a ∧ ∀ t, step s a = some t → Each step Q t as

theorem each_cons_iff {Q : σ → α → Prop} {s t : σ} {a : α} {as : List α} (h : step s a = some t) :
    Each step Q s (a :: as) ↔ Q s a ∧ Each step Q t as := by
  refine and_congr_right fun _ => ⟨fun heach => heach t h, fun heach v hv => ?_⟩
  obtain rfl := Option.some.inj (h.symm.trans hv)
  exact heach

theorem each_append_iff {Q : σ → α → Prop} :
    ∀ {as bs : List α} {s t : σ}, run step s as = some t →
      (Each step Q s (as ++ bs) ↔ Each step Q s as ∧ Each step Q t bs)
  | [], bs, s, t, h => by
    obtain rfl := Option.some.inj h
    exact ⟨fun hbs => ⟨trivial, hbs⟩, fun hbs => hbs.2⟩
  | a :: as, bs, s, t, h => by
    obtain ⟨u, hu, ht⟩ := run_cons_eq_some.mp h
    rw [List.cons_append, each_cons_iff hu, each_cons_iff hu, each_append_iff ht, and_assoc]

/-- A run whose steps meet `Q`, one step longer at its beginning. -/
theorem each_run_cons {Q : σ → α → Prop} {s t u : σ} {a : α} {as : List α} (h : step s a = some u) (ha : Q s a)
    (has : Each step Q u as ∧ run step u as = some t) :
    Each step Q s (a :: as) ∧ run step s (a :: as) = some t :=
  ⟨(each_cons_iff h).mpr ⟨ha, has.1⟩, (run_cons_of h as).trans has.2⟩

/-- Two runs whose steps meet `Q`, one behind the other. -/
theorem each_run_append {Q : σ → α → Prop} {s t u : σ} {as bs : List α}
    (has : Each step Q s as ∧ run step s as = some u) (hbs : Each step Q u bs ∧ run step u bs = some t) :
    Each step Q s (as ++ bs) ∧ run step s (as ++ bs) = some t :=
  ⟨(each_append_iff has.2).mpr ⟨has.1, hbs.1⟩, run_append_eq_some.mpr ⟨u, has.2, hbs.2⟩⟩

theorem Each.mono {Q Q' : σ → α → Prop} (hQ : ∀ s a, Q s a → Q' s a) :
    ∀ {as : List α} {s : σ}, Each step Q s as → Each step Q' s as
  | [], _, _ => trivial
  | _ :: _, s, h => ⟨hQ s _ h.1, fun t ht => (h.2 t ht).mono hQ⟩

/-- **Invariant rule for the steps that `Q` allows.** -/
theorem each_invariant {P : σ → Prop} {Q : σ → α → Prop} (hstep : ∀ s a t, P s → Q s a → step s a = some t → P t) :
    ∀ {as : List α} {s t : σ}, P s → Each step Q s as → run step s as = some t → P t
  | [], s, t, hs, _, h => by
    rw [run_nil, Option.some.injEq] at h
    exact h ▸ hs
  | a :: as, s, t, hs, heach, h => by
    obtain ⟨u, hu, ht⟩ := run_cons_eq_some.mp h
    exact each_invariant hstep (hstep s a u hs heach.1 hu) (heach.2 u hu) ht

theorem each_true : ∀ (s : σ) (as : List α), Each step (fun _ _ => True) s as
  | _, [] => trivial
  | _, _ :: as => ⟨trivial, fun t _ => each_true t as⟩

theorem each_of_forall {Q : α → Prop} : ∀ (s : σ) {as : List α}, (∀ a ∈ as, Q a) → Each step (fun _ a => Q a) s as
  | _, [], _ => trivial
  | _, a :: _, h => ⟨h a List.mem_cons_self, fun t _ => each_of_forall t fun b hb => h b (List.mem_cons_of_mem a hb)⟩

theorem each_initial {Q : σ → α → Prop} :
    ∀ {as bs : List α} {s : σ}, bs <+: as → Each step Q s as → Each step Q s bs
  | _, [], _, _, _ => trivial
  | _, b :: bs, s, hbs, h => by
    obtain ⟨cs, rfl⟩ := hbs
    exact ⟨h.1, fun t ht => each_initial (List.prefix_append bs cs) (h.2 t ht)⟩

/-- `P` holds in every state of the run, the first and the last included. -/
def Always (step : σ → α → Option σ) (P : σ → Prop) (s : σ) (as : List α) : Prop :=
  ∀ bs u, bs <+: as → run step s bs = some u → P u

theorem always_cons_iff {P : σ → Prop} {s t : σ} {a : α} {as : List α} (h : step s a = some t) :
    Always step P s (a :: as) ↔ P s ∧ Always step P t as := by
  constructor
  · refine fun hP => ⟨hP [] s List.nil_prefix rfl, fun bs u hbs hu => ?_⟩
    exact hP (a :: bs) u (List.cons_prefix_cons.mpr ⟨rfl, hbs⟩) ((run_cons_of h bs).trans hu)
  · rintro ⟨hs, hP⟩ bs u hbs hu
    cases bs with
    | nil =>
      rw [run_nil, Option.some.injEq] at hu
      exact hu ▸ hs
    | cons b bs =>
      obtain ⟨rfl, hrest⟩ := List.cons_prefix_cons.mp hbs
      exact hP bs u hrest ((run_cons_of h bs).symm.trans hu)

/-- What the steps that `Q` allows preserve holds in every state of a run of such steps. -/
theorem always_of_each {P : σ → Prop} {Q : σ → α → Prop} (hstep : ∀ s a t, P s → Q s a → step s a = some t → P t)
    {as : List α} {s : σ} (hs : P s) (h : Each step Q s as) : Always step P s as :=
  fun _ _ hbs hu => each_invariant hstep hs (each_initial hbs h) hu

/-- **Blame rule for every state.**  A step that `Q` allows keeps the invariant `I`, which is enough for `P`, and one
that `Q` does not allow ends outside of `P`; both only as far as the steps are of the kind `R`. -/
theorem always_iff {I P : σ → Prop} {Q R : σ → α → Prop} (hP : ∀ s, I s → P s)
    (hkeep : ∀ s a t, I s → R s a → Q s a → step s a = some t → I t)
    (hblame : ∀ s a t, I s → step s a = some t → P t → Q s a) :
    ∀ {as : List α} {s t : σ}, I s → Each step R s as → run step s as = some t →
      (Always step P s as ↔ Each step Q s as)
  | [], s, t, hs, _, _ => by
    refine iff_of_true (fun bs u hbs hu => ?_) trivial
    rw [List.prefix_nil.mp hbs, run_nil, Option.some.injEq] at hu
    exact hu ▸ hP s hs
  | a :: as, s, t, hs, hR, h => by
    obtain ⟨u, hu, ht⟩ := run_cons_eq_some.mp h
    rw [always_cons_iff hu, each_cons_iff hu]
    have hrest : Q s a → (Always step P u as ↔ Each step Q u as) := fun hQ =>
      always_iff hP hkeep hblame (hkeep s a u hs hR.1 hQ hu) (hR.2 u hu) ht
    constructor
    · rintro ⟨-, halways⟩
      have hQ : Q s a := hblame s a u hs hu (halways [] u List.nil_prefix rfl)
      exact ⟨hQ, (hrest hQ).mp halways⟩
    · rintro ⟨hQ, heach⟩
      exact ⟨hP s hs, (hrest hQ).mpr heach⟩

/-- **Blame rule.**  If a step keeps `P` exactly when `Q` allows it, and `P` once lost does not come back, then `P`
holds behind a run exactly if `Q` allows each of its steps. -/
theorem run_iff {I P : σ → Prop} {Q : σ → α → Prop} (hI : ∀ s a t, I s → step s a = some t → I t)
    (hstep : ∀ s a t, I s → step s a = some t → (P t ↔ P s ∧ Q s a)) :
    ∀ {as : List α} {s t : σ}, I s → run step s as = some t → (P t ↔ P s ∧ Each step Q s as)
  | [], s, t, _, h => by
    rw [run_nil, Option.some.injEq] at h
    rw [← h]
    exact ⟨fun hp => ⟨hp, trivial⟩, fun hp => hp.1⟩
  | a :: as, s, t, hs, h => by
    obtain ⟨u, hu, ht⟩ := run_cons_eq_some.mp h
    rw [run_iff hI hstep (hI s a u hs hu) ht, hstep s a u hs hu, each_cons_iff hu, and_assoc]

end Runs
