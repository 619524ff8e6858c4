import AgenticAttribution.Lib.Run
import Mathlib.Algebra.Order.Floor.Semifield
import Mathlib.Algebra.Order.Ring.Rat
import Mathlib.Data.Rat.Floor

/-!
# Simulator.Population — the agent loops of the runner

`Runner` of `simulator/src/runner.ts`, without what the agents do.  Between two of its suspensions the program runs
alone: an operator's call is one step, and so is what a loop does from the moment it is resumed until it waits again
or leaves.  Concurrency is any finite number; a loop of `start` runs as often as there are naturals below it.

A loop that is asked to stop does so when it is next resumed.  `population_iff` says which calls leave more loops
active than the runner reports.
-/

namespace Simulator

/-! ## The runner -/

section Runner

/-- Where a loop is suspended. -/
inductive LoopAt where
  | attempt
  | pause
  deriving DecidableEq

structure Options where
  concurrency : ℚ
  fraudRate : ℚ

structure Stats where
  concurrency : ℚ
  fraudRate : ℚ
  lastEvent : String

/-- The runner, with its loops. -/
structure Runner where
  options : Options
  running : Bool
  active : ℕ
  stats : Stats
  loops : List LoopAt

structure Patch where
  concurrency : Option ℚ
  fraudRate : Option ℚ

def Runner.new (options : Options) : Runner :=
  ⟨options, false, 0, ⟨options.concurrency, options.fraudRate, "idle"⟩, []⟩

def clamp (value low high : ℚ) : ℚ := min high (max low value)

def Runner.configure (r : Runner) (patch : Patch) : Runner :=
  let r :=
    match patch.concurrency with
    | none => r
    | some c =>
      let c := clamp c 1 32
      { r with options := { r.options with concurrency := c }, stats := { r.stats with concurrency := c } }
  match patch.fraudRate with
  | none => r
  | some f =>
    let f := clamp f 0 1
    { r with options := { r.options with fraudRate := f }, stats := { r.stats with fraudRate := f } }

/-- `#loop`, up to its first suspension. -/
def Runner.loop (r : Runner) : Runner := { r with active := r.active + 1, loops := r.loops ++ [.attempt] }

/-- `start`. -/
def Runner.start (r : Runner) (patch : Patch) : Runner :=
  let r := r.configure patch
  if r.running then r
  else
    Runner.loop^[⌈r.options.concurrency⌉₊]
      { r with running := true, stats := { r.stats with lastEvent := "started" } }

/-- `stop`. -/
def Runner.stop (r : Runner) : Runner := { r with running := false, stats := { r.stats with lastEvent := "stopped" } }

/-- The end of `#loop`. -/
def Runner.leave (r : Runner) (i : ℕ) : Runner := { r with active := r.active - 1, loops := r.loops.eraseIdx i }

/-- What an operator does, or the loop that is resumed.  An attempt may end with an error. -/
inductive PopulationStep where
  | configure (patch : Patch)
  | start (patch : Patch)
  | stop
  | attempted (i : ℕ) (ok : Bool)
  | paused (i : ℕ)

def populationStep (r : Runner) : PopulationStep → Option Runner
  | .configure patch => some (r.configure patch)
  | .start patch => some (r.start patch)
  | .stop => some r.stop
  | .attempted i ok =>
    if r.loops[i]? = some .attempt then
      if ok && r.running then some { r with loops := r.loops.set i .pause } else some (r.leave i)
    else none
  | .paused i =>
    if r.loops[i]? = some .pause then
      if r.running then some { r with loops := r.loops.set i .attempt } else some (r.leave i)
    else none

end Runner

/-! ## What is asked -/

section Spec

/-- **While the runner is running no more loops are active than it reports.** -/
def WithinBound (r : Runner) : Prop := r.running = true → (r.loops.length : ℚ) ≤ r.stats.concurrency

/-- The concurrency behind a patch. -/
def Runner.bound (r : Runner) (patch : Patch) : ℚ :=
  (patch.concurrency.map fun c => clamp c 1 32).getD r.stats.concurrency

/-- The bound is not set below the loops there are, and a runner is started with a whole number of loops when the last
ones have left. -/
def Meets (r : Runner) : PopulationStep → Prop
  | .configure patch => r.running = true → (r.loops.length : ℚ) ≤ r.bound patch
  | .start patch =>
    if r.running then (r.loops.length : ℚ) ≤ r.bound patch else r.loops = [] ∧ ∃ n : ℕ, r.bound patch = n
  | _ => True

end Spec

/-! ## Steps -/

section Steps

variable {r t : Runner} {a : PopulationStep}

/-- The counter counts the loops, and the bound in force is the one that is reported. -/
structure Accounted (r : Runner) : Prop where
  active : r.active = r.loops.length
  bound : r.options.concurrency = r.stats.concurrency

theorem configure_concurrency (h : Accounted r) (patch : Patch) :
    (r.configure patch).options.concurrency = r.bound patch ∧
      (r.configure patch).stats.concurrency = r.bound patch := by
  unfold Runner.configure Runner.bound
  cases hc : patch.concurrency with
  | none => cases patch.fraudRate <;> exact ⟨h.bound, rfl⟩
  | some c => cases patch.fraudRate <;> exact ⟨rfl, rfl⟩

theorem configure_frame (r : Runner) (patch : Patch) : (r.configure patch).running = r.running ∧
    (r.configure patch).active = r.active ∧ (r.configure patch).loops = r.loops := by
  unfold Runner.configure
  cases patch.concurrency <;> cases patch.fraudRate <;> exact ⟨rfl, rfl, rfl⟩

theorem accounted_configure (h : Accounted r) (patch : Patch) : Accounted (r.configure patch) := by
  obtain ⟨-, hactive, hloops⟩ := configure_frame r patch
  obtain ⟨hoptions, hstats⟩ := configure_concurrency h patch
  exact ⟨by rw [hactive, hloops, h.active], by rw [hoptions, hstats]⟩

theorem iterate_loop (n : ℕ) (r : Runner) :
    Runner.loop^[n] r = { r with active := r.active + n, loops := r.loops ++ List.replicate n .attempt } := by
  induction n generalizing r with
  | zero => simp
  | succ n ih =>
    rw [Function.iterate_succ_apply, ih, Runner.loop]
    simp [List.replicate_succ, Nat.add_assoc, Nat.add_comm 1 n]

/-- What a start does to a runner that is not running. -/
theorem start_stopped (h : Accounted r) (hrunning : r.running = false) (patch : Patch) :
    (r.start patch).running = true ∧ (r.start patch).stats.concurrency = r.bound patch ∧
      (r.start patch).loops = r.loops ++ List.replicate ⌈r.bound patch⌉₊ .attempt ∧ Accounted (r.start patch) := by
  obtain ⟨hrun, hactive, hloops⟩ := configure_frame r patch
  obtain ⟨hoptions, hstats⟩ := configure_concurrency h patch
  have hstart : r.start patch = Runner.loop^[⌈(r.configure patch).options.concurrency⌉₊]
      { r.configure patch with
        running := true
        stats := { (r.configure patch).stats with lastEvent := "started" } } := by
    unfold Runner.start
    exact if_neg (by rw [hrun, hrunning]; exact Bool.false_ne_true)
  rw [hstart, iterate_loop, hoptions]
  refine ⟨rfl, hstats, by rw [hloops], ?_, ?_⟩
  · simp [hactive, hloops, h.active]
  · exact hoptions.trans hstats.symm

theorem start_running (hrunning : r.running = true) (patch : Patch) : r.start patch = r.configure patch :=
  if_pos ((configure_frame r patch).1.trans hrunning)

/-- Of a loop that goes on there are as many as before, and of one that leaves there is one less. -/
theorem accounted_leave (h : Accounted r) {i : ℕ} (hi : i < r.loops.length) :
    Accounted (r.leave i) ∧ (r.leave i).loops.length + 1 = r.loops.length := by
  have hlen : (r.loops.eraseIdx i).length = r.loops.length - 1 := List.length_eraseIdx_of_lt hi
  refine ⟨⟨?_, h.bound⟩, ?_⟩
  · show r.active - 1 = (r.loops.eraseIdx i).length
    rw [hlen, h.active]
  · show (r.loops.eraseIdx i).length + 1 = _
    omega

theorem withinBound_of_le {r t : Runner} (h : WithinBound r) (hrunning : t.running = r.running)
    (hstats : t.stats = r.stats) (hle : t.loops.length ≤ r.loops.length) : WithinBound t := by
  intro ht
  rw [hstats]
  exact (Nat.cast_le.mpr hle).trans (h (hrunning ▸ ht))

/-- **A loop that is resumed does not add to the population.** -/
theorem resumed (h : Accounted r) (hs : populationStep r a = some t)
    (ha : (∃ i ok, a = .attempted i ok) ∨ ∃ i, a = .paused i) :
    Accounted t ∧ t.running = r.running ∧ t.stats = r.stats ∧ t.loops.length ≤ r.loops.length := by
  have hgo : ∀ {i : ℕ} {l : LoopAt}, some { r with loops := r.loops.set i l } = some t →
      Accounted t ∧ t.running = r.running ∧ t.stats = r.stats ∧ t.loops.length ≤ r.loops.length := by
    intro i l ht
    obtain rfl := Option.some.inj ht
    have hlen : (r.loops.set i l).length = r.loops.length := List.length_set
    exact ⟨⟨h.active.trans hlen.symm, h.bound⟩, rfl, rfl, Nat.le_of_eq hlen⟩
  have hleave : ∀ {i : ℕ} {l : LoopAt}, r.loops[i]? = some l → some (r.leave i) = some t →
      Accounted t ∧ t.running = r.running ∧ t.stats = r.stats ∧ t.loops.length ≤ r.loops.length := by
    intro i l hget ht
    obtain rfl := Option.some.inj ht
    obtain ⟨hacc, hlen⟩ := accounted_leave h (List.getElem?_eq_some_iff.mp hget).1
    exact ⟨hacc, rfl, rfl, by omega⟩
  rcases ha with ⟨i, ok, rfl⟩ | ⟨i, rfl⟩
  · simp only [populationStep] at hs
    split_ifs at hs with hget hrun
    · exact hgo hs
    · exact hleave hget hs
  · simp only [populationStep] at hs
    split_ifs at hs with hget hrun
    · exact hgo hs
    · exact hleave hget hs

/-- As many loops as naturals below the bound are within it only if there were none and the bound is whole. -/
theorem add_ceil_le_iff {n : ℕ} {c : ℚ} : ((n + ⌈c⌉₊ : ℕ) : ℚ) ≤ c ↔ n = 0 ∧ ∃ m : ℕ, c = m := by
  have hceil : c ≤ ⌈c⌉₊ := Nat.le_ceil c
  push_cast
  constructor
  · intro h
    have hn : (n : ℚ) ≤ 0 := by linarith
    have hzero : n = 0 := Nat.le_zero.mp (by exact_mod_cast hn)
    subst hzero
    exact ⟨rfl, ⌈c⌉₊, le_antisymm hceil (by simpa using h)⟩
  · rintro ⟨rfl, m, rfl⟩
    simp

end Steps

/-! ## Runs -/

section Population

variable {r t : Runner} {a : PopulationStep} {as : List PopulationStep}

/-- The invariant of the runs. -/
structure Kept (r : Runner) : Prop extends Accounted r where
  within : WithinBound r

theorem kept_step (h : Kept r) (ha : Meets r a) (hs : populationStep r a = some t) : Kept t := by
  cases a with
  | configure patch =>
    obtain rfl := Option.some.inj hs
    obtain ⟨hrun, -, hloops⟩ := configure_frame r patch
    refine ⟨accounted_configure h.toAccounted patch, fun hrunning => ?_⟩
    rw [hloops, (configure_concurrency h.toAccounted patch).2]
    exact ha (hrun ▸ hrunning)
  | start patch =>
    obtain rfl := Option.some.inj hs
    unfold Meets at ha
    split_ifs at ha with hrunning
    · rw [start_running hrunning]
      obtain ⟨-, -, hloops⟩ := configure_frame r patch
      refine ⟨accounted_configure h.toAccounted patch, fun _ => ?_⟩
      rw [hloops, (configure_concurrency h.toAccounted patch).2]
      exact ha
    · obtain ⟨-, hstats, hloops, hacc⟩ := start_stopped h.toAccounted (Bool.eq_false_iff.mpr hrunning) patch
      refine ⟨hacc, fun _ => ?_⟩
      rw [hstats, hloops, List.length_append, List.length_replicate]
      exact add_ceil_le_iff.mpr ⟨List.length_eq_zero_iff.mpr ha.1, ha.2⟩
  | stop =>
    obtain rfl := Option.some.inj hs
    exact ⟨⟨h.active, h.bound⟩, nofun⟩
  | attempted i ok =>
    obtain ⟨hacc, hrun, hstats, hle⟩ := resumed h.toAccounted hs (Or.inl ⟨i, ok, rfl⟩)
    exact ⟨hacc, withinBound_of_le h.within hrun hstats hle⟩
  | paused i =>
    obtain ⟨hacc, hrun, hstats, hle⟩ := resumed h.toAccounted hs (Or.inr ⟨i, rfl⟩)
    exact ⟨hacc, withinBound_of_le h.within hrun hstats hle⟩

/-- A step that is not as asked leaves too many loops. -/
theorem meets_of_within (h : Kept r) (hs : populationStep r a = some t) (ht : WithinBound t) : Meets r a := by
  cases a with
  | configure patch =>
    obtain rfl := Option.some.inj hs
    obtain ⟨hrun, -, hloops⟩ := configure_frame r patch
    intro hrunning
    have hle := ht (hrun.trans hrunning)
    rwa [hloops, (configure_concurrency h.toAccounted patch).2] at hle
  | start patch =>
    obtain rfl := Option.some.inj hs
    unfold Meets
    split_ifs with hrunning
    · rw [start_running hrunning] at ht
      obtain ⟨hrun, -, hloops⟩ := configure_frame r patch
      have hle := ht (hrun.trans hrunning)
      rwa [hloops, (configure_concurrency h.toAccounted patch).2] at hle
    · obtain ⟨hrun, hstats, hloops, -⟩ := start_stopped h.toAccounted (Bool.eq_false_iff.mpr hrunning) patch
      have hle := ht hrun
      rw [hstats, hloops, List.length_append, List.length_replicate] at hle
      obtain ⟨hnone, hwhole⟩ := add_ceil_le_iff.mp hle
      exact ⟨List.length_eq_zero_iff.mp hnone, hwhole⟩
  | stop => trivial
  | attempted i ok => trivial
  | paused i => trivial

/-- **The population stays within its bound exactly** if no call sets the bound below the loops there are, and no
runner is started before the loops of its last run have left. -/
theorem population_iff (options : Options) (h : Runs.run populationStep (Runner.new options) as = some t) :
    Runs.Always populationStep WithinBound (Runner.new options) as ↔
      Runs.Each populationStep Meets (Runner.new options) as := by
  have hinit : Kept (Runner.new options) := ⟨⟨rfl, rfl⟩, nofun⟩
  exact Runs.always_iff (R := fun _ _ => True) (fun _ hk => hk.within) (fun _ _ _ hk _ ha hs => kept_step hk ha hs)
    (fun _ _ _ hk hs ht => meets_of_within hk hs ht) hinit (Runs.each_true _ _) h

end Population

/-! ## A restart -/

namespace Restart

def options : Options := ⟨4, 0⟩

def two : Patch := ⟨some 2, none⟩

def actions : List PopulationStep := [.start two, .stop, .start two]

def final : Runner := ((((Runner.new options).start two).stop).start two)

theorem run_actions : Runs.run populationStep (Runner.new options) actions = some final := rfl

theorem population_iff_sample : Runs.Always populationStep WithinBound (Runner.new options) actions ↔
    Runs.Each populationStep Meets (Runner.new options) actions :=
  population_iff options run_actions

/-- **A runner that is stopped and started at once has its loops twice.** -/
theorem restart_exceeds : ¬Runs.Always populationStep WithinBound (Runner.new options) actions := by
  intro h
  have hinit : Accounted (Runner.new options) := ⟨rfl, rfl⟩
  have hbound : ∀ r : Runner, r.bound two = 2 := fun r => by
    show clamp 2 1 32 = 2
    norm_num [clamp]
  have hceil : ⌈(2 : ℚ)⌉₊ = 2 := Nat.ceil_ofNat 2
  obtain ⟨-, -, hloops, hacc⟩ := start_stopped hinit rfl two
  have hstopped : Accounted ((Runner.new options).start two).stop := ⟨hacc.active, hacc.bound⟩
  obtain ⟨hrun, hstats, hloops', -⟩ := start_stopped hstopped rfl two
  have hle := h actions final (List.prefix_refl _) run_actions hrun
  have hlen : final.loops.length = 4 := by
    show (((Runner.new options).start two).stop.start two).loops.length = 4
    rw [hloops', hbound, hceil, List.length_append, List.length_replicate]
    show ((Runner.new options).start two).loops.length + 2 = 4
    rw [hloops, hbound, hceil, List.length_append, List.length_replicate]
    rfl
  have hreported : final.stats.concurrency = 2 := hstats.trans (hbound _)
  rw [hlen, hreported] at hle
  norm_num at hle

end Restart

end Simulator
