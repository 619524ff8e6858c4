import AgenticAttribution.Lib.Double
import AgenticAttribution.Lib.Ring

/-!
# Search.Latency — the latency recorder

`latencyRecorder` of `internal/search/handler.go`.  The first `capacity` observations are appended; from then on the
one with number `n` goes to position `n % capacity`, where the count starts at one and the positions at zero.  So the
first observation stays in the window for one round too long, in place of the oldest one that should be there:
`tracks_iff` says when that shows.
-/

namespace Search

open Ring

/-! ## The recorder -/

section Recorder

/-- The samples are durations in nanoseconds. -/
structure LatencyRecorder where
  samples : List ℤ
  total : ℤ
  capacity : ℕ

def newLatencyRecorder : LatencyRecorder := ⟨[], 0, 10000⟩

/-- An `int64`. -/
def int64 (n : ℤ) : ℤ := n.bmod (2 ^ 64)

/-- `observe`.  A negative position panics, with the count already raised. -/
def LatencyRecorder.observe (l : LatencyRecorder) (d : ℤ) : LatencyRecorder :=
  let total := int64 (l.total + 1)
  if l.samples.length < l.capacity then { l with total, samples := l.samples ++ [d] }
  else
    let position := total.tmod l.capacity
    { l with total, samples := if 0 ≤ position then l.samples.set position.toNat d else l.samples }

structure LatencySnapshot where
  count : ℤ
  p50Ms : ℤ
  p95Ms : ℤ
  p99Ms : ℤ
  maxMs : ℤ

/-- `int(float64(n) * p)`, with `p` in units of `2 ^ -53`. -/
def scaled (n p : ℕ) : ℕ := Double.roundNat (Double.roundNat n * p) / 2 ^ 53

def percentile (sorted : List ℤ) (p : ℕ) : ℤ :=
  if sorted.length = 0 then 0
  else
    let idx := scaled (sorted.length - 1) p
    let idx := if idx ≥ sorted.length then sorted.length - 1 else idx
    sorted.getD idx 0

def milliseconds (d : ℤ) : ℤ := d.tdiv 1000000

/-- The snapshot of a count and of samples.  The constants are `0.50`, `0.95` and `0.99` as doubles. -/
def snapshotOf (total : ℤ) (samples : List ℤ) : LatencySnapshot :=
  if samples.length = 0 then ⟨0, 0, 0, 0, 0⟩
  else
    let sorted := samples.mergeSort fun a b => decide (a ≤ b)
    ⟨total, milliseconds (percentile sorted 4503599627370496), milliseconds (percentile sorted 8556839292003942),
      milliseconds (percentile sorted 8917127262193582), milliseconds (sorted.getD (sorted.length - 1) 0)⟩

def LatencyRecorder.snapshot (l : LatencyRecorder) : LatencySnapshot := snapshotOf l.total l.samples

end Recorder

/-! ## What is asked -/

section Spec

/-- The last observations, as many as fit. -/
def window (capacity : ℕ) (observed : List ℤ) : List ℤ := observed.drop (observed.length - capacity)

/-- **The recorder tracks what it observed**: its samples are the last observations, its count is that of all, and a
snapshot depends on nothing else. -/
def Tracks (l : LatencyRecorder) (observed : List ℤ) : Prop :=
  l.samples.Perm (window l.capacity observed) ∧ l.snapshot.count = observed.length ∧
    l.snapshot = snapshotOf observed.length (window l.capacity observed)

end Spec

/-! ## The samples as a queue -/

section Queue

variable {l : LatencyRecorder} {d : ℤ} {ds xs : List ℤ}

theorem capacity_observe : (l.observe d).capacity = l.capacity := by
  unfold LatencyRecorder.observe
  dsimp only
  split_ifs <;> rfl

theorem capacity_foldl : (ds.foldl LatencyRecorder.observe l).capacity = l.capacity := by
  induction ds generalizing l with
  | nil => rfl
  | cons d ds ih => rw [List.foldl_cons, ih, capacity_observe]

theorem total_observe : (l.observe d).total = int64 (l.total + 1) := by
  unfold LatencyRecorder.observe
  dsimp only
  split_ifs <;> rfl

/-- The count is that of all observations, as an `int64`. -/
theorem total_foldl (h : l.total = int64 l.total) :
    (ds.foldl LatencyRecorder.observe l).total = int64 (l.total + ds.length) := by
  induction ds generalizing l with
  | nil => simpa using h
  | cons d ds ih =>
    have hint : (l.observe d).total = int64 (l.observe d).total := by
      rw [total_observe]
      exact Int.bmod_bmod.symm
    have hlen : l.total + 1 + ds.length = l.total + (d :: ds).length := by
      rw [List.length_cons]
      omega
    rw [List.foldl_cons, ih hint, total_observe, ← hlen]
    exact Int.bmod_add_bmod

theorem int64_of_lt {n : ℕ} (h : n < 2 ^ 63) : int64 n = n := by
  unfold int64
  rw [Int.bmod_eq_of_le (by omega) (by omega)]

theorem int64_succ {n : ℕ} (h : n + 1 < 2 ^ 63) : int64 (n + 1) = ((n + 1 : ℕ) : ℤ) := by
  rw [← int64_of_lt h, Int.natCast_succ]

theorem int64_lt (n : ℤ) : int64 n < 2 ^ 63 := by
  have hlt := @Int.bmod_lt n (2 ^ 64) (by decide)
  unfold int64
  omega

/-- Up to the capacity every observation is kept. -/
theorem samples_filling (h : l.samples.length + ds.length ≤ l.capacity) :
    (ds.foldl LatencyRecorder.observe l).samples = l.samples ++ ds := by
  induction ds generalizing l with
  | nil => simp
  | cons d ds ih =>
    rw [List.length_cons] at h
    have hobserve : (l.observe d).samples = l.samples ++ [d] := by
      unfold LatencyRecorder.observe
      rw [if_pos (by omega)]
    have hlen : (l.observe d).samples.length = l.samples.length + 1 := by
      rw [hobserve, List.length_append, List.length_singleton]
    rw [List.foldl_cons, ih (by rw [hlen, capacity_observe]; omega), hobserve, List.append_assoc, List.singleton_append]

/-- A full recorder overwrites at the position of the next count. -/
theorem samples_observe_full {n : ℕ} (hfull : l.samples.length = l.capacity) (htotal : l.total = n)
    (hn : n + 1 < 2 ^ 63) : (l.observe d).samples = l.samples.set ((n + 1) % l.samples.length) d := by
  have hnext : int64 (l.total + 1) = ((n + 1 : ℕ) : ℤ) := by
    rw [htotal, int64_succ hn]
  have hmod : ((n + 1 : ℕ) : ℤ).tmod l.capacity = (((n + 1) % l.capacity : ℕ) : ℤ) := (Int.ofNat_tmod _ _).symm
  unfold LatencyRecorder.observe
  rw [if_neg (by omega)]
  show (if 0 ≤ (int64 (l.total + 1)).tmod l.capacity then _ else _) = _
  rw [hnext, hmod, if_pos (Int.natCast_nonneg _), Int.toNat_natCast, hfull]

/-- **Behind a full recorder the observations are pushed**, in the order in which the samples are overwritten. -/
theorem rotate_samples {n : ℕ} (hpos : 0 < l.capacity) (hfull : l.samples.length = l.capacity) (htotal : l.total = n)
    (hn : n + ds.length < 2 ^ 63) :
    (ds.foldl LatencyRecorder.observe l).samples.rotate (n + ds.length + 1) =
      ds.foldl push (l.samples.rotate (n + 1)) := by
  induction ds generalizing l n with
  | nil => rfl
  | cons d ds ih =>
    rw [List.length_cons] at hn
    have hobserve := samples_observe_full (d := d) hfull htotal (by omega)
    have htotal' : (l.observe d).total = ((n + 1 : ℕ) : ℤ) := by
      rw [total_observe, htotal, int64_succ (by omega)]
    have hfull' : (l.observe d).samples.length = (l.observe d).capacity := by
      rw [hobserve, List.length_set, hfull, capacity_observe]
    have hne : l.samples ≠ [] := List.length_pos_iff.mp (hfull.symm ▸ hpos)
    rw [List.foldl_cons, List.foldl_cons, ← rotate_set hne, ← hobserve,
      ← ih (by rw [capacity_observe]; exact hpos) hfull' htotal' (by omega), List.length_cons]
    congr 1
    omega

end Queue

/-! ## When the samples are the window -/

section Window

variable {xs : List ℤ} {capacity : ℕ}

/-- A recorder that has observed. -/
def observed (capacity : ℕ) (xs : List ℤ) : LatencyRecorder := xs.foldl LatencyRecorder.observe ⟨[], 0, capacity⟩

theorem capacity_observed : (observed capacity xs).capacity = capacity := capacity_foldl

theorem total_observed : (observed capacity xs).total = int64 xs.length := by
  have htotal : (observed capacity xs).total = int64 ((⟨[], 0, capacity⟩ : LatencyRecorder).total + xs.length) :=
    total_foldl rfl
  rwa [zero_add] at htotal

theorem samples_observed_of_le (h : xs.length ≤ capacity) : (observed capacity xs).samples = xs :=
  samples_filling (l := ⟨[], 0, capacity⟩) (by simpa using h)

/-- The samples of a recorder that has overwritten: the first observation stands behind those it was appended with. -/
theorem samples_observed {x : ℤ} {pre post : List ℤ} (hpre : (x :: pre).length = capacity)
    (hlt : capacity + post.length < 2 ^ 63) :
    (observed capacity (x :: pre ++ post)).samples.Perm ((pre ++ [x] ++ post).drop post.length) := by
  have hfull : (observed capacity (x :: pre)).samples = x :: pre := samples_observed_of_le (Nat.le_of_eq hpre)
  have htotal : (observed capacity (x :: pre)).total = ((capacity : ℕ) : ℤ) := by
    rw [total_observed, hpre, int64_of_lt (by omega)]
  have hpos : 0 < capacity := hpre ▸ Nat.succ_pos _
  have hrotate : (post.foldl LatencyRecorder.observe (observed capacity (x :: pre))).samples.rotate
      (capacity + post.length + 1) = post.foldl push ((observed capacity (x :: pre)).samples.rotate (capacity + 1)) :=
    rotate_samples (by rw [capacity_observed]; exact hpos) (by rw [hfull, capacity_observed]; exact hpre) htotal hlt
  -- at the first overwrite the queue begins with the second observation
  have hqueue : (x :: pre).rotate (capacity + 1) = pre ++ [x] := by
    have hlen : (pre ++ [x]).length = capacity := by
      rw [List.length_append, List.length_singleton, ← hpre, List.length_cons]
    rw [List.rotate_cons_succ, ← hlen, List.rotate_length]
  rw [hfull, hqueue, foldl_push _ _ (List.append_ne_nil_of_right_ne_nil _ (List.cons_ne_nil x []))] at hrotate
  have hsamples : (observed capacity (x :: pre ++ post)).samples =
      (post.foldl LatencyRecorder.observe (observed capacity (x :: pre))).samples := by
    rw [observed, List.foldl_append]
    rfl
  rw [hsamples, ← hrotate]
  exact (List.rotate_perm _ _).symm

/-- More observations than the capacity: the first one, those that fill the samples, and those that overwrite. -/
theorem exists_overwriting (hpos : 0 < capacity) (h : capacity < xs.length) :
    ∃ x pre post, xs = x :: pre ++ post ∧ (x :: pre).length = capacity := by
  obtain ⟨x, pre, hcons⟩ : ∃ x pre, xs.take capacity = x :: pre := by
    refine List.exists_cons_of_ne_nil fun hnil => ?_
    have hlen := congrArg List.length hnil
    rw [List.length_take, List.length_nil] at hlen
    omega
  refine ⟨x, pre, xs.drop capacity, by rw [← hcons, List.take_append_drop], ?_⟩
  rw [← hcons, List.length_take]
  omega

/-- A full round behind the capacity, both lists are observations of the last part. -/
theorem drop_of_round {head tail post : List ℤ} (hsame : head.length = tail.length) (h : tail.length ≤ post.length) :
    (head ++ post).drop post.length = (tail ++ post).drop post.length := by
  rw [List.drop_append, List.drop_append, List.drop_eq_nil_of_le (hsame ▸ h), List.drop_eq_nil_of_le h, hsame]

/-- Within the first round, the first observation stands in for the one that is as far from the end as the capacity. -/
theorem perm_within_round {x : ℤ} {pre post : List ℤ} (hne : post ≠ []) (h : post.length ≤ pre.length) :
    ((pre ++ [x] ++ post).drop post.length).Perm ((x :: pre ++ post).drop post.length) ↔
      some x = (x :: pre ++ post)[post.length]? := by
  obtain ⟨k, hk⟩ : ∃ k, post.length = k + 1 :=
    Nat.exists_eq_succ_of_ne_zero fun h0 => hne (List.eq_nil_of_length_eq_zero h0)
  have hkpre : k < pre.length := by omega
  have hleft : (pre ++ [x] ++ post).drop post.length = pre.drop (k + 1) ++ x :: post := by
    rw [List.append_assoc, List.singleton_append, hk, List.drop_append_of_le_length hkpre]
  have hright : (x :: pre ++ post).drop post.length = pre[k] :: (pre.drop (k + 1) ++ post) := by
    rw [hk, List.cons_append, List.drop_succ_cons, List.drop_append_of_le_length (Nat.le_of_lt hkpre),
      ← List.getElem_cons_drop hkpre, List.cons_append]
  have hmissing : (x :: pre ++ post)[post.length]? = some pre[k] := by
    rw [hk, List.cons_append, List.getElem?_cons_succ, List.getElem?_append_left hkpre,
      List.getElem?_eq_getElem hkpre]
  rw [hleft, hright, perm_replace_iff, hmissing, Option.some.injEq]

/-- **The samples are the window** up to the capacity, from twice the capacity on, and where the first observation is
the one that is missing. -/
theorem samples_perm_iff (hpos : 0 < capacity) (hlt : xs.length < 2 ^ 63) :
    (observed capacity xs).samples.Perm (window capacity xs) ↔
      xs.length ≤ capacity ∨ 2 * capacity ≤ xs.length ∨ xs[0]? = xs[xs.length - capacity]? := by
  by_cases hle : xs.length ≤ capacity
  · rw [samples_observed_of_le hle, window, Nat.sub_eq_zero_of_le hle, List.drop_zero]
    exact iff_of_true (List.Perm.refl _) (Or.inl hle)
  · obtain ⟨x, pre, post, rfl, hpre⟩ := exists_overwriting hpos (Nat.lt_of_not_le hle)
    have hlen : (x :: pre ++ post).length = capacity + post.length := by rw [List.length_append, hpre]
    have hperm : (observed capacity (x :: pre ++ post)).samples.Perm ((pre ++ [x] ++ post).drop post.length) :=
      samples_observed hpre (hlen ▸ hlt)
    rw [hperm.congr_left, window, hlen, Nat.add_sub_cancel_left]
    rw [List.length_cons] at hpre
    by_cases hround : capacity ≤ post.length
    · have hfull : (x :: pre).length ≤ post.length := by rwa [List.length_cons, hpre]
      rw [drop_of_round (by simp : (pre ++ [x]).length = (x :: pre).length) hfull]
      exact iff_of_true (List.Perm.refl _) (Or.inr (Or.inl (by omega)))
    · have hne : post ≠ [] := by
        rintro rfl
        rw [List.length_nil] at hlen
        omega
      rw [perm_within_round hne (by omega)]
      refine ⟨fun h => Or.inr (Or.inr h), ?_⟩
      rintro (h | h | h)
      · omega
      · omega
      · exact h

theorem snapshotOf_perm {total : ℤ} {samples samples' : List ℤ} (h : samples.Perm samples') :
    snapshotOf total samples = snapshotOf total samples' := by
  have hsort : (samples.mergeSort fun a b => decide (a ≤ b)) = samples'.mergeSort fun a b => decide (a ≤ b) := by
    have htrans : ∀ a b c : ℤ, decide (a ≤ b) = true → decide (b ≤ c) = true → decide (a ≤ c) = true := by
      intro a b c hab hbc
      simp only [decide_eq_true_eq] at hab hbc ⊢
      omega
    have htotal : ∀ a b : ℤ, (decide (a ≤ b) || decide (b ≤ a)) = true := by
      intro a b
      simp only [Bool.or_eq_true, decide_eq_true_eq]
      omega
    refine List.Perm.eq_of_pairwise ?_
      (List.pairwise_mergeSort htrans htotal _) (List.pairwise_mergeSort htrans htotal _)
      ((List.mergeSort_perm _ _).trans (h.trans (List.mergeSort_perm _ _).symm))
    intro a b _ _ hab hba
    simp only [decide_eq_true_eq] at hab hba
    omega
  rw [snapshotOf, snapshotOf, h.length_eq, hsort]

theorem count_snapshotOf (total : ℤ) (samples : List ℤ) (h : samples = [] → total = 0) :
    (snapshotOf total samples).count = total := by
  unfold snapshotOf
  split_ifs with hlen
  · exact (h (List.length_eq_zero_iff.mp hlen)).symm
  · rfl

/-- **The latency window is right exactly** up to the capacity, from twice the capacity on, and where the first
observation equals the one that it stands in for. -/
theorem tracks_iff (xs : List ℤ) : Tracks (xs.foldl LatencyRecorder.observe newLatencyRecorder) xs ↔
    xs.length < 2 ^ 63 ∧
      (xs.length ≤ 10000 ∨ 2 * 10000 ≤ xs.length ∨ xs[0]? = xs[xs.length - 10000]?) := by
  change Tracks (observed 10000 xs) xs ↔ _
  unfold Tracks LatencyRecorder.snapshot
  rw [capacity_observed, total_observed]
  by_cases hlt : xs.length < 2 ^ 63
  · rw [samples_perm_iff (by decide) hlt, int64_of_lt hlt]
    refine ⟨fun h => ⟨hlt, h.1⟩, fun h => ⟨h.2, ?_⟩⟩
    have hperm := (samples_perm_iff (by decide) hlt).mpr h.2
    refine ⟨count_snapshotOf _ _ fun hnil => ?_, snapshotOf_perm hperm⟩
    have hempty : window 10000 xs = [] := List.nil_perm.mp (hnil ▸ hperm)
    rw [window, List.drop_eq_nil_iff] at hempty
    omega
  · refine ⟨fun h => absurd ?_ hlt, fun h => absurd h.1 hlt⟩
    have hcount := h.2.1
    have hbound := int64_lt xs.length
    unfold snapshotOf at hcount
    split_ifs at hcount
    · simp only at hcount
      omega
    · simp only at hcount
      omega

/-- One slow request, and as many fast ones as fit. -/
def slowFirst : List ℤ := 5000000 :: List.replicate 10000 1000000

/-- **A slow request stays in the window when it should have left.** -/
theorem tracks_not : ¬Tracks (slowFirst.foldl LatencyRecorder.observe newLatencyRecorder) slowFirst := by
  change ¬Tracks (observed 10000 slowFirst) slowFirst
  rintro ⟨hperm, -⟩
  have hlen : slowFirst.length = 10001 := by rw [slowFirst, List.length_cons, List.length_replicate]
  rw [capacity_observed, samples_perm_iff (by decide) (by omega), hlen] at hperm
  have hfirst : slowFirst[0]? = some 5000000 := rfl
  have hsecond : slowFirst[10001 - 10000]? = some 1000000 := rfl
  rw [hfirst, hsecond] at hperm
  rcases hperm with h | h | h
  · omega
  · omega
  · exact absurd (Option.some.inj h) (by decide)

end Window

end Search
