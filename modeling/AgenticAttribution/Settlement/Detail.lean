import AgenticAttribution.Settlement.Store

/-!
# Settlement.Detail — the detail of a rejection

`truncateDetail` cuts a long detail by a backward scan over its bytes.  On valid UTF-8 the scan stops at the last rune
boundary that it can reach, at most three bytes down (`truncated_of_valid`).
-/

namespace Settlement

section Scan

theorem runeStart_iff (b : UInt8) : runeStart b = true ↔ b.toNat < 128 ∨ 192 ≤ b.toNat := by
  have hall : ∀ n : Fin 256, runeStart ⟨⟨n⟩⟩ = true ↔ n.val < 128 ∨ 192 ≤ n.val := by decide +kernel
  exact hall b.toFin

/-- The bytes at which `utf8.RuneStart` holds are those behind a boundary. -/
theorem runeStart_iff_boundary {cs : List Char} {k : ℕ} {b : UInt8} (hb : (Utf8.encode cs)[k]? = some b) :
    runeStart b = true ↔ Utf8.Boundary (Utf8.encode cs) k := by
  induction cs generalizing k with
  | nil => cases hb
  | cons c cs ih =>
    obtain ⟨lead, rest, hc, hlead, hrest⟩ := Utf8.utf8EncodeChar_bytes c
    have hlen : (String.utf8EncodeChar c).length = rest.length + 1 := by rw [hc, List.length_cons]
    rw [Utf8.encode_cons] at hb
    rw [runeStart_iff]
    by_cases hk : k < (String.utf8EncodeChar c).length
    · rw [List.getElem?_append_left hk, hc] at hb
      cases k with
      | zero =>
        obtain rfl := Option.some.inj hb
        exact iff_of_true hlead (Utf8.boundary_zero (c :: cs))
      | succ k =>
        have hmid := hrest b (List.mem_of_getElem? hb)
        refine iff_of_false (by omega) fun hcut => ?_
        rcases hcut.of_cons with h0 | ⟨j, hj, -⟩
        · cases h0
        · omega
    · rw [List.getElem?_append_right (Nat.le_of_not_lt hk)] at hb
      rw [← runeStart_iff, ih hb]
      constructor
      · intro hcut
        have hnext := hcut.cons c
        rwa [Nat.add_sub_cancel' (Nat.le_of_not_lt hk)] at hnext
      · intro hcut
        rcases hcut.of_cons with rfl | ⟨j, rfl, hj⟩
        · omega
        · rwa [Nat.add_sub_cancel_left]

/-- The scan as Go runs it; `none` is an index out of range. -/
def scan (s : Bytes) : ℕ → Option ℕ
  | 0 => some 0
  | cut + 1 => s[cut + 1]?.bind fun b => if runeStart b then some (cut + 1) else scan s cut

theorem scan_eq {s : Bytes} {cut : ℕ} (h : cut < s.length) : scan s cut = some (cutAt s cut) := by
  induction cut with
  | zero => rfl
  | succ cut ih =>
    rw [scan, cutAt, List.getElem?_eq_getElem h, Option.bind_some, Option.all_some]
    split_ifs
    · rfl
    · exact ih (Nat.lt_of_succ_lt h)

/-- **The scan finds the last boundary** that is not behind its start. -/
theorem cutAt_greatest {cs : List Char} {cut : ℕ} (h : cut < (Utf8.encode cs).length) :
    Utf8.Boundary (Utf8.encode cs) (cutAt (Utf8.encode cs) cut) ∧ cutAt (Utf8.encode cs) cut ≤ cut ∧
      ∀ k ≤ cut, Utf8.Boundary (Utf8.encode cs) k → k ≤ cutAt (Utf8.encode cs) cut := by
  induction cut with
  | zero => exact ⟨Utf8.boundary_zero cs, Nat.le_refl 0, fun k hk _ => hk⟩
  | succ cut ih =>
    have hb : (Utf8.encode cs)[cut + 1]? = some (Utf8.encode cs)[cut + 1] := List.getElem?_eq_getElem h
    have hstart := runeStart_iff_boundary hb
    rw [cutAt, hb, Option.all_some]
    by_cases hrune : runeStart (Utf8.encode cs)[cut + 1] = true
    · rw [if_pos hrune]
      exact ⟨hstart.mp hrune, Nat.le_refl _, fun k hk _ => hk⟩
    · obtain ⟨hcut, hle, hgreatest⟩ := ih (Nat.lt_of_succ_lt h)
      rw [if_neg hrune]
      refine ⟨hcut, Nat.le_succ_of_le hle, fun k hk hboundary => ?_⟩
      rcases Nat.le_succ_iff.mp hk with hk | rfl
      · exact hgreatest k hk hboundary
      · exact absurd (hstart.mpr hboundary) hrune

end Scan

/-! ## The detail -/

section Truncate

variable {s : Bytes}

/-- The longest prefix of `s` within the limit that ends on a rune boundary. -/
structure LongestPrefix (s p : Bytes) : Prop where
  isPrefix : p <+: s
  limit : p.length ≤ maxRejectionDetail
  boundary : Utf8.Boundary s p.length
  longest : ∀ q, q <+: s → q.length ≤ maxRejectionDetail → Utf8.Boundary s q.length → q.length ≤ p.length

/-- The truncation of a detail is safe. -/
structure Truncated (s : Bytes) : Prop where
  valid : Utf8.valid (truncateDetail s) = true
  /-- A detail within the limit is left alone. -/
  short : s.length ≤ maxRejectionDetail → truncateDetail s = s
  long : maxRejectionDetail < s.length → ∃ p, LongestPrefix s p ∧ truncateDetail s = p ++ Utf8.str "..." ∧
    497 ≤ p.length ∧ (truncateDetail s).length ≤ 503
  /-- The scan reads inside the detail, and stops before the start of it. -/
  scans : maxRejectionDetail < s.length → ∃ cut, scan s maxRejectionDetail = some cut ∧ 497 ≤ cut ∧
    truncateDetail s = s.take cut ++ Utf8.str "..."

theorem truncateDetail_long (h : maxRejectionDetail < s.length) :
    truncateDetail s = s.take (cutAt s maxRejectionDetail) ++ Utf8.str "..." := if_neg (Nat.not_le.mpr h)

theorem cutAt_near {cs : List Char} (h : maxRejectionDetail < (Utf8.encode cs).length) :
    497 ≤ cutAt (Utf8.encode cs) maxRejectionDetail := by
  obtain ⟨-, -, hgreatest⟩ := cutAt_greatest h
  obtain ⟨j, hj, hle, hnear⟩ := Utf8.exists_boundary_near (Nat.le_of_lt h)
  have hcut := hgreatest j hle hj
  have hlimit : maxRejectionDetail = 500 := rfl
  omega

/-- The prefix that the scan leaves. -/
theorem longestPrefix_take {cs : List Char} (h : maxRejectionDetail < (Utf8.encode cs).length) :
    LongestPrefix (Utf8.encode cs) ((Utf8.encode cs).take (cutAt (Utf8.encode cs) maxRejectionDetail)) := by
  obtain ⟨hcut, hle, hgreatest⟩ := cutAt_greatest h
  have hlen : ((Utf8.encode cs).take (cutAt (Utf8.encode cs) maxRejectionDetail)).length
      = cutAt (Utf8.encode cs) maxRejectionDetail := by
    rw [List.length_take]
    omega
  refine ⟨List.take_prefix _ _, ?_, ?_, fun q _ hq hboundary => ?_⟩
  · rw [hlen]
    exact hle
  · rw [hlen]
    exact hcut
  · rw [hlen]
    exact hgreatest q.length hq hboundary

theorem valid_append {p q : Bytes} (hp : Utf8.valid p = true) (hq : Utf8.valid q = true) :
    Utf8.valid (p ++ q) = true := by
  obtain ⟨cs, rfl⟩ := Utf8.valid_iff.mp hp
  obtain ⟨ds, rfl⟩ := Utf8.valid_iff.mp hq
  rw [← Utf8.encode_append]
  exact Utf8.valid_encode _

/-- **Truncation is safe on every valid string.** -/
theorem truncated_of_valid (h : Utf8.valid s = true) : Truncated s := by
  obtain ⟨cs, rfl⟩ := Utf8.valid_iff.mp h
  refine ⟨?_, fun hshort => if_pos hshort, fun hlong => ?_, fun hlong => ?_⟩
  · by_cases hshort : (Utf8.encode cs).length ≤ maxRejectionDetail
    · rw [truncateDetail, if_pos hshort]
      exact h
    · have hlong := Nat.lt_of_not_le hshort
      rw [truncateDetail_long hlong]
      exact valid_append (cutAt_greatest hlong).1.valid_take (Utf8.valid_encode _)
  · have hlongest := longestPrefix_take hlong
    have hnear := cutAt_near hlong
    refine ⟨_, hlongest, truncateDetail_long hlong, ?_, ?_⟩
    · rw [List.length_take]
      have hlimit : maxRejectionDetail = 500 := rfl
      omega
    · rw [truncateDetail_long hlong, List.length_append]
      have hlimit : maxRejectionDetail = 500 := rfl
      have hdots : (Utf8.str "...").length = 3 := by decide
      have hle := hlongest.limit
      omega
  · exact ⟨_, scan_eq hlong, cutAt_near hlong, truncateDetail_long hlong⟩

/-- **Postgres takes the truncation of every detail that it takes.** -/
theorem textOk_truncateDetail (h : textOk s = true) : textOk (truncateDetail s) = true := by
  obtain ⟨hvalid, hnul⟩ := Bool.and_eq_true_iff.mp h
  have hnul : (0 : UInt8) ∉ s := by simpa using hnul
  have hzero : (0 : UInt8) ∉ truncateDetail s := by
    unfold truncateDetail
    split_ifs
    · exact hnul
    · intro hmem
      rcases List.mem_append.mp hmem with hmem | hmem
      · exact hnul (List.mem_of_mem_take hmem)
      · exact absurd hmem (by decide)
  exact Bool.and_eq_true_iff.mpr ⟨(truncated_of_valid hvalid).valid, by simpa using hzero⟩

/-- A detail of which a rune straddles the limit. -/
theorem truncated_sample : Truncated (Utf8.encode (List.replicate 200 '€')) :=
  truncated_of_valid (Utf8.valid_encode _)

end Truncate

end Settlement
