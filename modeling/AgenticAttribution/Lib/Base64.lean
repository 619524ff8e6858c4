import AgenticAttribution.Lib.Utf8
import Mathlib.Tactic.IntervalCases

/-!
# Lib.Base64 — two decoders of one alphabet

`decodeStd` is the standard padded decoder of Go's `encoding/base64` (`StdEncoding`, not strict): it skips line
breaks, wants the padding written out, and does not look at the bits the padding cuts off.  `forgiving` is the
forgiving decoder of the Infra standard, which `atob` runs: it strips every ASCII blank and takes the padding or
leaves it.  Both see a text only through the class of each symbol, so each is a function on `List Sym`.

`decodeStd_eq_ok_iff` and `forgiving_eq_some_iff` describe what the two accept.  It follows that the forgiving
decoder extends the other (`forgiving_of_decodeStd`), and where it says more (`decodeStd_isOk_iff`).
-/

namespace Base64

/-- What a decoder sees of a symbol. -/
inductive Sym where
  | digit (v : ℕ)
  | pad
  /-- CR and LF. -/
  | lineBreak
  /-- TAB, FORM FEED and SPACE. -/
  | blank
  | other
  deriving DecidableEq

/-- The class of a code point or of a byte. -/
def classify (n : ℕ) : Sym :=
  if 65 ≤ n ∧ n ≤ 90 then .digit (n - 65)
  else if 97 ≤ n ∧ n ≤ 122 then .digit (n - 71)
  else if 48 ≤ n ∧ n ≤ 57 then .digit (n + 4)
  else if n = 43 then .digit 62
  else if n = 47 then .digit 63
  else if n = 61 then .pad
  else if n = 10 ∨ n = 13 then .lineBreak
  else if n = 9 ∨ n = 12 ∨ n = 32 then .blank
  else .other

/-- The symbols of a text. -/
def symsOfText (cs : List Char) : List Sym := cs.map fun c => classify c.toNat

/-- The symbols of a byte string. -/
def symsOfBytes (bs : Bytes) : List Sym := bs.map fun b => classify b.toNat

/-- The bytes of a sequence of digits: three for each four, what is left over cut to whole bytes. -/
def bytesOfDigits : List ℕ → Bytes
  | a :: b :: c :: d :: r =>
    let v := a * 262144 + b * 4096 + c * 64 + d
    UInt8.ofNat (v / 65536) :: UInt8.ofNat (v / 256) :: UInt8.ofNat v :: bytesOfDigits r
  | [a, b, c] =>
    let v := a * 262144 + b * 4096 + c * 64
    [UInt8.ofNat (v / 65536), UInt8.ofNat (v / 256)]
  | [a, b] => [UInt8.ofNat ((a * 262144 + b * 4096) / 65536)]
  | _ => []

/-! ## The standard decoder -/

section Std

/-- Nothing but line breaks may follow the padding.  `si` is the offset of the next symbol. -/
def closeStd (bs : Bytes) : ℕ → List Sym → Except ℕ Bytes
  | _, [] => .ok bs
  | si, .lineBreak :: r => closeStd bs (si + 1) r
  | si, _ :: _ => .error si

/-- Behind the first pad of two. -/
def secondPad (bs : Bytes) : ℕ → List Sym → Except ℕ Bytes
  | si, [] => .error si
  | si, .lineBreak :: r => secondPad bs (si + 1) r
  | si, .pad :: r => closeStd bs (si + 1) r
  | si, _ :: _ => .error (si - 1)

/-- The decoder with the digits `acc` of the current quantum in hand; an error carries the offset it reports. -/
def quanta (acc : List ℕ) : ℕ → List Sym → Except ℕ Bytes
  | si, [] => if acc = [] then .ok [] else .error (si - acc.length)
  | si, .digit v :: r =>
    if acc.length = 3 then (quanta [] (si + 1) r).map (bytesOfDigits (acc ++ [v]) ++ ·)
    else quanta (acc ++ [v]) (si + 1) r
  | si, .lineBreak :: r => quanta acc (si + 1) r
  | si, .pad :: r =>
    if acc.length = 2 then secondPad (bytesOfDigits acc) (si + 1) r
    else if acc.length = 3 then closeStd (bytesOfDigits acc) (si + 1) r
    else .error si
  | si, _ :: _ => .error si

/-- `base64.StdEncoding.DecodeString` on a classified text. -/
def decodeStd (syms : List Sym) : Except ℕ Bytes := quanta [] 0 syms

/-- The text without its line breaks. -/
def dropBreaks (syms : List Sym) : List Sym := syms.filter (· ≠ .lineBreak)

@[simp] theorem dropBreaks_nil : dropBreaks [] = [] := rfl

@[simp] theorem dropBreaks_lineBreak (r : List Sym) : dropBreaks (.lineBreak :: r) = dropBreaks r := rfl

theorem dropBreaks_cons {s : Sym} (h : s ≠ .lineBreak) (r : List Sym) : dropBreaks (s :: r) = s :: dropBreaks r := by
  simp [dropBreaks, h]

/-- `n` digits in hand, then the digits `ds` and the pads that fill up the last quantum. -/
def Padded (n : ℕ) (ds : List ℕ) (syms : List Sym) : Prop :=
  ∃ k ≤ 2, (n + ds.length + k) % 4 = 0 ∧ syms = ds.map .digit ++ List.replicate k .pad

theorem closeStd_eq_ok_iff {bs out : Bytes} {si : ℕ} {syms : List Sym} :
    closeStd bs si syms = .ok out ↔ out = bs ∧ dropBreaks syms = [] := by
  induction syms generalizing si with
  | nil => simp [closeStd, eq_comm]
  | cons s r ih =>
    cases s with
    | lineBreak => rw [closeStd, ih, dropBreaks_lineBreak]
    | _ => simp [closeStd, dropBreaks_cons]

theorem secondPad_eq_ok_iff {bs out : Bytes} {si : ℕ} {syms : List Sym} :
    secondPad bs si syms = .ok out ↔ out = bs ∧ dropBreaks syms = [.pad] := by
  induction syms generalizing si with
  | nil => simp [secondPad]
  | cons s r ih =>
    cases s with
    | lineBreak => rw [secondPad, ih, dropBreaks_lineBreak]
    | pad => rw [secondPad, closeStd_eq_ok_iff, dropBreaks_cons (by decide), List.cons.injEq]; simp
    | _ => simp [secondPad, dropBreaks_cons]

/-- The digits of a quantum come off the front. -/
theorem bytesOfDigits_append {acc : List ℕ} (h : acc.length = 4) (ds : List ℕ) :
    bytesOfDigits (acc ++ ds) = bytesOfDigits acc ++ bytesOfDigits ds := by
  obtain ⟨a, b, c, d, rfl⟩ : ∃ a b c d, acc = [a, b, c, d] := by
    rcases acc with _ | ⟨a, _ | ⟨b, _ | ⟨c, _ | ⟨d, _ | ⟨e, l⟩⟩⟩⟩⟩ <;> simp at h
    exact ⟨a, b, c, d, rfl⟩
  rfl

theorem padded_digit {n v : ℕ} {ds : List ℕ} {syms : List Sym} :
    Padded n ds (.digit v :: syms) ↔ ∃ es, ds = v :: es ∧ Padded (n + 1) es syms := by
  constructor
  · rintro ⟨k, hk, hmod, h⟩
    cases ds with
    | nil => cases k <;> simp [List.replicate_succ] at h
    | cons d es =>
      simp only [List.map_cons, List.cons_append, List.cons.injEq, Sym.digit.injEq] at h
      refine ⟨es, by rw [h.1], k, hk, ?_, h.2⟩
      rw [List.length_cons] at hmod
      omega
  · rintro ⟨es, rfl, k, hk, hmod, rfl⟩
    refine ⟨k, hk, ?_, rfl⟩
    rw [List.length_cons]
    omega

theorem padded_pad {n : ℕ} {ds : List ℕ} {syms : List Sym} :
    Padded n ds (.pad :: syms) ↔
      ds = [] ∧ ((n % 4 = 3 ∧ syms = []) ∨ (n % 4 = 2 ∧ syms = [.pad])) := by
  constructor
  · rintro ⟨k, hk, hmod, h⟩
    cases ds with
    | cons d es => simp at h
    | nil =>
      refine ⟨rfl, ?_⟩
      interval_cases k <;> simp [List.replicate_succ] at h hmod
      · exact Or.inl ⟨by omega, h⟩
      · exact Or.inr ⟨by omega, h⟩
  · rintro ⟨rfl, ⟨hn, rfl⟩ | ⟨hn, rfl⟩⟩
    · exact ⟨1, by decide, by simp only [List.length_nil]; omega, rfl⟩
    · exact ⟨2, by decide, by simp only [List.length_nil]; omega, rfl⟩

theorem padded_nil {n : ℕ} {ds : List ℕ} : Padded n ds [] ↔ ds = [] ∧ n % 4 = 0 := by
  constructor
  · rintro ⟨k, -, hmod, h⟩
    have hlen := congrArg List.length h
    simp only [List.length_nil, List.length_append, List.length_map, List.length_replicate] at hlen
    refine ⟨List.length_eq_zero_iff.mp (by omega), by omega⟩
  · rintro ⟨rfl, hn⟩
    exact ⟨0, by decide, by simpa using hn, rfl⟩

theorem not_padded_other {n : ℕ} {ds : List ℕ} {s : Sym} {syms : List Sym} (hd : ∀ v, s ≠ .digit v)
    (hp : s ≠ .pad) : ¬Padded n ds (s :: syms) := by
  rintro ⟨k, -, -, h⟩
  cases ds with
  | nil => cases k <;> simp [List.replicate_succ, hp] at h
  | cons d ds => exact hd d (List.cons.inj h).1

/-- No digit in hand. -/
theorem nil_le : ([] : List ℕ).length ≤ 3 := Nat.zero_le 3

theorem quanta_eq_ok_iff {acc : List ℕ} {out : Bytes} {si : ℕ} {syms : List Sym} (hacc : acc.length ≤ 3) :
    quanta acc si syms = .ok out ↔
      ∃ ds, Padded acc.length ds (dropBreaks syms) ∧ out = bytesOfDigits (acc ++ ds) := by
  induction syms generalizing acc si out with
  | nil =>
    simp only [quanta, dropBreaks_nil, padded_nil]
    by_cases h : acc = []
    · simp [h, bytesOfDigits, eq_comm]
    · have hlen : acc.length ≠ 0 := fun h0 => h (List.length_eq_zero_iff.mp h0)
      simp only [if_neg h, reduceCtorEq, false_iff, not_exists]
      rintro ds ⟨⟨-, hmod⟩, -⟩
      omega
  | cons s r ih =>
    cases s with
    | lineBreak => rw [quanta, ih hacc, dropBreaks_lineBreak]
    | digit v =>
      rw [quanta, dropBreaks_cons (by simp)]
      simp only [padded_digit]
      by_cases h : acc.length = 3
      · rw [if_pos h]
        have hfour : (acc ++ [v]).length = 4 := by simp [h]
        constructor
        · intro hq
          cases hr : quanta [] (si + 1) r with
          | error e => rw [hr] at hq; cases hq
          | ok bs =>
            rw [hr] at hq
            obtain ⟨ds, hds, rfl⟩ := (ih nil_le).mp hr
            refine ⟨v :: ds, ⟨ds, rfl, ?_⟩, ?_⟩
            · obtain ⟨k, hk, hmod, hr⟩ := hds
              refine ⟨k, hk, ?_, hr⟩
              simp only [List.length_nil] at hmod
              omega
            · rw [← List.singleton_append, ← List.append_assoc, bytesOfDigits_append hfour]
              exact (Except.ok.inj hq).symm
        · rintro ⟨_, ⟨ds, rfl, k, hk, hmod, hr⟩, rfl⟩
          have hrest : quanta [] (si + 1) r = .ok (bytesOfDigits ds) :=
            (ih nil_le).mpr ⟨ds, ⟨k, hk, by simp only [List.length_nil]; omega, hr⟩, rfl⟩
          rw [hrest]
          show Except.ok (bytesOfDigits (acc ++ [v]) ++ bytesOfDigits ds) = _
          rw [← bytesOfDigits_append hfour, List.append_assoc, List.singleton_append]
      · rw [if_neg h, ih (by simp; omega)]
        simp only [List.length_append, List.length_singleton, List.append_assoc, List.singleton_append]
        constructor
        · rintro ⟨ds, hds, rfl⟩
          exact ⟨v :: ds, ⟨ds, rfl, hds⟩, rfl⟩
        · rintro ⟨_, ⟨ds, rfl, hds⟩, rfl⟩
          exact ⟨ds, hds, rfl⟩
    | pad =>
      rw [quanta, dropBreaks_cons (by decide)]
      simp only [padded_pad]
      by_cases h2 : acc.length = 2
      · rw [if_pos h2, secondPad_eq_ok_iff, h2]
        simp [and_comm]
      · by_cases h3 : acc.length = 3
        · rw [if_neg h2, if_pos h3, closeStd_eq_ok_iff, h3]
          simp [and_comm]
        · rw [if_neg h2, if_neg h3]
          simp only [reduceCtorEq, false_iff, not_exists]
          rintro ds ⟨⟨-, ⟨h, -⟩ | ⟨h, -⟩⟩, -⟩ <;> omega
    | blank =>
      rw [quanta, dropBreaks_cons (by decide)]
      simp [not_padded_other]
      all_goals simp
    | other =>
      rw [quanta, dropBreaks_cons (by decide)]
      simp [not_padded_other]
      all_goals simp

/-- **What the standard decoder accepts**: line breaks aside, digits in whole quanta with the padding written. -/
theorem decodeStd_eq_ok_iff {syms : List Sym} {out : Bytes} :
    decodeStd syms = .ok out ↔ ∃ ds, Padded 0 ds (dropBreaks syms) ∧ out = bytesOfDigits ds :=
  quanta_eq_ok_iff nil_le

end Std

/-! ## The forgiving decoder -/

section Forgiving

/-- The text without its ASCII blanks. -/
def dropBlanks (syms : List Sym) : List Sym := syms.filter fun s => s ≠ .lineBreak ∧ s ≠ .blank

/-- Takes one or two pads off the end of a text whose length is a multiple of four. -/
def dropPads (syms : List Sym) : List Sym :=
  if syms.length % 4 = 0 then
    if syms.getLast? = some .pad then
      if syms.dropLast.getLast? = some .pad then syms.dropLast.dropLast else syms.dropLast
    else syms
  else syms

/-- The digits of a text of digits. -/
def digits? : List Sym → Option (List ℕ)
  | [] => some []
  | .digit v :: r => (digits? r).map (v :: ·)
  | _ :: _ => none

/-- Forgiving-base64 decode, on a classified text. -/
def forgiving (syms : List Sym) : Option Bytes :=
  let body := dropPads (dropBlanks syms)
  if body.length % 4 = 1 then none else (digits? body).map bytesOfDigits

theorem digits?_eq_some_iff {syms : List Sym} {ds : List ℕ} :
    digits? syms = some ds ↔ syms = ds.map .digit := by
  induction syms generalizing ds with
  | nil => cases ds <;> simp [digits?]
  | cons s r ih =>
    cases s with
    | digit v => cases ds <;> simp [digits?, ih, and_comm]
    | _ => cases ds <;> simp [digits?]

/-- Digits with the padding left off. -/
def Unpadded (ds : List ℕ) (syms : List Sym) : Prop := ds.length % 4 ≠ 1 ∧ syms = ds.map .digit

theorem dropPads_map_digit (ds : List ℕ) : dropPads (ds.map .digit) = ds.map .digit := by
  have h : (ds.map Sym.digit).getLast? ≠ some .pad := by
    intro h
    obtain ⟨v, -, hv⟩ := List.mem_map.mp (List.mem_of_getLast? h)
    cases hv
  simp only [dropPads, if_neg h, ite_self]

theorem dropPads_padded {ds : List ℕ} {syms : List Sym} (h : Padded 0 ds syms) :
    dropPads syms = ds.map .digit ∧ ds.length % 4 ≠ 1 := by
  obtain ⟨k, hk, hmod, rfl⟩ := h
  have hlen : (ds.map Sym.digit ++ List.replicate k Sym.pad).length % 4 = 0 := by simpa using hmod
  refine ⟨?_, by omega⟩
  interval_cases k
  · rw [List.replicate_zero, List.append_nil, dropPads_map_digit]
  · rw [dropPads, if_pos hlen]
    simp
  · rw [dropPads, if_pos hlen]
    simp [List.replicate_succ]

/-- What is left of the pads tells what stood there. -/
theorem of_dropPads_eq {ds : List ℕ} {syms : List Sym} (h : dropPads syms = ds.map .digit)
    (hds : ds.length % 4 ≠ 1) : Padded 0 ds syms ∨ Unpadded ds syms := by
  unfold dropPads at h
  split_ifs at h with h4 hp hq
  · obtain ⟨ys, rfl⟩ := List.getLast?_eq_some_iff.mp hp
    rw [List.dropLast_concat] at h hq
    obtain ⟨zs, rfl⟩ := List.getLast?_eq_some_iff.mp hq
    rw [List.dropLast_concat] at h
    subst h
    simp only [List.length_append, List.length_map, List.length_singleton] at h4
    exact Or.inl ⟨2, by decide, by omega, by rw [List.append_assoc]; rfl⟩
  · obtain ⟨ys, rfl⟩ := List.getLast?_eq_some_iff.mp hp
    rw [List.dropLast_concat] at h
    subst h
    simp only [List.length_append, List.length_map, List.length_singleton] at h4
    exact Or.inl ⟨1, by decide, by omega, rfl⟩
  · exact Or.inr ⟨hds, h⟩
  · exact Or.inr ⟨hds, h⟩

/-- **What the forgiving decoder accepts**: blanks aside, digits with the padding written or left off. -/
theorem forgiving_eq_some_iff {syms : List Sym} {out : Bytes} :
    forgiving syms = some out ↔
      ∃ ds, (Padded 0 ds (dropBlanks syms) ∨ Unpadded ds (dropBlanks syms)) ∧ out = bytesOfDigits ds := by
  simp only [forgiving]
  constructor
  · intro h
    split_ifs at h with hmod
    obtain ⟨ds, hds, rfl⟩ := Option.map_eq_some_iff.mp h
    have hbody := digits?_eq_some_iff.mp hds
    refine ⟨ds, of_dropPads_eq hbody ?_, rfl⟩
    rwa [hbody, List.length_map] at hmod
  · rintro ⟨ds, hds, rfl⟩
    have hbody : dropPads (dropBlanks syms) = ds.map .digit ∧ ds.length % 4 ≠ 1 := by
      rcases hds with hds | ⟨hmod, hds⟩
      · exact dropPads_padded hds
      · exact ⟨by rw [hds, dropPads_map_digit], hmod⟩
    rw [hbody.1, List.length_map, if_neg hbody.2, digits?_eq_some_iff.mpr rfl]
    rfl

end Forgiving

/-! ## Comparison -/

section Compare

theorem dropBlanks_eq (syms : List Sym) : dropBlanks syms = (dropBreaks syms).filter (· ≠ .blank) := by
  simp only [dropBlanks, dropBreaks, List.filter_filter]
  congr 1
  funext s
  simp [and_comm]

theorem blank_notMem_of_padded {n : ℕ} {ds : List ℕ} {syms : List Sym} (h : Padded n ds syms) : .blank ∉ syms := by
  obtain ⟨k, -, -, rfl⟩ := h
  simp

theorem dropBlanks_of_padded {n : ℕ} {ds : List ℕ} {syms : List Sym} (h : Padded n ds (dropBreaks syms)) :
    dropBlanks syms = dropBreaks syms := by
  have hb := blank_notMem_of_padded h
  rw [dropBlanks_eq, List.filter_eq_self]
  intro s hs
  exact decide_eq_true fun he => hb (he ▸ hs)

/-- What the standard decoder accepts, the forgiving one decodes to the same bytes. -/
theorem forgiving_of_decodeStd {syms : List Sym} {out : Bytes} (h : decodeStd syms = .ok out) :
    forgiving syms = some out := by
  obtain ⟨ds, hds, rfl⟩ := decodeStd_eq_ok_iff.mp h
  refine forgiving_eq_some_iff.mpr ⟨ds, Or.inl ?_, rfl⟩
  rw [dropBlanks_of_padded hds]
  exact hds

/-- Between line breaks only digits and pads, in whole quanta. -/
def strict (syms : List Sym) : Bool :=
  (dropBreaks syms).length % 4 = 0 && !(dropBreaks syms).contains .blank

/-- **Where the decoders differ.**  Of the texts the forgiving decoder accepts, the standard one accepts those
without a blank other than a line break and with the padding written out. -/
theorem decodeStd_isOk_iff {syms : List Sym} {out : Bytes} (h : forgiving syms = some out) :
    decodeStd syms = .ok out ↔ strict syms = true := by
  obtain ⟨ds, hds, rfl⟩ := forgiving_eq_some_iff.mp h
  constructor
  · intro hstd
    obtain ⟨es, hes, -⟩ := decodeStd_eq_ok_iff.mp hstd
    have hb := blank_notMem_of_padded hes
    obtain ⟨k, -, hmod, he⟩ := hes
    rw [strict, Bool.and_eq_true_iff]
    refine ⟨decide_eq_true ?_, by simpa using hb⟩
    rw [he, List.length_append, List.length_map, List.length_replicate]
    omega
  · intro hs
    obtain ⟨hlen, hb⟩ := Bool.and_eq_true_iff.mp hs
    have hlen := of_decide_eq_true hlen
    have hdrop : dropBlanks syms = dropBreaks syms := by
      rw [dropBlanks_eq, List.filter_eq_self]
      intro s hsm
      refine decide_eq_true fun he => ?_
      subst he
      simp [hsm] at hb
    rw [hdrop] at hds
    refine decodeStd_eq_ok_iff.mpr ⟨ds, ?_, rfl⟩
    rcases hds with hds | ⟨-, hds⟩
    · exact hds
    · refine ⟨0, by decide, ?_, by rw [hds]; simp⟩
      rw [hds, List.length_map] at hlen
      omega

/-! ### Texts and their bytes -/

theorem classify_of_le {n : ℕ} (h : 128 ≤ n) : classify n = .other := by
  unfold classify
  repeat rw [if_neg (by omega)]

/-- A text and its bytes hold the same symbols, but for symbols outside the alphabet. -/
theorem dropBreaks_symsOfBytes_eq_iff {t : List Sym} (ht : Sym.other ∉ t) {cs : List Char} :
    dropBreaks (symsOfBytes (Utf8.encode cs)) = t ↔ dropBreaks (symsOfText cs) = t := by
  induction cs generalizing t with
  | nil => rfl
  | cons c cs ih =>
    by_cases h : c.toNat < 128
    · rw [Utf8.encode_cons, Utf8.utf8EncodeChar_of_lt h]
      have hc : (UInt8.ofNat c.toNat).toNat = c.toNat := by
        rw [UInt8.toNat_ofNat']
        omega
      simp only [symsOfBytes, symsOfText, List.singleton_append, List.map_cons, hc]
      by_cases hb : classify c.toNat = .lineBreak
      · rw [hb, dropBreaks_lineBreak, dropBreaks_lineBreak]
        exact ih ht
      · rw [dropBreaks_cons hb, dropBreaks_cons hb]
        cases t with
        | nil => simp
        | cons s t =>
          rw [List.cons.injEq, List.cons.injEq]
          exact and_congr_right fun _ => ih fun hm => ht (List.mem_cons_of_mem _ hm)
    · have hc := classify_of_le (not_lt.mp h)
      obtain ⟨b, bs, hbs⟩ : ∃ b bs, String.utf8EncodeChar c = b :: bs :=
        List.exists_cons_of_ne_nil String.utf8EncodeChar_ne_nil
      have hb : classify b.toNat = .other :=
        classify_of_le (Utf8.le_of_mem_utf8EncodeChar (not_lt.mp h) (by rw [hbs]; exact List.mem_cons_self))
      rw [Utf8.encode_cons, hbs]
      simp only [symsOfBytes, symsOfText, List.cons_append, List.map_cons, hb, hc]
      rw [dropBreaks_cons (by decide), dropBreaks_cons (by decide)]
      constructor <;> rintro rfl <;> exact absurd List.mem_cons_self ht

/-- The standard decoder, which works on bytes, decides as if it read the text. -/
theorem decodeStd_symsOfBytes {cs : List Char} {out : Bytes} :
    decodeStd (symsOfBytes (Utf8.encode cs)) = .ok out ↔ decodeStd (symsOfText cs) = .ok out := by
  rw [decodeStd_eq_ok_iff, decodeStd_eq_ok_iff]
  refine exists_congr fun ds => and_congr_left fun _ => exists_congr fun k => ?_
  refine and_congr_right fun _ => and_congr_right fun _ => dropBreaks_symsOfBytes_eq_iff ?_
  simp

end Compare

/-! ## The encoder -/

section Encode

/-- The digits of a byte string, six bits each. -/
def digitsOfBytes : Bytes → List ℕ
  | a :: b :: c :: r =>
    let v := a.toNat * 65536 + b.toNat * 256 + c.toNat
    v / 262144 :: v / 4096 % 64 :: v / 64 % 64 :: v % 64 :: digitsOfBytes r
  | [a, b] =>
    let v := a.toNat * 65536 + b.toNat * 256
    [v / 262144, v / 4096 % 64, v / 64 % 64]
  | [a] => [a.toNat * 65536 / 262144, a.toNat * 65536 / 4096 % 64]
  | [] => []

/-- The character of a digit. -/
def digitChar (n : ℕ) : Char :=
  if n < 26 then Char.ofNat (n + 65)
  else if n < 52 then Char.ofNat (n + 71)
  else if n < 62 then Char.ofNat (n - 4)
  else if n = 62 then '+' else '/'

/-- `base64.StdEncoding.EncodeToString`. -/
def encodeStd (bs : Bytes) : List Char :=
  (digitsOfBytes bs).map digitChar ++ List.replicate ((3 - bs.length % 3) % 3) '='

theorem classify_digitChar {n : ℕ} (h : n < 64) : classify (digitChar n).toNat = .digit n := by
  interval_cases n <;> rfl

theorem lt_of_mem_digitsOfBytes : ∀ {bs : Bytes}, ∀ n ∈ digitsOfBytes bs, n < 64
  | [], n, h => by simp [digitsOfBytes] at h
  | [a], n, h => by
    have ha := a.toNat_lt
    simp only [digitsOfBytes, List.mem_cons, List.not_mem_nil, or_false] at h
    omega
  | [a, b], n, h => by
    have ha := a.toNat_lt
    have hb := b.toNat_lt
    simp only [digitsOfBytes, List.mem_cons, List.not_mem_nil, or_false] at h
    omega
  | a :: b :: c :: r, n, h => by
    have ha := a.toNat_lt
    have hb := b.toNat_lt
    have hc := c.toNat_lt
    simp only [digitsOfBytes, List.mem_cons] at h
    rcases h with h | h | h | h | h
    iterate 4 omega
    exact lt_of_mem_digitsOfBytes n h

theorem length_digitsOfBytes_add : ∀ bs : Bytes,
    ((digitsOfBytes bs).length + (3 - bs.length % 3) % 3) % 4 = 0
  | [] => rfl
  | [_] => by simp [digitsOfBytes]
  | [_, _] => by simp [digitsOfBytes]
  | _ :: _ :: _ :: r => by
    have hr := length_digitsOfBytes_add r
    simp only [digitsOfBytes, List.length_cons]
    omega

theorem ofNat_eq_of_mod_eq {n : ℕ} {b : UInt8} (h : n % 256 = b.toNat) : UInt8.ofNat n = b :=
  UInt8.toNat_inj.mp (by rw [UInt8.toNat_ofNat']; exact h)

theorem bytesOfDigits_digitsOfBytes : ∀ bs : Bytes, bytesOfDigits (digitsOfBytes bs) = bs
  | [] => rfl
  | [a] => by
    have ha := a.toNat_lt
    simp only [digitsOfBytes, bytesOfDigits, List.cons.injEq, and_true]
    exact ofNat_eq_of_mod_eq (by omega)
  | [a, b] => by
    have ha := a.toNat_lt
    have hb := b.toNat_lt
    simp only [digitsOfBytes, bytesOfDigits, List.cons.injEq, and_true]
    exact ⟨ofNat_eq_of_mod_eq (by omega), ofNat_eq_of_mod_eq (by omega)⟩
  | a :: b :: c :: r => by
    have ha := a.toNat_lt
    have hb := b.toNat_lt
    have hc := c.toNat_lt
    simp only [digitsOfBytes, bytesOfDigits, List.cons.injEq]
    exact ⟨ofNat_eq_of_mod_eq (by omega), ofNat_eq_of_mod_eq (by omega), ofNat_eq_of_mod_eq (by omega),
      bytesOfDigits_digitsOfBytes r⟩

theorem symsOfText_encodeStd (bs : Bytes) :
    symsOfText (encodeStd bs)
      = (digitsOfBytes bs).map .digit ++ List.replicate ((3 - bs.length % 3) % 3) .pad := by
  rw [symsOfText, encodeStd, List.map_append, List.map_map, List.map_replicate]
  congr 1
  refine List.map_congr_left fun n hn => ?_
  exact classify_digitChar (lt_of_mem_digitsOfBytes n hn)

/-- **Round trip** of the standard encoding. -/
theorem decodeStd_encodeStd (bs : Bytes) : decodeStd (symsOfText (encodeStd bs)) = .ok bs := by
  refine decodeStd_eq_ok_iff.mpr ⟨digitsOfBytes bs, ?_, (bytesOfDigits_digitsOfBytes bs).symm⟩
  have hmod := length_digitsOfBytes_add bs
  refine ⟨(3 - bs.length % 3) % 3, by omega, by omega, ?_⟩
  rw [symsOfText_encodeStd, dropBreaks, List.filter_eq_self]
  intro s hs
  rcases List.mem_append.mp hs with h | h
  · obtain ⟨v, -, rfl⟩ := List.mem_map.mp h
    rfl
  · rw [List.eq_of_mem_replicate h]
    rfl

theorem symsOfText_map_digitChar (bs : Bytes) :
    symsOfText ((digitsOfBytes bs).map digitChar) = (digitsOfBytes bs).map .digit := by
  rw [symsOfText, List.map_map]
  exact List.map_congr_left fun n hn => classify_digitChar (lt_of_mem_digitsOfBytes n hn)

/-- The forgiving decoder does without the padding. -/
theorem forgiving_map_digitChar (bs : Bytes) : forgiving (symsOfText ((digitsOfBytes bs).map digitChar)) = some bs := by
  rw [symsOfText_map_digitChar]
  have hdrop : dropBlanks ((digitsOfBytes bs).map .digit) = (digitsOfBytes bs).map .digit := by
    rw [dropBlanks, List.filter_eq_self]
    intro s hs
    obtain ⟨v, -, rfl⟩ := List.mem_map.mp hs
    rfl
  have hmod := length_digitsOfBytes_add bs
  refine forgiving_eq_some_iff.mpr ⟨digitsOfBytes bs, Or.inr ⟨by omega, hdrop⟩, ?_⟩
  exact (bytesOfDigits_digitsOfBytes bs).symm

end Encode

end Base64
