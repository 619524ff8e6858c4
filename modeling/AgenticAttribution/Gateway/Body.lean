import AgenticAttribution.Gateway.Handler
import AgenticAttribution.Lib.JsNumber
import AgenticAttribution.Lib.Run
import AgenticAttribution.Lib.TextDecoder

/-!
# Gateway.Body — the body on its way to the origin

`readBoundedText` as it runs: the declared length out of its header, the loop that counts the chunks and may cancel
the stream, the offsets of the copy, and the decoding; and the encoding that `proxy` leaves to `fetch`.  The limits
hold, but decoding and encoding again changes a body that is not UTF-8 or that starts with a byte order mark
(`forwards_iff`).
-/

namespace Gateway
namespace Body

open Types

/-- What `readBoundedText` reads of a request. -/
structure Incoming where
  /-- The header `content-length`. -/
  contentLength : Option (List Char)
  /-- The chunks in which the body arrives, if there is a body. -/
  body : Option (List Bytes)

/-- The bytes that the client sent. -/
def Incoming.bytes (r : Incoming) : Bytes := (r.body.getD []).flatten

/-- `declared !== null && Number(declared) > MAX_BODY_BYTES`. -/
def Incoming.overdeclared (r : Incoming) : Bool :=
  r.contentLength.any fun declared => (JsNumber.number declared).exceeds MAX_BODY_BYTES

/-- A numeral declares what it writes. -/
theorem overdeclared_natChars {r : Incoming} {n : ℕ} (h : r.contentLength = some (Digits.natChars n)) :
    r.overdeclared = true ↔ MAX_BODY_BYTES < n := by
  rw [Incoming.overdeclared, h, Option.any_some]
  exact JsNumber.exceeds_number_natChars (by decide)

/-! ## The loop -/

/-- The variables of the loop. -/
structure Reader where
  chunks : List Bytes := []
  total : ℕ := 0

/-- A chunk that arrives; `none` if the limit is exceeded and the stream cancelled. -/
def Reader.read (s : Reader) (value : Bytes) : Option Reader :=
  if s.total + value.length > MAX_BODY_BYTES then none
  else some ⟨s.chunks ++ [value], s.total + value.length⟩

/-- The bytes that the loop has kept. -/
def Reader.retained (s : Reader) : ℕ := (s.chunks.map List.length).sum

/-! ## The copy -/

/-- `Uint8Array.prototype.set`; `none` is the `RangeError` of a chunk that does not fit. -/
def setBytes (joined : Bytes) (chunk : Bytes) (offset : ℕ) : Option Bytes :=
  if offset + chunk.length > joined.length then none
  else some (joined.take offset ++ chunk ++ joined.drop (offset + chunk.length))

/-- The copying loop, at an offset. -/
def copy (joined : Bytes) (offset : ℕ) : List Bytes → Option Bytes
  | [] => some joined
  | chunk :: rest => (setBytes joined chunk offset).bind fun joined => copy joined (offset + chunk.length) rest

/-- The chunks in one array. -/
def Reader.join (s : Reader) : Option Bytes := copy (List.replicate s.total 0) 0 s.chunks

/-! ## The whole -/

/-- What becomes of the body. -/
inductive Read where
  /-- `null`. -/
  | exceeded
  | text (cs : List Char)
  | throws
  deriving DecidableEq

/-- `readBoundedText`. -/
def readBoundedText (r : Incoming) : Read :=
  if r.overdeclared then .exceeded
  else
    match r.body with
    | none => .text []
    | some arriving =>
      match Runs.run Reader.read {} arriving with
      | none => .exceeded
      | some s =>
        match s.join with
        | none => .throws
        | some joined => .text (TextDecoder.decode joined)

/-- The bytes that `fetch` sends for the body that `proxy` passes to it. -/
def proxied (body : List Char) : Bytes := Utf8.encode body

section Loop

variable {s t : Reader} {arriving : List Bytes}

/-- The total is what has been kept, within the limit. -/
structure Counted (s : Reader) : Prop where
  total : s.total = s.retained
  limit : s.total ≤ MAX_BODY_BYTES

theorem counted_init : Counted {} := ⟨rfl, Nat.zero_le _⟩

theorem read_eq_some {value : Bytes} : s.read value = some t ↔
    s.total + value.length ≤ MAX_BODY_BYTES ∧ t = ⟨s.chunks ++ [value], s.total + value.length⟩ := by
  unfold Reader.read
  split_ifs with h
  · exact iff_of_false (fun h' => nomatch h') fun h' => Nat.not_le.mpr h h'.1
  · rw [Option.some.injEq, eq_comm]
    exact (and_iff_right (Nat.le_of_not_lt h)).symm

theorem counted_read {value : Bytes} (h : Counted s) (hread : s.read value = some t) : Counted t := by
  obtain ⟨hle, rfl⟩ := read_eq_some.mp hread
  refine ⟨?_, hle⟩
  have htotal := h.total
  simp only [Reader.retained, List.map_append, List.sum_append, List.map_cons, List.map_nil, List.sum_cons,
    List.sum_nil, Nat.add_zero] at htotal ⊢
  rw [htotal]

/-- **What the loop does**: it keeps the chunks as they come, or cancels where the total exceeds the limit. -/
theorem run_read (h : s.total ≤ MAX_BODY_BYTES) : Runs.run Reader.read s arriving =
    if s.total + arriving.flatten.length ≤ MAX_BODY_BYTES then
      some ⟨s.chunks ++ arriving, s.total + arriving.flatten.length⟩
    else none := by
  induction arriving generalizing s with
  | nil => simp [h]
  | cons value rest ih =>
    rw [Runs.run_cons, List.flatten_cons, List.length_append]
    by_cases hover : s.total + value.length ≤ MAX_BODY_BYTES
    · rw [read_eq_some.mpr ⟨hover, rfl⟩, Option.bind_some, ih hover]
      simp only [List.append_assoc, List.singleton_append, Nat.add_assoc]
    · have hcancel : s.read value = none := if_pos (Nat.lt_of_not_le hover)
      rw [hcancel, Option.bind_none, if_neg (by omega)]

/-- The copy fills the array from its offset on. -/
theorem copy_eq {joined : Bytes} {offset : ℕ} {chunks : List Bytes}
    (h : offset + chunks.flatten.length = joined.length) :
    copy joined offset chunks = some (joined.take offset ++ chunks.flatten) := by
  induction chunks generalizing joined offset with
  | nil =>
    rw [List.flatten_nil, List.length_nil, Nat.add_zero] at h
    rw [copy, List.flatten_nil, List.append_nil, h, List.take_length]
  | cons chunk rest ih =>
    rw [List.flatten_cons, List.length_append] at h
    have hset : setBytes joined chunk offset =
        some (joined.take offset ++ chunk ++ joined.drop (offset + chunk.length)) := if_neg (by omega)
    have hfront : (joined.take offset ++ chunk).length = offset + chunk.length := by
      rw [List.length_append, List.length_take]
      omega
    rw [copy, hset, Option.bind_some, ih]
    · rw [← hfront, List.take_left, List.flatten_cons, List.append_assoc]
    · rw [List.length_append, hfront, List.length_drop]
      omega

theorem join_eq (h : s.total = s.chunks.flatten.length) : s.join = some s.chunks.flatten := by
  rw [Reader.join, copy_eq]
  · rfl
  · rw [List.length_replicate, Nat.zero_add, h]

end Loop

/-! ## What is forwarded -/

section Forwards

variable {r : Incoming}

/-- The body is refused. -/
def Incoming.refused (r : Incoming) : Prop := r.overdeclared = true ∨ MAX_BODY_BYTES < r.bytes.length

theorem readBoundedText_of_refused (h : r.refused) : readBoundedText r = .exceeded := by
  unfold readBoundedText
  by_cases hdeclared : r.overdeclared = true
  · exact if_pos hdeclared
  · have hlength : MAX_BODY_BYTES < r.bytes.length := h.resolve_left hdeclared
    rw [if_neg hdeclared]
    cases hbody : r.body with
    | none =>
      rw [Incoming.bytes, hbody] at hlength
      exact absurd hlength (Nat.not_lt_zero _)
    | some arriving =>
      rw [Incoming.bytes, hbody, Option.getD_some] at hlength
      simp only [run_read (show ({} : Reader).total ≤ MAX_BODY_BYTES from Nat.zero_le _), Nat.zero_add,
        if_neg (Nat.not_le.mpr hlength)]

/-- **A body within the limits is decoded as a whole**, however it arrived. -/
theorem readBoundedText_of_bounded (h : ¬r.refused) :
    readBoundedText r = .text (TextDecoder.decode r.bytes) := by
  obtain ⟨hdeclared, hlength⟩ := not_or.mp h
  unfold readBoundedText
  rw [if_neg hdeclared, Incoming.bytes]
  cases hbody : r.body with
  | none => rfl
  | some arriving =>
    rw [Incoming.bytes, hbody, Option.getD_some] at hlength
    have hrun : Runs.run Reader.read {} arriving = some ⟨arriving, arriving.flatten.length⟩ := by
      rw [run_read (show ({} : Reader).total ≤ MAX_BODY_BYTES from Nat.zero_le _), Nat.zero_add,
        if_pos (Nat.le_of_not_lt hlength)]
      rfl
    have hjoin : (⟨arriving, arriving.flatten.length⟩ : Reader).join = some arriving.flatten := join_eq rfl
    simp only [hrun, hjoin, Option.getD_some]

/-- The edge forwards a bounded body unchanged. -/
structure Forwards (r : Incoming) : Prop where
  exceeds : readBoundedText r = .exceeded ↔ r.overdeclared = true ∨ MAX_BODY_BYTES < r.bytes.length
  /-- In no state of the loop is more kept than the limit. -/
  retains : Runs.Always Reader.read (fun s => s.retained ≤ MAX_BODY_BYTES) {} (r.body.getD [])
  unchanged : readBoundedText r ≠ .exceeded → ∃ text, readBoundedText r = .text text ∧ proxied text = r.bytes

theorem exceeded_iff : readBoundedText r = .exceeded ↔ r.refused := by
  refine ⟨fun h => ?_, readBoundedText_of_refused⟩
  by_contra hbounded
  rw [readBoundedText_of_bounded hbounded] at h
  cases h

/-- **The limit holds** in every state of the loop. -/
theorem retained_le (arriving : List Bytes) :
    Runs.Always Reader.read (fun s => s.retained ≤ MAX_BODY_BYTES) {} arriving := by
  intro bs s _ hrun
  have hcounted : Counted s := Runs.run_invariant (fun _ _ _ h hread => counted_read h hread) counted_init hrun
  exact hcounted.total ▸ hcounted.limit

/-- **The edge forwards a body unchanged exactly if** it refuses it, or the body is UTF-8 without a byte order mark. -/
theorem forwards_iff (r : Incoming) : Forwards r ↔
    (r.overdeclared = true ∨ MAX_BODY_BYTES < r.bytes.length) ∨
      (Utf8.valid r.bytes = true ∧ ∀ rest, r.bytes ≠ 0xEF :: 0xBB :: 0xBF :: rest) := by
  constructor
  · rintro ⟨-, -, hunchanged⟩
    by_cases hrefused : r.refused
    · exact Or.inl hrefused
    · obtain ⟨text, htext, hsame⟩ := hunchanged (mt exceeded_iff.mp hrefused)
      rw [readBoundedText_of_bounded hrefused] at htext
      obtain rfl := Read.text.inj htext
      exact Or.inr ((TextDecoder.encode_decode_iff _).mp hsame)
  · intro h
    refine ⟨exceeded_iff, retained_le _, fun hread => ?_⟩
    have hrefused : ¬r.refused := mt exceeded_iff.mpr hread
    exact ⟨_, readBoundedText_of_bounded hrefused,
      (TextDecoder.encode_decode_iff _).mpr (h.resolve_left hrefused)⟩

/-- An empty object behind a byte order mark. -/
def marked : Incoming := ⟨none, some [[0xEF, 0xBB], [0xBF, 0x7B, 0x7D]]⟩

theorem marked_changed : ¬Forwards marked := by
  intro h
  have hrefused : ¬marked.refused := by
    rintro (hdeclared | hlength)
    · cases hdeclared
    · exact absurd hlength (by decide)
  have hread : readBoundedText marked = .text "\x7b\x7d".toList := readBoundedText_of_bounded hrefused
  obtain ⟨text, htext, hsame⟩ := h.unchanged (by rw [hread]; exact Read.noConfusion)
  obtain rfl := Read.text.inj (hread.symm.trans htext)
  exact absurd hsame (by decide)

end Forwards

/-! ## The handler -/

section Handle

variable {E : Attribution.Ed25519} {env : GatewayEnv E.PublicKey} {rt : Runtime} {r : HttpRequest} {q : Incoming}
  {nowMs : ℤ}
  {origin : Origin} {body : List Char}

/-- A request of `handle` and the body that it comes with. -/
structure Carries (rt : Runtime) (r : HttpRequest) (q : Incoming) : Prop where
  declared : r.contentLength.any (· > MAX_BODY_BYTES) = q.overdeclared
  chunks : r.chunks = q.body.getD []
  readText : rt.readText = TextDecoder.readText

theorem textDecode_eq (h : rt.readText = TextDecoder.readText) (bs : Bytes) :
    rt.textDecode bs = TextDecoder.decode bs := by
  rw [Runtime.textDecode, h]
  by_cases hmark : byteOrderMark.isPrefixOf bs = true
  · obtain ⟨rest, rfl⟩ := List.isPrefixOf_iff_prefix.mp hmark
    rw [if_pos hmark, List.drop_left]
    exact (TextDecoder.decode_mark rest).symm
  · rw [if_neg hmark]
    refine (TextDecoder.decode_of_no_mark ?_).symm
    rintro rest rfl
    exact hmark (List.isPrefixOf_iff_prefix.mpr (List.prefix_append byteOrderMark rest))

/-- **The reading of the handler is the loop's.** -/
theorem readBoundedText_refines (h : Carries rt r q) : Gateway.readBoundedText rt r =
    if q.overdeclared = true ∨ MAX_BODY_BYTES < q.bytes.length then none
    else some (TextDecoder.decode q.bytes) := by
  have hbytes : r.chunks.flatten = q.bytes := congrArg List.flatten h.chunks
  rw [Gateway.readBoundedText_eq, HttpRequest.bounded, h.declared, hbytes, textDecode_eq h.readText]
  by_cases hdeclared : q.overdeclared = true
  · rw [if_pos (Or.inl hdeclared), hdeclared]
    rfl
  · by_cases hlength : MAX_BODY_BYTES < q.bytes.length
    · rw [if_pos (Or.inr hlength), decide_eq_false (Nat.not_le.mpr hlength), Bool.and_false]
      rfl
    · rw [if_neg (not_or.mpr ⟨hdeclared, hlength⟩), decide_eq_true (Nat.le_of_not_lt hlength),
        Bool.eq_false_of_not_eq_true hdeclared]
      rfl

theorem body_of_handlePurchase {text : List Char} (h : handlePurchase env rt r text nowMs = .proxy origin body) :
    text = body := by
  unfold handlePurchase at h
  split_ifs at h
  · exact (Outcome.proxy.inj h).2
  · cases h
  · unfold handleAssertion at h
    cases hdecode : rt.decodeHeaderJson (presented r.assertion) with
    | none =>
      rw [hdecode] at h
      cases h
    | some assertion =>
      simp only [hdecode] at h
      split at h
      · exact (Outcome.proxy.inj h).2
      · cases h
      · cases h

/-- What goes to an origin is the body that was read. -/
theorem readBoundedText_of_proxy (h : handle env rt r nowMs = .proxy origin body) :
    Gateway.readBoundedText rt r = some body := by
  unfold handle at h
  cases hread : Gateway.readBoundedText rt r with
  | none =>
    rw [hread] at h
    split_ifs at h
  | some text =>
    rw [hread] at h
    dsimp only at h
    split_ifs at h
    · exact congrArg some (Outcome.proxy.inj h).2
    · exact congrArg some (body_of_handlePurchase h)

/-- **A request that goes to an origin** has its body sent on unchanged exactly if it is UTF-8 without a mark. -/
theorem proxied_of_handle (hq : Carries rt r q) (h : handle env rt r nowMs = .proxy origin body) :
    proxied body = q.bytes ↔ Utf8.valid q.bytes = true ∧ ∀ rest, q.bytes ≠ 0xEF :: 0xBB :: 0xBF :: rest := by
  have hread := readBoundedText_of_proxy h
  rw [readBoundedText_refines hq] at hread
  split_ifs at hread
  obtain rfl := Option.some.inj hread
  exact TextDecoder.encode_decode_iff q.bytes

end Handle

end Body
end Gateway
