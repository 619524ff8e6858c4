import AgenticAttribution.Lib.Utf8

/-!
# Lib.Csv — comma-separated values, the way Go writes and reads them

`writeRecord` is `csv.Writer.Write` and `readAll` is what a `csv.Reader` returns call by call, both with their default
settings: fields are byte strings, a comma separates, a quote encloses, and the reader takes a line to end in a line
feed, with or without a carriage return before it.  `readAll_write` is the round trip, which is exact up to those
carriage returns.
-/

namespace Csv

def comma : UInt8 := 44

def quote : UInt8 := 34

def newline : UInt8 := 10

def ret : UInt8 := 13

/-! ## Writing -/

/-- `unicode.IsSpace`. -/
def isSpace (c : Char) : Bool :=
  let n := c.toNat
  (9 ≤ n && n ≤ 13) || n = 0x20 || n = 0x85 || n = 0xA0 || n = 0x1680 || (0x2000 ≤ n && n ≤ 0x200A) || n = 0x2028 ||
    n = 0x2029 || n = 0x202F || n = 0x205F || n = 0x3000

/-- A byte that stands for itself outside of quotes. -/
def plain (b : UInt8) : Bool := b ≠ newline && b ≠ ret && b ≠ quote && b ≠ comma

/-- `fieldNeedsQuotes`. -/
def fieldNeedsQuotes (f : Bytes) : Bool :=
  f ≠ [] && (f = [92, 46] || !f.all plain || (Utf8.decodeRune f).any isSpace)

theorem plain_iff {b : UInt8} : plain b = true ↔ b ≠ newline ∧ b ≠ ret ∧ b ≠ quote ∧ b ≠ comma := by
  simp only [plain, Bool.and_eq_true, decide_eq_true_eq, and_assoc]

/-- A field that needs no quotes holds none of the bytes that have a meaning. -/
theorem plain_of_bare {f : Bytes} (h : ¬fieldNeedsQuotes f = true) : ∀ b ∈ f, plain b = true := by
  intro b hb
  have hne : f ≠ [] := List.ne_nil_of_mem hb
  simp only [fieldNeedsQuotes, hne, ne_eq, not_false_eq_true, decide_true, Bool.true_and, Bool.or_eq_true,
    Bool.not_eq_true', not_or, Bool.not_eq_false] at h
  exact List.all_eq_true.mp h.1.2 b hb

/-- The text of a field between quotes: a quote is doubled. -/
def escape (f : Bytes) : Bytes := f.flatMap fun b => if b = quote then [quote, quote] else [b]

def fieldText (f : Bytes) : Bytes := if fieldNeedsQuotes f then quote :: (escape f ++ [quote]) else f

/-- The fields of a record, with commas between them. -/
def join : List Bytes → Bytes
  | [] => []
  | [f] => fieldText f
  | f :: g :: r => fieldText f ++ comma :: join (g :: r)

/-- `Write`. -/
def writeRecord (fields : List Bytes) : Bytes := join fields ++ [newline]

/-! ## Reading -/

/-- The reader makes one line feed of a carriage return and a line feed. -/
def unix : Bytes → Bytes
  | [] => []
  | b :: r => if b = ret ∧ r.head? = some newline then unix r else b :: unix r

/-- The input as the reader sees its lines: a carriage return at its end is dropped. -/
def normalise (input : Bytes) : Bytes := unix (if input.getLast? = some ret then input.dropLast else input)

inductive ReadError where
  /-- `ErrQuote`. -/
  | quote
  /-- `ErrBareQuote`. -/
  | bareQuote
  /-- `ErrFieldCount`. -/
  | fieldCount
  deriving DecidableEq

/-- Where the reader stands in a record, with what it has read of a field. -/
inductive Place where
  | line
  | field
  | bare (read : Bytes)
  | quoted (read : Bytes)
  /-- Behind a quote inside of quotes. -/
  | closing (read : Bytes)

/-- What a byte leads to, behind the fields `done`. -/
inductive Next where
  | go (place : Place) (done : List Bytes)
  | record (fields : List Bytes)
  | fail (e : ReadError)

/-- The first byte of a field. -/
def opening (done : List Bytes) (b : UInt8) : Next :=
  if b = quote then .go (.quoted []) done
  else if b = comma then .go .field (done ++ [[]])
  else if b = newline then .record (done ++ [[]])
  else .go (.bare [b]) done

def next (place : Place) (done : List Bytes) (b : UInt8) : Next :=
  match place with
  -- an empty line is no record
  | .line => if b = newline then .go .line [] else opening done b
  | .field => opening done b
  | .bare read =>
    if b = comma then .go .field (done ++ [read])
    else if b = newline then .record (done ++ [read])
    else if b = quote then .fail .bareQuote
    else .go (.bare (read ++ [b])) done
  | .quoted read => if b = quote then .go (.closing read) done else .go (.quoted (read ++ [b])) done
  | .closing read =>
    if b = quote then .go (.quoted (read ++ [quote])) done
    else if b = comma then .go .field (done ++ [read])
    else if b = newline then .record (done ++ [read])
    else .fail .quote

/-- The end of the input. -/
def atEnd (done : List Bytes) : Place → List (List Bytes) × Option ReadError
  | .line => ([], none)
  | .field => ([done ++ [[]]], none)
  | .bare read => ([done ++ [read]], none)
  | .quoted _ => ([], some .quote)
  | .closing read => ([done ++ [read]], none)

/-- The records from a place on, and the error that ends them. -/
def scan : Place → List Bytes → Bytes → List (List Bytes) × Option ReadError
  | place, done, [] => atEnd done place
  | place, done, b :: rest =>
    match next place done b with
    | .go place' done' => scan place' done' rest
    | .record fields => ((scan .line [] rest).map (fields :: ·) id)
    | .fail e => ([], some e)

/-- What `Read` returns, call after call. -/
def readAll (input : Bytes) : List (List Bytes) × Option ReadError := scan .line [] (normalise input)

/-! ## Carriage returns -/

section Unix

theorem unix_cons_of {b : UInt8} {r : Bytes} (h : b = ret ∧ r.head? = some newline) : unix (b :: r) = unix r := if_pos h

theorem unix_cons_of_not {b : UInt8} {r : Bytes} (h : ¬(b = ret ∧ r.head? = some newline)) :
    unix (b :: r) = b :: unix r := if_neg h

theorem unix_cons_of_ne {b : UInt8} (h : b ≠ ret) (r : Bytes) : unix (b :: r) = b :: unix r :=
  unix_cons_of_not fun hb => h hb.1

theorem unix_append {xs : Bytes} (ys : Bytes) (h : xs.getLast? ≠ some ret) : unix (xs ++ ys) = unix xs ++ unix ys := by
  induction xs with
  | nil => rfl
  | cons b xs ih =>
    cases xs with
    | nil =>
      have hb : b ≠ ret := by simpa using h
      rw [List.singleton_append, unix_cons_of_ne hb, unix_cons_of_ne hb]
      rfl
    | cons c xs =>
      have ih := ih (by simpa using h)
      by_cases hb : b = ret ∧ c = newline
      · have hb' : b = ret ∧ some c = some newline := ⟨hb.1, congrArg some hb.2⟩
        rw [List.cons_append, unix_cons_of hb', unix_cons_of hb', ih]
      · have hb' : ¬(b = ret ∧ some c = some newline) := fun h' => hb ⟨h'.1, Option.some.inj h'.2⟩
        rw [List.cons_append, unix_cons_of_not hb', unix_cons_of_not hb', ih, List.cons_append]

theorem length_unix_le (f : Bytes) : (unix f).length ≤ f.length := by
  induction f with
  | nil => exact Nat.le_refl 0
  | cons b f ih =>
    rw [unix]
    split_ifs <;> simp only [List.length_cons] <;> omega

/-- **A text is left as it is exactly if no carriage return stands before a line feed.** -/
theorem unix_eq_self_iff (f : Bytes) : unix f = f ↔ ¬[ret, newline] <:+: f := by
  induction f with
  | nil => simp [unix]
  | cons b f ih =>
    have hhead : [ret, newline] <+: b :: f ↔ b = ret ∧ f.head? = some newline := by
      cases f with
      | nil => simp
      | cons c f => simp [List.cons_prefix_cons, eq_comm]
    rw [List.infix_cons_iff, hhead, not_or, ← ih]
    by_cases hb : b = ret ∧ f.head? = some newline
    · have hne : unix f ≠ b :: f := by
        intro he
        have hlen := length_unix_le f
        rw [he, List.length_cons] at hlen
        omega
      rw [unix_cons_of hb]
      exact iff_of_false hne fun h => h.1 hb
    · rw [unix_cons_of_not hb, List.cons_inj_right]
      exact (and_iff_right hb).symm

theorem unix_of_plain {f : Bytes} (h : ∀ b ∈ f, plain b = true) : unix f = f := by
  rw [unix_eq_self_iff]
  intro hin
  have hmem : ret ∈ f := hin.subset List.mem_cons_self
  exact absurd (h ret hmem) (by decide)

theorem head?_escape (f r : Bytes) : (escape f ++ quote :: r).head? = some newline ↔ f.head? = some newline := by
  cases f with
  | nil => simp [escape, quote, newline]
  | cons b f =>
    by_cases hb : b = quote
    · simp [escape, hb]
    · simp [escape, hb]

theorem unix_escape (f : Bytes) : unix (escape f ++ [quote]) = escape (unix f) ++ [quote] := by
  induction f with
  | nil => rfl
  | cons b f ih =>
    have hquote : quote ≠ ret := by decide
    by_cases hb : b = quote
    · subst hb
      have hesc : ∀ g, escape (quote :: g) = quote :: quote :: escape g := fun g => rfl
      rw [unix_cons_of_ne hquote, hesc, hesc, List.cons_append, List.cons_append, unix_cons_of_ne hquote,
        unix_cons_of_ne hquote, ih]
      rfl
    · have hesc : ∀ g, escape (b :: g) = b :: escape g := fun g => by simp [escape, hb]
      by_cases hcut : b = ret ∧ f.head? = some newline
      · rw [hesc, List.cons_append, unix_cons_of ⟨hcut.1, (head?_escape f []).mpr hcut.2⟩, unix_cons_of hcut, ih]
      · rw [hesc, List.cons_append, unix_cons_of_not (fun h => hcut ⟨h.1, (head?_escape f []).mp h.2⟩),
          unix_cons_of_not hcut, hesc, ih, List.cons_append]

/-- The text of a field never ends in a carriage return that a line feed behind it could take away. -/
theorem getLast?_fieldText (f : Bytes) : (fieldText f).getLast? ≠ some ret := by
  unfold fieldText
  split_ifs with h
  · rw [← List.cons_append, List.getLast?_concat]
    decide
  · intro hlast
    exact absurd (plain_of_bare h ret (List.mem_of_getLast? hlast)) (by decide)

end Unix

/-! ## The round trip -/

section RoundTrip

/-- A field as the reader sees it in the file. -/
theorem unix_fieldText (f : Bytes) : unix (fieldText f)
    = if fieldNeedsQuotes f then quote :: (escape (unix f) ++ [quote]) else f := by
  unfold fieldText
  split_ifs with h
  · rw [unix_cons_of_ne (by decide), unix_escape]
  · exact unix_of_plain (plain_of_bare h)

theorem scan_cons (place : Place) (done : List Bytes) (b : UInt8) (rest : Bytes) : scan place done (b :: rest) =
    match next place done b with
    | .go place' done' => scan place' done' rest
    | .record fields => (scan .line [] rest).map (fields :: ·) id
    | .fail e => ([], some e) := rfl

/-- Between quotes the field is read as it was before its quotes were doubled. -/
theorem scan_escape (done : List Bytes) (read f rest : Bytes) :
    scan (.quoted read) done (escape f ++ rest) = scan (.quoted (read ++ f)) done rest := by
  induction f generalizing read with
  | nil => rw [escape, List.flatMap_nil, List.nil_append, List.append_nil]
  | cons b f ih =>
    have hassoc : ∀ c : UInt8, read ++ [c] ++ f = read ++ c :: f := fun c => by simp
    by_cases hb : b = quote
    · subst hb
      show scan (.quoted read) done (quote :: quote :: (escape f ++ rest)) = _
      rw [scan_cons, scan_cons]
      exact (ih (read ++ [quote])).trans (by rw [hassoc])
    · have hesc : escape (b :: f) = b :: escape f := by simp [escape, hb]
      rw [hesc, List.cons_append, scan_cons]
      simp only [next, if_neg hb]
      rw [ih, hassoc]

/-- Bytes that stand for themselves are read one by one. -/
theorem scan_plain (done : List Bytes) {f : Bytes} (h : ∀ b ∈ f, plain b = true) (read rest : Bytes) :
    scan (.bare read) done (f ++ rest) = scan (.bare (read ++ f)) done rest := by
  induction f generalizing read with
  | nil => rw [List.nil_append, List.append_nil]
  | cons b f ih =>
    obtain ⟨hnewline, -, hquote, hcomma⟩ := plain_iff.mp (h b List.mem_cons_self)
    rw [List.cons_append, scan_cons]
    simp only [next, if_neg hcomma, if_neg hnewline, if_neg hquote]
    rw [ih fun c hc => h c (List.mem_cons_of_mem b hc)]
    simp

/-- What ends a field. -/
def close (done : List Bytes) (f : Bytes) (sep : UInt8) (rest : Bytes) : List (List Bytes) × Option ReadError :=
  if sep = comma then scan .field (done ++ [f]) rest else (scan .line [] rest).map ((done ++ [f]) :: ·) id

/-- A written field is read up to what separates it. -/
theorem scan_fieldText (done : List Bytes) (f : Bytes) {sep : UInt8} (hsep : sep = comma ∨ sep = newline)
    (rest : Bytes) : scan .field done (unix (fieldText f) ++ sep :: rest) = close done (unix f) sep rest := by
  rw [unix_fieldText]
  split_ifs with h
  · have hquote : scan .field done (quote :: (escape (unix f) ++ [quote]) ++ sep :: rest)
        = scan (.closing (unix f)) done (sep :: rest) := by
      rw [List.cons_append, List.append_assoc, scan_cons]
      exact (scan_escape done [] (unix f) _).trans rfl
    rw [hquote, scan_cons]
    rcases hsep with rfl | rfl <;> rfl
  · cases f with
    | nil =>
      rw [List.nil_append, scan_cons]
      rcases hsep with rfl | rfl <;> rfl
    | cons b f =>
      have hplain := plain_of_bare h
      obtain ⟨hnewline, -, hquote, hcomma⟩ := plain_iff.mp (hplain b List.mem_cons_self)
      rw [List.cons_append, scan_cons]
      simp only [next, opening, if_neg hcomma, if_neg hnewline, if_neg hquote]
      rw [scan_plain done fun c hc => hplain c (List.mem_cons_of_mem b hc), scan_cons, unix_of_plain hplain]
      rcases hsep with rfl | rfl <;> rfl

/-- The fields of a record are read up to the line feed behind them. -/
theorem scan_join {fields : List Bytes} (hne : fields ≠ []) (done : List Bytes) (rest : Bytes) :
    scan .field done (unix (join fields) ++ newline :: rest)
      = (scan .line [] rest).map ((done ++ fields.map unix) :: ·) id := by
  induction fields generalizing done with
  | nil => exact absurd rfl hne
  | cons f fields ih =>
    cases fields with
    | nil => exact scan_fieldText done f (Or.inr rfl) rest
    | cons g fields =>
      have hjoin : unix (join (f :: g :: fields)) = unix (fieldText f) ++ comma :: unix (join (g :: fields)) := by
        rw [join, unix_append _ (getLast?_fieldText f), unix_cons_of_ne (by decide)]
      rw [hjoin, List.append_assoc, List.cons_append, scan_fieldText done f (Or.inl rfl)]
      show scan .field (done ++ [unix f]) _ = _
      rw [ih (List.cons_ne_nil _ _), List.append_assoc]
      rfl

/-- At the start of a line a field begins, unless the line is empty. -/
theorem scan_line {b : UInt8} (h : b ≠ newline) (rest : Bytes) :
    scan .line [] (b :: rest) = scan .field [] (b :: rest) := by
  rw [scan_cons, scan_cons]
  simp only [next, if_neg h]

/-- The text of two or more fields begins with no line feed. -/
theorem unix_join_cons {fields : List Bytes} (h : 2 ≤ fields.length) :
    ∃ b rest, unix (join fields) = b :: rest ∧ b ≠ newline := by
  obtain ⟨f, g, fields, rfl⟩ : ∃ f g r, fields = f :: g :: r := by
    match fields, h with
    | f :: g :: r, _ => exact ⟨f, g, r, rfl⟩
  rw [join, unix_append _ (getLast?_fieldText f), unix_cons_of_ne (by decide), unix_fieldText]
  split_ifs with hq
  · exact ⟨quote, _, rfl, by decide⟩
  · cases f with
    | nil => exact ⟨comma, _, rfl, by decide⟩
    | cons b f =>
      exact ⟨b, _, rfl, (plain_iff.mp (plain_of_bare hq b List.mem_cons_self)).1⟩

theorem getLast?_join (fields : List Bytes) : (join fields).getLast? ≠ some ret := by
  induction fields with
  | nil => exact nofun
  | cons f fields ih =>
    cases fields with
    | nil => exact getLast?_fieldText f
    | cons g fields =>
      rw [join, List.getLast?_append, List.getLast?_cons, Option.some_or]
      cases hlast : (join (g :: fields)).getLast? with
      | none => decide
      | some b =>
        rw [hlast] at ih
        exact ih

theorem unix_writeRecord (fields : List Bytes) (rest : Bytes) :
    unix (writeRecord fields ++ rest) = unix (join fields) ++ newline :: unix rest := by
  rw [writeRecord, List.append_assoc, unix_append _ (getLast?_join fields), List.singleton_append,
    unix_cons_of_ne (by decide)]

theorem scan_records {records : List (List Bytes)} (h : ∀ r ∈ records, 2 ≤ r.length) :
    scan .line [] (unix (records.flatMap writeRecord)) = (records.map (List.map unix), none) := by
  induction records with
  | nil => rfl
  | cons r records ih =>
    have hr : 2 ≤ r.length := h r List.mem_cons_self
    obtain ⟨b, rest, hjoin, hb⟩ := unix_join_cons hr
    have hne : r ≠ [] := by
      rintro rfl
      cases hr
    have hline : scan .line [] (unix (join r) ++ newline :: unix (records.flatMap writeRecord))
        = scan .field [] (unix (join r) ++ newline :: unix (records.flatMap writeRecord)) := by
      rw [hjoin, List.cons_append, scan_line hb]
    rw [List.flatMap_cons, unix_writeRecord, hline, scan_join hne, ih fun r' hr' => h r' (List.mem_cons_of_mem r hr')]
    rfl

/-- **What is written is read**, with every carriage return before a line feed dropped. -/
theorem readAll_write {records : List (List Bytes)} (h : ∀ r ∈ records, 2 ≤ r.length) :
    readAll (records.flatMap writeRecord) = (records.map (List.map unix), none) := by
  have hlast : (records.flatMap writeRecord).getLast? ≠ some ret := by
    rcases List.eq_nil_or_concat records with rfl | ⟨init, last, rfl⟩
    · exact nofun
    · rw [List.concat_eq_append, List.flatMap_append, List.flatMap_singleton, writeRecord, ← List.append_assoc,
        List.getLast?_concat]
      decide
  rw [readAll, normalise, if_neg hlast, scan_records h]

end RoundTrip

end Csv
