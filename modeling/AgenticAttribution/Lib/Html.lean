import Mathlib.Data.List.Basic

/-!
# Lib.Html — values in HTML pages

`read` is what a reader of HTML makes of a page: in a tag every character is markup, in a text and in a quoted
attribute value a character is data, and a character reference is the character it stands for.  An `Escape` writes the
characters of a value so that they are read back as data wherever they stand outside a tag (`htmlspecialchars`,
`escapeHtml`).  A page is put together of pieces of fixed markup and of values; where no value stands in a tag
(`place`), a reader finds the fixed markup and each value, whatever the values are (`read_render`), and no value adds
to the markup (`markup_render`).  The links of a page are those of its pieces (`targets_tokens`).

Comments, single-quoted values and the raw texts of `script` and `style` are not read, and the characters that a reader
of HTML replaces before it looks for tags, carriage return and NUL, are kept as they are.
-/

namespace Html

/-- Where a reader is. -/
inductive Ctx where
  | text
  | tag
  | quoted
  deriving DecidableEq

inductive Token where
  | markup (c : Char)
  | data (ctx : Ctx) (c : Char)
  deriving DecidableEq

/-- Where the reader is behind a character. -/
def Ctx.next : Ctx → Char → Ctx
  | text, c => if c = '<' then tag else text
  | tag, c => if c = '>' then text else if c = '"' then quoted else tag
  | quoted, c => if c = '"' then tag else quoted

def Ctx.scan (ctx : Ctx) (cs : List Char) : Ctx := cs.foldl Ctx.next ctx

/-- The character is data: it does not lead anywhere else. -/
def Ctx.isData (ctx : Ctx) (c : Char) : Bool := ctx ≠ tag && ctx.next c = ctx

/-- A character reference behind its `&`, and what follows it. -/
def unref : List Char → Option (Char × List Char)
  | 'a' :: 'm' :: 'p' :: ';' :: cs => some ('&', cs)
  | 'q' :: 'u' :: 'o' :: 't' :: ';' :: cs => some ('"', cs)
  | '#' :: '0' :: '3' :: '9' :: ';' :: cs => some ('\'', cs)
  | '#' :: '3' :: '9' :: ';' :: cs => some ('\'', cs)
  | 'l' :: 't' :: ';' :: cs => some ('<', cs)
  | 'g' :: 't' :: ';' :: cs => some ('>', cs)
  | _ => none

theorem length_unref {cs rest : List Char} {c : Char} (h : unref cs = some (c, rest)) : rest.length ≤ cs.length := by
  unfold unref at h
  split at h <;> cases h <;> simp only [List.length_cons] <;> omega

/-- What a reader makes of a page. -/
def read (ctx : Ctx) : List Char → List Token
  | [] => []
  | c :: cs =>
    if ctx.isData c then
      if c = '&' then
        match _h : unref cs with
        | some (d, rest) => .data ctx d :: read ctx rest
        | none => .data ctx c :: read ctx cs
      else .data ctx c :: read ctx cs
    else .markup c :: read (ctx.next c) cs
  termination_by cs => cs.length
  decreasing_by
    all_goals simp only [List.length_cons]
    · exact Nat.lt_succ_of_le (length_unref _h)
    all_goals omega

/-! ## Characters -/

section Read

variable {ctx : Ctx} {c d : Char} {cs rest : List Char}

@[simp] theorem read_nil : read ctx [] = [] := by rw [read]

theorem isData_amp (h : ctx ≠ .tag) : ctx.isData '&' = true := by
  cases ctx <;> simp_all [Ctx.isData, Ctx.next]

/-- A character that is neither of the three is data outside a tag. -/
theorem isData_of (h : ctx ≠ .tag) (hlt : c ≠ '<') (hquot : c ≠ '"') : ctx.isData c = true := by
  cases ctx <;> simp_all [Ctx.isData, Ctx.next]

theorem read_ref (h : ctx ≠ .tag) (href : unref cs = some (d, rest)) :
    read ctx ('&' :: cs) = .data ctx d :: read ctx rest := by
  rw [read, if_pos (isData_amp h), if_pos rfl]
  split
  · rename_i d' rest' he
    obtain ⟨rfl, rfl⟩ := Prod.mk.injEq .. ▸ Option.some.inj (href.symm.trans he)
    rfl
  · rename_i he
    rw [href] at he
    cases he

theorem read_cons_of_ne (hamp : c ≠ '&') :
    read ctx (c :: cs) = (if ctx.isData c then .data ctx c else .markup c) :: read (ctx.next c) cs := by
  rw [read]
  split_ifs with hdata
  · have hnext : ctx.next c = ctx := by
      simp only [Ctx.isData, Bool.and_eq_true, decide_eq_true_eq] at hdata
      exact hdata.2
    rw [hnext]
  · rfl

/-- What has no `&` in it is read by itself. -/
theorem read_append (h : '&' ∉ cs) : read ctx (cs ++ rest) = read ctx cs ++ read (ctx.scan cs) rest := by
  induction cs generalizing ctx with
  | nil => simp [Ctx.scan]
  | cons c cs ih =>
    obtain ⟨hc, hcs⟩ := not_or.mp (mt List.mem_cons.mpr h)
    rw [List.cons_append, read_cons_of_ne (Ne.symm hc), read_cons_of_ne (Ne.symm hc), ih hcs, List.cons_append]
    rfl

end Read

/-! ## Escapes -/

section Escape

/-- A way of writing characters as data. -/
structure Escape where
  char : Char → List Char
  reads : ∀ {ctx : Ctx} (c : Char) (rest : List Char), ctx ≠ .tag →
    read ctx (char c ++ rest) = .data ctx c :: read ctx rest

def Escape.text (E : Escape) (cs : List Char) : List Char := cs.flatMap E.char

/-- **A value is read back as data.** -/
theorem Escape.read_text (E : Escape) {ctx : Ctx} (h : ctx ≠ .tag) (cs rest : List Char) :
    read ctx (E.text cs ++ rest) = cs.map (Token.data ctx) ++ read ctx rest := by
  induction cs with
  | nil => rfl
  | cons c cs ih =>
    rw [Escape.text, List.flatMap_cons, List.append_assoc, E.reads c _ h]
    exact congrArg _ ih

/-- The characters that are escaped, with `'` written as `apos`. -/
def escapeChar (apos : List Char) (c : Char) : List Char :=
  if c = '&' then ['&', 'a', 'm', 'p', ';']
  else if c = '"' then ['&', 'q', 'u', 'o', 't', ';']
  else if c = '\'' then '&' :: apos
  else if c = '<' then ['&', 'l', 't', ';']
  else if c = '>' then ['&', 'g', 't', ';']
  else [c]

theorem read_escapeChar {apos : List Char} (hapos : ∀ rest, unref (apos ++ rest) = some ('\'', rest)) {ctx : Ctx}
    (c : Char) (rest : List Char) (h : ctx ≠ .tag) :
    read ctx (escapeChar apos c ++ rest) = .data ctx c :: read ctx rest := by
  unfold escapeChar
  split_ifs with hamp hquot hap hlt hgt
  · subst hamp
    exact read_ref h rfl
  · subst hquot
    exact read_ref h rfl
  · subst hap
    exact read_ref h (hapos rest)
  · subst hlt
    exact read_ref h rfl
  · subst hgt
    exact read_ref h rfl
  · have hdata := isData_of h hlt hquot
    have hnext : ctx.next c = ctx := by
      simp only [Ctx.isData, Bool.and_eq_true, decide_eq_true_eq] at hdata
      exact hdata.2
    rw [List.singleton_append, read_cons_of_ne hamp, if_pos hdata, hnext]

/-- `htmlspecialchars` with `ENT_QUOTES`. -/
def specialchars : Escape :=
  ⟨escapeChar ['#', '0', '3', '9', ';'], fun c rest h => read_escapeChar (fun _ => rfl) c rest h⟩

end Escape

/-! ## Pages of pieces -/

section Pages

/-- A piece of a page. -/
inductive Piece where
  | markup (cs : List Char)
  | value (cs : List Char)
  deriving DecidableEq

variable (E : Escape)

def Piece.render : Piece → List Char
  | markup cs => cs
  | value cs => E.text cs

def render (ps : List Piece) : List Char := ps.flatMap (Piece.render E)

/-- What is fixed of a piece: its markup, or that a value stands there. -/
def Piece.shape : Piece → Option (List Char)
  | markup cs => some cs
  | value _ => none

/-- Where a reader is behind pieces of these shapes, if every value stands outside a tag. -/
def place (ctx : Ctx) : List (Option (List Char)) → Option Ctx
  | [] => some ctx
  | some cs :: shapes => if '&' ∈ cs then none else place (ctx.scan cs) shapes
  | none :: shapes => if ctx = .tag then none else place ctx shapes

/-- The tokens of the pieces: those of the markup, and the values as they are. -/
def tokens (ctx : Ctx) : List Piece → List Token
  | [] => []
  | .markup cs :: ps => read ctx cs ++ tokens (ctx.scan cs) ps
  | .value cs :: ps => cs.map (Token.data ctx) ++ tokens ctx ps

variable {E} {ctx ctx' : Ctx} {ps qs : List Piece}

theorem place_append {a b : List (Option (List Char))} : place ctx (a ++ b) = (place ctx a).bind (place · b) := by
  induction a generalizing ctx with
  | nil => rfl
  | cons shape a ih =>
    cases shape with
    | some cs =>
      simp only [List.cons_append, place]
      split_ifs
      · rfl
      · exact ih
    | none =>
      simp only [List.cons_append, place]
      split_ifs
      · rfl
      · exact ih

/-- **A page is read as its pieces**: the markup as it is fixed, and the values as they are. -/
theorem read_render (h : place ctx (ps.map Piece.shape) = some ctx') : read ctx (render E ps) = tokens ctx ps := by
  induction ps generalizing ctx with
  | nil => simp [render, tokens]
  | cons p ps ih =>
    cases p with
    | markup cs =>
      simp only [List.map_cons, Piece.shape, place] at h
      split_ifs at h with hamp
      rw [tokens, render, List.flatMap_cons, Piece.render, read_append hamp, ← ih h]
      rfl
    | value cs =>
      simp only [List.map_cons, Piece.shape, place] at h
      split_ifs at h with htag
      rw [tokens, render, List.flatMap_cons, Piece.render, E.read_text htag, ← ih h]
      rfl

def Token.isMarkup : Token → Bool
  | markup _ => true
  | data _ _ => false

/-- The markup of a page. -/
def markup (ctx : Ctx) (page : List Char) : List Token := (read ctx page).filter Token.isMarkup

theorem markup_tokens (h : ps.map Piece.shape = qs.map Piece.shape) :
    (tokens ctx ps).filter Token.isMarkup = (tokens ctx qs).filter Token.isMarkup := by
  have hvalue : ∀ cs : List Char, (cs.map (Token.data ctx)).filter Token.isMarkup = [] := fun cs => by
    simp [Token.isMarkup]
  induction ps generalizing ctx qs with
  | nil =>
    obtain rfl := List.map_eq_nil_iff.mp h.symm
    rfl
  | cons p ps ih =>
    match qs, h with
    | q :: qs, h =>
      obtain ⟨hpq, hrest⟩ := List.cons.inj h
      match p, q, hpq with
      | .markup cs, .markup ds, hpq =>
        obtain rfl := Option.some.inj hpq
        rw [tokens, tokens, List.filter_append, List.filter_append, ih hrest fun cs => by simp [Token.isMarkup]]
      | .value cs, .value ds, _ =>
        rw [tokens, tokens, List.filter_append, List.filter_append, hvalue, hvalue]
        exact ih hrest hvalue

/-- **No value adds to the markup**: pages of one shape have the same. -/
theorem markup_render (h : place ctx (ps.map Piece.shape) = some ctx') (hqs : ps.map Piece.shape = qs.map Piece.shape) :
    markup ctx (render E ps) = markup ctx (render E qs) := by
  rw [markup, markup, read_render h, read_render (hqs ▸ h)]
  exact markup_tokens hqs

end Pages

/-! ## Links -/

section Links

/-- What a reader makes of a text without references. -/
def plain (ctx : Ctx) : List Char → List Token
  | [] => []
  | c :: cs => (if ctx.isData c then .data ctx c else .markup c) :: plain (ctx.next c) cs

def Token.isData : Token → Bool
  | markup _ => false
  | data _ _ => true

/-- ` href="`, as it stands in a tag. -/
def hrefMark : List Token := [' ', 'h', 'r', 'e', 'f', '=', '"'].map Token.markup

/-- The data up to the next markup. -/
def dataRun : List Token → List Char
  | .data _ c :: ts => c :: dataRun ts
  | _ => []

/-- The targets of the links: what follows each ` href="`. -/
def targets : List Token → List (List Char)
  | [] => []
  | t :: ts => if hrefMark <+: t :: ts then dataRun (ts.drop 6) :: targets ts else targets ts

/-- No link is open at the end, so that what comes behind adds to none. -/
def closed : List Token → Bool
  | [] => true
  | t :: ts => !(t :: ts).isPrefixOf hrefMark && !(hrefMark.isPrefixOf (t :: ts) && (ts.drop 6).all Token.isData)
      && closed ts

/-- The links in the markup of pieces of these shapes, if no link goes beyond its piece. -/
def linked (ctx : Ctx) : List (Option (List Char)) → Option (List (List Char))
  | [] => some []
  | some cs :: shapes =>
    if closed (plain ctx cs) then (linked (ctx.scan cs) shapes).map (targets (plain ctx cs) ++ ·) else none
  | none :: shapes => linked ctx shapes

variable {ctx ctx' : Ctx} {cs : List Char} {as bs : List Token}

theorem read_eq_plain (h : '&' ∉ cs) : read ctx cs = plain ctx cs := by
  induction cs generalizing ctx with
  | nil => simp [plain]
  | cons c cs ih =>
    obtain ⟨hc, hcs⟩ := not_or.mp (mt List.mem_cons.mpr h)
    rw [read_cons_of_ne (Ne.symm hc), ih hcs, plain]

/-- A quoted value without a quote in it is data. -/
theorem plain_quoted (h : '"' ∉ cs) : plain .quoted cs = cs.map (Token.data .quoted) := by
  induction cs with
  | nil => rfl
  | cons c cs ih =>
    obtain ⟨hc, hcs⟩ := not_or.mp (mt List.mem_cons.mpr h)
    have hnext : Ctx.quoted.next c = .quoted := if_neg (Ne.symm hc)
    simp [plain, Ctx.isData, hnext, ih hcs]

theorem scan_quoted (h : '"' ∉ cs) : Ctx.quoted.scan cs = .quoted := by
  induction cs with
  | nil => rfl
  | cons c cs ih =>
    obtain ⟨hc, hcs⟩ := not_or.mp (mt List.mem_cons.mpr h)
    have hnext : Ctx.quoted.next c = .quoted := if_neg (Ne.symm hc)
    rw [Ctx.scan, List.foldl_cons, hnext]
    exact ih hcs

theorem dataRun_append (h : as.all Token.isData = false) : dataRun (as ++ bs) = dataRun as := by
  induction as with
  | nil => simp at h
  | cons t as ih =>
    cases t with
    | markup c => rfl
    | data ctx c =>
      have has : as.all Token.isData = false := by simpa [Token.isData] using h
      simp only [List.cons_append, dataRun, ih has]

/-- **The links of what is closed are its own.** -/
theorem targets_append (h : closed as = true) : targets (as ++ bs) = targets as ++ targets bs := by
  induction as with
  | nil => rfl
  | cons t as ih =>
    simp only [closed, Bool.and_eq_true, Bool.not_eq_true', Bool.and_eq_false_iff] at h
    obtain ⟨⟨hpre, hrun⟩, has⟩ := h
    have hshort : ¬ t :: as <+: hrefMark := by
      rw [← List.isPrefixOf_iff_prefix, hpre]
      exact Bool.false_ne_true
    by_cases hmark : hrefMark <+: t :: as
    · have hall : (as.drop 6).all Token.isData = false := by
        refine hrun.resolve_left ?_
        simp [List.isPrefixOf_iff_prefix.mpr hmark]
      have hlen : 6 ≤ as.length := by
        have hle := hmark.length_le
        simp only [hrefMark, List.length_map, List.length_cons, List.length_nil] at hle
        omega
      have hlong : hrefMark <+: t :: (as ++ bs) := hmark.trans (List.prefix_append (t :: as) bs)
      rw [List.cons_append, targets, targets, if_pos hlong, if_pos hmark, List.drop_append_of_le_length hlen,
        dataRun_append hall, ih has, List.cons_append]
    · have hlong : ¬ hrefMark <+: t :: (as ++ bs) := fun hl =>
        (List.prefix_or_prefix_of_prefix hl (List.prefix_append (t :: as) bs)).elim hmark hshort
      rw [List.cons_append, targets, targets, if_neg hlong, if_neg hmark, ih has]

/-- Data has no links. -/
theorem targets_data (cs : List Char) : targets (cs.map (Token.data ctx) ++ bs) = targets bs := by
  induction cs with
  | nil => rfl
  | cons c cs ih =>
    have hmark : ¬ hrefMark <+: Token.data ctx c :: (cs.map (Token.data ctx) ++ bs) := by
      simp [hrefMark]
    rw [List.map_cons, List.cons_append, targets, if_neg hmark, ih]

/-- A link, with its target as the data behind it. -/
theorem targets_href (cs : List Char) :
    targets (hrefMark ++ (cs.map (Token.data ctx) ++ .markup '"' :: bs)) = cs :: targets bs := by
  have hrun : ∀ cs : List Char, dataRun (cs.map (Token.data ctx) ++ .markup '"' :: bs) = cs := by
    intro cs
    induction cs with
    | nil => rfl
    | cons c cs ih => simp only [List.map_cons, List.cons_append, dataRun, ih]
  have hquot : targets (.markup '"' :: bs) = targets bs := by
    rw [targets, if_neg (by simp [hrefMark])]
  have hmark : ∀ ts, hrefMark ++ ts = .markup ' ' :: (hrefMark.tail ++ ts) := fun _ => rfl
  have htail : ∀ ts, targets (hrefMark.tail ++ ts) = targets ts := by
    intro ts
    simp [hrefMark, targets]
  rw [hmark, targets, if_pos (by rw [← hmark]; exact List.prefix_append _ _), htail, targets_data, hquot]
  exact congrArg (· :: targets bs) (hrun cs)

/-- **The links of pieces are those in their markup**, when no link goes beyond its piece. -/
theorem targets_tokens {ps qs : List Piece} {found : List (List Char)}
    (hplace : place ctx (ps.map Piece.shape) = some ctx') (hlinked : linked ctx (ps.map Piece.shape) = some found) :
    targets (tokens ctx (ps ++ qs)) = found ++ targets (tokens ctx' qs) := by
  induction ps generalizing ctx found with
  | nil =>
    obtain rfl := Option.some.inj hplace
    obtain rfl := Option.some.inj hlinked
    rfl
  | cons p ps ih =>
    cases p with
    | markup cs =>
      simp only [List.map_cons, Piece.shape, place, linked] at hplace hlinked
      split_ifs at hplace hlinked with hamp hclosed
      obtain ⟨rest, hrest, rfl⟩ := Option.map_eq_some_iff.mp hlinked
      rw [List.cons_append, tokens, read_eq_plain hamp, targets_append hclosed, ih hplace hrest, List.append_assoc]
    | value cs =>
      simp only [List.map_cons, Piece.shape, place, linked] at hplace hlinked
      split_ifs at hplace
      rw [List.cons_append, tokens, targets_data, ih hplace hlinked]

end Links

end Html
