import AgenticAttribution.Lib.Digits
import AgenticAttribution.Lib.Json

/-!
# Lib.GoJson — JSON values read into Go structs

`encoding/json`'s `Unmarshal` into a struct of strings, integers and structs.  The members of an object are taken
one by one, so of two for the same field the later wins, and a struct that is named twice is filled in twice.  A
field is found by its name, or else by its name in another case.  A `null` leaves a field as it is, a member that
no field is named after is skipped, and a value of another type is an error (`none`).
-/

namespace GoJson

open Digits

/-! ## Scalars -/

/-- A string field that holds `old`. -/
def text (old : Bytes) : Json → Option Bytes
  | .null => some old
  | .str cs => some (Utf8.encode cs)
  | _ => none

/-- A `bool` field that holds `old`. -/
def bool (old : Bool) : Json → Option Bool
  | .null => some old
  | .bool b => some b
  | _ => none

/-- `strconv.ParseInt(literal, 10, 64)`. -/
def parseInt (literal : List Char) : Option ℤ :=
  let (negative, cs) := match literal with
    | '-' :: cs => (true, cs)
    | cs => (false, cs)
  if cs = [] ∨ !cs.all Char.isDigit then none
  else
    let n : ℤ := Nat.ofDigitChars 10 cs 0
    let n := if negative then -n else n
    if -2 ^ 63 ≤ n ∧ n < 2 ^ 63 then some n else none

theorem parseInt_minus {cs : List Char} (hne : cs ≠ []) (hd : ∀ c ∈ cs, c.isDigit = true) :
    parseInt ('-' :: cs) = if -2 ^ 63 ≤ -(Nat.ofDigitChars 10 cs 0 : ℤ) ∧ -(Nat.ofDigitChars 10 cs 0 : ℤ) < 2 ^ 63 then
      some (-(Nat.ofDigitChars 10 cs 0 : ℤ)) else none := by
  have hall : cs.all Char.isDigit = true := List.all_eq_true.mpr hd
  simp [parseInt, hne, hall]

theorem parseInt_digits {cs : List Char} (hne : cs ≠ []) (hd : ∀ c ∈ cs, c.isDigit = true) :
    parseInt cs = if (Nat.ofDigitChars 10 cs 0 : ℤ) < 2 ^ 63 then some (Nat.ofDigitChars 10 cs 0 : ℤ) else none := by
  have hall : cs.all Char.isDigit = true := List.all_eq_true.mpr hd
  have hlow : (-2 ^ 63 : ℤ) ≤ Nat.ofDigitChars 10 cs 0 := by omega
  cases cs with
  | nil => exact absurd rfl hne
  | cons c cs =>
    have hc : c ≠ '-' := by
      rintro rfl
      exact absurd (hd '-' List.mem_cons_self) (by decide)
    unfold parseInt
    split
    rename_i heq
    split at heq
    · rename_i h
      exact absurd (List.cons.inj h).1 hc
    · cases heq
      simp only [hall, hlow, reduceCtorEq, Bool.not_true, Bool.false_eq_true, or_self, if_false, true_and]

/-- The numeral of an integer is read back where it is in range. -/
theorem parseInt_intChars_eq (n : ℤ) :
    parseInt (intChars n) = if -2 ^ 63 ≤ n ∧ n < 2 ^ 63 then some n else none := by
  cases n with
  | ofNat n =>
    have hread : Nat.ofDigitChars 10 (natChars n) 0 = n := Nat.ofDigitChars_ten_toDigits
    have hlow : (-2 ^ 63 : ℤ) ≤ n := by omega
    rw [intChars, parseInt_digits (natChars_ne_nil n) fun c hc => isDigit_of_mem_natChars hc, hread]
    simp only [Int.ofNat_eq_natCast, hlow, true_and]
  | negSucc n =>
    have hread : Nat.ofDigitChars 10 (natChars (n + 1)) 0 = n + 1 := Nat.ofDigitChars_ten_toDigits
    rw [intChars, parseInt_minus (natChars_ne_nil (n + 1)) fun c hc => isDigit_of_mem_natChars hc, hread]
    rfl

theorem parseInt_intChars {n : ℤ} (hlow : -2 ^ 63 ≤ n) (hhigh : n < 2 ^ 63) : parseInt (intChars n) = some n := by
  rw [parseInt_intChars_eq, if_pos ⟨hlow, hhigh⟩]

/-- An `int` or `int64` field that holds `old`.  A number that is not finite is `null` on the wire. -/
def int (old : ℤ) : Json → Option ℤ
  | .null => some old
  | .num literal => if Json.stringifyNum literal = literal then parseInt literal else some old
  | _ => none

/-- A numeral that an integer field takes is the field's new value. -/
theorem int_intChars_eq_some {old n v : ℤ} (h : int old (.num (intChars n)) = some v) : v = n := by
  rw [int, if_pos (Json.stringifyNum_intChars n), parseInt_intChars_eq] at h
  split_ifs at h
  exact (Option.some.inj h).symm

/-! ## Structs -/

/-- A field of the struct `σ`, with what a value does to the struct. -/
structure StructField (σ : Type) where
  name : String
  assign : σ → Json → Option σ

variable {σ τ : Type}

/-- A field read by `read`. -/
def StructField.of (name : String) (read : τ → Json → Option τ) (get : σ → τ) (put : σ → τ → σ) :
    StructField σ :=
  ⟨name, fun s v => (read (get s) v).map (put s)⟩

/-- The letters that fold into one another: beside the two cases, KELVIN SIGN and LONG S. -/
def foldRune (c : Char) : Char := if c = '\u212a' then 'K' else if c = '\u017f' then 'S' else c.toUpper

def foldName (cs : List Char) : List Char := cs.map foldRune

/-- The field that a key names. -/
def fieldOf (fields : List (StructField σ)) (key : List Char) : Option (StructField σ) :=
  (fields.find? fun f => f.name.toList = key).or (fields.find? fun f => foldName f.name.toList = foldName key)

/-- One member of an object. -/
def member (fields : List (StructField σ)) (s : σ) (m : List Char × Json) : Option σ :=
  match fieldOf fields m.1 with
  | none => some s
  | some f => f.assign s m.2

/-- A struct that holds `s`. -/
def object (fields : List (StructField σ)) (s : σ) : Json → Option σ
  | .null => some s
  | .obj members => members.foldlM (member fields) s
  | _ => none

end GoJson
