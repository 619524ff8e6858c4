import AgenticAttribution.Lib.JsonText

/-!
# Lib.Json — values that `JSON.parse` makes, and `JSON.stringify`

Strings are texts of Unicode scalar values.  A number is the text that ECMAScript prints for it, which is all that
`JSON.stringify` looks at.  The members of an object come in the order in which they are enumerated.
-/

inductive Json where
  | null
  | bool (b : Bool)
  | num (text : List Char)
  | str (cs : List Char)
  | arr (elems : List Json)
  | obj (members : List (List Char × Json))

namespace Json

open JsonText Digits

/-- A number literal; a number that is not finite has none. -/
def stringifyNum (text : List Char) : List Char :=
  if text = "Infinity".toList ∨ text = "-Infinity".toList ∨ text = "NaN".toList then "null".toList else text

/-- A decimal numeral is a finite number. -/
theorem stringifyNum_intChars (n : ℤ) : stringifyNum (intChars n) = intChars n := by
  have hI : 'I' ∉ intChars n := notMem_intChars rfl (by decide) n
  have hN : 'N' ∉ intChars n := notMem_intChars rfl (by decide) n
  refine if_neg ?_
  rintro (h | h | h)
  · exact hI (by rw [h]; decide)
  · exact hI (by rw [h]; decide)
  · exact hN (by rw [h]; decide)

/-- `"key":value`. -/
def memberText (key value : List Char) : List Char := jsQuote key ++ ':' :: value

/-- Texts separated by commas. -/
def commaSep : List (List Char) → List Char
  | [] => []
  | [x] => x
  | x :: y :: r => x ++ ',' :: commaSep (y :: r)

mutual

/-- `JSON.stringify`. -/
def stringify : Json → List Char
  | null => "null".toList
  | bool b => if b then "true".toList else "false".toList
  | num text => stringifyNum text
  | str cs => jsQuote cs
  | arr elems => '[' :: commaSep (stringifyAll elems) ++ [']']
  | obj members => '{' :: commaSep (stringifyMembers members) ++ ['}']

def stringifyAll : List Json → List (List Char)
  | [] => []
  | v :: r => stringify v :: stringifyAll r

def stringifyMembers : List (List Char × Json) → List (List Char)
  | [] => []
  | (key, v) :: r => memberText key (stringify v) :: stringifyMembers r

end

/-- The own property of a value; `none` is `undefined`. -/
def prop (v : Json) (key : String) : Option Json :=
  match v with
  | obj members => (members.find? fun m => m.1 = key.toList).map (·.2)
  | _ => none

/-- An object literal, without the members that are `undefined`. -/
def ofProps (props : List (String × Option Json)) : Json :=
  obj (props.filterMap fun p => p.2.map fun v => (p.1.toList, v))

theorem prop_ofProps_self (key : String) (v : Json) (props : List (String × Option Json)) :
    (ofProps ((key, some v) :: props)).prop key = some v := by
  simp [ofProps, prop]

theorem prop_ofProps_of_ne {key other : String} (h : other ≠ key) (v : Option Json)
    (props : List (String × Option Json)) :
    (ofProps ((other, v) :: props)).prop key = (ofProps props).prop key := by
  have hne : other.toList ≠ key.toList := fun he => h (String.toList_inj.mp he)
  cases v <;> simp [ofProps, prop, hne]

@[simp] theorem prop_ofProps_nil (key : String) : (ofProps []).prop key = none := rfl

theorem prop_ofProps_of_notMem {key : String} {props : List (String × Option Json)} (h : ∀ p ∈ props, p.1 ≠ key) :
    (ofProps props).prop key = none := by
  induction props with
  | nil => rfl
  | cons p rest ih =>
    rw [prop_ofProps_of_ne (h p List.mem_cons_self)]
    exact ih fun q hq => h q (List.mem_cons_of_mem _ hq)

/-- A member that may be missing. -/
theorem prop_ofProps_head {key : String} {props : List (String × Option Json)} (v : Option Json)
    (h : ∀ p ∈ props, p.1 ≠ key) : (ofProps ((key, v) :: props)).prop key = v := by
  cases v with
  | none =>
    show (ofProps props).prop key = none
    exact prop_ofProps_of_notMem h
  | some v => exact prop_ofProps_self key v props

/-! ## Coercions -/

mutual

/-- `String(value)`. -/
def toText : Json → List Char
  | null => "null".toList
  | bool b => if b then "true".toList else "false".toList
  | num text => text
  | str cs => cs
  | arr elems => commaSep (joinAll elems)
  | obj _ => "[object Object]".toList

/-- The elements of an array as `join` writes them; a `null` is nothing. -/
def joinAll : List Json → List (List Char)
  | [] => []
  | null :: r => [] :: joinAll r
  | v :: r => toText v :: joinAll r

end

mutual

/-- `String(value)` does not throw: no object in it hides the `toString` that it inherits. -/
def printable : Json → Bool
  | arr elems => printableAll elems
  | obj members => members.all fun m => m.1 ≠ "toString".toList
  | _ => true

def printableAll : List Json → Bool
  | [] => true
  | v :: r => printable v && printableAll r

end

/-- A template literal can hold the value. -/
def displayable : Option Json → Bool
  | none => true
  | some v => v.printable

/-- A value in a template literal. -/
def display : Option Json → List Char
  | none => "undefined".toList
  | some v => toText v

/-- A value that counts as true. -/
def truthy : Option Json → Bool
  | none | some null | some (bool false) => false
  | some (num text) => text ≠ ['0'] ∧ text ≠ "NaN".toList
  | some (str cs) => cs ≠ []
  | _ => true

/-- `value || fallback`. -/
def orElse (v : Option Json) (fallback : Json) : Json := if truthy v then v.getD fallback else fallback

/-- `value ?? fallback`. -/
def orDefault (v : Option Json) (fallback : Json) : Json :=
  match v with
  | none | some null => fallback
  | some v => v

/-- A value that `typeof` calls an object and that is not `null`. -/
def isObject : Json → Bool
  | arr _ | obj _ => true
  | _ => false

/-- `typeof value === 'string'`. -/
def isString : Option Json → Bool
  | some (str _) => true
  | _ => false

/-- `===` on two values that were parsed apart from each other, so that no object is the same as another.  Parsed
numbers are never NaN, so a `Set` compares them in the same way. -/
def strictEq : Option Json → Option Json → Bool
  | none, none => true
  | some null, some null => true
  | some (bool b), some (bool c) => b = c
  | some (num s), some (num t) => s = t
  | some (str s), some (str t) => s = t
  | _, _ => false

/-- The value is the string literal. -/
def isText (v : Option Json) (s : String) : Bool := strictEq v (some (str s.toList))

theorem eq_of_strictEq {v w : Option Json} (h : strictEq v w = true) : v = w := by
  unfold strictEq at h
  split at h <;> first | rfl | cases h | rw [of_decide_eq_true h]

theorem strictEq_trans {u v w : Option Json} (h : strictEq u v = true) (h' : strictEq v w = true) :
    strictEq u w = true := by
  rwa [eq_of_strictEq h]

theorem strictEq_str {v : Option Json} {cs : List Char} : strictEq v (some (str cs)) = true ↔ v = some (str cs) := by
  constructor
  · exact eq_of_strictEq
  · rintro rfl
    exact decide_eq_true rfl

theorem isText_iff {v : Option Json} {s : String} : isText v s = true ↔ v = some (str s.toList) := strictEq_str

end Json
