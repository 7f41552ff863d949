import Mathlib.Tactic.Lemma

/-!
# JSON values

Decoded JSON documents, with objects as association lists. A number is `mantissa * 10 ^ exponent`,
where an `int` has the exponent 0 and a `float` another one.
-/

namespace JsonData

inductive Json where
  | null
  | bool (b : Bool)
  | num (mantissa exponent : Int)
  | str (s : String)
  | arr (items : List Json)
  | obj (fields : List (String × Json))

namespace Json

/-- The value of a key, when the value is an object that has it. -/
def get? : Json → String → Option Json
  | .obj fields, key => fields.lookup key
  | _, _ => none

/-- Truth value: `null`, `false`, zero and empty values are false. -/
def truthy : Json → Bool
  | .null => false
  | .bool b => b
  | .num mantissa _ => mantissa != 0
  | .str s => s != ""
  | .arr items => !items.isEmpty
  | .obj fields => !fields.isEmpty

def isObj : Json → Bool
  | .obj _ => true
  | _ => false

def str? : Json → Option String
  | .str s => some s
  | _ => none

def isStr (j : Json) (s : String) : Bool := j.str? == some s

lemma str?_eq_some {j : Json} {s : String} : j.str? = some s ↔ j = .str s := by
  cases j <;> simp [str?]

@[simp] lemma isStr_iff {j : Json} {s : String} : j.isStr s = true ↔ j = .str s := by
  rw [isStr, beq_iff_eq, str?_eq_some]

lemma getD_null_eq_str {value : Option Json} {s : String} :
    value.getD .null = .str s ↔ value = some (.str s) := by
  cases value <;> simp

lemma getD_null_eq_obj {value : Option Json} {fields : List (String × Json)} :
    value.getD .null = .obj fields ↔ value = some (.obj fields) := by
  cases value <;> simp

end Json

end JsonData
