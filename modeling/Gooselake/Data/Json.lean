import Mathlib.Algebra.Group.Int.Defs
import Mathlib.Algebra.GroupWithZero.Nat
import Mathlib.Data.Int.Notation
import Mathlib.Data.List.Basic

/-!
JSON values as `serde_json` has them: integers apart from floats, objects as lists of fields of
which the first with a key counts.
-/

namespace Gooselake.Data

set_option autoImplicit false

inductive Json where
  | null
  | bool (b : Bool)
  | int (n : ℤ)
  | float (bits : UInt64)
  | str (s : String)
  | arr (items : List Json)
  | obj (fields : List (String × Json))
  deriving Inhabited, Repr

namespace Json

/-! ## Equality is decidable -/

mutual

def decEq : (a b : Json) → Decidable (a = b)
  | .null, .null => isTrue rfl
  | .null, .bool _ | .null, .int _ | .null, .float _ | .null, .str _ | .null, .arr _
  | .null, .obj _ => isFalse nofun
  | .bool a, .bool b => decidable_of_iff (a = b) (by simp)
  | .bool _, .null | .bool _, .int _ | .bool _, .float _ | .bool _, .str _ | .bool _, .arr _
  | .bool _, .obj _ => isFalse nofun
  | .int a, .int b => decidable_of_iff (a = b) (by simp)
  | .int _, .null | .int _, .bool _ | .int _, .float _ | .int _, .str _ | .int _, .arr _
  | .int _, .obj _ => isFalse nofun
  | .float a, .float b => decidable_of_iff (a = b) (by simp)
  | .float _, .null | .float _, .bool _ | .float _, .int _ | .float _, .str _ | .float _, .arr _
  | .float _, .obj _ => isFalse nofun
  | .str a, .str b => decidable_of_iff (a = b) (by simp)
  | .str _, .null | .str _, .bool _ | .str _, .int _ | .str _, .float _ | .str _, .arr _
  | .str _, .obj _ => isFalse nofun
  | .arr a, .arr b =>
    have := decEqList a b
    decidable_of_iff (a = b) (by simp)
  | .arr _, .null | .arr _, .bool _ | .arr _, .int _ | .arr _, .float _ | .arr _, .str _
  | .arr _, .obj _ => isFalse nofun
  | .obj a, .obj b =>
    have := decEqFields a b
    decidable_of_iff (a = b) (by simp)
  | .obj _, .null | .obj _, .bool _ | .obj _, .int _ | .obj _, .float _ | .obj _, .str _
  | .obj _, .arr _ => isFalse nofun

def decEqList : (a b : List Json) → Decidable (a = b)
  | [], [] => isTrue rfl
  | [], _ :: _ | _ :: _, [] => isFalse nofun
  | x :: xs, y :: ys =>
    have := decEq x y
    have := decEqList xs ys
    decidable_of_iff (x = y ∧ xs = ys) (by simp)

def decEqFields : (a b : List (String × Json)) → Decidable (a = b)
  | [], [] => isTrue rfl
  | [], _ :: _ | _ :: _, [] => isFalse nofun
  | (k, x) :: xs, (l, y) :: ys =>
    have := decEq x y
    have := decEqFields xs ys
    decidable_of_iff (k = l ∧ x = y ∧ xs = ys) (by simp [and_assoc])

end

instance : DecidableEq Json := decEq

/-! ## Access -/

def fieldOf (key : String) : List (String × Json) → Option Json
  | [] => none
  | (k, v) :: fields => if k = key then some v else fieldOf key fields

def withoutField (key : String) (fields : List (String × Json)) : List (String × Json) :=
  fields.filter (fun f => f.1 ≠ key)

def setField (key : String) (value : Json) : List (String × Json) → List (String × Json)
  | [] => [(key, value)]
  | (k, v) :: fields => if k = key then (k, value) :: fields else (k, v) :: setField key value fields

/-- `Value::get` with a string key. -/
def get? (key : String) : Json → Option Json
  | .obj fields => fieldOf key fields
  | _ => none

/-- `Value::as_str`. -/
def asStr : Json → Option String
  | .str s => some s
  | _ => none

/-- `Value::as_array`. -/
def asArray : Json → Option (List Json)
  | .arr items => some items
  | _ => none

@[simp] theorem fieldOf_setField_self (key : String) (value : Json) (fields : List (String × Json)) :
    fieldOf key (setField key value fields) = some value := by
  induction fields with
  | nil => simp [setField, fieldOf]
  | cons f fields ih =>
    obtain ⟨k, v⟩ := f
    by_cases h : k = key
    · simp [setField, fieldOf, h]
    · simp [setField, fieldOf, h, ih]

theorem setField_of_fieldOf {key : String} {value : Json} {fields : List (String × Json)}
    (h : fieldOf key fields = some value) : setField key value fields = fields := by
  induction fields with
  | nil => cases h
  | cons f fields ih =>
    obtain ⟨k, v⟩ := f
    by_cases hk : k = key
    · simp only [fieldOf, if_pos hk, Option.some.injEq] at h
      simp only [setField, if_pos hk, h]
    · simp only [fieldOf, if_neg hk] at h
      simp only [setField, if_neg hk, ih h]

end Json

end Gooselake.Data
