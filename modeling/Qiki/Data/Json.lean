import Qiki.Text.Basic
import Mathlib.Data.Rat.Defs

/-! JSON values, as `json` and the JSONB columns hold them. -/

/-- A JSON value; objects keep the order of their keys. -/
inductive Json
  | null
  | bool (b : Bool)
  | int (n : ℤ)
  | float (x : ℚ)
  | str (s : Text)
  | arr (xs : List Json)
  | obj (fields : List (Text × Json))

namespace Json

mutual

def decEq : (a b : Json) → Decidable (a = b)
  | null, null => isTrue rfl
  | bool a, bool b => decidable_of_iff (a = b) (by simp)
  | int a, int b => decidable_of_iff (a = b) (by simp)
  | float a, float b => decidable_of_iff (a = b) (by simp)
  | str a, str b => decidable_of_iff (a = b) (by simp)
  | arr a, arr b => @decidable_of_iff _ (a = b) (by simp) (decEqList a b)
  | obj a, obj b => @decidable_of_iff _ (a = b) (by simp) (decEqFields a b)
  | null, bool _ | null, int _ | null, float _ | null, str _ | null, arr _ | null, obj _
  | bool _, null | bool _, int _ | bool _, float _ | bool _, str _ | bool _, arr _ | bool _, obj _
  | int _, null | int _, bool _ | int _, float _ | int _, str _ | int _, arr _ | int _, obj _
  | float _, null | float _, bool _ | float _, int _ | float _, str _ | float _, arr _
  | float _, obj _
  | str _, null | str _, bool _ | str _, int _ | str _, float _ | str _, arr _ | str _, obj _
  | arr _, null | arr _, bool _ | arr _, int _ | arr _, float _ | arr _, str _ | arr _, obj _
  | obj _, null | obj _, bool _ | obj _, int _ | obj _, float _ | obj _, str _
  | obj _, arr _ => isFalse (fun h => by cases h)

def decEqList : (xs ys : List Json) → Decidable (xs = ys)
  | [], [] => isTrue rfl
  | [], _ :: _ | _ :: _, [] => isFalse (fun h => by cases h)
  | x :: xs, y :: ys =>
    @decidable_of_iff _ (x = y ∧ xs = ys) (by simp)
      (@instDecidableAnd _ _ (decEq x y) (decEqList xs ys))

def decEqFields : (xs ys : List (Text × Json)) → Decidable (xs = ys)
  | [], [] => isTrue rfl
  | [], _ :: _ | _ :: _, [] => isFalse (fun h => by cases h)
  | (k, x) :: xs, (l, y) :: ys =>
    @decidable_of_iff _ (k = l ∧ x = y ∧ xs = ys) (by simp [and_assoc])
      (@instDecidableAnd _ _ inferInstance
        (@instDecidableAnd _ _ (decEq x y) (decEqFields xs ys)))

end

instance : DecidableEq Json := decEq

/-- `value.get(key)` of an object. -/
def get (key : Text) : Json → Option Json
  | obj fields => fields.lookup key
  | _ => none

/-- `value.get(key)` where an absent key counts as `null`. -/
def getOrNull (key : Text) (value : Json) : Json := (value.get key).getD null

/-- `bool(value)` -/
def truthy : Json → Bool
  | null => false
  | bool b => b
  | int n => n ≠ 0
  | float x => x ≠ 0
  | str s => !s.isEmpty
  | arr xs => !xs.isEmpty
  | obj fields => !fields.isEmpty

mutual

/-- The strings of a value, its keys among them. -/
def texts : Json → List Text
  | null | bool _ | int _ | float _ => []
  | str s => [s]
  | arr xs => textsList xs
  | obj fields => textsFields fields

def textsList : List Json → List Text
  | [] => []
  | x :: xs => x.texts ++ textsList xs

def textsFields : List (Text × Json) → List Text
  | [] => []
  | (k, x) :: xs => k :: (x.texts ++ textsFields xs)

end

/-- A JSONB column takes every value without a NUL character. -/
def storable (value : Json) : Bool := value.texts.all fun s => '\x00' ∉ s

end Json
