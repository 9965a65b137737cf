import Mathlib

/-!
# JSON values

Values over arbitrary texts and numbers.  The fields of an object are listed in
the order of their keys, as a sorted map keeps them; `insertField` and
`eraseField` keep that order and touch one key.
-/

namespace CyfsGateway.JsonValues

inductive Json (Text Number : Type) : Type
  | null
  | bool (value : Bool)
  | number (value : Number)
  | string (value : Text)
  | array (items : List (Json Text Number))
  | object (fields : List (Text × Json Text Number))

variable {Text Number : Type}

/-! ## Equality -/

section Equality

variable [DecidableEq Text] [DecidableEq Number]

mutual

def decEq : (left right : Json Text Number) → Decidable (left = right)
  | .null, .null => isTrue rfl
  | .bool left, .bool right => decidable_of_iff (left = right) (by simp)
  | .number left, .number right => decidable_of_iff (left = right) (by simp)
  | .string left, .string right => decidable_of_iff (left = right) (by simp)
  | .array left, .array right =>
    match decEqItems left right with
    | isTrue equal => isTrue (by rw [equal])
    | isFalse different => isFalse (by simpa using different)
  | .object left, .object right =>
    match decEqFields left right with
    | isTrue equal => isTrue (by rw [equal])
    | isFalse different => isFalse (by simpa using different)
  | .null, .bool _ | .null, .number _ | .null, .string _ | .null, .array _
  | .null, .object _ | .bool _, .null | .bool _, .number _ | .bool _, .string _
  | .bool _, .array _ | .bool _, .object _ | .number _, .null | .number _, .bool _
  | .number _, .string _ | .number _, .array _ | .number _, .object _ | .string _, .null
  | .string _, .bool _ | .string _, .number _ | .string _, .array _ | .string _, .object _
  | .array _, .null | .array _, .bool _ | .array _, .number _ | .array _, .string _
  | .array _, .object _ | .object _, .null | .object _, .bool _ | .object _, .number _
  | .object _, .string _ | .object _, .array _ => isFalse nofun

def decEqItems : (left right : List (Json Text Number)) → Decidable (left = right)
  | [], [] => isTrue rfl
  | [], _ :: _ | _ :: _, [] => isFalse nofun
  | item :: left, other :: right =>
    match decEq item other, decEqItems left right with
    | isTrue equal, isTrue rest => isTrue (by rw [equal, rest])
    | isFalse different, _ => isFalse fun same => different (List.cons.inj same).1
    | _, isFalse different => isFalse fun same => different (List.cons.inj same).2

def decEqFields : (left right : List (Text × Json Text Number)) → Decidable (left = right)
  | [], [] => isTrue rfl
  | [], _ :: _ | _ :: _, [] => isFalse nofun
  | (key, value) :: left, (otherKey, other) :: right =>
    match decEq value other, decEqFields left right with
    | isTrue equal, isTrue rest => decidable_of_iff (key = otherKey) (by simp [equal, rest])
    | isFalse different, _ => isFalse fun same => different (Prod.mk.inj (List.cons.inj same).1).2
    | _, isFalse different => isFalse fun same => different (List.cons.inj same).2

end

instance : DecidableEq (Json Text Number) := decEq

end Equality

/-! ## Reading -/

def Json.text? : Json Text Number → Option Text
  | .string value => some value
  | _ => none

def Json.items? : Json Text Number → Option (List (Json Text Number))
  | .array items => some items
  | _ => none

def Json.fields? : Json Text Number → Option (List (Text × Json Text Number))
  | .object fields => some fields
  | _ => none

variable [DecidableEq Text]

def Json.get? (key : Text) (value : Json Text Number) : Option (Json Text Number) :=
  value.fields?.bind fun fields => fields.lookup key

@[simp]
theorem get?_object (key : Text) (fields : List (Text × Json Text Number)) :
    (Json.object fields).get? key = fields.lookup key := rfl

section Fields

variable {Value : Type} [LT Text] [DecidableLT Text]

def insertField (key : Text) (value : Value) : List (Text × Value) → List (Text × Value)
  | [] => [(key, value)]
  | (other, old) :: rest =>
    if key = other then (key, value) :: rest
    else if key < other then (key, value) :: (other, old) :: rest
    else (other, old) :: insertField key value rest

def eraseField (key : Text) (fields : List (Text × Value)) : List (Text × Value) :=
  fields.filter fun field => field.1 ≠ key

end Fields

end CyfsGateway.JsonValues
