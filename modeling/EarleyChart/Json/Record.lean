import EarleyChart.Json.Reader

/-!
Values of the library as JSON. A record is an object whose members have the
names of its fields, or an array of its fields in order. Members of other names
are passed over; a field that is given twice is an error, and so is one that is
missing and has no standard value.
-/

namespace EarleyChart

/-- A type with a JSON form. -/
class HasJson (α : Type) where
  toJson : α → Json
  ofJson? : Json → Option α

namespace Json

def write {α : Type} [HasJson α] (a : α) : String := (HasJson.toJson a).render

def read? (α : Type) [HasJson α] (text : String) : Option α :=
  (parse? text).bind HasJson.ofJson?

def text? : Json → Option String
  | .string text => some text
  | _ => none

def bool? : Json → Option Bool
  | .bool b => some b
  | _ => none

/-- A whole number of at least `low` and at most `high`. -/
def intIn? (low high : Int) : Json → Option Int
  | .number n => n.int?.filter fun i => low ≤ i && i ≤ high
  | _ => none

def word? (bits : Nat) (json : Json) : Option Nat :=
  (json.intIn? 0 (Nat.pow 2 bits - 1 : Nat)).map Int.toNat

def list? {α : Type} (item? : Json → Option α) : Json → Option (List α)
  | .array items => items.mapM item?
  | _ => none

/-- The member of a name, if there is just one. -/
def member? (members : List (Option String × Json)) (name : String) : Option (Option Json) :=
  match members.filter (·.1 == some name) with
  | [] => some none
  | [(_, value)] => some (some value)
  | _ => none

def fields? (names : List String) : Json → Option (List (Option Json))
  | .array items =>
      if items.length ≤ names.length then
        some (items.map some ++ List.replicate (names.length - items.length) none)
      else none
  | .object members =>
      if members.all (·.1.isSome) then names.mapM (member? members) else none
  | _ => none

def needed? {α : Type} (item? : Json → Option α) (field : Option Json) : Option α :=
  field.bind item?

def givenOr? {α : Type} (standard : α) (item? : Json → Option α) : Option Json → Option α
  | none => some standard
  | some value => item? value

mutual

/-- Whether a value can be held before its form is known: every string is a
text, no number is beyond the doubles, and arrays and objects are nested less
deep than the first argument says. -/
def isHoldable (depth : Nat) : Json → Bool
  | .null | .bool _ | .string _ => true
  | .brokenString => false
  | .number n => n.plain && n.digits < Nat.pow 2 63 || !n.isHuge
  | .array items => 1 < depth && areHoldable (depth - 1) items
  | .object members => 1 < depth && areHoldableMembers (depth - 1) members

def areHoldable (depth : Nat) : List Json → Bool
  | [] => true
  | item :: rest => isHoldable depth item && areHoldable depth rest

def areHoldableMembers (depth : Nat) : List (Option String × Json) → Bool
  | [] => true
  | (name, value) :: rest =>
      name.isSome && isHoldable depth value && areHoldableMembers depth rest

end

/-- How deep arrays and objects may be nested in a value that is held. -/
def maxDepth : Nat := 128

end Json
end EarleyChart
