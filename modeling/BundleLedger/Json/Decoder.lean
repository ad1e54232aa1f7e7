import BundleLedger.Json.Tree

/-!
# Typed reading

A `Decoder α` reads a tree as an `α`, given how many arrays and objects may still be nested. A
record is written as an object with its fields as members, or as an array of its fields in order.
A member that is no field of the record is passed over without asking for its value; a field that
stands twice is refused.
-/
namespace BundleLedger.Json

/-- Reads a tree in which at most so many arrays and objects are nested. -/
abbrev Decoder (α : Type) := Nat → Tree → Option α

/-- The text of a string as it stands between its quotes. -/
def decodeText (raw : List Char) : Option String := (decode raw).map String.ofList

namespace Decoder

def value : Decoder Value := fun limit tree => tree.value? limit

def string : Decoder String
  | _, .string raw => decodeText raw
  | _, _ => none

/-- A truth value. -/
def bool : Decoder Bool
  | _, .bool b => some b
  | _, _ => none

/-- A whole number that is not negative. -/
def count : Decoder Nat
  | _, .number literal =>
    match literal.number? with
    | some (.integer n) => if 0 ≤ n then some n.toNat else none
    | _ => none
  | _, _ => none

/-- `null` or what `d` reads. -/
def nullable {α : Type} (d : Decoder α) : Decoder (Option α)
  | _, .null => some none
  | limit, tree => (d limit tree).map some

/-- An array of what `d` reads. -/
def list {α : Type} (d : Decoder α) : Decoder (List α)
  | limit + 1, .array items => items.mapM (d limit)
  | _, _ => none

/-- An object of what `d` reads; a repeated key takes its last value. -/
def entries {α : Type} (d : Decoder α) : Decoder (Entries α)
  | limit + 1, .object members =>
    (members.mapM fun (raw, tree) => do
      let key ← decodeText raw
      let value ← d limit tree
      return (key, value)).map Entries.ofPairs
  | _, _ => none

end Decoder

/-! ## Records -/

/-- The trees of a record's fields, in the order of the fields. -/
abbrev Slots := List (Option Tree)

namespace Slots

/-- The slots with `tree` in the place of the field `key`; `none` if that place is taken. A key that
is no field changes nothing. -/
def fill (fields : List String) (slots : Slots) (key : String) (tree : Tree) : Option Slots :=
  match fields, slots with
  | f :: fs, slot :: rest =>
    if f = key then (if slot.isSome then none else some (some tree :: rest))
    else (fill fs rest key tree).map (slot :: ·)
  | _, slots => some slots

/-- The slots of a record that is written as an object. -/
def ofMembers (fields : List String) (members : List (List Char × Tree)) : Option Slots :=
  members.foldlM (fun slots (raw, tree) => do
    let key ← decodeText raw
    fill fields slots key tree) (fields.map fun _ => none)

/-- The slots of a record with these fields, and the nesting left inside of it. -/
def of (fields : List String) : Decoder (Slots × Nat)
  | limit + 1, .object members => (ofMembers fields members).map (·, limit)
  | limit + 1, .array items =>
    if fields.length < items.length then none
    else some (items.map some ++ List.replicate (fields.length - items.length) none, limit)
  | _, _ => none

end Slots

namespace Decoder

/-- What stands in a slot, read by `d`; `none` for an empty slot. -/
def required {α : Type} (d : Decoder α) (limit : Nat) : Option Tree → Option α
  | some tree => d limit tree
  | none => none

/-- What stands in a slot, read by `d`, or `default` for an empty slot. -/
def optional {α : Type} (default : α) (d : Decoder α) (limit : Nat) : Option Tree → Option α
  | some tree => d limit tree
  | none => some default

/-- Reads a whole text. -/
def run {α : Type} (d : Decoder α) (text : String) : Option α :=
  (Tree.read? text.toList).bind (d nestingLimit)

end Decoder

end BundleLedger.Json
