import BundleLedger.Decimal.Notation
import BundleLedger.Json.Escape
import BundleLedger.Json.Value

/-!
# Writing JSON

`Value.compact` writes a value without blanks. `Value.pretty` gives each item and each member a
line of its own, indented by one unit per level; an empty array or object stays on its line.

Results:

* `compactItems_cons` and `compactMembers_cons`: a comma stands before all but the first.
-/
namespace BundleLedger.Json

open BundleLedger.Decimal

/-- Doubles are positional from `0.00001` to below `10^16`, and always show a point or an
exponent. -/
def numberStyle : Style := ⟨fun e => -5 ≤ e && e ≤ 15, true⟩

def Number.write : Number → List Char
  | .integer n => intText n
  | .double d => numberStyle.write d

namespace Value

mutual

/-- The value without blanks. -/
def compact : Value → List Char
  | .null => ['n', 'u', 'l', 'l']
  | .bool true => ['t', 'r', 'u', 'e']
  | .bool false => ['f', 'a', 'l', 's', 'e']
  | .number n => n.write
  | .string s => quote s.toList
  | .array [] => ['[', ']']
  | .array (item :: items) => '[' :: compact item ++ compactItems items ++ [']']
  | .object [] => ['{', '}']
  | .object ((key, value) :: members) =>
    '{' :: quote key.toList ++ ':' :: compact value ++ compactMembers members ++ ['}']

def compactItems : List Value → List Char
  | [] => []
  | item :: items => ',' :: compact item ++ compactItems items

def compactMembers : List (String × Value) → List Char
  | [] => []
  | (key, value) :: members =>
    ',' :: quote key.toList ++ ':' :: compact value ++ compactMembers members

end

def text (v : Value) : String := String.ofList v.compact

def newLine (tab : List Char) (level : Nat) : List Char :=
  '\n' :: (List.replicate level tab).flatten

mutual

/-- The value with an item or a member a line, at a level of indentation. -/
def pretty (tab : List Char) (level : Nat) : Value → List Char
  | .array [] => ['[', ']']
  | .array (item :: items) =>
    '[' :: newLine tab (level + 1) ++ pretty tab (level + 1) item ++
      prettyItems tab (level + 1) items ++ newLine tab level ++ [']']
  | .object [] => ['{', '}']
  | .object ((key, value) :: members) =>
    '{' :: newLine tab (level + 1) ++ quote key.toList ++ ':' :: ' ' ::
      pretty tab (level + 1) value ++ prettyMembers tab (level + 1) members ++
      newLine tab level ++ ['}']
  | .null => ['n', 'u', 'l', 'l']
  | .bool true => ['t', 'r', 'u', 'e']
  | .bool false => ['f', 'a', 'l', 's', 'e']
  | .number n => n.write
  | .string s => quote s.toList

/-- Further items, each after a comma on a line of its own. -/
def prettyItems (tab : List Char) (level : Nat) : List Value → List Char
  | [] => []
  | item :: items => ',' :: newLine tab level ++ pretty tab level item ++ prettyItems tab level items

/-- Further members, each after a comma on a line of its own. -/
def prettyMembers (tab : List Char) (level : Nat) : List (String × Value) → List Char
  | [] => []
  | (key, value) :: members =>
    ',' :: newLine tab level ++ quote key.toList ++ ':' :: ' ' :: pretty tab level value ++
      prettyMembers tab level members

end

theorem compactItems_cons (item : Value) (items : List Value) :
    compactItems (item :: items) = ',' :: compact item ++ compactItems items := by
  simp [compactItems]

theorem compactMembers_cons (key : String) (value : Value) (members : Members) :
    compactMembers ((key, value) :: members) =
      ',' :: quote key.toList ++ ':' :: compact value ++ compactMembers members := by
  simp [compactMembers]

end Value

end BundleLedger.Json
