import BundleLedger.Decimal.Double
import BundleLedger.Entries

/-!
# JSON values

A value of JSON whose objects keep the order of their members. Whole numbers stay apart from
floating point numbers.

Results:

* `string?_eq_some_iff` and `members?_eq_some_iff`: which values have a text, and which have members.
-/
namespace BundleLedger.Json

open BundleLedger.Decimal

/-- A number: whole, or a finite double. -/
inductive Number where
  | integer (n : Int)
  | double (d : Double)
  deriving DecidableEq, Repr

inductive Value where
  | null
  | bool (b : Bool)
  | number (n : Number)
  | string (s : String)
  | array (items : List Value)
  | object (members : List (String × Value))
  deriving Repr, Inhabited

abbrev Members := Entries Value

/-- Whether two numbers are the same value: zeros of both signs are. -/
def Number.same : Number → Number → Bool
  | .integer a, .integer b => a == b
  | .double a, .double b => a == b || (a.isZero && b.isZero)
  | _, _ => false

namespace Value

def string? : Value → Option String
  | .string s => some s
  | _ => none

def members? : Value → Option Members
  | .object members => some members
  | _ => none

def items? : Value → Option (List Value)
  | .array items => some items
  | _ => none

theorem string?_eq_some_iff {v : Value} {s : String} : v.string? = some s ↔ v = .string s := by
  cases v <;> simp [string?]

theorem members?_eq_some_iff {v : Value} {members : Members} :
    v.members? = some members ↔ v = .object members := by
  cases v <;> simp [members?]

def strings (texts : List String) : Value := .array (texts.map .string)

mutual

/-- Whether two values are equal when the order of object members does not count. -/
def same : Value → Value → Bool
  | .null, .null => true
  | .bool a, .bool b => a == b
  | .number a, .number b => a.same b
  | .string a, .string b => a == b
  | .array as, .array bs => sameItems as bs
  | .object as, .object bs => as.length == bs.length && sameMembers as bs
  | _, _ => false

/-- Whether two lists hold the same values in order. -/
def sameItems : List Value → List Value → Bool
  | [], [] => true
  | a :: as, b :: bs => same a b && sameItems as bs
  | _, _ => false

/-- Whether each member of the first object has its like in the second. -/
def sameMembers : List (String × Value) → Members → Bool
  | [], _ => true
  | (k, a) :: as, bs =>
    (match Entries.get? bs k with
      | some b => same a b
      | none => false) && sameMembers as bs

end

end Value

end BundleLedger.Json
