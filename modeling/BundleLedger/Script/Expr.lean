import BundleLedger.Decimal.Double

/-!
# Expressions

The expressions of a script, each with the number of bytes in front of it. Literals, and what can be
assigned to, are kept in full; of all other expressions only their kind is kept.
-/
namespace BundleLedger.Script

open BundleLedger.Decimal

/-- The kinds of expressions that are kept without their parts. -/
inductive Form where
  /-- An operation by `??`. -/
  | coalescing
  /-- An operation by `&&` or `||`. -/
  | logical
  /-- An operator in front of an operand. -/
  | unary
  /-- An access that gives up at a missing value. -/
  | chain
  /-- Any other. -/
  | plain
  deriving DecidableEq, Repr

/-- The name of a property as it is written. -/
inductive Key where
  | name (text : String)
  | string (text : String)
  /-- A number; without a value beyond the greatest double. -/
  | number (value : Option Double)
  | bigint
  deriving DecidableEq, Repr

mutual

inductive Expr where
  | object (start : Nat) (properties : List Property)
  | array (start : Nat) (elements : List Element)
  | string (start : Nat) (value : String)
  /-- A number; without a value beyond the greatest double. -/
  | number (start : Nat) (value : Option Double)
  | boolean (start : Nat) (value : Bool)
  | null (start : Nat)
  | identifier (start : Nat) (name : String)
  /-- A template: the parts of its text, and the expressions between them. -/
  | template (start : Nat) (parts : List String) (holes : List Expr)
  | negation (start : Nat) (operand : Expr)
  | parenthesized (start : Nat) (inner : Expr)
  | call (start : Nat) (callee : Expr) (arguments : List Element)
  | member (start : Nat) (object : Expr) (name : String)
  /-- A member named by an expression or by a private name. -/
  | index (start : Nat) (object : Expr)
  /-- An assignment by `=`. -/
  | assignment (start : Nat) (target : Expr)
  | compound (start : Nat) (form : Form)

/-- An element of an array, or an argument of a call. -/
inductive Element where
  | hole
  /-- A spread; `comma` says that a comma follows. -/
  | spread (start : Nat) (argument : Expr) (comma : Bool)
  | item (value : Expr)

inductive Property where
  | field (start : Nat) (key : Key) (value : Expr)
  /-- A spread; `comma` says that a comma follows. -/
  | spread (start : Nat) (argument : Expr) (comma : Bool)
  /-- A property named by an expression. -/
  | computed (start : Nat) (value : Expr)
  /-- A method or an accessor. -/
  | method (start : Nat)
  /-- A name with a default, which only a pattern may hold. -/
  | defaulted (start : Nat) (name : String)

end

instance : Inhabited Expr := ⟨.null 0⟩

/-- A statement: an expression that stands as one, or any other. -/
inductive Statement where
  | expression (e : Expr)
  | other

namespace Expr

/-- How many bytes stand in front of an expression. -/
def start : Expr → Nat
  | .object n _ | .array n _ | .string n _ | .number n _ | .boolean n _ | .null n
  | .identifier n _ | .template n _ _ | .negation n _ | .parenthesized n _ | .call n _ _
  | .member n _ _ | .index n _ | .assignment n _ | .compound n _ => n

/-- Whether an expression can be assigned to as a whole. -/
def isTarget : Expr → Bool
  | .identifier .. => true
  | .member .. => true
  | .index .. => true
  | .parenthesized _ inner => isTarget inner
  | _ => false

mutual

/-- Whether an expression can stand on the left of `=`: something to assign to, or an array or an
object of such. -/
def isPattern : Expr → Bool
  | .array _ elements => arePatterns elements
  | .object _ properties => areFieldPatterns properties
  | .identifier .. => true
  | .member .. => true
  | .index .. => true
  | .parenthesized _ inner => isTarget inner
  | _ => false

def isElementPattern : Expr → Bool
  | .assignment _ target => isPattern target
  | .array _ elements => arePatterns elements
  | .object _ properties => areFieldPatterns properties
  | .identifier .. => true
  | .member .. => true
  | .index .. => true
  | .parenthesized _ inner => isTarget inner
  | _ => false

/-- Whether the elements of an array can be assigned to; a spread comes last. -/
def arePatterns : List Element → Bool
  | [] => true
  | .hole :: rest => arePatterns rest
  | .item e :: rest => isElementPattern e && arePatterns rest
  | .spread _ e comma :: rest => isPattern e && !comma && rest.isEmpty

/-- Whether the properties of an object can be assigned to; a spread comes last and takes no
pattern. -/
def areFieldPatterns : List Property → Bool
  | [] => true
  | .field _ _ e :: rest => isElementPattern e && areFieldPatterns rest
  | .computed _ e :: rest => isElementPattern e && areFieldPatterns rest
  | .defaulted .. :: rest => areFieldPatterns rest
  | .method _ :: _ => false
  | .spread _ e comma :: rest => isTarget e && !comma && rest.isEmpty

end

mutual

/-- How many names with a default stand in the pattern that an expression is. -/
def defaults : Expr → Nat
  | .array _ elements => defaultsOfElements elements
  | .object _ properties => defaultsOfProperties properties
  | _ => 0

def defaultsOfElements : List Element → Nat
  | [] => 0
  | .hole :: rest => defaultsOfElements rest
  | .item e :: rest => defaults e + defaultsOfElements rest
  | .spread _ e _ :: rest => defaults e + defaultsOfElements rest

def defaultsOfProperties : List Property → Nat
  | [] => 0
  | .field _ _ e :: rest => defaults e + defaultsOfProperties rest
  | .computed _ e :: rest => defaults e + defaultsOfProperties rest
  | .spread _ e _ :: rest => defaults e + defaultsOfProperties rest
  | .method _ :: rest => defaultsOfProperties rest
  | .defaulted .. :: rest => 1 + defaultsOfProperties rest

end

end Expr

end BundleLedger.Script
