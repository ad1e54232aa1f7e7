import BundleLedger.Decimal.Notation
import BundleLedger.Failure
import BundleLedger.LoaderConfig.Merge
import BundleLedger.Script.Program

/-!
# Reading the configuration file

The file is a script. Every statement that is a call of `System.config` or `SystemJS.config` is
applied, in order; its first argument is an object literal. All other statements are passed over.

A configuration is data: only literals are read, and nothing is ever computed. `undefined` and the
holes of an array read as `null`.
-/
namespace BundleLedger.LoaderConfig

open Decimal Json Script

/-! ## Literals as values -/

/-- Numbers as property names are positional and show no point where they are whole. -/
def keyStyle : Style := ⟨fun _ => true, false⟩

/-- The text of a property name; none for a big integer. -/
def keyText? : Key → Option String
  | .name text => some text
  | .string text => some text
  | .number (some d) => some (String.ofList (keyStyle.write d))
  | .number none => some "inf"
  | .bigint => none

/-- The value of a number: whole if it is whole and of less than 64 bits, and `null` beyond the
greatest double. -/
def numberValue : Option Double → Value
  | none => .null
  | some d =>
    match d.toInt? with
    | some n => if n.natAbs < Decimal.wordSize / 2 then .number (.integer n) else .number (.double d)
    | none => .number (.double d)

/-- Something that is no literal, at an offset. -/
def unsupported (offset : Nat) (what : String) : ConfigFailure :=
  .unsupported offset (what ++ " is not a literal value")

mutual

def literal : Expr → Except ConfigFailure Value
  | .object _ properties => do return .object (← literalMembers [] properties)
  | .array _ elements => do return .array (← literalItems elements)
  | .string _ value => .ok (.string value)
  | .number _ value => .ok (numberValue value)
  | .boolean _ value => .ok (.bool value)
  | .null _ => .ok .null
  | .identifier start name =>
    if name = "undefined" then .ok .null else .error (unsupported start "expression")
  | .template start parts holes =>
    if holes.isEmpty then .ok (.string (String.join parts))
    else .error (unsupported start "expression")
  | .negation _ operand =>
    match operand with
    | .number _ value => .ok (numberValue (value.map Double.neg))
    | e => .error (unsupported e.start "negated expression")
  | .parenthesized _ inner => literal inner
  | .call start _ _ => .error (unsupported start "expression")
  | .member start _ _ => .error (unsupported start "expression")
  | .index start _ => .error (unsupported start "expression")
  | .assignment start _ => .error (unsupported start "expression")
  | .compound start _ => .error (unsupported start "expression")

/-- The values of the elements of an array. -/
def literalItems : List Element → Except ConfigFailure (List Value)
  | [] => .ok []
  | .hole :: rest => do return .null :: (← literalItems rest)
  | .spread start _ _ :: _ => .error (unsupported start "spread element")
  | .item e :: rest => do
    let v ← literal e
    return v :: (← literalItems rest)

def literalMembers (members : Members) : List Property → Except ConfigFailure Members
  | [] => .ok members
  | .field start key e :: rest =>
    match keyText? key with
    | none => .error (unsupported start "property key")
    | some text => do
      let v ← literal e
      literalMembers (Entries.put members text v) rest
  | .spread start _ _ :: _ => .error (unsupported start "spread property")
  | .computed start _ :: _ => .error (unsupported start "accessor or computed property")
  | .method start :: _ => .error (unsupported start "accessor or computed property")
  | .defaulted start _ :: _ => .error (unsupported start "expression")

end

/-! ## Calls -/

/-- The objects whose `config` configures the loader. -/
def receivers : List String := ["System", "SystemJS"]

def configCall? : Expr → Option (List Element)
  | .parenthesized _ inner => configCall? inner
  | .call _ (.member _ (.identifier _ receiver) method) arguments =>
    if method = "config" ∧ receivers.contains receiver then some arguments else none
  | _ => none

def configCalls (statements : List Statement) : List (List Element) :=
  statements.filterMap fun
    | .expression e => configCall? e
    | .other => none

def callMembers : List Element → Except ConfigFailure Members
  | .item (.object _ properties) :: _ => literalMembers [] properties
  | _ => .error (.invalid "System.config argument must be an object")

/-- The configuration that the calls of a script set. -/
def ofStatements (statements : List Statement) : Except ConfigFailure LoaderConfig :=
  match configCalls statements with
  | [] => .error .missingConfigCall
  | calls => calls.foldlM (fun c arguments => do return c.apply (← callMembers arguments)) empty

/-- The configuration that a file's text sets (spec §6). -/
def parse (source : String) : Except ConfigFailure LoaderConfig :=
  match Script.parse? source.toList with
  | none => .error (.malformed "the file is no script")
  | some statements => ofStatements statements

end BundleLedger.LoaderConfig
