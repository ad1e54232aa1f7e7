import BundleLedger.Script.Cursor

/-!
# Names of properties, bindings and parameters

A binding is a name, or an array or an object of bindings that may have defaults.
-/
namespace BundleLedger.Script

open Script.Parser

inductive PropertyName where
  | key (key : Key)
  | computed
  | hidden (name : String)

def Cursor.beginsName (c : Cursor) : Bool :=
  match c.token with
  | .name .. | .string _ | .number _ | .bigint | .privateName _ => true
  | .punctuator p => p == "["
  | _ => false

namespace Grammar

variable (g : Grammar)

/-- The context inside of brackets, where `in` is an operator again. -/
def inside (ctx : Context) : Context := { ctx with allowsIn := true }

def propertyName (ctx : Context) : Parser PropertyName := do
  match (← get).token with
  | .name text _ => advance; return .key (.name text)
  | .string text => advance; return .key (.string text)
  | .number value => advance; return .key (.number value)
  | .bigint => advance; return .key .bigint
  | .privateName text => advance; return .hidden text
  | .punctuator "[" =>
    advance
    let _ ← g.assignment (inside ctx)
    expect "]"
    return .computed
  | _ => fail

def optionalDefault (ctx : Context) : Parser Bool := do
  if ← accept "=" then
    let _ ← g.assignment (inside ctx)
    return true
  else return false

def bindingElement (ctx : Context) : Parser Unit := do
  g.binding ctx
  let _ ← g.optionalDefault ctx

/-- The bindings of an array, from after its opening bracket. A rest comes last. -/
def arrayBindings (ctx : Context) : Nat → Parser Unit
  | 0 => fail
  | fuel + 1 => do
    if ← accept "]" then return
    if ← accept "," then arrayBindings ctx fuel
    else if ← accept "..." then
      g.binding ctx
      expect "]"
    else
      g.bindingElement ctx
      if ← accept "]" then return
      expect ","
      arrayBindings ctx fuel

def fieldBinding (ctx : Context) : Parser Unit := do
  let c ← get
  match ← g.propertyName ctx with
  | .hidden _ => fail
  | .computed =>
    expect ":"
    g.bindingElement ctx
  | .key _ =>
    if ← accept ":" then g.bindingElement ctx
    else
      require (c.isVariable ctx)
      let _ ← g.optionalDefault ctx

/-- The bindings of an object, from after its opening brace. A rest comes last and is a name. -/
def objectBindings (ctx : Context) : Nat → Parser Unit
  | 0 => fail
  | fuel + 1 => do
    if ← accept "\x7d" then return
    if ← accept "..." then
      let _ ← Parser.variable ctx
      expect "\x7d"
    else
      g.fieldBinding ctx
      if ← accept "\x7d" then return
      expect ","
      objectBindings ctx fuel

def bindingWith (ctx : Context) : Parser Unit := do
  if ← accept "[" then g.arrayBindings ctx g.fuel
  else if ← accept "\x7b" then g.objectBindings ctx g.fuel
  else
    let _ ← Parser.variable ctx

/-! ## Functions -/

/-- How many parameters there are, and whether the last one takes all that is left; from after the
opening parenthesis. -/
def parameters (ctx : Context) : Nat → Parser (Nat × Bool)
  | 0 => fail
  | fuel + 1 => do
    if ← accept ")" then return (0, false)
    if ← accept "..." then
      g.binding ctx
      expect ")"
      return (1, true)
    g.bindingElement ctx
    if ← accept ")" then return (1, false)
    expect ","
    let (count, rest) ← parameters ctx fuel
    return (count + 1, rest)

def functionContext (isAsync isGenerator : Bool) : Context :=
  { allowsIn := true, inGenerator := isGenerator, inAsync := isAsync, inFunction := true }

def functionBody (ctx : Context) : Parser Unit := do
  expect "\x7b"
  let _ ← upTo "\x7d" (g.statement ctx true) g.fuel

def functionRest (isAsync isGenerator : Bool) : Parser (Nat × Bool) := do
  let ctx := functionContext isAsync isGenerator
  expect "("
  let counted ← g.parameters ctx g.fuel
  g.functionBody ctx
  return counted

/-- A function from its word on. The flags say whether it is asynchronous and whether it must have a
name; its name stands in `outer`. -/
def function (outer : Context) (isAsync needsName : Bool) : Parser Bool := do
  expectWord "function"
  let isGenerator ← accept "*"
  if (← get).is "(" then require (!needsName)
  else
    let _ ← Parser.variable outer
  let _ ← g.functionRest isAsync isGenerator
  return isGenerator

def atAsyncFunction : Parser Bool := do
  if (← get).isWord "async" then followedBy fun c => c.isWord "function" && !c.newline
  else return false

/-- A getter's or a setter's parameters are as many as they must be. -/
def accessorRest (isGetter : Bool) : Parser Unit := do
  let (count, rest) ← g.functionRest false false
  require (if isGetter then count == 0 else count == 1 && !rest)

end Grammar

end BundleLedger.Script
