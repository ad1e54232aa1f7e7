import BundleLedger.Script.Binding

/-!
# Classes

The members of a class: methods, accessors, fields and static blocks, with their modifiers.
-/
namespace BundleLedger.Script

open Script.Parser

def PropertyName.text? : PropertyName → Option String
  | .key (.name text) => some text
  | .key (.string text) => some text
  | _ => none

def PropertyName.isHiddenConstructor : PropertyName → Bool
  | .hidden name => name == "constructor"
  | _ => false

namespace Grammar

variable (g : Grammar)

/-- Whether a token after a modifier shows that the modifier is itself the name of a member. -/
def endsMemberName (c : Cursor) : Bool :=
  c.is "(" || c.is "=" || c.is ";" || c.is "\x7d" || c.token == .ending

def allowsMember (isStatic : Bool) (name : PropertyName) : Bool :=
  !name.isHiddenConstructor && !(isStatic && name.text? == some "prototype")

/-- A member of a class after its modifiers: a method or a field. `isPlain` says that no modifier
stood in front that only a method can have. -/
def member (ctx : Context) (isStatic isAsync isGenerator isPlain : Bool) : Parser Unit := do
  let name ← g.propertyName ctx
  let isConstructor := name.text? == some "constructor"
  require (allowsMember isStatic name)
  if (← get).is "(" then
    require (isPlain || isStatic || !isConstructor)
    let _ ← g.functionRest isAsync isGenerator
  else
    require (isPlain && !isConstructor)
    if ← accept "=" then
      let _ ← g.assignment {}
    semicolon

/-- A getter or a setter of a class, from after its word. -/
def memberAccessor (ctx : Context) (isStatic isGetter : Bool) : Parser Unit := do
  let name ← g.propertyName ctx
  require (allowsMember isStatic name)
  require (isStatic || name.text? != some "constructor")
  g.accessorRest isGetter

def memberFrom (ctx : Context) (isStatic : Bool) : Parser Unit := do
  let c ← get
  if c.is "*" then
    advance
    g.member ctx isStatic false true false
  else if c.isWord "async" && (← followedBy fun n => (n.beginsName || n.is "*") && !n.newline) then
    advance
    let isGenerator ← accept "*"
    g.member ctx isStatic true isGenerator false
  else if (c.isWord "get" || c.isWord "set") && (← followedBy Cursor.beginsName) then
    advance
    g.memberAccessor ctx isStatic (c.isWord "get")
  else if c.isWord "accessor" && (← followedBy fun n => n.beginsName && !n.newline) then
    advance
    g.member ctx isStatic false false true
  else g.member ctx isStatic false false true

def decorators (ctx : Context) : Nat → Parser Unit
  | 0 => fail
  | fuel + 1 => do
    if ← accept "@" then
      let _ ← g.access ctx
      decorators ctx fuel

def classElement (ctx : Context) : Parser Unit := do
  if ← accept ";" then return
  g.decorators ctx g.fuel
  let c ← get
  if c.isWord "static" && (← followedBy fun n => n.is "\x7b") then
    advance
    g.functionBody {}
  else if c.isWord "static" && !(← followedBy endsMemberName) then
    advance
    g.memberFrom ctx true
  else g.memberFrom ctx false

def classFrom (ctx : Context) (needsName : Bool) : Parser Unit := do
  expectWord "class"
  let c ← get
  if c.isWord "extends" || c.is "\x7b" then require (!needsName)
  else
    let _ ← Parser.variable ctx
  if ← acceptWord "extends" then
    let _ ← g.access ctx
  expect "\x7b"
  let _ ← upTo "\x7d" (g.classElement ctx) g.fuel

end Grammar

end BundleLedger.Script
