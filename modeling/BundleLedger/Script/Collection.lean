import BundleLedger.Script.Binding

/-!
# Arrays, objects and templates

The literals that hold other expressions.

Results:

* `endsPropertyName_colon`: a colon after a word shows that the word is a name.
-/
namespace BundleLedger.Script

open Script.Parser

namespace Grammar

variable (g : Grammar)

def expression (ctx : Context) : Parser Expr := do
  let first ← g.assignment ctx
  if ← accept "," then
    let _ ← list (g.assignment ctx) g.fuel
    return .compound first.start .plain
  else return first

def element (ctx : Context) : Parser Element := do
  let start := (← get).start
  if ← accept "..." then
    let argument ← g.assignment (inside ctx)
    return .spread start argument ((← get).is ",")
  else return .item (← g.assignment (inside ctx))

def elements (ctx : Context) : Nat → Parser (List Element)
  | 0 => fail
  | fuel + 1 => do
    if ← accept "]" then return []
    if ← accept "," then return .hole :: (← elements ctx fuel)
    let e ← g.element ctx
    if ← accept "]" then return [e]
    expect ","
    return e :: (← elements ctx fuel)

def arguments (ctx : Context) : Parser (List Element) := listUpTo ")" (g.element ctx) g.fuel

/-- Whether a token after `get`, `set` or `async` shows that this word is itself the name of a
property. -/
def endsPropertyName (c : Cursor) : Bool :=
  c.is "(" || c.is "," || c.is ":" || c.is "\x7d" || c.is "="

def namedProperty (ctx : Context) : Parser Property := do
  let c ← get
  let start := c.start
  let name ← g.propertyName ctx
  if (← get).is "(" then
    match name with
    | .hidden _ => fail
    | _ =>
      let _ ← g.functionRest false false
      return .method start
  else if ← accept ":" then
    let value ← g.assignment (inside ctx)
    match name with
    | .key key => return .field start key value
    | .computed => return .computed start value
    | .hidden _ => fail
  else
    match name with
    | .key (.name text) =>
      require (c.isVariable ctx)
      if ← accept "=" then
        let _ ← g.assignment (inside ctx)
        modify fun c => { c with defaults := c.defaults + 1 }
        return .defaulted start text
      else return .field start (.name text) (.identifier start text)
    | _ => fail

def property (ctx : Context) : Parser Property := do
  let c ← get
  let start := c.start
  if ← accept "..." then
    let argument ← g.assignment (inside ctx)
    return .spread start argument ((← get).is ",")
  else if ← accept "*" then
    let _ ← g.propertyName ctx
    let _ ← g.functionRest false true
    return .method start
  else if c.isWord "async" && (← followedBy fun n => !endsPropertyName n && !n.newline) then
    advance
    let isGenerator ← accept "*"
    let _ ← g.propertyName ctx
    let _ ← g.functionRest true isGenerator
    return .method start
  else if (c.isWord "get" || c.isWord "set") && (← followedBy Cursor.beginsName) then
    advance
    let _ ← g.propertyName ctx
    g.accessorRest (c.isWord "get")
    return .method start
  else g.namedProperty ctx

/-- The parts of a template from the current one on, and the expressions between them. A template
behind a tag may hold escapes without a value. -/
def template (ctx : Context) (tagged : Bool) : Nat → Parser (List String × List Expr)
  | 0 => fail
  | fuel + 1 => do
    match (← get).token with
    | .template value last =>
      require (tagged || value.isSome)
      let part := value.getD ""
      advance
      if last then return ([part], [])
      let hole ← g.expression (inside ctx)
      let c ← get
      require (c.is "\x7d")
      match templatePart? c.next with
      | none => fail
      | some (token, next) =>
        set { c with token, next }
        let (parts, holes) ← template ctx tagged fuel
        return (part :: parts, hole :: holes)
    | _ => fail

theorem endsPropertyName_colon {c : Cursor} (h : c.is ":" = true) : endsPropertyName c = true := by
  simp [endsPropertyName, h]

end Grammar

end BundleLedger.Script
