import BundleLedger.Script.Expression

/-!
# Statements

Declarations, loops and the other statements. Only a statement that is a mere expression is kept.
-/
namespace BundleLedger.Script

open Script.Parser

/-- The words that declare variables. -/
inductive Declarer where
  | var
  | letting
  | const
  | using
  deriving DecidableEq, Repr

/-- What a declaration binds: whether it is a mere name, and whether it has a first value. -/
structure Declared where
  isName : Bool
  hasValue : Bool
  deriving DecidableEq, Repr

/-- Whether a binding may stand in a declaration that is no part of a loop over something. -/
def Declarer.allows (d : Declarer) (b : Declared) : Bool :=
  match d with
  | .var | .letting => b.hasValue || b.isName
  | .const => b.hasValue
  | .using => b.hasValue && b.isName

namespace Grammar

variable (g : Grammar)

/-! ## Declarations -/

/-- The word that declares variables here, if a declaration begins. A `let` that may not declare is
a name unless a bracket follows. -/
def declarer? (ctx : Context) (declares : Bool) : Parser (Option Declarer) := do
  let c ← get
  if c.isWord "var" then return some .var
  else if c.isWord "const" then return some .const
  else if c.isWord "let" then
    let binds ← followedBy fun n =>
      n.is "[" || (declares && (n.is "\x7b" ||
        (n.isVariable { ctx with inAsync := false, inGenerator := false })))
    return if binds then some .letting else none
  else if c.isWord "using" then
    let binds ← followedBy fun n => n.isVariable ctx && !n.newline && !n.isWord "of"
    return if binds then some .using else none
  else if c.isWord "await" && ctx.inAsync then
    match ← lookahead with
    | none => return none
    | some n =>
      let binds := n.isWord "using" && !n.newline &&
        (Cursor.at? n.next 0).any fun m => m.isVariable ctx && !m.newline
      return if binds then some .using else none
  else return none

def declared (ctx : Context) : Parser Declared := do
  let c ← get
  g.binding ctx
  let isName := !c.is "[" && !c.is "\x7b"
  if ← accept "=" then
    let _ ← g.assignment ctx
    return ⟨isName, true⟩
  else return ⟨isName, false⟩

def declaration (ctx : Context) : Parser (List Declared) := do
  let _ ← acceptWord "await"
  advance
  list (g.declared ctx) g.fuel

/-- A function as a declaration, from its word on. One that stands alone under a condition or a loop
is neither asynchronous nor a generator. -/
def functionDeclaration (ctx : Context) (declares needsName : Bool) : Parser Unit := do
  let isAsync ← acceptWord "async"
  let isGenerator ← g.function ctx isAsync needsName
  require (declares || (!isAsync && !isGenerator))

def classDeclaration (ctx : Context) (needsName : Bool) : Parser Unit := do
  g.decorators ctx g.fuel
  g.classFrom ctx needsName

/-! ## Parts of statements -/

/-- An expression in parentheses. -/
def condition (ctx : Context) : Parser Unit := do
  expect "("
  let _ ← g.expression (inside ctx)
  expect ")"

/-- Statements in braces. -/
def block (ctx : Context) : Parser Unit := do
  expect "\x7b"
  let _ ← upTo "\x7d" (g.statement ctx true) g.fuel

/-- A statement that is no declaration. -/
def body (ctx : Context) : Parser Unit := do
  let _ ← g.statement ctx false

/-- The statements of a case, up to the next one or to the closing brace. -/
def caseBody (ctx : Context) : Nat → Parser Unit
  | 0 => fail
  | fuel + 1 => do
    let c ← get
    if c.isWord "case" || c.isWord "default" || c.is "\x7d" then return
    let _ ← g.statement ctx true
    caseBody ctx fuel

def switchCase (ctx : Context) : Parser Unit := do
  if ← acceptWord "default" then expect ":"
  else
    expectWord "case"
    let _ ← g.expression (inside ctx)
    expect ":"
  g.caseBody ctx g.fuel

/-- What is done after a failure, where that is said. -/
def handler (ctx : Context) : Parser Bool := do
  if ← acceptWord "catch" then
    if ← accept "(" then
      g.binding ctx
      expect ")"
    g.block ctx
    return true
  else return false

/-- What is done in the end, where that is said. -/
def finisher (ctx : Context) : Parser Bool := do
  if ← acceptWord "finally" then
    g.block ctx
    return true
  else return false

def jumpLabel (ctx : Context) : Parser Unit := do
  let c ← get
  if !c.newline && c.isVariable ctx then advance
  semicolon

/-! ## Loops -/

/-- An expression up to `close`, or nothing. -/
def loopPart (ctx : Context) (close : String) : Parser Unit := do
  if ← accept close then return
  let _ ← g.expression (inside ctx)
  expect close

/-- The condition and the step of a loop that counts, from after the first semicolon. -/
def countedRest (ctx : Context) : Parser Unit := do
  g.loopPart ctx ";"
  g.loopPart ctx ")"

/-- What a loop runs over, from its word on; `none` if there is no such word. -/
def overRest? (ctx : Context) (mustBeOf : Bool) : Parser Bool := do
  if ← acceptWord "of" then
    let _ ← g.assignment (inside ctx)
    expect ")"
    return true
  else if !mustBeOf && (← get).isWord "in" then
    advance
    let _ ← g.expression (inside ctx)
    expect ")"
    return true
  else return false

def declaringHead (ctx : Context) (d : Declarer) (waits : Bool) : Parser Unit := do
  let bound ← g.declaration { ctx with allowsIn := false }
  let c ← get
  if c.isWord "of" || c.isWord "in" then
    require (bound.map Declared.hasValue == [false])
    require (← g.overRest? ctx waits)
  else
    require (!waits && bound.all d.allows)
    expect ";"
    g.countedRest ctx

def plainHead (ctx : Context) (waits : Bool) : Parser Unit := do
  let first ← get
  let e ← g.expression { ctx with allowsIn := false }
  let c ← get
  if c.isWord "of" || c.isWord "in" then
    require (e.isPattern && e.defaults ≤ c.defaults)
    require (!(c.isWord "of" && (first.isWord "let" || (!waits && first.isWord "async" &&
      e.start == first.start && (match e with | .identifier .. => true | _ => false)))))
    set { c with defaults := c.defaults - e.defaults }
    require (← g.overRest? ctx waits)
  else
    require !waits
    expect ";"
    g.countedRest ctx

def forLoop (ctx : Context) : Parser Unit := do
  let waits ← if ctx.inAsync then acceptWord "await" else pure false
  expect "("
  if !waits && (← get).is ";" then
    advance
    g.countedRest ctx
  else
    match ← declarer? ctx true with
    | some d => g.declaringHead ctx d waits
    | none => g.plainHead ctx waits
  g.body ctx

/-! ## Statements -/

def expressionStatement (ctx : Context) : Parser Statement := do
  let c ← get
  if c.isVariable ctx && (← followedBy fun n => n.is ":") then
    advance
    advance
    g.body ctx
    return .other
  let e ← g.expression (inside ctx)
  semicolon
  return .expression e

/-- A statement that begins with a word of its own; `none` if there is no such word. -/
def wordStatement? (ctx : Context) (word : String) : Option (Parser Unit) :=
  match word with
  | "if" => some do
    advance
    g.condition ctx
    g.body ctx
    if ← acceptWord "else" then g.body ctx
  | "for" => some do
    advance
    g.forLoop ctx
  | "while" => some do
    advance
    g.condition ctx
    g.body ctx
  | "with" => some do
    advance
    g.condition ctx
    g.body ctx
  | "do" => some do
    advance
    g.body ctx
    expectWord "while"
    g.condition ctx
    let _ ← accept ";"
  | "continue" => some do
    advance
    jumpLabel ctx
  | "break" => some do
    advance
    jumpLabel ctx
  | "return" => some do
    require ctx.inFunction
    advance
    let c ← get
    if c.newline || c.is ";" || c.is "\x7d" || c.token == .ending then semicolon
    else
      let _ ← g.expression (inside ctx)
      semicolon
  | "throw" => some do
    advance
    require (!(← get).newline)
    let _ ← g.expression (inside ctx)
    semicolon
  | "switch" => some do
    advance
    g.condition ctx
    expect "\x7b"
    let _ ← upTo "\x7d" (g.switchCase ctx) g.fuel
  | "try" => some do
    advance
    g.block ctx
    let handled ← g.handler ctx
    let finished ← g.finisher ctx
    require (handled || finished)
  | "debugger" => some do
    advance
    semicolon
  | _ => none

/-- A statement. `declares` says whether it may be a declaration. -/
def statementWith (ctx : Context) (declares : Bool) : Parser Statement := do
  let ctx := inside ctx
  let c ← get
  if c.is "\x7b" then
    g.block ctx
    return .other
  else if ← accept ";" then return .other
  else if c.is "@" || c.isWord "class" then
    require declares
    g.classDeclaration ctx true
    return .other
  else if c.isWord "function" || (← atAsyncFunction) then
    g.functionDeclaration ctx declares true
    return .other
  else
    match ← declarer? ctx declares with
    | some d =>
      require (declares || d == .var)
      let bound ← g.declaration ctx
      require (bound.all d.allows)
      semicolon
      return .other
    | none =>
      match c.token with
      | .name text false =>
        match g.wordStatement? ctx text with
        | some p =>
          p
          return .other
        | none => g.expressionStatement ctx
      | _ => g.expressionStatement ctx

end Grammar

end BundleLedger.Script
