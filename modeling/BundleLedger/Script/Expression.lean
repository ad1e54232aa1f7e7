import BundleLedger.Script.Class
import BundleLedger.Script.Collection

/-!
# Operators and chains

Operators by the strength of their binding, chains of members and calls, and what they are built
from. An arrow function is tried before anything else that begins alike.
-/
namespace BundleLedger.Script

open Script.Parser

/-! ## Operators -/

def operatorLevels : List (String × Nat) :=
  [("??", 1), ("||", 2), ("&&", 3), ("|", 4), ("^", 5), ("&", 6), ("==", 7), ("!=", 7), ("===", 7),
    ("!==", 7), ("<", 8), (">", 8), ("<=", 8), (">=", 8), ("<<", 9), (">>", 9), (">>>", 9), ("+", 10),
    ("-", 10), ("*", 11), ("/", 11), ("%", 11), ("**", 12)]

/-- How tightly a token binds as an operator between two operands. -/
def operatorLevel? (ctx : Context) (token : Token) : Option Nat :=
  match token with
  | .punctuator p => operatorLevels.lookup p
  | .name "instanceof" false => some 8
  | .name "in" false => if ctx.allowsIn then some 8 else none
  | _ => none

def assignmentOperators : List String :=
  ["+=", "-=", "*=", "/=", "%=", "**=", "<<=", ">>=", ">>>=", "&=", "|=", "^=", "&&=", "||=", "??="]

def unaryOperators : List String := ["+", "~", "!"]

def unaryWords : List String := ["delete", "void", "typeof"]

def Expr.isUnary : Expr → Bool
  | .negation .. => true
  | .compound _ .unary => true
  | _ => false

def Expr.hasForm (form : Form) : Expr → Bool
  | .compound _ f => f == form
  | _ => false

def operationForm (token : Token) : Form :=
  if token == .punctuator "??" then .coalescing
  else if token == .punctuator "&&" || token == .punctuator "||" then .logical
  else .plain

/-- Whether an operation may have these operands: `??` does not mix with `&&` and `||`, and nothing
that begins with an operator stands on the left of `**`. -/
def operandsAgree (operator : Token) (left right : Expr) : Bool :=
  match operationForm operator with
  | .coalescing => !left.hasForm .logical && !right.hasForm .logical
  | .logical => !left.hasForm .coalescing && !right.hasForm .coalescing
  | _ => !(operator == .punctuator "**" && left.isUnary)

namespace Grammar

variable (g : Grammar)

/-! ## Chains -/

def functionExpression : Parser Expr := do
  let start := (← get).start
  let isAsync ← acceptWord "async"
  let _ ← g.function (functionContext isAsync false) isAsync false
  return .compound start .plain

def classExpression (ctx : Context) : Parser Expr := do
  let start := (← get).start
  g.decorators ctx g.fuel
  g.classFrom ctx false
  return .compound start .plain

def wordExpression (ctx : Context) : Parser Expr := do
  let c ← get
  let start := c.start
  if c.isWord "this" then
    advance
    return .compound start .plain
  else if c.isWord "null" then
    advance
    return .null start
  else if c.isWord "true" then
    advance
    return .boolean start true
  else if c.isWord "false" then
    advance
    return .boolean start false
  else if c.isWord "function" then g.functionExpression
  else if ← atAsyncFunction then g.functionExpression
  else if c.isWord "class" then g.classExpression ctx
  else return .identifier start (← Parser.variable ctx)

def markedExpression (ctx : Context) : Parser Expr := do
  let c ← get
  let start := c.start
  if ← accept "(" then
    let e ← g.expression (inside ctx)
    expect ")"
    return .parenthesized start e
  else if ← accept "[" then return .array start (← g.elements ctx g.fuel)
  else if ← accept "\x7b" then return .object start (← listUpTo "\x7d" (g.property ctx) g.fuel)
  else if c.is "@" then g.classExpression ctx
  else if c.is "/" || c.is "/=" then
    match regex? c.point with
    | none => fail
    | some next =>
      set { c with token := .regex, next }
      advance
      return .compound start .plain
  else fail

/-- An expression that is not built from others by operators, members or calls. -/
def primary (ctx : Context) : Parser Expr := do
  let c ← get
  let start := c.start
  match c.token with
  | .name .. => g.wordExpression ctx
  | .number value => advance; return .number start value
  | .bigint => advance; return .compound start .plain
  | .string value => advance; return .string start value
  | .template .. =>
    let (parts, holes) ← g.template ctx false g.fuel
    return .template start parts holes
  | .punctuator _ => g.markedExpression ctx
  | _ => fail

/-- A member after its dot. -/
def dotted (start : Nat) (object : Expr) : Parser Expr := do
  match (← get).token with
  | .name text _ => advance; return .member start object text
  | .privateName _ => advance; return .index start object
  | _ => fail

def bracketed (ctx : Context) (start : Nat) (object : Expr) : Parser Expr := do
  let _ ← g.expression (inside ctx)
  expect "]"
  return .index start object

/-- The members and calls after an expression. `calls` says whether calls may follow, and `inChain`
whether an optional member came before. -/
def accessRest (ctx : Context) (calls : Bool) : Nat → Bool → Expr → Parser Expr
  | 0, _, _ => fail
  | fuel + 1, inChain, e => do
    let start := e.start
    if ← accept "." then accessRest ctx calls fuel inChain (← dotted start e)
    else if ← accept "[" then accessRest ctx calls fuel inChain (← g.bracketed ctx start e)
    else
      match (← get).token with
      | .template .. =>
        require (!inChain)
        let _ ← g.template ctx true g.fuel
        accessRest ctx calls fuel inChain (.compound start .plain)
      | .punctuator "?." =>
        require calls
        advance
        if ← accept "(" then
          let arguments ← g.arguments ctx
          accessRest ctx calls fuel true (.call start e arguments)
        else if ← accept "[" then accessRest ctx calls fuel true (← g.bracketed ctx start e)
        else accessRest ctx calls fuel true (← dotted start e)
      | .punctuator "(" =>
        if calls then
          advance
          let arguments ← g.arguments ctx
          accessRest ctx calls fuel inChain (.call start e arguments)
        else return e
      | _ => return if inChain then .compound start .chain else e

/-- What `import` stands for in an expression, from after that word: data about the module, or a
call that loads another one. -/
def importExpression (ctx : Context) (start : Nat) (calls : Bool) : Parser Expr := do
  if ← accept "." then
    if ← acceptWord "meta" then return .compound start .plain
    require ((← acceptWord "source") || (← acceptWord "defer"))
  require calls
  expect "("
  let _ ← g.assignment (inside ctx)
  if ← accept "," then
    if ← accept ")" then return .compound start .plain
    let _ ← g.assignment (inside ctx)
    let _ ← accept ","
  expect ")"
  return .compound start .plain

def superExpression (start : Nat) (calls : Bool) : Parser Expr := do
  let c ← get
  require (c.is "." || c.is "[" || (calls && c.is "("))
  return .compound start .plain

/-- The expression at the beginning of a chain. -/
def accessHead (ctx : Context) (calls : Bool) : Parser Expr := do
  let start := (← get).start
  if ← acceptWord "new" then
    let _ ← g.constructed ctx
    return .compound start .plain
  else if ← acceptWord "super" then superExpression start calls
  else if ← acceptWord "import" then g.importExpression ctx start calls
  else g.primary ctx

/-- A chain of members and calls. -/
def accessWith (ctx : Context) : Parser Expr := do
  g.accessRest ctx true g.fuel false (← g.accessHead ctx true)

/-- What is made by `new`, from after that word. -/
def constructedWith (ctx : Context) : Parser Expr := do
  let start := (← get).start
  if ← accept "." then
    expectWord "target"
    return .compound start .plain
  let _ ← g.accessRest ctx false g.fuel false (← g.accessHead ctx false)
  if ← accept "(" then
    let _ ← g.arguments ctx
  return .compound start .plain

/-! ## Operations -/

/-- A step up or down behind an operand. -/
def stepped (ctx : Context) : Parser Expr := do
  let e ← g.access ctx
  let c ← get
  if (c.is "++" || c.is "--") && !c.newline then
    require e.isTarget
    advance
    return .compound e.start .plain
  else return e

def operandWith (ctx : Context) : Parser Expr := do
  let c ← get
  let start := c.start
  let isUnary := match c.token with
    | .punctuator p => unaryOperators.contains p
    | .name text false => unaryWords.contains text || (ctx.inAsync && text == "await")
    | _ => false
  if isUnary then
    advance
    let _ ← g.operand ctx
    return .compound start .unary
  else if ← accept "-" then return .negation start (← g.operand ctx)
  else if c.is "++" || c.is "--" then
    advance
    require (← g.operand ctx).isTarget
    return .compound start .plain
  else g.stepped ctx

/-- Further operators that bind tighter than `level`, and their right operands. -/
def operationRest (ctx : Context) (level : Nat) : Nat → Expr → Parser Expr
  | 0, _ => fail
  | fuel + 1, left => do
    let operator := (← get).token
    match operatorLevel? ctx operator with
    | none => return left
    | some n =>
      if n ≤ level then return left
      advance
      let right ← g.operation ctx (if operator == .punctuator "**" then n - 1 else n)
      require (operandsAgree operator left right)
      operationRest ctx level fuel (.compound left.start (operationForm operator))

/-- An operation whose operators bind tighter than `level`. A hidden name may stand in front of
`in`. -/
def operationWith (ctx : Context) (level : Nat) : Parser Expr := do
  let c ← get
  match c.token with
  | .privateName _ =>
    advance
    require ((← get).isWord "in" && ctx.allowsIn && level < 8)
    g.operationRest ctx level g.fuel (.compound c.start .plain)
  | _ => g.operationRest ctx level g.fuel (← g.operand ctx)

/-- An operation, or a choice between two expressions by one. -/
def conditional (ctx : Context) : Parser Expr := do
  let e ← g.operation ctx 0
  if ← accept "?" then
    let _ ← g.assignment (inside ctx)
    expect ":"
    let _ ← g.assignment ctx
    return .compound e.start .plain
  else return e

/-! ## Assignments -/

/-- The rest of an arrow function from its arrow on, which stands on the line of the parameters. -/
def arrowRest (ctx : Context) (isAsync : Bool) : Parser Unit := do
  require (!(← get).newline)
  expect "=>"
  if (← get).is "\x7b" then g.functionBody (functionContext isAsync false)
  else
    let _ ← g.assignment { functionContext isAsync false with allowsIn := ctx.allowsIn }

def arrowFrom (ctx : Context) (isAsync : Bool) : Parser Unit := do
  let inner := { ctx with inAsync := ctx.inAsync || isAsync, allowsIn := true }
  if ← accept "(" then
    let _ ← g.parameters inner g.fuel
  else
    let _ ← Parser.variable inner
  g.arrowRest ctx isAsync

def arrow (ctx : Context) : Parser Expr := do
  let c ← get
  let start := c.start
  if c.isWord "async" && (← followedBy fun n => !n.newline && (n.is "(" || n.isVariable ctx)) then
    advance
    g.arrowFrom ctx true
  else
    require (c.is "(" || (c.isVariable ctx && (← followedBy fun n => n.is "=>")))
    g.arrowFrom ctx false
  return .compound start .plain

/-- Whether a `yield` in front of this token stands alone. -/
def endsYield (c : Cursor) : Bool :=
  c.newline || c.token == .ending || c.isWord "in" ||
    [")", "]", "\x7d", ",", ";", ":"].any c.is

/-- A `yield` and what it yields. -/
def yielding (ctx : Context) : Parser Expr := do
  let start := (← get).start
  advance
  let c ← get
  let delegates ← if c.newline then pure false else accept "*"
  if delegates || !endsYield c then
    let _ ← g.assignment ctx
  return .compound start .plain

def assignmentRest (ctx : Context) (target : Expr) : Parser Expr := do
  let c ← get
  if c.is "=" then
    require (target.isPattern && target.defaults ≤ c.defaults)
    set { c with defaults := c.defaults - target.defaults }
    advance
    let _ ← g.assignment ctx
    return .assignment target.start target
  else if assignmentOperators.any c.is then
    require target.isTarget
    advance
    let _ ← g.assignment ctx
    return .compound target.start .plain
  else return target

def assignmentWith (ctx : Context) : Parser Expr := do
  if ctx.inGenerator && (← get).isWord "yield" then g.yielding ctx
  else g.arrow ctx <|> (do g.assignmentRest ctx (← g.conditional ctx))

end Grammar

end BundleLedger.Script
