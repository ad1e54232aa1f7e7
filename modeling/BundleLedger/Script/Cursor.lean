import BundleLedger.Script.Expr
import BundleLedger.Script.Token

/-!
# The cursor of the parser

The parser sees one token at a time. A `Parser` moves the cursor on, or refuses the script; after a
refusal another alternative starts at the same cursor.
-/
namespace BundleLedger.Script

/-- Where the parser is. -/
structure Cursor where
  /-- The point where the current token begins. -/
  point : Point
  token : Token
  /-- Whether a line ended before the token. -/
  newline : Bool
  /-- The point after the token. -/
  next : Point
  /-- How many names with a default were read that still have to turn out to be patterns. -/
  defaults : Nat

/-- Reads part of a script, or refuses it. -/
abbrev Parser := StateT Cursor Option

/-- Where an expression or a statement stands. -/
structure Context where
  /-- Whether `in` is an operator. -/
  allowsIn : Bool := true
  /-- Whether `yield` is an operator. -/
  inGenerator : Bool := false
  /-- Whether `await` is an operator. -/
  inAsync : Bool := false
  /-- Whether `return` may stand. -/
  inFunction : Bool := false

def Cursor.at? (p : Point) (defaults : Nat) : Option Cursor := do
  let (point, newline) ← skip .code false p.offset p.rest
  let (token, next) ← token? point
  return { point, token, newline, next, defaults }

/-- Whether the token is this punctuator. -/
def Cursor.is (c : Cursor) (text : String) : Bool := c.token == .punctuator text

/-- Whether the token is this word, written without escapes. -/
def Cursor.isWord (c : Cursor) (text : String) : Bool := c.token == .name text false

/-- Where the token begins. -/
def Cursor.start (c : Cursor) : Nat := c.point.offset

namespace Parser

/-- Refuses the script. -/
def fail {α : Type} : Parser α := fun _ => none

/-- Goes on only if `b` holds. -/
def require (b : Bool) : Parser Unit := if b then pure () else fail

/-- The cursor on the next token. -/
def advance : Parser Unit := fun c => (Cursor.at? c.next c.defaults).map ((), ·)

/-- Whether the token is `text`; if so it is taken. -/
def accept (text : String) : Parser Bool := do
  if (← get).is text then
    advance
    return true
  else return false

/-- Takes the punctuator `text`. -/
def expect (text : String) : Parser Unit := do require (← accept text)

def acceptWord (text : String) : Parser Bool := do
  if (← get).isWord text then
    advance
    return true
  else return false

def expectWord (text : String) : Parser Unit := do require (← acceptWord text)

/-- The cursor one token later, if there is a token. -/
def lookahead : Parser (Option Cursor) := do return Cursor.at? (← get).next 0

/-- Whether the next token but one satisfies `p`. -/
def followedBy (p : Cursor → Bool) : Parser Bool := do return (← lookahead).any p

/-- What `p` reads, again and again up to the punctuator `close`, which is taken too. -/
def upTo {α : Type} (close : String) (p : Parser α) : Nat → Parser (List α)
  | 0 => fail
  | fuel + 1 => do
    if ← accept close then return []
    let a ← p
    return a :: (← upTo close p fuel)

/-- What `p` reads, with commas between, up to the punctuator `close`, which is taken too. A comma
may stand before it. -/
def listUpTo {α : Type} (close : String) (p : Parser α) : Nat → Parser (List α)
  | 0 => fail
  | fuel + 1 => do
    if ← accept close then return []
    let a ← p
    if ← accept close then return [a]
    expect ","
    return a :: (← listUpTo close p fuel)

/-- What `p` reads, once or more, with commas between. -/
def list {α : Type} (p : Parser α) : Nat → Parser (List α)
  | 0 => fail
  | fuel + 1 => do
    let a ← p
    if ← accept "," then return a :: (← list p fuel)
    else return [a]

/-- The end of a statement: a semicolon, or a place where one may be left out. -/
def semicolon : Parser Unit := do
  let c ← get
  if c.is ";" then advance
  else require (c.newline || c.is "\x7d" || c.token == .ending)

end Parser

/-! ## Names -/

def reservedWords : List String :=
  ["break", "case", "catch", "class", "const", "continue", "debugger", "default", "delete", "do",
    "else", "enum", "export", "extends", "false", "finally", "for", "function", "if", "import", "in",
    "instanceof", "new", "null", "return", "super", "switch", "this", "throw", "true", "try",
    "typeof", "var", "void", "while", "with"]

def Context.allowsName (ctx : Context) (name : String) : Bool :=
  !reservedWords.contains name && !(ctx.inAsync && name == "await") &&
    !(ctx.inGenerator && name == "yield")

def Parser.variable (ctx : Context) : Parser String := do
  match (← get).token with
  | .name text _ =>
    require (ctx.allowsName text)
    advance
    return text
  | _ => fail

def Cursor.isVariable (c : Cursor) (ctx : Context) : Bool :=
  match c.token with
  | .name text _ => ctx.allowsName text
  | _ => false

/-! ## The recursive parts of the grammar -/

/-- The parts of the grammar that contain each other. A part of a script that is nested deeper is
read by a grammar with less fuel. -/
structure Grammar where
  /-- How many items a list may have. -/
  fuel : Nat
  /-- An expression without a comma at its top. -/
  assignment : Context → Parser Expr
  /-- An operation whose operators bind tighter than a level. -/
  operation : Context → Nat → Parser Expr
  /-- An operand with the operators in front of it. -/
  operand : Context → Parser Expr
  /-- A chain of members and calls. -/
  access : Context → Parser Expr
  /-- What is made by `new`, from after that word. -/
  constructed : Context → Parser Expr
  /-- What a declaration binds. -/
  binding : Context → Parser Unit
  /-- A statement. The flag says whether it may be a declaration. -/
  statement : Context → Bool → Parser Statement

end BundleLedger.Script
