import BundleLedger.Script.Statement

/-!
# Scripts

A script is a list of statements, among them imports and exports. The grammar is built with a fuel
of five for each character: what is nested one deeper begins at least one character later, and at
most four parts of the grammar lie between a part and the next one of its kind.
-/
namespace BundleLedger.Script

open Script.Parser

/-- The grammar for scripts that nest at most so deep. -/
def grammar : Nat → Grammar
  | 0 =>
    { fuel := 0
      assignment := fun _ => fail
      operation := fun _ _ => fail
      operand := fun _ => fail
      access := fun _ => fail
      constructed := fun _ => fail
      binding := fun _ => fail
      statement := fun _ _ => fail }
  | n + 1 =>
    let g := grammar n
    { fuel := n + 1
      assignment := g.assignmentWith
      operation := g.operationWith
      operand := g.operandWith
      access := g.accessWith
      constructed := g.constructedWith
      binding := g.bindingWith
      statement := g.statementWith }

namespace Grammar

variable (g : Grammar)

/-! ## Imports -/

def topLevel : Context := { inAsync := true }

/-- A string. -/
def text : Parser Unit := do
  match (← get).token with
  | .string _ => advance
  | _ => fail

/-- A name of an import or an export: any word, or a string. Gives whether it may be the name of a
variable. -/
def exchangedName : Parser Bool := do
  match (← get).token with
  | .name text _ =>
    advance
    return topLevel.allowsName text
  | .string _ =>
    advance
    return false
  | _ => fail

def importAttribute : Parser Unit := do
  match (← get).token with
  | .name .. | .string _ => advance
  | _ => fail
  expect ":"
  text

def attributes : Parser Unit := do
  let c ← get
  if c.isWord "with" || (c.isWord "assert" && !c.newline) then
    advance
    expect "\x7b"
    let _ ← listUpTo "\x7d" importAttribute g.fuel

/-- Where something is imported from, to the end of the statement. -/
def source : Parser Unit := do
  text
  g.attributes
  semicolon

def importedName : Parser Unit := do
  let isVariable ← exchangedName
  if ← acceptWord "as" then
    let _ ← Parser.variable topLevel
  else require isVariable

def wholeModule : Parser Unit := do
  expect "*"
  expectWord "as"
  let _ ← Parser.variable topLevel

def importedNames : Parser Unit := do
  if (← get).is "*" then wholeModule
  else
    expect "\x7b"
    let _ ← listUpTo "\x7d" importedName g.fuel

def importClause : Parser Unit := do
  let c ← get
  if c.is "*" || c.is "\x7b" then g.importedNames
  else
    let _ ← Parser.variable topLevel
    if ← accept "," then g.importedNames
  expectWord "from"

def phasedClause : Parser Unit := do
  if ← acceptWord "defer" then wholeModule
  else
    expectWord "source"
    let _ ← Parser.variable topLevel
  expectWord "from"

def importItem : Parser Unit := do
  expectWord "import"
  match (← get).token with
  | .string _ => g.source
  | _ =>
    (g.importClause <|> phasedClause)
    g.source

/-! ## Exports -/

/-- A name among those of an export. Gives whether it may be the name of a variable here. -/
def exportedName : Parser Bool := do
  let isVariable ← exchangedName
  if ← acceptWord "as" then
    let _ ← exchangedName
  return isVariable

/-- The names of an export. Names that are not from another module are those of variables. -/
def exportedNames : Parser Unit := do
  expect "\x7b"
  let areVariables ← listUpTo "\x7d" exportedName g.fuel
  if ← acceptWord "from" then g.source
  else
    require (areVariables.all id)
    semicolon

def exportedModule : Parser Unit := do
  expect "*"
  if ← acceptWord "as" then
    let _ ← exchangedName
  expectWord "from"
  g.source

def exportedDefault : Parser Unit := do
  let c ← get
  if c.isWord "function" || (← atAsyncFunction) then g.functionDeclaration topLevel true false
  else if c.isWord "class" || c.is "@" then g.classDeclaration topLevel false
  else
    let _ ← g.assignment topLevel
    semicolon

def exportItem : Parser Unit := do
  expectWord "export"
  let c ← get
  if c.is "*" then g.exportedModule
  else if c.is "\x7b" then g.exportedNames
  else if ← acceptWord "default" then g.exportedDefault
  else
    let declares := c.isWord "function" || (← atAsyncFunction) || c.isWord "class" || c.is "@" ||
      (← declarer? topLevel true).any fun d => d != .using
    require declares
    let _ ← g.statement topLevel true

/-! ## Scripts -/

def atImport : Parser Bool := do
  if (← get).isWord "import" then
    return !(← followedBy fun n => n.is "(" || n.is ".")
  else return false

/-- A statement of a script's top level. -/
def item : Parser Statement := do
  if ← atImport then
    g.importItem
    return .other
  else if (← get).isWord "export" then
    g.exportItem
    return .other
  else g.statement topLevel true

/-- The statements up to the end of the script. -/
def items : Nat → Parser (List Statement)
  | 0 => fail
  | fuel + 1 => do
    if (← get).token == .ending then return []
    let s ← g.item
    return s :: (← items fuel)

end Grammar

/-- The point where a script's code begins: after a first line that names its interpreter. -/
def codeStart (source : List Char) : Point :=
  match source with
  | '#' :: '!' :: rest =>
    let line := rest.takeWhile fun c => !isLineEnd c
    ⟨rest.drop line.length, 2 + Text.byteLength line⟩
  | source => ⟨source, 0⟩

/-- The statements of a script; `none` if it is no script. A name with a default that is in no
pattern is a mistake. -/
def parse? (source : List Char) : Option (List Statement) := do
  let start ← Cursor.at? (codeStart source) 0
  let fuel := 5 * source.length + 10
  let (statements, stop) ← (grammar fuel).items fuel start
  if stop.defaults = 0 then return statements else none

end BundleLedger.Script
