import BundleLedger.Entries
import BundleLedger.Options.Basic
import BundleLedger.Options.Quoted

/-!
# Options files

An options file is a list of lines of the form `key = value`, blank lines and comments. A key is a
word or stands between quotes, a value is a string or a truth value. No key may stand twice.
-/
namespace BundleLedger.Options

open Quoted (isPlain isBlank lineEnd?)

def isKeyChar (c : Char) : Bool := c.isAlphanum || c = '_' || c = '-'

def key? (s : List Char) : Option (List Char × List Char) :=
  match s with
  | '"' :: rest => Quoted.single? '"' rest
  | '\'' :: rest => Quoted.single? '\'' rest
  | s =>
    let word := s.takeWhile isKeyChar
    if word = [] then none else some (word, s.drop word.length)

/-- The value at the head, and what follows it. -/
def setting? (s : List Char) : Option (Setting × List Char) :=
  if "true".toList.isPrefixOf s then some (.flag true, s.drop 4)
  else if "false".toList.isPrefixOf s then some (.flag false, s.drop 5)
  else (Quoted.read? s).map fun (text, rest) => (.text (String.ofList text), rest)

def lineRest? (s : List Char) : Option (List Char) :=
  let s := match s.dropWhile isBlank with
    | '#' :: s => s.dropWhile isPlain
    | s => s
  if s = [] then some [] else lineEnd? s

def assignment? (s : List Char) : Option ((String × Setting) × List Char) := do
  let (key, s) ← key? s
  let '=' :: s := s.dropWhile isBlank | none
  let (setting, s) ← setting? (s.dropWhile isBlank)
  return ((String.ofList key, setting), ← lineRest? s)

/-- The assignments of a text, after `found`; at most as many lines as the fuel says. -/
def assignmentsFrom? (found : Entries Setting) : Nat → List Char → Option (Entries Setting)
  | _, [] => some found
  | 0, _ => none
  | fuel + 1, s =>
    match lineRest? s with
    | some rest => assignmentsFrom? found fuel rest
    | none =>
      match assignment? (s.dropWhile isBlank) with
      | none => none
      | some ((key, setting), rest) =>
        if Entries.has found key then none
        else assignmentsFrom? (Entries.put found key setting) fuel rest

/-- The assignments of a file in order. A mark of the byte order may stand in front. -/
def assignments? (s : List Char) : Option (Entries Setting) :=
  let s := if s.head? = some '\ufeff' then s.tail else s
  assignmentsFrom? [] s.length s

end BundleLedger.Options

namespace BundleLedger.OptionLayer

/-- The layer that a file's text sets; `none` also for an unknown key or a value of the wrong
kind. -/
def ofText? (text : String) : Option OptionLayer :=
  (Options.assignments? text.toList).bind fun assignments =>
    assignments.foldlM (fun layer (key, setting) => layer.set? key setting) {}

end BundleLedger.OptionLayer
