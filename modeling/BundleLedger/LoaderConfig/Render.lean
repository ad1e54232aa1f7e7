import BundleLedger.Json.Printer
import BundleLedger.LoaderConfig.Basic
import BundleLedger.Text.Class.Word

/-!
# Writing the configuration file

The file is one call `System.config(…);` whose argument is the indented object. A key at the first
level of indentation that consists of word characters loses its quotes, and the keys that begin a
block of their own get a blank line in front.
-/
namespace BundleLedger.LoaderConfig

open Json

def blockKeys : List String := ["meta", "depCache", "map", "packages", "bundles"]

/-- Edits a text at the beginnings of its lines. Where `rule` finds something at the beginning of
a line, it gives what is written instead and what follows; the search goes on behind it. The fuel
is at least the length of the text. -/
def editLines (rule : List Char → Option (List Char × List Char)) :
    Nat → Bool → List Char → List Char
  | _, _, [] => []
  | 0, _, s => s
  | fuel + 1, atStart, c :: s =>
    match if atStart then rule (c :: s) else none with
    | some (written, rest) => written ++ editLines rule fuel false rest
    | none => c :: editLines rule fuel (c == '\n') s

/-- A quoted key after `tab` whose text is one of `blockKeys`, and what follows its quote. -/
def blockKey? (tab s : List Char) : Option (List Char × List Char) := do
  let s ← tab.isPrefixOf? s
  let s ← ['"'].isPrefixOf? s
  blockKeys.findSome? fun key => do
    let rest ← key.toList.isPrefixOf? s
    let rest ← ['"'].isPrefixOf? rest
    return (key.toList, rest)

/-- A quoted key after `tab` that consists of word characters, and what follows its quote. -/
def wordKey? (tab s : List Char) : Option (List Char × List Char) := do
  let s ← tab.isPrefixOf? s
  let s ← ['"'].isPrefixOf? s
  let key := s.takeWhile Text.isWord
  if key = [] then none
  else return (key, ← ['"'].isPrefixOf? (s.dropWhile Text.isWord))

/-- Block keys after `tab` without their quotes, each after a blank line. -/
def separateBlocks (tab s : List Char) : List Char :=
  editLines (fun s => (blockKey? tab s).map fun (key, rest) => ('\n' :: tab ++ key, rest))
    s.length true s

/-- Keys of word characters after `tab` without their quotes. -/
def unquote (tab s : List Char) : List Char :=
  editLines (fun s => (wordKey? tab s).map fun (key, rest) => (tab ++ key, rest)) s.length true s

/-- The text of the configuration file. -/
def renderChars (c : LoaderConfig) (tab : List Char) : List Char :=
  "System.config(".toList ++ unquote tab (separateBlocks tab (c.toValue.pretty tab 0)) ++
    [')', ';', '\n']

/-- The text of the configuration file, with `tab` for each level of indentation.
Spec §4.3. -/
def render (c : LoaderConfig) (tab : String) : String := String.ofList (c.renderChars tab.toList)

end BundleLedger.LoaderConfig
