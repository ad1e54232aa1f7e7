import BundleLedger.Disk.Operations
import BundleLedger.Failure
import BundleLedger.Options.Assignments
import BundleLedger.Text.Class.Alphanumeric

/-!
# Options from files

A layer of options from the text of an options file, with the variables in its paths replaced.

A path may name variables of the environment, and start with a tilde for the home directory. `$name`
and `${name}` stand for the variable's value, `${name:-text}` for the text where the variable is
unset, and `$$` for a dollar sign; a dollar sign before anything else is kept. Values are taken as
they are: what they hold is not expanded again.
-/
namespace BundleLedger

/-! ## Variables in paths -/

/-- The variables that are set, with their values. -/
abbrev Environment := Entries String

namespace Environment

/-- Whether a character may stand in a variable's name without braces. -/
def isNameChar (c : Char) : Bool := c = '_' || Text.isAlphanumeric c

/-- The name that stands between braces, and the text for the case that it is unset. -/
def reference (inside : List Char) : List Char × Option (List Char) :=
  match Text.indexOf? [':', '-'] inside with
  | none | some 0 => (inside, none)
  | some n => (inside.take n, some (inside.drop (n + 2)))

/-- The value of a variable, or else its default; the name of an unset one is the error. -/
def value (env : Environment) (name : List Char) (default : Option (List Char)) :
    Except String (List Char) :=
  match env.get? (String.ofList name), default with
  | some v, _ => .ok v.toList
  | none, some text => .ok text
  | none, none => .error (String.ofList name)

/-- The text with its variables replaced; at most as many steps as the fuel says. -/
def substituteFrom (env : Environment) : Nat → List Char → Except String (List Char)
  | 0, s => .ok s
  | _, [] => .ok []
  | fuel + 1, c :: s =>
    if c ≠ '$' then return c :: (← substituteFrom env fuel s)
    else match s with
      | '$' :: s => return '$' :: (← substituteFrom env fuel s)
      | '{' :: s =>
        match Text.cut? '}' s with
        | none => return '$' :: '{' :: (← substituteFrom env fuel s)
        | some (inside, rest) => do
          let (name, default) := reference inside
          let v ← env.value name default
          return v ++ (← substituteFrom env fuel rest)
      | s =>
        let name := s.takeWhile isNameChar
        if name = [] then return '$' :: (← substituteFrom env fuel s)
        else do
          let v ← env.value name none
          return v ++ (← substituteFrom env fuel (s.drop name.length))

/-- The text with its variables replaced. -/
def substitute (env : Environment) (s : List Char) : Except String (List Char) :=
  env.substituteFrom s.length s

/-- The home directory in place of a tilde that is the first name of a path. -/
def home (env : Environment) (s : List Char) : List Char :=
  match s, env.get? "HOME" with
  | '~' :: rest, some dir => if rest = [] ∨ rest.head? = some '/' then dir.toList ++ rest else s
  | s, _ => s

/-- The path with its variables replaced and then its tilde, unless the tilde comes out of a
variable. The name of an unset variable is the error. -/
def expand (env : Environment) (path : String) : Except String String := do
  let s ← env.substitute path.toList
  return String.ofList (if path.toList.head? = some '~' then env.home s else s)

end Environment

/-! ## Layers from files -/

namespace OptionLayer


/-- Where options are looked for when no file is named. -/
def defaultFile : String := "bundler.toml"

def expandPath (env : Environment) : Option String → Except ConfigFailure (Option String)
  | none => .ok none
  | some path =>
    match env.expand path with
    | .ok expanded => .ok (some expanded)
    | .error name => .error (.invalid (path ++ ": error looking key '" ++ name ++
        "' up: environment variable not found"))

/-- The layer with the variables in its paths replaced. -/
def expand (env : Environment) (layer : OptionLayer) : Except ConfigFailure OptionLayer := do
  let basePath ← expandPath env layer.basePath
  let dest ← expandPath env layer.dest
  let systemJsConfig ← expandPath env layer.systemJsConfig
  let manifest ← expandPath env layer.manifest
  return { layer with basePath, dest, systemJsConfig, manifest }

/-- The layer that the text of the file at `path` sets. -/
def ofText (env : Environment) (path text : String) : Except ConfigFailure OptionLayer :=
  match ofText? text with
  | some layer => layer.expand env
  | none => .error (.toml path "the file is no list of options")

/-- The layer that the file at `path` sets (spec §10.3). -/
def load (env : Environment) (disk : Disk) (path : String) : Except ConfigFailure OptionLayer :=
  match disk.readText path with
  | .ok text => ofText env path text
  | .error e => .error (.io path e.message)

end OptionLayer

end BundleLedger
