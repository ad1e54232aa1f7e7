import BundleLedger.CommandLine.Command
import BundleLedger.Options.File

/-!
# Command lines

The switches before a command: they name an options file, override options, and say whether the
loader configuration is saved afterwards.
-/
namespace BundleLedger.CommandLine

/-- A command line. -/
structure Invocation where
  /-- The options file, if one is named. -/
  config : Option String
  overrides : OptionLayer
  saveConfig : Bool
  command : Command
  deriving Repr

namespace Invocation

/-- The switches that may stand before the command. -/
def form : Form where
  switches :=
    [⟨"config", none, .path⟩, ⟨"source", none, .path⟩, ⟨"base-url", none, .text⟩,
      ⟨"bundles-base-url", none, .text⟩, ⟨"dest", none, .path⟩, ⟨"system-config", none, .path⟩,
      ⟨"manifest", none, .path⟩, ⟨"no-source-maps", none, .flag⟩, ⟨"no-minify", none, .flag⟩,
      ⟨"engine", none, .text⟩, ⟨"keep-existing-bundles", none, .flag⟩,
      ⟨"save-config", none, .flag⟩, ⟨"verbose", some 'v', .flag⟩, helpSwitch,
      ⟨"version", some 'V', .version⟩]

def overridesOf (r : Reading) : OptionLayer where
  basePath := r.value? "source"
  baseUrl := r.value? "base-url"
  bundlesBaseUrl := r.value? "bundles-base-url"
  dest := r.value? "dest"
  systemJsConfig := r.value? "system-config"
  manifest := r.value? "manifest"
  sourceMaps := if r.has "no-source-maps" then some false else none
  minify := if r.has "no-minify" then some false else none
  engine := r.value? "engine"
  keepExistingBundles := if r.has "keep-existing-bundles" then some true else none

/-- Reads a command line, from after the name of the program. -/
def read (arguments : List String) : Except Refusal Invocation := do
  let (r, command) ← readFrom form false arguments {}
  return ⟨r.value? "config", overridesOf r, r.has "save-config", command⟩

def saves (i : Invocation) : Bool := i.saveConfig || i.command.savesByItself

end Invocation

end BundleLedger.CommandLine
