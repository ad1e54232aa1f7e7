import BundleLedger.Engine.Program
import BundleLedger.Graph
import BundleLedger.LoaderConfig.Basic

/-!
# An engine in a program of its own

The program is called as `<program> trace` or `<program> bundle`. It reads one request and answers
with a graph or a bundle. When it fails, what it wrote as its complaint is the message.
-/
namespace BundleLedger.Engine

open Json

def request (config : LoaderConfig) (members : Members) : List UInt8 :=
  Text.utf8 (Value.object (("config", config.toValue) :: members)).text.toList

/-- How a program ended, in words. -/
def statusText : Except Nat Nat → String
  | .ok n => "exit status: " ++ toString n
  | .error n =>
    "signal: " ++ toString n ++
      match Shell.Builtin.signals.find? (·.2 == n) with
      | some (name, _) => " (SIG" ++ name ++ ")"
      | none => ""

/-- What a program complained about, without the blanks around it. -/
def complaint (error : List UInt8) : String := String.ofList (Text.trim (Text.lossy error))

/-- What a program answers to a request, or what went wrong. -/
def respond (program verb : String) (input : List UInt8) (disk : Disk) :
    Except String (List UInt8) × Disk :=
  match Program.script? disk program with
  | .error e => (.error ("Failed to execute " ++ program ++ ": " ++ e.message), disk)
  | .ok (script, strict) =>
    let ending := Shell.execute script strict program [verb] input disk
    match ending.status with
    | .ok 0 => (.ok ending.standard, ending.disk)
    | status =>
      (.error ("engine exited with " ++ statusText status ++ ": " ++ complaint ending.error),
        ending.disk)

/-- What `parse?` makes of the bytes of an answer. -/
def decoded {α : Type} (what : String) (parse? : String → Option α) (answer : List UInt8) :
    Except EngineFailure α :=
  match (Text.decode? answer).bind fun s => parse? (String.ofList s) with
  | some a => .ok a
  | none => .error (.invalidResponse (what ++ " output: no answer to the request"))

/-- The engine that is the program at a path, with the configuration that it is sent. -/
def ofProgram (program : String) (config : LoaderConfig) : Engine Unit where
  trace expression _ disk :=
    match respond program "trace" (request config [("expression", .string expression)]) disk with
    | (.error message, disk) => (.error (.trace expression message), (), disk)
    | (.ok answer, disk) => (decoded "trace" Graph.parse? answer, (), disk)
  compile graph options _ disk :=
    let members := [("tree", graph.toValue), ("options", options.toValue)]
    match respond program "bundle" (request config members) disk with
    | (.error message, disk) => (.error (.compile message), (), disk)
    | (.ok answer, disk) => (decoded "bundle" Bundle.parse? answer, (), disk)

end BundleLedger.Engine
