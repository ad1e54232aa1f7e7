import BundleLedger.Json.Decoder

/-!
# Events

What an observer of a session is told. An event is written as an object with its kind as `type` and
its fields as `payload`.
-/
namespace BundleLedger

open Json

/-- Something that happened in a session (spec §7). -/
inductive Event where
  | bundleWritten (id path : String) (modules : Nat)
  | bundleSkipped (root : String)
  | packageSkipped (name reason : String)
  | configSaved (path : String)
  | failed (operation error : String)
  deriving DecidableEq, Repr

namespace Event

inductive Kind where
  | bundleWritten
  | bundleSkipped
  | packageSkipped
  | configSaved
  | failed
  deriving DecidableEq, Repr

def Kind.text : Kind → String
  | .bundleWritten => "bundle-written"
  | .bundleSkipped => "bundle-skipped"
  | .packageSkipped => "package-skipped"
  | .configSaved => "config-saved"
  | .failed => "failed"

def Kind.all : List Kind := [.bundleWritten, .bundleSkipped, .packageSkipped, .configSaved, .failed]

def Kind.ofText? (text : String) : Option Kind := Kind.all.find? (·.text == text)

def Kind.fields : Kind → List String
  | .bundleWritten => ["id", "path", "modules"]
  | .bundleSkipped => ["root"]
  | .packageSkipped => ["name", "reason"]
  | .configSaved => ["path"]
  | .failed => ["operation", "error"]

def name : Event → String
  | .bundleWritten .. => "bundle.written"
  | .bundleSkipped _ => "bundle.skipped"
  | .packageSkipped .. => "package.skipped"
  | .configSaved _ => "config.saved"
  | .failed .. => "operation.failed"

def kind : Event → Kind
  | .bundleWritten .. => .bundleWritten
  | .bundleSkipped _ => .bundleSkipped
  | .packageSkipped .. => .packageSkipped
  | .configSaved _ => .configSaved
  | .failed .. => .failed

/-- The fields of an event. -/
def payload : Event → Members
  | .bundleWritten id path modules =>
    [("id", .string id), ("path", .string path), ("modules", .number (.integer modules))]
  | .bundleSkipped root => [("root", .string root)]
  | .packageSkipped name reason => [("name", .string name), ("reason", .string reason)]
  | .configSaved path => [("path", .string path)]
  | .failed operation error => [("operation", .string operation), ("error", .string error)]

/-- An event as an object. -/
def toValue (e : Event) : Value :=
  .object [("type", .string e.kind.text), ("payload", .object e.payload)]

/-! ## Reading events -/

/-- Reads a kind: its text, or an object with its text as the only key and `null` as the value. -/
def kindDecoder : Decoder Kind
  | _, .string raw => (decodeText raw).bind Kind.ofText?
  | _ + 1, .object [(raw, .null)] => (decodeText raw).bind Kind.ofText?
  | _, _ => none

/-- Reads the fields of an event from an object. -/
def payloadDecoder (kind : Kind) : Decoder Event
  | limit + 1, .object members => do
    let slots ← Slots.ofMembers kind.fields members
    let text := Decoder.required .string limit
    match kind, slots with
    | .bundleWritten, [id, path, modules] =>
      return .bundleWritten (← text id) (← text path) (← Decoder.required .count limit modules)
    | .bundleSkipped, [root] => return .bundleSkipped (← text root)
    | .packageSkipped, [name, reason] => return .packageSkipped (← text name) (← text reason)
    | .configSaved, [path] => return .configSaved (← text path)
    | .failed, [operation, error] => return .failed (← text operation) (← text error)
    | _, _ => none
  | _, _ => none

/-- Reads an event from an object with a `type` and a `payload`, or from an array of both. A payload
that comes before the type is read as a value first. -/
def decoder : Decoder Event
  | limit + 1, .object members => do
    let pairs ← members.mapM fun (raw, tree) => (decodeText raw).map (·, tree)
    match pairs.filter fun (key, _) => key = "type" ∨ key = "payload" with
    | [("type", type), ("payload", payload)] =>
      payloadDecoder (← kindDecoder limit type) limit payload
    | [("payload", payload), ("type", type)] =>
      let _ ← payload.value? limit
      payloadDecoder (← kindDecoder limit type) limit payload
    | _ => none
  | limit + 1, .array [type, payload] => do
    payloadDecoder (← kindDecoder limit type) limit payload
  | _, _ => none

/-- The event that a text holds. -/
def parse? (text : String) : Option Event := decoder.run text

end Event

/-- What watches a session: nothing of it, or all events in order, or a log. -/
inductive Observer where
  | log
  | recorder
  deriving DecidableEq, Repr

def Observer.name : Observer → String
  | .log => "tracing"
  | .recorder => "recording"

def Observer.kept (observer : Observer) (events : List Event) : List Event :=
  match observer with
  | .log => []
  | .recorder => events

end BundleLedger
