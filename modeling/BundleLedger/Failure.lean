/-!
# Failures

What can go wrong in a session, and how each failure is worded.
-/
namespace BundleLedger

/-- The engine could not be used, or failed. -/
inductive EngineFailure where
  | notFound (program : String)
  | trace (expression message : String)
  | compile (message : String)
  | invalidResponse (detail : String)
  deriving DecidableEq, Repr

/-- A loader configuration or an options file could not be read or written. -/
inductive ConfigFailure where
  | io (path error : String)
  | malformed (detail : String)
  | unsupported (offset : Nat) (message : String)
  | toml (path detail : String)
  | missingConfigCall
  | invalid (message : String)
  deriving DecidableEq, Repr

/-- The project manifest could not be read. -/
inductive ManifestFailure where
  | io (path error : String)
  | json (path detail : String)
  | missingDependencies (path : String)
  deriving DecidableEq, Repr

/-- An operation of a session failed (spec §7). -/
inductive Failure where
  | engine (failure : EngineFailure)
  | config (failure : ConfigFailure)
  | manifest (failure : ManifestFailure)
  | write (path error : String)
  | discovery (detail : String)
  | sourceMap (detail : String)
  deriving DecidableEq, Repr

def EngineFailure.message : EngineFailure → String
  | .notFound program =>
    "engine '" ++ program ++ "' not found. Install the SystemJS engine bridge or set \x60engine\x60 " ++
      "in bundler.toml."
  | .trace expression message => "Trace of '" ++ expression ++ "' failed: " ++ message
  | .compile message => "Compile failed: " ++ message
  | .invalidResponse detail => "Invalid engine response: " ++ detail

def ConfigFailure.message : ConfigFailure → String
  | .io path error => "I/O error reading " ++ path ++ ": " ++ error
  | .malformed detail => "Syntax error: " ++ detail
  | .unsupported offset message =>
    "Unsupported value at offset " ++ toString offset ++ ": " ++ message
  | .toml path detail => "TOML parsing error in " ++ path ++ ": " ++ detail
  | .missingConfigCall => "No System.config(...) call found"
  | .invalid message => "Invalid configuration value: " ++ message

def ManifestFailure.message : ManifestFailure → String
  | .io path error => "I/O error reading " ++ path ++ ": " ++ error
  | .json path detail => "JSON parsing error in " ++ path ++ ": " ++ detail
  | .missingDependencies path => path ++ " has no jspm.dependencies section"

def Failure.message : Failure → String
  | .engine failure => "Engine failed: " ++ failure.message
  | .config failure => "Loader configuration error: " ++ failure.message
  | .manifest failure => "Manifest error: " ++ failure.message
  | .write path error => "I/O error on " ++ path ++ ": " ++ error
  | .discovery detail => "Entry point discovery failed: " ++ detail
  | .sourceMap detail => "Invalid source map: " ++ detail

def Failure.cause? : Failure → Option String
  | .engine failure => some failure.message
  | .config failure => some failure.message
  | .manifest failure => some failure.message
  | .write _ error => some error
  | .discovery _ => none
  | .sourceMap _ => none

end BundleLedger
