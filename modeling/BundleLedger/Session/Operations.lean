import BundleLedger.Discovery.Search
import BundleLedger.LoaderConfig.Location
import BundleLedger.Manifest
import BundleLedger.Session.Pipeline

/-!
# Operations of a session

What a session can be asked to do. Each operation that fails reports that last.
-/
namespace BundleLedger.Session

variable {ε : Type}

/-! ## One bundle -/

/-- Spec §4.3. -/
def component (s : Session ε) (entry : String) : Outcome ε (Option Target) :=
  finish "bundle_component" ((componentPipeline entry).run s)

/-- The first failure among some traces, or all graphs. -/
def allTraced (graphs : List (Except Failure Graph)) : Except Failure (List Graph) := graphs.mapM id

def traceVendor (s : Session ε) (packages : List String) : Outcome ε (Option Graph) :=
  if packages.isEmpty then (.ok none, s)
  else
    match s.trace (Engine.expression packages) with
    | (.ok graph, s) => (.ok (some graph), s)
    | (.error e, s) => (.error e, s)

/-- Bundles components and packages into one bundle (spec §4.3). -/
def group (s : Session ε) (components packages : List String) (saveAs : String) :
    Outcome ε (Option Target) :=
  let roots := components.map ComponentRoot.ofName
  let (traces, s) := s.traceAll (roots.map ComponentRoot.entry)
  match allTraced traces with
  | .error e => (.error e, s)
  | .ok graphs =>
    match s.traceVendor packages with
    | (.error e, s) => (.error e, s)
    | (.ok vendor, s) => commitGroup (roots.zip graphs) packages vendor saveAs s

def components (s : Session ε) (roots : List String) (saveAs : String) : Outcome ε (Option Target) :=
  finish "bundle_components" (s.group roots [] saveAs)

def bundle (s : Session ε) (components packages : List String) (saveAs : String) :
    Outcome ε (Option Target) :=
  finish "bundle" (s.group components packages saveAs)

def package (s : Session ε) (name : String) : Outcome ε (Option Target) :=
  finish "bundle_package" ((packagesPipeline [name] none).run s)

/-- Spec §4.3. -/
def packages (s : Session ε) (names : List String) (saveAs : Option String) :
    Outcome ε (Option Target) :=
  finish "bundle_packages" ((packagesPipeline names saveAs).run s)

/-! ## All that is missing -/

def hasBundleFor (s : Session ε) (root : String) : Bool :=
  s.config.hasBundle (Target.forRoot root s.options).id

/-- The entry files below the source root whose component has no bundle. -/
def pendingComponents (s : Session ε) : Except Failure (List String) :=
  match Discovery.entryFiles? s.disk s.options.basePath with
  | none => .error (.discovery "malformed pattern")
  | some entries => .ok (entries.filter fun e => !s.hasBundleFor (ComponentRoot.ofEntry e))

/-- Spec §4.3. -/
def remainingComponents (s : Session ε) : Outcome ε (List Target) :=
  finish "bundle_remaining_components" <|
    match s.pendingComponents with
    | .error e => (.error e, s)
    | .ok entries => s.runAll (entries.map componentPipeline)

/-- Whether a declared package can be bundled. -/
inductive Readiness where
  | bundled
  /-- It cannot, for this reason. -/
  | skipped (reason : String)
  | ready
  deriving DecidableEq, Repr

/-- Whether a package can be bundled: it has no bundle, a location, and a main file there. -/
def readiness (s : Session ε) (name : String) : Readiness :=
  if s.hasBundleFor name then .bundled
  else
    match s.config.mainFile? name s.options.baseUrl with
    | none => .skipped "no location in map/paths"
    | some main => if s.disk.exists? main then .ready else .skipped (main ++ " not installed")

/-- The reports about packages that cannot be bundled. -/
def skipReports (s : Session ε) (names : List String) : List Event :=
  names.filterMap fun name =>
    match s.readiness name with
    | .skipped reason => some (.packageSkipped name reason)
    | _ => none

def declaredPackages (disk : Disk) (path : String) : Except ManifestFailure (List String) :=
  match disk.readText path with
  | .error e => .error (.io path e.message)
  | .ok text =>
    match Manifest.parse? text with
    | none => .error (.json path "the manifest is no JSON of its form")
    | some manifest => manifest.dependencyNames path

/-- Bundles every declared package that is installed and has no bundle (spec §4.3). -/
def remainingPackages (s : Session ε) : Outcome ε (List Target) :=
  finish "bundle_remaining_packages" <|
    match declaredPackages s.disk s.options.manifest with
    | .error e => (.error (.manifest e), s)
    | .ok names =>
      let ready := names.filter fun name => s.readiness name = .ready
      let s := { s with events := s.events ++ s.skipReports names }
      s.runAll (ready.map fun name => packagesPipeline [name] none)

/-! ## The configuration -/

/-- The text of the configuration file as it would be saved (spec §11). -/
def render (s : Session ε) : String := s.config.render s.options.tab

/-- Writes the configuration, with the ledger, to its file; gives the path. Spec §4.3. -/
def saveConfig (s : Session ε) : Outcome ε String :=
  let path := s.options.systemJsConfig
  finish "save_config" <|
    match s.disk.write path s.render with
    | (.ok (), disk) => (.ok path, { s with disk }.emit (.configSaved path))
    | (.error e, disk) => (.error (.config (.io path e.message)), { s with disk })

end BundleLedger.Session
