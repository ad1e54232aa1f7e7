/-!
# Options

The settings of a session, and layers that override some of them. A later layer wins.
-/
namespace BundleLedger

/-- The settings of a session (spec §10.3). -/
structure Options where
  /-- The directory that is searched for components. -/
  basePath : String := "build"
  /-- The directory that the targets of loader aliases are relative to. -/
  baseUrl : String := "."
  /-- What the bundle ids in the ledger begin with. -/
  bundlesBaseUrl : String := "bundles"
  /-- The directory that bundles are written to. -/
  dest : String := "build/bundles"
  /-- The loader configuration file. -/
  systemJsConfig : String := "config/system.js"
  /-- The project manifest. -/
  manifest : String := "package.json"
  sourceMaps : Bool := true
  minify : Bool := true
  cssOptimize : Bool := false
  /-- Whether the sources of a map are made relative to the bundle's directory. -/
  relativeSourceMaps : Bool := false
  /-- Whether the session starts with the ledger of the configuration file. -/
  keepExistingBundles : Bool := false
  /-- One level of indentation in the configuration file. -/
  tab : String := "  "
  /-- The engine's program. -/
  engine : String := "systemjs-engine"
  deriving DecidableEq, Repr

/-- A layer of settings; what is not set stays as it was. Spec §10.3. -/
structure OptionLayer where
  basePath : Option String := none
  baseUrl : Option String := none
  bundlesBaseUrl : Option String := none
  dest : Option String := none
  systemJsConfig : Option String := none
  manifest : Option String := none
  sourceMaps : Option Bool := none
  minify : Option Bool := none
  cssOptimize : Option Bool := none
  relativeSourceMaps : Option Bool := none
  keepExistingBundles : Option Bool := none
  tab : Option String := none
  engine : Option String := none
  deriving DecidableEq, Repr

namespace Options

/-- The options with what `layer` sets. -/
def override (o : Options) (layer : OptionLayer) : Options where
  basePath := layer.basePath.getD o.basePath
  baseUrl := layer.baseUrl.getD o.baseUrl
  bundlesBaseUrl := layer.bundlesBaseUrl.getD o.bundlesBaseUrl
  dest := layer.dest.getD o.dest
  systemJsConfig := layer.systemJsConfig.getD o.systemJsConfig
  manifest := layer.manifest.getD o.manifest
  sourceMaps := layer.sourceMaps.getD o.sourceMaps
  minify := layer.minify.getD o.minify
  cssOptimize := layer.cssOptimize.getD o.cssOptimize
  relativeSourceMaps := layer.relativeSourceMaps.getD o.relativeSourceMaps
  keepExistingBundles := layer.keepExistingBundles.getD o.keepExistingBundles
  tab := layer.tab.getD o.tab
  engine := layer.engine.getD o.engine

end Options

/-- A setting of a layer: a text or a truth value. -/
inductive Setting where
  | text (s : String)
  | flag (b : Bool)
  deriving DecidableEq, Repr

namespace OptionLayer

/-- The layer with one more setting; `none` for an unknown key or a setting of the wrong kind. -/
def set? (layer : OptionLayer) (key : String) (setting : Setting) : Option OptionLayer :=
  match key, setting with
  | "base_path", .text s => some { layer with basePath := some s }
  | "base_url", .text s => some { layer with baseUrl := some s }
  | "bundles_base_url", .text s => some { layer with bundlesBaseUrl := some s }
  | "dest", .text s => some { layer with dest := some s }
  | "system_js_config", .text s => some { layer with systemJsConfig := some s }
  | "manifest", .text s => some { layer with manifest := some s }
  | "source_maps", .flag b => some { layer with sourceMaps := some b }
  | "minify", .flag b => some { layer with minify := some b }
  | "css_optimize", .flag b => some { layer with cssOptimize := some b }
  | "relative_source_maps", .flag b => some { layer with relativeSourceMaps := some b }
  | "keep_existing_bundles", .flag b => some { layer with keepExistingBundles := some b }
  | "tab", .text s => some { layer with tab := some s }
  | "engine", .text s => some { layer with engine := some s }
  | _, _ => none

end OptionLayer

end BundleLedger
