import ArkRoutes.CommandLine.Help
import ArkRoutes.Data.Json
import ArkRoutes.EnvFile
import ArkRoutes.Generation.Generate
import ArkRoutes.Generation.Options.Load
import ArkRoutes.Settings.Load

namespace ArkRoutes

def malformedDetail : String := "the text does not have the expected shape"

def ScanError.causes (e : ScanError) : List String :=
  e.message :: match e with
    | .io _ cause => [cause.message]
    | .encoding fault => [fault.message]
    | .malformed _ => [malformedDetail]
    | .settings _ => []

def Generation.Error.causes (e : Generation.Error) : List String :=
  e.message :: match e with
    | .io _ cause => [cause.message]
    | .malformed _ => [malformedDetail]
    | .badParamName _ _ => []
    | .scan cause => cause.causes
    | .options _ => []

namespace CommandLine

structure Outcome where
  code : Nat := 0
  out : String := ""
  err : String := ""

def loadFailure (context : String) (causes : List String) : Outcome :=
  let listed := match causes with
    | [cause] => "    " ++ cause ++ "\n"
    | causes => String.join (causes.zipIdx.map fun (cause, n) =>
        "    " ++ toString n ++ ": " ++ cause ++ "\n")
  { code := 1, err := "Error: " ++ context ++ "\n\nCaused by:\n" ++ listed }

def failure (causes : List String) : Outcome :=
  { code := 1, err := "Error: " ++ String.intercalate ": " causes ++ "\n" }

def summaryText (s : Generation.Summary) : String :=
  let routes := s.entries.map fun e =>
    "  route " ++ e.name ++ " -> " ++ e.component ++ (if e.login then " (login)" else "") ++ "\n"
  let skipped := s.skippedFiles.map fun path => "  skipped " ++ path.shown ++ "\n"
  let last := match s.builderFile? with
    | some path =>
      "Generated " ++ toString s.entries.length ++ " routes from " ++ toString s.scannedFiles ++
        " files -> " ++ path.shown ++ "\n"
    | none => "No scan files configured; nothing generated.\n"
  String.join routes ++ String.join skipped ++ last

def routeJson (r : Route) : Data.Json :=
  .object [("routeName", .string r.name), ("componentName", .string r.component),
    ("sourceFilePath", .string r.file.shown), ("requiresLogin", .bool r.login),
    ("hasRouteParam", .bool r.hasParam), ("routeParamName", .string r.paramName)]

def scanFilesVariable : String := "ROUTER_SCAN_FILES"

/-- The environment, with what the nearest environment file adds to it. -/
def environment (t : FileTree) (env : EnvFile.Variables) : EnvFile.Variables :=
  let files := (FileTree.pathOf t.home).ancestors.map (·.child ".env")
  match (files.find? t.isFile).map t.readText with
  | some (.ok text) => EnvFile.extend env text
  | _ => env

def options (a : Arguments) (env : EnvFile.Variables) (o : Generation.Options) :
    Generation.Options :=
  let o := { o with
    modulePath := ((a.value? .modulePath).map Path.ofText).getD o.modulePath
    moduleName := (a.value? .moduleName).getD o.moduleName
    decoratorName := (a.value? .decoratorName).getD o.decoratorName
    mainTarget := o.mainTarget || a.has .mainTarget }
  let o := o.withScanFiles (String.intercalate "," (a.values .scanFile))
  match env.lookup scanFilesVariable with
  | some files => o.withScanFiles files
  | none => o

def runGenerate (a : Arguments) (env : EnvFile.Variables) (s : Settings) : StateM FileTree Outcome := do
  let t ← get
  let file? := (a.value? .optionsFile).map Path.ofText
  match file?.map fun path => (path, Generation.Options.load t path) with
  | some (path, .error e) => return loadFailure ("loading " ++ path.shown) e.causes
  | loaded =>
    let base := match loaded with
      | some (_, .ok o) => o
      | _ => {}
    match ← (Generation.generate (options a (environment t env) base) s).run with
    | .ok summary => return { out := summaryText summary }
    | .error e => return failure e.causes

def runScan (file : Path) (s : Settings) : StateM FileTree Outcome := do
  match s.fault? with
  | some fault => return failure (ScanError.settings fault).causes
  | none =>
    match (← get).scan s file with
    | .ok routes =>
      return { out := (Data.Json.array (routes.map routeJson)).pretty "  " ++ "\n" }
    | .error e => return failure (("scanning " ++ file.shown) :: e.causes)

def run (env : EnvFile.Variables) (args : List String) : StateM FileTree Outcome := do
  match Request.ofList args with
  | .error (.help level) => return { out := helpText level }
  | .error .version => return { out := versionText }
  | .error .misuse => return { code := 2, err := misuseText }
  | .ok request =>
    let a := request.arguments
    match Settings.loadOrDefault (← get) ((a.value? .settingsFile).map Path.ofText) with
    | .error e => return loadFailure "loading analyzer config" e.causes
    | .ok s =>
      let s := { s with traced := s.traced || a.has .traced }
      match request.command with
      | .generate => runGenerate a env s
      | .scan file => runScan file s

end CommandLine

end ArkRoutes
