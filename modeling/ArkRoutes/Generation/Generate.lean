import ArkRoutes.Generation.Builder
import ArkRoutes.Generation.Index
import ArkRoutes.Generation.RouteMap
import ArkRoutes.Scan

namespace ArkRoutes.Generation

structure Summary where
  scannedFiles : Nat := 0
  skippedFiles : List Path := []
  entries : List Entry := []
  builderFile? : Option Path := none
  routeMapFile? : Option Path := none
  indexUpdated : Bool := false
deriving DecidableEq

def entriesOf (t : FileTree) (o : Options) (s : Settings) (file : String) :
    Except ScanError (List Entry) := do
  let routes ← t.scan s (o.sourcePath file)
  return (routes.map (Entry.ofRoute o.builderDirectory)).filter Entry.isUsable

def survey (t : FileTree) (o : Options) (s : Settings) : Summary :=
  let found := o.scanFiles.map fun file => (o.sourcePath file, entriesOf t o s file)
  { scannedFiles := found.length
    skippedFiles := found.filterMap fun
      | (path, .error _) => some path
      | (_, .ok _) => none
    entries := found.flatMap fun
      | (_, .ok entries) => entries
      | (_, .error _) => [] }

def writeBuilder (o : Options) (entries : List Entry) : Disk Error Unit := do
  let text ← Builder.render o.moduleName o.libName entries
  match o.builderPath.parent? with
  | some directory => Disk.about directory (Disk.makeDirectories directory)
  | none => pure ()
  Disk.about o.builderPath (Disk.writeText o.builderPath text)

def writeRouteMap (o : Options) (entries : List Entry) : Disk Error Unit := do
  Disk.about o.routeMapDirectory (Disk.makeDirectories o.routeMapDirectory)
  let items := entries.map (RouteMap.Item.ofEntry o.moduleName o.pageSourceFile)
  Disk.about o.routeMapPath (Disk.writeText o.routeMapPath (RouteMap.text items))

def writeAll (o : Options) (s : Settings) : Disk Error Summary := do
  let summary := survey (← get) o s
  writeBuilder o summary.entries
  writeRouteMap o summary.entries
  let indexUpdated ← if o.mainTarget then pure false else Index.ensure o.indexPath o.indexLine
  return { summary with
    builderFile? := some o.builderPath
    routeMapFile? := some o.routeMapPath
    indexUpdated }

/-- Nothing is written when there is nothing to scan. -/
def generate (o : Options) (base : Settings) : Disk Error Summary := do
  match o.fault? with
  | some fault => throw (.options fault)
  | none =>
    if o.scanFiles.isEmpty then return {}
    else
      let s := o.settings base
      match s.fault? with
      | some fault => throw (.scan (.settings fault))
      | none => writeAll o s

end ArkRoutes.Generation
