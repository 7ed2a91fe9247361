import ArkRoutes.Data.Json5
import ArkRoutes.Path
import ArkRoutes.Settings

namespace ArkRoutes.Generation

open Data

structure Options where
  moduleName : String := ""
  /-- Every other path starts here. -/
  modulePath : Path := ⟨"."⟩
  /-- The main module of an application exports nothing. -/
  mainTarget : Bool := false
  libName : String := "autorouter"
  builderDir : String := "src/main/ets/auto_router_generated"
  builderFile : String := "RouterBuilder.ets"
  routeMapDir : String := "src/main/resources/base/profile"
  decoratorName : String := "AppRouter"
  keywords : List String := ["struct"]
  scanFiles : List String := []
deriving DecidableEq

namespace Options

inductive Fault where
  | blankModuleName
  | blankBuilderFile
  | noKeyword
deriving DecidableEq

def Fault.message : Fault → String
  | blankModuleName => "`moduleName` must not be empty"
  | blankBuilderFile => "`builderFileName` must not be empty"
  | noKeyword => "`viewKeyword` must hold at least one keyword"

def fault? (o : Options) : Option Fault :=
  if Text.isBlankText o.moduleName then some .blankModuleName
  else if Text.isBlankText o.builderFile then some .blankBuilderFile
  else if o.keywords.all Text.isBlankText then some .noKeyword
  else none

def fields : List (Data.Field Options) :=
  [Record.field "moduleName" Value.text? fun v o => { o with moduleName := v },
    Record.field "modulePath" Value.text? fun v o => { o with modulePath := ⟨v⟩ },
    Record.field "mainTarget" Value.flag? fun v o => { o with mainTarget := v },
    Record.field "libName" Value.text? fun v o => { o with libName := v },
    Record.field "builderDir" Value.text? fun v o => { o with builderDir := v },
    Record.field "builderFileName" Value.text? fun v o => { o with builderFile := v },
    Record.field "routerMapDir" Value.text? fun v o => { o with routeMapDir := v },
    Record.field "annotation" Value.text? fun v o => { o with decoratorName := v },
    Record.field "viewKeyword" Value.texts? fun v o => { o with keywords := v },
    Record.field "scanFiles" Value.texts? fun v o => { o with scanFiles := v }]

def ofValue? (v : Value) : Option Options := Record.read? fields {} v

/-- A relative module path in a file is relative to that file. -/
def ofText? (file : Path) (text : String) : Option Options := do
  let o ← (Json5.parse? text).bind ofValue?
  match file.parent? with
  | some directory => return { o with modulePath := directory.join o.modulePath }
  | none => return o

def listed (text : String) : List String :=
  ((Text.splitAt ',' text).map Text.trim).filter (· != "")

def addScanFile (files : List String) (file : String) : List String :=
  if files.contains file then files else files ++ [file]

def withScanFiles (o : Options) (text : String) : Options :=
  { o with scanFiles := (listed text).foldl addScanFile o.scanFiles }

def settings (o : Options) (base : Settings) : Settings :=
  { base with
    decorator := { base.decorator with name := o.decoratorName }
    keyword := (o.keywords.find? (!Text.isBlankText ·)).getD base.keyword }

def builderDirectory (o : Options) : Path := o.modulePath.child o.builderDir

def builderPath (o : Options) : Path := o.builderDirectory.child o.builderFile

def routeMapDirectory (o : Options) : Path := o.modulePath.child o.routeMapDir

def routeMapPath (o : Options) : Path := o.routeMapDirectory.child "route_map.json"

def indexPath (o : Options) : Path := o.modulePath.child "Index.ets"

def pageSourceFile (o : Options) : String :=
  Text.withoutTrailingSlashes o.builderDir ++ "/" ++ o.builderFile

def indexLine (o : Options) : String :=
  "export * from './" ++ Text.withoutTrailingSlashes o.builderDir ++ "/" ++
    (Text.beforeTail? ".ets" o.builderFile).getD o.builderFile ++ "';"

def sourcePath (o : Options) (file : String) : Path :=
  o.modulePath.child (if Text.endsWith ".ets" file then file else file ++ ".ets")

end Options

end ArkRoutes.Generation
