import ArkRoutes.Data.Record
import ArkRoutes.Text.Affix
import ArkRoutes.Text.Blank

namespace ArkRoutes

structure Decorator where
  name : String := "AppRouter"
  routeNameKey : String := "name"
  loginKey : String := "login"
  hasParamKey : String := "hasParam"
  paramNameKey : String := "paramName"
deriving DecidableEq

structure Settings where
  decorator : Decorator := {}
  /-- The word before the name of a routed component. -/
  keyword : String := "struct"
  /-- Endings tried behind a module's path, in order of preference. -/
  extensions : List String := [".ets", ".ts", ".js"]
  entryStem : String := "Index"
  manifestName : String := "oh-package.json5"
  /-- Directories that hold installed packages. -/
  stores : List String := ["oh_modules", "node_modules"]
  /-- What a dependency on a local directory begins with. -/
  localMark : String := "file:"
  /-- How many files one resolution may visit. -/
  depthLimit : Nat := 8
  traced : Bool := false
deriving DecidableEq

namespace Settings

inductive Fault where
  | blankDecorator (key : String)
  | blankKeyword
  | noExtension
  | badExtension (extension : String)
  | blankFileName
  | shallow (limit : Nat)
deriving DecidableEq

def Fault.message : Fault → String
  | blankDecorator key => "`decorator." ++ key ++ "` must not be empty"
  | blankKeyword => "`declarationKeyword` must not be empty"
  | noExtension => "`sourceExtensions` must list at least one extension"
  | badExtension e => "source extension `" ++ e ++ "` must start with '.'"
  | blankFileName => "`entryFileStem` and `manifestFileName` must not be empty"
  | shallow limit => "`maxResolveDepth` must be at least 2, got " ++ toString limit

def decoratorTexts (d : Decorator) : List (String × String) :=
  [("name", d.name), ("routeNameKey", d.routeNameKey), ("loginKey", d.loginKey),
    ("hasParamKey", d.hasParamKey), ("paramNameKey", d.paramNameKey)]

def fault? (s : Settings) : Option Fault :=
  match (decoratorTexts s.decorator).find? fun (_, text) => Text.isBlankText text with
  | some (key, _) => some (.blankDecorator key)
  | none =>
    if Text.isBlankText s.keyword then some .blankKeyword
    else if s.extensions.isEmpty then some .noExtension
    else match s.extensions.find? fun e => !Text.beginsWith "." e with
      | some e => some (.badExtension e)
      | none =>
        if Text.isBlankText s.entryStem || Text.isBlankText s.manifestName then some .blankFileName
        else if s.depthLimit < 2 then some (.shallow s.depthLimit)
        else none

/-- The names an entry file may have, in order of preference: as given, then in small letters. -/
def entryNames (s : Settings) : List String :=
  let small := String.ofList (s.entryStem.toList.map Char.toLower)
  ([s.entryStem, small].flatMap fun stem => s.extensions.map (stem ++ ·)).foldl
    (fun names n => if names.contains n then names else names ++ [n]) []

open Data

def decoratorFields : List (Data.Field Decorator) :=
  [Record.field "name" Value.text? fun v d => { d with name := v },
    Record.field "routeNameKey" Value.text? fun v d => { d with routeNameKey := v },
    Record.field "loginKey" Value.text? fun v d => { d with loginKey := v },
    Record.field "hasParamKey" Value.text? fun v d => { d with hasParamKey := v },
    Record.field "paramNameKey" Value.text? fun v d => { d with paramNameKey := v }]

def fields : List (Data.Field Settings) :=
  [Record.field "decorator" (Record.read? decoratorFields {}) fun v s => { s with decorator := v },
    Record.field "declarationKeyword" Value.text? fun v s => { s with keyword := v },
    Record.field "sourceExtensions" Value.texts? fun v s => { s with extensions := v },
    Record.field "entryFileStem" Value.text? fun v s => { s with entryStem := v },
    Record.field "manifestFileName" Value.text? fun v s => { s with manifestName := v },
    Record.field "moduleStores" Value.texts? fun v s => { s with stores := v },
    Record.field "localDependencyPrefix" Value.text? fun v s => { s with localMark := v },
    Record.field "maxResolveDepth" Value.count? fun v s => { s with depthLimit := v },
    Record.field "traceResolution" Value.flag? fun v s => { s with traced := v }]

def ofValue? (v : Value) : Option Settings := Record.read? fields {} v

end Settings

end ArkRoutes
