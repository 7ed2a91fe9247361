import ArkRoutes.Generation.Entry
import ArkRoutes.Generation.Error

namespace ArkRoutes.Generation.Builder

def escaped : List Char → List Char
  | [] => []
  | c :: rest => if c = '\\' || c = '\'' then '\\' :: c :: escaped rest else c :: escaped rest

def quoted (s : String) : String := "'" ++ String.ofList (escaped s.toList) ++ "'"

structure Import where
  path : String
  components : List String
deriving DecidableEq

def addImport (path component : String) : List Import → List Import
  | [] => [⟨path, [component]⟩]
  | i :: rest =>
    if i.path = path then
      if i.components.contains component then i :: rest
      else ⟨path, i.components ++ [component]⟩ :: rest
    else i :: addImport path component rest

def imports (entries : List Entry) : List Import :=
  entries.foldl (fun is e => addImport e.importPath e.component is) []

def importLine (names : List String) (path : String) : String :=
  "import \x7b " ++ String.intercalate ", " names ++ " \x7d from '" ++ path ++ "';"

def signatureLine (e : Entry) : String :=
  let parameter := if e.hasParam then e.paramName ++ ": ESObject" else ""
  "export function " ++ e.buildFunction ++ "(" ++ parameter ++ ") \x7b"

def callLine (e : Entry) : String :=
  let argument := if e.hasParam then "\x7b " ++ e.paramName ++ ": " ++ e.paramName ++ " \x7d" else ""
  "  " ++ e.component ++ "(" ++ argument ++ ")"

def functionLines (e : Entry) : List String :=
  ["", "@Builder", signatureLine e, callLine e, "\x7d"]

def registerLine (e : Entry) : String :=
  "  AppRouterRegistry.register(" ++ quoted e.name ++ ", wrapBuilder(" ++ e.buildFunction ++ "), " ++
    (if e.login then "true" else "false") ++ ");"

def lines (moduleName libName : String) (entries : List Entry) : List String :=
  ["// Generated by auto-router-gen for module `" ++ moduleName ++ "`. Do not edit.",
    importLine ["AppRouterRegistry"] libName]
  ++ (imports entries).map (fun i => importLine i.components i.path)
  ++ entries.flatMap functionLines
  ++ ["", "export function registerRoutes(): void \x7b"]
  ++ entries.map registerLine
  ++ ["\x7d"]

def text (moduleName libName : String) (entries : List Entry) : String :=
  String.join ((lines moduleName libName entries).map (· ++ "\n"))

def render (moduleName libName : String) (entries : List Entry) : Except Error String :=
  match entries.find? (!·.isUsable) with
  | some e => .error (.badParamName e.name e.paramName)
  | none => .ok (text moduleName libName entries)

end ArkRoutes.Generation.Builder
