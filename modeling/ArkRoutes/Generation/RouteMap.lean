import ArkRoutes.Data.Json
import ArkRoutes.Generation.Entry

namespace ArkRoutes.Generation.RouteMap

open Data

structure Item where
  name : String
  pageSourceFile : String
  buildFunction : String
  moduleName : String
  login : String
  hasParam : String
  paramName : String
deriving DecidableEq

def flagText (b : Bool) : String := if b then "true" else "false"

def Item.ofEntry (moduleName pageSourceFile : String) (e : Entry) : Item :=
  ⟨e.name, pageSourceFile, e.buildFunction, moduleName, flagText e.login, flagText e.hasParam,
    e.paramName⟩

def Item.json (i : Item) : Json :=
  .object [("name", .string i.name), ("pageSourceFile", .string i.pageSourceFile),
    ("buildFunction", .string i.buildFunction),
    ("data", .object [("moduleName", .string i.moduleName), ("login", .string i.login),
      ("hasParam", .string i.hasParam), ("paramName", .string i.paramName)])]

def text (items : List Item) : String :=
  (Json.object [("routerMap", .array (items.map Item.json))]).pretty "\t"

end ArkRoutes.Generation.RouteMap
