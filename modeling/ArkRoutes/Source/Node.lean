import ArkRoutes.Event
import ArkRoutes.Source.Token

namespace ArkRoutes.Source

/-- A `form` is any construct that no route depends on, known by its kind and its parts in source order. -/
inductive Node where
  | name (text : String)
  | privateName (text : String)
  | numeral (text : String)
  | string (pieces : List Piece)
  | flag (value : Bool)
  | member (object property : Node)
  | object (entries : List Node)
  /-- A declarator, an object's `key: value`, an enum member or a static field. -/
  | binding (target : Node) (typing : Node) (value : Node)
  /-- An object's entry that is only a name. -/
  | shorthand (text : String)
  /-- A key in brackets, with its spelling. -/
  | computed (spelling : String) (key : Node)
  /-- An expression in parentheses, or with a type attached to it. -/
  | wrapped (inner : Node) (around : Node)
  | decorator (callee : String)
  | decoratorCall (callee : String) (args : List Node)
  | variableList (bindings : List Node)
  | classDecl (decorators : List Node) (name : String) (members : List Node)
  | enumDecl (name : String) (members : List Node)
  | exported (decorators : List Node) (declaration : Node)
  | importFrom (names : List ImportedName) (source : String)
  | exportFrom (names : List ReExport) (source : String)
  | exportAll (source : String)
  /-- Statements found while getting past something that fits no rule. -/
  | recovered (parts : List Node)
  | form (kind : String) (parts : List Node)

namespace Node

def nothing : Node := form "nothing" []

def uninitialized : Node := form "uninitialized" []

def automatic : Node := form "enum_member" []

end Node

end ArkRoutes.Source
