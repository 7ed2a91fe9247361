import ArkRoutes.Source.Node

namespace ArkRoutes.Source.Node

def label : Node → String
  | name t => t
  | privateName t => t
  | numeral t => t
  | string pieces => Piece.textOf pieces
  | computed spelling _ => spelling
  | _ => ""

mutual

def expr : Node → Expr
  | name t => .name t
  | numeral _ => .other "number"
  | string pieces => .literal (.text (Piece.textOf pieces))
  | flag b => .literal (.flag b)
  | member (name o) (name m) => .member o m
  | member _ _ => .other "member_expression"
  | object entries => .object (properties entries)
  | wrapped inner _ => inner.expr
  | form kind _ => .other kind
  | _ => .other "expression"

def properties : List Node → List (String × Expr)
  | [] => []
  | binding key _ value :: rest => (key.label, value.expr) :: properties rest
  | shorthand n :: rest => (n, .name n) :: properties rest
  | _ :: rest => properties rest

end

def field? : Node → Option (String × Expr)
  | binding key _ value => some (key.label, value.expr)
  | _ => none

def constant? : Node → Option Event
  | binding (name n) _ value => some (.constant n value.expr)
  | _ => none

def decoration? : Node → Option Event
  | decorator callee => some (.decorator callee none)
  | decoratorCall callee args => some (.decorator callee (some (args.map expr)))
  | _ => none

def typeEvents (decorators : List Node) (name : String) (members : List Node) : List Event :=
  .opens name (members.filterMap field?) :: decorators.filterMap decoration? ++ [.closes]

mutual

/-- Variables are constants at the top level only: inside any form but a recovered one they leave their words. -/
def events (topLevel : Bool) : Node → List Event
  | name t => [.word t]
  | privateName t => [.word t]
  | shorthand t => [.word t]
  | numeral _ => []
  | string _ => []
  | flag _ => []
  | member o p => o.events false ++ p.events false
  | object entries => eventsAll false entries
  | binding target typing value => target.events false ++ typing.events false ++ value.events false
  | computed _ key => key.events false
  | wrapped inner around => inner.events false ++ around.events false
  | decorator callee => [.decorator callee none]
  | decoratorCall callee args => [.decorator callee (some (args.map expr))]
  | variableList bindings =>
    if topLevel then bindings.filterMap constant? else eventsAll false bindings
  | classDecl own n members => typeEvents own n members
  | enumDecl n members => typeEvents [] n members
  | exported outer (classDecl own n members) => typeEvents (outer ++ own) n members
  | exported outer declaration => outer.filterMap decoration? ++ declaration.events topLevel
  | importFrom names source => if names.isEmpty then [] else [.imports names source]
  | exportFrom names source => if names.isEmpty then [] else [.reexports names source]
  | exportAll source => [.reexportsAll source]
  | recovered parts => eventsAll topLevel parts
  | form _ parts => eventsAll false parts

def eventsAll (topLevel : Bool) : List Node → List Event
  | [] => []
  | n :: rest => n.events topLevel ++ eventsAll topLevel rest

end

end ArkRoutes.Source.Node
