import ArkRoutes.Query

namespace ArkRoutes

/-- The property of an object literal: of two with one key the later one counts. -/
def Expr.property? (properties : List (String × Expr)) (key : String) : Option Expr :=
  properties.reverse.lookup key

/-- Constants and types, the latest first. -/
structure Scope where
  bindings : Bindings := {}
  constants : List (String × Expr) := []
  types : List (String × List (String × Expr)) := []

namespace Scope

def note (s : Scope) : Event → Scope
  | .imports names source => { s with bindings := s.bindings.addImports names source }
  | .reexports names source => { s with bindings := s.bindings.addRedirects names source }
  | .reexportsAll source => { s with bindings := s.bindings.addWholesale source }
  | .constant name value => { s with constants := (name, value) :: s.constants }
  | .opens name fields => { s with types := (name, fields) :: s.types }
  | .closes => s
  | .decorator _ _ => s
  | .word _ => s

def member (s : Scope) (path : Path) (object member : String) : Except ResolveError Expr :=
  let e := Expr.member object member
  let found : Option Expr → Except ResolveError Expr
    | some value => .ok value
    | none => .error (.notFound e.describe path)
  match s.types.lookup object with
  | some fields => found (fields.lookup member)
  | none =>
    match s.constants.lookup object with
    | some (.object properties) => found (Expr.property? properties member)
    | some _ => .error (.notLiteral e.describe)
    | none => .error (.unbound object)

def constant (s : Scope) (name : String) : Except ResolveError Expr :=
  match s.constants.lookup name with
  | some value => .ok value
  | none => .error (.unbound name)

/-- `steps` bounds the number of references followed inside the file, the expression itself
included. -/
def evaluate (s : Scope) (w : Surroundings) : (steps : Nat) → Expr → Except ResolveError Literal
  | 0, _ => .error (.depthExceeded w.settings.depthLimit)
  | _ + 1, .literal v => .ok v
  | steps + 1, .name x =>
    if (s.bindings.import? x).isSome then w.imported s.bindings (.name x)
    else do s.evaluate w steps (← s.constant x)
  | steps + 1, .member o m =>
    if (s.bindings.import? o).isSome then w.imported s.bindings (.member o m)
    else do s.evaluate w steps (← s.member w.path o m)
  | _ + 1, .object properties => .error (.notLiteral (Expr.object properties).describe)
  | _ + 1, .other kind => .error (.notLiteral (Expr.other kind).describe)

def value (s : Scope) (w : Surroundings) (e : Expr) : Except ResolveError Literal :=
  s.evaluate w (w.settings.depthLimit + 1) e

end Scope

end ArkRoutes
