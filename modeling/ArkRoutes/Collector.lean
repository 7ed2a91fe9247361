import ArkRoutes.Route
import ArkRoutes.Scope

namespace ArkRoutes

/-- A component declared by a keyword has its decorator first; a class has it last: name, decorator, end. -/
inductive Stage where
  | idle
  /-- A decorator has named a route whose component is still to come. -/
  | awaiting (draft : Draft) (keywordSeen : Bool)
  /-- Inside a type, whose decorator may name a route. -/
  | declaring (draft : Draft)
deriving DecidableEq

structure Collector where
  scope : Scope := {}
  stage : Stage := .idle
  routes : List Route := []

namespace Draft

/-- What one argument of the decorator says. An argument of the wrong kind says nothing. -/
def set (d : Draft) (keys : Decorator) (key : String) (v : Literal) : Draft :=
  if key = keys.routeNameKey then
    match v with
    | .text s => { d with name? := some s }
    | .flag _ => d
  else if key = keys.loginKey then
    match v with
    | .flag b => { d with login := b }
    | .text _ => d
  else if key = keys.hasParamKey then
    match v with
    | .flag b => { d with hasParam := b }
    | .text _ => d
  else if key = keys.paramNameKey then
    match v with
    | .text s => { d with paramName := s }
    | .flag _ => d
  else d

/-- The arguments in order; one without a value is passed over. -/
def apply (keys : Decorator) (value : Expr → Except ResolveError Literal) (d : Draft)
    (properties : List (String × Expr)) : Draft :=
  properties.foldl (fun d (key, e) =>
    match value e with
    | .ok v => d.set keys key v
    | .error _ => d) d

end Draft

namespace Collector

/-- The object that the route decorator is called with. -/
def routeArguments? (keys : Decorator) (callee : String) (args : Option (List Expr)) :
    Option (List (String × Expr)) :=
  match args with
  | some (.object properties :: _) => if callee = keys.name then some properties else none
  | _ => none

def publish (c : Collector) (file : Path) (d : Draft) : Collector :=
  { c with stage := .idle, routes := c.routes ++ (d.route? file).toList }

def onDecorator (c : Collector) (w : Surroundings) (properties : List (String × Expr)) :
    Collector :=
  let apply (d : Draft) := d.apply w.settings.decorator (c.scope.value w) properties
  match c.stage with
  | .declaring draft =>
    let d := apply draft
    if d.isNamed then c.publish w.path d else { c with stage := .declaring d }
  | _ =>
    let d := apply {}
    { c with stage := if d.isNamed then .awaiting d false else .idle }

def onWord (c : Collector) (w : Surroundings) (word : String) : Collector :=
  match c.stage with
  | .awaiting d keywordSeen =>
    if word = w.settings.keyword then { c with stage := .awaiting d true }
    else if keywordSeen then c.publish w.path { d with component? := some word }
    else c
  | _ => c

def onClose (c : Collector) : Collector :=
  match c.stage with
  | .declaring _ => { c with stage := .idle }
  | _ => c

def step (w : Surroundings) (c : Collector) (e : Event) : Collector :=
  let c := { c with scope := c.scope.note e }
  match e with
  | .opens name _ => { c with stage := .declaring { component? := some name } }
  | .closes => c.onClose
  | .decorator callee args =>
    match routeArguments? w.settings.decorator callee args with
    | some properties => c.onDecorator w properties
    | none => c
  | .word text => c.onWord w text
  | _ => c

def run (w : Surroundings) (events : List Event) : Collector := events.foldl (step w) {}

end Collector

end ArkRoutes
