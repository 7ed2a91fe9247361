import ArkRoutes.Source.Node.Events

namespace ArkRoutes.Source

/-- Takes an event, and says whether it breaks off with it. -/
abbrev Sink (σ : Type) := σ → Event → σ × Bool

structure Walk (σ : Type) where
  sink : σ
  stopped : Bool := false

namespace Walk

variable {σ : Type} (take : Sink σ)

def emit (w : Walk σ) (e : Event) : Walk σ :=
  if w.stopped then w
  else
    let (sink, stopped) := take w.sink e
    ⟨sink, stopped⟩

def emitAll (w : Walk σ) (events : List Event) : Walk σ := events.foldl (emit take) w

def thenGo (w : Walk σ) (go : Walk σ → Walk σ) : Walk σ := if w.stopped then w else go w

def decorators (w : Walk σ) : List Node → Walk σ
  | [] => w
  | d :: rest => if w.stopped then w else decorators (w.emitAll take d.decoration?.toList) rest

def type (w : Walk σ) (decorators : List Node) (name : String) (members : List Node) : Walk σ :=
  ((w.emit take (.opens name (members.filterMap Node.field?))).decorators take decorators).emit take .closes

end Walk

namespace Node

variable {σ : Type} (take : Sink σ)

mutual

def walk (topLevel : Bool) : Node → Walk σ → Walk σ
  | name t, w => w.emit take (.word t)
  | privateName t, w => w.emit take (.word t)
  | shorthand t, w => w.emit take (.word t)
  | numeral _, w => w
  | string _, w => w
  | flag _, w => w
  | member o p, w => (o.walk false w).thenGo fun w => p.walk false w
  | object entries, w => walkAll false entries w
  | binding target typing value, w =>
    ((target.walk false w).thenGo fun w => typing.walk false w).thenGo fun w => value.walk false w
  | computed _ key, w => key.walk false w
  | wrapped inner around, w => (inner.walk false w).thenGo fun w => around.walk false w
  | decorator callee, w => w.emit take (.decorator callee none)
  | decoratorCall callee args, w => w.emit take (.decorator callee (some (args.map expr)))
  | variableList bindings, w =>
    if topLevel then w.emitAll take (bindings.filterMap constant?) else walkAll false bindings w
  | classDecl own n members, w => w.type take own n members
  | enumDecl n members, w => w.type take [] n members
  | exported outer (classDecl own n members), w => w.type take (outer ++ own) n members
  | exported outer declaration, w =>
    declaration.walk topLevel (w.emitAll take (outer.filterMap decoration?))
  | importFrom names source, w => if names.isEmpty then w else w.emit take (.imports names source)
  | exportFrom names source, w => if names.isEmpty then w else w.emit take (.reexports names source)
  | exportAll source, w => w.emit take (.reexportsAll source)
  | recovered parts, w => walkAll topLevel parts w
  | form _ parts, w => walkAll false parts w

def walkAll (topLevel : Bool) : List Node → Walk σ → Walk σ
  | [], w => w
  | n :: rest, w => if w.stopped then w else walkAll topLevel rest (n.walk topLevel w)

end

end Node

/-- Keeps what it gets, and breaks off as soon as `breaks` says so of all that it has got. -/
def Sink.keeping (breaks : List Event → Bool) : Sink (List Event) :=
  fun kept e => (kept ++ [e], breaks (kept ++ [e]))

def delivered (breaks : List Event → Bool) (nodes : List Node) : List Event :=
  (Node.walkAll (Sink.keeping breaks) true nodes ⟨[], false⟩).sink

end ArkRoutes.Source
