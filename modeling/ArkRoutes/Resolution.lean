import ArkRoutes.Scope
import ArkRoutes.Source.Grammar

namespace ArkRoutes

inductive Finding where
  | value (value : Literal)
  | notLiteral
  /-- The owner is passed on from the module at this path. -/
  | redirected (path : Path)
deriving DecidableEq

namespace Finding

def ofResult : Except ResolveError Literal → Finding
  | .ok v => value v
  | .error _ => notLiteral

end Finding

namespace Query

def answer? (q : Query) (w : Surroundings) (s : Scope) : Event → Option Finding
  | .constant name value =>
    if name = q.owner then
      match q.attribute?, value with
      | none, value => some (.ofResult (s.value w value))
      | some a, .object properties =>
        (Expr.property? properties a).map fun e => .ofResult (s.value w e)
      | some _, _ => none
    else none
  | .opens name fields =>
    if name = q.owner then do
      let e ← fields.lookup (← q.attribute?)
      return .ofResult ((s.note (.opens name fields)).value w e)
    else none
  | .reexports names source =>
    if q.indexed && names.any (·.exported == q.owner) then
      match w.locate source with
      | .ok located => some (.redirected located.path)
      | .error _ => none
    else none
  | _ => none

def search (q : Query) (w : Surroundings) : Scope → List Event → Scope × Option Finding
  | s, [] => (s, none)
  | s, e :: rest =>
    match q.answer? w s e with
    | some finding => (s.note e, some finding)
    | none => q.search w (s.note e) rest

/-- Where the question goes next if the file does not answer it itself: to the module that the owner
is passed on from by name, or else to each module passed on as a whole. -/
def follow (q : Query) (w : Surroundings) (b : Bindings) (target? : Option Path) :
    Except ResolveError Literal :=
  match b.redirect? q.owner with
  | some r => do
    let located ← match target? with
      | some path => .ok ⟨path, false⟩
      | none => w.locate r.specifier
    w.ask located.path (q.redirected r.original located.isEntry)
  | none =>
    let answers := b.wholesale.findSome? fun specifier => do
      let located ← (w.locate specifier).toOption
      (w.ask located.path (q.redirected q.owner located.isEntry)).toOption
    match answers with
    | some v => .ok v
    | none => .error (.notFound q.describe w.path)

def answerFrom (q : Query) (w : Surroundings) (events : List Event) : Except ResolveError Literal :=
  match q.search w {} events with
  | (_, some (.value v)) => .ok v
  | (_, some .notLiteral) => .error (.notLiteral q.describe)
  | (s, some (.redirected path)) => q.follow w s.bindings (some path)
  | (s, none) => q.follow w s.bindings none

end Query

namespace FileTree

def events (t : FileTree) (path : Path) : Except ScanError (List Event) :=
  match t.read path with
  | .error cause => .error (.io path cause)
  | .ok content =>
    match content.decode with
    | .error fault => .error (.encoding fault)
    | .ok text => .ok (Source.events text)

def key (t : FileTree) (path : Path) : Path := (t.canonical path).toOption.getD path

end FileTree

namespace Resolution

variable (s : Settings) (t : FileTree)

def surroundings (path : Path) (ask : Path → Query → Except ResolveError Literal) : Surroundings :=
  ⟨s, path, Module.locate s t path.directory, ask⟩

/-- `depth` is how many more files the chain may hold. -/
def resolve : (depth : Nat) → (chain : List Path) → Path → Query → Except ResolveError Literal
  | depth, chain, path, q =>
    let key := t.key path
    if chain.any key.same then .error (.cycle key)
    else match depth with
      | 0 => .error (.depthExceeded s.depthLimit)
      | depth + 1 =>
        match t.events key with
        | .error cause => .error (.unreadable key cause)
        | .ok events => q.answerFrom (surroundings s t key (resolve depth (chain ++ [key]))) events

def room (chain : List Path) : Nat := s.depthLimit + 1 - chain.length

def query (chain : List Path) (path : Path) (q : Query) : Except ResolveError Literal :=
  resolve s t (room s chain) chain path q

def around (chain : List Path) (path : Path) : Surroundings := surroundings s t path (query s t chain)

end Resolution

end ArkRoutes
