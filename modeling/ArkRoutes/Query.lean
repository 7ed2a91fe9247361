import ArkRoutes.Bindings
import ArkRoutes.Module.Locate

namespace ArkRoutes

/-- Asks for a constant, or for an attribute of a type or object. A question to a package's entry
file is `indexed`: there the first module that the owner is passed on from answers it. -/
structure Query where
  owner : String
  attribute? : Option String := none
  indexed : Bool := false
deriving DecidableEq

namespace Query

def describe (q : Query) : String :=
  match q.attribute? with
  | some a => q.owner ++ "." ++ a
  | none => q.owner

def redirected (q : Query) (original : String) (indexed : Bool) : Query :=
  { q with owner := original, indexed := indexed }

end Query

inductive Reference where
  | name (name : String)
  | member (object member : String)
deriving DecidableEq

def Reference.subject : Reference → String
  | name n => n
  | member o _ => o

/-- The question that a reference to an import asks of its module. A module as a whole is no
literal, but its members are its exports. -/
def ImportedName.query (n : ImportedName) : Reference → Except ResolveError Query
  | .name x => if n.isEverything then .error (.notLiteral x) else .ok { owner := n.exportedName }
  | .member _ m =>
    if n.isEverything then .ok { owner := m }
    else .ok { owner := n.exportedName, attribute? := some m }

structure Surroundings where
  settings : Settings
  path : Path
  locate : String → Except ResolveError Located
  ask : Path → Query → Except ResolveError Literal

def Surroundings.imported (w : Surroundings) (b : Bindings) (r : Reference) :
    Except ResolveError Literal := do
  match b.import? r.subject with
  | none => .error (.unbound r.subject)
  | some binding =>
    let q ← binding.name.query r
    let located ← w.locate binding.specifier
    w.ask located.path { q with indexed := located.isEntry }

end ArkRoutes
