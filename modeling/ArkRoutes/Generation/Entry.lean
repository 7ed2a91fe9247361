import ArkRoutes.Path.Relative
import ArkRoutes.Route
import ArkRoutes.Text.Affix

namespace ArkRoutes

namespace Path

def importText (directory target : Path) : String :=
  let target := target.normalForm
  let steps := (between target directory.normalForm).getD target
  let joined := String.intercalate "/" (steps.map Component.shown)
  let stem := (Text.beforeTail? ".ets" joined).getD joined
  if Text.beginsWith ".." stem then stem else "./" ++ stem

end Path

namespace Generation

structure Entry where
  name : String
  component : String
  importPath : String
  buildFunction : String
  hasParam : Bool
  paramName : String
  login : Bool
deriving DecidableEq

def isIdentifierStart (c : Char) : Bool := c.isAlpha || c == '_' || c == '$'

def isIdentifier (s : String) : Bool :=
  match s.toList with
  | [] => false
  | c :: rest => isIdentifierStart c && rest.all fun d => isIdentifierStart d || d.isDigit

namespace Entry

def ofRoute (builderDirectory : Path) (r : Route) : Entry :=
  ⟨r.name, r.component, builderDirectory.importText r.file, r.component ++ "Builder", r.hasParam,
    r.paramName, r.login⟩

def isUsable (e : Entry) : Bool := !e.hasParam || isIdentifier e.paramName

end Entry

end Generation

end ArkRoutes
