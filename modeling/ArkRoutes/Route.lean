import ArkRoutes.Path

namespace ArkRoutes

structure Route where
  name : String
  component : String
  file : Path
  login : Bool
  hasParam : Bool
  paramName : String
deriving DecidableEq

structure Draft where
  component? : Option String := none
  name? : Option String := none
  login : Bool := false
  hasParam : Bool := false
  paramName : String := "routerParam"
deriving DecidableEq

namespace Draft

def isNamed (d : Draft) : Bool := d.name?.any (· != "")

/-- A draft is a route once both of its names are known and not empty. -/
def route? (d : Draft) (file : Path) : Option Route :=
  match d.name?, d.component? with
  | some name, some component =>
    if name = "" || component = "" then none
    else some ⟨name, component, file, d.login, d.hasParam, d.paramName⟩
  | _, _ => none

end Draft

end ArkRoutes
