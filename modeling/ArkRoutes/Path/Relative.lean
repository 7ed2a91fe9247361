import ArkRoutes.Path

namespace ArkRoutes.Path

/-- One more component on a stack whose top comes first. Going up removes whatever is on top, an
earlier `..` included; the root and the empty stack have nothing to remove. -/
def fold (stack : List Component) : Component → List Component
  | .here => stack
  | .up =>
    match stack with
    | [] => [.up]
    | [.root] => [.up, .root]
    | _ :: below => below
  | .root => [.root]
  | .name t => .name t :: stack

def normalForm (p : Path) : List Component := (p.components.foldl fold []).reverse

def isRooted : List Component → Bool
  | .root :: _ => true
  | _ => false

/-- The components that lead from `base` to `target` once both have the same root, unless a `..` of
`base` would have to be undone. -/
def stepsBetween : List Component → List Component → Option (List Component)
  | target, [] => some target
  | [], base => some (base.map fun _ => .up)
  | t :: target, b :: base =>
    if t = b then stepsBetween target base
    else if b = .up then none
    else some (.up :: base.map (fun _ => .up) ++ t :: target)

def between (target base : List Component) : Option (List Component) :=
  if isRooted target = isRooted base then stepsBetween target base
  else if isRooted target then some target
  else none

end ArkRoutes.Path
