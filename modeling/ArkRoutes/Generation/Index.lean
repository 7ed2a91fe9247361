import ArkRoutes.Generation.Error

namespace ArkRoutes

namespace Disk

def about {α : Type} (path : Path) (d : Disk IoError α) : Disk Generation.Error α :=
  ExceptT.adapt (.io path) d

end Disk

namespace Generation.Index

def content (t : FileTree) (path : Path) : Except IoError String :=
  match t.readText path with
  | .error .notFound => .ok ""
  | result => result

/-- Writes `line` behind the file's content unless it occurs there; says whether it wrote. -/
def ensure (path : Path) (line : String) : Disk Error Bool := do
  let old ← match content (← get) path with
    | .ok old => pure old
    | .error cause => throw (.io path cause)
  if Text.contains old line then return false
  else
    Disk.about path (Disk.writeText path (old ++ "\n" ++ line))
    return true

end Generation.Index

end ArkRoutes
