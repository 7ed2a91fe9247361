import ArkRoutes.Generation.Error

namespace ArkRoutes.Generation.Options

def load (t : FileTree) (path : Path) : Except Error Options :=
  match t.readText path with
  | .error cause => .error (.io path cause)
  | .ok text =>
    match ofText? path text with
    | none => .error (.malformed path)
    | some o => .ok o

end ArkRoutes.Generation.Options
