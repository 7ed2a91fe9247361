import ArkRoutes.Data.Json5
import ArkRoutes.ScanError

namespace ArkRoutes.Settings

def ofText? (text : String) : Option Settings := (Data.Json5.parse? text).bind ofValue?

def load (t : FileTree) (path : Path) : Except ScanError Settings :=
  match t.readText path with
  | .error cause => .error (.io path cause)
  | .ok text =>
    match ofText? text with
    | none => .error (.malformed path)
    | some s =>
      match s.fault? with
      | some fault => .error (.settings fault)
      | none => .ok s

def loadOrDefault (t : FileTree) : Option Path → Except ScanError Settings
  | some path => load t path
  | none => .ok {}

end ArkRoutes.Settings
