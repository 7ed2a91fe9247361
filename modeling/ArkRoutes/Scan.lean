import ArkRoutes.Collector
import ArkRoutes.Resolution

namespace ArkRoutes

namespace FileTree

/-- Only the entry file itself can make a scan fail; an argument that cannot be resolved costs at
most its own route. -/
def scan (t : FileTree) (s : Settings) (entry : Path) : Except ScanError (List Route) :=
  match t.canonical entry with
  | .error cause => .error (.io entry cause)
  | .ok key => do
    let events ← t.events entry
    return (Collector.run (Resolution.around s t [key] entry) events).routes

end FileTree

end ArkRoutes
