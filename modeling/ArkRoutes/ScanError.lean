import ArkRoutes.FileTree
import ArkRoutes.Settings

namespace ArkRoutes

inductive ScanError where
  | io (path : Path) (cause : IoError)
  | encoding (fault : Text.Utf8.Fault)
  | malformed (path : Path)
  | settings (fault : Settings.Fault)
deriving DecidableEq

def ScanError.message : ScanError → String
  | io path cause => "failed to read " ++ path.shown ++ ": " ++ cause.message
  | encoding fault => "utf8 error: " ++ fault.message
  | malformed path => "invalid JSON5 in " ++ path.shown
  | settings fault => "config error: " ++ fault.message

end ArkRoutes
