import ArkRoutes.Generation.Options
import ArkRoutes.ScanError

namespace ArkRoutes.Generation

inductive Error where
  | io (path : Path) (cause : IoError)
  | malformed (path : Path)
  | badParamName (route paramName : String)
  | scan (cause : ScanError)
  | options (fault : Options.Fault)
deriving DecidableEq

def Error.message : Error → String
  | io path cause => "i/o error on " ++ path.shown ++ ": " ++ cause.message
  | malformed path => "invalid JSON5 in " ++ path.shown
  | badParamName route paramName =>
    "route `" ++ route ++ "`: `" ++ paramName ++ "` is not a valid parameter name"
  | scan cause => "analyzer error: " ++ cause.message
  | options fault => "config error: " ++ fault.message

end ArkRoutes.Generation
