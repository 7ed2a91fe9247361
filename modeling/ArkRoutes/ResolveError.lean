import ArkRoutes.ScanError

namespace ArkRoutes

inductive ResolveError where
  | unbound (name : String)
  | moduleNotFound (specifier : String) (directory : Path)
  | noManifest (directory : Path)
  | dependencyNotListed (package : String) (manifest : Path)
  | notFound (symbol : String) (file : Path)
  | notLiteral (symbol : String)
  | cycle (file : Path)
  | depthExceeded (limit : Nat)
  | unreadable (file : Path) (cause : ScanError)
deriving DecidableEq

def ResolveError.message : ResolveError → String
  | unbound name => "`" ++ name ++ "` is neither imported nor declared earlier in this file"
  | moduleNotFound specifier directory =>
    "module `" ++ specifier ++ "` not found from " ++ directory.shown
  | noManifest directory => "no manifest found at or above " ++ directory.shown
  | dependencyNotListed package manifest =>
    "package `" ++ package ++ "` is not listed in " ++ manifest.shown
  | notFound symbol file => "`" ++ symbol ++ "` is not declared in " ++ file.shown
  | notLiteral symbol => "`" ++ symbol ++ "` is not a string or boolean literal"
  | cycle file => "cyclic resolution re-enters " ++ file.shown
  | depthExceeded limit => "resolution depth limit " ++ toString limit ++ " exceeded"
  | unreadable file cause => "cannot scan " ++ file.shown ++ ": " ++ cause.message

end ArkRoutes
