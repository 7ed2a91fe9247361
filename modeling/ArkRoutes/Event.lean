import ArkRoutes.Expr

namespace ArkRoutes

inductive ImportedName where
  | default (localName : String)
  | everything (localName : String)
  | named (imported localName : String)
deriving DecidableEq

structure ReExport where
  original : String
  exported : String
deriving DecidableEq

/-- A type opens with its static fields and closes after its decorators; what is nothing else leaves its words. -/
inductive Event where
  | imports (names : List ImportedName) (source : String)
  | reexports (names : List ReExport) (source : String)
  | reexportsAll (source : String)
  | constant (name : String) (value : Expr)
  | opens (name : String) (fields : List (String × Expr))
  | closes
  /-- A decorator written without an argument list has no `args`. -/
  | decorator (callee : String) (args : Option (List Expr))
  | word (text : String)

end ArkRoutes
