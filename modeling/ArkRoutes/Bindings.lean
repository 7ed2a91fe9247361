import ArkRoutes.Event

namespace ArkRoutes

structure ImportBinding where
  name : ImportedName
  specifier : String
deriving DecidableEq

namespace ImportedName

def localName : ImportedName → String
  | default l => l
  | everything l => l
  | named _ l => l

def exportedName : ImportedName → String
  | default l => l
  | everything l => l
  | named imported _ => imported

def isEverything : ImportedName → Bool
  | everything _ => true
  | _ => false

end ImportedName

structure Redirect where
  exported : String
  original : String
  specifier : String
deriving DecidableEq

/-- Later entries come first, except for the modules passed on as a whole. -/
structure Bindings where
  imports : List ImportBinding := []
  redirects : List Redirect := []
  wholesale : List String := []

namespace Bindings

def import? (b : Bindings) (localName : String) : Option ImportBinding :=
  b.imports.find? (·.name.localName == localName)

def redirect? (b : Bindings) (exported : String) : Option Redirect :=
  b.redirects.find? (·.exported == exported)

def addImports (b : Bindings) (names : List ImportedName) (specifier : String) : Bindings :=
  { b with imports := (names.map (⟨·, specifier⟩)).reverse ++ b.imports }

def addRedirects (b : Bindings) (names : List ReExport) (specifier : String) : Bindings :=
  { b with
    redirects := (names.map fun n => ⟨n.exported, n.original, specifier⟩).reverse ++ b.redirects }

def addWholesale (b : Bindings) (specifier : String) : Bindings :=
  if b.wholesale.contains specifier then b
  else { b with wholesale := b.wholesale ++ [specifier] }

end Bindings

end ArkRoutes
