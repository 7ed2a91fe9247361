import ArkRoutes.Module.Manifest
import ArkRoutes.ResolveError

namespace ArkRoutes

/-- A module's file. The entry file of a package stands for the package. -/
structure Located where
  path : Path
  isEntry : Bool
deriving DecidableEq

namespace Module

variable (s : Settings) (t : FileTree)

/-- The path itself or the path with an ending, whichever is a file first. -/
def exactFile? (path : Path) : Option Path :=
  (path :: s.extensions.map path.extended).find? t.isFile

def entryIn? (directory : Path) : Option Path :=
  (s.entryNames.map directory.child).find? t.isFile

def probe (path : Path) : Option Path :=
  exactFile? s t path <|> if t.isDirectory path then entryIn? s t path else none

def manifestDirectory? (start : Path) : Option Path :=
  start.ancestors.find? fun directory => t.isFile (directory.child s.manifestName)

def dependencyDirectory (directory : Path) (package : String) : Dependency → Path
  | .inDirectory path => directory.join path
  | .installed _ => (directory.child (s.stores.headD "oh_modules")).child package

def packageDirectory (start : Path) (package : String) : Except ResolveError Path :=
  match manifestDirectory? s t start with
  | none => .error (.noManifest start)
  | some directory =>
    let manifestPath := directory.child s.manifestName
    match Manifest.load t directory s.manifestName with
    | .error cause => .error (.unreadable manifestPath cause)
    | .ok none => .error (.noManifest directory)
    | .ok (some manifest) =>
      match manifest.dependency? package with
      | none => .error (.dependencyNotListed package manifestPath)
      | some text =>
        let target := dependencyDirectory s directory package (.ofText s.localMark text)
        if t.isDirectory target then .ok ((t.canonical target).toOption.getD target)
        else .error (.moduleNotFound package directory)

def mainFile? (directory : Path) : Option Path := do
  let manifest ← (Manifest.load t directory s.manifestName).toOption.join
  let main ← manifest.main?
  if Text.isBlankText main then none else exactFile? s t (directory.child main)

def entryFile? (directory : Path) : Option Path := mainFile? s t directory <|> entryIn? s t directory

def packageEntry (start : Path) (package : String) : Except ResolveError Path := do
  let directory ← packageDirectory s t start package
  match entryFile? s t directory with
  | some path => .ok path
  | none => .error (.moduleNotFound package directory)

/-- The package a specifier names, with its scope, and the path inside the package. -/
def splitSpecifier (specifier : String) : String × String :=
  let parts := Text.splitAt '/' specifier
  let n := if Text.beginsWith "@" specifier then 2 else 1
  (String.intercalate "/" (parts.take n), String.intercalate "/" (parts.drop n))

def inPackage? (directory : Path) (subpath : String) : Option Located :=
  if subpath = "" then (entryFile? s t directory).map (⟨·, true⟩)
  else (probe s t (directory.child subpath)).map (⟨·, false⟩)

def inStores? (start : Path) (package subpath : String) : Option Located :=
  (start.ancestors.flatMap fun above => s.stores.map fun store =>
    (above.child store).child package).findSome? fun directory =>
      if t.isDirectory directory then inPackage? s t directory subpath else none

def isRelative (specifier : String) : Bool :=
  specifier = "." || specifier = ".." || Text.beginsWith "./" specifier
    || Text.beginsWith "../" specifier

def candidate? (start : Path) (specifier : String) : Option Located :=
  if isRelative specifier || Path.isAbsolute ⟨specifier⟩ then
    (probe s t (start.child specifier)).map (⟨·, false⟩)
  else
    let (package, subpath) := splitSpecifier specifier
    match packageDirectory s t start package with
    | .ok directory => inPackage? s t directory subpath
    | .error _ => inStores? s t start package subpath

def locate (start : Path) (specifier : String) : Except ResolveError Located :=
  match candidate? s t start specifier with
  | some located => .ok located
  | none => .error (.moduleNotFound specifier start)

end Module

end ArkRoutes
