import ArkRoutes.Text.Utf8

namespace ArkRoutes

abbrev Bytes := List UInt8

instance : Coe String Bytes := ⟨Text.Utf8.encode⟩

/-- A path keeps the bytes that it was written with, which need not be those of a text. -/
structure Path where
  text : Bytes
deriving DecidableEq, Inhabited

inductive Component where
  | root
  | here
  | up
  | name (text : Bytes)
deriving DecidableEq

namespace Component

def text : Component → Bytes
  | root => "/"
  | here => "."
  | up => ".."
  | name t => t

def shown (c : Component) : String := Text.Utf8.decodeLossy c.text

def ofInner? (segment : Bytes) : Option Component :=
  if segment = [] || segment = "." then none
  else if segment = ".." then some up
  else some (name segment)

end Component

namespace Path

def ofText (text : String) : Path := ⟨text⟩

def slash : UInt8 := 0x2F

def segments (p : Path) : List Bytes := p.text.splitOn slash

def isAbsolute (p : Path) : Bool := p.text.head? == some slash

def endsWithSlash (p : Path) : Bool := p.text.getLast? == some slash

def shown (p : Path) : String := Text.Utf8.decodeLossy p.text

def components (p : Path) : List Component :=
  match p.segments with
  | [] => []
  | first :: rest =>
    let lead : List Component :=
      if first = [] then if p.isAbsolute then [.root] else []
      else if first = "." then [.here]
      else if first = ".." then [.up]
      else [.name first]
    lead ++ rest.filterMap Component.ofInner?

def same (p q : Path) : Bool := p.components == q.components

/-- An absolute right side replaces the left one; nothing is normalized. -/
def join (p q : Path) : Path :=
  if q.isAbsolute then q
  else if p.text = [] || p.endsWithSlash then ⟨p.text ++ q.text⟩
  else ⟨p.text ++ slash :: q.text⟩

def child (p : Path) (text : String) : Path := p.join ⟨text⟩

/-- The path as it is shown, with `ending` written behind it. -/
def extended (p : Path) (ending : String) : Path := ⟨p.shown ++ ending⟩

def isIdle (segment : Bytes) : Bool := segment = [] || segment = "."

def ofSegments : List Bytes → Path
  | [[]] => ⟨"/"⟩
  | segments => ⟨[slash].intercalate segments⟩

def parent? (p : Path) : Option Path :=
  match p.segments with
  | [] => none
  | first :: rest =>
    match rest.reverse.dropWhile isIdle with
    | _ :: before => some (ofSegments (first :: (before.dropWhile isIdle).reverse))
    | [] => if first = [] then none else some ⟨[]⟩

def directory (p : Path) : Path := p.parent?.getD ⟨"."⟩

def climb : Nat → Path → List Path
  | 0, p => [p]
  | n + 1, p =>
    match p.parent? with
    | none => [p]
    | some q => p :: climb n q

def ancestors (p : Path) : List Path := climb p.text.length p

end Path

end ArkRoutes
