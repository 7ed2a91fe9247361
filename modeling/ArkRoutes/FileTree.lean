import ArkRoutes.Path

namespace ArkRoutes

inductive IoError where
  | notFound
  | notADirectory
  | isADirectory
  | alreadyExists
  | invalidText
deriving DecidableEq

def IoError.message : IoError → String
  | notFound => "No such file or directory (os error 2)"
  | notADirectory => "Not a directory (os error 20)"
  | isADirectory => "Is a directory (os error 21)"
  | alreadyExists => "File exists (os error 17)"
  | invalidText => "stream did not contain valid UTF-8"

/-- The names from the root down. -/
abbrev Place := List Bytes

/-- A file holds a text, or bytes that are read as one when asked. -/
inductive Content where
  | text (text : String)
  | bytes (bytes : List UInt8)
deriving DecidableEq

def Content.decode : Content → Except Text.Utf8.Fault String
  | text t => .ok t
  | bytes b => Text.Utf8.decode b

inductive Entry where
  | file (content : Content)
  | directory
deriving DecidableEq

structure FileTree where
  /-- Where relative paths start. -/
  home : Place
  entries : List (Place × Entry)

namespace FileTree

def find? (t : FileTree) (place : Place) : Option Entry :=
  if place = [] then some .directory else t.entries.lookup place

def put (place : Place) (entry : Entry) : List (Place × Entry) → List (Place × Entry)
  | [] => [(place, entry)]
  | (q, e) :: rest => if q = place then (place, entry) :: rest else (q, e) :: put place entry rest

def insert (t : FileTree) (place : Place) (entry : Entry) : FileTree :=
  { t with entries := put place entry t.entries }

def step (t : FileTree) (here : Place) (segment : Bytes) : Except IoError Place :=
  match t.find? here with
  | none => .error .notFound
  | some (.file _) => .error .notADirectory
  | some .directory =>
    if segment = [] || segment = "." then .ok here
    else if segment = ".." then .ok here.dropLast
    else if (t.find? (here ++ [segment])).isSome then .ok (here ++ [segment])
    else .error .notFound

def follow (t : FileTree) (start : Place) (segments : List Bytes) : Except IoError Place :=
  segments.foldlM t.step start

def start (t : FileTree) (p : Path) : Place := if p.isAbsolute then [] else t.home

/-- `..` goes through directories that are there, and a file has nothing below it. -/
def locate (t : FileTree) (p : Path) : Except IoError Place :=
  if p.text = [] then .error .notFound else t.follow (t.start p) p.segments

def entry (t : FileTree) (p : Path) : Except IoError Entry := do
  match t.find? (← t.locate p) with
  | some e => .ok e
  | none => .error .notFound

def isFile (t : FileTree) (p : Path) : Bool :=
  match t.entry p with
  | .ok (.file _) => true
  | _ => false

def isDirectory (t : FileTree) (p : Path) : Bool :=
  match t.entry p with
  | .ok .directory => true
  | _ => false

def pathOf (place : Place) : Path := ⟨Path.slash :: [Path.slash].intercalate place⟩

def canonical (t : FileTree) (p : Path) : Except IoError Path := (t.locate p).map pathOf

def read (t : FileTree) (p : Path) : Except IoError Content := do
  match ← t.entry p with
  | .file content => .ok content
  | .directory => .error .isADirectory

def readText (t : FileTree) (p : Path) : Except IoError String := do
  match (← t.read p).decode with
  | .ok text => .ok text
  | .error _ => .error .invalidText

/-- The directory that holds the last segment of `p`, and that segment; slashes at the end of `p`
are passed over. -/
def slot (t : FileTree) (p : Path) : Except IoError (Place × Bytes) :=
  if p.text = [] then .error .notFound
  else match p.segments.reverse.dropWhile (· = []) with
    | [] => .ok ([], ".")
    | last :: before => do
      let place ← t.follow (t.start p) before.reverse
      match t.find? place with
      | some .directory => .ok (place, last)
      | some (.file _) => .error .notADirectory
      | none => .error .notFound

def isDotted (segment : Bytes) : Bool := segment = "." || segment = ".."

def makeDirectory (t : FileTree) (p : Path) : Except IoError FileTree := do
  let (place, last) ← t.slot p
  if isDotted last || (t.find? (place ++ [last])).isSome then .error .alreadyExists
  else .ok (t.insert (place ++ [last]) .directory)

def writeText (t : FileTree) (p : Path) (text : String) : Except IoError FileTree := do
  let (place, last) ← t.slot p
  if isDotted last || p.endsWithSlash then .error .isADirectory
  else match t.find? (place ++ [last]) with
    | some .directory => .error .isADirectory
    | _ => .ok (t.insert (place ++ [last]) (.file (.text text)))

end FileTree

/-- Work that reads and changes a tree; what was changed before a failure stays changed. -/
abbrev Disk (ε : Type) := ExceptT ε (StateM FileTree)

namespace Disk

def update (f : FileTree → Except IoError FileTree) : Disk IoError Unit := do
  match f (← get) with
  | .ok t => set t
  | .error e => throw e

def settle (p : Path) (e : IoError) : Disk IoError Unit := do
  if (← get).isDirectory p then pure () else throw e

/-- Makes the first directory of the list, after the missing ones above it. -/
def makeAll : List Path → Disk IoError Unit
  | [] => throw .notFound
  | p :: above => do
    if p.text = [] then return
    match (← get).makeDirectory p with
    | .ok t => set t
    | .error .notFound =>
      makeAll above
      match (← get).makeDirectory p with
      | .ok t => set t
      | .error e => settle p e
    | .error e => settle p e

def makeDirectories (p : Path) : Disk IoError Unit := makeAll p.ancestors

def writeText (p : Path) (text : String) : Disk IoError Unit := update (·.writeText p text)

end Disk

end ArkRoutes
