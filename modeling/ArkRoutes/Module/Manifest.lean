import ArkRoutes.Data.Json5
import ArkRoutes.ScanError
import ArkRoutes.Text.Blank

namespace ArkRoutes

open Data

/-- Keys in ascending order, each once, with the last value given for it. -/
abbrev Table := List (String × Value)

namespace Table

def insert (key : String) (value : Value) : Table → Table
  | [] => [(key, value)]
  | (k, v) :: rest =>
    if key = k then (key, value) :: rest
    else if key < k then (key, value) :: (k, v) :: rest
    else (k, v) :: insert key value rest

def ofValue? : Value → Option Table
  | .object pairs =>
    if Value.fieldsAreSound pairs then some (pairs.foldl (fun t (k, v) => t.insert k v) [])
    else none
  | _ => none

end Table

inductive Dependency where
  | installed (version : String)
  | inDirectory (path : Path)
deriving DecidableEq

def Dependency.ofText (localMark text : String) : Dependency :=
  match Text.afterLead? localMark text with
  | some rest => .inDirectory ⟨Text.trim rest⟩
  | none => .installed text

structure Manifest where
  name? : Option String := none
  main? : Option String := none
  dependencies : Table := []
  devDependencies : Table := []

namespace Manifest

def fields : List (Data.Field Manifest) :=
  [Record.field "name" Value.optionalText? fun v m => { m with name? := v },
    Record.field "main" Value.optionalText? fun v m => { m with main? := v },
    Record.field "dependencies" Table.ofValue? fun v m => { m with dependencies := v },
    Record.field "devDependencies" Table.ofValue? fun v m => { m with devDependencies := v }]

def ofText? (text : String) : Option Manifest :=
  (Json5.parse? text).bind (Record.read? fields {})

/-- The text a package is listed with; development dependencies come second. -/
def dependency? (m : Manifest) (package : String) : Option String :=
  (m.dependencies.lookup package <|> m.devDependencies.lookup package).bind Value.text?

/-- A directory without a manifest is no fault. -/
def load (t : FileTree) (directory : Path) (fileName : String) :
    Except ScanError (Option Manifest) :=
  let path := directory.child fileName
  match t.readText path with
  | .error .notFound => .ok none
  | .error cause => .error (.io path cause)
  | .ok text =>
    match ofText? text with
    | some m => .ok (some m)
    | none => .error (.malformed path)

end Manifest

end ArkRoutes
