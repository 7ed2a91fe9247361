import ArkRoutes.Path
import ArkRoutes.Text.Affix

namespace ArkRoutes.CommandLine

inductive Level where
  | program
  | generate
  | scan
deriving DecidableEq

inductive Switch where
  | settingsFile
  | traced
  | optionsFile
  | modulePath
  | moduleName
  | scanFile
  | mainTarget
  | decoratorName
  | help
  | version
deriving DecidableEq

namespace Switch

def ofLong? : String → Option Switch
  | "analyzer-config" => some settingsFile
  | "trace-resolution" => some traced
  | "config" => some optionsFile
  | "module-path" => some modulePath
  | "module-name" => some moduleName
  | "scan-file" => some scanFile
  | "main-target" => some mainTarget
  | "annotation" => some decoratorName
  | "help" => some help
  | "version" => some version
  | _ => none

def ofShort? : Char → Option Switch
  | 'c' => some optionsFile
  | 'h' => some help
  | 'V' => some version
  | _ => none

def isKnownAt (level : Level) : Switch → Bool
  | settingsFile | traced | help => true
  | version => level = .program
  | _ => level = .generate

def takesValue : Switch → Bool
  | traced | mainTarget | help | version => false
  | _ => true

def isPath : Switch → Bool
  | settingsFile | optionsFile | modulePath => true
  | _ => false

end Switch

inductive Stop where
  | help (level : Level)
  | version
  | misuse
deriving DecidableEq

structure Given where
  switch : Switch
  level : Level
  value : String

structure Arguments where
  level : Level := .program
  /-- The latest first. -/
  given : List Given := []
  file? : Option String := none

namespace Arguments

def isRepeatable (switch : Switch) : Bool := switch = .scanFile

def give (a : Arguments) (switch : Switch) (value : String) : Except Stop Arguments :=
  if switch = .help then .error (.help a.level)
  else if switch = .version then .error .version
  else if switch.isPath && value = "" then .error .misuse
  else if !isRepeatable switch && a.given.any (fun g => g.switch = switch && g.level = a.level) then
    .error .misuse
  else .ok { a with given := ⟨switch, a.level, value⟩ :: a.given }

def place (a : Arguments) (text : String) : Except Stop Arguments :=
  match a.level with
  | .program =>
    match text with
    | "generate" => .ok { a with level := .generate }
    | "scan" => .ok { a with level := .scan }
    | _ => .error .misuse
  | .generate => .error .misuse
  | .scan => if text = "" || a.file?.isSome then .error .misuse else .ok { a with file? := some text }

/-- Behind `--` there are no switches and no commands. -/
def placeAll (a : Arguments) : List String → Except Stop Arguments
  | [] => .ok a
  | text :: rest => do
    if a.level = .program then .error .misuse
    else placeAll (← a.place text) rest

def switch? (level : Level) (text : String) : Option (Switch × Option String) := do
  let (switch, value) ← match text.toList with
    | '-' :: '-' :: long =>
      let name := long.takeWhile (· != '=')
      let switch ← Switch.ofLong? (String.ofList name)
      match long.drop name.length with
      | _ :: value => some (switch, some (String.ofList value))
      | [] => some (switch, none)
    | '-' :: short :: rest =>
      let switch ← Switch.ofShort? short
      match rest with
      | [] => some (switch, none)
      | '=' :: value => some (switch, some (String.ofList value))
      | value => some (switch, if switch.takesValue then some (String.ofList value) else none)
    | _ => none
  if switch.isKnownAt level && (switch.takesValue || value.isNone) then some (switch, value)
  else none

def looksLikeSwitch (text : String) : Bool := Text.beginsWith "-" text && text != "-"

def read (a : Arguments) : List String → Except Stop Arguments
  | [] => .ok a
  | "--" :: rest => a.placeAll rest
  | "help" :: rest =>
    if a.level = .program then
      match rest with
      | [] => .error (.help .program)
      | ["generate"] => .error (.help .generate)
      | ["scan"] => .error (.help .scan)
      | _ => .error .misuse
    else do read (← a.place "help") rest
  | text :: rest =>
    if looksLikeSwitch text then
      match switch? a.level text with
      | none => .error .misuse
      | some (switch, some value) => do read (← a.give switch value) rest
      | some (switch, none) =>
        if switch.takesValue then
          match rest with
          | [] => .error .misuse
          | value :: rest =>
            if looksLikeSwitch value then .error .misuse
            else do read (← a.give switch value) rest
        else do read (← a.give switch "") rest
    else do read (← a.place text) rest

/-- The last value given, where one behind the command comes before one in front of it. -/
def value? (a : Arguments) (switch : Switch) : Option String :=
  (a.given.find? (·.switch = switch)).map (·.value)

def has (a : Arguments) (switch : Switch) : Bool := (a.value? switch).isSome

def values (a : Arguments) (switch : Switch) : List String :=
  (a.given.filter (·.switch = switch)).reverse.map (·.value)

end Arguments

inductive Command where
  | generate
  | scan (file : Path)

structure Request where
  arguments : Arguments
  command : Command

def Request.ofList (args : List String) : Except Stop Request := do
  let a ← Arguments.read {} args
  match a.level, a.file? with
  | .program, _ => .error .misuse
  | .generate, _ => return ⟨a, .generate⟩
  | .scan, some file => return ⟨a, .scan ⟨file⟩⟩
  | .scan, none => .error .misuse

end ArkRoutes.CommandLine
