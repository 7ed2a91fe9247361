import ArkRoutes.Text.Blank

namespace ArkRoutes.EnvFile

abbrev Variables := List (String × String)

inductive Ending where
  | complete
  | blank
  | escape
  | double
  | doubleEscape
  | single
  | singleEscape
  | comment
deriving DecidableEq

def Ending.fresh (c : Char) : Ending :=
  if c = '\\' then .escape
  else if c = '"' then .double
  else if c = '\'' then .single
  else .complete

def Ending.next (c : Char) : Ending → Ending
  | complete => if Text.isBlank c && c != '\n' && c != '\r' then blank else fresh c
  | blank => if c = '#' then comment else fresh c
  | escape => complete
  | double => if c = '\\' then doubleEscape else if c = '"' then complete else double
  | doubleEscape => double
  | single => if c = '\\' then singleEscape else if c = '\'' then complete else single
  | singleEscape => single
  | comment => comment

def cutLine (ending : Ending) : List Char → List Char × Ending
  | [] => ([], ending)
  | c :: rest =>
    let next := ending.next c
    if next = .comment then ([], .comment)
    else let (cs, last) := cutLine next rest; (c :: cs, last)

def physicalLines : List Char → List (List Char)
  | [] => []
  | '\n' :: rest => ['\n'] :: physicalLines rest
  | c :: rest =>
    match physicalLines rest with
    | [] => [[c]]
    | line :: lines => (c :: line) :: lines

/-- Logical lines up to the first one that does not end. -/
def logicalLines (before : List Char) (ending : Ending) : List (List Char) → List (List Char)
  | [] => []
  | line :: rest =>
    let whole := before ++ line
    if (whole.dropWhile Text.isBlank).head? = some '#' then logicalLines [] .complete rest
    else
      match cutLine ending line with
      | (cs, .complete) | (cs, .comment) => (before ++ cs) :: logicalLines [] .complete rest
      | (_, ending) => logicalLines whole ending rest

def isKeyStart (c : Char) : Bool := c.isAlpha || c == '_'

def isKeyPart (c : Char) : Bool := c.isAlphanum || c == '_' || c == '.'

def key? (cs : List Char) : Option (String × List Char) :=
  if cs.head?.any isKeyStart then
    some (String.ofList (cs.takeWhile isKeyPart), (cs.dropWhile isKeyPart).dropWhile Text.isBlank)
  else none

inductive Mode where
  | plain
  | quoted
  | escaped (inQuotes : Bool)
  | raw
  | ending
  /-- Inside the name of a variable, written without or with braces; characters read so far, the
  last one first. -/
  | bare (name : List Char) (inQuotes : Bool)
  | braced (name : List Char) (inQuotes : Bool)

def valueOf (vars : Variables) (name : List Char) : List Char :=
  ((vars.lookup (String.ofList name.reverse)).getD "").toList

def Mode.after (inQuotes : Bool) : Mode := if inQuotes then .quoted else .plain

def isNameChar (c : Char) : Bool := c.isAlphanum || 127 < c.toNat

def value? (vars : Variables) : Mode → List Char → Option (List Char)
  | .plain, [] => some []
  | .ending, [] => some []
  | .escaped false, [] => some []
  | .bare name false, [] => some (valueOf vars name)
  | _, [] => none
  | .ending, c :: rest =>
    if c = ' ' || c = '\t' then value? vars .ending rest
    else if c = '#' then some []
    else none
  | .escaped q, c :: rest =>
    if c = 'n' then (value? vars (.after q) rest).map ('\n' :: ·)
    else if ['\\', '\'', '"', '$', ' '].contains c then (value? vars (.after q) rest).map (c :: ·)
    else none
  | .raw, c :: rest =>
    if c = '\'' then value? vars .plain rest else (value? vars .raw rest).map (c :: ·)
  | .bare name q, c :: rest =>
    if isNameChar c then value? vars (.bare (c :: name) q) rest
    else if c = '{' && name.isEmpty then value? vars (.braced [] q) rest
    else if c = '$' then (value? vars (.bare [] q) rest).map (valueOf vars name ++ ·)
    else (value? vars (.after q) rest).map (valueOf vars name ++ c :: ·)
  | .braced name q, c :: rest =>
    if c = '}' then (value? vars (.after q) rest).map (valueOf vars name ++ ·)
    else value? vars (.braced (c :: name) q) rest
  | .quoted, c :: rest =>
    if c = '$' then value? vars (.bare [] true) rest
    else if c = '"' then value? vars .plain rest
    else if c = '\\' then value? vars (.escaped true) rest
    else (value? vars .quoted rest).map (c :: ·)
  | .plain, c :: rest =>
    if c = '$' then value? vars (.bare [] false) rest
    else if c = '\'' then value? vars .raw rest
    else if c = '"' then value? vars .quoted rest
    else if c = '\\' then value? vars (.escaped false) rest
    else if c = ' ' || c = '\t' then value? vars .ending rest
    else (value? vars .plain rest).map (c :: ·)

def assigned? (vars : Variables) (key : String) : List Char → Option (String × String)
  | '=' :: rest =>
    match rest.dropWhile Text.isBlank with
    | [] => some (key, "")
    | '#' :: _ => some (key, "")
    | cs => (value? vars .plain cs).map fun v => (key, String.ofList v)
  | _ => none

/-- A line without an assignment is none; one that fits no rule is an error. -/
def assignment (vars : Variables) (line : List Char) : Except Unit (Option (String × String)) :=
  match Text.trimChars line with
  | [] => .ok none
  | '#' :: _ => .ok none
  | cs =>
    let found := do
      let (key, rest) ← key? cs
      assigned? vars key rest <|>
        if key = "export" then do
          let (key, rest) ← key? rest
          assigned? vars key rest
        else none
    match found with
    | some pair => .ok (some pair)
    | none => .error ()

/-- A variable that has a value keeps it. -/
def addAll (vars : Variables) : List (List Char) → Variables
  | [] => vars
  | line :: rest =>
    match assignment vars line with
    | .error _ => vars
    | .ok none => addAll vars rest
    | .ok (some (key, v)) =>
      addAll (if (vars.lookup key).isSome then vars else vars ++ [(key, v)]) rest

def extend (vars : Variables) (text : String) : Variables :=
  let cs := match text.toList with
    | '\uFEFF' :: rest => rest
    | cs => cs
  addAll vars (logicalLines [] .complete (physicalLines cs))

end ArkRoutes.EnvFile
