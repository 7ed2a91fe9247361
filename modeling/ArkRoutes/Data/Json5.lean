import ArkRoutes.Data.Value
import ArkRoutes.Text.Letter

namespace ArkRoutes.Data.Json5

abbrev Reader := StateT (List Char) Option

def isLineEnd (c : Char) : Bool := c == '\n' || c == '\r' || c == '\u2028' || c == '\u2029'

def isSpace (c : Char) : Bool :=
  let n := c.toNat
  n == 9 || n == 11 || n == 12 || n == 0x20 || n == 0xA0 || n == 0xFEFF || n == 0x1680 ||
    (0x2000 ≤ n && n ≤ 0x200A) || n == 0x202F || n == 0x205F || n == 0x3000 || isLineEnd c

inductive Gap where
  | plain
  | line
  | block

def passGap : Gap → List Char → Option (List Char)
  | .plain, '/' :: '/' :: rest => passGap .line rest
  | .plain, '/' :: '*' :: rest => passGap .block rest
  | .plain, c :: rest => if isSpace c then passGap .plain rest else some (c :: rest)
  | .line, c :: rest => if isLineEnd c then passGap .plain rest else passGap .line rest
  | .block, '*' :: '/' :: rest => passGap .plain rest
  | .block, _ :: rest => passGap .block rest
  | .block, [] => none
  | _, [] => some []

def gap : Reader Unit := fun cs => (passGap .plain cs).map ((), ·)

def next : Reader Char
  | [] => none
  | c :: rest => some (c, rest)

def peek? : Reader (Option Char) := do return (← get).head?

def expect (c : Char) : Reader Unit := do if (← next) = c then pure () else failure

def hexDigit? (c : Char) : Option Nat :=
  if '0' ≤ c ∧ c ≤ '9' then some (c.toNat - 48)
  else if 'a' ≤ c ∧ c ≤ 'f' then some (c.toNat - 87)
  else if 'A' ≤ c ∧ c ≤ 'F' then some (c.toNat - 55)
  else none

def hexNumber? (cs : List Char) : Option Nat := do
  return (← cs.mapM hexDigit?).foldl (fun n d => n * 16 + d) 0

def escaped (c : Char) : Char :=
  if c = 'b' then '\x08' else if c = 'f' then '\x0c' else if c = 'n' then '\n'
  else if c = 'r' then '\r' else if c = 't' then '\t' else if c = 'v' then '\x0b'
  else if c = '0' then '\x00' else c

/-- Four hex digits; one half of a surrogate pair needs the other half behind it. -/
def codePoint? : List Char → Option (Char × Nat)
  | a :: b :: c :: d :: rest => do
    let n ← hexNumber? [a, b, c, d]
    if 0xDC00 ≤ n && n ≤ 0xDFFF then none
    else if 0xD800 ≤ n && n ≤ 0xDBFF then
      match rest with
      | '\\' :: 'u' :: a :: b :: c :: d :: _ =>
        let m ← hexNumber? [a, b, c, d]
        if 0xDC00 ≤ m && m ≤ 0xDFFF then
          some (Char.ofNat (0x10000 + (n - 0xD800) * 0x400 + (m - 0xDC00)), 10)
        else none
      | _ => none
    else some (Char.ofNat n, 4)
  | _ => none

/-- The rest of a string that the quote `q` ends; `skip` characters are already read. -/
def stringRest (q : Char) (skip : Nat) : List Char → Option (List Char × List Char)
  | [] => none
  | c :: rest =>
    match skip with
    | skip + 1 => stringRest q skip rest
    | 0 =>
      let more (c : Char) (skip : Nat) :=
        (stringRest q skip rest).map fun (cs, rest) => (c :: cs, rest)
      if c = q then some ([], rest)
      else if isLineEnd c then none
      else if c = '\\' then
        match rest with
        | [] => none
        | 'x' :: digits => do
          if digits.length < 2 then none
          else more (Char.ofNat (← hexNumber? (digits.take 2))) 3
        | 'u' :: digits => do
          let (c, n) ← codePoint? digits
          more c (n + 1)
        | '\r' :: '\n' :: _ => stringRest q 2 rest
        | e :: _ =>
          if isLineEnd e then stringRest q 1 rest
          else if '1' ≤ e ∧ e ≤ '9' then none
          else more (escaped e) 1
      else more c 0

def quotedText (q : Char) : Reader String := fun cs =>
  (stringRest q 0 cs).map fun (text, rest) => (String.ofList text, rest)

def isNameStart (c : Char) : Bool := Text.isLetter c || c == '$' || c == '_'

def isNamePart (c : Char) : Bool :=
  isNameStart c || Text.isJoiner c || c == '\u200C' || c == '\u200D'

def nameRest (accepts : Char → Bool) (skip : Nat) : List Char → Option (List Char × List Char)
  | [] => if skip = 0 then some ([], []) else none
  | c :: rest =>
    match skip with
    | skip + 1 => nameRest accepts skip rest
    | 0 =>
      if accepts c then (nameRest isNamePart 0 rest).map fun (cs, r) => (c :: cs, r)
      else match c, rest with
        | '\\', 'u' :: digits => do
          let (c, n) ← codePoint? digits
          (nameRest isNamePart (n + 1) rest).map fun (cs, r) => (c :: cs, r)
        | _, _ => some ([], c :: rest)

def bareKey : Reader String := fun cs =>
  match nameRest isNameStart 0 cs with
  | some (c :: name, rest) => some (String.ofList (c :: name), rest)
  | _ => none

def digits : Reader (List Char) := fun cs => some (cs.span Char.isDigit)

def decimalValue (cs : List Char) : Nat := cs.foldl (fun n c => n * 10 + (c.toNat - 48)) 0

def sign : Reader (Option Sign) := do
  match ← peek? with
  | some '+' => let _ ← next; return some .plus
  | some '-' => let _ ← next; return some .minus
  | _ => return none

def keyword (word : String) : Reader Unit := fun cs =>
  if word.toList.isPrefixOf cs then some ((), cs.drop word.length) else none

def exponent : Reader Int := do
  let e ← next
  if e != 'e' && e != 'E' then failure
  let s ← sign
  let ds ← digits
  if ds.isEmpty then failure
  return if s = some .minus then -(decimalValue ds : Int) else decimalValue ds

def hexLiteral : Reader Magnitude := do
  expect '0'
  let x ← next
  if x != 'x' && x != 'X' then failure
  let ds ← fun cs => some (cs.span fun c => (hexDigit? c).isSome)
  if ds.isEmpty then failure
  match hexNumber? ds with
  | some n => return .hex n
  | none => failure

def wholePart : Reader (List Char) := do
  let ds ← digits
  match ds with
  | [] => failure
  | '0' :: _ :: _ => failure
  | ds => return ds

def decimalLiteral : Reader Magnitude := do
  let whole ← if (← peek?) = some '.' then pure [] else wholePart
  let fraction ← if (← peek?) = some '.' then do
      let _ ← next
      some <$> digits
    else pure none
  if whole.isEmpty && (fraction.getD []).isEmpty then failure
  let e ← some <$> exponent <|> pure none
  match fraction, e with
  | none, none => return .whole (decimalValue whole)
  | _, _ =>
    let fraction := fraction.getD []
    return .decimal (decimalValue (whole ++ fraction)) (e.getD 0 - fraction.length)

def numeral : Reader Numeral := do
  let s ← sign
  let m ← hexLiteral <|> decimalLiteral
    <|> (do keyword "Infinity"; return .infinity) <|> (do keyword "NaN"; return .notANumber)
  return ⟨s, m⟩

def key : Reader String := do
  match ← peek? with
  | some '"' => let _ ← next; quotedText '"'
  | some '\'' => let _ ← next; quotedText '\''
  | _ => bareKey

mutual

def value : Nat → Reader Value
  | 0 => failure
  | fuel + 1 => do
    gap
    match ← peek? with
    | some '{' => let _ ← next; return .object (← fields fuel)
    | some '[' => let _ ← next; return .array (← items fuel)
    | some '"' => let _ ← next; return .string (← quotedText '"')
    | some '\'' => let _ ← next; return .string (← quotedText '\'')
    | some 'n' => keyword "null"; return .null
    | some 't' => keyword "true"; return .bool true
    | some 'f' => keyword "false"; return .bool false
    | _ => return .number (← numeral)

def items : Nat → Reader (List Value)
  | 0 => failure
  | fuel + 1 => do
    gap
    if (← peek?) = some ']' then let _ ← next; return []
    let v ← value fuel
    gap
    match ← next with
    | ']' => return [v]
    | ',' => return v :: (← items fuel)
    | _ => failure

def fields : Nat → Reader (List (String × Value))
  | 0 => failure
  | fuel + 1 => do
    gap
    if (← peek?) = some '}' then let _ ← next; return []
    let k ← key
    gap
    expect ':'
    let v ← value fuel
    gap
    match ← next with
    | '}' => return [(k, v)]
    | ',' => return (k, v) :: (← fields fuel)
    | _ => failure

end

/-- Every level of nesting takes at least one character, so the length bounds the depth. -/
def parse? (text : String) : Option Value :=
  let document : Reader Value := do
    let v ← value (text.length + 1)
    gap
    if (← get).isEmpty then return v else failure
  (document text.toList).map (·.1)

end ArkRoutes.Data.Json5
