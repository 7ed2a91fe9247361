import ArkRoutes.Source.Token
import ArkRoutes.Text.Affix

namespace ArkRoutes.Source.Token

abbrev Cut := List Char × List Char

def isLineEnd (c : Char) : Bool := c == '\n' || c == '\r' || c == '\u2028' || c == '\u2029'

def isSpace (c : Char) : Bool :=
  let n := c.toNat
  (9 ≤ n && n ≤ 13) || n == 0x20 || n == 0x85 || n == 0xA0 || n == 0x1680 ||
    (0x2000 ≤ n && n ≤ 0x200B) || n == 0x2028 || n == 0x2029 || n == 0x202F || n == 0x205F ||
    n == 0x2060 || n == 0x3000 || n == 0xFEFF

def punctuation : List Char := ":;\x60\"'@#.,|^&<=>+-*/\\%?!~()[]\x7b\x7d".toList

def isWordStart (c : Char) : Bool :=
  31 < c.toNat && !isSpace c && !c.isDigit && !punctuation.contains c

def isWordPart (c : Char) : Bool := isWordStart c || c.isDigit

def isHexDigit (c : Char) : Bool :=
  c.isDigit || ('a' ≤ c && c ≤ 'f') || ('A' ≤ c && c ≤ 'F')

def isOctalDigit (c : Char) : Bool := '0' ≤ c && c ≤ '7'

inductive Gap where
  | blank
  | line
  | block

def cutGap : Gap → List Char → Cut
  | _, [] => ([], [])
  | .blank, '/' :: '/' :: rest => let (g, r) := cutGap .line rest; ('/' :: '/' :: g, r)
  | .blank, '/' :: '*' :: rest => let (g, r) := cutGap .block rest; ('/' :: '*' :: g, r)
  | .blank, c :: rest =>
    if isSpace c then let (g, r) := cutGap .blank rest; (c :: g, r) else ([], c :: rest)
  | .line, c :: rest =>
    let (g, r) := cutGap (if isLineEnd c then .blank else .line) rest; (c :: g, r)
  | .block, '*' :: '/' :: rest => let (g, r) := cutGap .blank rest; ('*' :: '/' :: g, r)
  | .block, c :: rest => let (g, r) := cutGap .block rest; (c :: g, r)

def codePointLength? : List Char → Option Nat
  | 'u' :: '{' :: rest =>
    let digits := rest.takeWhile isHexDigit
    match rest.drop digits.length with
    | '}' :: _ => if digits.isEmpty then none else some (digits.length + 3)
    | _ => none
  | 'u' :: rest => if 4 ≤ (rest.take 4 |>.takeWhile isHexDigit).length then some 5 else none
  | _ => none

/-- `owed` characters belong to an escape already recognised. -/
def wordLength (owed : Nat) : List Char → Nat
  | [] => 0
  | c :: rest =>
    match owed with
    | owed + 1 => wordLength owed rest + 1
    | 0 =>
      if isWordPart c then wordLength 0 rest + 1
      else if c = '\\' then
        match codePointLength? rest with
        | some n => wordLength n rest + 1
        | none => 0
      else 0

def beginsWord : List Char → Bool
  | [] => false
  | c :: rest => isWordStart c || c = '\\' && (codePointLength? rest).isSome

def digitsLength (cs : List Char) : Nat := (cs.takeWhile fun c => c.isDigit || c == '_').length

def exponentLength : List Char → Nat
  | 'e' :: sign :: rest | 'E' :: sign :: rest =>
    if sign = '+' || sign = '-' then
      if digitsLength rest = 0 then 0 else digitsLength rest + 2
    else if sign.isDigit then digitsLength (sign :: rest) + 1
    else 0
  | _ => 0

def fractionLength : List Char → Nat
  | '.' :: rest => digitsLength rest + 1
  | _ => 0

def bigMarkLength : List Char → Nat
  | 'n' :: _ => 1
  | _ => 0

def decimalLength (cs : List Char) : Nat :=
  let whole := digitsLength cs
  let fraction := fractionLength (cs.drop whole)
  let exponent := exponentLength (cs.drop (whole + fraction))
  whole + fraction + exponent + bigMarkLength (cs.drop (whole + fraction + exponent))

def numberLength : List Char → Nat
  | '0' :: base :: rest =>
    if "xXoObB".toList.contains base then
      (rest.takeWhile fun c => isHexDigit c || c == '_' || c == 'n').length + 2
    else decimalLength ('0' :: base :: rest)
  | cs => decimalLength cs

def beginsNumber : List Char → Bool
  | '.' :: c :: _ => c.isDigit
  | c :: _ => c.isDigit
  | [] => false

def escapeLength? : List Char → Option Nat
  | [] => none
  | 'x' :: rest => if 2 ≤ (rest.take 2 |>.takeWhile isHexDigit).length then some 3 else none
  | 'u' :: rest => codePointLength? ('u' :: rest)
  | a :: b :: rest =>
    if isOctalDigit a then some ((a :: b :: rest).take 3 |>.takeWhile isOctalDigit).length
    else if (a = '\r' || a = '?') && isLineEnd b && b != '\r' then some 2
    else some 1
  | [_] => some 1

def addPlain (c : Char) : List Piece → List Piece
  | .plain cs :: rest => .plain (c :: cs) :: rest
  | pieces => .plain [c] :: pieces

inductive Ending where
  | quote
  | substitution
deriving DecidableEq

structure Quoted where
  pieces : List Piece
  ending : Ending
  length : Nat

def endingAt? (quote c : Char) (rest : List Char) : Option (Ending × Nat) :=
  if c = quote then some (.quote, 1)
  else if quote = '\x60' && c = '$' && rest.head? = some '{' then some (.substitution, 2)
  else none

/-- Reads up to `quote`, or in a template up to a substitution; only a template may go over several
lines. `owed` characters belong to an escape already kept. -/
def cutQuoted (quote : Char) (owed : Nat) : List Char → Option Quoted
  | [] => none
  | c :: rest =>
    match owed with
    | owed + 1 => (cutQuoted quote owed rest).map fun q => { q with length := q.length + 1 }
    | 0 =>
      match endingAt? quote c rest with
      | some (ending, n) => some ⟨[], ending, n⟩
      | none =>
        if c = '\\' then do
          let n ← escapeLength? rest
          let q ← cutQuoted quote n rest
          return ⟨.escape (c :: rest.take n) :: q.pieces, q.ending, q.length + 1⟩
        else if quote != '\x60' && (c = '\n' || c = '\r') then none
        else do
          let q ← cutQuoted quote 0 rest
          return ⟨addPlain c q.pieces, q.ending, q.length + 1⟩

def regexLength? (inClass escaped : Bool) : List Char → Option Nat
  | [] => none
  | c :: rest =>
    if isLineEnd c then none
    else if escaped then (regexLength? inClass false rest).map (· + 1)
    else if c = '\\' then (regexLength? inClass true rest).map (· + 1)
    else if c = '[' then (regexLength? true false rest).map (· + 1)
    else if c = ']' then (regexLength? false false rest).map (· + 1)
    else if c = '/' && !inClass then some 1
    else (regexLength? inClass false rest).map (· + 1)

/-- Longer spellings come before their beginnings. A closing angle bracket always stands alone. -/
def marks : List String :=
  ["...", "===", "!==", "&&=", "||=", "??=", "**=", "<<=", "=>", "==", "!=", "&&", "&=", "||",
    "|=", "??", "**", "*=", "++", "+=", "--", "-=", "/=", "%=", "^=", "<<", "<="]

def markLength (cs : List Char) : Nat :=
  match cs with
  | '?' :: '.' :: c :: _ => if c.isDigit then 1 else 2
  | _ => ((marks.find? fun m => m.toList.isPrefixOf cs).map String.length).getD 1

def operatorWords : List String :=
  ["return", "typeof", "case", "delete", "do", "else", "in", "instanceof", "new", "of", "throw",
    "void", "await", "yield", "default", "extends"]

/-- Whether the token before a slash is the end of an operand, so that the slash divides. -/
def endsOperand (t : Token) : Bool :=
  match t.shape with
  | .word => !operatorWords.contains t.text
  | .mark => t.text = ")" || t.text = "]"
  | .template _ _ closes => closes
  | _ => true

/-- The token before, and for every open substitution the number of braces opened inside it. -/
structure Scanner where
  previous : Option Token := none
  braces : List Nat := []

namespace Scanner

def allowsRegex (s : Scanner) : Bool := !(s.previous.any endsOperand)

/-- What can begin no token is a mark of one character. -/
def shapeOf (s : Scanner) (cs : List Char) : Shape × Nat :=
  let quoted (quote : Char) (opens : Bool) (rest : List Char) : Option (Shape × Nat) := do
    let q ← cutQuoted quote 0 rest
    let shape := if quote = '\x60' then .template q.pieces opens (q.ending = .quote)
      else .string q.pieces
    return (shape, q.length + 1)
  let mark := (Shape.mark, markLength cs)
  if beginsWord cs then (.word, wordLength 0 cs)
  else if beginsNumber cs then (.number, numberLength cs)
  else match cs with
    | '"' :: rest => (quoted '"' true rest).getD mark
    | '\'' :: rest => (quoted '\'' true rest).getD mark
    | '\x60' :: rest => (quoted '\x60' true rest).getD mark
    | '}' :: rest => if s.braces.head? = some 0 then (quoted '\x60' false rest).getD mark else mark
    | '#' :: rest => if beginsWord rest then (.privateWord, wordLength 0 rest + 1) else mark
    | '/' :: rest =>
      if s.allowsRegex then
        match regexLength? false false rest with
        | some n => (.regex, n + 1 + wordLength 0 (rest.drop n))
        | none => mark
      else mark
    | _ => mark

def after (s : Scanner) (t : Token) : Scanner :=
  let braces :=
    match t.shape, s.braces with
    | .template _ true false, braces => 0 :: braces
    | .template _ false true, _ :: braces => braces
    | .mark, depth :: braces =>
      if t.text = "\x7b" then (depth + 1) :: braces
      else if t.text = "\x7d" then (depth - 1) :: braces
      else depth :: braces
    | _, braces => braces
  ⟨some t, braces⟩

/-- Every token takes at least one character, so the length of the text is `fuel` enough. -/
def run (fuel : Nat) (s : Scanner) (cs : List Char) : List Token :=
  match fuel with
  | 0 => []
  | fuel + 1 =>
    let (gap, cs) := cutGap .blank cs
    if cs.isEmpty then []
    else
      let (shape, n) := s.shapeOf cs
      let t : Token := ⟨shape, String.ofList (cs.take n), String.ofList gap⟩
      t :: run fuel (s.after t) (cs.drop n)

end Scanner

def withoutFirstLine (cs : List Char) : List Char :=
  match cs.dropWhile (· == '\uFEFF') with
  | '#' :: '!' :: rest => rest.dropWhile fun c => !isLineEnd c
  | cs => cs

def scan (text : String) : List Token :=
  let cs := withoutFirstLine text.toList
  Scanner.run (cs.length + 1) {} cs

end ArkRoutes.Source.Token
