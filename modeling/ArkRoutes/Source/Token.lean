namespace ArkRoutes.Source

/-- A stretch of a string literal: characters as they stand, or one escape with its backslash. -/
inductive Piece where
  | plain (chars : List Char)
  | escape (chars : List Char)
deriving DecidableEq

namespace Piece

/-- Four escapes name a character; every other escape loses its backslash and nothing more. -/
def unescape : List Char → List Char
  | ['\\', 'n'] => ['\n']
  | ['\\', 't'] => ['\t']
  | ['\\', 'r'] => ['\r']
  | ['\\', '0'] => ['\x00']
  | '\\' :: rest => rest
  | sequence => sequence

def value : Piece → List Char
  | plain cs => cs
  | escape cs => unescape cs

def textOf (pieces : List Piece) : String := String.ofList (pieces.flatMap value)

end Piece

inductive Shape where
  | word
  /-- A name behind `#`. -/
  | privateWord
  | number
  | string (pieces : List Piece)
  /-- A stretch of a template: up to a substitution unless it `closes` the template, and from the
  template's beginning if it `opens` it. -/
  | template (pieces : List Piece) (opens closes : Bool)
  | regex
  | mark
deriving DecidableEq

/-- A token keeps its spelling and the blank space and comments before it. -/
structure Token where
  shape : Shape
  text : String
  lead : String
deriving DecidableEq

namespace Token

def isWord (t : Token) (text : String) : Bool := t.shape = .word && t.text = text

def isMark (t : Token) (text : String) : Bool := t.shape = .mark && t.text = text

def startsLine (t : Token) : Bool := t.lead.toList.contains '\n'

def touches (t : Token) : Bool := t.lead.isEmpty

def spelling : List Token → String
  | [] => ""
  | t :: rest => t.text ++ String.join (rest.map fun u => u.lead ++ u.text)

def reservedWords : List String :=
  ["break", "case", "catch", "class", "const", "continue", "debugger", "default", "delete", "do",
    "else", "enum", "extends", "false", "finally", "for", "function", "if", "import", "in",
    "instanceof", "null", "return", "super", "switch", "this", "throw", "true", "try", "typeof",
    "undefined", "var", "void", "while", "with", "await", "yield"]

def isName (t : Token) : Bool := t.shape = .word && !reservedWords.contains t.text

end Token

end ArkRoutes.Source
