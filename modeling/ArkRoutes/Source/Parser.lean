import ArkRoutes.Source.Node

namespace ArkRoutes.Source

/-- What a parser can ask for is the number of tokens of the whole text, which no list of parts can exceed. -/
abbrev Parser := ReaderT Nat (StateT (List Token) Option)

namespace Parser

def next : Parser Token := do
  match ← get with
  | [] => failure
  | t :: rest =>
    set rest
    return t

def isNext (test : Token → Bool) : Parser Bool := do return (← get).head?.any test

def atMark (text : String) : Parser Bool := isNext (·.isMark text)

def atWord (text : String) : Parser Bool := isNext (·.isWord text)

def succeeds {α : Type} (p : Parser α) : Parser Bool := do
  let tokens ← get
  (do
    let _ ← p
    set tokens
    return true) <|> pure false

def satisfying (test : Token → Bool) : Parser Token := do
  let t ← next
  if test t then return t else failure

def mark (text : String) : Parser Unit := do let _ ← satisfying (·.isMark text)

def word (text : String) : Parser Unit := do let _ ← satisfying (·.isWord text)

def skipMark (text : String) : Parser Unit := mark text <|> pure ()

def skipWord (text : String) : Parser Unit := word text <|> pure ()

def sameLine : Parser Unit := do if ← isNext (!·.startsLine) then pure () else failure

def name : Parser Node := do return .name (← satisfying Token.isName).text

def propertyName : Parser Node := do return .name (← satisfying (·.shape = .word)).text

def privateName : Parser Node := do return .privateName (← satisfying (·.shape = .privateWord)).text

def stringNode : Parser Node := do
  match (← next).shape with
  | .string pieces => return .string pieces
  | _ => failure

def stringText : Parser String := do
  match (← next).shape with
  | .string pieces => return Piece.textOf pieces
  | _ => failure

def option (p : Parser Node) : Parser Node := p <|> pure .nothing

def repeated {α : Type} (p : Parser α) : Nat → Parser (List α)
  | 0 => pure []
  | n + 1 => (do let a ← p; return a :: (← repeated p n)) <|> pure []

def many {α : Type} (p : Parser α) : Parser (List α) := do repeated p (← read)

def separated {α : Type} (p : Parser α) : Parser (List α) := do
  let parts ← (do let a ← p; return a :: (← many (do mark ","; p))) <|> pure []
  skipMark ","
  return parts

def between {α : Type} (opening closing : String) (p : Parser α) : Parser α := do
  mark opening
  let a ← p
  mark closing
  return a

def spelled {α : Type} (p : Parser α) : Parser (String × α) := do
  let before ← get
  let a ← p
  let after ← get
  return (Token.spelling (before.take (before.length - after.length)), a)

def form (kind : String) (parts : Parser (List Node)) : Parser Node := do
  return .form kind (← parts)

end Parser

end ArkRoutes.Source
