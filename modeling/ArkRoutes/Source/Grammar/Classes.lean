import ArkRoutes.Source.Grammar.Types

namespace ArkRoutes.Source.Grammar

open Parser

def memberModifiers : List String :=
  ["declare", "public", "private", "protected", "static", "override", "readonly", "abstract",
    "accessor", "async", "get", "set"]

def modifiers : Parser Bool := do
  let words ← many do
    let t ← (do return (← get).head?)
    keyModifier memberModifiers
    return t.any (·.isWord "static")
  skipMark "*"
  return words.contains true

def method (sub : Sub) (k : Node) : Parser Node :=
  form "method" do return k :: (← functionTail sub)

def fieldOrMethod (sub : Sub) : Parser Node := do
  let isStatic ← modifiers
  let k ← key sub
  skipMark "?"
  skipMark "!"
  method sub k <|> do
    let t ← typing sub
    let value ← initializer sub <|> pure .uninitialized
    return if isStatic then .binding k t value else .form "field" [k, t, value]

def staticBlock (sub : Sub) : Parser Node := do
  word "static"
  block sub

def classMember (sub : Sub) : Parser Node :=
  (do mark ";"; return .nothing)
  <|> decorator sub <|> staticBlock sub <|> indexMember sub <|> fieldOrMethod sub <|> block sub

def classBody (sub : Sub) : Parser (List Node) := do
  mark "\x7b"
  let members ← many do
    if ← atMark "\x7d" then failure
    else classMember sub <|> do let _ ← next; return .recovered []
  skipMark "\x7d"
  return members

def heritage (sub : Sub) : Parser (List Node) := do
  let base ← option do
    word "extends"
    let e ← sub .unary
    return .form "extends" [e, ← option (typeArguments sub)]
  let interfaces ← (do word "implements"; separated (sub .type)) <|> pure []
  return base :: interfaces

structure ClassParts where
  name? : Option String
  header : List Node
  members : List Node

def className : Parser String := do
  let t ← satisfying Token.isName
  if t.text = "implements" then failure else return t.text

def classParts (sub : Sub) : Parser ClassParts := do
  skipWord "abstract"
  word "class"
  let name? ← (do return some (← className)) <|> pure none
  let generics ← option (typeParameters sub)
  let bases ← heritage sub
  return ⟨name?, generics :: bases, ← classBody sub⟩

/-- A class that declares nothing leaves all its words. -/
def ClassParts.asForm (c : ClassParts) (decorators : List Node) : Node :=
  .form "class" (decorators ++ c.name?.toList.map .name ++ c.header ++ c.members)

def classDeclaration (sub : Sub) (decorators : List Node) : Parser Node := do
  let c ← classParts sub
  match c.name? with
  | some n => return .classDecl decorators n c.members
  | none => return c.asForm decorators

def classExpression (sub : Sub) : Parser Node := do return (← classParts sub).asForm []

end ArkRoutes.Source.Grammar
