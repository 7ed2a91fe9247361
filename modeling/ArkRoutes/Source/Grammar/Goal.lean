import ArkRoutes.Source.Parser

namespace ArkRoutes.Source.Grammar

open Parser

inductive Goal where
  | statement
  | expression
  /-- An expression without a comma. -/
  | assignment
  /-- An operand with what stands before and behind it. -/
  | unary
  | type
  | pattern

/-- Answers the goals one level further down. -/
abbrev Sub := Goal → Parser Node

def typeArguments (sub : Sub) : Parser Node :=
  form "type_arguments" (between "<" ">" (separated (sub .type)))

def typing (sub : Sub) : Parser Node := option do mark ":"; sub .type

def initializer (sub : Sub) : Parser Node := do mark "="; sub .assignment

def argument (sub : Sub) : Parser Node :=
  (do mark "..."; return .form "spread_element" [← sub .assignment]) <|> sub .assignment

def arguments (sub : Sub) : Parser (List Node) := between "(" ")" (separated (argument sub))

def substitutions (inner : Parser Node) : Nat → Parser (List Node)
  | 0 => failure
  | n + 1 => do
    let part ← inner
    match (← next).shape with
    | .template _ false true => return [part]
    | .template _ false false => return part :: (← substitutions inner n)
    | _ => failure

def template (inner : Parser Node) : Parser Node := do
  match (← next).shape with
  | .template pieces true true => return .string pieces
  | .template _ true false =>
    return .form "template_substitution" (← substitutions inner (← read))
  | _ => failure

def computed (sub : Sub) : Parser Node := do
  let (text, key) ← spelled (between "[" "]" (sub .expression))
  return .computed text key

def key (sub : Sub) : Parser Node :=
  propertyName <|> stringNode <|> privateName
    <|> (do return .numeral (← satisfying (·.shape = .number)).text) <|> computed sub

def dotted : Parser Unit := do
  let _ ← name
  let _ ← many (do mark "."; propertyName <|> privateName)

def decorator (sub : Sub) : Parser Node := do
  mark "@"
  (do
    let (callee, _) ← spelled dotted
    (do
      let _ ← option (typeArguments sub)
      return .decoratorCall callee (← arguments sub)) <|> return .decorator callee)
  <|> do
    let (callee, _) ← spelled (between "(" ")" (sub .expression))
    return .decorator callee

def patternPart (sub : Sub) : Parser Node := do
  skipMark "..."
  form "pattern" do return [← sub .pattern, ← option (initializer sub)]

def patternEntry (sub : Sub) : Parser Node :=
  (form "pair_pattern" do
    let k ← key sub
    mark ":"
    return [k, ← patternPart sub])
  <|> patternPart sub

def pattern (sub : Sub) : Parser Node :=
  name
  <|> form "array_pattern" (between "[" "]" (many
    (patternPart sub <|> do mark ","; return .nothing)))
  <|> form "object_pattern" (between "\x7b" "\x7d" (separated (patternEntry sub)))

def parameterModifiers : List String := ["public", "private", "protected", "readonly", "override"]

/-- A modifier is one only if something to modify follows it. -/
def parameterModifier : Parser Unit := do
  let _ ← satisfying fun t => t.shape = .word && parameterModifiers.contains t.text
  if ← isNext fun t => t.shape = .word || t.isMark "[" || t.isMark "\x7b" then pure ()
  else failure

def parameter (sub : Sub) : Parser Node := form "parameter" do
  let decorators ← many (decorator sub)
  let _ ← many parameterModifier
  skipMark "..."
  let target ← (do word "this"; return .nothing) <|> sub .pattern
  skipMark "?"
  return decorators ++ [target, ← typing sub, ← option (initializer sub)]

def parameters (sub : Sub) : Parser Node :=
  form "parameters" (between "(" ")" (separated (parameter sub)))

def typeParameter (sub : Sub) : Parser Node := form "type_parameter" do
  skipWord "const"
  let _ ← many do
    let _ ← satisfying fun t => t.isWord "in" || t.isWord "out"
    if ← isNext (·.shape = .word) then pure () else failure
  let n ← name
  let bound ← option do word "extends"; sub .type
  return [n, bound, ← option do mark "="; sub .type]

def typeParameters (sub : Sub) : Parser Node :=
  form "type_parameters" (between "<" ">" (separated (typeParameter sub)))

def afterClosing (depth : Nat) : List Token → List Token
  | [] => []
  | t :: rest =>
    if t.isMark "(" then afterClosing (depth + 1) rest
    else if t.isMark ")" then if depth ≤ 1 then rest else afterClosing (depth - 1) rest
    else afterClosing depth rest

/-- Whether the parentheses ahead can be the parameters of a function written with an arrow. -/
def parametersAhead : Parser Bool := do
  match ← get with
  | t :: rest =>
    if t.isMark "<" then return true
    else if t.isMark "(" then
      return (afterClosing 1 rest).head?.any fun u => u.isMark "=>" || u.isMark ":"
    else return false
  | [] => return false

/-- Statements in braces. Whatever fits no rule is passed over one token at a time, and the end of
the text closes every brace. -/
def statementsUntil (closing : Parser Unit) (sub : Sub) : Parser (List Node) := do
  let statements ← many do
    if ← (do closing; return true) <|> pure false then failure
    else sub .statement <|> do let _ ← next; return .recovered []
  closing <|> pure ()
  return statements

def block (sub : Sub) : Parser Node := form "block" do
  mark "\x7b"
  statementsUntil (mark "\x7d") sub

def functionTail (sub : Sub) : Parser (List Node) := do
  let generics ← option (typeParameters sub)
  let ps ← parameters sub
  let result ← typing sub
  return [generics, ps, result, ← option (block sub)]

end ArkRoutes.Source.Grammar
