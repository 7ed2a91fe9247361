import ArkRoutes.Source.Grammar.Classes

namespace ArkRoutes.Source.Grammar

open Parser

def arrowBody (sub : Sub) : Parser Node := block sub <|> sub .assignment

def arrowFunction (sub : Sub) : Parser Node := form "arrow_function" do
  let plain : Parser (List Node) := do
    let n ← name
    mark "=>"
    return [n, ← arrowBody sub]
  let full : Parser (List Node) := do
    if ← parametersAhead then
      let generics ← option (typeParameters sub)
      let ps ← parameters sub
      let result ← typing sub
      mark "=>"
      return [generics, ps, result, ← arrowBody sub]
    else failure
  plain <|> full <|> do
    word "async"
    plain <|> full

def functionExpression (sub : Sub) : Parser Node := do
  skipWord "async"
  word "function"
  let kind ← (do mark "*"; return "generator_function") <|> return "function_expression"
  let n ← option name
  return .form kind (n :: (← functionTail sub))

def objectEntry (sub : Sub) : Parser Node :=
  (do mark "..."; return .form "spread_element" [← sub .assignment])
  <|> (do
    let k ← key sub
    mark ":"
    return .binding k .nothing (← sub .assignment))
  <|> (do
    let _ ← many (keyModifier ["async", "get", "set", "static"])
    skipMark "*"
    method sub (← key sub))
  <|> (do
    let n ← name
    return .form "object_assignment_pattern" [n, ← initializer sub])
  <|> do return .shorthand (← satisfying Token.isName).text

def objectLiteral (sub : Sub) : Parser Node := do
  return .object (← between "\x7b" "\x7d" (separated (objectEntry sub)))

def arrayLiteral (sub : Sub) : Parser Node :=
  form "array" (between "[" "]" (many (argument sub <|> do mark ","; return .nothing)))

def wordExpression : Parser Node := do
  let t ← satisfying (·.shape = .word)
  match t.text with
  | "true" => return .flag true
  | "false" => return .flag false
  | "null" | "undefined" | "this" | "super" => return .form t.text []
  | _ => failure

def metaProperty : Parser Node := do
  word "new" <|> word "import"
  mark "."
  word "target" <|> word "meta"
  return .form "meta_property" []

def importCallee : Parser Node := do
  word "import"
  if ← atMark "(" then return .form "import" [] else failure

def primary (sub : Sub) : Parser Node := do
  match (← get).head? with
  | none => failure
  | some t =>
    match t.shape with
    | .number => let _ ← next; return .numeral t.text
    | .string pieces => let _ ← next; return .string pieces
    | .regex => let _ ← next; return .form "regex" []
    | .privateWord => privateName
    | .template _ _ _ => template (sub .expression)
    | .mark =>
      (do return .wrapped (← between "(" ")" (sub .expression)) .nothing)
      <|> arrayLiteral sub <|> objectLiteral sub
    | .word =>
      wordExpression <|> metaProperty <|> importCallee <|> functionExpression sub
      <|> classExpression sub <|> name

def memberSuffix (object : Node) : Parser Node := do
  mark "." <|> mark "?."
  return .member object (← propertyName <|> privateName)

def subscriptSuffix (sub : Sub) (object : Node) : Parser Node := do
  skipMark "?."
  return .form "subscript_expression" [object, ← between "[" "]" (sub .expression)]

def callSuffix (sub : Sub) (callee : Node) : Parser Node := do
  skipMark "?."
  let generics ← option (typeArguments sub)
  (do return .form "call_expression" (callee :: generics :: (← arguments sub)))
  <|> do return .form "call_expression" [callee, generics, ← template (sub .expression)]

def assertedSuffix (operand : Node) : Parser Node := do
  sameLine
  mark "!"
  return .wrapped operand .nothing

def suffixed (suffix : Node → Parser Node) : Nat → Node → Parser Node
  | 0, e => pure e
  | n + 1, e => (do suffixed suffix n (← suffix e)) <|> pure e

def operandSuffixes (sub : Sub) (e : Node) : Parser Node := do
  suffixed
    (fun e => memberSuffix e <|> subscriptSuffix sub e <|> callSuffix sub e <|> assertedSuffix e)
    (← read) e

/-- `new` takes the members behind its operand, and the first argument list if there is one. -/
def newExpression (sub : Sub) : Parser Node := do
  word "new"
  let inner ← (if ← atWord "new" then sub .unary else primary sub)
  let callee ← suffixed (fun e => memberSuffix e <|> subscriptSuffix sub e) (← read) inner
  let generics ← option (typeArguments sub)
  let args ← arguments sub <|> pure []
  return .form "new_expression" (callee :: generics :: args)

def updateSuffix (e : Node) : Parser Node := do
  sameLine
  mark "++" <|> mark "--"
  return .form "update_expression" [e]

def unaryMarks : List String := ["!", "~", "-", "+"]

def unaryWords : List String := ["typeof", "void", "delete"]

def unaryOperator : Parser String := do
  let t ← next
  match t.shape with
  | .mark =>
    if unaryMarks.contains t.text then return "unary_expression"
    else if t.text = "++" || t.text = "--" then return "update_expression"
    else failure
  | .word =>
    if unaryWords.contains t.text then return "unary_expression"
    else if t.text = "await" then return "await_expression"
    else failure
  | _ => failure

def typeAssertion (sub : Sub) : Parser Node := form "type_assertion" do
  let t ← typeArguments sub
  return [t, ← sub .unary]

def unary (sub : Sub) : Parser Node :=
  (do let kind ← unaryOperator; return .form kind [← sub .unary])
  <|> typeAssertion sub
  <|> do
    let e ← metaProperty <|> newExpression sub <|> primary sub
    let e ← operandSuffixes sub e
    updateSuffix e <|> pure e

def binaryMarks : List String :=
  ["+", "-", "*", "/", "%", "**", "==", "!=", "===", "!==", "<", "<=", "&&", "||", "??", "&", "|",
    "^", "<<"]

def touching (text : String) : Parser Unit := do
  let _ ← satisfying fun t => t.isMark text && t.touches

def angleOperator : Parser Unit := do
  mark ">"
  touching "=" <|> do
    touching ">" <|> pure ()
    touching ">" <|> pure ()
    if ← isNext fun t => t.isMark "=" && t.touches then failure else pure ()

def binaryOperator : Parser Unit :=
  angleOperator <|> do
    let _ ← satisfying fun t =>
      t.shape = .mark && binaryMarks.contains t.text || t.isWord "in" || t.isWord "instanceof"

/-- Which operator binds tighter decides nothing that a route can see. -/
def binarySuffix (sub : Sub) (left : Node) : Parser Node := do
  binaryOperator
  return .form "binary_expression" [left, ← sub .unary]

def typedSuffix (sub : Sub) (e : Node) : Parser Node := do
  sameLine
  word "as" <|> word "satisfies"
  let t ← (do word "const"; return .nothing) <|> sub .type
  return .wrapped e t

def ternarySuffix (sub : Sub) (condition : Node) : Parser Node := do
  mark "?"
  let yes ← sub .assignment
  mark ":"
  return .form "ternary_expression" [condition, yes, ← sub .assignment]

def augmentedMarks : List String :=
  ["+=", "-=", "*=", "/=", "%=", "**=", "<<=", "&=", "|=", "^=", "&&=", "||=", "??="]

def assignmentOperator : Parser String :=
  (do mark "="; return "assignment_expression") <|> do
    (do
      mark ">"
      touching ">"
      touching ">" <|> pure ()
      touching "=")
    <|> do
      let _ ← satisfying fun t => t.shape = .mark && augmentedMarks.contains t.text
    return "augmented_assignment_expression"

def assignmentSuffix (sub : Sub) (target : Node) : Parser Node := do
  let kind ← assignmentOperator
  return .form kind [target, ← sub .assignment]

def yieldExpression (sub : Sub) : Parser Node := form "yield_expression" do
  word "yield"
  skipMark "*"
  return [← option do sameLine; sub .assignment]

def assignment (sub : Sub) : Parser Node :=
  arrowFunction sub <|> yieldExpression sub <|> do
    let e ← sub .unary
    let e ← suffixed (fun e => binarySuffix sub e <|> typedSuffix sub e) (← read) e
    ternarySuffix sub e <|> assignmentSuffix sub e <|> pure e

def expression (sub : Sub) : Parser Node := do
  let e ← sub .assignment
  match ← many (do mark ","; sub .assignment) with
  | [] => return e
  | more => return .form "sequence_expression" (e :: more)

end ArkRoutes.Source.Grammar
