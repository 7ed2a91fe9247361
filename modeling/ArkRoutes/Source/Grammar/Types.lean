import ArkRoutes.Source.Grammar.Goal

namespace ArkRoutes.Source.Grammar

open Parser

def builtinTypes : List String :=
  ["any", "number", "boolean", "string", "symbol", "unknown", "never", "void", "object"]

def literalWords : List String := ["true", "false", "null", "undefined", "this"]

def silentType : Parser Node := do
  let _ ← satisfying fun t =>
    t.shape = .word && (builtinTypes.contains t.text || literalWords.contains t.text)
  return .nothing

def literalType (sub : Sub) : Parser Node :=
  stringNode
  <|> (do skipMark "-"; let _ ← satisfying (·.shape = .number); return .nothing)
  <|> template (sub .type)

def namedType (sub : Sub) : Parser Node := form "named_type" do
  let n ← name
  let more ← many (do mark "."; propertyName)
  return n :: more ++ [← option (typeArguments sub)]

def importedType (sub : Sub) : Parser Node := form "import_type" do
  word "import"
  let _ ← between "(" ")" (sub .type)
  let more ← many (do mark "."; propertyName)
  return more ++ [← option (typeArguments sub)]

def typeQuery (sub : Sub) : Parser Node := do
  word "typeof"
  importedType sub <|> namedType sub <|> do
    word "this"
    form "this" (many (do mark "."; propertyName))

def tupleMember (sub : Sub) : Parser Node := do
  skipMark "..."
  (form "tuple_member" do
    let n ← name
    skipMark "?"
    mark ":"
    return [n, ← sub .type])
  <|> do
    let t ← sub .type
    skipMark "?"
    return t

def signModifier (p : Parser Unit) : Parser Unit := do
  skipMark "+"
  skipMark "-"
  p

def mappedMember (sub : Sub) : Parser Node := form "mapped_type" do
  signModifier (word "readonly") <|> pure ()
  let (n, domain, renamed) ← between "[" "]" do
    let n ← name
    word "in"
    let domain ← sub .type
    return (n, domain, ← option do word "as"; sub .type)
  signModifier (mark "?") <|> pure ()
  return [n, domain, renamed, ← typing sub]

def indexMember (sub : Sub) : Parser Node := form "index_signature" do
  skipWord "readonly"
  let (n, t) ← between "[" "]" do
    let n ← name
    mark ":"
    return (n, ← sub .type)
  return [n, t, ← typing sub]

def signature (sub : Sub) : Parser (List Node) := do
  let generics ← option (typeParameters sub)
  let ps ← parameters sub
  return [generics, ps, ← typing sub]

def keyModifier (words : List String) : Parser Unit := do
  let _ ← satisfying fun t => t.shape = .word && words.contains t.text
  if ← isNext fun t => t.shape = .word || t.shape = .privateWord || t.shape = .number
      || t.isMark "[" || t.isMark "*" || (t.shape matches .string _) then pure ()
  else failure

def propertyMember (sub : Sub) : Parser Node := form "property" do
  let _ ← many (keyModifier ["readonly", "get", "set", "static", "public", "private", "protected"])
  let k ← key sub
  skipMark "?"
  (do return k :: (← signature sub)) <|> do return [k, ← typing sub]

def objectMember (sub : Sub) : Parser Node :=
  (do mark ";" <|> mark ","; return .nothing)
  <|> mappedMember sub <|> indexMember sub
  <|> form "call_signature" (signature sub)
  <|> form "construct_signature" (do word "new"; signature sub)
  <|> propertyMember sub

def objectType (sub : Sub) : Parser Node :=
  form "object_type" (between "\x7b" "\x7d" (many (objectMember sub)))

def primaryType (sub : Sub) : Parser Node :=
  silentType <|> literalType sub <|> typeQuery sub <|> importedType sub
  <|> between "(" ")" (sub .type)
  <|> form "tuple_type" (between "[" "]" (separated (tupleMember sub)))
  <|> objectType sub <|> namedType sub

def bracketSuffix (sub : Sub) : Parser Node := do
  sameLine
  between "[" "]" (option (sub .type))

def postfixType (sub : Sub) : Parser Node := form "type" do
  let t ← primaryType sub
  return t :: (← many (bracketSuffix sub))

def typeOperator : Parser Unit := do
  let _ ← satisfying fun t =>
    t.shape = .word && ["keyof", "readonly", "unique", "infer"].contains t.text

def operandType (sub : Sub) : Parser Node :=
  (do let _ ← many typeOperator; postfixType sub) <|> postfixType sub

def unionType (sub : Sub) : Parser Node := form "union_type" do
  let join := mark "|" <|> mark "&"
  join <|> pure ()
  let t ← operandType sub
  return t :: (← many (do join; operandType sub))

def typePredicate (sub : Sub) : Parser Node := form "type_predicate" do
  let subject := name <|> do word "this"; return .nothing
  (do
    word "asserts"
    let n ← subject
    return [n, ← option do word "is"; sub .type])
  <|> do
    let n ← subject
    sameLine
    word "is"
    return [n, ← sub .type]

def functionType (sub : Sub) : Parser Node := form "function_type" do
  (do skipWord "abstract"; word "new") <|> pure ()
  if ← parametersAhead then
    let generics ← option (typeParameters sub)
    let ps ← parameters sub
    mark "=>"
    return [generics, ps, ← sub .type]
  else failure

def type (sub : Sub) : Parser Node :=
  functionType sub <|> typePredicate sub <|> do
    let t ← unionType sub
    (form "conditional_type" do
      word "extends"
      let bound ← sub .type
      mark "?"
      let yes ← sub .type
      mark ":"
      return [t, bound, yes, ← sub .type]) <|> pure t

end ArkRoutes.Source.Grammar
