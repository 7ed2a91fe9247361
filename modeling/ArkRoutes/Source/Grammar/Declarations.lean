import ArkRoutes.Source.Grammar.Expressions

namespace ArkRoutes.Source.Grammar

open Parser

def declarator (sub : Sub) : Parser Node := do
  let target ← sub .pattern
  skipMark "!"
  let t ← typing sub
  return .binding target t (← initializer sub <|> pure .uninitialized)

def variableList (sub : Sub) : Parser Node := do
  word "const" <|> word "let" <|> word "var"
  let d ← declarator sub
  let more ← many (do mark ","; declarator sub)
  return .variableList (d :: more)

/-- A member without a value still counts if its name is plain. -/
def enumMember (sub : Sub) : Parser Node := do
  let k ← key sub
  (do return .binding k .nothing (← initializer sub)) <|>
    match k with
    | .name _ | .string _ => return .binding k .nothing .automatic
    | _ => return k

def enumDeclaration (sub : Sub) : Parser Node := do
  skipWord "const"
  word "enum"
  let t ← satisfying Token.isName
  return .enumDecl t.text (← between "\x7b" "\x7d" (separated (enumMember sub)))

def functionDeclaration (sub : Sub) : Parser Node := form "function_declaration" do
  skipWord "async"
  word "function"
  skipMark "*"
  let n ← name
  return n :: (← functionTail sub)

def interfaceDeclaration (sub : Sub) : Parser Node := form "interface_declaration" do
  word "interface"
  let n ← name
  let generics ← option (typeParameters sub)
  let bases ← (do word "extends"; separated (sub .type)) <|> pure []
  return n :: generics :: bases ++ [← objectType sub]

def typeAlias (sub : Sub) : Parser Node := form "type_alias" do
  word "type"
  let n ← name
  let generics ← option (typeParameters sub)
  mark "="
  return [n, generics, ← sub .type]

def namespaceDeclaration (sub : Sub) : Parser Node := form "namespace" do
  word "namespace" <|> word "module"
  let n ← name <|> stringNode
  let more ← many (do mark "."; propertyName)
  return n :: more ++ [← block sub <|> (match n with | .string _ => pure .nothing | _ => failure)]

def globalScope (sub : Sub) : Parser Node := do
  word "global"
  block sub

def declaration (sub : Sub) : Parser Node :=
  enumDeclaration sub <|> variableList sub <|> functionDeclaration sub <|> classDeclaration sub []
  <|> interfaceDeclaration sub <|> typeAlias sub <|> namespaceDeclaration sub

/-- What is only announced is not at the top level of this file. -/
def ambientDeclaration (sub : Sub) : Parser Node := form "ambient_declaration" do
  word "declare"
  return [← declaration sub <|> globalScope sub]

def moduleName : Parser String :=
  (do return (← satisfying (·.shape = .word)).text) <|> stringText

def renamed : Parser (String × String) := do
  let n ← moduleName
  (do word "as"; return (n, ← moduleName)) <|> return (n, n)

def specifier : Parser (String × String) :=
  (do
    word "type" <|> word "typeof"
    let r ← renamed
    if ← isNext fun t => t.isMark "," || t.isMark "\x7d" then return r else failure)
  <|> renamed

def specifiers : Parser (List (String × String)) := between "\x7b" "\x7d" (separated specifier)

def namedImports : Parser (List ImportedName) := do
  return (← specifiers).map fun (n, l) => .named n l

def namespaceImport : Parser (List ImportedName) := do
  mark "*"
  word "as"
  return [.everything (← satisfying Token.isName).text]

def importClause : Parser (List ImportedName) :=
  namespaceImport <|> namedImports <|> do
    let t ← satisfying Token.isName
    let more ← (do mark ","; namespaceImport <|> namedImports) <|> pure []
    return .default t.text :: more

def attributes (sub : Sub) : Parser Unit := do
  (do
    word "with" <|> word "assert"
    let _ ← objectLiteral sub) <|> pure ()

def importFrom (sub : Sub) : Parser Node := do
  let clause := do let names ← importClause; word "from"; return names
  let names ← clause <|> do
    word "type" <|> word "typeof"
    clause
  let source ← stringText
  attributes sub
  return .importFrom names source

def importOnly (sub : Sub) : Parser Node := do
  let _ ← stringText
  attributes sub
  return .nothing

def importRequire : Parser Node := do
  let _ ← name
  mark "="
  word "require"
  let _ ← between "(" ")" stringText
  return .nothing

def importAlias : Parser Node := form "import_alias" do
  skipWord "type"
  let n ← name
  mark "="
  let m ← name
  return n :: m :: (← many (do mark "."; propertyName))

def importStatement (sub : Sub) : Parser Node := do
  word "import"
  importOnly sub <|> importFrom sub <|> importRequire <|> (do word "type"; importRequire)
    <|> importAlias

def exportStar (sub : Sub) : Parser Node := do
  skipWord "type"
  mark "*"
  let isNamed ← (do word "as"; let _ ← moduleName; return true) <|> pure false
  word "from"
  let source ← stringText
  attributes sub
  return if isNamed then .nothing else .exportAll source

def exportFrom (sub : Sub) : Parser Node := do
  skipWord "type"
  let names ← specifiers
  word "from"
  let source ← stringText
  attributes sub
  return .exportFrom (names.map fun (o, e) => ⟨o, e⟩) source

/-- A list of the module's own names: each leaves its words, except what is quoted. -/
def exportList : Parser Node := do
  skipWord "type"
  let moduleWord := propertyName <|> stringNode
  let plain := do
    let n ← moduleWord
    form "export_specifier" ((do word "as"; return [n, ← moduleWord]) <|> return [n])
  let marked := do
    word "type" <|> word "typeof"
    let n ← plain
    if ← isNext fun t => t.isMark "," || t.isMark "\x7d" then return n else failure
  form "export_clause" (between "\x7b" "\x7d" (separated (marked <|> plain)))

def exportedDecorated (sub : Sub) : Parser Node := do
  let own ← many (decorator sub)
  if own.isEmpty then failure else classDeclaration sub own

def exportDefault (sub : Sub) : Parser Node := do
  word "default"
  exportedDecorated sub <|> classDeclaration sub [] <|> functionDeclaration sub
    <|> interfaceDeclaration sub <|> form "export_default" do return [← sub .expression]

def exportOther (sub : Sub) : Parser Node := form "export_other" do
  (do mark "="; return [← sub .expression])
  <|> (do word "as"; word "namespace"; return [← name])
  <|> (do word "import"; return [← importAlias])

def exportedDeclaration (sub : Sub) (outer : List Node) : Parser Node := do
  word "export"
  let d ← exportDefault sub <|> exportedDecorated sub <|> ambientDeclaration sub <|> declaration sub
  return .exported outer d

def exportOnly (sub : Sub) : Parser Node := do
  word "export"
  exportStar sub <|> exportFrom sub <|> exportList <|> exportOther sub

def exportStatement (sub : Sub) : Parser Node := exportOnly sub <|> exportedDeclaration sub []

end ArkRoutes.Source.Grammar
