import ArkRoutes.Source.Grammar.Declarations

namespace ArkRoutes.Source.Grammar

open Parser

def terminated (p : Parser Node) : Parser Node := do
  let n ← p
  skipMark ";"
  return n

def condition (sub : Sub) : Parser Node := between "(" ")" (sub .expression)

def ifStatement (sub : Sub) : Parser Node := form "if_statement" do
  word "if"
  let c ← condition sub
  let yes ← sub .statement
  return [c, yes, ← option do word "else"; sub .statement]

def whileStatement (sub : Sub) : Parser Node := form "while_statement" do
  word "while" <|> word "with"
  let c ← condition sub
  return [c, ← sub .statement]

def doStatement (sub : Sub) : Parser Node := form "do_statement" do
  word "do"
  let body ← sub .statement
  word "while"
  return [body, ← condition sub]

def forEachHeader (sub : Sub) : Parser (List Node) := do
  word "const" <|> word "let" <|> word "var" <|> pure ()
  let target ← sub .pattern
  let value ← option (initializer sub)
  word "of" <|> word "in"
  return [target, value, ← sub .expression]

def forHeader (sub : Sub) : Parser (List Node) := do
  let first ← option (variableList sub <|> sub .expression)
  (do word "of" <|> word "in"; return [first, ← sub .expression]) <|> do
    mark ";"
    let second ← option (sub .expression)
    mark ";"
    return [first, second, ← option (sub .expression)]

def forStatement (sub : Sub) : Parser Node := form "for_statement" do
  word "for"
  skipWord "await"
  let header ← between "(" ")" (forEachHeader sub) <|> between "(" ")" (forHeader sub)
  return header ++ [← sub .statement]

def catchClause (sub : Sub) : Parser Node := form "catch_clause" do
  word "catch"
  let caught ← (between "(" ")" do
    let p ← sub .pattern
    return [p, ← typing sub]) <|> pure []
  return caught ++ [← block sub]

def tryStatement (sub : Sub) : Parser Node := form "try_statement" do
  word "try"
  let body ← block sub
  let handler ← option (catchClause sub)
  return [body, handler, ← option do word "finally"; block sub]

def switchCase (sub : Sub) : Parser Node := form "switch_case" do
  let value ← (do word "default"; return .nothing) <|> do word "case"; sub .expression
  mark ":"
  let closing := word "case" <|> word "default" <|> mark "\x7d"
  let statements ← many do
    if ← (do closing; return true) <|> pure false then failure
    else sub .statement <|> do let _ ← next; return .recovered []
  return value :: statements

def switchStatement (sub : Sub) : Parser Node := form "switch_statement" do
  word "switch"
  let subject ← condition sub
  let cases ← between "\x7b" "\x7d" (many (switchCase sub))
  return subject :: cases

def leavingStatement (sub : Sub) : Parser Node := form "leaving_statement" do
  word "return" <|> word "throw"
  return [← option do sameLine; sub .expression]

def jumpStatement : Parser Node := form "jump_statement" do
  word "break" <|> word "continue" <|> word "debugger"
  return [← option do sameLine; name]

def labeledStatement (sub : Sub) : Parser Node := form "labeled_statement" do
  let n ← name
  mark ":"
  return [n, ← option (sub .statement)]

/-- Decorators belong to the class behind them, or to the declaration behind their `export`. In front
of anything else they stand alone, and so does an `export` that exports nothing. -/
def decorated (sub : Sub) : Parser Node := do
  let own ← many (decorator sub)
  if own.isEmpty then failure
  else classDeclaration sub own <|> exportedDeclaration sub own <|> do
    if ← Parser.succeeds (exportOnly sub) then pure () else skipWord "export"
    return .recovered own

def exportWord : Parser Node := do
  word "export"
  return .name "export"

/-- No statement needs an end mark, so `struct Home { }` is two names and a block. -/
def statement (sub : Sub) : Parser Node :=
  block sub <|> (do mark ";"; return .nothing)
  <|> decorated sub
  <|> terminated (importStatement sub)
  <|> terminated (exportStatement sub)
  <|> exportWord
  <|> terminated (declaration sub)
  <|> terminated (ambientDeclaration sub)
  <|> ifStatement sub <|> whileStatement sub <|> terminated (doStatement sub) <|> forStatement sub
  <|> tryStatement sub <|> switchStatement sub
  <|> terminated (leavingStatement sub) <|> terminated jumpStatement
  <|> labeledStatement sub
  <|> terminated (sub .expression)

end ArkRoutes.Source.Grammar
