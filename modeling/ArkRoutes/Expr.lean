import ArkRoutes.Text.Quoted

namespace ArkRoutes

inductive Literal where
  | text (value : String)
  | flag (value : Bool)
deriving DecidableEq, Inhabited

namespace Literal

def text? : Literal → Option String
  | text s => some s
  | flag _ => none

def flag? : Literal → Option Bool
  | flag b => some b
  | text _ => none

def display : Literal → String
  | text s => Text.quoted s
  | flag b => if b then "true" else "false"

end Literal

/-- An expression that no route needs is known by its kind only. -/
inductive Expr where
  | literal (value : Literal)
  | name (name : String)
  | member (object member : String)
  | object (properties : List (String × Expr))
  | other (kind : String)
deriving Inhabited

namespace Expr

def literal? : Expr → Option Literal
  | literal v => some v
  | _ => none

def describe : Expr → String
  | literal v => v.display
  | name n => n
  | member o m => o ++ "." ++ m
  | object _ => "\x7b...\x7d"
  | other kind => "<" ++ kind ++ ">"

end Expr

end ArkRoutes
