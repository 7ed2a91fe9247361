import ArkRoutes.Source.Grammar.Statements
import ArkRoutes.Source.Node.Events
import ArkRoutes.Source.Token.Scan

namespace ArkRoutes.Source

namespace Grammar

def rule (sub : Sub) : Goal → Parser Node
  | .statement => statement sub
  | .expression => expression sub
  | .assignment => assignment sub
  | .unary => unary sub
  | .type => type sub
  | .pattern => pattern sub

/-- `depth` bounds how deep constructs may stand inside each other. -/
def parse : Nat → Goal → Parser Node
  | 0, _ => failure
  | depth + 1, goal => rule (parse depth) goal

def statements (tokens : List Token) : List Node :=
  match statementsUntil failure (parse (8 * tokens.length + 8)) tokens.length tokens with
  | some (nodes, _) => nodes
  | none => []

end Grammar

def statements (text : String) : List Node := Grammar.statements (Token.scan text)

def events (text : String) : List Event := Node.eventsAll true (statements text)

end ArkRoutes.Source
