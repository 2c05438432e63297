import ContentQuery.Text.Decimal

namespace ContentQuery

/-- A JSON value. A number is the text that it is written as. -/
inductive Json where
  | null
  | bool (value : Bool)
  | number (lexeme : String)
  | string (value : String)
  | array (items : List Json)
  | object (members : List (String × Json))
  deriving Inhabited, Repr

namespace Json

/-- The value of a number that is written with digits alone and fits a 64-bit word. -/
def natural? : Json → Option Nat
  | .number lexeme => (Decimal.read Decimal.wordMax lexeme.toList).toOption
  | _ => none

def string? : Json → Option String
  | .string value => some value
  | _ => none

end Json

end ContentQuery
