import TurtleLogo.Value.Order

/-! # Tokens

    The words of a program.  Every token also has a value: it is what the
    token stands for inside a list literal. -/

namespace TurtleLogo

/-- The arithmetic signs. -/
inductive Operator where
  | plus
  | minus
  | times
  | over
deriving DecidableEq

/-- The sign itself. -/
def Operator.symbol : Operator → String
  | .plus => "+"
  | .minus => "-"
  | .times => "*"
  | .over => "/"

/-- A token of a program. -/
inductive Token where
  | number (n : Number)
  | word (name : Text)
  | quoted (text : Text)
  | varref (name : Text)
  | openBracket
  | closeBracket
  | openParen
  | closeParen
  | operator (op : Operator)
  | comparison (c : Comparison)
deriving DecidableEq

namespace Token

/-- The name of the kind of a token. -/
def kindName : Token → String
  | .number _ => "NUMBER"
  | .word _ => "WORD"
  | .quoted _ => "QUOTED"
  | .varref _ => "VARREF"
  | .openBracket => "LBRACKET"
  | .closeBracket => "RBRACKET"
  | .openParen => "LPAREN"
  | .closeParen => "RPAREN"
  | .operator _ => "OPERATOR"
  | .comparison _ => "COMPARISON"

/-- What a token that is not a number spells. -/
def spelling : Token → Text
  | .number _ => ""
  | .word s => s
  | .quoted s => s
  | .varref s => s
  | .openBracket => "["
  | .closeBracket => "]"
  | .openParen => "("
  | .closeParen => ")"
  | .operator op => op.symbol
  | .comparison c => c.symbol

/-- The value that a token stands for inside a list. -/
def value : Token → Value
  | .number n => .number n
  | t => .word t.spelling

/-- The token as debugging output shows it. -/
def listing (t : Token) : Except ArithmeticFault Text := do
  let v ← t.value.listing
  .ok ("<" ++ t.kindName ++ " " ++ v ++ ">")

/-- A token after which a minus sign is a subtraction, outside brackets. -/
def endsValue : Token → Bool
  | .number _ | .word _ | .closeParen | .closeBracket => true
  | _ => false

/-- The bracket depth after a token. -/
def depthAfter (depth : Int) : Token → Int
  | .openBracket => depth + 1
  | .closeBracket => depth - 1
  | _ => depth

end Token

end TurtleLogo
