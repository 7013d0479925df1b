import TurtleLogo.Number.Text
import TurtleLogo.Text.Quoted
import TurtleLogo.Fault

/-! # Values

    A value is nothing, a truth value, a number, a word, or a list of values.
    This module has the texts of values: `text` flattens lists, `shown` keeps
    their brackets, `listing` tells all kinds apart.  A text fails only where
    a whole number in it is too long. -/

namespace TurtleLogo

/-- A value of the language. -/
inductive Value where
  | nothing
  | truth (b : Bool)
  | number (n : Number)
  | word (s : Text)
  | list (items : List Value)

namespace Value

instance : Inhabited Value := ⟨.nothing⟩

/-- A whole number as a value. -/
def ofInt (n : Int) : Value := .number (.int n)

/-- A number and nothing else. -/
def isNumber : Value → Bool
  | .number _ => true
  | _ => false

/-- A word. -/
def isWord : Value → Bool
  | .word _ => true
  | _ => false

/-- A list. -/
def isList : Value → Bool
  | .list _ => true
  | _ => false

/-! ## Texts -/

/-- The text of a value that is not a list. -/
def atomText : Value → Except ArithmeticFault Text
  | .nothing => .ok ""
  | .truth true => .ok "true"
  | .truth false => .ok "false"
  | .number n => n.text
  | .word s => .ok s
  | .list _ => .ok ""

mutual
/-- The text that `PRINT` and `TYPE` give: lists become their items, with
    spaces between. -/
def text : Value → Except ArithmeticFault Text
  | .list items => do
      let parts ← texts items
      .ok (Text.joinWith " " parts)
  | v => atomText v
/-- The texts of the items of a list. -/
def texts : List Value → Except ArithmeticFault (List Text)
  | [] => .ok []
  | v :: vs => do
      let t ← text v
      let ts ← texts vs
      .ok (t :: ts)
end

mutual
/-- The text that `SHOW` gives: a list keeps its brackets. -/
def shown : Value → Except ArithmeticFault Text
  | .list items => do
      let parts ← showns items
      .ok ("[" ++ Text.joinWith " " parts ++ "]")
  | v => atomText v
/-- The shown texts of the items of a list. -/
def showns : List Value → Except ArithmeticFault (List Text)
  | [] => .ok []
  | v :: vs => do
      let t ← shown v
      let ts ← showns vs
      .ok (t :: ts)
end

mutual
/-- The text that tells values of all kinds apart. -/
def listing : Value → Except ArithmeticFault Text
  | .nothing => .ok "None"
  | .truth true => .ok "True"
  | .truth false => .ok "False"
  | .number n => n.listing
  | .word s => .ok (Text.quoted s)
  | .list items => do
      let parts ← listings items
      .ok ("[" ++ Text.joinWith ", " parts ++ "]")
/-- The listings of the items of a list. -/
def listings : List Value → Except ArithmeticFault (List Text)
  | [] => .ok []
  | v :: vs => do
      let t ← listing v
      let ts ← listings vs
      .ok (t :: ts)
end

/-- How a message names a value. -/
def described : Value → Except ArithmeticFault Text
  | .list items => do
      let t ← shown (.list items)
      .ok ("the list " ++ t)
  | .nothing => .ok "nothing"
  | .word s => .ok ("the word " ++ Fault.quote ++ s)
  | v => text v

/-! ## Readings -/

/-- The fault for a value that is not the number it should be. -/
def refuseNumber (v : Value) (who : Text) : Except Fault Number := do
  let got ← liftArithmetic v.described
  .error (.needsNumber who got)

/-- Numbers, and words that spell numbers, are numbers; nothing else is. -/
def asNumber (v : Value) (who : Text) : Except Fault Number :=
  match v with
  | .number n => .ok n
  | .word s =>
      match Number.read? (Text.trim s) with
      | some n => .ok n
      | none => refuseNumber v who
  | _ => refuseNumber v who

/-- What counts as true: everything but false, nothing, zero and what is
    empty. -/
def isTruthy : Value → Bool
  | .nothing => false
  | .truth b => b
  | .number n => !n.isZero
  | .word s => s != "FALSE" && s != ""
  | .list items => !items.isEmpty

/-- The items of a reply: its words, those that spell numbers as numbers. -/
def ofReply (s : Text) : List Value :=
  (Text.pieces s).map fun w =>
    match Number.read? w with
    | some n => .number n
    | none => .word w

/-- Lists give up their items; any other value goes in as itself. -/
def sentence : List Value → List Value
  | [] => []
  | .list items :: vs => items ++ sentence vs
  | v :: vs => v :: sentence vs

end Value

end TurtleLogo
