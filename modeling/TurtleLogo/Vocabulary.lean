import TurtleLogo.Text.Basic

/-! # The built-in vocabulary

    Commands stand at the head of a statement and functions inside
    expressions; both have a fixed number of inputs.  Forms and readers look
    at the tokens that follow them.  The tables list every spelling in the
    order in which suggestions consider them. -/

namespace TurtleLogo

/-- The built-in commands. -/
inductive Command where
  | make
  | makeLocal
  | forward
  | back
  | left
  | right
  | setX
  | setY
  | setHeading
  | circle
  | setPosition
  | arc
  | setPenSize
  | setPenColor
  | setBackground
  | tell
  | wait
  | home
  | penUp
  | penDown
  | penErase
  | penPaint
  | clearScreen
  | clean
  | hideTurtle
  | showTurtle
  | wrapMode
  | windowMode
  | fenceMode
  | printValue
  | showValue
  | typeValue
deriving DecidableEq

namespace Command

/-- The number of inputs. -/
def arity : Command → Nat
  | .make | .arc => 2
  | .home | .penUp | .penDown | .penErase | .penPaint | .clearScreen | .clean | .hideTurtle
  | .showTurtle | .wrapMode | .windowMode | .fenceMode => 0
  | _ => 1

/-- Every spelling of a command. -/
def table : List (Text × Command) := Text.keyed [
  ("MAKE", .make), ("LOCAL", .makeLocal),
  ("FORWARD", .forward), ("FD", .forward), ("BACK", .back), ("BK", .back),
  ("LEFT", .left), ("LT", .left), ("RIGHT", .right), ("RT", .right),
  ("SETX", .setX), ("SETY", .setY), ("SETHEADING", .setHeading), ("SETH", .setHeading),
  ("CIRCLE", .circle), ("SETPOS", .setPosition), ("ARC", .arc),
  ("SETPENSIZE", .setPenSize), ("SETPENCOLOR", .setPenColor), ("SETPC", .setPenColor),
  ("SETBACKGROUND", .setBackground), ("SETBG", .setBackground),
  ("TELL", .tell), ("WAIT", .wait), ("HOME", .home),
  ("PENUP", .penUp), ("PU", .penUp), ("PENDOWN", .penDown), ("PD", .penDown),
  ("PENERASE", .penErase), ("PE", .penErase), ("PENPAINT", .penPaint), ("PPT", .penPaint),
  ("CLEARSCREEN", .clearScreen), ("CS", .clearScreen), ("CLEAN", .clean),
  ("HIDETURTLE", .hideTurtle), ("HT", .hideTurtle),
  ("SHOWTURTLE", .showTurtle), ("ST", .showTurtle),
  ("WRAP", .wrapMode), ("WINDOW", .windowMode), ("FENCE", .fenceMode),
  ("PRINT", .printValue), ("SHOW", .showValue), ("TYPE", .typeValue)]

/-- The command that a word spells. -/
def ofName? (name : Text) : Option Command :=
  table.lookup name

/-- The first spelling of a command. -/
def name (c : Command) : Text :=
  ((table.find? (·.2 == c)).map (·.1)).getD ""

end Command

/-- The built-in functions. -/
inductive Function where
  | sqrt
  | sin
  | cos
  | tan
  | arctan
  | abs
  | int
  | round
  | random
  | exp
  | log
  | ln
  | log10
  | sign
  | power
  | remainder
  | modulo
  | min
  | max
  | xcor
  | ycor
  | heading
  | pos
  | penSize
  | penColor
  | who
  | turtles
  | word
  | char
  | ascii
  | uppercase
  | lowercase
  | towards
  | distance
  | first
  | last
  | butFirst
  | butLast
  | count
  | item
  | list
  | sentence
  | fput
  | lput
  | isEmpty
  | isList
  | isNumber
  | isWord
  | isMember
  | reverse
  | and
  | or
  | not
  | true
  | false
  | thing
  | repcount
deriving DecidableEq

namespace Function

/-- The number of inputs. -/
def arity : Function → Nat
  | .power | .remainder | .modulo | .min | .max | .word | .item | .list | .sentence | .fput
  | .lput | .isMember | .and | .or => 2
  | .xcor | .ycor | .heading | .pos | .penSize | .penColor | .who | .turtles | .true | .false
  | .repcount => 0
  | _ => 1

/-- Every spelling of a function. -/
def table : List (Text × Function) := Text.keyed [
  ("SQRT", .sqrt), ("SIN", .sin), ("COS", .cos), ("TAN", .tan), ("ARCTAN", .arctan),
  ("ABS", .abs), ("INT", .int), ("ROUND", .round), ("RANDOM", .random), ("EXP", .exp),
  ("LOG", .log), ("LN", .ln), ("LOG10", .log10), ("SIGN", .sign), ("POWER", .power),
  ("REMAINDER", .remainder), ("MODULO", .modulo), ("MIN", .min), ("MAX", .max),
  ("XCOR", .xcor), ("YCOR", .ycor), ("HEADING", .heading), ("POS", .pos),
  ("PENSIZE", .penSize), ("PENCOLOR", .penColor), ("PC", .penColor),
  ("WHO", .who), ("TURTLES", .turtles), ("WORD", .word), ("CHAR", .char), ("ASCII", .ascii),
  ("UPPERCASE", .uppercase), ("LOWERCASE", .lowercase),
  ("TOWARDS", .towards), ("DISTANCE", .distance), ("FIRST", .first), ("LAST", .last),
  ("BUTFIRST", .butFirst), ("BF", .butFirst), ("BUTLAST", .butLast), ("BL", .butLast),
  ("COUNT", .count), ("ITEM", .item), ("LIST", .list),
  ("SENTENCE", .sentence), ("SE", .sentence), ("FPUT", .fput), ("LPUT", .lput),
  ("EMPTY?", .isEmpty), ("LIST?", .isList), ("NUMBER?", .isNumber), ("WORD?", .isWord),
  ("MEMBER?", .isMember), ("REVERSE", .reverse), ("AND", .and), ("OR", .or), ("NOT", .not),
  ("TRUE", .true), ("FALSE", .false), ("THING", .thing), ("REPCOUNT", .repcount)]

/-- The function that a word spells. -/
def ofName? (name : Text) : Option Function :=
  table.lookup name

/-- The first spelling of a function. -/
def name (f : Function) : Text :=
  ((table.find? (·.2 == f)).map (·.1)).getD ""

end Function

/-- The forms, which read the tokens after them in ways of their own. -/
inductive Form where
  | to
  | endTo
  | repeatTimes
  | ifThen
  | ifElse
  | forLoop
  | whileLoop
  | stop
  | output
  | filled
  | ask
deriving DecidableEq

namespace Form

/-- Every spelling of a form. -/
def table : List (Text × Form) := Text.keyed [
  ("TO", .to), ("END", .endTo), ("REPEAT", .repeatTimes), ("IF", .ifThen), ("IFELSE", .ifElse),
  ("FOR", .forLoop), ("WHILE", .whileLoop), ("STOP", .stop), ("OUTPUT", .output), ("OP", .output),
  ("FILLED", .filled), ("ASK", .ask)]

/-- The form that a word spells. -/
def ofName? (name : Text) : Option Form :=
  table.lookup name

end Form

/-- The functions that ask a question. -/
inductive Reader where
  | readWord
  | readList
deriving DecidableEq

namespace Reader

/-- Every spelling of a reader. -/
def table : List (Text × Reader) := Text.keyed [("READWORD", .readWord), ("READLIST", .readList)]

/-- The reader that a word spells. -/
def ofName? (name : Text) : Option Reader :=
  table.lookup name

/-- The question asked when the program gives none. -/
def prompt : Reader → Text
  | .readWord => "Enter a word:"
  | .readList => "Enter values (space-separated):"

end Reader

/-- The functions that take any number of inputs between parentheses. -/
inductive Variadic where
  | list
  | word
  | sentence
deriving DecidableEq

/-- Every spelling of a function that takes any number of inputs. -/
def Variadic.table : List (Text × Variadic) := Text.keyed [
  ("LIST", .list), ("WORD", .word), ("SENTENCE", .sentence), ("SE", .sentence)]

/-- The function that takes any number of inputs after an opening parenthesis. -/
def Variadic.ofName? (name : Text) : Option Variadic :=
  table.lookup name

namespace Vocabulary

/-- All built-in words, in the order in which suggestions consider them. -/
def names : List Text :=
  Command.table.map (·.1) ++ Form.table.map (·.1) ++ Function.table.map (·.1)
    ++ Reader.table.map (·.1)

/-- Whether a word is built in. -/
def isBuiltin (name : Text) : Bool :=
  (Function.ofName? name).isSome || (Command.ofName? name).isSome || (Form.ofName? name).isSome
    || (Reader.ofName? name).isSome

end Vocabulary

end TurtleLogo
