import TurtleLogo.Folder
import TurtleLogo.Number.Basic

/-! # Faults

    Everything that can end a run early, as causes.  `Fault.kind` sorts them,
    `Fault.message` gives the words a learner reads.  Friendly faults are told
    to the learner; the others are the host's own and pass through a run,
    except the three that a run turns into friendly ones (`Fault.friendly`). -/

namespace TurtleLogo

/-- The forms that take blocks of commands. -/
inductive BlockPlace where
  | repeatBody
  | ifBody
  | ifelseBody
  | forControl
  | forBody
  | whileCondition
  | whileBody
  | filledBody
  | askBody
deriving DecidableEq

/-- What a form says when its block is missing. -/
def BlockPlace.complaint : BlockPlace → String
  | .repeatBody => "REPEAT needs commands in brackets, like: REPEAT 4 [FD 100 RT 90]"
  | .ifBody => "IF needs commands in brackets, like: IF :x > 5 [PRINT :x]"
  | .ifelseBody => "IFELSE needs two bracket groups: IFELSE condition [do if true] [do if false]"
  | .forControl =>
      "FOR needs a control list like [i 1 10], for example: FOR [i 1 10] [PRINT :i]"
  | .forBody => "FOR needs commands in brackets after the control list"
  | .whileCondition => "WHILE needs a condition in brackets: WHILE [:x < 10] [commands]"
  | .whileBody => "WHILE needs commands in brackets after the condition"
  | .filledBody => "FILLED needs commands in brackets: FILLED [REPEAT 4 [FD 100 RT 90]]"
  | .askBody => "ASK needs commands in brackets: ASK 1 [FD 100]"

/-- The two kinds of sequence, lists of items and words of characters. -/
inductive SequenceKind where
  | items
  | characters
deriving DecidableEq

namespace SequenceKind

/-- The name of the whole. -/
def whole : SequenceKind → String
  | .items => "list"
  | .characters => "word"

/-- The name of one part. -/
def part : SequenceKind → String
  | .items => "item"
  | .characters => "character"

/-- The name of one part at the head of a sentence. -/
def partCapital : SequenceKind → String
  | .items => "Item"
  | .characters => "Character"

end SequenceKind

/-- What can end a run early. -/
inductive Fault where
  -- The text of the program.
  | outOfWords
  | unclosedBracket
  | unclosedParen
  | notUnderstood (text : Text)
  | missingBlock (place : BlockPlace)
  | shortControl
  | namelessProcedure
  | builtinName (name : Text)
  | missingEnd (name : Text)
  | strayEnd
  -- Names.
  | unbound (name : Text)
  | unknownCommand (name : Text) (suggestion : Option Text)
  | unknownFunction (name : Text) (suggestion : Option Text)
  | commandAsValue (name : Text)
  | idleValue (name : Text)
  -- Values of the wrong sort.
  | needsNumber (who got : Text)
  | incomparable (left right : Text)
  | needsCharacter
  | needsPoint (who : Text)
  | needsSequence (who : Text)
  | emptySequence (who : Text) (kind : SequenceKind)
  | needsListFront
  | needsListEnd
  | needsName (who : Text)
  -- Places in a sequence.
  | nothingToGet (kind : SequenceKind)
  | noSuchPlace (kind : SequenceKind) (index : Text) (size : Nat)
  -- Numbers.
  | divideByZero
  | cannotWork (who input : Text)
  | cannotRaise (base exponent : Text)
  | noCharacter (code : Text)
  | zeroStep
  | tooDeep
  | numberTooBig
  | numberNotUsable
  -- The session.
  | busy
  | nobodyToAnswer (prompt : Text)
  -- The host's own.
  | arithmetic (fault : ArithmeticFault)
  /-- A program holds a whole number with too many digits. -/
  | longNumber (negative : Bool) (digits : Nat)
  | depthExceeded
  | listAsTurtle
  /-- The current turtle is not among the turtles. -/
  | noSuchTurtle
  | noNumber
  | unknownMode
  | noSuchIndex
  /-- The frame that is closed is not the one that was opened. -/
  | strayFrame
  | notRunning
  | cannotSave
  | noRoom
  | cannotOpen (path : Text)
  | badPath (fault : FileFault)
  | undecodable
  /-- The allowance of loop passes is used up; no real run meets it. -/
  | outOfPatience
deriving DecidableEq

/-- The sorts of faults. -/
inductive FaultKind where
  | plain
  | parse
  | unbound
  | unknown
  | wrongSort
  | outOfRange
  | divideByZero
  | busy
  | tooBig
  | notUsable
  | zeroDivisor
  | depth
  | unhashable
  | noKey
  | notNumeric
  | assertion
  | index
  | idle
  | unsupported
  | resources
  | system
  | path
  | decoding
  | patience
deriving DecidableEq

namespace Fault

/-- The sort of a fault. -/
def kind : Fault → FaultKind
  | .outOfWords | .unclosedBracket | .unclosedParen | .notUnderstood _ | .missingBlock _
  | .shortControl | .namelessProcedure | .builtinName _ | .missingEnd _ | .strayEnd => .parse
  | .unbound _ => .unbound
  | .unknownCommand .. | .unknownFunction .. | .commandAsValue _ | .idleValue _ => .unknown
  | .needsNumber .. | .incomparable .. | .needsCharacter | .needsPoint _ | .needsSequence _
  | .emptySequence .. | .needsListFront | .needsListEnd | .needsName _ => .wrongSort
  | .nothingToGet _ | .noSuchPlace .. => .outOfRange
  | .divideByZero => .divideByZero
  | .cannotWork .. | .cannotRaise .. | .noCharacter _ | .zeroStep | .tooDeep | .numberTooBig
  | .numberNotUsable | .nobodyToAnswer _ => .plain
  | .busy => .busy
  | .arithmetic .tooBig => .tooBig
  | .arithmetic .notUsable | .longNumber .. => .notUsable
  | .arithmetic .zeroDivisor => .zeroDivisor
  | .depthExceeded => .depth
  | .listAsTurtle => .unhashable
  | .noSuchTurtle => .noKey
  | .noNumber => .notNumeric
  | .unknownMode | .strayFrame => .assertion
  | .noSuchIndex => .index
  | .notRunning => .idle
  | .cannotSave => .unsupported
  | .noRoom => .resources
  | .cannotOpen _ => .system
  | .badPath _ => .path
  | .undecodable => .decoding
  | .outOfPatience => .patience

/-- A fault that is told to the learner. -/
def isFriendly (f : Fault) : Bool :=
  match f.kind with
  | .plain | .parse | .unbound | .unknown | .wrongSort | .outOfRange | .divideByZero | .busy => true
  | _ => false

/-- A count with its noun. -/
def counted (n : Nat) (noun : String) : Text :=
  Text.ofNat n ++ " " ++ noun ++ (if n == 1 then "" else "s")

/-- The double quote, which stands before words in messages. -/
def quote : Text := [.ofNat 34]

/-- The words for a fault. -/
def message : Fault → Text
  | .outOfWords => "I ran out of things to read! Did you forget to finish your code?"
  | .unclosedBracket => "You opened [ but forgot to close it with ]"
  | .unclosedParen => "You opened ( but forgot to close it with )"
  | .notUnderstood text =>
      "I don't understand " ++ quote ++ text ++ quote ++ " here. Check your code!"
  | .missingBlock place => place.complaint
  | .shortControl => "FOR control list needs at least 3 things: [variable start end]"
  | .namelessProcedure => "TO needs a name for your procedure: TO SQUARE ... END"
  | .builtinName name =>
      name ++ " is already a built-in word. Pick another name for your procedure."
  | .missingEnd name => "Your procedure " ++ name ++ " is missing END. Every TO needs an END!"
  | .strayEnd => "I found END without a TO before it."
  | .unbound name =>
      "I don't know the variable :" ++ name ++ " yet. Did you create it with MAKE first?"
  | .unknownCommand name (some s) =>
      "I don't know " ++ quote ++ name ++ quote ++ ". Did you mean " ++ s ++ "?"
  | .unknownCommand name none =>
      "I don't know the command " ++ quote ++ name ++ quote ++ ". Check your spelling!"
  | .unknownFunction name (some s) =>
      "I don't know the function " ++ quote ++ name ++ quote ++ ". Did you mean " ++ s ++ "?"
  | .unknownFunction name none =>
      "I don't know the function " ++ quote ++ name ++ quote ++ ". Check your spelling!"
  | .commandAsValue name =>
      name ++ " is a command. It doesn't give back a value to use here."
  | .idleValue name => "You don't say what to do with " ++ name ++ ". Try PRINT " ++ name
  | .needsNumber who got => who ++ " needs a number, but got " ++ got ++ "."
  | .incomparable a b => "I can't tell which is bigger: " ++ a ++ " or " ++ b ++ "."
  | .needsCharacter => "ASCII needs a word with at least one character!"
  | .needsPoint who => who ++ " needs a point like [x y]"
  | .needsSequence who => who ++ " needs a list like [1 2 3] or a word"
  | .emptySequence who kind =>
      "The " ++ kind.whole ++ " is empty! " ++ who ++ " needs at least one " ++ kind.part ++ "."
  | .needsListFront =>
      "FPUT needs a list: FPUT " ++ quote ++ "hello [1 2 3] puts " ++ quote ++ "hello at the front"
  | .needsListEnd =>
      "LPUT needs a list: LPUT " ++ quote ++ "hello [1 2 3] puts " ++ quote ++ "hello at the end"
  | .needsName who => who ++ " needs a name, like " ++ who ++ " " ++ quote ++ "size 100"
  | .nothingToGet kind =>
      "The " ++ kind.whole ++ " is empty! There are no " ++ kind.part ++ "s to get."
  | .noSuchPlace kind index size =>
      kind.partCapital ++ " " ++ index ++ " doesn't exist! The " ++ kind.whole ++ " only has "
        ++ counted size kind.part ++ "."
  | .divideByZero => "Oops! You can't divide by zero."
  | .cannotWork who input => who ++ " can't work with " ++ input ++ "."
  | .cannotRaise a b => "POWER can't work with " ++ a ++ " and " ++ b ++ "."
  | .noCharacter code => "CHAR can't make a character from " ++ code ++ "."
  | .zeroStep => "FOR loop step can't be zero. The loop would never end!"
  | .tooDeep =>
      "Too many procedures calling each other! Does your procedure have a way to STOP?"
  | .numberTooBig => "That number got too big for me to work with!"
  | .numberNotUsable =>
      "That arithmetic doesn't give a number I can use. Is something infinitely big?"
  | .busy => "A program is already running. Stop it before starting another."
  | .nobodyToAnswer prompt => "There is nobody here to answer: " ++ prompt
  | .cannotOpen [] => "SDL_RWFromFile(): No file or no mode specified"
  | .cannotOpen path => "Couldn't open " ++ path
  | .badPath f => f.message
  | .longNumber _ digits =>
      "A number of " ++ counted digits "digit" ++ " is too long for me to read."
  | .arithmetic _ | .depthExceeded | .listAsTurtle | .noSuchTurtle | .noNumber | .unknownMode
  | .noSuchIndex | .strayFrame | .notRunning | .cannotSave | .noRoom | .undecodable
  | .outOfPatience => ""

/-- What a run makes of the faults that its statements leave behind. -/
def friendly : Fault → Fault
  | .depthExceeded => .tooDeep
  | .arithmetic .tooBig => .numberTooBig
  | .arithmetic .notUsable => .numberNotUsable
  | f => f

/-- The name that an unknown or unbound name is about. -/
def name? : Fault → Option Text
  | .unbound n | .unknownCommand n _ | .unknownFunction n _ | .commandAsValue n | .idleValue n =>
      some n
  | _ => none

/-- The word that was probably meant. -/
def suggestion? : Fault → Option Text
  | .unknownCommand _ s | .unknownFunction _ s => s
  | _ => none

end Fault

/-- Arithmetic inside a computation that may fail in other ways too. -/
def liftArithmetic {α : Type} : Except ArithmeticFault α → Except Fault α
  | .ok a => .ok a
  | .error f => .error (.arithmetic f)

/-- Arithmetic inside a computation with a state. -/
def compute {σ α : Type} : Except ArithmeticFault α → EStateM Fault σ α
  | .ok a => pure a
  | .error f => throw (.arithmetic f)

/-- A computation without a state inside one with a state. -/
def attempt {σ α : Type} : Except Fault α → EStateM Fault σ α
  | .ok a => pure a
  | .error f => throw f

/-- Does something after a computation, which depends on how it ends; where
    that fails too, its own fault counts. -/
def wrapUp {σ α : Type} (act : EStateM Fault σ α) (done failed : EStateM Fault σ Unit) :
    EStateM Fault σ α :=
  fun s =>
    match act s with
    | .ok a s =>
        match done s with
        | .ok _ s => .ok a s
        | .error g s => .error g s
    | .error f s =>
        match failed s with
        | .ok _ s => .error f s
        | .error g s => .error g s

/-- Does something however a computation ends. -/
def afterwards {σ α : Type} (act : EStateM Fault σ α) (after : σ → σ) : EStateM Fault σ α :=
  fun s =>
    match act s with
    | .ok a s => .ok a (after s)
    | .error f s => .error f (after s)

end TurtleLogo
