import TurtleLogo.Session.Run
import TurtleLogo.Report

/-! # The console

    What passes between a session and its host, as the console shows it: texts
    go to the output, one a line unless they stay on the line, errors to the
    error output, and questions are asked with a space after them. -/

namespace TurtleLogo.Console

/-- The part of a notice that goes to the output. -/
def echo : Notice → Text
  | .output text .normal => text ++ "\n"
  | .output text .inline => text
  | _ => []

/-- A question as it is asked. -/
def asked? : Notice → Option Text
  | .question prompt => some (prompt ++ " ")
  | _ => none

/-- The message of an error. -/
def complaint? : Notice → Option Text
  | .error message => some message
  | _ => none

/-- Everything on the output, questions left out. -/
def output (notices : Array Notice) : Text :=
  notices.toList.flatMap echo

/-- Everything on the output when questions are asked there, too. -/
def dialogue (notices : Array Notice) : Text :=
  notices.toList.flatMap fun n => echo n ++ (asked? n).getD []

/-- All questions. -/
def questions (notices : Array Notice) : List Text :=
  notices.toList.filterMap asked?

/-- Everything on the error output. -/
def errors (notices : Array Notice) : Text :=
  (notices.toList.filterMap complaint?).flatMap (· ++ "\n")

/-- The replies in a text: its lines, of which the last may lack its end. -/
def replies (input : Text) : List (Option Text) :=
  let lines := Text.split '\n' input
  let whole := if lines.getLast? = some [] then lines.dropLast else lines
  whole.map some

/-- A report after a notice: an error is told at once, and of a run that broke
    the last words are written. -/
def hear (lastWords : Fault → List Step → Text) (r : Report) : Notice → Report
  | .error message => ((r.issue message).complain).reset
  | .broken f trail => { r with text := r.text ++ lastWords f trail }
  | _ => r

/-- A report after some notices. -/
def report (lastWords : Fault → List Step → Text) (r : Report) (notices : Array Notice) :
    Report :=
  notices.toList.foldl (hear lastWords) r

/-- The longest pause, in seconds, that can be made. -/
def longestPause : Number := .int 9223372036

/-- The pacer of a session at the console. -/
def pacer : Pacer := .new (.int 0) (some longestPause)

/-- A new session at the console. -/
def session (surface : Surface Number) (answers : List (Option Text)) (chance : Nat → Number) :
    Except Fault World :=
  World.new surface pacer { Host.quiet with replies := some answers, chance := chance }

/-- Runs programs one after another and tells which went well. -/
def executeAll (limits : Limits) : List Text → SessionM (List Bool)
  | [] => pure []
  | code :: codes => do
      let ok ← Session.execute limits code
      let oks ← executeAll limits codes
      pure (ok :: oks)

end TurtleLogo.Console
