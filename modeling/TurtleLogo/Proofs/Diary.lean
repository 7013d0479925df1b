import TurtleLogo.Session.Run
import TurtleLogo.Proofs.Ending

/-! # Diaries

    A run that keeps a diary does all that a run does, and notes besides

    * when a procedure is called for its value, and when that call is over;
    * which turtle `TELL` or `ASK` is about to choose;
    * the fault in which the host's reaction to a text ends.

    `diary` is what one run notes.  That the notes change nothing else is
    `run_of_diary` in the module on steady runs. -/

namespace TurtleLogo

/-- The host with one notice more. -/
def Host.jot (h : Host) (n : Notice) : Host := { h with notices := h.notices.push n }

namespace Session

/-- The world with one notice more. -/
def noted (n : Notice) (w : World) : World := { w with host := w.host.jot n }

/-- A notice that is left by a run without a diary too. -/
def isPlain : Notice → Bool
  | .called | .returned | .chose _ | .raised _ => false
  | _ => true

/-- What has been noted, the diary apart. -/
def plainNotes (w : World) : List Notice := w.host.notices.toList.filter isPlain

/-- A note is plain or does not count. -/
theorem plainNotes_noted (n : Notice) (w : World) :
    plainNotes (noted n w) = plainNotes w ++ if isPlain n then [n] else [] := by
  cases h : isPlain n <;> simp [plainNotes, noted, Host.jot, List.filter_append, h]

/-! ## What the notices tell -/

/-- The texts that a host has heard. -/
def texts (ns : List Notice) : List (Text × OutputMode) :=
  ns.filterMap fun
    | .output text mode => some (text, mode)
    | _ => none

/-- The faults that a host has been told about. -/
def complaints (ns : List Notice) : List Text :=
  ns.filterMap fun
    | .error message => some message
    | _ => none

theorem texts_append (ns ms : List Notice) : texts (ns ++ ms) = texts ns ++ texts ms :=
  List.filterMap_append

theorem complaints_append (ns ms : List Notice) :
    complaints (ns ++ ms) = complaints ns ++ complaints ms := List.filterMap_append

/-- A diary says nothing to the host. -/
theorem texts_plain (ns : List Notice) : texts (ns.filter isPlain) = texts ns := by
  induction ns with
  | nil => rfl
  | cons n ns ih =>
      cases n <;> simpa [texts, isPlain, List.filter_cons] using ih

/-- Plain notices hold all complaints. -/
theorem complaints_plain (ns : List Notice) : complaints (ns.filter isPlain) = complaints ns := by
  induction ns with
  | nil => rfl
  | cons n ns ih =>
      cases n <;> simpa [complaints, isPlain, List.filter_cons] using ih

/-! ## Runs that keep a diary -/

/-- Does something as a call for its value. -/
def inCall {β : Type} (act : SessionM β) : SessionM β := do
  note .called
  afterwards act (noted .returned)

/-- Chooses a turtle, and notes it before. -/
def noteTell (who : Value) : SessionM Unit := do
  note (.chose who)
  onCanvas (Canvas.tell who)

/-- Does something with another turtle current, and notes it before. -/
def noteAsking {β : Type} (who : Value) (act : SessionM β) : SessionM β := do
  note (.chose who)
  asking who act

/-- Says a text, and notes the fault in which the host's reaction ends. -/
def noteEmit (block : List Token → SessionM Flow) (text : Text) (mode : OutputMode) :
    SessionM Unit := fun w =>
  match emit block text mode w with
  | .ok a w => .ok a w
  | .error f w => .error f (noted (.raised f) w)

/-- Does a command and keeps the diary. -/
def notePerform (block : List Token → SessionM Flow) (c : Command) (args : List Value) :
    SessionM Unit := do
  let a := args.getD 0 .nothing
  match c with
  | .tell => noteTell a
  | .printValue => do
      let t ← text a
      noteEmit block t .normal
  | .showValue => do
      let t ← compute a.shown
      noteEmit block t .normal
  | .typeValue => do
      let t ← text a
      noteEmit block t .inline
  | c => perform block c args

/-- `ASK` with its note in the diary. -/
def noteAskForm (E : Engine) (ts : List Token) : SessionM Flow := do
  let (who, ts) ← E.expression ts
  let (body, rest) ← blockAt .askBody ts
  let flow ← noteAsking who (E.block body)
  pure (continueWith flow rest)

/-- Runs a form and keeps the diary. -/
def noteForm (E : Engine) (patience : Nat) (form : Form) (ts : List Token) : SessionM Flow := do
  match form with
  | .ask => noteAskForm E ts
  | form => runForm E patience form ts

/-- Runs the statement that starts with a word and keeps the diary. -/
def noteWord (E : Engine) (patience : Nat) (name : Text) (ts : List Token) : SessionM Flow := do
  match Form.ofName? name, Command.ofName? name with
  | some form, _ => noteForm E patience form ts
  | none, some c => do
      let (args, rest) ← arguments E c.arity ts
      notePerform E.block c args
      pure (.done rest)
  | none, none => wordStatement E patience name ts

/-- Runs a statement and keeps the diary. -/
def noteStatement (E : Engine) (patience : Nat) : List Token → SessionM Flow
  | .word name :: ts => noteWord E patience name ts
  | ts => statement E patience ts

mutual
/-- The value of an expression whose calls are noted, at a given depth. -/
def diaryExpressionAt (patience : Nat) : Nat → List Token → SessionM Reading
  | depth + 7, ts =>
      sum ⟨diaryExpressionAt patience depth,
        fun body => inCall (diaryBlockAt patience depth body)⟩ ts
  | _, _ => throw .depthExceeded
/-- The run of a block that keeps a diary, at a given depth. -/
def diaryBlockAt (patience : Nat) : Nat → List Token → SessionM Flow
  | depth + 3, ts =>
      let E : Engine := ⟨diaryExpressionAt patience depth, diaryBlockAt patience depth⟩
      statements (noteStatement E patience) ts.length ts
  | _, _ => throw .depthExceeded
end

/-- What has been noted in a world since an earlier one. -/
def notesSince (start w : World) : List Notice :=
  w.host.notices.toList.drop start.host.notices.size

/-- The diary of a run. -/
def diary (limits : Limits) (code : Text) (w : World) : List Notice :=
  notesSince w (endOf (runWith (diaryBlockAt limits.patience limits.depth) code w))

end Session

end TurtleLogo
