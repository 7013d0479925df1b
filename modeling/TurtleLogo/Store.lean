import TurtleLogo.Token.Basic
import TurtleLogo.Text.LetterCase

/-! # The store of names

    Procedures share one table.  Variables live in a global frame and in a
    stack of local frames, one for each procedure call and `FOR` loop in
    progress; a name means its binding in the innermost frame that has one.
    Names are kept in capitals, and every table keeps the order in which its
    names first came in. -/

namespace TurtleLogo

/-- A procedure that a program has defined. -/
structure Procedure where
  name : Text
  params : List Text
  body : List Token

/-- The procedure as debugging output shows it. -/
def Procedure.listing (p : Procedure) : Text :=
  "<TO " ++ p.name ++ " " ++ Text.joinWith " " (p.params.map (.char ':' :: ·)) ++ ">"

/-- Bindings of names, in the order of their first assignment. -/
abbrev Frame := List (Text × Value)

namespace Frame

/-- Whether a name is bound. -/
def holds (f : Frame) (key : Text) : Bool :=
  f.any (·.1 == key)

/-- The value of a name. -/
def get? (f : Frame) (key : Text) : Option Value :=
  f.lookup key

/-- Binds a name, in its old place if it has one. -/
def assign : Frame → Text → Value → Frame
  | [], key, v => [(key, v)]
  | (k, w) :: f, key, v => if k == key then (k, v) :: f else (k, w) :: assign f key v

/-- The frame with the given bindings; of two for one name, before or after
    the names are put in capitals, the later counts. -/
def ofBindings (bindings : List (Text × Value)) : Frame :=
  let merged := bindings.foldl (fun f b => assign f b.1 b.2) []
  merged.foldl (fun f b => assign f (Text.upper b.1) b.2) []

/-- The bindings of a frame as debugging output shows them. -/
def bindingListings : List (Text × Value) → Except ArithmeticFault (List Text)
  | [] => .ok []
  | (k, v) :: bs => do
      let t ← v.listing
      let ts ← bindingListings bs
      .ok ((Text.quoted k ++ ": " ++ t) :: ts)

/-- The frame as debugging output shows it. -/
def listing (f : Frame) : Except ArithmeticFault Text := do
  let parts ← bindingListings f
  .ok ("<Frame \x7b" ++ Text.joinWith ", " parts ++ "\x7d>")

end Frame

/-- All names that a program has made. -/
structure Store where
  procedures : List Procedure
  globals : Frame
  /-- The local frames, innermost first. -/
  locals : List Frame
  /-- The count of the innermost `REPEAT` in progress. -/
  repcount : Option Nat

namespace Store

/-- The store of a new session. -/
def empty : Store := ⟨[], [], [], none⟩

instance : Inhabited Store := ⟨empty⟩

/-- A table of procedures with one defined, in its old place if it has one. -/
def defineIn : List Procedure → Procedure → List Procedure
  | [], p => [p]
  | q :: qs, p => if q.name == p.name then p :: qs else q :: defineIn qs p

/-- Defines a procedure. -/
def define (s : Store) (p : Procedure) : Store :=
  { s with procedures := defineIn s.procedures p }

/-- The procedure of the given name. -/
def procedure? (s : Store) (name : Text) : Option Procedure :=
  let key := Text.upper name
  s.procedures.find? (·.name == key)

/-- The binding of a key in the innermost frame that has one. -/
def find? (key : Text) : List Frame → Frame → Option Value
  | [], globals => globals.get? key
  | f :: fs, globals =>
      match f.get? key with
      | some v => some v
      | none => find? key fs globals

/-- The value of a variable. -/
def get (s : Store) (name : Text) : Except Fault Value :=
  let key := Text.upper name
  match find? key s.locals s.globals with
  | some v => .ok v
  | none => .error (.unbound key)

/-- Whether a variable exists. -/
def has (s : Store) (name : Text) : Bool :=
  (find? (Text.upper name) s.locals s.globals).isSome

/-- The frames after an assignment to the innermost one that has the name, or
    none if no frame has it. -/
def assignNearest? (key : Text) (v : Value) : List Frame → Option (List Frame)
  | [] => none
  | f :: fs =>
      if f.holds key then some (f.assign key v :: fs)
      else (assignNearest? key v fs).map (f :: ·)

/-- Gives a variable a value: in the innermost frame that has it, or else
    among the globals. -/
def set (s : Store) (name : Text) (v : Value) : Store :=
  let key := Text.upper name
  match assignNearest? key v s.locals with
  | some frames => { s with locals := frames }
  | none => { s with globals := s.globals.assign key v }

/-- Binds a name in the innermost frame, or globally when no frame is open. -/
def setLocal (s : Store) (name : Text) (v : Value) : Store :=
  let key := Text.upper name
  match s.locals with
  | [] => { s with globals := s.globals.assign key v }
  | f :: fs => { s with locals := f.assign key v :: fs }

/-- Binds a key in the innermost frame, if one is open. -/
def bindInnermost (s : Store) (key : Text) (v : Value) : Store :=
  match s.locals with
  | [] => s
  | f :: fs => { s with locals := f.assign key v :: fs }

/-- Opens a frame. -/
def push (s : Store) (f : Frame) : Store :=
  { s with locals := f :: s.locals }

/-- Closes the innermost frame. -/
def pop (s : Store) : Store :=
  { s with locals := s.locals.tail }

end Store

end TurtleLogo
