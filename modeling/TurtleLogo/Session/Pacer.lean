import TurtleLogo.Fault

/-! # Pacing

    The one place where a run is held up.  After each statement there is a
    short pause, of as many milliseconds as the speed says, and `WAIT` pauses
    for longer.  A stop request takes all further pauses away.  It may come
    from inside the run or, at any time, from outside; a run finds out when it
    looks.

    `Guard` lets one run in at a time. -/

namespace TurtleLogo

/-- How a run is held up. -/
structure Pacer where
  /-- Milliseconds of pause after each statement. -/
  speed : Number
  /-- Whether someone has asked the run to stop. -/
  cancelled : Bool
  /-- All pauses so far, in seconds. -/
  naps : Array Number
  /-- The longest pause, in seconds, that can be made, if there is one. -/
  longest : Option Number
  /-- Whether someone outside has asked the run to stop by the time of its
      `n`-th look, from zero. -/
  interrupts : Nat → Bool
  /-- The number of looks. -/
  looks : Nat

namespace Pacer

/-- A pacer that nobody has stopped. -/
def new (speed : Number) (longest : Option Number) : Pacer :=
  ⟨speed, false, #[], longest, fun _ => false, 0⟩

/-- Asks the run to stop. -/
def cancel (p : Pacer) : Pacer := { p with cancelled := true }

/-- Forgets a stop request. -/
def clear (p : Pacer) : Pacer := { p with cancelled := false }

/-- Whether a pause is longer than can be made. -/
def tooLong (p : Pacer) (seconds : Number) : Bool :=
  match p.longest with
  | none => false
  | some most => most.lt seconds

/-- Looks whether someone has asked the run to stop. -/
def look : EStateM Fault Pacer Bool := do
  let p ← get
  if p.cancelled then pure true
  else
    set { p with cancelled := p.interrupts p.looks, looks := p.looks + 1 }
    pure (p.interrupts p.looks)

/-- Pauses for some milliseconds, unless the run is to stop. -/
def pause (ms : Number) : EStateM Fault Pacer Unit := do
  if ms.le (.int 0) then pure ()
  else if ← look then pure ()
  else
    let p ← get
    let seconds ← compute (ms.div (.int 1000))
    if p.tooLong seconds then throw (.arithmetic .tooBig)
    modify fun p => { p with naps := p.naps.push seconds }

/-- The pause after a statement. -/
def checkpoint : EStateM Fault Pacer Unit := do
  let p ← get
  if Number.lt (.int 0) p.speed then pause p.speed

end Pacer

namespace Guard

/-- Lets a run in, unless one is active. -/
def enter (active : Bool) : Except Fault Bool :=
  if active then .error .busy else .ok true

/-- Lets the active run out. -/
def leave (active : Bool) : Except Fault Bool :=
  if active then .ok false else .error .notRunning

end Guard

end TurtleLogo
