import TurtleLogo.Text.Basic

/-! # Reports

    What the command line has to say.  Issues pile up until someone complains
    about them; an outburst opens every complaint, its words chosen by
    chance. -/

namespace TurtleLogo

/-- Everything reported so far. -/
structure Report where
  /-- Whether remarks are wanted, too. -/
  verbose : Bool
  /-- The number by which chance chooses words. -/
  luck : Int
  issues : List Text
  /-- All that has been written. -/
  text : Text

namespace Report

/-- A report on which nothing is written. -/
def new (verbose : Bool) (luck : Int) : Report := ⟨verbose, luck, [], ""⟩

/-- The first words of an outburst. -/
def openings : List Text := ["Oh, ", "Well, ", "Aw, ", "", ""]

/-- The cries of an outburst. -/
def cries : List Text := [
  "Drat", "Fiddlesticks", "Good Grief", "Great Scott", "Jeepers",
  "Heavens", "Rats", "Oh My Stars", "Shell Shock", "Tortoise Trouble"]

/-- The last words of an outburst. -/
def sighs : List Text := [
  "The turtle has stopped.", "The turtle is waiting for you.", "The turtle needs a hand."]

/-- The item that chance chooses. -/
def choose (luck : Int) (items : List Text) : Text :=
  items.getD (luck % items.length).toNat ""

/-- The line that opens a complaint. -/
def outburst (luck : Int) : Text :=
  choose luck openings ++ choose luck cries ++ "! " ++ choose luck sighs

/-- Whether there is nothing to complain about. -/
def isOk (r : Report) : Bool := r.issues.isEmpty

/-- Writes a line. -/
def line (r : Report) (text : Text) : Report :=
  { r with text := r.text ++ text ++ "\n" }

/-- Notes an issue. -/
def issue (r : Report) (message : Text) : Report :=
  { r with issues := r.issues ++ [message] }

/-- Makes a remark, if remarks are wanted. -/
def info (r : Report) (words : List Text) : Report :=
  if r.verbose then r.line (Text.joinWith " " words) else r

/-- Complains about all issues. -/
def complain (r : Report) : Report :=
  match r.issues with
  | [] => r
  | issues => issues.foldl (fun r message => r.line (" - " ++ message)) (r.line (outburst r.luck))

/-- Forgets all issues. -/
def reset (r : Report) : Report := { r with issues := [] }

end Report

end TurtleLogo
