import TurtleLogo.Session.Run

/-! # Trails

    When a fault of the host's own ends a run, the host may want to know what
    was in progress.  A run that leaves a trail does all that a run does, and
    notes every statement that a fault passes through on its way out, so the
    innermost comes first; `trail` is what one run leaves. -/

namespace TurtleLogo.Session

/-- The statement that has just been passed, if one has. -/
def passed? : Notice → Option Step
  | .passed s => some s
  | _ => none

/-- Runs a statement, and notes it if a fault passes through it. -/
def leaveStep (one : List Token → SessionM Flow) (ts : List Token) : SessionM Flow := fun w =>
  match one ts w, ts with
  | .error f w, .word name :: _ =>
      let inside := (w.host.notices.back?.bind passed?).isSome
      match note (.passed ⟨name, inside⟩) w with
      | .ok _ w => .error f w
      | .error g w => .error g w
  | r, _ => r

/-- The run of a block that leaves a trail, at a given depth. -/
def traceAtDepth (patience : Nat) : Nat → List Token → SessionM Flow
  | depth + 3, ts =>
      let E : Engine := ⟨expressionAt patience depth, traceAtDepth patience depth⟩
      statements (leaveStep (statement E patience)) ts.length ts
  | _, _ => throw .depthExceeded

/-- The statements in progress when a fault ends the run of a program, the
    outermost first. -/
def trail (limits : Limits) (code : Text) (w : World) : List Step :=
  match runWith (traceAtDepth limits.patience limits.depth) code w with
  | .ok _ _ => []
  | .error _ v => ((v.host.notices.toList.drop w.host.notices.size).filterMap passed?).reverse

end TurtleLogo.Session
