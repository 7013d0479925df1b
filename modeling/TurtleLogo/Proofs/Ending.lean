import TurtleLogo.Proofs.Divisor
import TurtleLogo.Spelling
import TurtleLogo.Store
import TurtleLogo.Token.Bracket

/-! # Endings

    How a computation with a state ends, and with which faults.  A fault is
    tame if, at the end of a run, it is told to the learner: it is friendly, or
    the run turns it into a friendly one.  What programs do with numbers, words,
    names and brackets fails tamely. -/

namespace TurtleLogo

section

variable {σ α β : Type}

/-- The state in which a computation ends. -/
def endOf : EStateM.Result Fault σ α → σ
  | .ok _ s => s
  | .error _ s => s

@[simp] theorem endOf_ok (a : α) (s : σ) : endOf (.ok a s : EStateM.Result Fault σ α) = s := rfl

@[simp] theorem endOf_error (f : Fault) (s : σ) :
    endOf (.error f s : EStateM.Result Fault σ α) = s := rfl

theorem get_bind (k : σ → EStateM Fault σ α) (s : σ) :
    (MonadState.get >>= k : EStateM Fault σ α) s = k s s := rfl

/-- What a sequence needs to give a value. -/
theorem bind_eq_ok {m : EStateM Fault σ α} {k : α → EStateM Fault σ β} {s u : σ} {b : β}
    (h : (m >>= k) s = .ok b u) : ∃ a t, m s = .ok a t ∧ k a t = .ok b u := by
  change EStateM.bind m k s = .ok b u at h
  rw [EStateM.bind] at h
  cases hm : m s with
  | ok a t => rw [hm] at h; exact ⟨a, t, rfl, h⟩
  | error f t => rw [hm] at h; cases h

/-- How a sequence fails. -/
theorem bind_eq_error {m : EStateM Fault σ α} {k : α → EStateM Fault σ β} {s u : σ} {f : Fault}
    (h : (m >>= k) s = .error f u) :
    m s = .error f u ∨ ∃ a t, m s = .ok a t ∧ k a t = .error f u := by
  change EStateM.bind m k s = .error f u at h
  rw [EStateM.bind] at h
  cases hm : m s with
  | ok a t => rw [hm] at h; exact .inr ⟨a, t, rfl, h⟩
  | error g t => rw [hm] at h; cases h; exact .inl rfl

/-- What comes after a success goes on from where that ended. -/
theorem bind_of_ok {m : EStateM Fault σ α} {k : α → EStateM Fault σ β} {s t : σ} {a : α}
    (h : m s = .ok a t) : (m >>= k) s = k a t := by
  show EStateM.bind m k s = _
  rw [EStateM.bind, h]

/-- After a failure nothing more happens. -/
theorem bind_of_error {m : EStateM Fault σ α} {k : α → EStateM Fault σ β} {s t : σ} {f : Fault}
    (h : m s = .error f t) : (m >>= k) s = .error f t := by
  show EStateM.bind m k s = _
  rw [EStateM.bind, h]

/-- What a sequence does to the state, however it ends. -/
theorem endOf_bind {R : σ → σ → Prop} (htrans : ∀ {s t u}, R s t → R t u → R s u)
    {m : EStateM Fault σ α} {k : α → EStateM Fault σ β} {s : σ} (hm : R s (endOf (m s)))
    (hk : ∀ a t, R s t → R t (endOf (k a t))) : R s (endOf ((m >>= k) s)) := by
  cases h : m s with
  | ok a t =>
      rw [h] at hm
      rw [bind_of_ok h]
      exact htrans hm (hk a t hm)
  | error f t =>
      rw [h] at hm
      rw [bind_of_error h]
      exact hm

section

variable {m : EStateM Fault σ α} {done failed : EStateM Fault σ Unit} {s t u : σ} {a : α}
  {f g : Fault}

theorem afterwards_ok {g : σ → σ} (h : m s = .ok a t) : afterwards m g s = .ok a (g t) := by
  simp only [afterwards, h]

/-- The state after a failure is changed. -/
theorem afterwards_error {g : σ → σ} (h : m s = .error f t) :
    afterwards m g s = .error f (g t) := by
  simp only [afterwards, h]

/-- After a success that is wrapped up the value is still there. -/
theorem wrapUp_ok_ok (h : m s = .ok a t) (hd : done t = .ok () u) :
    wrapUp m done failed s = .ok a u := by
  simp only [wrapUp, h, hd]

/-- A success whose wrapping up fails is a failure. -/
theorem wrapUp_ok_error (h : m s = .ok a t) (hd : done t = .error g u) :
    wrapUp m done failed s = .error g u := by
  simp only [wrapUp, h, hd]

/-- A failure that is wrapped up is still there. -/
theorem wrapUp_error_ok (h : m s = .error f t) (hd : failed t = .ok () u) :
    wrapUp m done failed s = .error f u := by
  simp only [wrapUp, h, hd]

/-- A failure whose wrapping up fails is replaced by the later one. -/
theorem wrapUp_error_error (h : m s = .error f t) (hd : failed t = .error g u) :
    wrapUp m done failed s = .error g u := by
  simp only [wrapUp, h, hd]

/-- A success ends where the wrapping up for successes ends. -/
theorem endOf_wrapUp_ok (h : m s = .ok a t) :
    endOf (wrapUp m done failed s) = endOf (done t) := by
  cases hd : done t with
  | ok _ u => rw [wrapUp_ok_ok h hd, endOf_ok, endOf_ok]
  | error g u => rw [wrapUp_ok_error h hd, endOf_error, endOf_error]

/-- A fault stays one, whatever cleaning up does. -/
theorem wrapUp_error (h : m s = .error f t) (done failed : EStateM Fault σ Unit) :
    ∃ g, wrapUp m done failed s = .error g (endOf (failed t)) := by
  cases hd : failed t with
  | ok _ u => exact ⟨f, wrapUp_error_ok h hd⟩
  | error g u => exact ⟨g, wrapUp_error_error h hd⟩

/-- A failure ends where the wrapping up for failures ends. -/
theorem endOf_wrapUp_error (h : m s = .error f t) :
    endOf (wrapUp m done failed s) = endOf (failed t) := by
  obtain ⟨g, hend⟩ := wrapUp_error h done failed
  rw [hend, endOf_error]

/-- What a bracket does to the state, however it is left. -/
theorem endOf_wrapUp {R : σ → σ → Prop} (htrans : ∀ {s t u}, R s t → R t u → R s u)
    (hm : R s (endOf (m s))) (hdone : ∀ t, R s t → R t (endOf (done t)))
    (hfailed : ∀ t, R s t → R t (endOf (failed t))) : R s (endOf (wrapUp m done failed s)) := by
  cases h : m s with
  | ok a t =>
      rw [h] at hm
      rw [endOf_wrapUp_ok h]
      exact htrans hm (hdone t hm)
  | error f t =>
      rw [h] at hm
      rw [endOf_wrapUp_error h]
      exact htrans hm (hfailed t hm)

/-- What a bracket needs to give a value. -/
theorem wrapUp_eq_ok (h : wrapUp m done failed s = .ok a u) :
    ∃ t, m s = .ok a t ∧ done t = .ok () u := by
  cases hm : m s with
  | ok b t =>
      cases hd : done t with
      | ok _ v =>
          rw [wrapUp_ok_ok hm hd] at h
          cases h
          exact ⟨t, rfl, hd⟩
      | error g v =>
          rw [wrapUp_ok_error hm hd] at h
          cases h
  | error f t =>
      cases hd : failed t with
      | ok _ v =>
          rw [wrapUp_error_ok hm hd] at h
          cases h
      | error g v =>
          rw [wrapUp_error_error hm hd] at h
          cases h

end

/-- Doing something at the end is a way to close a bracket. -/
theorem afterwards_eq (m : EStateM Fault σ α) (g : σ → σ) :
    afterwards m g = wrapUp m (modify g) (modify g) := by
  funext s
  cases h : m s with
  | ok a t => simp only [afterwards, wrapUp, h]; rfl
  | error f t => simp only [afterwards, wrapUp, h]; rfl

end

/-- A new canvas is one on which a drawing has just been started over. -/
theorem Canvas.reset_of_new {α : Type} [Scalar α] {surface : Surface α} {c : Canvas α}
    (h : Canvas.new surface = .ok c) : ∃ view,
      liftArithmetic (View.new (Scalar.ofInt surface.width) (Scalar.ofInt surface.height)) = .ok view
      ∧ reset ⟨Scene.new view, surface⟩ = .ok () c := by
  obtain ⟨view, hview, hreset⟩ := Except.bind_eq_ok h
  refine ⟨view, hview, ?_⟩
  cases hr : reset ⟨Scene.new view, surface⟩ with
  | ok _ d =>
      rw [hr] at hreset
      cases hreset
      rfl
  | error f d =>
      rw [hr] at hreset
      cases hreset

/-- A fault that is told to the learner when it ends a run. -/
def Fault.Tame (f : Fault) : Prop := f.friendly.isFriendly = true

/-- A fault that says that frames are not closed as they were opened. -/
def Fault.OfFrame (f : Fault) : Prop := f = .noSuchIndex ∨ f = .strayFrame

/-- A tame fault is none of frames. -/
theorem Fault.Tame.not_ofFrame {f : Fault} (h : f.Tame) : ¬f.OfFrame := by
  rintro (rfl | rfl) <;> cases h

/-- Putting a fault in friendly words does not put it on frames. -/
theorem Fault.not_ofFrame_friendly {f : Fault} (h : ¬f.OfFrame) : ¬f.friendly.OfFrame := by
  simp only [friendly]
  split
  · simp [OfFrame]
  · simp [OfFrame]
  · simp [OfFrame]
  · exact h

/-- A computation without a state that fails tamely. -/
def Tamed {α : Type} (r : Except Fault α) : Prop := ∀ f, r = .error f → f.Tame

namespace Tamed

variable {α β : Type}

theorem ok (a : α) : Tamed (.ok a) := by
  intro f h; cases h

theorem error {f : Fault} (hf : f.Tame) : Tamed (.error f : Except Fault α) := by
  intro g h; cases h; exact hf

/-- Computations that fail tamely do so one after another. -/
theorem bind {r : Except Fault α} {k : α → Except Fault β} (hr : Tamed r)
    (hk : ∀ a, Tamed (k a)) : Tamed (r >>= k) := by
  cases r with
  | ok a => exact hk a
  | error f => exact error (hr f rfl)

/-- Arithmetic fails tamely where it does not divide by zero. -/
theorem arithmetic {r : Except ArithmeticFault α} (hr : Usual r) : Tamed (liftArithmetic r) := by
  cases r with
  | ok a => exact ok a
  | error f =>
      cases f with
      | zeroDivisor => exact absurd rfl hr
      | tooBig => exact error rfl
      | notUsable => exact error rfl

end Tamed

/-- To refuse a value as a number fails tamely. -/
theorem Value.tamed_refuseNumber (v : Value) (who : Text) : Tamed (v.refuseNumber who) :=
  .bind (.arithmetic v.usual_described) fun _ => .error rfl

/-- Reading a value as a number fails tamely. -/
theorem Value.tamed_asNumber (v : Value) (who : Text) : Tamed (v.asNumber who) := by
  simp only [asNumber]
  split
  · exact .ok _
  · split
    · exact .ok _
    · exact tamed_refuseNumber _ _
  · exact tamed_refuseNumber _ _

/-- The order of two values fails tamely. -/
theorem Value.tamed_order (a b : Value) : Tamed (a.order b) := by
  simp only [order]
  split
  · exact .ok _
  · exact .ok _
  · exact .bind (.arithmetic (usual_described _)) fun _ =>
      .bind (.arithmetic (usual_described _)) fun _ => .error rfl

/-- A comparison fails tamely. -/
theorem Value.tamed_compare (c : Comparison) (a b : Value) : Tamed (Value.compare c a b) := by
  cases c with
  | eq => exact .ok _
  | ne => exact .ok _
  | lt => exact .bind (tamed_order a b) fun _ => .ok _
  | gt => exact .bind (tamed_order a b) fun _ => .ok _
  | le => exact .bind (tamed_order a b) fun _ => .ok _
  | ge => exact .bind (tamed_order a b) fun _ => .ok _

/-- The value of a name fails tamely. -/
theorem Store.tamed_get (s : Store) (name : Text) : Tamed (s.get name) := by
  rw [get]
  split
  · exact .ok _
  · exact .error rfl

/-- Finding what is inside a bracket fails tamely. -/
theorem Token.tamed_inside (ts : List Token) : Tamed (Token.inside ts) := by
  rw [inside]
  split
  · exact .ok _
  · exact .error rfl

/-- Finding a block fails tamely. -/
theorem Token.tamed_block (place : BlockPlace) (ts : List Token) :
    Tamed (Token.block place ts) := by
  simp only [block]
  split
  · exact tamed_inside _
  · exact .error rfl

mutual
/-- The value of an item in a list literal fails tamely. -/
theorem Nested.tamed_value {get : Text → Except Fault Value} (hget : ∀ name, Tamed (get name)) :
    ∀ n : Nested, Tamed (n.value get)
  | .group items => by
      rw [value]
      exact .bind (tamed_values hget items) fun _ => .ok _
  | .leaf t => by
      unfold value
      split
      · exact hget _
      · exact .ok _
      · rename_i heq; cases heq
/-- The values of several items fail tamely. -/
theorem Nested.tamed_values {get : Text → Except Fault Value}
    (hget : ∀ name, Tamed (get name)) : ∀ ns : List Nested, Tamed (Nested.values get ns)
  | [] => by
      rw [values]
      exact .ok _
  | n :: ns => by
      rw [values]
      exact .bind (tamed_value hget n) fun _ => .bind (tamed_values hget ns) fun _ => .ok _
end

theorem Spelling.tame_unknownFunction (name : Text) (names : List Text) :
    (Spelling.unknownFunction name names).Tame := rfl

theorem Spelling.tame_unknownCommand (name : Text) (names : List Text) :
    (Spelling.unknownCommand name names).Tame := rfl

end TurtleLogo
