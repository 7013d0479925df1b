import TurtleLogo.Session.Run
import TurtleLogo.Proofs.Ending

/-! # Two runs in step

    Most facts about a run compare two worlds: where it starts with where it
    ends, a run with the same run under another host, a run with one that keeps
    a diary.  All of them are read off one notion here:

    * a `Tie` says which worlds two runs may be in at the same time, at a given
      place of the run, and in which worlds both may end with the same fault;
    * `InStep p m n` says that `m` and `n`, started in worlds that are tied at
      the place `p`, give the same value or the same fault and end in tied
      worlds;
    * a tie may be given up, once the first run is in a `lost` world; and it may
      be `cut`, when the second run is only winding up while the first goes on.
      `Runs p m n` allows for that as well.

    Computations in step are closed under sequencing, so that a fact about
    whole runs follows from facts about the single steps. -/

namespace TurtleLogo.Session

/-- Two worlds that differ at most in how the host reacts to texts and in what
    has been noted for it. -/
structure Agree (w v : World) : Prop where
  store : w.store = v.store
  canvas : w.canvas = v.canvas
  pacer : w.pacer = v.pacer
  running : w.running = v.running
  printed : w.printed = v.printed
  undefined : w.undefined = v.undefined
  listening : w.host.listening = v.host.listening
  replies : w.host.replies = v.host.replies
  heard : w.host.heard = v.host.heard
  chance : w.host.chance = v.host.chance
  drawn : w.host.drawn = v.host.drawn
  panel : w.host.panel = v.host.panel

theorem Agree.refl (w : World) : Agree w w :=
  ⟨rfl, rfl, rfl, rfl, rfl, rfl, rfl, rfl, rfl, rfl, rfl, rfl⟩

/-- Whatever had been noted in one world is noted in another. -/
def Noted (w v : World) : Prop := w.host.notices.toList <+: v.host.notices.toList

theorem Noted.refl (w : World) : Noted w w := List.prefix_refl _

theorem Noted.trans {w v u : World} (h : Noted w v) (h' : Noted v u) : Noted w u :=
  List.IsPrefix.trans h h'

/-- What ties two runs together while they go on in step. -/
structure Tie where
  /-- The places of a run at which different worlds are tied. -/
  Place : Type
  /-- The worlds that the runs may be in at a place. -/
  rel : Place → World → World → Prop
  /-- The worlds in which both runs may end with a fault. -/
  fails : Place → Fault → World → World → Prop
  /-- The worlds of the first run in which the tie is given up. -/
  lost : World → Prop
  /-- The worlds that the runs may be in when only the first goes on. -/
  cut : Place → World → World → Prop
  agree : ∀ {p w v}, rel p w v → Agree w v
  lost_of_noted : ∀ {w w'}, Noted w w' → lost w → lost w'
  cut_of_noted : ∀ {p w w' v}, Noted w w' → cut p w v → cut p w' v

variable {T : Tie} {β γ : Type}

/-- What two runs have reached; whether the tie may have been cut is said by
    the flag. -/
inductive Tie.Outcome (T : Tie) (mayCut : Bool) (p : T.Place) :
    EStateM.Result Fault World β → EStateM.Result Fault World β → Prop where
  | lost {r s} (h : T.lost (endOf r)) : Outcome T mayCut p r s
  | ok {a w v} (h : T.rel p w v) : Outcome T mayCut p (.ok a w) (.ok a v)
  | error {f w v} (h : T.fails p f w v) : Outcome T mayCut p (.error f w) (.error f v)
  | cut {r b v} (hc : mayCut = true) (h : T.cut p (endOf r) v) : Outcome T mayCut p r (.ok b v)

/-- A computation that takes back nothing that has been noted. -/
def Logs (m : SessionM β) : Prop := ∀ w, Noted w (endOf (m w))

/-- What the second run does when the tie is cut ends well, and leaves the tie
    cut. -/
def Tie.WindsUp (T : Tie) (p : T.Place) (n : SessionM β) : Prop :=
  ∀ w v, T.cut p w v → ∃ b u, n v = .ok b u ∧ T.cut p w u

/-- Two computations that go on together. -/
structure Steps (mayCut : Bool) (p : T.Place) (m n : SessionM β) : Prop where
  run : ∀ {w v}, T.rel p w v → T.Outcome mayCut p (m w) (n v)
  logs : Logs m

/-- Two computations that go on in step. -/
abbrev InStep (p : T.Place) (m n : SessionM β) : Prop := Steps false p m n

/-- Two computations that go on in step, unless the tie is cut. -/
abbrev Runs (p : T.Place) (m n : SessionM β) : Prop := Steps true p m n

/-- A change of the world that both runs may make. -/
structure Tie.Keeps (T : Tie) (p : T.Place) (g : World → World) : Prop where
  rel : ∀ {w v}, T.rel p w v → T.rel p (g w) (g v)
  noted : ∀ w, Noted w (g w)

/-! ## Sequencing -/

namespace Logs

theorem pure (a : β) : Logs (Pure.pure a : SessionM β) := fun w => .refl w

theorem throw (f : Fault) : Logs (MonadExcept.throw f : SessionM β) := fun w => .refl w

/-- Sequencing, where the values that the first computation gives are known to
    have a property. -/
theorem bind_of {m : SessionM β} {k : β → SessionM γ} (Q : β → Prop) (hm : Logs m)
    (hQ : ∀ w a w', m w = .ok a w' → Q a) (hk : ∀ a, Q a → Logs (k a)) : Logs (m >>= k) := by
  intro w
  have hw := hm w
  cases hmw : m w with
  | error f u => rw [bind_of_error hmw]; rw [hmw] at hw; exact hw
  | ok a u => rw [bind_of_ok hmw]; rw [hmw] at hw; exact hw.trans (hk a (hQ w a u hmw) u)

/-- Computations in a row take nothing back if none of them does. -/
theorem bind {m : SessionM β} {k : β → SessionM γ} (hm : Logs m) (hk : ∀ a, Logs (k a)) :
    Logs (m >>= k) :=
  bind_of (fun _ => True) hm (fun _ _ _ _ => trivial) fun a _ => hk a

/-- Closing a bracket takes back nothing, however the bracket was left. -/
theorem noted_wrapUp {done failed : SessionM Unit} (hd : Logs done) (hf : Logs failed)
    (m : SessionM β) (w : World) : Noted (endOf (m w)) (endOf (wrapUp m done failed w)) := by
  cases hmw : m w with
  | ok a u =>
      rw [endOf_wrapUp_ok hmw]
      exact hd u
  | error f u =>
      rw [endOf_wrapUp_error hmw]
      exact hf u

/-- A computation that is wrapped up takes nothing back if its parts do not. -/
theorem wrapUp {m : SessionM β} {done failed : SessionM Unit} (hm : Logs m) (hd : Logs done)
    (hf : Logs failed) : Logs (wrapUp m done failed) :=
  fun w => (hm w).trans (noted_wrapUp hd hf m w)

end Logs

namespace Tie.WindsUp

variable {p : T.Place}

theorem pure (a : β) : T.WindsUp p (Pure.pure a : SessionM β) :=
  fun _ v h => ⟨a, v, rfl, h⟩

/-- Computations in a row wind up if each of them does. -/
theorem bind {m : SessionM β} {k : β → SessionM γ} (hm : T.WindsUp p m)
    (hk : ∀ a, T.WindsUp p (k a)) : T.WindsUp p (m >>= k) := by
  intro w v h
  obtain ⟨b, u, hb, hu⟩ := hm w v h
  obtain ⟨c, x, hc, hx⟩ := hk b w u hu
  exact ⟨c, x, by rw [bind_of_ok hb, hc], hx⟩

end Tie.WindsUp

namespace Steps

variable {c d : Bool} {p : T.Place}

/-- A tie that was not cut on the way may be taken as one that may not be, or
    that may be. -/
theorem recut {m n : SessionM β} (h : Steps c p m n)
    (hcut : c = true → d = true ∨ ∀ w v, ¬T.cut p w v) : Steps d p m n := by
  refine ⟨fun {w v} hr => ?_, h.logs⟩
  have hrun := h.run hr
  generalize m w = r at hrun ⊢
  generalize n v = s at hrun ⊢
  cases hrun with
  | lost hl => exact .lost hl
  | ok hr' => exact .ok hr'
  | error hf => exact .error hf
  | cut hc hu =>
      rcases hcut hc with hd | hnever
      · exact .cut hd hu
      · exact absurd hu (hnever _ _)

/-- Computations in step are in step unless the tie is cut. -/
theorem weaken {m n : SessionM β} (h : InStep p m n) : Steps c p m n :=
  h.recut fun hc => by cases hc

/-- Where the tie is never cut, computations are in step. -/
theorem uncut {m n : SessionM β} (hcut : ∀ q w v, ¬T.cut q w v) (h : Steps c p m n) :
    InStep p m n :=
  h.recut fun _ => Or.inr (hcut p)

theorem pure (a : β) : Steps c p (Pure.pure a) (Pure.pure a) :=
  ⟨fun h => .ok h, .pure a⟩

theorem throw {f : Fault} (h : ∀ {w v}, T.rel p w v → T.fails p f w v) :
    Steps c p (MonadExcept.throw f : SessionM β) (MonadExcept.throw f) :=
  ⟨fun hr => .error (h hr), .throw f⟩

/-- Sequencing.  The values that the first computation gives may be known to
    have a property, and if the tie may be cut on the way, what comes after has
    to wind up. -/
theorem bind_of {m n : SessionM β} {k l : β → SessionM γ} (Q : β → Prop)
    (hm : Steps c p m n) (hQ : ∀ w a w', m w = .ok a w' → Q a)
    (hk : ∀ a, Q a → Steps d p (k a) (l a))
    (hcut : c = true → d = true ∧ ∀ b, T.WindsUp p (l b)) : Steps d p (m >>= k) (n >>= l) := by
  have hlogs : ∀ a, Q a → Logs (k a) := fun a ha => (hk a ha).logs
  refine ⟨fun {w v} hr => ?_, .bind_of Q hm.logs hQ hlogs⟩
  have h := hm.run hr
  generalize hmw : m w = r at h
  generalize hnv : n v = s at h
  cases h with
  | lost hl =>
      -- what is lost stays lost, whatever the first run does next
      refine .lost ?_
      cases r with
      | ok a u => rw [bind_of_ok hmw]; exact T.lost_of_noted (hlogs a (hQ w a u hmw) u) hl
      | error f u => rw [bind_of_error hmw]; exact hl
  | ok hr' =>
      rw [bind_of_ok hmw, bind_of_ok hnv]
      exact (hk _ (hQ _ _ _ hmw)).run hr'
  | error hf =>
      rw [bind_of_error hmw, bind_of_error hnv]
      exact .error hf
  | cut hc hu =>
      -- the second run winds up, and the first goes on alone
      obtain ⟨hd, hwind⟩ := hcut hc
      obtain ⟨e, x, he, hx⟩ := hwind _ _ _ hu
      rw [bind_of_ok hnv, he]
      refine .cut hd ?_
      cases r with
      | ok a u => rw [bind_of_ok hmw]; exact T.cut_of_noted (hlogs a (hQ w a u hmw) u) hx
      | error f u => rw [bind_of_error hmw]; exact hx

/-- Sequencing after computations in step. -/
theorem bind {m n : SessionM β} {k l : β → SessionM γ} (hm : InStep p m n)
    (hk : ∀ a, Steps d p (k a) (l a)) : Steps d p (m >>= k) (n >>= l) :=
  bind_of (fun _ => True) hm (fun _ _ _ _ => trivial) (fun a _ => hk a)
    fun hc => by cases hc

/-- Sequencing after computations between which the tie may be cut. -/
theorem bind_cut {m n : SessionM β} {k l : β → SessionM γ} (hm : Steps c p m n)
    (hk : ∀ a, Steps c p (k a) (l a)) (hwind : ∀ b, T.WindsUp p (l b)) :
    Steps c p (m >>= k) (n >>= l) :=
  bind_of (fun _ => True) hm (fun _ _ _ _ => trivial) (fun a _ => hk a)
    fun hc => ⟨hc, hwind⟩

/-- Going on after a look at the world, of which the two runs may only use what
    they agree on. -/
theorem get_bind {k l : World → SessionM γ}
    (hk : ∀ w v, Agree w v → Steps c p (k w) (l v)) :
    Steps c p (get >>= k) (get >>= l) :=
  ⟨fun {w v} hr => (hk w v (T.agree hr)).run hr, fun w => (hk w w (Agree.refl w)).logs w⟩

/-- A choice that both runs make alike. -/
theorem ite {b : Prop} [Decidable b] {m n k l : SessionM β} (hm : Steps c p m n)
    (hk : Steps c p k l) : Steps c p (if b then m else k) (if b then n else l) := by
  by_cases h : b
  · rw [if_pos h, if_pos h]
    exact hm
  · rw [if_neg h, if_neg h]
    exact hk

/-- A change of the world that both runs may make goes on in step. -/
theorem changing {g : World → World} (hg : T.Keeps p g) :
    Steps c p (modify g : SessionM PUnit) (modify g) :=
  ⟨fun hr => .ok (hg.rel hr), hg.noted⟩

end Steps

/-! ## Brackets -/

/-- What closes a bracket in both runs: from the place inside it leads back to
    the place outside, or to a fault of its own. -/
structure Tie.Closes (T : Tie) (p q : T.Place) (done failed : SessionM Unit) : Prop where
  rel : ∀ {w v}, T.rel q w v → T.Outcome false p (done w) (done v)
  fails : ∀ {f w v}, T.fails q f w v →
    (∃ w' v', failed w = .ok () w' ∧ failed v = .ok () v' ∧ T.fails p f w' v')
      ∨ ∃ g w' v', failed w = .error g w' ∧ failed v = .error g v' ∧ T.fails p g w' v'
  cut : ∀ {w v}, T.cut q w v → ∃ v', done v = .ok () v' ∧ T.cut p w v'
  logs_done : Logs done
  logs_failed : Logs failed

/-- A bracket that is closed in both runs leads back to the place outside. -/
theorem Tie.Closes.outcome {c : Bool} {p q : T.Place} {done failed : SessionM Unit}
    (hclose : T.Closes p q done failed) {m n : SessionM β} {w v : World}
    (h : T.Outcome c q (m w) (n v)) :
    T.Outcome c p (wrapUp m done failed w) (wrapUp n done failed v) := by
  have hnoted := Logs.noted_wrapUp hclose.logs_done hclose.logs_failed m w
  generalize hmw : m w = r at h hnoted
  generalize hnv : n v = s at h
  cases h with
  | lost hl => exact .lost (T.lost_of_noted hnoted hl)
  | @ok a w' v' hr =>
      have hdone := hclose.rel hr
      generalize hdw : done w' = r at hdone
      generalize hdv : done v' = s at hdone
      cases hdone with
      | lost hl =>
          refine .lost ?_
          cases r with
          | ok _ x => rw [wrapUp_ok_ok hmw hdw]; exact hl
          | error g x => rw [wrapUp_ok_error hmw hdw]; exact hl
      | ok hr' => rw [wrapUp_ok_ok hmw hdw, wrapUp_ok_ok hnv hdv]; exact .ok hr'
      | error hf => rw [wrapUp_ok_error hmw hdw, wrapUp_ok_error hnv hdv]; exact .error hf
      | cut hc => cases hc
  | error hf =>
      rcases hclose.fails hf with ⟨w', v', hw', hv', hf'⟩ | ⟨g, w', v', hw', hv', hf'⟩
      · rw [wrapUp_error_ok hmw hw', wrapUp_error_ok hnv hv']; exact .error hf'
      · rw [wrapUp_error_error hmw hw', wrapUp_error_error hnv hv']; exact .error hf'
  | cut hc hu =>
      obtain ⟨v', hv', hcut⟩ := hclose.cut hu
      rw [wrapUp_ok_ok hnv hv']
      exact .cut hc (T.cut_of_noted hnoted hcut)

end TurtleLogo.Session
