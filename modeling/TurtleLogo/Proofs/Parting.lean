import TurtleLogo.Proofs.Stillness

/-! # Runs that part when one of them fails

    Two runs of a program under two limits, the first of which are smaller, do
    the same until the first run meets its limits.  From there on nothing is
    known of the second, except that it goes on (`goingOn`).  What else is known
    depends on when the first run may fail, which is what a `Parting` says.

    It may fail at any time; but if it has been stopped by then, so has the
    second (`Parting.blocks_anytime`).  Or there is room in its limits: between
    two looks for a stop request there are only expressions and brackets, whose
    depth the tokens of the program bound, so a run with `k` passes for each loop
    and `k` strides of depth does not fail before it has looked `k` times
    (`Parting.blocks_nearing`, by induction on `k`). -/

namespace TurtleLogo

/-! ## Looks -/

namespace Pacer

/-- A look while nobody is known to have asked for a stop. -/
theorem look_of_going {p : Pacer} (h : p.cancelled = false) :
    look p = .ok (p.interrupts p.looks)
      { p with cancelled := p.interrupts p.looks, looks := p.looks + 1 } := by
  rw [look, get_bind, h]
  rfl

/-- A pause is over at once, or it is a look and perhaps a nap. -/
theorem endOf_pause (ms : Number) (p : Pacer) :
    endOf (pause ms p) = p ∨ ∃ naps, endOf (pause ms p) = { endOf (look p) with naps := naps } := by
  obtain ⟨stop, q, hlook⟩ := look_eq p
  rw [pause]
  split
  · exact .inl rfl
  · rw [bind_of_ok hlook, hlook]
    split
    · exact .inr ⟨q.naps, rfl⟩
    · rw [get_bind]
      cases hseconds : ms.div (.int 1000) with
      | error f => exact .inr ⟨q.naps, rfl⟩
      | ok seconds =>
          rw [bind_of_ok (rfl : compute (.ok seconds) q = .ok seconds q)]
          split
          · exact .inr ⟨q.naps, rfl⟩
          · exact .inr ⟨q.naps.push seconds, rfl⟩

/-- What looks and stop requests keep, whatever the naps and the speed are, all
    steps keep. -/
theorem keeps_of_step {A : Pacer → Prop} (hlook : ∀ {p}, A p → A (endOf (look p)))
    (hcancel : ∀ {p}, A p → A p.cancel)
    (hrest : ∀ {p} naps speed, A p → A { p with naps := naps, speed := speed }) {p q : Pacer}
    (h : A p) (hstep : p.Step q) : A q := by
  have hpause : ∀ ms, A (endOf (pause ms p)) := by
    intro ms
    rcases endOf_pause ms p with hend | ⟨naps, hend⟩
    · rw [hend]
      exact h
    · rw [hend]
      exact hrest naps _ (hlook h)
  cases hstep with
  | look => exact hlook h
  | pause ms => exact hpause ms
  | checkpoint =>
      rw [checkpoint, get_bind]
      split
      · exact hpause _
      · exact h
  | cancel => exact hcancel h
  | speed n => exact hrest _ _ h

/-- How a pacer may go on: a run that has been stopped does not look again. -/
structure Onward (p q : Pacer) : Prop where
  looks : p.looks ≤ q.looks
  stopped : p.cancelled = true → q.cancelled = true ∧ q.looks = p.looks

theorem Onward.refl (p : Pacer) : p.Onward p := ⟨Nat.le_refl _, fun h => ⟨h, rfl⟩⟩

theorem Onward.trans {p q r : Pacer} (h : p.Onward q) (h' : q.Onward r) : p.Onward r :=
  ⟨Nat.le_trans h.looks h'.looks, fun hp =>
    ⟨(h'.stopped (h.stopped hp).1).1, (h'.stopped (h.stopped hp).1).2.trans (h.stopped hp).2⟩⟩

/-- A look is one way to go on. -/
theorem onward_look (p : Pacer) : p.Onward (endOf (look p)) := by
  cases h : p.cancelled with
  | true =>
      rw [look_of_cancelled h]
      exact .refl p
  | false =>
      rw [look_of_going h]
      exact ⟨Nat.le_succ _, fun hp => by rw [h] at hp; cases hp⟩

/-- Every step is one way to go on. -/
theorem Onward.step {r p q : Pacer} (h : r.Onward p) (hstep : p.Step q) : r.Onward q :=
  keeps_of_step (fun h => h.trans (onward_look _))
    (fun h => h.trans ⟨Nat.le_refl _, fun _ => ⟨rfl, rfl⟩⟩)
    (fun _ _ h => h.trans ⟨Nat.le_refl _, fun hp => ⟨hp, rfl⟩⟩) h hstep

/-- With `k` more looks there have been `K`, unless the run has been stopped. -/
def Nearing (K k : Nat) (p : Pacer) : Prop := (0 < k ∧ p.cancelled = true) ∨ K ≤ p.looks + k

theorem Nearing.mono {K j k : Nat} {p : Pacer} (h : Nearing K j p) (hjk : j ≤ k) :
    Nearing K k p :=
  h.imp (fun h => ⟨Nat.lt_of_lt_of_le h.1 hjk, h.2⟩) fun h => by omega

/-- A look finds a stop request, or it is one of the looks there have to be. -/
theorem Nearing.look_cases {K k : Nat} {p : Pacer} (h : Nearing K k p) :
    (∃ q, look p = .ok true q ∧ Nearing K k q)
      ∨ ∃ q, look p = .ok false q ∧ Nearing K (k - 1) q := by
  cases hp : p.cancelled with
  | true => exact .inl ⟨p, look_of_cancelled hp, h⟩
  | false =>
      have hlooks : K ≤ p.looks + k := h.resolve_left fun h => by rw [hp] at h; cases h.2
      rw [look_of_going hp]
      cases hnow : p.interrupts p.looks with
      | true =>
          refine .inl ⟨_, rfl, .inr ?_⟩
          show K ≤ p.looks + 1 + k
          omega
      | false =>
          refine .inr ⟨_, rfl, .inr ?_⟩
          show K ≤ p.looks + 1 + (k - 1)
          omega

/-- A step brings the looks no nearer than one. -/
theorem Nearing.step {K k : Nat} {p q : Pacer} (h : Nearing K k p) (hstep : p.Step q) :
    Nearing K k q := by
  refine keeps_of_step (fun {p} h => ?_) (fun {p} h => ?_) (fun naps speed h => h) h hstep
  · rcases h.look_cases with ⟨q, hlook, hq⟩ | ⟨q, hlook, hq⟩
    · rw [hlook]
      exact hq
    · rw [hlook]
      exact hq.mono (Nat.sub_le k 1)
  · exact h.imp_left fun h => ⟨h.1, rfl⟩

end Pacer

namespace Session

/-! ## Runs that may part -/

/-- Procedures of at most `most` tokens. -/
abbrev Short (most : Nat) (p : Procedure) : Prop := p.body.length ≤ most

/-- How two runs may part: what their pacer satisfies while they do the same, and
    how their pacers compare once the first run has failed. -/
structure Parting where
  keeps : Pacer → Prop
  parts : Pacer → Pacer → Prop
  step : ∀ {p q}, keeps p → p.Step q → keeps q
  onward : ∀ {p q r}, parts p q → q.Onward r → parts p r

/-- A run that may meet its limits and goes on after a pacer. -/
abbrev goingOn (most : Nat) (p : Pacer) : Pairing :=
  beside (fun _ => True) (Going p.Onward (Short most)) (Short most)

/-- A run that goes on has the laws of commands. -/
theorem commandLaws_goingOn (most : Nat) (p : Pacer) : (goingOn most p).likeness.CommandLaws :=
  commandLaws_going Pacer.Onward.step fun _ _ => trivial

/-- All engines go on, with whatever limits. -/
theorem blocks_goingOn (most : Nat) (p : Pacer) (patience depth : Nat) :
    (goingOn most p).likeness.Blocks (most + 1) patience patience (engineAt patience depth)
      (engineAt patience depth) :=
  (commandLaws_goingOn most p).engines (fun _ => Pairing.Laws.throw trivial)
    (fun hjk hk => Nat.le_trans hjk hk) (fun _ => Iff.rfl) (fun _ hk => Nat.le_of_lt_succ hk)
    patience depth

namespace Parting

variable (X : Parting) (most : Nat)

/-- Two runs that do the same, and meet no limits. -/
abbrev together : Pairing := besideLimits (Going X.keeps (Short most)) (Short most)

/-- Two runs that do the same have the laws of commands. -/
theorem commandLaws_together : (X.together most).likeness.CommandLaws :=
  commandLaws_going X.step fun _ hf => hf

/-- What two runs have reached. -/
inductive Outcome {β γ : Type} (Q : β → γ → Prop) :
    EStateM.Result Fault World β → EStateM.Result Fault World γ → Prop where
  | together {r s} (h : (X.together most).Outcome Q r s) : Outcome Q r s
  | parted {f w s} (h : Going (X.parts w.pacer) (Short most) (endOf s)) : Outcome Q (.error f w) s

/-- Computations that do the same until the first of them fails.  The second may
    then go on with anything that is a value of it. -/
def likeness : Likeness where
  spelled := Eq
  fits := Short most
  alike Q m n :=
    (∀ p, (goingOn most p).likeness.alike (fun b c => b = c ∧ ∃ a, Q a b) n n)
      ∧ ∀ w, Going X.keeps (Short most) w → X.Outcome most Q (m w) (n w)

section

variable {X most} {β γ δ ε : Type} {Q : β → γ → Prop} {S : δ → ε → Prop}

/-- Values that the first run might have given. -/
theorem values {R : β → β → Prop} {n : SessionM β} (hR : ∀ a b, R a b → a = b)
    (hn : ∀ p, (goingOn most p).likeness.alike R n n) (p : Pacer) :
    (goingOn most p).likeness.alike (fun b c => b = c ∧ ∃ a, R a b) n n := by
  refine (commandLaws_goingOn most p).mono (hn p) fun a b hab => ⟨hR a b hab, a, ?_⟩
  rw [← hR a b hab] at hab
  exact hab

/-- How the second run compares with itself. -/
theorem second {R : β → β → Prop} {m n : SessionM β} (hR : ∀ a b, R a b → a = b)
    (h : (X.likeness most).alike R m n) (p : Pacer) : (goingOn most p).likeness.alike R n n := by
  refine (commandLaws_goingOn most p).mono (h.1 p) ?_
  rintro b _ ⟨rfl, a, hab⟩
  rw [hR a b hab] at hab
  exact hab

/-- What two computations do alike that cannot part. -/
theorem leaf {R : β → β → Prop} {m n : SessionM β} (hR : ∀ a b, R a b → a = b)
    (hright : ∀ p, (goingOn most p).likeness.alike R n n)
    (hboth : (X.together most).likeness.alike R m n) : (X.likeness most).alike R m n :=
  ⟨values hR hright, fun w hw => .together (hboth w w ⟨rfl, hw⟩)⟩

/-- The second run goes on after the first has failed. -/
theorem goesOn {R : γ → γ → Prop} {n : SessionM γ}
    (hn : ∀ p, (goingOn most p).likeness.alike R n n) {p : Pacer} {v : World}
    (hv : Going (X.parts p) (Short most) v) : Going (X.parts p) (Short most) (endOf (n v)) := by
  have hout := hn v.pacer v v ⟨rfl, { hv with pacer := .refl _ }⟩
  generalize n v = r at hout
  cases hout with
  | ok _ hr => exact { hr.2 with pacer := X.onward hv.pacer hr.2.pacer }
  | error _ hr => exact { hr.2 with pacer := X.onward hv.pacer hr.2.pacer }

/-- Computations that may part can be followed by such that may. -/
theorem bind {m : SessionM β} {n : SessionM γ} {k : β → SessionM δ} {l : γ → SessionM ε}
    (hm : (X.likeness most).alike Q m n)
    (hk : ∀ a b, Q a b → (X.likeness most).alike S (k a) (l b)) :
    (X.likeness most).alike S (m >>= k) (n >>= l) := by
  have hright : ∀ p, (goingOn most p).likeness.alike (fun b c => b = c ∧ ∃ a, S a b) (n >>= l)
      (n >>= l) := by
    intro p
    refine Pairing.Laws.bind (hm.1 p) ?_
    rintro b _ ⟨rfl, a, hab⟩
    exact (hk a b hab).1 p
  refine ⟨hright, fun w hw => ?_⟩
  have hout := hm.2 w hw
  have hvalue := hm.1 w.pacer w w ⟨rfl, { hw with pacer := .refl _ }⟩
  generalize hmw : m w = r at hout
  generalize hnw : n w = s at hout hvalue
  cases hout with
  | together h =>
      cases h with
      | ok hab hr =>
          obtain ⟨rfl, hu⟩ := hr
          rw [bind_of_ok hmw, bind_of_ok hnw]
          exact (hk _ _ hab).2 _ hu
      | error hf hr =>
          rw [bind_of_error hmw, bind_of_error hnw]
          exact .together (.error hf hr)
  | parted h =>
      rw [bind_of_error hmw]
      cases hvalue with
      | error =>
          rw [bind_of_error hnw]
          exact .parted h
      | ok hb =>
          -- the second run goes on with a value that the first one might have given
          obtain ⟨-, a, hab⟩ := hb
          rw [bind_of_ok hnw]
          exact .parted (goesOn (hk a _ hab).1 h)

section

variable {m : SessionM β} {n : SessionM γ} {d d' e e' : SessionM Unit} {w u : World}

/-- What is done after two runs that give values. -/
theorem outcome_wrapUp_ok {a : β} {b : γ} (hmw : m w = .ok a u) (hnw : n w = .ok b u)
    (hab : Q a b) (hdone : X.Outcome most Eq (d u) (d' u)) :
    X.Outcome most Q (TurtleLogo.wrapUp m d e w) (TurtleLogo.wrapUp n d' e' w) := by
  generalize hdu : d u = r at hdone
  generalize hdu' : d' u = s at hdone
  cases hdone with
  | together h =>
      cases h with
      | ok _ hr =>
          rw [wrapUp_ok_ok hmw hdu, wrapUp_ok_ok hnw hdu']
          exact .together (.ok hab hr)
      | error hf hr =>
          rw [wrapUp_ok_error hmw hdu, wrapUp_ok_error hnw hdu']
          exact .together (.error hf hr)
  | parted h =>
      rw [wrapUp_ok_error hmw hdu]
      refine .parted ?_
      rw [endOf_wrapUp_ok hnw, hdu']
      exact h

/-- What is done after two runs that fail. -/
theorem outcome_wrapUp_error {f : Fault} (hmw : m w = .error f u) (hnw : n w = .error f u)
    (hf : (X.together most).allowed f) (hfailed : X.Outcome most Eq (e u) (e' u)) :
    X.Outcome most Q (TurtleLogo.wrapUp m d e w) (TurtleLogo.wrapUp n d' e' w) := by
  generalize heu : e u = r at hfailed
  generalize heu' : e' u = s at hfailed
  cases hfailed with
  | together h =>
      cases h with
      | ok _ hr =>
          rw [wrapUp_error_ok hmw heu, wrapUp_error_ok hnw heu']
          exact .together (.error hf hr)
      | error hg hr =>
          rw [wrapUp_error_error hmw heu, wrapUp_error_error hnw heu']
          exact .together (.error hg hr)
  | parted h =>
      rw [wrapUp_error_error hmw heu]
      refine .parted ?_
      rw [endOf_wrapUp_error hnw, heu']
      exact h

end

/-- Computations that may part can be wrapped up, if the wrapping up for failures
    leaves the pacer. -/
theorem wrapUp {m : SessionM β} {n : SessionM γ} {d d' e e' : SessionM Unit}
    (hm : (X.likeness most).alike Q m n) (hd : (X.likeness most).alike Eq d d')
    (he : (X.likeness most).alike Eq e e') (hpacer : ∀ w, (endOf (e w)).pacer = w.pacer) :
    (X.likeness most).alike Q (wrapUp m d e) (wrapUp n d' e') := by
  have heq : ∀ {d : SessionM Unit}, (∀ p, (goingOn most p).likeness.alike
      (fun b c => b = c ∧ ∃ a : Unit, a = b) d d) →
      ∀ p, (goingOn most p).likeness.alike Eq d d :=
    fun hd p => (commandLaws_goingOn most p).mono (hd p) fun _ _ h => h.1
  refine ⟨fun p => Pairing.Laws.wrapUp (hm.1 p) (heq hd.1 p) (heq he.1 p), fun w hw => ?_⟩
  have hout := hm.2 w hw
  generalize hmw : m w = r at hout
  generalize hnw : n w = s at hout
  cases hout with
  | together h =>
      cases h with
      | ok hab hr =>
          obtain ⟨rfl, hu⟩ := hr
          exact outcome_wrapUp_ok hmw hnw hab (hd.2 _ hu)
      | error hf hr =>
          obtain ⟨rfl, hu⟩ := hr
          exact outcome_wrapUp_error hmw hnw hf (he.2 _ hu)
  | @parted f u _ h =>
      -- whatever the first run still does, it fails, and its pacer stays as it is
      obtain ⟨g, hfailed⟩ := wrapUp_error hmw d e
      rw [hfailed]
      refine .parted ?_
      rw [hpacer]
      cases s with
      | ok b v =>
          rw [endOf_wrapUp_ok hnw]
          exact goesOn hd.1 h
      | error g' v =>
          rw [endOf_wrapUp_error hnw]
          exact goesOn he.1 h

end

/-- What turtles do, both runs do together. -/
theorem onCanvas {act : CanvasM Number Unit} (hact : Unlimited act) :
    (X.likeness most).alike Eq (onCanvas act) (onCanvas act) :=
  leaf (fun _ _ h => h) (fun p => (commandLaws_goingOn most p).canvas hact)
    ((X.commandLaws_together most).canvas hact)

/-- Runs that may part have the laws of commands. -/
theorem commandLaws : (X.likeness most).CommandLaws where
  upper _ _ h := congrArg Text.upper h
  pure h := ⟨fun _ => Pairing.Laws.pure ⟨rfl, _, h⟩, fun w hw => .together (.ok h ⟨rfl, hw⟩)⟩
  throw hf := ⟨fun _ => Pairing.Laws.throw trivial, fun w hw => .together (.error hf ⟨rfl, hw⟩)⟩
  bind := bind
  fresh n := leaf (fun _ _ h => h) (fun p => (commandLaws_goingOn most p).fresh n)
    ((X.commandLaws_together most).fresh n)
  random := leaf (fun _ _ h => h) (fun p => (commandLaws_goingOn most p).random)
    (X.commandLaws_together most).random
  ask prompt := leaf (fun _ _ h => h) (fun p => (commandLaws_goingOn most p).ask prompt)
    ((X.commandLaws_together most).ask prompt)
  seen f := leaf (fun _ _ h => h) (fun p => (commandLaws_goingOn most p).seen f)
    ((X.commandLaws_together most).seen f)
  store := leaf (fun _ _ h => h.1.eq) (fun p => (commandLaws_goingOn most p).store)
    (X.commandLaws_together most).store
  stopRequested := leaf (fun _ _ h => h) (fun p => (commandLaws_goingOn most p).stopRequested)
    (X.commandLaws_together most).stopRequested
  checkpoint := leaf (fun _ _ h => h) (fun p => (commandLaws_goingOn most p).checkpoint)
    (X.commandLaws_together most).checkpoint
  define hpq hq hfits := leaf (fun _ _ h => h)
    (fun p => (commandLaws_goingOn most p).define (.refl _) hq hfits)
    ((X.commandLaws_together most).define hpq hq hfits)
  names hgh hkeep := leaf (fun _ _ h => h)
    (fun p => (commandLaws_goingOn most p).names
      (fun s t hst => by rw [hst.eq]; exact .refl _) hkeep)
    ((X.commandLaws_together most).names hgh hkeep)
  tell who := leaf (fun _ _ h => h) (fun p => (commandLaws_goingOn most p).tell who)
    ((X.commandLaws_together most).tell who)
  filling hm := bind (X.onCanvas most Canvas.unlimited_beginFill) fun _ _ _ =>
    wrapUp hm (X.onCanvas most (Canvas.unlimited_change _))
      (X.onCanvas most (Canvas.unlimited_change _))
      (pacer_onCanvas _)
  wrapUp := wrapUp
  pause ms := leaf (fun _ _ h => h) (fun p => (commandLaws_goingOn most p).pause ms)
    ((X.commandLaws_together most).pause ms)
  emit b c text mode := leaf (fun _ _ h => h)
    (fun p => (commandLaws_goingOn most p).emit c c text mode)
    ((X.commandLaws_together most).emit b c text mode)
  canvas := X.onCanvas most

/-! ## Runs that may part at any time -/

/-- Two runs may part whenever the first of them fails: at once, or after a look
    that has found nothing. -/
def Anytime : Prop :=
  ∀ p q, X.keeps p → (p.cancelled = true → p.Onward q) → X.parts p q

section

variable {X most} (hX : X.Anytime) {β γ : Type} {Q : β → γ → Prop}
include hX

/-- A fault of the first run is alike to anything with which the second goes on. -/
theorem fails (f : Fault) {n : SessionM γ}
    (hn : ∀ p, (goingOn most p).likeness.alike (fun b c => b = c ∧ ∃ a, Q a b) n n) :
    (X.likeness most).alike Q (throw f) n := by
  refine ⟨hn, fun w hw => .parted ?_⟩
  have hout := hn w.pacer w w ⟨rfl, { hw with pacer := .refl _ }⟩
  generalize n w = r at hout
  cases hout with
  | ok _ hr => exact { hr.2 with pacer := hX _ _ hw.pacer fun _ => hr.2.pacer }
  | error _ hr => exact { hr.2 with pacer := hX _ _ hw.pacer fun _ => hr.2.pacer }

/-- The first run may have no passes left for its loop. -/
theorem fails_unless (f : Fault) {x : β} {y : γ} (hxy : Q x y) {n : SessionM γ}
    (hn : ∀ p, (goingOn most p).likeness.alike (fun b c => b = c ∧ ∃ a, Q a b)
      (stopRequested >>= fun stop => if stop then pure y else n)
      (stopRequested >>= fun stop => if stop then pure y else n)) :
    (X.likeness most).alike Q
      (stopRequested >>= fun stop => if stop then pure x else throw f)
      (stopRequested >>= fun stop => if stop then pure y else n) := by
  refine ⟨hn, fun w hw => ?_⟩
  have hkeeps := X.step hw.pacer .look
  have hout := hn w.pacer w w ⟨rfl, { hw with pacer := .refl _ }⟩
  cases hcancelled : w.pacer.cancelled with
  | true =>
      rw [unless_of_cancelled hcancelled, unless_of_cancelled hcancelled]
      exact .together (.ok hxy ⟨rfl, hw⟩)
  | false =>
      have hlook := Pacer.look_of_going hcancelled
      rw [hlook] at hkeeps
      have hstop : stopRequested w = .ok (w.pacer.interrupts w.pacer.looks) { w with
          pacer := endOf (Pacer.look w.pacer) } := by
        simp only [stopRequested, onPacer, hlook, endOf_ok]
      rw [hlook, endOf_ok] at hstop
      generalize hs : (stopRequested >>= fun stop => if stop then pure y else n) w = s at hout
      cases hnow : w.pacer.interrupts w.pacer.looks with
      | true =>
          rw [hnow] at hstop hkeeps
          rw [bind_of_ok hstop] at hs
          rw [bind_of_ok hstop, ← hs]
          exact .together (.ok hxy ⟨rfl, { hw with pacer := hkeeps }⟩)
      | false =>
          rw [hnow] at hstop hkeeps
          rw [bind_of_ok hstop]
          refine .parted ?_
          cases hout with
          | ok _ hr =>
              exact { hr.2 with pacer := hX _ _ hkeeps fun h => by cases h }
          | error _ hr =>
              exact { hr.2 with pacer := hX _ _ hkeeps fun h => by cases h }

variable {E F : Engine} {ts us : List Token}
  (hblock : (X.likeness most).alike (Flow.Like Eq us.length) (E.block ts) (F.block us))
include hblock

/-- A `WHILE` with fewer passes is alike to one with more. -/
theorem whilePasses {test test' : List Token} {patience allowance : Nat}
    (htest : (X.likeness most).alike ((X.likeness most).Reads test'.length) (condition E test)
      (condition F test')) (hle : patience ≤ allowance) :
    (X.likeness most).alike Eq (whilePasses E test ts patience)
      (whilePasses F test' us allowance) := by
  have hright : ∀ n p, (goingOn most p).likeness.alike
      (fun b c => b = c ∧ ∃ a : Option Signal, a = b) (Session.whilePasses F test' us n)
      (Session.whilePasses F test' us n) := fun n => values (fun _ _ h => h) fun p =>
    (commandLaws_goingOn most p).whilePasses (second (fun _ _ h => h.eq) hblock p)
      (Pairing.Laws.throw trivial) ((commandLaws_goingOn most p).mono
        (second (fun _ _ h => h.eq rfl) htest p) fun _ _ h => { h with })
  induction patience generalizing allowance with
  | zero =>
      cases allowance with
      | zero => exact fails_unless hX _ rfl (hright 0)
      | succ allowance => exact fails_unless hX _ rfl (hright (allowance + 1))
  | succ patience ih =>
      obtain ⟨allowance, rfl⟩ : ∃ n, allowance = n + 1 := ⟨allowance - 1, by omega⟩
      have H := X.commandLaws most
      refine H.next H.stopRequested fun stop => ?_
      split
      · exact H.pure rfl
      · refine H.read htest fun v rest rest' hrest hlength => ?_
        dsimp only
        split
        · exact H.pure rfl
        · refine H.bind hblock fun _ _ hflow => ?_
          cases hflow with
          | done => exact ih (by omega)
          | signal s => exact H.pure rfl

/-- A `FOR` with fewer passes is alike to one with more. -/
theorem forPasses (r : LoopRange) {patience allowance : Nat} (pass : Nat)
    (hle : patience ≤ allowance) :
    (X.likeness most).alike Eq (forPasses E r ts patience pass)
      (forPasses F r us allowance pass) := by
  have hright : ∀ n pass p, (goingOn most p).likeness.alike
      (fun b c => b = c ∧ ∃ a : Option Signal, a = b) (Session.forPasses F r us n pass)
      (Session.forPasses F r us n pass) := fun n pass => values (fun _ _ h => h) fun p =>
    (commandLaws_goingOn most p).forPasses (second (fun _ _ h => h.eq) hblock p)
      (Pairing.Laws.throw trivial) r pass
  induction patience generalizing allowance pass with
  | zero =>
      cases allowance with
      | zero => exact fails_unless hX _ rfl (hright 0 pass)
      | succ allowance => exact fails_unless hX _ rfl (hright (allowance + 1) pass)
  | succ patience ih =>
      obtain ⟨allowance, rfl⟩ : ∃ n, allowance = n + 1 := ⟨allowance - 1, by omega⟩
      have H := X.commandLaws most
      refine H.next H.stopRequested fun stop => ?_
      split
      · exact H.pure rfl
      · refine H.next (H.compute _) fun v => H.next (H.fresh v) fun v => ?_
        split
        · exact H.pure rfl
        · refine H.next (H.names (fun _ _ h => h.bindInnermost _ _) fun t =>
            t.procedures_bindInnermost _ _) fun _ => H.bind hblock fun _ _ hflow => ?_
          cases hflow with
          | done => exact ih (pass + 1) (by omega)
          | signal s => exact H.pure rfl

end

end Parting

/-- Under smaller limits a run does the same until it fails. -/
theorem Parting.blocks_anytime {X : Parting} {most : Nat} (hX : X.Anytime) {p q : Nat}
    (hpq : p ≤ q) {d e : Nat} (hde : d ≤ e) :
    (X.likeness most).Blocks (most + 1) p q (engineAt p d) (engineAt q e) := by
  induction d using Nat.strongRecOn generalizing e with
  | ind d ih =>
      have H := X.commandLaws most
      have hright := fun r => blocks_goingOn most r q e
      have hexpression : ∀ {ts us}, TokensLike Eq ts us → us.length < most + 1 →
          (X.likeness most).alike ((X.likeness most).Reads us.length) (expressionAt p d ts)
            (expressionAt q e us) := by
        intro ts us h hlt
        by_cases hd : d < 7
        · rw [expressionAt_shallow hd]
          exact fails hX _ (values (fun _ _ h => h.eq rfl) fun r =>
            (commandLaws_goingOn most r).mono ((hright r).expression (.refl us) hlt)
              fun _ _ h => { h with })
        · obtain ⟨d, rfl⟩ : ∃ c, d = c + 7 := ⟨d - 7, by omega⟩
          obtain ⟨e, rfl⟩ : ∃ c, e = c + 7 := ⟨e - 7, by omega⟩
          rw [expressionAt, expressionAt]
          exact H.sum (ih d (by omega) (by omega)).toEngines h (Nat.le_of_lt hlt)
      have hblock : ∀ {ts us}, TokensLike Eq ts us → us.length < most + 1 →
          (X.likeness most).alike (Flow.Like Eq us.length) (blockAtDepth p d ts)
            (blockAtDepth q e us) := by
        intro ts us h hlt
        by_cases hd : d < 3
        · rw [blockAtDepth_shallow hd]
          exact fails hX _ (values (fun _ _ h => h.eq) fun r => (hright r).block (.refl us) hlt)
        · obtain ⟨d, rfl⟩ : ∃ c, d = c + 3 := ⟨d - 3, by omega⟩
          obtain ⟨e, rfl⟩ : ∃ c, e = c + 3 := ⟨e - 3, by omega⟩
          rw [blockAtDepth, blockAtDepth, h.length_eq]
          exact H.statements (fun h hn => H.statement (ih d (by omega) (by omega)) h hn) us.length h
            (Nat.le_of_lt hlt)
      have hengines : (X.likeness most).Engines (most + 1) (engineAt p d) (engineAt q e) :=
        ⟨hexpression, fun args hpq hfits =>
          H.invoke args hpq (hblock hpq.body (Nat.lt_succ_of_le hfits))⟩
      exact { hengines with
        fits := fun r hr => Nat.le_of_lt_succ hr
        block := hblock
        repeated := fun left count h hlt =>
          H.repeatPasses (E := engineAt p d) (F := engineAt q e) (hblock h hlt) left count
        whiled := fun htest hlt h hlt' =>
          whilePasses hX (hblock h hlt') (H.condition hengines htest hlt) hpq
        looped := fun r _ _ h hlt => forPasses hX (hblock h hlt) r 0 hpq }

/-! ## Runs with room for looks -/

namespace Parting

variable {K most k : Nat}

/-- Two runs that may part after `K` looks, of which there are at most `k` to
    go. -/
def nearing (K k : Nat) : Parting where
  keeps := Pacer.Nearing K k
  parts p _ := K ≤ p.looks
  step h hstep := h.step hstep
  onward h _ := h

/-- With no looks to go two runs may part at any time. -/
theorem anytime_nearing : (nearing K 0).Anytime := fun _ _ h _ =>
  h.elim (fun h => absurd h.1 (Nat.lt_irrefl 0)) id

section

variable {β γ : Type} {Q : β → γ → Prop}

/-- What is reached with few looks to go is reached with more. -/
theorem Outcome.later {j : Nat} {r s} (h : (nearing K j).Outcome most Q r s) (hjk : j ≤ k) :
    (nearing K k).Outcome most Q r s := by
  cases h with
  | parted hparts => exact .parted hparts
  | together hboth =>
      have hlater : ∀ {v}, Going (Pacer.Nearing K j) (Short most) v →
          Going (Pacer.Nearing K k) (Short most) v := fun hv =>
        { hv with pacer := hv.pacer.mono hjk }
      cases hboth with
      | ok hab hr => exact .together (.ok hab ⟨hr.1, hlater hr.2⟩)
      | error hf hr => exact .together (.error hf ⟨hr.1, hlater hr.2⟩)

/-- After a look that finds nothing there is one look less to go. -/
theorem nearing_unless {x : β} {y : γ} (hxy : Q x y) {m : SessionM β} {n : SessionM γ}
    (h : ((nearing K (k - 1)).likeness most).alike Q m n) :
    ((nearing K k).likeness most).alike Q
      (stopRequested >>= fun stop => if stop then pure x else m)
      (stopRequested >>= fun stop => if stop then pure y else n) := by
  refine ⟨fun p => ?_, fun w hw => ?_⟩
  · refine (commandLaws_goingOn most p).next (commandLaws_goingOn most p).stopRequested
      fun stop => ?_
    split
    · exact Pairing.Laws.pure ⟨rfl, x, hxy⟩
    · exact h.1 p
  · rcases Pacer.Nearing.look_cases hw.pacer with ⟨q, hlook, hq⟩ | ⟨q, hlook, hq⟩
    · have hstop : stopRequested w = .ok true { w with pacer := q } := by
        simp only [stopRequested, onPacer, hlook]
      rw [bind_of_ok hstop, bind_of_ok hstop]
      exact .together (.ok hxy ⟨rfl, { hw with pacer := hq }⟩)
    · have hstop : stopRequested w = .ok false { w with pacer := q } := by
        simp only [stopRequested, onPacer, hlook]
      rw [bind_of_ok hstop, bind_of_ok hstop]
      exact (h.2 { w with pacer := q } { hw with pacer := hq }).later (k.sub_le 1)

end

section

variable {E F : Engine} {ts us : List Token}

/-- Statements one after another. -/
theorem nearing_statements {one two : List Token → SessionM Flow} {n : Nat} (count : Nat)
    (hone : ∀ j ≤ k - 1, ∀ {ts us}, TokensLike Eq ts us → us.length ≤ n →
      ((nearing K j).likeness most).alike (Flow.Like Eq us.length) (one ts) (two us))
    (h : TokensLike Eq ts us) (hn : us.length ≤ n) :
    ((nearing K k).likeness most).alike (Flow.Like Eq us.length) (statements one count ts)
      (statements two count us) := by
  induction count generalizing k ts us with
  | zero =>
      have H := (nearing K k).commandLaws most
      cases h with
      | nil => exact H.pure (.done .nil (Nat.le_refl _))
      | cons htu htail => exact H.pure (.done (.cons htu htail) (Nat.le_refl _))
  | succ count ih =>
      cases h with
      | nil => exact ((nearing K k).commandLaws most).pure (.done .nil (Nat.le_refl _))
      | cons htu htail =>
          refine nearing_unless (.done (.cons htu htail) (Nat.le_refl _)) ?_
          have H := (nearing K (k - 1)).commandLaws most
          refine H.bind (hone (k - 1) (Nat.le_refl _) (.cons htu htail) hn) fun _ _ hflow => ?_
          cases hflow with
          | signal s => exact H.pure (.signal s)
          | done hrest hlength =>
              refine H.next H.checkpoint fun _ => ?_
              have hnext := ih (k := k - 1) (fun j hj => hone j (by omega)) hrest
                (Nat.le_trans hlength hn)
              exact H.mono hnext fun _ _ hflow => hflow.mono hlength

variable (hblock : ∀ j ≤ k - 1, ((nearing K j).likeness most).alike (Flow.Like Eq us.length)
  (E.block ts) (F.block us))
include hblock

/-- There is a look before each pass. -/
theorem nearing_whilePasses {test test' : List Token} {patience allowance : Nat}
    (htest : ∀ j ≤ k - 1, ((nearing K j).likeness most).alike
      (((nearing K j).likeness most).Reads test'.length) (condition E test) (condition F test'))
    (hk : k ≤ patience) (hle : patience ≤ allowance) :
    ((nearing K k).likeness most).alike Eq (Session.whilePasses E test ts patience)
      (Session.whilePasses F test' us allowance) := by
  induction k generalizing patience allowance with
  | zero =>
      exact whilePasses anytime_nearing (hblock 0 (Nat.le_refl _)) (htest 0 (Nat.le_refl _)) hle
  | succ k ih =>
      obtain ⟨patience, rfl⟩ : ∃ n, patience = n + 1 := ⟨patience - 1, by omega⟩
      obtain ⟨allowance, rfl⟩ : ∃ n, allowance = n + 1 := ⟨allowance - 1, by omega⟩
      refine nearing_unless rfl ?_
      have H := (nearing K k).commandLaws most
      refine H.read (htest k (Nat.le_refl _)) fun v rest rest' hrest hlength => ?_
      dsimp only
      split
      · exact H.pure rfl
      · refine H.bind (hblock k (Nat.le_refl _)) fun _ _ hflow => ?_
        cases hflow with
        | done =>
            exact ih (fun j hj => hblock j (by omega)) (fun j hj => htest j (by omega)) (by omega)
              (by omega)
        | signal s => exact H.pure rfl

/-- With as many passes as looks to go, a `FOR` is alike to one with more passes. -/
theorem nearing_forPasses (r : LoopRange) {patience allowance : Nat} (pass : Nat)
    (hk : k ≤ patience) (hle : patience ≤ allowance) :
    ((nearing K k).likeness most).alike Eq (Session.forPasses E r ts patience pass)
      (Session.forPasses F r us allowance pass) := by
  induction k generalizing patience allowance pass with
  | zero => exact forPasses anytime_nearing (hblock 0 (Nat.le_refl _)) r pass hle
  | succ k ih =>
      obtain ⟨patience, rfl⟩ : ∃ n, patience = n + 1 := ⟨patience - 1, by omega⟩
      obtain ⟨allowance, rfl⟩ : ∃ n, allowance = n + 1 := ⟨allowance - 1, by omega⟩
      refine nearing_unless rfl ?_
      have H := (nearing K k).commandLaws most
      refine H.next (H.compute _) fun v => H.next (H.fresh v) fun v => ?_
      split
      · exact H.pure rfl
      · refine H.next (H.names (fun _ _ h => h.bindInnermost _ _) fun t =>
          t.procedures_bindInnermost _ _) fun _ => H.bind (hblock k (Nat.le_refl _))
            fun _ _ hflow => ?_
        cases hflow with
        | done => exact ih (fun j hj => hblock j (by omega)) (pass + 1) (by omega) (by omega)
        | signal s => exact H.pure rfl

end

/-- The depth that the tokens between two looks need. -/
def stride (most : Nat) : Nat := 7 * (most + 1) + 3

/-- A run whose limits leave it `k` passes for each loop and `k` strides of depth
    does the same as under greater limits, unless it makes all its looks. -/
theorem blocks_nearing (K most k : Nat) {p q d e : Nat} (hk : k ≤ p) (hpq : p ≤ q)
    (hd : k * stride most ≤ d) (hde : d ≤ e) :
    ((nearing K k).likeness most).Blocks (most + 1) p q (engineAt p d) (engineAt q e) := by
  induction k using Nat.strongRecOn generalizing d e with
  | ind k ih =>
      cases k with
      | zero => exact blocks_anytime anytime_nearing hpq hde
      | succ k =>
          have hstride : (k + 1) * stride most = k * stride most + (7 * (most + 1) + 3) :=
            Nat.succ_mul k _
          -- what comes after the next look has one look less before it
          have hbefore : ∀ {c c'}, k * stride most ≤ c → c ≤ c' → ∀ j ≤ k,
              ((nearing K j).likeness most).Blocks (most + 1) p q (engineAt p c)
                (engineAt q c') := fun hc hcc j hj =>
            ih j (Nat.lt_succ_of_le hj) (by omega)
              (Nat.le_trans (Nat.mul_le_mul_right _ hj) hc) hcc
          have H := (nearing K (k + 1)).commandLaws most
          -- up to that look a block needs no more depth than its own stride
          have hblock : ∀ {c c'}, k * stride most + 3 ≤ c → c ≤ c' → ∀ {ts us},
              TokensLike Eq ts us → us.length ≤ most →
              ((nearing K (k + 1)).likeness most).alike (Flow.Like Eq us.length)
                (blockAtDepth p c ts) (blockAtDepth q c' us) := by
            intro c c' hc hcc ts us h hlength
            obtain ⟨c, rfl⟩ : ∃ b, c = b + 3 := ⟨c - 3, by omega⟩
            obtain ⟨c', rfl⟩ : ∃ b, c' = b + 3 := ⟨c' - 3, by omega⟩
            rw [blockAtDepth, blockAtDepth, h.length_eq]
            exact nearing_statements us.length (fun j hj _ _ htokens hshort =>
              ((nearing K j).commandLaws most).statement (hbefore (by omega) (by omega) j hj)
                htokens (Nat.le_succ_of_le hshort)) h hlength
          have hengines : ((nearing K (k + 1)).likeness most).Engines (most + 1) (engineAt p d)
              (engineAt q e) :=
            H.toLaws.engines (most + 1) (by omega) (by omega) fun c hc _ _ args hpq hfits =>
              H.invoke args hpq (hblock (by omega) (by omega) hpq.body hfits)
          have hearlier : ∀ j ≤ k, ((nearing K j).likeness most).Blocks (most + 1) p q
              (engineAt p d) (engineAt q e) := hbefore (by omega) hde
          exact { hengines with
            fits := fun r hr => Nat.le_of_lt_succ hr
            block := fun h hlt => hblock (by omega) hde h (Nat.le_of_lt_succ hlt)
            repeated := fun left count h hlt => H.repeatPasses (E := engineAt p d)
              (F := engineAt q e) (hblock (by omega) hde h (Nat.le_of_lt_succ hlt)) left count
            whiled := fun htest hlt h hlt' =>
              nearing_whilePasses (fun j hj => (hearlier j hj).block h hlt') (fun j hj =>
                ((nearing K j).commandLaws most).condition (hearlier j hj).toEngines htest hlt)
                hk hpq
            looped := fun r _ _ h hlt =>
              nearing_forPasses (fun j hj => (hearlier j hj).block h hlt) r 0 hk hpq }

end Parting

end Session

end TurtleLogo
