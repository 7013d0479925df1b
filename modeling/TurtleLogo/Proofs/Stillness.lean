import TurtleLogo.Proofs.Pairing

/-! # After a stop request

    Once someone has asked a run to stop, nothing more happens in it.  A block
    ends before its first statement, and a loop before its next pass, whatever
    the limits are (`block_of_cancelled`, `repeatPasses_of_cancelled` and the
    rest).  So a call of a procedure comes back at once, and an expression
    contains no others than those in its own tokens: how deep it nests is
    bounded by its length (`Likeness.Laws.engines`), and all that it may still
    do is to ask questions and to draw random numbers (`Calm`).

    The pairings of this module put a world beside itself.  A fact about them is
    that two runs under different limits are the same, that neither meets its
    limits, and that the world keeps some property. -/

namespace TurtleLogo

namespace Pacer

/-- What a run that has been stopped does to its pacer: no more pauses. -/
theorem Step.of_cancelled {p q : Pacer} (h : p.Step q) (hp : p.cancelled = true) :
    q.cancelled = true ∧ q.naps = p.naps := by
  cases h with
  | look =>
      rw [look_of_cancelled hp]
      exact ⟨hp, rfl⟩
  | pause ms =>
      rw [pause_of_cancelled hp]
      exact ⟨hp, rfl⟩
  | checkpoint =>
      rw [checkpoint_of_cancelled hp]
      exact ⟨hp, rfl⟩
  | cancel => exact ⟨rfl, rfl⟩
  | speed n => exact ⟨hp, rfl⟩

end Pacer

namespace Session

variable {w : World}

/-! ## Blocks and loops -/

/-- A look for a stop request finds it and changes nothing. -/
theorem stopRequested_of_cancelled (h : w.pacer.cancelled = true) :
    stopRequested w = .ok true w := by
  simp only [stopRequested, onPacer, Pacer.look_of_cancelled h]

/-- What comes next does not happen after a stop request. -/
theorem unless_of_cancelled {β : Type} (h : w.pacer.cancelled = true) (x : β) (m : SessionM β) :
    (stopRequested >>= fun stop => if stop then pure x else m) w = .ok x w := by
  rw [bind_of_ok (stopRequested_of_cancelled h)]
  rfl

/-- No statement is run after a stop request. -/
theorem statements_of_cancelled (h : w.pacer.cancelled = true)
    (one : List Token → SessionM Flow) (n : Nat) (ts : List Token) :
    statements one n ts w = .ok (.done ts) w := by
  cases n with
  | zero => cases ts <;> rfl
  | succ n =>
      cases ts with
      | nil => rfl
      | cons t ts => exact unless_of_cancelled h _ _

/-- A block ends before its first statement. -/
theorem block_of_cancelled (h : w.pacer.cancelled = true) (patience : Nat) {depth : Nat}
    (hdepth : 3 ≤ depth) (ts : List Token) :
    blockAtDepth patience depth ts w = .ok (.done ts) w := by
  obtain ⟨depth, rfl⟩ : ∃ k, depth = k + 3 := ⟨depth - 3, by omega⟩
  rw [blockAtDepth]
  exact statements_of_cancelled h _ _ _

section

variable (h : w.pacer.cancelled = true) (E : Engine) (body : List Token)
include h

/-- `REPEAT` makes no more passes. -/
theorem repeatPasses_of_cancelled (left count : Nat) :
    repeatPasses E body left count w = .ok none w := by
  cases left with
  | zero => rfl
  | succ left => exact unless_of_cancelled h _ _

/-- `WHILE` makes no more passes. -/
theorem whilePasses_of_cancelled (test : List Token) (patience : Nat) :
    whilePasses E test body patience w = .ok none w := by
  cases patience with
  | zero => exact unless_of_cancelled h _ _
  | succ patience => exact unless_of_cancelled h _ _

/-- `FOR` makes no more passes. -/
theorem forPasses_of_cancelled (r : LoopRange) (patience pass : Nat) :
    forPasses E r body patience pass w = .ok none w := by
  cases patience with
  | zero => exact unless_of_cancelled h _ _
  | succ patience => exact unless_of_cancelled h _ _

end

/-- A procedure comes back at once. -/
theorem invoke_of_cancelled (h : w.pacer.cancelled = true) {E : Engine} {p : Procedure}
    (hblock : ∀ u : World, u.pacer.cancelled = true → E.block p.body u = .ok (.done p.body) u)
    (args : List Value) : invoke E p args w = .ok none w := by
  have hframe : inFrame (Frame.ofBindings (p.params.zip args)) (E.block p.body) w
      = .ok (.done p.body) w := by
    rw [inFrame_eq]
    exact wrapUp_ok_ok (hblock _ h) (closeFrame_eq rfl)
  rw [invoke, bind_of_ok hframe]
  rfl

/-! ## How deep an expression nests -/

/-- Where calls are alike at given depths and a bit below, so are expressions, if
    there is room for one step down with each token. -/
theorem Likeness.Laws.engines {L : Likeness} (H : L.Laws) {patience allowance : Nat} (n : Nat)
    {d e : Nat} (hd : 7 * n ≤ d) (he : 7 * n ≤ e) (hcall : ∀ c ≤ 7 * n, ∀ {p q} args,
      Procedure.Like L.spelled p q → L.fits q → L.alike Eq
        (invoke (engineAt patience (d - c)) p args) (invoke (engineAt allowance (e - c)) q args)) :
    L.Engines n (engineAt patience d) (engineAt allowance e) := by
  induction n generalizing d e with
  | zero => exact ⟨fun _ hlt => absurd hlt (Nat.not_lt_zero _), hcall 0 (Nat.zero_le _)⟩
  | succ n ih =>
      refine ⟨fun {ts us} h hlt => ?_, hcall 0 (Nat.zero_le _)⟩
      obtain ⟨d, rfl⟩ : ∃ k, d = k + 7 := ⟨d - 7, by omega⟩
      obtain ⟨e, rfl⟩ : ∃ k, e = k + 7 := ⟨e - 7, by omega⟩
      show L.alike _ (expressionAt patience (d + 7) ts) (expressionAt allowance (e + 7) us)
      rw [expressionAt, expressionAt]
      refine H.sum (ih (by omega) (by omega) fun c hc p q args hpq hq => ?_) h (by omega)
      have hbelow := hcall (c + 7) (by omega) args hpq hq
      rw [Nat.add_sub_add_right, Nat.add_sub_add_right] at hbelow
      exact hbelow

/-! ## Worlds beside themselves -/

/-- An end that has nothing to do with the limits of a run, in a world with some
    property. -/
inductive EndsIn {β : Type} (J : World → Prop) : EStateM.Result Fault World β → Prop where
  | ok {b v} (h : J v) : EndsIn J (.ok b v)
  | error {f v} (hf : f.ofLimits = false) (h : J v) : EndsIn J (.error f v)

/-- A computation that ends in one and the same way under all limits that are
    great enough, and meets none of them. -/
def Settles {β : Type} (J : World → Prop) (patience depth : Nat)
    (m : Nat → Nat → SessionM β) (w : World) : Prop :=
  ∃ r, EndsIn J r ∧ ∀ p d, patience ≤ p → depth ≤ d → m p d w = r

theorem Settles.mono {β : Type} {J J' : World → Prop} {patience depth : Nat}
    {m : Nat → Nat → SessionM β} (h : Settles J patience depth m w) (hJ : ∀ v, J v → J' v) :
    Settles J' patience depth m w := by
  obtain ⟨r, hr, hm⟩ := h
  refine ⟨r, ?_, hm⟩
  cases hr with
  | ok hv => exact .ok (hJ _ hv)
  | error hf hv => exact .error hf (hJ _ hv)

/-- The pairing of every world that has some property with itself. -/
def beside (allowed : Fault → Prop) (J : World → Prop) (fits : Procedure → Prop) : Pairing where
  spelled := Eq
  fits := fits
  rel w v := w = v ∧ J v
  allowed := allowed
  draws _ := True
  asks _ := True

/-- The pairing of worlds whose runs do not meet their limits. -/
abbrev besideLimits (J : World → Prop) (fits : Procedure → Prop) : Pairing :=
  beside (fun f => f.ofLimits = false) J fits

section

variable {J : World → Prop} {β : Type}

/-- Computations settle that are alike under all limits that are great enough, if
    only equal ends are paired. -/
theorem Settles.of_pairing {P : Pairing} (hrel : ∀ {u v}, P.rel u v → u = v ∧ J v)
    (hallowed : ∀ f, P.allowed f → f.ofLimits = false) (Q : β → β → Prop)
    (hQ : ∀ a b, Q a b → a = b) {patience depth : Nat} {m : Nat → Nat → SessionM β}
    (h : ∀ p q d e, patience ≤ p → patience ≤ q → depth ≤ d → depth ≤ e →
      P.likeness.alike Q (m p d) (m q e)) (hw : P.rel w w) :
    Settles J patience depth m w := by
  have hsame : ∀ p d, patience ≤ p → depth ≤ d → m p d w = m patience depth w
      ∧ EndsIn J (m patience depth w) := by
    intro p d hp hd
    have hout := h p patience d depth hp (Nat.le_refl _) hd (Nat.le_refl _) w w hw
    generalize m p d w = r at hout
    generalize m patience depth w = s at hout
    cases hout with
    | ok hq hr =>
        obtain ⟨rfl, hv⟩ := hrel hr
        rw [hQ _ _ hq]
        exact ⟨rfl, .ok hv⟩
    | error hf hr =>
        obtain ⟨rfl, hv⟩ := hrel hr
        exact ⟨rfl, .error (hallowed _ hf) hv⟩
  exact ⟨m patience depth w, (hsame _ _ (Nat.le_refl _) (Nat.le_refl _)).2,
    fun p d hp hd => (hsame p d hp hd).1⟩

/-- Computations settle that are alike beside themselves under all limits that
    are great enough. -/
theorem Settles.of_beside (fits : Procedure → Prop) (Q : β → β → Prop)
    (hQ : ∀ a b, Q a b → a = b) {patience depth : Nat} {m : Nat → Nat → SessionM β}
    (h : ∀ p q d e, patience ≤ p → patience ≤ q → depth ≤ d → depth ≤ e →
      (besideLimits J fits).likeness.alike Q (m p d) (m q e)) (hw : J w) :
    Settles J patience depth m w :=
  .of_pairing id (fun _ hf => hf) Q hQ h ⟨rfl, hw⟩

end

/-! ## What expressions may still do -/

/-- All that may have happened since a world is that questions were asked and
    random numbers drawn. -/
structure Calm (w v : World) : Prop where
  store : v.store = w.store
  canvas : v.canvas = w.canvas
  pacer : v.pacer = w.pacer
  running : v.running = w.running
  printed : v.printed = w.printed
  listening : v.host.listening = w.host.listening
  react : v.host.react = w.host.react
  heard : v.host.heard = w.host.heard
  chance : v.host.chance = w.host.chance
  panel : v.host.panel = w.host.panel
  notices : ∃ prompts : List Text,
    v.host.notices.toList = w.host.notices.toList ++ prompts.map .question

theorem Calm.refl (w : World) : Calm w w :=
  ⟨rfl, rfl, rfl, rfl, rfl, rfl, rfl, rfl, rfl, rfl, [], (List.append_nil _).symm⟩

/-- A world is still calm after a question. -/
theorem Calm.question {v : World} (h : Calm w v) (prompt : Text) :
    Calm w ((Aside.question prompt).apply v) := by
  obtain ⟨prompts, hprompts⟩ := h.notices
  refine { h with notices := ⟨prompts ++ [prompt], ?_⟩ }
  show (v.host.notices.push (.question prompt)).toList = _
  rw [Array.toList_push, hprompts, List.append_assoc, List.map_append]
  rfl

/-- Calm worlds beside themselves have the laws of expressions. -/
theorem laws_calm (w : World) : (besideLimits (Calm w) fun _ => True).Laws where
  upper _ _ h := congrArg Text.upper h
  allowed _ hf := hf
  close hr := hr.1 ▸ .refl _
  store hr := ⟨hr.1 ▸ .refl _, fun _ _ => trivial⟩
  undefined _ hr := ⟨by rw [hr.1], { hr.2 with }⟩
  draw hr := ⟨by rw [hr.1], { hr.2 with }⟩
  question prompt hr := ⟨by rw [hr.1], hr.2.question prompt⟩
  replies _ hr := ⟨by rw [hr.1], { hr.2 with }⟩

/-- In a run that has been stopped expressions and conditions end calmly, with
    no more depth than their tokens need. -/
theorem calm_of_cancelled (h : w.pacer.cancelled = true) (ts : List Token) :
    Settles (Calm w) 0 (7 * ts.length + 10) (fun p d => expressionAt p d ts) w
      ∧ Settles (Calm w) 0 (7 * ts.length + 10) (fun p d => condition (engineAt p d) ts) w := by
  have hengines : ∀ p q d e, 7 * ts.length + 10 ≤ d → 7 * ts.length + 10 ≤ e →
      (besideLimits (Calm w) fun _ => True).likeness.Engines (ts.length + 1) (engineAt p d)
        (engineAt q e) := by
    intro p q d e hd he
    refine (laws_calm w).likeness.engines _ (by omega) (by omega) ?_
    rintro c hc p' q' args hpq - u v ⟨rfl, hcalm⟩
    have hcancelled : u.pacer.cancelled = true := by rw [hcalm.pacer]; exact h
    rw [invoke_of_cancelled hcancelled fun v hv => block_of_cancelled hv p (by omega) _,
      invoke_of_cancelled hcancelled fun v hv => block_of_cancelled hv q (by omega) _]
    exact .ok rfl ⟨rfl, hcalm⟩
  have hlt := Nat.lt_succ_self ts.length
  let L := (besideLimits (Calm w) fun _ => True).likeness
  refine ⟨.of_beside (fun _ => True) (L.Reads ts.length) (fun _ _ h => h.eq rfl)
      (fun p q d e _ _ hd he => ?_) (.refl w),
    .of_beside (fun _ => True) (L.Reads ts.length) (fun _ _ h => h.eq rfl)
      (fun p q d e _ _ hd he => ?_) (.refl w)⟩
  · exact (hengines p q d e hd he).expression (.refl ts) hlt
  · exact (laws_calm w).likeness.condition (hengines p q d e hd he) (.refl ts) hlt

/-! ## What statements may still do -/

/-- A program is running, and its pacer has some property. -/
structure Going (A : Pacer → Prop) (fits : Procedure → Prop) (v : World) : Prop where
  running : v.running = true
  pacer : A v.pacer
  procedures : ∀ q ∈ v.store.procedures, fits q

section

variable {A : Pacer → Prop} {fits : Procedure → Prop} {allowed : Fault → Prop}

/-- Statements keep every property of the pacer that its steps keep. -/
theorem diagonal_going (hA : ∀ {p q : Pacer}, A p → p.Step q → A q)
    (hallowed : ∀ f : Fault, f.ofLimits = false → allowed f) :
    (beside allowed (Going A fits) fits).Diagonal (Going A fits) where
  spelled := rfl
  rel := .rfl
  allowed := hallowed
  fits h := h.procedures
  akin h hakin :=
    ⟨hakin.running.trans h.running, hakin.pacer ▸ h.pacer, hakin.store ▸ h.procedures⟩
  names h hfits := { h with procedures := hfits }
  pacer h hstep := { h with pacer := hA h.pacer hstep }
  canvas _ h _ := { h with }
  tell _ := trivial
  beginFill := trivial
  endFill := trivial
  cancelFill := trivial
  window _ _ _ _ := trivial
  asked _ _ _ _ _ := trivial

/-- Runs that go on have the laws of hosts. -/
theorem hostLaws_going (hA : ∀ {p q : Pacer}, A p → p.Step q → A q)
    (hallowed : ∀ f : Fault, f.ofLimits = false → allowed f) :
    (beside allowed (Going A fits) fits).HostLaws :=
  (diagonal_going hA hallowed).hostLaws fun h => h.running

/-- Programs under such a pairing. -/
theorem commandLaws_going (hA : ∀ {p q : Pacer}, A p → p.Step q → A q)
    (hallowed : ∀ f : Fault, f.ofLimits = false → allowed f) :
    (beside allowed (Going A fits) fits).likeness.CommandLaws :=
  (hostLaws_going hA hallowed).commands fun _ => trivial

/-- In a run that has been stopped blocks and loops are alike under all limits
    that make room for the tokens of an expression. -/
theorem blocks_of_cancelled (hA : ∀ {p q : Pacer}, A p → p.Step q → A q)
    (hcancelled : ∀ {p : Pacer}, A p → p.cancelled = true) (n : Nat)
    (hfits : ∀ p : Procedure, p.body.length < n → fits p) {p q d e : Nat} (hd : 7 * n + 3 ≤ d)
    (he : 7 * n + 3 ≤ e) :
    (besideLimits (Going A fits) fits).likeness.Blocks n p q (engineAt p d) (engineAt q e) := by
  have hnone : ∀ {m m' : SessionM (Option Signal)},
      (∀ u : World, u.pacer.cancelled = true → m u = .ok none u) →
      (∀ u : World, u.pacer.cancelled = true → m' u = .ok none u) →
      (besideLimits (Going A fits) fits).likeness.alike Eq m m' := by
    rintro m m' hm hm' u v ⟨rfl, hgoing⟩
    rw [hm u (hcancelled hgoing.pacer), hm' u (hcancelled hgoing.pacer)]
    exact .ok rfl ⟨rfl, hgoing⟩
  have H : (besideLimits (Going A fits) fits).likeness.CommandLaws :=
    commandLaws_going hA fun _ hf => hf
  have hengines : (besideLimits (Going A fits) fits).likeness.Engines n (engineAt p d)
      (engineAt q e) :=
    H.toLaws.engines n (by omega) (by omega) fun c hc _ _ args _ _ => hnone
      (fun _ hu => invoke_of_cancelled hu (fun _ hv => block_of_cancelled hv p (by omega) _) args)
      fun _ hu => invoke_of_cancelled hu (fun _ hv => block_of_cancelled hv q (by omega) _) args
  refine { hengines with fits := hfits, block := ?_, repeated := ?_, whiled := ?_, looped := ?_ }
  · rintro ts us h hlt u v ⟨rfl, hgoing⟩
    have hu := hcancelled hgoing.pacer
    show Pairing.Outcome _ _ (blockAtDepth p d ts u) (blockAtDepth q e us u)
    rw [block_of_cancelled hu p (by omega) ts, block_of_cancelled hu q (by omega) us]
    exact .ok (.done h (Nat.le_refl _)) ⟨rfl, hgoing⟩
  · exact fun left count _ _ => hnone (fun _ hu => repeatPasses_of_cancelled hu _ _ left count)
      fun _ hu => repeatPasses_of_cancelled hu _ _ left count
  · exact fun _ _ _ _ => hnone (fun _ hu => whilePasses_of_cancelled hu _ _ _ _)
      fun _ hu => whilePasses_of_cancelled hu _ _ _ _
  · exact fun r _ _ _ _ => hnone (fun _ hu => forPasses_of_cancelled hu _ _ r _ _)
      fun _ hu => forPasses_of_cancelled hu _ _ r _ _

end

/-- A run has been stopped after the given pauses. -/
abbrev Stopped (naps : Array Number) : World → Prop :=
  Going (fun p => p.cancelled = true ∧ p.naps = naps) fun _ => True

/-- A run that has been stopped stays so, and takes no more naps. -/
theorem Stopped.step {naps : Array Number} {p q : Pacer}
    (h : p.cancelled = true ∧ p.naps = naps) (hstep : p.Step q) :
    q.cancelled = true ∧ q.naps = naps := by
  obtain ⟨hcancelled, hnaps⟩ := hstep.of_cancelled h.1
  exact ⟨hcancelled, hnaps.trans h.2⟩

/-- In a run that has been stopped a statement ends, with no more depth than its
    tokens need, and there is no other pause. -/
theorem statement_of_stopped {naps : Array Number} (h : Stopped naps w) (ts : List Token) :
    Settles (Stopped naps) 0 (7 * ts.length + 3) (fun p d => statement (engineAt p d) p ts) w := by
  refine .of_beside (fun _ => True) (Flow.Like Eq ts.length) (fun _ _ hflow => hflow.eq)
    (fun p q d e _ _ hd he => ?_) h
  have H : (besideLimits (Stopped naps) fun _ => True).likeness.CommandLaws :=
    commandLaws_going Stopped.step fun _ hf => hf
  have hblocks : (besideLimits (Stopped naps) fun _ => True).likeness.Blocks ts.length p q
      (engineAt p d) (engineAt q e) :=
    blocks_of_cancelled Stopped.step And.left ts.length (fun _ _ => trivial) hd he
  exact H.statement hblocks (.refl ts) (Nat.le_refl _)

/-- Whatever goes on in a run, under whatever limits and whatever its host asks
    for, the world keeps a property. -/
structure Stays (J : World → Prop) (w : World) : Prop where
  expression : ∀ patience depth ts, J (endOf (expressionAt patience depth ts w))
  condition : ∀ patience depth ts, J (endOf (condition (engineAt patience depth) ts w))
  statement : ∀ patience depth ts, J (endOf (statement (engineAt patience depth) patience ts w))
  block : ∀ patience depth ts, J (endOf (blockAtDepth patience depth ts w))
  perform : ∀ block c args, J (endOf (perform block c args w))
  serve : ∀ block r, J (endOf (serve block r w))

/-- A run keeps every property of its pacer that the steps of the pacer keep. -/
theorem Going.stays {A : Pacer → Prop} (hA : ∀ {p q : Pacer}, A p → p.Step q → A q)
    (h : Going A (fun _ => True) w) : Stays (Going A fun _ => True) w := by
  let P := beside (fun _ => True) (Going A fun _ => True) fun _ => True
  have hhost : P.HostLaws := hostLaws_going hA fun _ _ => trivial
  have H : P.likeness.CommandLaws := hhost.commands fun _ => trivial
  have hend : ∀ {β : Type} {Q : β → β → Prop} {m : SessionM β}, P.likeness.alike Q m m →
      Going A (fun _ => True) (endOf (m w)) := by
    intro β Q m hm
    have hout := hm w w ⟨rfl, h⟩
    generalize m w = r at hout
    cases hout with
    | ok _ hv => exact hv.2
    | error _ hv => exact hv.2
  have hengine : ∀ n patience depth, P.likeness.Blocks n patience patience
      (engineAt patience depth) (engineAt patience depth) := fun _ =>
    H.engines (fun _ => Pairing.Laws.throw trivial) (fun _ => id) (fun _ => Iff.rfl)
      (fun _ _ => trivial)
  refine ⟨fun patience depth ts => ?_, fun patience depth ts => ?_, fun patience depth ts => ?_,
    fun patience depth ts => ?_, fun block c args => hend (H.perform block block c args),
    fun block r => hend (hhost.serve block block trivial)⟩
  · exact hend ((hengine (ts.length + 1) patience depth).expression (.refl ts)
      (Nat.lt_succ_self _))
  · exact hend (H.toLaws.condition (hengine (ts.length + 1) patience depth).toEngines (.refl ts)
      (Nat.lt_succ_self _))
  · exact hend (H.statement (hengine ts.length patience depth) (.refl ts) (Nat.le_refl _))
  · exact hend ((hengine (ts.length + 1) patience depth).block (.refl ts) (Nat.lt_succ_self _))

end Session

end TurtleLogo
