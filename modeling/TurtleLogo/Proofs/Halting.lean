import TurtleLogo.Proofs.Parting
import TurtleLogo.Proofs.Rest

/-! # A stop request ends every run

    A program need not end by itself, but it looks for a stop request again and
    again.  Whoever asks for the stop, from inside the run or from outside, the
    run then ends for itself under all limits that are great enough
    (`settles_of_stopped`, `settles_of_interrupted`): with as many looks as it
    makes, it needs no more passes and strides of depth than that. -/

namespace TurtleLogo

namespace Pacer

/-- The run has been stopped by the end of its `n`-th look. -/
structure StopsAt (n : Nat) (p : Pacer) : Prop where
  interrupts : p.interrupts n = true
  looks : p.looks ≤ n + 1
  stopped : p.looks = n + 1 → p.cancelled = true

/-- A pacer that stops at a look does so after any step. -/
theorem StopsAt.step {n : Nat} {p q : Pacer} (h : StopsAt n p) (hstep : p.Step q) :
    StopsAt n q := by
  refine keeps_of_step (fun {p} h => ?_) (fun h => { h with stopped := fun _ => rfl })
    (fun _ _ h => { h with }) h hstep
  cases hp : p.cancelled with
  | true =>
      rw [look_of_cancelled hp]
      exact h
  | false =>
      have hbefore : p.looks ≤ n := by
        have hne : p.looks ≠ n + 1 := fun heq => by
          have hstopped := h.stopped heq
          rw [hp] at hstopped
          cases hstopped
        have hlooks := h.looks
        omega
      rw [look_of_going hp]
      refine ⟨h.interrupts, Nat.succ_le_succ hbefore, fun heq => ?_⟩
      have hlast : p.looks = n := Nat.succ.inj heq
      show p.interrupts p.looks = true
      rw [hlast]
      exact h.interrupts

end Pacer

namespace Session

/-! ## Whole runs -/

section

variable {most : Nat} {w : World} {ts : List Token}

/-- A run that has been stopped would have been stopped under greater limits too,
    after the same looks. -/
theorem stopped_of_stopped (hw : Going (fun _ => True) (Short most) w) (hts : ts.length ≤ most)
    {p q d e : Nat} (hpq : p ≤ q) (hde : d ≤ e)
    (hstop : (endOf (blockAtDepth p d ts w)).pacer.cancelled = true) :
    (endOf (blockAtDepth q e ts w)).pacer.cancelled = true
      ∧ (endOf (blockAtDepth q e ts w)).pacer.looks
        = (endOf (blockAtDepth p d ts w)).pacer.looks := by
  let X : Parting :=
    { keeps := fun _ => True
      parts := fun p q => p.cancelled = true → p.Onward q
      step := fun _ _ => trivial
      onward := fun h hqr hp => (h hp).trans hqr }
  have hblocks : (X.likeness most).Blocks (most + 1) p q (engineAt p d) (engineAt q e) :=
    Parting.blocks_anytime (fun _ _ _ h => h) hpq hde
  have hout : X.Outcome most (Flow.Like Eq ts.length) (blockAtDepth p d ts w)
      (blockAtDepth q e ts w) := (hblocks.block (.refl ts) (Nat.lt_succ_of_le hts)).2 w hw
  generalize blockAtDepth p d ts w = r at hout hstop ⊢
  generalize blockAtDepth q e ts w = s at hout ⊢
  cases hout with
  | parted h => exact (h.pacer hstop).stopped hstop
  | together h =>
      cases h with
      | ok _ hr =>
          obtain ⟨rfl, -⟩ := hr
          exact ⟨hstop, rfl⟩
      | error _ hr =>
          obtain ⟨rfl, -⟩ := hr
          exact ⟨hstop, rfl⟩

/-- A run that has fewer looks than its limits leave room for meets none of
    them. -/
theorem settles_of_looks (hw : Going (fun _ => True) (Short most) w) (hts : ts.length ≤ most)
    {K p d : Nat} (hp : K ≤ p) (hd : K * Parting.stride most ≤ d)
    (hlooks : (endOf (blockAtDepth p d ts w)).pacer.looks < K) :
    Settles (fun v => v = endOf (blockAtDepth p d ts w)) p d (fun p d => blockAtDepth p d ts)
      w := by
  have hgreater : ∀ q e, p ≤ q → d ≤ e → blockAtDepth q e ts w = blockAtDepth p d ts w
      ∧ EndsIn (fun v => v = endOf (blockAtDepth p d ts w)) (blockAtDepth p d ts w) := by
    intro q e hpq hde
    have hblocks := Parting.blocks_nearing K most K hp hpq hd hde
    have hout : (Parting.nearing K K).Outcome most (Flow.Like Eq ts.length)
        (blockAtDepth p d ts w) (blockAtDepth q e ts w) :=
      (hblocks.block (.refl ts) (Nat.lt_succ_of_le hts)).2 w
        { hw with pacer := .inr (Nat.le_add_left K _) }
    generalize blockAtDepth p d ts w = r at hout hlooks ⊢
    generalize blockAtDepth q e ts w = s at hout ⊢
    cases hout with
    | parted h => exact absurd h.pacer (Nat.not_le.2 hlooks)
    | together h =>
        cases h with
        | ok hflow hr =>
            obtain ⟨rfl, -⟩ := hr
            rw [hflow.eq]
            exact ⟨rfl, .ok rfl⟩
        | error hf hr =>
            obtain ⟨rfl, -⟩ := hr
            exact ⟨rfl, .error hf rfl⟩
  exact ⟨blockAtDepth p d ts w, (hgreater p d (Nat.le_refl _) (Nat.le_refl _)).2,
    fun q e hpq hde => (hgreater q e hpq hde).1⟩

/-- There is a bound on the tokens of all procedures. -/
theorem exists_short (ps : List Procedure) (n : Nat) :
    ∃ most, n ≤ most ∧ ∀ q ∈ ps, Short most q := by
  induction ps with
  | nil => exact ⟨n, Nat.le_refl n, fun q hq => by cases hq⟩
  | cons p ps ih =>
      obtain ⟨most, hn, hps⟩ := ih
      refine ⟨max most p.body.length, Nat.le_trans hn (Nat.le_max_left ..), fun q hq => ?_⟩
      rcases List.mem_cons.1 hq with rfl | hq
      · exact Nat.le_max_right ..
      · exact Nat.le_trans (hps q hq) (Nat.le_max_left ..)

variable (hrunning : w.running = true)
include hrunning

/-- A run that somebody has asked to stop ends for itself, however deep it is by
    then in loops, calls and expressions. -/
theorem settles_of_stopped {p d : Nat}
    (hstop : (endOf (blockAtDepth p d ts w)).pacer.cancelled = true) :
    ∃ patience depth, Settles (fun v => v.pacer.cancelled = true) patience depth
      (fun p d => blockAtDepth p d ts) w := by
  obtain ⟨most, hts, hmost⟩ := exists_short w.store.procedures ts.length
  have hw : Going (fun _ => True) (Short most) w := ⟨hrunning, trivial, hmost⟩
  let K := (endOf (blockAtDepth p d ts w)).pacer.looks + 1
  obtain ⟨hstopped, hlooks⟩ := stopped_of_stopped hw hts (Nat.le_max_left p K)
    (Nat.le_max_left d (K * Parting.stride most)) hstop
  refine ⟨_, _, (settles_of_looks hw hts (Nat.le_max_right p K)
    (Nat.le_max_right d (K * Parting.stride most)) ?_).mono ?_⟩
  · rw [hlooks]
    exact Nat.lt_succ_self _
  · rintro v rfl
    exact hstopped

/-- A run whose `n`-th look finds a stop request ends for itself, even if it is in
    an endless loop or recursion. -/
theorem settles_of_interrupted {n : Nat} (hlooks : w.pacer.looks ≤ n)
    (hn : w.pacer.interrupts n = true) :
    ∃ patience depth, Settles (fun _ => True) patience depth (fun p d => blockAtDepth p d ts)
      w := by
  obtain ⟨most, hts, hmost⟩ := exists_short w.store.procedures ts.length
  have hw : Going (fun _ => True) (Short most) w := ⟨hrunning, trivial, hmost⟩
  have hstays : Stays (Going (Pacer.StopsAt n) fun _ => True) w :=
    Going.stays Pacer.StopsAt.step
      ⟨hrunning, ⟨hn, by omega, fun h => by omega⟩, fun _ _ => trivial⟩
  refine ⟨n + 2, _, (settles_of_looks hw hts (Nat.le_refl _) (Nat.le_refl _) ?_).mono
    fun _ _ => trivial⟩
  exact Nat.lt_succ_of_le (hstays.block _ _ ts).pacer.looks

end

/-- A run only depends on what its block does from its start. -/
theorem runWith_congr {b d : List Token → SessionM Flow} {code : Text} {w : World}
    (h : ∀ ts, Token.tokenize code = .ok ts → b ts (started w) = d ts (started w)) :
    runWith b code w = runWith d code w := by
  cases hrunning : w.running with
  | true => rw [runWith_of_running hrunning, runWith_of_running hrunning]
  | false =>
      cases hcode : Token.tokenize code with
      | error f => rw [runWith_of_unreadable hrunning hcode, runWith_of_unreadable hrunning hcode]
      | ok ts =>
          have hsame := h ts hcode
          cases hb : b ts (started w) with
          | ok flow u =>
              rw [hb] at hsame
              rw [runWith_ok hrunning hcode hb, runWith_ok hrunning hcode hsame.symm]
          | error f u =>
              rw [hb] at hsame
              rw [runWith_error hrunning hcode hb, runWith_error hrunning hcode hsame.symm]

/-- Executing a program only depends on how it runs. -/
theorem executeWith_congr {b d : List Token → SessionM Flow} {code : Text} {w : World}
    (h : runWith b code w = runWith d code w) : executeWith b code w = executeWith d code w := by
  simp only [executeWith, h]

/-- A program ends for itself: under all limits that are great enough it does the
    same, and meets none of them. -/
def Halts (code : Text) (w : World) : Prop :=
  ∃ patience depth,
    (∀ ts, Token.tokenize code = .ok ts → Settles (fun _ => True) patience depth
      (fun p d => blockAtDepth p d ts) (started w))
    ∧ ∃ r s, ∀ limits : Limits, patience ≤ limits.patience → depth ≤ limits.depth →
      run limits code w = r ∧ execute limits code w = s

/-- A program halts if its block settles. -/
theorem halts_of_settles {code : Text} {w : World} (h : ∀ ts, Token.tokenize code = .ok ts →
      ∃ patience depth, Settles (fun _ => True) patience depth (fun p d => blockAtDepth p d ts)
        (started w)) : Halts code w := by
  have hboth : ∀ patience depth, (∀ ts, Token.tokenize code = .ok ts →
      Settles (fun _ => True) patience depth (fun p d => blockAtDepth p d ts) (started w)) →
      Halts code w := by
    intro patience depth hsettles
    refine ⟨patience, depth, hsettles, run ⟨depth, patience⟩ code w,
      execute ⟨depth, patience⟩ code w, fun limits hp hd => ?_⟩
    have hrun : run limits code w = run ⟨depth, patience⟩ code w := by
      refine runWith_congr fun ts hts => ?_
      obtain ⟨r, -, hr⟩ := hsettles ts hts
      exact (hr _ _ hp hd).trans (hr _ _ (Nat.le_refl _) (Nat.le_refl _)).symm
    exact ⟨hrun, executeWith_congr hrun⟩
  cases hcode : Token.tokenize code with
  | error f => exact hboth 0 0 fun ts hts => by rw [hcode] at hts; cases hts
  | ok ts =>
      obtain ⟨patience, depth, hsettles⟩ := h ts hcode
      refine hboth patience depth fun us hus => ?_
      rw [hcode] at hus
      cases hus
      exact hsettles

/-- After a stop request nothing more happens in a run.  Its blocks and loops are
    over at once; its expressions and conditions end, and all they may still do is
    to ask questions and to draw random numbers; its statements end without
    another pause; and nothing undoes the request, for which programs that the
    host asks for are refused.  So the run ends for itself, whether the request
    comes from outside by any look or from inside the run. -/
theorem nothing_after_stop :
    (∀ w : World, w.pacer.cancelled = true →
      (∀ patience depth ts, 3 ≤ depth → blockAtDepth patience depth ts w = .ok (.done ts) w)
      ∧ (∀ E body left count, repeatPasses E body left count w = .ok none w)
      ∧ (∀ E test body patience, whilePasses E test body patience w = .ok none w)
      ∧ (∀ E r body patience pass, forPasses E r body patience pass w = .ok none w)
      ∧ (∀ ts, Settles (Calm w) 0 (7 * ts.length + 10) (fun p d => expressionAt p d ts) w
        ∧ Settles (Calm w) 0 (7 * ts.length + 10) (fun p d => condition (engineAt p d) ts) w)
      ∧ (w.running = true →
        (∀ ts, Settles (Stopped w.pacer.naps) 0 (7 * ts.length + 3)
          (fun p d => statement (engineAt p d) p ts) w)
        ∧ Stays (Stopped w.pacer.naps) w
        ∧ ∀ block code, serve block (.execute code) w
          = .ok () { w with host := w.host.refuse }))
    ∧ (∀ (w : World) (code : Text) (n : Nat), w.pacer.looks ≤ n → w.pacer.interrupts n = true →
      Halts code w)
    ∧ ∀ (w : World) (code : Text) (limits : Limits), w.running = false →
      (endOf (run limits code w)).pacer.cancelled = true → Halts code w := by
  refine ⟨fun w h => ⟨fun patience depth ts hdepth => block_of_cancelled h patience hdepth ts,
    repeatPasses_of_cancelled h, fun E test body => whilePasses_of_cancelled h E body test,
    fun E r body => forPasses_of_cancelled h E body r, calm_of_cancelled h, fun hrunning => ?_⟩,
    fun w code n hlooks hn => ?_, fun w code limits hidle hstop => ?_⟩
  · have hstopped : Stopped w.pacer.naps w := ⟨hrunning, ⟨h, rfl⟩, fun _ _ => trivial⟩
    exact ⟨statement_of_stopped hstopped, Going.stays Stopped.step hstopped,
      fun block code => serve_execute_of_running block hrunning⟩
  · exact halts_of_settles fun ts _ => settles_of_interrupted rfl hlooks hn
  · refine halts_of_settles fun ts hts => ?_
    have hblock : (endOf ((engine limits).block ts (started w))).pacer.cancelled = true := by
      cases hb : (engine limits).block ts (started w) with
      | ok flow u =>
          rw [run, runWith_ok hidle hts hb] at hstop
          exact hstop
      | error f u =>
          rw [run, runWith_error hidle hts hb] at hstop
          exact hstop
    obtain ⟨patience, depth, hsettles⟩ := settles_of_stopped rfl hblock
    exact ⟨patience, depth, hsettles.mono fun _ _ => trivial⟩

/-- A block after a stop request, an endless recursion that somebody outside stops
    by the fourth look, and an endless loop that the host stops when it first hears
    of it. -/
theorem nothing_after_stop_endless : ∃ w, quietSession = .ok w
    ∧ blockAtDepth 0 3 [.word "PENUP"] { w with pacer := w.pacer.cancel }
      = .ok (.done [.word "PENUP"]) { w with pacer := w.pacer.cancel }
    ∧ Halts "TO F F END F" { w with pacer := { w.pacer with interrupts := fun n => n == 3 } }
    ∧ Halts "WHILE [1 = 1] [PRINT 1]"
      { w with host := { w.host with listening := true, react := fun _ _ => [.stop] } } := by
  obtain ⟨w, hnew, h⟩ := quietSession_of (P := fun w =>
    w.pacer.looks == 0 && !w.running && (endOf (run ⟨40, 5⟩ "WHILE [1 = 1] [PRINT 1]"
      { w with host := { w.host with
          listening := true, react := fun _ _ => [.stop] } })).pacer.cancelled)
    (by decide +kernel)
  simp only [Bool.and_eq_true, beq_iff_eq, Bool.not_eq_true'] at h
  obtain ⟨⟨hlooks, hidle⟩, hstop⟩ := h
  refine ⟨w, hnew, (nothing_after_stop.1 _ rfl).1 0 3 _ (Nat.le_refl 3),
    nothing_after_stop.2.1 _ _ 3 ?_ rfl, nothing_after_stop.2.2 _ _ ⟨40, 5⟩ hidle hstop⟩
  show w.pacer.looks ≤ 3
  rw [hlooks]
  exact Nat.zero_le 3

end Session

end TurtleLogo
