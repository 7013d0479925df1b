import TurtleLogo.Proofs.Delimiters
import TurtleLogo.Proofs.Stillness
import TurtleLogo.Proofs.Unshadowed

/-! # Programs without end

    A program that goes on for ever contains `WHILE` or `FOR`, or calls a
    procedure.  Tokens are `Finitary` if no word among them is `WHILE`, `FOR` or
    `TO`.  In a world without procedures their run ends, with tokens left to do,
    a signal or a fault:

    * what is left after a part of a statement is finitary again, and so are the
      blocks in it, which are shorter than the statement (`FinitaryLaws.read`,
      `FinitaryLaws.block_bind`);
    * how often `REPEAT` runs its block is known before it starts, so statements
      are alike under different limits if shorter blocks are
      (`FinitaryLaws.statement`);
    * by induction on the number of tokens, or on the depth, so are all blocks
      (`FinitaryLaws.block_room`, `FinitaryLaws.block_same`);
    * so no limit is met where there is room for the tokens, and patience is of
      no matter where there is not (`finitary_ends`).

    What a host has run while nothing else is running is part of the run: it has
    to be finitary too. -/

namespace TurtleLogo

/-- No word among the tokens starts a loop with no end in sight, or a definition. -/
def Finitary (ts : List Token) : Prop :=
  ∀ t ∈ ts, t ∉ [Token.word "WHILE", .word "FOR", .word "TO"]

instance (ts : List Token) : Decidable (Finitary ts) :=
  inferInstanceAs (Decidable (∀ t ∈ ts, _))

/-- The tokens of all programs that a host may have run have some property. -/
def Host.RunsOnly (h : Host) (programs : List Token → Prop) : Prop :=
  ∀ n text code ts, .execute code ∈ h.react n text → Token.tokenize code = .ok ts → programs ts

section

variable {ts us : List Token}

theorem Finitary.mono (h : Finitary ts) (hsub : us ⊆ ts) : Finitary us :=
  fun t ht => h t (hsub ht)

/-- A finitary form is no loop with no end in sight, and no definition. -/
theorem Finitary.form {name : Text} (h : Finitary (.word name :: ts)) {form : Form}
    (hform : Form.ofName? name = some form) :
    form ≠ .to ∧ form ≠ .forLoop ∧ form ≠ .whileLoop := by
  have htable : ∀ e ∈ Form.table, e.2 = .to ∨ e.2 = .forLoop ∨ e.2 = .whileLoop →
      Token.word e.1 ∈ [Token.word "WHILE", .word "FOR", .word "TO"] := by decide
  have hname := h _ List.mem_cons_self
  have hentry := htable _ (Vocabulary.mem_of_lookup hform)
  refine ⟨?_, ?_, ?_⟩ <;> rintro rfl <;> exact hname (hentry (by simp))

/-- A block and what comes after it are what its brackets set apart. -/
theorem Token.block_spec {place : BlockPlace} {body rest : List Token}
    (h : Token.block place ts = .ok (body, rest)) :
    ts = .openBracket :: (body ++ .closeBracket :: rest) := by
  cases ts with
  | nil => cases h
  | cons t ts =>
      cases t with
      | openBracket =>
          cases hsplit : Token.splitClose 0 ts with
          | none =>
              rw [block, inside, hsplit] at h
              cases h
          | some r =>
              rw [block, inside, hsplit] at h
              cases h
              rw [Token.splitClose_eq] at hsplit
              obtain ⟨hts, -⟩ := Delimiters.split_spec (Int.le_refl 0) hsplit
              rw [hts]
              rfl
      | _ => cases h

end

namespace Session

/-! ## Statements -/

/-- What a pairing has to satisfy for the steps of finitary programs: there is one
    spelling, and no procedure. -/
structure FinitaryLaws (P : Pairing) : Prop extends P.FormLaws where
  spelled : P.spelled = Eq
  fits : ∀ q, ¬P.fits q

/-- Two engines under which expressions and commands are alike, and finitary blocks
    are on fewer than `n` tokens. -/
structure Inner (P : Pairing) (n : Nat) (E F : Engine) : Prop extends
    P.likeness.Engines n E F where
  reads : Local 1 E.expression
  block : ∀ {ts}, Finitary ts → ts.length < n →
    P.likeness.alike (Flow.Like P.spelled ts.length) (E.block ts) (F.block ts)
  perform : ∀ c args, P.likeness.alike Eq (perform E.block c args) (perform F.block c args)

namespace FinitaryLaws

variable {P : Pairing} (H : FinitaryLaws P) {β γ δ ε : Type} {S : δ → ε → Prop} {n p q : Nat}
  {E F : Engine} {ts : List Token}
include H

/-- Going on after a part of a statement. -/
theorem read {j : Nat} {f g : List Token → SessionM (β × List Token)} (hlocal : Local j f)
    (hts : Finitary ts) (h : P.likeness.alike (P.likeness.Reads ts.length) (f ts) (g ts))
    {k : β × List Token → SessionM δ} {l : β × List Token → SessionM ε}
    (hk : ∀ v rest, Finitary rest → rest.length ≤ ts.length →
      P.likeness.alike S (k (v, rest)) (l (v, rest))) :
    P.likeness.alike S (f ts >>= k) (g ts >>= l) := by
  refine Pairing.Laws.bind_given h ?_
  rintro ⟨v, rest⟩ s hread ⟨w, u, hrun⟩
  obtain rfl := hread.eq H.spelled
  obtain ⟨hsuffix, -⟩ := (hlocal ts hrun).1 rest rfl
  exact hk v rest (hts.mono hsuffix.subset) hread.length

/-- Going on with a block that must come next and what follows it. -/
theorem block_bind (place : BlockPlace) (hts : Finitary ts)
    {k : List Token × List Token → SessionM δ} {l : List Token × List Token → SessionM ε}
    (hk : ∀ body rest, Finitary body → Finitary rest → body.length + rest.length < ts.length →
      P.likeness.alike S (k (body, rest)) (l (body, rest))) :
    P.likeness.alike S (blockAt place ts >>= k) (blockAt place ts >>= l) := by
  have hsame : P.likeness.alike (fun a b => a = b ∧ Token.block place ts = .ok a)
      (blockAt place ts) (blockAt place ts) := by
    refine H.likeness.attempt ?_
    have hmatched := Token.matched_block place (.refl ts : TokensLike Eq ts ts)
    generalize Token.block place ts = r at hmatched
    cases hmatched with
    | @ok a b h => exact .ok ⟨rfl, rfl⟩
    | error hf => exact .error hf
  refine H.likeness.bind hsame ?_
  rintro ⟨body, rest⟩ _ ⟨rfl, hblock⟩
  obtain rfl := Token.block_spec hblock
  refine hk body rest (hts.mono ?_) (hts.mono ?_) ?_
  · intro t ht
    simp [ht]
  · intro t ht
    simp [ht]
  · simp only [List.length_cons, List.length_append]
    omega

/-- Since there is only one spelling, ends that are alike are the same. -/
theorem flow_eq {f g : Flow} (h : f.Like P.spelled n g) : f = g := by
  rw [H.spelled] at h
  exact h.eq

section

variable (hE : Inner P n E F) (hts : Finitary ts) (hn : ts.length < n)
include hE hts hn

/-- A `REPEAT` is alike under different limits. -/
theorem repeatForm :
    P.likeness.alike (Flow.Like P.spelled ts.length) (repeatForm E ts) (repeatForm F ts) := by
  have L := H.likeness
  refine H.read hE.reads hts (hE.expression (.refl ts) hn) fun count ts' hts' hlength => ?_
  refine H.block_bind _ hts' fun body rest hbody hrest hlt => ?_
  refine L.next (L.number count _) fun x => L.next (L.compute _) fun times => ?_
  have hpasses := L.repeatPasses (hE.block hbody (by omega)) times.toNat 1
  refine L.next (L.counting hpasses) fun ended => ?_
  cases ended with
  | none => exact L.pure (.done (.refl rest) (by omega))
  | some s => exact L.pure (.signal s)

/-- An `IF` is alike under different limits. -/
theorem ifForm :
    P.likeness.alike (Flow.Like P.spelled ts.length) (ifForm E ts) (ifForm F ts) := by
  have L := H.likeness
  refine H.read (local_condition hE.reads) hts (L.condition hE.toEngines (.refl ts) hn)
    fun v ts' hts' hlength => ?_
  refine H.block_bind _ hts' fun body rest hbody hrest hlt => ?_
  dsimp only
  split
  · refine L.bind (hE.block hbody (by omega)) fun flow flow' hflow => ?_
    exact L.continueWith hflow (.refl rest) (by omega)
  · exact L.pure (.done (.refl rest) (by omega))

/-- An `IFELSE` is alike under different limits. -/
theorem ifElseForm :
    P.likeness.alike (Flow.Like P.spelled ts.length) (ifElseForm E ts) (ifElseForm F ts) := by
  have L := H.likeness
  refine H.read (local_condition hE.reads) hts (L.condition hE.toEngines (.refl ts) hn)
    fun v ts' hts' hlength => ?_
  refine H.block_bind _ hts' fun yes ts'' hyes hts'' hlt => ?_
  refine H.block_bind _ hts'' fun no rest hno hrest hlt' => ?_
  have hchosen : Finitary (if v.isTruthy then yes else no) ∧
      (if v.isTruthy then yes else no).length < n := by
    split
    · exact ⟨hyes, by omega⟩
    · exact ⟨hno, by omega⟩
  refine L.bind (hE.block hchosen.1 hchosen.2) fun flow flow' hflow => ?_
  exact L.continueWith hflow (.refl rest) (by omega)

/-- A fill is alike under different limits. -/
theorem filledForm :
    P.likeness.alike (Flow.Like P.spelled ts.length) (filledForm E ts) (filledForm F ts) := by
  have L := H.likeness
  refine H.block_bind _ hts fun body rest hbody hrest hlt => ?_
  refine L.bind (L.filling (hE.block hbody (by omega))) fun flow flow' hflow => ?_
  exact L.continueWith hflow (.refl rest) (by omega)

/-- A turn of another turtle is alike under different limits. -/
theorem askForm :
    P.likeness.alike (Flow.Like P.spelled ts.length) (askForm E ts) (askForm F ts) := by
  have L := H.likeness
  refine H.read hE.reads hts (hE.expression (.refl ts) hn) fun who ts' hts' hlength => ?_
  refine H.block_bind _ hts' fun body rest hbody hrest hlt => ?_
  refine L.bind (L.asking who (hE.block hbody (by omega))) fun flow flow' hflow => ?_
  exact L.continueWith hflow (.refl rest) (by omega)

/-- Every form but a definition and the loops without end in sight is alike under
    different limits. -/
theorem runForm {form : Form} (hform : form ≠ .to ∧ form ≠ .forLoop ∧ form ≠ .whileLoop) :
    P.likeness.alike (Flow.Like P.spelled ts.length) (runForm E p form ts)
      (runForm F q form ts) := by
  have L := H.likeness
  match form with
  | .to => exact absurd rfl hform.1
  | .forLoop => exact absurd rfl hform.2.1
  | .whileLoop => exact absurd rfl hform.2.2
  | .endTo => exact L.throw rfl
  | .repeatTimes => exact H.repeatForm hE hts hn
  | .ifThen => exact H.ifForm hE hts hn
  | .ifElse => exact H.ifElseForm hE hts hn
  | .stop => exact L.pure (.signal .stop)
  | .output =>
      exact H.read hE.reads hts (hE.expression (.refl ts) hn) fun v rest _ _ =>
        L.pure (.signal (.output v))
  | .filled => exact H.filledForm hE hts hn
  | .ask => exact H.askForm hE hts hn

end

/-- A statement that starts with a word: a form with an end in sight, a command, or
    a word that means nothing. -/
theorem wordStatement (hE : Inner P n E F) {name : Text} (hts : Finitary (.word name :: ts))
    (hn : ts.length < n) : P.likeness.alike (Flow.Like P.spelled ts.length)
      (wordStatement E p name ts) (wordStatement F q name ts) := by
  have L := H.likeness
  have htail : Finitary ts := hts.mono (List.subset_cons_self _ _)
  have harguments : ∀ k, P.likeness.alike (P.likeness.Reads ts.length) (arguments E k ts)
      (arguments F k ts) := fun k => L.arguments hE.toEngines k (.refl ts) hn
  cases hform : Form.ofName? name with
  | some form =>
      simp only [Session.wordStatement, hform]
      exact H.runForm hE htail hn (hts.form hform)
  | none =>
      cases hcommand : Command.ofName? name with
      | some c =>
          simp only [Session.wordStatement, hform, hcommand]
          refine H.read (local_arguments hE.reads _) htail (harguments _)
            fun args rest hrest hlength => ?_
          exact L.next (hE.perform c args) fun _ => L.pure (.done (.refl rest) hlength)
      | none =>
          simp only [Session.wordStatement, hform, hcommand]
          refine L.bind L.store fun s t hst => ?_
          rcases hst.1.procedure? name with ⟨hs, ht⟩ | ⟨_, q', -, -, -, hmem⟩
          · rw [hs, ht]
            dsimp only
            split
            · exact L.throw rfl
            · exact L.next L.knownNames fun _ => L.throw rfl
          · exact absurd (hst.2 q' hmem) (H.fits q')

/-- Finitary statements are alike under all limits if the blocks and expressions in
    them are. -/
theorem statement (hE : Inner P n E F) (hts : Finitary ts) (hn : ts.length ≤ n) :
    P.likeness.alike (Flow.Like P.spelled ts.length) (statement E p ts) (statement F q ts) := by
  have L := H.likeness
  cases ts with
  | nil => exact L.pure (.done .nil (Nat.le_refl _))
  | cons t ts =>
      cases t with
      | word name =>
          exact L.mono (H.wordStatement hE hts hn) fun _ _ h => h.mono (Nat.le_succ _)
      | _ => exact L.pure (.done (.refl ts) (Nat.le_succ _))

/-- Statements in a row are alike if each one is. -/
theorem statements {one two : List Token → SessionM Flow}
    (hlocal : ∀ t ts, LocalAt 1 one (t :: ts))
    (hone : ∀ {ts}, Finitary ts → ts.length ≤ n →
      P.likeness.alike (Flow.Like P.spelled ts.length) (one ts) (two ts)) (k : Nat)
    (hts : Finitary ts) (hn : ts.length ≤ n) :
    P.likeness.alike (Flow.Like P.spelled ts.length) (statements one k ts)
      (statements two k ts) := by
  have L := H.likeness
  induction k generalizing ts with
  | zero => cases ts <;> exact L.pure (.done (.refl _) (Nat.le_refl _))
  | succ k ih =>
      cases ts with
      | nil => exact L.pure (.done .nil (Nat.le_refl _))
      | cons t ts =>
          refine L.next L.stopRequested fun stop => ?_
          split
          · exact L.pure (.done (.refl _) (Nat.le_refl _))
          · refine Pairing.Laws.bind_given (hone hts hn) ?_
            rintro flow flow' hflow ⟨w, u, hrun⟩
            obtain rfl := H.flow_eq hflow
            cases flow with
            | signal s => exact L.pure (.signal s)
            | done rest =>
                obtain ⟨hsuffix, hlength⟩ := (hlocal t ts hrun).1 rest rfl
                have hle : rest.length ≤ (t :: ts).length := by omega
                refine L.next L.checkpoint fun _ => ?_
                refine L.mono (ih (hts.mono hsuffix.subset) (hle.trans hn)) fun _ _ h => ?_
                exact h.mono hle

/-! ## Blocks -/

/-- A block is alike if everything on fewer tokens is. -/
theorem block {d e : Nat} (hE : Inner P ts.length (engineAt p d) (engineAt q e))
    (hts : Finitary ts) : P.likeness.alike (Flow.Like P.spelled ts.length)
      (blockAtDepth p (d + 3) ts) (blockAtDepth q (e + 3) ts) := by
  rw [blockAtDepth_eq, blockAtDepth_eq]
  exact H.statements (local_statement (local_expression p d) p)
    (fun hus hlt => H.statement hE hus hlt) ts.length hts (Nat.le_refl _)

/-- Blocks are alike at depths that make room for their tokens, and for as much as
    commands need. -/
theorem block_room {k : Nat} (hperform : ∀ {d e}, k ≤ d → k ≤ e → ∀ c args,
      P.likeness.alike Eq (perform (blockAtDepth p d) c args) (perform (blockAtDepth q e) c args))
    {d e : Nat} (hts : Finitary ts) (hd : 7 * ts.length + 3 + k ≤ d)
    (he : 7 * ts.length + 3 + k ≤ e) : P.likeness.alike (Flow.Like P.spelled ts.length)
      (blockAtDepth p d ts) (blockAtDepth q e ts) := by
  induction hn : ts.length using Nat.strong_induction_on generalizing ts d e with
  | _ n ih =>
      subst hn
      -- a step down takes three units of depth, and to shorter blocks, which need seven less
      obtain ⟨d, rfl⟩ : ∃ j, d = j + 3 := ⟨d - 3, by omega⟩
      obtain ⟨e, rfl⟩ : ∃ j, e = j + 3 := ⟨e - 3, by omega⟩
      have hengines : P.likeness.Engines ts.length (engineAt p d) (engineAt q e) :=
        H.likeness.engines _ (by omega) (by omega) fun _ _ _ q' _ _ hq' => absurd hq' (H.fits q')
      refine H.block { hengines with
        reads := local_expression p d
        block := fun {us} hus hlt => ih us.length hlt hus (by omega) (by omega) rfl
        perform := hperform (by omega) (by omega) } hts

/-- As there are no procedures, engines are alike if their expressions are. -/
theorem engines (hexpression : ∀ ts, P.likeness.alike (P.likeness.Reads ts.length)
      (E.expression ts) (F.expression ts)) : P.likeness.Engines n E F := by
  refine ⟨fun {ts us} h _ => ?_, fun {_ q'} _ _ hq' => absurd hq' (H.fits q')⟩
  have hts : TokensLike P.spelled ts us := h
  rw [H.spelled] at hts
  obtain rfl := hts.eq
  exact hexpression ts

section

variable (hdepth : P.allowed .depthExceeded)
include hdepth

/-- Where a limit on the depth may be met, expressions are alike at one depth. -/
theorem expression_same (d : Nat) (ts : List Token) :
    P.likeness.alike (P.likeness.Reads ts.length) (expressionAt p d ts) (expressionAt q d ts) := by
  induction d using Nat.strong_induction_on generalizing ts with
  | _ d ih =>
      by_cases hd : d < 7
      · rw [expressionAt_shallow hd, expressionAt_shallow hd]
        exact Pairing.Laws.throw hdepth
      · obtain ⟨d, rfl⟩ : ∃ j, d = j + 7 := ⟨d - 7, by omega⟩
        rw [expressionAt, expressionAt]
        exact H.likeness.sum (H.engines (ih d (by omega))) (.refl ts) (Nat.le_refl _)

/-- A finitary block at one depth is alike whatever the patience. -/
theorem block_same (hperform : ∀ d c args,
      P.likeness.alike Eq (perform (blockAtDepth p d) c args) (perform (blockAtDepth q d) c args))
    (d : Nat) (hts : Finitary ts) : P.likeness.alike (Flow.Like P.spelled ts.length)
      (blockAtDepth p d ts) (blockAtDepth q d ts) := by
  induction d using Nat.strong_induction_on generalizing ts with
  | _ d ih =>
      by_cases hd : d < 3
      · rw [blockAtDepth_shallow hd, blockAtDepth_shallow hd]
        exact Pairing.Laws.throw hdepth
      · obtain ⟨d, rfl⟩ : ∃ j, d = j + 3 := ⟨d - 3, by omega⟩
        have hengines : P.likeness.Engines ts.length (engineAt p d) (engineAt q d) :=
          H.engines (H.expression_same hdepth d)
        exact H.block { hengines with
          reads := local_expression p d
          block := fun hus _ => ih d (by omega) hus
          perform := hperform d } hts

end

end FinitaryLaws

/-! ## Worlds without procedures -/

/-- A program is running or not, there are no procedures, and the host does the same
    about what it hears as a given one. -/
structure Bare (h : Host) (busy : Bool) (v : World) : Prop where
  running : v.running = busy
  procedures : v.store.procedures = []
  react : v.host.react = h.react

/-- A fault that is told leaves a world without procedures. -/
theorem Bare.told {h : Host} {busy : Bool} {v : World} (hv : Bare h busy v) (message : Text) :
    Bare h busy (told message v) := by
  rw [Session.told]
  split
  · exact { hv with }
  · exact hv

/-- The pairing of such worlds with themselves, where a host may have some programs run
    while nothing is running. -/
def bare (allowed : Fault → Prop) (h : Host) (busy : Bool) (programs : List Token → Prop) :
    Pairing where
  spelled := Eq
  fits _ := False
  rel w v := w = v ∧ Bare h busy v
  allowed := allowed
  draws _ := True
  asks r := ∀ code ts, r = .execute code → busy = false → Token.tokenize code = .ok ts → programs ts

section

variable {allowed : Fault → Prop} {h : Host} {busy : Bool} {programs : List Token → Prop}
  (hallowed : ∀ f : Fault, f.ofLimits = false → allowed f)
include hallowed

/-- Worlds without procedures are paired with themselves. -/
theorem diagonal_bare (hhost : busy = false → h.RunsOnly programs) :
    (bare allowed h busy programs).Diagonal (Bare h busy) where
  spelled := rfl
  rel := .rfl
  allowed := hallowed
  fits hv q hq := by
    rw [hv.procedures] at hq
    cases hq
  akin hw hakin := ⟨hakin.running.trans hw.running,
    (congrArg Store.procedures hakin.store).trans hw.procedures, hakin.react.trans hw.react⟩
  names hv hfits := { hv with procedures := List.eq_nil_iff_forall_not_mem.2 hfits }
  pacer hv _ := { hv with }
  canvas _ hv _ := { hv with }
  tell _ := trivial
  beginFill := trivial
  endFill := trivial
  cancelFill := trivial
  window _ _ _ _ := trivial
  asked hv n text r hasked code ts heq hidle := by
    rw [hv.react, heq] at hasked
    exact hhost hidle n text code ts hasked

/-- Hosts that have only such programs run keep to these worlds. -/
theorem reactionLaws_bare (hhost : busy = false → h.RunsOnly programs) :
    (bare allowed h busy programs).ReactionLaws :=
  (diagonal_bare hallowed hhost).reactionLaws

/-- While a program is running, all others that a host asks for are refused. -/
theorem hostLaws_bare : (bare allowed h true programs).HostLaws :=
  (diagonal_bare hallowed fun hidle => by cases hidle).hostLaws fun hv => hv.running

/-- In these worlds finitary programs take their steps. -/
theorem finitaryLaws_bare (hhost : busy = false → h.RunsOnly programs) :
    FinitaryLaws (bare allowed h busy programs) where
  toFormLaws := (reactionLaws_bare hallowed hhost).toFormLaws
  spelled := rfl
  fits _ hq := hq

/-! ## Commands -/

/-- What a command does while a program is running. -/
theorem perform_busy (b d : List Token → SessionM Flow) (c : Command) (args : List Value) :
    (bare allowed h true programs).likeness.alike Eq (perform b c args) (perform d c args) :=
  ((hostLaws_bare hallowed).commands fun _ => trivial).perform b d c args

/-- A program that a host has run while nothing else is running. -/
theorem serve_idle (hfriendly : ∀ f, allowed f → allowed f.friendly)
    {b d : List Token → SessionM Flow} {code : Text}
    (hblock : ∀ ts, Token.tokenize code = .ok ts →
      (bare allowed h true programs).likeness.alike (Flow.Like Eq ts.length) (b ts) (d ts)) :
    (bare allowed h false programs).likeness.alike Eq (serve b (.execute code))
      (serve d (.execute code)) := by
  -- how the answer of a run is made of its end
  have hanswer : ∀ {r : EStateM.Result Fault World Unit} {w : World},
      runWith b code w = r → runWith d code w = r →
      (∀ f u, r = .error f u → allowed f) → Bare h false (endOf r) →
      (bare allowed h false programs).Outcome Eq (executeWith b code w)
        (executeWith d code w) := by
    intro r w hb hd hr hbare
    cases r with
    | ok _ u =>
        rw [executeWith_ok hb, executeWith_ok hd]
        exact .ok rfl ⟨rfl, hbare⟩
    | error f u =>
        cases hf : f.isFriendly with
        | true =>
            rw [executeWith_friendly hb hf, executeWith_friendly hd hf]
            exact .ok rfl ⟨rfl, hbare.told _⟩
        | false =>
            rw [executeWith_unfriendly hb hf, executeWith_unfriendly hd hf]
            exact .error (hr f u rfl) ⟨rfl, hbare⟩
  have hexecute : (bare allowed h false programs).likeness.alike Eq (executeWith b code)
      (executeWith d code) := by
    rintro w v ⟨rfl, hbare⟩
    have hidle := hbare.running
    have hstarted : Bare h true (started w) := { hbare with running := rfl }
    cases hts : Token.tokenize code with
    | error f =>
        refine hanswer (runWith_of_unreadable hidle hts) (runWith_of_unreadable hidle hts) ?_
          { hstarted with running := rfl }
        rintro _ _ ⟨⟩
        exact hallowed f (Token.unlimited_tokenize hts)
    | ok ts =>
        have hrun := hblock ts hts _ _ ⟨rfl, hstarted⟩
        generalize hb : b ts (started w) = r at hrun
        generalize hd : d ts (started w) = s at hrun
        cases hrun with
        | ok _ hr =>
            obtain ⟨rfl, hended⟩ := hr
            refine hanswer (runWith_ok hidle hts hb) (runWith_ok hidle hts hd) ?_
              { hended with running := rfl }
            rintro _ _ ⟨⟩
        | error hf hr =>
            obtain ⟨rfl, hended⟩ := hr
            refine hanswer (runWith_error hidle hts hb) (runWith_error hidle hts hd) ?_
              { hended with running := rfl }
            rintro _ _ ⟨⟩
            exact hfriendly _ hf
  refine Pairing.Laws.bind hexecute ?_
  rintro ok _ rfl
  exact Pairing.Laws.changing fun hr => ⟨by rw [hr.1], { hr.2 with }⟩

/-- What a command does while nothing is running, if the programs are alike that the
    host may have run. -/
theorem perform_idle (hfriendly : ∀ f, allowed f → allowed f.friendly)
    (hhost : h.RunsOnly programs) {b d : List Token → SessionM Flow}
    (hblock : ∀ ts, programs ts →
      (bare allowed h true programs).likeness.alike (Flow.Like Eq ts.length) (b ts) (d ts))
    (c : Command) (args : List Value) :
    (bare allowed h false programs).likeness.alike Eq (perform b c args) (perform d c args) := by
  have H := reactionLaws_bare hallowed fun _ : false = false => hhost
  refine H.toFormLaws.likeness.perform (fun hact => ?_) (fun text mode => ?_) (fun ms => ?_) args
  · exact H.toFormLaws.onCanvas hact.unlimited trivial
  · refine H.emit (fun code hcode => ?_) text mode
    exact serve_idle hallowed hfriendly fun ts hts => hblock ts (hcode code ts rfl rfl hts)
  · exact H.toFormLaws.onPacer (Pacer.unlimited_pause ms) fun _ => .pause ms

/-! ## Runs -/

variable {p q : Nat} {ts : List Token}

/-- With room for the tokens, a block while a program is running is alike under any
    limits. -/
theorem block_busy {d e : Nat} (hts : Finitary ts) (hd : 7 * ts.length + 3 ≤ d)
    (he : 7 * ts.length + 3 ≤ e) : (bare allowed h true programs).likeness.alike
      (Flow.Like Eq ts.length) (blockAtDepth p d ts) (blockAtDepth q e ts) := by
  have H : FinitaryLaws (bare allowed h true programs) :=
    finitaryLaws_bare hallowed fun hidle => by cases hidle
  exact H.block_room (k := 0) (fun _ _ => perform_busy hallowed _ _) hts hd he

/-- With room for its own tokens and for those of a program of the host, a block is
    alike under all limits. -/
theorem block_bare {m : Nat} (hfriendly : ∀ f, allowed f → allowed f.friendly)
    (hhost : busy = false → h.RunsOnly fun us => Finitary us ∧ us.length ≤ m) {d e : Nat}
    (hts : Finitary ts) (hd : 7 * (ts.length + m) + 6 ≤ d) (he : 7 * (ts.length + m) + 6 ≤ e) :
    (bare allowed h busy fun us => Finitary us ∧ us.length ≤ m).likeness.alike
      (Flow.Like Eq ts.length) (blockAtDepth p d ts) (blockAtDepth q e ts) := by
  cases busy with
  | true => exact block_busy hallowed hts (by omega) (by omega)
  | false =>
      have H := finitaryLaws_bare hallowed hhost
      refine H.block_room (k := 7 * m + 3) (fun hd he => ?_) hts (by omega) (by omega)
      refine perform_idle hallowed hfriendly (hhost rfl) fun us hus => ?_
      exact block_busy hallowed hus.1 (by omega) (by omega)

/-- At any depth, it is alike whatever the patience. -/
theorem block_busy_same (hdepth : allowed .depthExceeded) (d : Nat) (hts : Finitary ts) :
    (bare allowed h true programs).likeness.alike (Flow.Like Eq ts.length)
      (blockAtDepth p d ts) (blockAtDepth q d ts) := by
  have H : FinitaryLaws (bare allowed h true programs) :=
    finitaryLaws_bare hallowed fun hidle => by cases hidle
  exact H.block_same hdepth (fun _ => perform_busy hallowed _ _) d hts

/-- Where a limit on the depth may be met, a block is alike at one depth. -/
theorem block_bare_same (hdepth : allowed .depthExceeded)
    (hfriendly : ∀ f, allowed f → allowed f.friendly)
    (hhost : busy = false → h.RunsOnly Finitary) (d : Nat) (hts : Finitary ts) :
    (bare allowed h busy Finitary).likeness.alike (Flow.Like Eq ts.length)
      (blockAtDepth p d ts) (blockAtDepth q d ts) := by
  cases busy with
  | true => exact block_busy_same hallowed hdepth d hts
  | false =>
      have H := finitaryLaws_bare hallowed hhost
      refine H.block_same hdepth (fun d => ?_) d hts
      refine perform_idle hallowed hfriendly (hhost rfl) fun us hus => ?_
      exact block_busy_same hallowed hdepth d hus

end

/-- Friendly words for a fault that is not about a limit are not about one either. -/
theorem friendly_ofLimits {f : Fault} (h : f.ofLimits = false) : f.friendly.ofLimits = false := by
  fun_cases Fault.friendly f with
  | case1 => cases h
  | case2 | case3 => rfl
  | case4 => exact h

/-- No fault is a loss of patience in its friendly form unless it is one. -/
theorem friendly_ne {f : Fault} (h : f ≠ .outOfPatience) : f.friendly ≠ .outOfPatience := by
  fun_cases Fault.friendly f with
  | case1 | case2 | case3 =>
      intro heq
      cases heq
  | case4 => exact h

/-- A finitary run ends, where there are no procedures and what a host has run
    meanwhile is finitary.  Patience is of no matter, at any depth; and with room for
    the tokens, and for those of a program of the host, the run ends in one and the
    same way, which has nothing to do with limits. -/
theorem finitary_ends {w : World} {ts : List Token} (hnone : w.store.procedures = [])
    (hts : Finitary ts) (hhost : w.running = false → w.host.RunsOnly Finitary) :
    (∀ p q d, blockAtDepth p d ts w = blockAtDepth q d ts w
        ∧ ∀ v, blockAtDepth p d ts w ≠ .error .outOfPatience v)
      ∧ ∀ m, (w.running = false → w.host.RunsOnly fun us => us.length ≤ m) →
          Settles (fun v => v.store.procedures = []) 0 (7 * (ts.length + m) + 6)
            (fun p d => blockAtDepth p d ts) w := by
  have hbare : Bare w.host w.running w := ⟨rfl, hnone, rfl⟩
  constructor
  · intro p q d
    have hunlimited : ∀ f : Fault, f.ofLimits = false → f ≠ .outOfPatience := by
      rintro f hf rfl
      cases hf
    have hsame := block_bare_same hunlimited (by simp) (fun _ => friendly_ne) hhost d hts
      (p := p) (q := q) w w ⟨rfl, hbare⟩
    generalize blockAtDepth p d ts w = r at hsame
    generalize blockAtDepth q d ts w = s at hsame
    cases hsame with
    | ok hflow hr =>
        rw [hflow.eq, hr.1]
        exact ⟨rfl, fun v hv => by cases hv⟩
    | error hf hr =>
        rw [hr.1]
        refine ⟨rfl, fun v hv => ?_⟩
        cases hv
        exact hf rfl
  · intro m hm
    have hboth : w.running = false → w.host.RunsOnly fun us => Finitary us ∧ us.length ≤ m :=
      fun hidle n text code us hasked hus =>
        ⟨hhost hidle n text code us hasked hus, hm hidle n text code us hasked hus⟩
    let P := bare (fun f => f.ofLimits = false) w.host w.running
      fun us => Finitary us ∧ us.length ≤ m
    refine .of_pairing (P := P) (fun hr => ⟨hr.1, hr.2.procedures⟩) (fun _ hf => hf)
      (Flow.Like Eq ts.length) (fun _ _ h => h.eq) (fun p q d e _ _ hd he => ?_) ⟨rfl, hbare⟩
    exact block_bare (fun _ hf => hf) (fun _ => friendly_ofLimits) hboth hts hd he

/-- `REPEAT 3 [FILLED [IF 1 < 2 [PRINT 5]]]`, with a host that has something printed
    itself whenever it hears anything. -/
theorem finitary_ends_nested : ∃ w, quietSession = .ok w ∧
    let v : World := { w with host := { w.host with react := fun _ _ => [.execute "PRINT 1"] } }
    let ts : List Token := [.word "REPEAT", .number (.int 3), .openBracket, .word "FILLED",
      .openBracket, .word "IF", .number (.int 1), .comparison .lt, .number (.int 2),
      .openBracket, .word "PRINT", .number (.int 5), .closeBracket, .closeBracket, .closeBracket]
    v.store.procedures = [] ∧ Finitary ts ∧ v.running = false
      ∧ v.host.RunsOnly (fun us => Finitary us ∧ us.length ≤ 2)
      ∧ (∀ p q d, blockAtDepth p d ts v = blockAtDepth q d ts v
        ∧ ∀ u, blockAtDepth p d ts v ≠ .error .outOfPatience u)
      ∧ Settles (fun u => u.store.procedures = []) 0 125 (fun p d => blockAtDepth p d ts) v := by
  have hprogram : Token.tokenize "PRINT 1" = .ok [.word "PRINT", .number (.int 1)] := by
    decide +kernel
  obtain ⟨w, hnew, htried⟩ := quietSession_of
    (P := fun w => w.store.procedures.isEmpty && !w.running) (by decide +kernel)
  obtain ⟨hnone, hidle⟩ : w.store.procedures = [] ∧ w.running = false := by simpa using htried
  refine ⟨w, hnew, ?_⟩
  intro v ts
  have hts : Finitary ts := by decide +kernel
  have hhost : v.host.RunsOnly fun us => Finitary us ∧ us.length ≤ 2 := by
    intro n text code us hasked hus
    obtain rfl : code = "PRINT 1" := by simpa [v] using hasked
    rw [hprogram] at hus
    cases hus
    decide +kernel
  obtain ⟨hpatience, hroom⟩ := finitary_ends (w := v) hnone hts fun _ n text code us hasked hus =>
    (hhost n text code us hasked hus).1
  exact ⟨hnone, hts, hidle, hhost, hpatience, hroom 2 fun _ n text code us hasked hus =>
    (hhost n text code us hasked hus).2⟩

end Session

end TurtleLogo
