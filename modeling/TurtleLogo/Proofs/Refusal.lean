import TurtleLogo.Proofs.Pairing
import TurtleLogo.Proofs.Rest

/-! # Programs that are refused

    While one program is running, any other that the host asks for is refused:
    it leaves one message and the answer `false`, and the run goes on as if the
    host had not asked (`nested_refused`).  So the run is compared with the same
    run under a host that asks for no programs (`Host.alone`).

    The lines that a run prints are the texts that the host has heard as lines
    (`Faithful`).  A host that does not listen hears nothing, so there the lines
    are those of the same run under a host that listens and does nothing
    (`Host.attentive`). -/

namespace TurtleLogo

/-- Whether a host asks for a program. -/
def Request.isExecute : Request → Bool
  | .execute _ => true
  | _ => false

/-- The host that asks for no programs, and otherwise does the same. -/
def Host.alone (h : Host) : Host :=
  { h with react := fun n text => (h.react n text).filter (!·.isExecute) }

/-- The host that listens and does nothing about what it hears. -/
def Host.attentive (h : Host) : Host :=
  { h with listening := true, react := fun _ _ => [] }

/-- What is told about a program that is refused: one message and the answer. -/
def refusal : List Notice := [.error (Fault.message .busy), .nested false]

/-- Two lists of notices, the first of which also holds what was told about
    programs that were refused. -/
inductive Refusals : List Notice → List Notice → Prop where
  | refl (ns : List Notice) : Refusals ns ns
  | both {ns ms} (h : Refusals ns ms) (n : Notice) : Refusals (ns ++ [n]) (ms ++ [n])
  | refused {ns ms} (h : Refusals ns ms) : Refusals (ns ++ refusal) ms

/-- More notices on both sides change nothing about the refusals. -/
theorem Refusals.append {ns ms : List Notice} (h : Refusals ns ms) (more : List Notice) :
    Refusals (ns ++ more) (ms ++ more) := by
  induction more generalizing ns ms with
  | nil => rwa [List.append_nil, List.append_nil]
  | cons n more ih =>
      have hboth := ih (.both h n)
      rwa [List.append_assoc, List.append_assoc] at hboth

/-- The texts are the same. -/
theorem Refusals.texts {ns ms : List Notice} (h : Refusals ns ms) :
    Session.texts ns = Session.texts ms := by
  induction h with
  | refl ns => rfl
  | both h n ih => rw [Session.texts_append, Session.texts_append, ih]
  | refused h ih =>
      rw [Session.texts_append, ih]
      exact List.append_nil _

/-- The lines among the texts that a host has heard. -/
def lines (ns : List Notice) : List Text :=
  ns.filterMap fun
    | .output text .normal => some text
    | _ => none

theorem lines_append (ns ms : List Notice) : lines (ns ++ ms) = lines ns ++ lines ms :=
  List.filterMap_append

namespace Session

/-! ## Worlds with different hosts -/

/-- Worlds that differ at most in what the hosts hear and do about it. -/
structure Apart (w v : World) : Prop where
  store : w.store = v.store
  canvas : w.canvas = v.canvas
  pacer : w.pacer = v.pacer
  running : w.running = v.running
  printed : w.printed = v.printed
  undefined : w.undefined = v.undefined
  replies : w.host.replies = v.host.replies
  chance : w.host.chance = v.host.chance
  drawn : w.host.drawn = v.host.drawn
  panel : w.host.panel = v.host.panel

theorem Apart.refl (w : World) : Apart w w := ⟨rfl, rfl, rfl, rfl, rfl, rfl, rfl, rfl, rfl, rfl⟩

namespace Apart

variable {w v : World} (h : Apart w v)
include h

theorem close : Close w v :=
  ⟨h.canvas, h.pacer, h.undefined, h.replies, h.chance, h.drawn, h.panel⟩

/-- Printing a text leaves worlds apart by no more. -/
theorem said (text : Text) (mode : OutputMode) :
    Apart (Session.printed text mode w) (Session.printed text mode v) := by
  cases mode with
  | normal => exact { h with printed := congrArg (·.push text) h.printed }
  | inline => exact h

/-- A program that is refused changes nothing else. -/
theorem refused : Apart { w with host := w.host.refuse } v := by
  rw [Host.refuse]
  split
  · exact { h with }
  · exact { h with }

theorem started : Apart (started w) (started v) :=
  { h with running := rfl, pacer := congrArg Pacer.clear h.pacer, printed := rfl }

theorem ended : Apart (ended w) (ended v) := { h with running := rfl }

end Apart

/-- A host that has noted something more. -/
structure Noting (h k : Host) (ns : List Notice) : Prop where
  listening : h.listening = k.listening
  react : h.react = k.react
  heard : h.heard = k.heard
  notices : h.notices.toList = k.notices.toList ++ ns

/-- A host that jots something down has noted it. -/
theorem Noting.jot (h : Host) (n : Notice) : Noting (h.jot n) h [n] :=
  ⟨rfl, rfl, rfl, Array.toList_push⟩

/-- A host that has noted nothing more. -/
theorem Noting.none {h k : Host} (hlistening : h.listening = k.listening)
    (hreact : h.react = k.react) (hheard : h.heard = k.heard) (hnotices : h.notices = k.notices) :
    Noting h k [] :=
  ⟨hlistening, hreact, hheard, by rw [hnotices, List.append_nil]⟩

/-- A way to compare hosts that goes on when both note the same. -/
def Company (K : Host → Host → Prop) : Prop :=
  ∀ ⦃h k h' k' : Host⦄ ⦃ns⦄, K h k → Noting h' h ns → Noting k' k ns → K h' k'

/-- The pairing of worlds whose hosts compare in some way. -/
def company (K : Host → Host → Prop) : Pairing where
  spelled := Eq
  fits _ := True
  rel w v := Apart w v ∧ v.running = true ∧ K w.host v.host
  allowed _ := True
  draws _ := True
  asks _ := True

section

variable {K : Host → Host → Prop} (H : Company K)
include H

/-- Hosts that keep company are told the same about the window. -/
theorem Company.windowLaws : (company K).WindowLaws where
  upper _ _ h := congrArg Text.upper h
  allowed _ _ := trivial
  close hr := hr.1.close
  store hr := ⟨by rw [hr.1.store]; exact .refl _, fun _ _ => trivial⟩
  undefined n hr := ⟨{ hr.1 with undefined := rfl }, hr.2⟩
  draw hr := ⟨{ hr.1 with drawn := congrArg (· + 1) hr.1.drawn }, hr.2.1,
    H hr.2.2 (.none rfl rfl rfl rfl) (.none rfl rfl rfl rfl)⟩
  question prompt hr := ⟨{ hr.1 with }, hr.2.1, H hr.2.2 (.jot _ _) (.jot _ _)⟩
  replies rs hr := ⟨{ hr.1 with replies := rfl }, hr.2.1,
    H hr.2.2 (.none rfl rfl rfl rfl) (.none rfl rfl rfl rfl)⟩
  names hr hst _ := ⟨{ hr.1 with store := hst.eq }, hr.2⟩
  pacer hr _ := ⟨{ hr.1 with pacer := rfl }, hr.2⟩
  canvas _ hr _ := ⟨{ hr.1 with canvas := rfl, undefined := rfl }, hr.2⟩
  tell _ := trivial
  beginFill := trivial
  endFill := trivial
  cancelFill := trivial
  panel q hr := ⟨{ hr.1 with panel := rfl }, hr.2.1,
    H hr.2.2 (.none rfl rfl rfl rfl) (.none rfl rfl rfl rfl)⟩
  window _ _ _ _ := trivial

/-- Programs under two hosts that compare, if what they say is alike. -/
theorem Company.block (hemit : ∀ (b d : List Token → SessionM Flow) text mode,
      (company K).likeness.alike Eq (emit b text mode) (emit d text mode))
    (limits : Limits) (ts us : List Token) (h : TokensLike Eq ts us) :
    (company K).likeness.alike (Flow.Like Eq us.length) ((engine limits).block ts)
      ((engine limits).block us) :=
  (H.windowLaws.commands (fun _ => trivial) hemit).block (fun _ => Pairing.Laws.throw trivial)
    (fun _ => trivial) limits ts us h

end

/-! ## A host that asks for programs -/

/-- A host and the same host without the programs that it asks for, where both
    listen or none. -/
structure Bothered (listens : Bool) (h k : Host) : Prop where
  left : h.listening = listens
  right : k.listening = listens
  react : k.react = h.alone.react
  heard : h.heard = k.heard
  notices : Refusals h.notices.toList k.notices.toList

variable {listens : Bool}

/-- A host that asks for programs keeps company with the same host alone. -/
theorem company_bothered : Company (Bothered listens) := by
  intro h k h' k' ns hK hh hk
  refine ⟨hh.listening.trans hK.left, hk.listening.trans hK.right, ?_, ?_, ?_⟩
  · rw [hk.react, hK.react, Host.alone, Host.alone, hh.react]
  · rw [hh.heard, hK.heard, hk.heard]
  · rw [hh.notices, hk.notices]
    exact hK.notices.append ns

/-- What a host that listens is told about a program that is refused. -/
theorem noting_refuse {h : Host} (hl : h.listening = true) : Noting h.refuse h refusal := by
  rw [Host.refuse, if_pos hl]
  refine ⟨rfl, rfl, rfl, ?_⟩
  rw [Host.jot, Host.jot, Array.toList_push, Array.toList_push, List.append_assoc]
  rfl

/-- Hosts that compare do so after a program of the first has been refused. -/
theorem Bothered.refused {h k : Host} (hK : Bothered true h k) : Bothered true h.refuse k := by
  have hnoting := noting_refuse hK.left
  refine ⟨hnoting.listening.trans hK.left, hK.right, ?_, hnoting.heard.trans hK.heard, ?_⟩
  · rw [hK.react, Host.alone, Host.alone, hnoting.react]
  · rw [hnoting.notices]
    exact .refused hK.notices

/-- What a host asks for, with programs and without. -/
theorem serveAll_bothered (b d : List Token → SessionM Flow) (rs : List Request) :
    (company (Bothered true)).likeness.alike Eq (serveAll b rs)
      (serveAll d (rs.filter (!·.isExecute))) := by
  have H : (company (Bothered true)).WindowLaws := company_bothered.windowLaws
  induction rs with
  | nil => exact Pairing.Laws.pure rfl
  | cons r rs ih =>
      cases r with
      | execute code =>
          rintro w v ⟨hapart, hrunning, hK⟩
          show (company _).Outcome Eq ((serve b (.execute code) >>= fun _ => serveAll b rs) w) _
          rw [bind_of_ok (serve_execute_of_running b (hapart.running.trans hrunning))]
          exact ih _ _ ⟨hapart.refused, hrunning, hK.refused⟩
      | stop => exact H.toFormLaws.likeness.next H.stop fun _ => ih
      | setSpeed ms => exact H.toFormLaws.likeness.next (H.setSpeed ms) fun _ => ih
      | event e => exact H.toFormLaws.likeness.next (H.handle trivial) fun _ => ih

/-- A text that is said goes on alike for both. -/
theorem emit_bothered (b d : List Token → SessionM Flow) (text : Text) (mode : OutputMode) :
    (company (Bothered listens)).likeness.alike Eq (emit b text mode) (emit d text mode) := by
  rintro w v ⟨hapart, hrunning, hK⟩
  have hsaid := hapart.said text mode
  cases listens with
  | true =>
      rw [emit_of_listening _ _ _ hK.left, emit_of_listening _ _ _ hK.right, hK.react, hK.heard]
      refine serveAll_bothered b d _ _ _ ⟨{ hsaid with }, ?_, ?_⟩
      · rw [running_heard, hrunning]
      · rw [host_heard, host_heard]
        refine { hK with heard := congrArg (· + 1) hK.heard, notices := ?_ }
        rw [Host.hear, Host.hear, Host.jot, Host.jot, Array.toList_push, Array.toList_push]
        exact .both hK.notices _
  | false =>
      rw [emit_of_deaf _ _ _ hK.left, emit_of_deaf _ _ _ hK.right]
      refine .ok rfl ⟨hsaid, ?_, ?_⟩
      · rw [running_printed, hrunning]
      · rw [host_printed, host_printed]
        exact hK

/-- How the ends of two runs compare, one with a host that asks for programs and
    one with the same host alone. -/
structure Unbothered (w v : World) : Prop where
  apart : Apart w v
  listening : w.host.listening = v.host.listening
  react : v.host.react = w.host.alone.react
  heard : w.host.heard = v.host.heard
  notices : Refusals w.host.notices.toList v.host.notices.toList

/-- Both hosts have heard the same texts. -/
theorem Unbothered.texts {w v : World} (h : Unbothered w v) :
    texts w.host.notices.toList = texts v.host.notices.toList := h.notices.texts

/-- A world compares with the same world under the host alone. -/
theorem Unbothered.alone (w : World) : Unbothered w { w with host := w.host.alone } :=
  ⟨{ Apart.refl w with }, rfl, rfl, rfl, .refl _⟩

/-- Runs under a host that asks for programs and under that host alone end alike. -/
theorem between_bothered :
    (company (Bothered listens)).Between
      (fun w v => Unbothered w v ∧ w.host.listening = listens) Unbothered where
  running hr := hr.1.apart.running
  refused hr _ := hr.1
  started hr _ := ⟨hr.1.apart.started, rfl, hr.2, hr.1.listening.symm.trans hr.2, hr.1.react,
    hr.1.heard, hr.1.notices⟩
  ended hr := ⟨hr.1.ended, hr.2.2.left.trans hr.2.2.right.symm, hr.2.2.react, hr.2.2.heard,
    hr.2.2.notices⟩
  told {w v} message hr := by
    by_cases h : v.host.listening = true
    · rw [told, told, if_pos h, if_pos (hr.listening.trans h)]
      refine { hr with apart := { hr.apart with }, notices := ?_ }
      rw [Array.toList_push, Array.toList_push]
      exact .both hr.notices _
    · rw [told, told, if_neg h, if_neg (by rw [hr.listening]; exact h)]
      exact hr

/-! ## A host that does not listen -/

/-- A host that does not listen and one that does and asks for nothing. -/
structure Attended (h k : Host) : Prop where
  deaf : h.listening = false
  listening : k.listening = true
  react : ∀ n text, k.react n text = []

/-- A host that does not listen keeps company with one that does nothing. -/
theorem company_attended : Company Attended := fun _ _ _ _ _ hK hh hk =>
  ⟨hh.listening.trans hK.deaf, hk.listening.trans hK.listening, by rw [hk.react]; exact hK.react⟩

/-- A text that is said goes on alike for both. -/
theorem emit_attended (b d : List Token → SessionM Flow) (text : Text) (mode : OutputMode) :
    (company Attended).likeness.alike Eq (emit b text mode) (emit d text mode) := by
  rintro w v ⟨hapart, hrunning, hK⟩
  have hsaid := hapart.said text mode
  rw [emit_of_deaf _ _ _ hK.deaf, emit_of_listening _ _ _ hK.listening, hK.react]
  refine .ok rfl ⟨{ hsaid with }, ?_, ?_⟩
  · rw [running_heard, hrunning]
  · rw [host_printed, host_heard]
    exact { hK with }

/-- Both runs print the same. -/
theorem between_attended :
    (company Attended).Between
      (fun w v => Apart w v ∧ Attended w.host v.host) (fun w v => w.printed = v.printed) where
  running hr := hr.1.running
  refused hr _ := hr.1.printed
  started hr _ := ⟨hr.1.started, rfl, hr.2⟩
  ended hr := hr.1.printed
  told {w v} message hr := by
    have htold : ∀ w, (told message w).printed = w.printed := by
      intro w
      rw [told]
      split <;> rfl
    rw [htold, htold, hr]

/-! ## What has been printed -/

/-- A run whose lines are the texts that its host has heard as lines, since
    some notices were taken. -/
structure Faithful (base : List Notice) (w : World) : Prop where
  listening : w.host.listening = true
  heard : ∃ ns, w.host.notices.toList = base ++ ns ∧ w.printed.toList = lines ns

namespace Faithful

variable {base : List Notice} {w : World}

/-- What is noted besides and is no line. -/
theorem noting {h : Host} {ns : List Notice} (hw : Faithful base w) (hh : Noting h w.host ns)
    (hlines : lines ns = []) : Faithful base { w with host := h } := by
  obtain ⟨ms, hms, hprinted⟩ := hw.heard
  refine ⟨hh.listening.trans hw.listening, ms ++ ns, ?_, ?_⟩
  · rw [hh.notices, hms, List.append_assoc]
  · rw [lines_append, hlines, List.append_nil]
    exact hprinted

/-- A text that is said is heard. -/
theorem hears (hw : Faithful base w) (text : Text) (mode : OutputMode) :
    Faithful base (Session.heard text mode w) := by
  obtain ⟨ms, hms, hprinted⟩ := hw.heard
  refine ⟨?_, ms ++ [.output text mode], ?_, ?_⟩
  · rw [host_heard]
    exact hw.listening
  · rw [host_heard, Host.hear, Host.jot, Array.toList_push, hms, List.append_assoc]
  · rw [lines_append, ← hprinted]
    cases mode with
    | normal => exact Array.toList_push
    | inline => exact (List.append_nil _).symm

end Faithful

/-- Runs of which the lines are those that have been heard. -/
def faithful (base : List Notice) : Pairing where
  spelled := Eq
  fits _ := True
  rel w v := w = v ∧ v.running = true ∧ Faithful base v
  allowed _ := True
  draws _ := True
  asks _ := True

/-- Whatever a host does while it listens leaves a run faithful. -/
theorem hostLaws_faithful (base : List Notice) : (faithful base).HostLaws where
  upper _ _ h := congrArg Text.upper h
  allowed _ _ := trivial
  close hr := hr.1 ▸ .refl _
  store hr := ⟨by rw [hr.1]; exact .refl _, fun _ _ => trivial⟩
  undefined n hr := ⟨by rw [hr.1], hr.2.1, { hr.2.2 with }⟩
  draw hr := ⟨by rw [hr.1], hr.2.1, hr.2.2.noting (.none rfl rfl rfl rfl) rfl⟩
  question prompt hr := ⟨by rw [hr.1], hr.2.1, hr.2.2.noting (.jot _ _) rfl⟩
  replies rs hr := ⟨by rw [hr.1], hr.2.1, hr.2.2.noting (.none rfl rfl rfl rfl) rfl⟩
  names hr hst _ := ⟨by rw [hr.1, hst.eq], hr.2.1, { hr.2.2 with }⟩
  pacer hr _ := ⟨by rw [hr.1], hr.2.1, { hr.2.2 with }⟩
  canvas _ hr _ := ⟨by rw [hr.1], hr.2.1, { hr.2.2 with }⟩
  tell _ := trivial
  beginFill := trivial
  endFill := trivial
  cancelFill := trivial
  running hr := ⟨by rw [hr.1]; exact hr.2.1, hr.2.1⟩
  panel q hr := ⟨by rw [hr.1], hr.2.1, hr.2.2.noting (.none rfl rfl rfl rfl) rfl⟩
  window _ _ _ _ := trivial
  heeds hr := hr.1 ▸ .refl _
  asked _ _ _ _ _ := trivial
  said _ _ hr hdeaf := by
    rw [hr.2.2.listening] at hdeaf
    cases hdeaf
  heard text mode hr _ :=
    ⟨by rw [hr.1], (running_heard text mode _).trans hr.2.1, hr.2.2.hears text mode⟩
  refused hr :=
    ⟨by rw [hr.1], hr.2.1, hr.2.2.noting (noting_refuse hr.2.2.listening) rfl⟩

/-- A run that starts without lines ends faithful. -/
theorem between_faithful (base : List Notice) :
    (faithful base).Between
      (fun w v => w = v ∧ v.running = false ∧ v.host.listening = true
        ∧ v.host.notices.toList = base)
      (fun _ v => Faithful base v) where
  running hr := congrArg World.running hr.1
  refused hr h := by
    rw [hr.1, hr.2.1] at h
    cases h
  started hr _ := ⟨by rw [hr.1], rfl, hr.2.2.1, [], by rw [List.append_nil]; exact hr.2.2.2, rfl⟩
  ended hr := { hr.2.2 with }
  told {w v} message hr := by
    rw [told, if_pos hr.listening]
    exact hr.noting (.jot _ _) rfl

/-! ## Whole runs -/

/-- A program that is asked for while one is running is refused. -/
theorem serve_refused (b : List Token → SessionM Flow) (code : Text) {u : World}
    (hrunning : u.running = true) (hlistening : u.host.listening = true) :
    ∃ h, serve b (.execute code) u = .ok () { u with host := h } ∧ Noting h u.host refusal :=
  ⟨u.host.refuse, serve_execute_of_running b hrunning, noting_refuse hlistening⟩

section

variable (limits : Limits) (code : Text) (w : World)

/-- A run goes on as if the host had not asked for programs. -/
theorem unbothered :
    SameEnd Unbothered (run limits code w) (run limits code { w with host := w.host.alone })
      ∧ SameEnd Unbothered (execute limits code w)
        (execute limits code { w with host := w.host.alone }) := by
  have hcode := Token.matched_tokenize Eq code
  have hr := And.intro (Unbothered.alone w) (rfl : w.host.listening = w.host.listening)
  have hblock : ∀ ts us, TokensLike Eq ts us →
      (company (Bothered w.host.listening)).likeness.alike (Flow.Like Eq us.length)
        ((engine limits).block ts) ((engine limits).block us) :=
    company_bothered.block emit_bothered limits
  exact ⟨between_bothered.runWith hcode hblock hr, between_bothered.executeWith hcode hblock hr⟩

variable {w}

/-- What is printed while nobody listens would be printed as well if somebody
    did. -/
theorem printed_of_deaf (hdeaf : w.host.listening = false) :
    (endOf (run limits code w)).printed
        = (endOf (run limits code { w with host := w.host.attentive })).printed
      ∧ (endOf (execute limits code w)).printed
        = (endOf (execute limits code { w with host := w.host.attentive })).printed := by
  have hcode := Token.matched_tokenize Eq code
  have hr : Apart w { w with host := w.host.attentive } ∧ Attended w.host w.host.attentive :=
    ⟨{ Apart.refl w with }, hdeaf, rfl, fun _ _ => rfl⟩
  have hblock := company_attended.block emit_attended limits
  exact ⟨(between_attended.runWith hcode hblock hr).endOf,
    (between_attended.executeWith hcode hblock hr).endOf⟩

/-- While somebody listens, what is printed are the lines that have been
    heard. -/
theorem faithful_of_listening (hidle : w.running = false) (hlistening : w.host.listening = true) :
    Faithful w.host.notices.toList (endOf (run limits code w))
      ∧ Faithful w.host.notices.toList (endOf (execute limits code w)) := by
  have H := (hostLaws_faithful w.host.notices.toList).commands fun _ => trivial
  have hblock := H.block (fun _ => Pairing.Laws.throw trivial) (fun _ => trivial) limits
  have hcode := Token.matched_tokenize Eq code
  have hr : w = w ∧ w.running = false ∧ w.host.listening = true
      ∧ w.host.notices.toList = w.host.notices.toList := ⟨rfl, hidle, hlistening, rfl⟩
  exact ⟨((between_faithful _).runWith hcode hblock hr).endOf,
    ((between_faithful _).executeWith hcode hblock hr).endOf⟩

end

/-- The lines that a run has printed are the texts that its host has heard as
    lines, or would have heard if it had listened. -/
structure PrintsItsLines {β : Type} (act : SessionM β) (w : World) : Prop where
  listening : w.host.listening = true → Faithful w.host.notices.toList (endOf (act w))
  deaf : w.host.listening = false →
    (endOf (act w)).printed = (endOf (act { w with host := w.host.attentive })).printed
      ∧ Faithful w.host.notices.toList (endOf (act { w with host := w.host.attentive }))

/-- Programs that are asked for while one is running are refused, and the run
    goes on as if the host had not asked for them.  What a run has printed are
    its lines. -/
theorem nested_refused (limits : Limits) (code : Text) {w : World} (hidle : w.running = false) :
    (∀ b nested (u : World), u.running = true → u.host.listening = true →
      ∃ h, serve b (.execute nested) u = .ok () { u with host := h } ∧ Noting h u.host refusal)
    ∧ SameEnd Unbothered (run limits code w) (run limits code { w with host := w.host.alone })
    ∧ SameEnd Unbothered (execute limits code w)
      (execute limits code { w with host := w.host.alone })
    ∧ PrintsItsLines (run limits code) w ∧ PrintsItsLines (execute limits code) w := by
  obtain ⟨hrun, hexecute⟩ := unbothered limits code w
  have hattentive := faithful_of_listening limits code (w := { w with host := w.host.attentive })
    hidle rfl
  refine ⟨fun b nested u => serve_refused b nested, hrun, hexecute, ⟨fun hl => ?_, fun hl => ?_⟩,
    fun hl => ?_, fun hl => ?_⟩
  · exact (faithful_of_listening limits code hidle hl).1
  · exact ⟨(printed_of_deaf limits code hl).1, hattentive.1⟩
  · exact (faithful_of_listening limits code hidle hl).2
  · exact ⟨(printed_of_deaf limits code hl).2, hattentive.2⟩

/-- A host that asks for a program whenever it hears a text. -/
theorem nested_refused_print : ∃ w, quietSession = .ok w ∧
    SameEnd Unbothered
      (execute ⟨40, 5⟩ "PRINT 1"
        { w with host := { w.host with react := fun _ _ => [.execute "FD 9"] } })
      (execute ⟨40, 5⟩ "PRINT 1" { w with host := { w.host with react := fun _ _ => [] } }) := by
  obtain ⟨w, hnew, htried⟩ := quietSession_of (P := fun w => !w.running) rfl
  have hidle : w.running = false := by simpa using htried
  exact ⟨w, hnew, (nested_refused ⟨40, 5⟩ "PRINT 1"
    (w := { w with host := { w.host with react := fun _ _ => [.execute "FD 9"] } }) hidle).2.2.1⟩

end Session

end TurtleLogo
