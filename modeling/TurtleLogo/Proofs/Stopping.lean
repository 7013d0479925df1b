import TurtleLogo.Proofs.Ledger
import TurtleLogo.Proofs.Rest

/-! # Runs that are stopped

    A host that asks a run to stop when it hears a text only cuts the run
    short, unless the text was said inside a call of a procedure for its value
    (`stopping_cuts_short`).  Such a call comes back without its value, and the
    statement that made it goes on with nothing in its place
    (`stopped_in_call`).

    The run that is not stopped keeps a diary, so that one can say where a text
    was said. -/

namespace TurtleLogo

/-- The host that, besides, asks to stop when it hears its `k`-th text from now
    on. -/
def Host.stopAt (h : Host) (k : Nat) : Host :=
  { h with react := fun n text =>
      if n = h.heard + k then h.react n text ++ [.stop] else h.react n text }

namespace Session

/-- The world whose host will ask to stop. -/
def stoppedAt (k : Nat) (w : World) : World := { w with host := w.host.stopAt k }

/-- The number of calls for a value that have begun and are not over. -/
def openCalls (ns : List Notice) : Int :=
  (ns.countP fun
    | .called => true
    | _ => false)
  - (ns.countP fun
    | .returned => true
    | _ => false)

/-- The `k`-th text of a diary was said inside a call for a value. -/
def SaidInCall (k : Nat) (ns : List Notice) : Prop :=
  ∃ before text mode more, ns = before ++ .output text mode :: more ∧
    (texts before).length = k ∧ 0 < openCalls before

/-- Open calls add up. -/
theorem openCalls_append (ns ms : List Notice) :
    openCalls (ns ++ ms) = openCalls ns + openCalls ms := by
  simp only [openCalls, List.countP_append, Int.natCast_add]
  omega

/-- What was said in a call stays so when the diary goes on. -/
theorem SaidInCall.append {k : Nat} {ns : List Notice} (h : SaidInCall k ns) (ms : List Notice) :
    SaidInCall k (ns ++ ms) := by
  obtain ⟨before, text, mode, more, rfl, hk, ho⟩ := h
  exact ⟨before, text, mode, more ++ ms, by simp, hk, ho⟩

/-! ## The ledger of a run and a stopped one -/

/-- What has passed to the host of a run and to the host of the stopped one. -/
structure Tallied (start : Host) (k : Nat) (ns ms : List Notice) (h g : Host) : Prop where
  react : h.react = start.react
  stopping : g.react = (start.stopAt k).react
  heard : h.heard = start.heard + (texts ns).length
  notes : h.notices.toList = start.notices.toList ++ ns
  stopped : g.notices.toList = start.notices.toList ++ ms
  texts : texts ns = texts ms
  complaints : complaints ns = complaints ms

/-- What passes to both hosts alike keeps the tally. -/
theorem Tallied.append {start h g h' g' : Host} {k : Nat} {ns ms as bs : List Notice}
    (ht : Tallied start k ns ms h g) (hr : h'.react = h.react) (hr' : g'.react = g.react)
    (hh : h'.heard = h.heard + (Session.texts as).length)
    (hn : h'.notices.toList = h.notices.toList ++ as)
    (hn' : g'.notices.toList = g.notices.toList ++ bs)
    (htexts : Session.texts as = Session.texts bs)
    (hcomplaints : Session.complaints as = Session.complaints bs) :
    Tallied start k (ns ++ as) (ms ++ bs) h' g' where
  react := hr.trans ht.react
  stopping := hr'.trans ht.stopping
  heard := by rw [hh, ht.heard, texts_append, List.length_append, Nat.add_assoc]
  notes := by rw [hn, ht.notes, List.append_assoc]
  stopped := by rw [hn', ht.stopped, List.append_assoc]
  texts := by rw [texts_append, texts_append, ht.texts, htexts]
  complaints := by rw [complaints_append, complaints_append, ht.complaints, hcomplaints]

/-- Altogether the hosts have heard and been told the same. -/
theorem Tallied.same {start h g : Host} {k : Nat} {ns ms : List Notice}
    (ht : Tallied start k ns ms h g) :
    Session.texts h.notices.toList = Session.texts g.notices.toList ∧
      Session.complaints h.notices.toList = Session.complaints g.notices.toList := by
  rw [ht.notes, ht.stopped, texts_append, texts_append, complaints_append, complaints_append,
    ht.texts, ht.complaints]
  exact ⟨rfl, rfl⟩

/-- What only the diary notes. -/
theorem Tallied.jot_left {start h g : Host} {k : Nat} {ns ms : List Notice} {n : Notice}
    (ht : Tallied start k ns ms h g) (hn : isPlain n = false) :
    Tallied start k (ns ++ [n]) ms (h.jot n) g := by
  have htexts : Session.texts [n] = [] := by cases n <;> first | rfl | cases hn
  have hcomplaints : Session.complaints [n] = [] := by cases n <;> first | rfl | cases hn
  have h' : Tallied start k (ns ++ [n]) (ms ++ []) (h.jot n) g :=
    ht.append rfl rfl (by rw [htexts]; rfl) Array.toList_push (List.append_nil _).symm htexts
      hcomplaints
  rw [List.append_nil] at h'
  exact h'

/-- The ledger of a run and the run that is stopped at its `k`-th text.  The
    tie is given up when that text is said inside a call for a value, and cut
    when it is said outside. -/
def stopping (start : Host) (k : Nat) (kind : SurfaceKind) : Ledger where
  Mark := Nat
  kind := kind
  rel d h g := ∃ ns ms, Tallied start k ns ms h g ∧ openCalls ns = d
  fails _ _ h g := ∃ ns ms, Tallied start k ns ms h g
  lost h := ∃ ns, h.notices.toList = start.notices.toList ++ ns ∧ SaidInCall k ns
  cut d h g := d = 0 ∧ texts g.notices.toList <+: texts h.notices.toList ∧
    complaints g.notices.toList <+: complaints h.notices.toList
  lost_of_noted := by
    rintro h g ⟨more, hmore⟩ ⟨ns, hns, hk⟩
    exact ⟨ns ++ more, by rw [← hmore, hns, List.append_assoc], hk.append more⟩
  cut_of_noted := by
    rintro d h g g' ⟨more, hmore⟩ ⟨hd, htexts, hcomplaints⟩
    refine ⟨hd, ?_, ?_⟩
    · rw [← hmore, texts_append]
      exact htexts.trans (List.prefix_append _ _)
    · rw [← hmore, complaints_append]
      exact hcomplaints.trans (List.prefix_append _ _)

/-- A refusal looks the same to both hosts. -/
theorem refuse_notes (h : Host) : h.refuse.notices.toList = h.notices.toList
    ++ if h.listening then [.error (Fault.message .busy), .nested false] else [.nested false] := by
  rw [Host.refuse]
  cases h.listening <;> simp [Host.jot]

/-- A refusal leaves what a host does and what it has heard. -/
theorem refuse_same (h : Host) : h.refuse.react = h.react ∧ h.refuse.heard = h.heard := by
  rw [Host.refuse]
  cases h.listening <;> exact ⟨rfl, rfl⟩

/-- The ledger of a run and its stopped copy has the laws but those of texts and
    calls. -/
theorem stopping_basics (start : Host) (k : Nat) (kind : SurfaceKind) :
    (stopping start k kind).Basics where
  aside {d w v} a := by
    rintro ⟨ns, ms, ht, hd⟩
    refine ⟨ns ++ a.notes, ms ++ a.notes, ht.append ?_ ?_ ?_ (a.notices_apply w) (a.notices_apply v)
      rfl rfl, ?_⟩
    · cases a <;> rfl
    · cases a <;> rfl
    · cases a <;> rfl
    · rw [openCalls_append, hd]
      cases a <;> rfl
  tame := by
    rintro d f h g ⟨ns, ms, ht, -⟩ - -
    exact ⟨ns, ms, ht⟩
  patience := by
    rintro d h g ⟨ns, ms, ht, -⟩
    exact ⟨ns, ms, ht⟩
  chose := by
    rintro d who h g ⟨ns, ms, ht, hd⟩ -
    exact ⟨_, ms, ht.jot_left rfl, by rw [openCalls_append, hd]; rfl⟩
  choseList := by
    rintro d who h g ⟨ns, ms, ht, -⟩ -
    exact ⟨_, ms, ht.jot_left rfl⟩
  refuse := by
    rintro d h g hl ⟨ns, ms, ht, hd⟩
    refine ⟨_, _, ht.append (refuse_same h).1 (refuse_same g).1 ?_ (refuse_notes h) (refuse_notes g)
      ?_ ?_, ?_⟩
    · rw [(refuse_same h).2]
      cases h.listening <;> rfl
    · rw [hl]
    · rw [hl]
    · rw [openCalls_append, hd]
      cases h.listening <;> rfl

/-- What a host asks for, one thing more at the end. -/
theorem serveAll_concat (block : List Token → SessionM Flow) (rs : List Request) (r : Request) :
    serveAll block (rs ++ [r]) = serveAll block rs >>= fun _ => serve block r := by
  induction rs with
  | nil =>
      funext w
      show (serve block r >>= fun _ => pure ()) w = serve block r w
      cases h : serve block r w with
      | ok a u => rw [bind_of_ok h]; rfl
      | error f u => rw [bind_of_error h]
  | cons q rs ih =>
      show (serve block q >>= fun _ => serveAll block (rs ++ [r])) = _
      rw [ih]
      exact (bind_assoc _ _ _).symm

section

variable {start : Host} {k : Nat} {kind : SurfaceKind}

/-- Both hosts hear a text. -/
theorem stopping_heard {p : (stopping start k kind).tie.Place} {w v : World}
    (hr : (stopping start k kind).tie.rel p w v) (text : Text) (mode : OutputMode) :
    (stopping start k kind).tie.rel p (heard text mode w) (heard text mode v) := by
  obtain ⟨h, ns, ms, ht, hd⟩ := hr
  refine ⟨Ledger.abreast_heard h text mode, ns ++ [.output text mode],
    ms ++ [.output text mode], ?_, ?_⟩
  · rw [host_heard, host_heard]
    exact ht.append rfl rfl rfl Array.toList_push Array.toList_push rfl rfl
  · rw [openCalls_append, hd]
    rfl

/-- The text at which the second run is asked to stop. -/
theorem stopping_here {d n : Nat} {w v : World} {b e : List Token → SessionM Flow} {text : Text}
    {mode : OutputMode} {rs : List Request}
    (hr : (stopping start k kind).tie.rel (d, n) w v) (hk : w.host.heard = start.heard + k)
    (hserve : Steps (T := (stopping start k kind).tie) false (d, n) (serveAll b rs)
      (serveAll e rs)) :
    (stopping start k kind).tie.Outcome true (d, n) (serveAll b rs (heard text mode w))
      (serveAll e (rs ++ [.stop]) (heard text mode v)) := by
  have hrun := hserve.run (stopping_heard hr text mode)
  have hlogs := hserve.logs (heard text mode w)
  obtain ⟨-, ns, ms, ht, hd⟩ := hr
  by_cases hcall : d = 0
  · rw [serveAll_concat]
    generalize serveAll b rs (heard text mode w) = r at hrun ⊢
    generalize hright : serveAll e rs (heard text mode v) = s at hrun
    cases hrun with
    | lost hl => exact .lost hl
    | ok hr' =>
        -- outside of calls the second run only winds up from here on
        obtain ⟨h', ns', ms', ht', -⟩ := hr'
        obtain ⟨htexts, hcomplaints⟩ := ht'.same
        rw [bind_of_ok hright]
        refine .cut rfl ⟨⟨rfl, h'.frames, h'.sane⟩, hcall, ?_, ?_⟩
        · exact htexts ▸ List.prefix_refl _
        · exact hcomplaints ▸ List.prefix_refl _
    | error hf =>
        rw [bind_of_error hright]
        exact .error hf
    | cut hc => cases hc
  · refine .lost ((stopping start k kind).tie.lost_of_noted hlogs ?_)
    refine ⟨ns ++ [.output text mode], ?_, ns, text, mode, [], rfl, ?_, ?_⟩
    · rw [host_heard, Host.hear, Host.jot, Array.toList_push, ht.notes, List.append_assoc]
    · have hheard := ht.heard
      omega
    · rw [hd]
      exact Int.natCast_pos.2 (Nat.pos_of_ne_zero hcall)

/-- A text that is said keeps the tally, and cuts the second run if it is the one to
    stop at. -/
theorem stopping_emit (p : (stopping start k kind).tie.Place) {b e : List Token → SessionM Flow}
    (hb : ∀ (q : (stopping start k kind).tie.Place) ts, Runs q (b ts) (e ts)) (text : Text)
    (mode : OutputMode) : Runs p (noteEmit b text mode) (emit e text mode) := by
  have H := stopping_basics start k kind
  have hserve : ∀ rs, InStep p (serveAll b rs) (serveAll e rs) :=
    H.scene.serveAll (H.refused p fun ts => (hb p ts).logs)
  have hemit : Runs p (emit b text mode) (emit e text mode) := by
    refine ⟨fun {w v} hr => ?_, logs_emit (fun rs => (hserve rs).logs) text mode⟩
    obtain ⟨h, ns, ms, ht, hd⟩ := hr
    have hheard := h.agree.heard
    by_cases hlisten : v.host.listening = true
    · rw [emit_of_listening _ _ _ hlisten,
        emit_of_listening _ _ _ (h.agree.listening.trans hlisten), ht.react, ht.stopping, ← hheard, Host.stopAt]
      dsimp only
      by_cases hk : w.host.heard = start.heard + k
      · rw [if_pos hk]
        exact stopping_here ⟨h, ns, ms, ht, hd⟩ hk (hserve _)
      · rw [if_neg hk]
        exact (hserve _).weaken.run (stopping_heard ⟨h, ns, ms, ht, hd⟩ text mode)
    · have hdeaf : v.host.listening = false := by simpa using hlisten
      rw [emit_of_deaf _ _ _ hdeaf, emit_of_deaf _ _ _ (h.agree.listening.trans hdeaf)]
      refine .ok ⟨Ledger.abreast_printed h text mode, ?_⟩
      rw [host_printed, host_printed]
      exact ⟨ns, ms, ht, hd⟩
  refine .noteEmit hemit ?_
  rintro f w v ⟨h, ns, ms, ht⟩
  exact .error ⟨{ h with agree := { h.agree with } }, _, ms, ht.jot_left rfl⟩

/-- A call keeps the tally, whether it is cut or not. -/
theorem stopping_call (d i : Nat) {m n : SessionM Flow}
    (hm : ∀ q : (stopping start k kind).tie.Place, Runs q m n) :
    Steps (T := (stopping start k kind).tie) false (d, i) (inCall m) n := by
  refine .inCall hm fun {w v} ⟨h, ns, ms, ht, hd⟩ => ⟨(d + 1, i), ?_, ?_, ?_, ?_⟩
  · refine ⟨{ h with agree := { h.agree with } }, _, ms, ht.jot_left rfl, ?_⟩
    rw [openCalls_append, hd]
    rfl
  · rintro w' v' ⟨h', ns', ms', ht', hd'⟩
    refine ⟨{ h' with agree := { h'.agree with } }, _, ms', ht'.jot_left rfl, ?_⟩
    rw [openCalls_append, hd']
    show ((d + 1 : Nat) : Int) + -1 = d
    omega
  · rintro f w' v' ⟨h', ns', ms', ht'⟩
    exact ⟨{ h' with agree := { h'.agree with } }, _, ms', ht'.jot_left rfl⟩
  · -- inside of a call the tie is given up, not cut
    rintro w' v' ⟨-, hd', -⟩
    exact absurd hd' (Nat.succ_ne_zero d)

end

/-- The ledger of a run and its stopped copy has all laws. -/
theorem stopping_laws (start : Host) (k : Nat) (kind : SurfaceKind) :
    (stopping start k kind).Laws where
  toBasics := stopping_basics start k kind
  emit := stopping_emit
  call := fun p => stopping_call p.1 p.2

/-! ## Whole runs -/

/-- A run that has said and told no more than another, and ends with a fault only
    if the other ends in the same way. -/
def Shortens (s r : EStateM.Result Fault World Unit) : Prop :=
  (∃ v, s = .ok () v ∧ texts v.host.notices.toList <+: texts (endOf r).host.notices.toList ∧
      complaints v.host.notices.toList <+: complaints (endOf r).host.notices.toList)
    ∨ ∃ f u v, s = .error f v ∧ r = .error f u ∧
      texts v.host.notices.toList = texts u.host.notices.toList ∧
      complaints v.host.notices.toList = complaints u.host.notices.toList ∧
      v.host.listening = u.host.listening

/-- At the start of a run nothing has been said, and no call is open. -/
theorem stopping_started {surface : Surface Number} {w : World} (hw : Reachable surface w)
    (k : Nat) :
    (stopping w.host k surface.kind).tie.rel ((0 : Nat), 0) (started w)
      (started (stoppedAt k w)) := by
  have hsettled := hw.settled
  have hagree : Agree (started w) (started (stoppedAt k w)) := { Agree.refl (started w) with }
  have hframes : w.store.locals.length = 0 := by rw [hsettled.rest.locals]; rfl
  refine ⟨⟨hagree, rfl, hframes, hsettled.sane, hsettled.kind⟩, [], [], ?_, rfl⟩
  exact ⟨rfl, rfl, rfl, (List.append_nil _).symm, (List.append_nil _).symm, rfl, rfl⟩

/-- A stopped run and the run that keeps a diary. -/
theorem stopped_shortens_diary {surface : Surface Number} {w : World} (hw : Reachable surface w)
    {limits : Limits} {code : Text} {k : Nat} (hk : ¬SaidInCall k (diary limits code w)) :
    Shortens (run limits code (stoppedAt k w))
      (runWith (diaryBlockAt limits.patience limits.depth) code w) := by
  have hidle := hw.settled.rest.running
  have hidle' : (stoppedAt k w).running = false := hidle
  cases hcode : Token.tokenize code with
  | error f =>
      rw [run, runWith_of_unreadable hidle' hcode, runWith_of_unreadable hidle hcode]
      exact Or.inr ⟨f, _, _, rfl, rfl, rfl, rfl, rfl⟩
  | ok ts =>
      have hlaws := (stopping_laws w.host k surface.kind).statements
      have hrun := (hlaws.block limits.patience limits.depth ((0 : Nat), 0) ts).run
        (stopping_started hw k)
      have hdiary : ∀ {ns}, (endOf (diaryBlockAt limits.patience limits.depth ts
          (started w))).host.notices.toList = w.host.notices.toList ++ ns →
          diary limits code w = ns := fun hns => diary_eq hidle hcode hns
      have hleft : (endOf (runWith (diaryBlockAt limits.patience limits.depth) code w)).host
          = (endOf (diaryBlockAt limits.patience limits.depth ts (started w))).host := by
        rw [endOf_runWith hidle hcode]
        rfl
      generalize hdiaryRun : diaryBlockAt limits.patience limits.depth ts (started w) = r
        at hrun hdiary hleft
      generalize hstopped : blockAtDepth limits.patience limits.depth ts
        (started (stoppedAt k w)) = s at hrun
      cases hrun with
      | lost hl =>
          -- the text would have been said inside a call for a value
          obtain ⟨ns, hns, hcall⟩ := hl
          rw [← hdiary hns] at hcall
          exact absurd hcall hk
      | ok hr =>
          obtain ⟨-, ns, ms, ht, -⟩ := hr
          obtain ⟨htexts, hcomplaints⟩ := ht.same
          refine Or.inl ⟨_, runWith_ok hidle' hcode hstopped, ?_, ?_⟩
          · rw [hleft, endOf_ok, htexts]
            exact List.prefix_refl _
          · rw [hleft, endOf_ok, hcomplaints]
            exact List.prefix_refl _
      | error hf =>
          obtain ⟨h, ns, ms, ht⟩ := hf
          obtain ⟨htexts, hcomplaints⟩ := ht.same
          exact Or.inr ⟨_, _, _, runWith_error hidle' hcode hstopped,
            runWith_error hidle hcode hdiaryRun, htexts.symm, hcomplaints.symm,
            h.agree.listening.symm⟩
      | cut _ hc =>
          obtain ⟨-, -, htexts, hcomplaints⟩ := hc
          refine Or.inl ⟨_, runWith_ok hidle' hcode hstopped, ?_, ?_⟩
          · rw [hleft]
            exact htexts
          · rw [hleft]
            exact hcomplaints

/-- A stopped run and the plain one. -/
theorem stopped_shortens {surface : Surface Number} {w : World} (hw : Reachable surface w)
    {limits : Limits} {code : Text} {k : Nat} (hk : ¬SaidInCall k (diary limits code w)) :
    Shortens (run limits code (stoppedAt k w)) (run limits code w) := by
  have hshort := stopped_shortens_diary hw hk
  have hsame : ∀ {u v : World}, plainNotes u = plainNotes v →
      texts u.host.notices.toList = texts v.host.notices.toList ∧
        complaints u.host.notices.toList = complaints v.host.notices.toList := by
    intro u v h
    rw [← texts_plain u.host.notices.toList, ← texts_plain v.host.notices.toList,
      ← complaints_plain u.host.notices.toList, ← complaints_plain v.host.notices.toList]
    exact ⟨congrArg texts h, congrArg complaints h⟩
  rcases run_of_diary limits code w with ⟨u, v, hu, hv, hs⟩ | ⟨f, u, v, hu, hv, hs⟩
  · obtain ⟨htexts, hcomplaints⟩ := hsame hs.notes
    rw [hu] at hshort
    rw [hv]
    rcases hshort with ⟨x, hx, htx, hcx⟩ | ⟨g, y, x, -, hy, -⟩
    · refine Or.inl ⟨x, hx, ?_, ?_⟩
      · rw [endOf_ok, ← htexts]
        exact htx
      · rw [endOf_ok, ← hcomplaints]
        exact hcx
    · cases hy
  · obtain ⟨htexts, hcomplaints⟩ := hsame hs.notes
    rw [hu] at hshort
    rw [hv]
    rcases hshort with ⟨x, hx, htx, hcx⟩ | ⟨g, y, x, hx, hy, htx, hcx, hlx⟩
    · refine Or.inl ⟨x, hx, ?_, ?_⟩
      · rw [endOf_error, ← htexts]
        exact htx
      · rw [endOf_error, ← hcomplaints]
        exact hcx
    · cases hy
      exact Or.inr ⟨f, v, x, hx, rfl, htx.trans htexts, hcx.trans hcomplaints,
        hlx.trans hs.agree.listening⟩

/-! ## What the host finds out -/

/-- A fault that is told is no text that is said. -/
theorem texts_told (message : Text) (w : World) :
    texts (told message w).host.notices.toList = texts w.host.notices.toList := by
  rw [told]
  split
  · rw [Array.toList_push, texts_append]
    exact List.append_nil _
  · rfl

/-- A host that listens has one complaint more. -/
theorem complaints_told (message : Text) (w : World) :
    complaints (told message w).host.notices.toList
      = complaints w.host.notices.toList ++ if w.host.listening then [message] else [] := by
  rw [told]
  split
  · rw [Array.toList_push, complaints_append]
    rfl
  · exact (List.append_nil _).symm

/-- Executing a program says the texts that running it says. -/
theorem texts_execute (limits : Limits) (code : Text) (w : World) :
    texts (endOf (execute limits code w)).host.notices.toList
      = texts (endOf (run limits code w)).host.notices.toList := by
  rw [execute, run]
  obtain hend | ⟨message, hend⟩ := endOf_executeWith (engine limits).block code w
  · rw [hend]
  · rw [hend, texts_told]

/-- Executing a program tells what running it tells, and perhaps more. -/
theorem complaints_execute (limits : Limits) (code : Text) (w : World) :
    complaints (endOf (run limits code w)).host.notices.toList
      <+: complaints (endOf (execute limits code w)).host.notices.toList := by
  rw [execute, run]
  obtain hend | ⟨message, hend⟩ := endOf_executeWith (engine limits).block code w
  · exact hend ▸ List.prefix_refl _
  · rw [hend, complaints_told]
    exact List.prefix_append _ _

/-- Stopping a program at its `k`-th text only cuts it short, if that text was
    not said inside a call for a value: what the host hears and what it is told
    is the beginning of what it would have heard and been told, and a fault comes
    out only if it would have come out anyway. -/
theorem stopping_cuts_short {surface : Surface Number} {w : World} (hw : Reachable surface w)
    (limits : Limits) (code : Text) (k : Nat) (hk : ¬SaidInCall k (diary limits code w)) :
    texts (endOf (execute limits code (stoppedAt k w))).host.notices.toList
        <+: texts (endOf (execute limits code w)).host.notices.toList
      ∧ complaints (endOf (execute limits code (stoppedAt k w))).host.notices.toList
        <+: complaints (endOf (execute limits code w)).host.notices.toList
      ∧ (∀ f v, run limits code (stoppedAt k w) = .error f v → ∃ u, run limits code w = .error f u)
      ∧ (∀ v, execute limits code (stoppedAt k w) = .ok false v →
        ∃ u, execute limits code w = .ok false u)
      ∧ ∀ f v, execute limits code (stoppedAt k w) = .error f v →
        ∃ u, execute limits code w = .error f u := by
  rw [texts_execute, texts_execute]
  rcases stopped_shortens hw hk with ⟨v, hrun, htexts, hcomplaints⟩ |
    ⟨f, u, v, hrun, hrun', htexts, hcomplaints, hlisten⟩
  · have hexecute : execute limits code (stoppedAt k w) = .ok true v := executeWith_ok hrun
    rw [hrun, hexecute]
    refine ⟨htexts, hcomplaints.trans (complaints_execute limits code w), ?_, ?_, ?_⟩
    · intro f x hx
      cases hx
    · intro x hx
      cases hx
    · intro f x hx
      cases hx
  · -- both runs end with the same fault, and the host is told about it in both or in none
    rw [hrun, hrun', endOf_error, endOf_error, htexts]
    refine ⟨List.prefix_refl _, ?_⟩
    cases hf : f.isFriendly with
    | true =>
        have hstopped : execute limits code (stoppedAt k w) = .ok false (told f.message v) :=
          executeWith_friendly hrun hf
        have hplain : execute limits code w = .ok false (told f.message u) :=
          executeWith_friendly hrun' hf
        rw [hstopped, hplain, endOf_ok, endOf_ok, complaints_told, complaints_told, hcomplaints,
          hlisten]
        refine ⟨List.prefix_refl _, ?_, fun x _ => ⟨_, rfl⟩, ?_⟩
        · intro g x hx
          cases hx
          exact ⟨u, rfl⟩
        · intro g x hx
          cases hx
    | false =>
        have hstopped : execute limits code (stoppedAt k w) = .error f v :=
          executeWith_unfriendly hrun hf
        have hplain : execute limits code w = .error f u := executeWith_unfriendly hrun' hf
        rw [hstopped, hplain, endOf_error, endOf_error, hcomplaints]
        refine ⟨List.prefix_refl _, ?_, ?_, ?_⟩
        · intro g x hx
          cases hx
          exact ⟨u, rfl⟩
        · intro x hx
          cases hx
        · intro g x hx
          cases hx
          exact ⟨u, rfl⟩

/-- Where nothing is called for its value, every text is said outside of such
    calls. -/
theorem not_saidInCall {ns : List Notice} (h : ns.all (fun n => !n matches .called) = true)
    (k : Nat) : ¬SaidInCall k ns := by
  rintro ⟨before, text, mode, more, rfl, -, hopen⟩
  rw [List.all_append, Bool.and_eq_true] at h
  have hcalls : before.countP (fun
      | .called => true
      | _ => false) = 0 := by
    refine List.countP_eq_zero.2 fun n hn => ?_
    have hnot := List.all_eq_true.1 h.1 n hn
    cases n with
    | called => cases hnot
    | _ => simp
  rw [openCalls, hcalls] at hopen
  omega

/-- The law at a loop that is stopped at its second text. -/
theorem stopping_cuts_short_repeat : ∃ w, quietSession = .ok w ∧
    texts (endOf (execute ⟨40, 5⟩ "REPEAT 3 [PRINT REPCOUNT]" (stoppedAt 1 w))).host.notices.toList
      <+: texts (endOf (execute ⟨40, 5⟩ "REPEAT 3 [PRINT REPCOUNT]" w)).host.notices.toList := by
  obtain ⟨w, hnew, htried⟩ := quietSession_of (P := fun w =>
    (diary ⟨40, 5⟩ "REPEAT 3 [PRINT REPCOUNT]" w).all fun n => !n matches .called)
    (by decide +kernel)
  exact ⟨w, hnew, (stopping_cuts_short (.new hnew) ⟨40, 5⟩ _ 1 (not_saidInCall htried 1)).1⟩

/-- A program that is stopped inside a call for a value may say what it would not
    have said. -/
theorem stopped_in_call : ∃ w, quietSession = .ok w ∧
    ¬texts (endOf (execute ⟨60, 5⟩ "TO F PRINT \"a OUTPUT 5 END PRINT F"
        (stoppedAt 0 w))).host.notices.toList
      <+: texts (endOf (execute ⟨60, 5⟩ "TO F PRINT \"a OUTPUT 5 END PRINT F"
        w)).host.notices.toList := by
  obtain ⟨w, hnew, htried⟩ := quietSession_of (P := fun w =>
    !(texts (endOf (execute ⟨60, 5⟩ "TO F PRINT \"a OUTPUT 5 END PRINT F"
        (stoppedAt 0 w))).host.notices.toList).isPrefixOf
      (texts (endOf (execute ⟨60, 5⟩ "TO F PRINT \"a OUTPUT 5 END PRINT F" w)).host.notices.toList))
    (by decide +kernel)
  refine ⟨w, hnew, fun hprefix => ?_⟩
  rw [List.isPrefixOf_iff_prefix.2 hprefix] at htried
  cases htried

end Session

end TurtleLogo
