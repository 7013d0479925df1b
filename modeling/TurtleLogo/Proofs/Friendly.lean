import TurtleLogo.Proofs.Ledger
import TurtleLogo.Proofs.Rest

/-! # What comes out of a run

    On a recording surface, with a host whose reactions do not fail, a run ends
    well or with a friendly fault, which the host is told once
    (`execute_friendly`).  Only two faults pass through: a whole number with too
    many digits in the text, and a turtle that `TELL` or `ASK` is to choose by a
    list in a list.  The diary of the run tells when the latter happens. -/

namespace TurtleLogo.Session

/-! ## What a host is told -/

/-- The number of programs that a host has asked for. -/
def refusals (ns : List Notice) : Nat :=
  ns.countP fun
    | .nested _ => true
    | _ => false

/-- Whether a turtle was to be chosen by a list in a list. -/
def choosesList (ns : List Notice) : Bool :=
  ns.any fun
    | .chose (.list (.list _ :: _)) => true
    | _ => false

/-- A notice that tells the host about no fault and no program of its own. -/
def isQuiet : Notice → Bool
  | .error _ | .nested _ => false
  | _ => true

/-- Quiet notices hold no complaint. -/
theorem complaints_quiet {ns : List Notice} (h : ∀ n ∈ ns, isQuiet n = true) :
    complaints ns = [] := by
  refine List.filterMap_eq_nil_iff.2 fun n hn => ?_
  have hq := h n hn
  cases n with
  | error m => cases hq
  | nested ok => cases hq
  | _ => rfl

/-- Quiet notices hold no refusal. -/
theorem refusals_quiet {ns : List Notice} (h : ∀ n ∈ ns, isQuiet n = true) : refusals ns = 0 := by
  refine List.countP_eq_zero.2 fun n hn => ?_
  have hq := h n hn
  cases n with
  | error m => cases hq
  | nested ok => cases hq
  | _ => simp

theorem refusals_append (ns ms : List Notice) :
    refusals (ns ++ ms) = refusals ns + refusals ms := List.countP_append

/-- What has passed to the hosts since the start of a run. -/
structure Orderly (start : Host) (ns : List Notice) (h k : Host) : Prop where
  react : h.react = k.react
  listening : k.listening = start.listening
  notes : h.notices.toList = start.notices.toList ++ ns
  told : complaints ns
    = if start.listening then List.replicate (refusals ns) (Fault.message .busy) else []

/-- What may end a run in which some turtles were chosen. -/
def Excused (f : Fault) (ns : List Notice) : Prop :=
  (choosesList ns = false ∧ (f.Tame ∨ f = .outOfPatience))
    ∨ (choosesList ns = true ∧ f = .listAsTurtle)

namespace Orderly

variable {start h k : Host} {ns : List Notice}

/-- Quiet notices change nothing. -/
theorem quiet {ms : List Notice} {h' k' : Host} (ho : Orderly start ns h k)
    (hms : ∀ n ∈ ms, isQuiet n = true) (hh : h'.react = h.react) (hk : k'.react = k.react)
    (hl : k'.listening = k.listening) (hn : h'.notices.toList = h.notices.toList ++ ms) :
    Orderly start (ns ++ ms) h' k' where
  react := hh.trans (ho.react.trans hk.symm)
  listening := hl.trans ho.listening
  notes := by rw [hn, ho.notes, List.append_assoc]
  told := by
    rw [complaints_append, refusals_append, complaints_quiet hms, refusals_quiet hms,
      List.append_nil, Nat.add_zero]
    exact ho.told

/-- A quiet notice is noted on both sides. -/
theorem jot {n : Notice} (ho : Orderly start ns h k) (hn : isQuiet n = true) :
    Orderly start (ns ++ [n]) (h.jot n) k :=
  ho.quiet (fun m hm => by rw [List.mem_singleton.1 hm]; exact hn) rfl rfl rfl Array.toList_push

/-- A refusal of a program leaves the ledger in order. -/
theorem refuse (ho : Orderly start ns h k) (hl : h.listening = k.listening) :
    ∃ ms, choosesList ms = false ∧ Orderly start (ns ++ ms) h.refuse k.refuse := by
  have hstart := hl.trans ho.listening
  cases hs : start.listening with
  | true =>
      refine ⟨[.error (Fault.message .busy), .nested false], rfl, ?_⟩
      rw [hs] at hstart
      refine ⟨?_, ?_, ?_, ?_⟩
      · rw [Host.refuse, Host.refuse, ← hl, if_pos hstart, if_pos hstart]
        exact ho.react
      · rw [Host.refuse, ← hl, if_pos hstart]
        exact ho.listening
      · rw [Host.refuse, if_pos hstart]
        simp [Host.jot, ho.notes]
      · have htold := ho.told
        rw [hs, if_pos rfl] at htold
        rw [complaints_append, refusals_append, htold, hs, if_pos rfl]
        exact (List.replicate_succ' ..).symm
  | false =>
      refine ⟨[.nested false], rfl, ?_⟩
      rw [hs] at hstart
      have hno : ¬h.listening = true := by rw [hstart]; simp
      refine ⟨?_, ?_, ?_, ?_⟩
      · rw [Host.refuse, Host.refuse, ← hl, if_neg hno, if_neg hno]
        exact ho.react
      · rw [Host.refuse, ← hl, if_neg hno]
        exact ho.listening
      · rw [Host.refuse, if_neg hno]
        simp [Host.jot, ho.notes]
      · have htold := ho.told
        rw [hs] at htold
        rw [complaints_append, htold, hs]
        rfl

end Orderly

/-- The ledger of a run that starts with a host; the tie is given up when a
    reaction has failed. -/
def friendly (start : Host) : Ledger where
  Mark := Unit
  kind := .recording
  rel _ h k := ∃ ns, Orderly start ns h k ∧ choosesList ns = false
  fails _ f h k := ∃ ns, Orderly start ns h k ∧ Excused f ns
  lost h := ∃ ns f, h.notices.toList = start.notices.toList ++ ns ∧ .raised f ∈ ns
  cut _ _ _ := False
  lost_of_noted := by
    rintro h k ⟨more, hmore⟩ ⟨ns, f, hns, hf⟩
    exact ⟨ns ++ more, f, by rw [← hmore, hns, List.append_assoc], List.mem_append_left _ hf⟩
  cut_of_noted _ h := h

/-- What a host, if it listens, has been told between two worlds besides that
    its own programs are refused. -/
def Heard (w u : World) (more : List Text) : Prop :=
  ∃ k, refusals u.host.notices.toList = refusals w.host.notices.toList + k ∧
    complaints u.host.notices.toList = complaints w.host.notices.toList
      ++ if w.host.listening then List.replicate k (Fault.message .busy) ++ more else []

/-- While the ledger is in order, the host has heard of no fault. -/
theorem Orderly.heard {w u : World} {ns : List Notice} {k : Host}
    (ho : Orderly w.host ns u.host k) : Heard w u [] := by
  refine ⟨refusals ns, by rw [ho.notes, refusals_append], ?_⟩
  rw [ho.notes, complaints_append, ho.told]
  simp only [List.append_nil]

/-- A fault that is told is heard once, after that. -/
theorem Heard.told {w u : World} (h : Heard w u []) (hl : u.host.listening = w.host.listening)
    (message : Text) : Heard w (told message u) [message] := by
  obtain ⟨k, hrefusals, hcomplaints⟩ := h
  rw [Session.told]
  by_cases hlisten : u.host.listening = true
  · have hw := hl.symm.trans hlisten
    rw [if_pos hlisten]
    refine ⟨k, ?_, ?_⟩
    · rw [Array.toList_push, refusals_append, hrefusals]
      rfl
    · rw [Array.toList_push, complaints_append, hcomplaints, hw]
      simp [complaints]
  · have hw : ¬w.host.listening = true := by rw [← hl]; exact hlisten
    rw [if_neg hlisten]
    refine ⟨k, hrefusals, ?_⟩
    rw [hcomplaints, if_neg hw, if_neg hw]

end TurtleLogo.Session
