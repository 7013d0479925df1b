import Mathlib.Data.List.Nodup
import TurtleLogo.Proofs.Capitals
import TurtleLogo.Proofs.Underway

/-! # One meaning for each word

    At the head of a statement a word is looked up among the forms, the commands
    and the procedures, inside an expression among the functions, the readers and
    the procedures.  That both agree, and that the order does not matter, rests
    on two facts: no word is built in twice (`Vocabulary.meanings_unique`), and no
    procedure is ever defined under a word that is built in, whatever programs do
    (`Underway.lawful`). -/

namespace TurtleLogo

/-- What a word may stand for. -/
inductive Meaning where
  | form (f : Form)
  | command (c : Command)
  | function (f : Function)
  | reader (r : Reader)
  | procedure (p : Procedure)

/-! ## Built-in words -/

namespace Vocabulary

/-- The meanings of all built-in words. -/
def meanings : List (Text × Meaning) :=
  Command.table.map (Prod.map id .command) ++ Form.table.map (Prod.map id .form)
    ++ Function.table.map (Prod.map id .function) ++ Reader.table.map (Prod.map id .reader)

/-- The table of meanings is one of all built-in words. -/
theorem meanings_names : meanings.map (·.1) = names := by
  simp only [meanings, names, List.map_append, List.map_map]
  rfl

/-- No word is built in twice, as the numbers show that its characters make. -/
theorem nodup_names : names.Nodup := by
  refine List.Nodup.of_map (fun name => name.foldl (fun n c => 256 * n + c.toNat) 0) ?_
  decide +kernel

/-- Built-in words are in capitals. -/
theorem upper_names : ∀ name ∈ names, Text.upper name = name := by decide +kernel

/-- A built-in word has one meaning. -/
theorem meanings_unique {name : Text} {m m' : Meaning} (h : (name, m) ∈ meanings)
    (h' : (name, m') ∈ meanings) : m = m' := by
  have hnodup : (meanings.map (·.1)).Nodup := by
    rw [meanings_names]
    exact nodup_names
  exact congrArg Prod.snd (List.inj_on_of_nodup_map hnodup h h' rfl)

/-- What is found in a table stands in it. -/
theorem mem_of_lookup {α : Type} {table : List (Text × α)} {name : Text} {a : α}
    (h : table.lookup name = some a) : (name, a) ∈ table := by
  obtain ⟨before, after, htable, -⟩ := List.lookup_eq_some_iff.1 h
  rw [htable]
  exact List.mem_append_right _ List.mem_cons_self

/-- What is found in a table stands, with its meaning, in the table of meanings. -/
theorem mem_map_of_lookup {α : Type} {table : List (Text × α)} {name : Text} {a : α}
    (meaning : α → Meaning) (h : table.lookup name = some a) :
    (name, meaning a) ∈ table.map (Prod.map id meaning) :=
  List.mem_map_of_mem (f := Prod.map id meaning) (mem_of_lookup h)

/-- A word with a meaning is built in. -/
theorem mem_names_of_mem {name : Text} {m : Meaning} (h : (name, m) ∈ meanings) : name ∈ names := by
  rw [← meanings_names]
  exact List.mem_map_of_mem h

end Vocabulary

/-! ## Procedures -/

namespace Store

/-- A table of procedures in which each has a name of its own and may be called
    by it. -/
structure Lawful (s : Store) : Prop where
  distinct : (s.procedures.map (·.name)).Nodup
  definable : ∀ p ∈ s.procedures, p.Definable

/-- A store without procedures is lawful. -/
theorem lawful_empty : empty.Lawful := ⟨List.nodup_nil, fun _ h => nomatch h⟩

/-- Defining a procedure adds its name behind the others, unless it is there. -/
theorem names_defineIn (ps : List Procedure) (p : Procedure) :
    (defineIn ps p).map (·.name)
      = if p.name ∈ ps.map (·.name) then ps.map (·.name) else ps.map (·.name) ++ [p.name] := by
  induction ps with
  | nil => rfl
  | cons q ps ih =>
      rw [defineIn]
      by_cases hname : q.name = p.name
      · rw [if_pos (beq_iff_eq.2 hname), List.map_cons, List.map_cons, hname,
          if_pos List.mem_cons_self]
      · rw [if_neg (mt beq_iff_eq.1 hname), List.map_cons, List.map_cons, ih]
        simp only [List.mem_cons, Ne.symm hname, false_or]
        split <;> rfl

/-- A store stays lawful when a procedure is defined that may be. -/
theorem Lawful.define {s : Store} (h : s.Lawful) {p : Procedure} (hp : p.Definable) :
    (s.define p).Lawful := by
  refine ⟨?_, fun q hq => ?_⟩
  · show ((defineIn s.procedures p).map (·.name)).Nodup
    rw [names_defineIn]
    split
    · exact h.distinct
    · rename_i hnew
      exact List.nodup_append.2 ⟨h.distinct, List.nodup_singleton _, by
        rintro a ha b hb rfl
        exact hnew (List.mem_singleton.1 hb ▸ ha)⟩
  · obtain rfl | hq := mem_define hq
    · exact hp
    · exact h.definable q hq

/-- A procedure is found under its own name. -/
theorem Lawful.find?_self {s : Store} (h : s.Lawful) {p : Procedure} (hp : p ∈ s.procedures) :
    s.procedures.find? (·.name == p.name) = some p := by
  cases hfind : s.procedures.find? (·.name == p.name) with
  | none => exact absurd (beq_self_eq_true p.name) (List.find?_eq_none.1 hfind p hp)
  | some q =>
      have hname : q.name = p.name := by simpa using List.find?_some hfind
      exact congrArg some
        (List.inj_on_of_nodup_map h.distinct (List.mem_of_find?_eq_some hfind) hp hname)

/-- The procedure that a word calls is not built in, and the word in capitals is
    its name. -/
theorem Lawful.procedure? {s : Store} (h : s.Lawful) {name : Text} {p : Procedure}
    (hp : s.procedure? name = some p) :
    p.name = Text.upper name ∧ Vocabulary.isBuiltin p.name = false := by
  have hname : p.name = Text.upper name := by
    simpa using List.find?_some (show s.procedures.find? (·.name == Text.upper name) = some p from hp)
  exact ⟨hname, (h.definable p (List.mem_of_find?_eq_some hp)).free⟩

/-- That a word stands for something. -/
inductive Means (s : Store) (name : Text) : Meaning → Prop where
  | form {f : Form} (h : Form.ofName? name = some f) : Means s name (.form f)
  | command {c : Command} (h : Command.ofName? name = some c) : Means s name (.command c)
  | function {f : Function} (h : Function.ofName? name = some f) : Means s name (.function f)
  | reader {r : Reader} (h : Reader.ofName? name = some r) : Means s name (.reader r)
  | procedure {p : Procedure} (h : s.procedure? name = some p) : Means s name (.procedure p)

/-- A word is built in, or it calls a procedure. -/
theorem Means.cases_on {s : Store} {name : Text} {m : Meaning} (h : s.Means name m) :
    ((name, m) ∈ Vocabulary.meanings ∧ Vocabulary.isBuiltin name = true)
      ∨ ∃ p, m = .procedure p ∧ s.procedure? name = some p := by
  cases h with
  | form h =>
      refine .inl ⟨?_, by simp [Vocabulary.isBuiltin, h]⟩
      exact List.mem_append_left _ (List.mem_append_left _
        (List.mem_append_right _ (Vocabulary.mem_map_of_lookup .form h)))
  | command h =>
      refine .inl ⟨?_, by simp [Vocabulary.isBuiltin, h]⟩
      exact List.mem_append_left _ (List.mem_append_left _
        (List.mem_append_left _ (Vocabulary.mem_map_of_lookup .command h)))
  | function h =>
      refine .inl ⟨?_, by simp [Vocabulary.isBuiltin, h]⟩
      exact List.mem_append_left _
        (List.mem_append_right _ (Vocabulary.mem_map_of_lookup .function h))
  | reader h =>
      refine .inl ⟨?_, by simp [Vocabulary.isBuiltin, h]⟩
      exact List.mem_append_right _ (Vocabulary.mem_map_of_lookup .reader h)
  | procedure h => exact .inr ⟨_, rfl, h⟩

/-- No word has two meanings. -/
theorem Lawful.means_unique {s : Store} (hs : s.Lawful) {name : Text} {m m' : Meaning}
    (h : s.Means name m) (h' : s.Means name m') : m = m' := by
  -- built-in words are in capitals, so that they could only call a procedure of that very name
  have hnone : ∀ {m : Meaning} {p : Procedure},
      (name, m) ∈ Vocabulary.meanings → Vocabulary.isBuiltin name = true →
      s.procedure? name ≠ some p := by
    intro m p hm hbuiltin hp
    obtain ⟨hname, hfree⟩ := hs.procedure? hp
    rw [Vocabulary.upper_names name (Vocabulary.mem_names_of_mem hm)] at hname
    rw [hname, hbuiltin] at hfree
    cases hfree
  obtain ⟨hm, hbuiltin⟩ | ⟨p, rfl, hp⟩ := h.cases_on
  · obtain ⟨hm', -⟩ | ⟨q, rfl, hq⟩ := h'.cases_on
    · exact Vocabulary.meanings_unique hm hm'
    · exact absurd hq (hnone hm hbuiltin)
  · obtain ⟨hm', hbuiltin⟩ | ⟨q, rfl, hq⟩ := h'.cases_on
    · exact absurd hp (hnone hm' hbuiltin)
    · rw [hp] at hq
      cases hq
      rfl

end Store

/-! ## Calls -/

namespace Session

/-- The value of a call whose procedure has ended so. -/
def outcome : Option Signal → Value
  | some (.output v) => v
  | _ => .nothing

/-- The call of a procedure as a statement. -/
def callStatement (E : Engine) (p : Procedure) (ts : List Token) : SessionM Flow := do
  let r ← arguments E p.params.length ts
  let _ ← invoke E p r.1
  pure (.done r.2)

/-- The call of a procedure inside an expression. -/
def callValue (E : Engine) (p : Procedure) (ts : List Token) : SessionM Reading := do
  let r ← arguments E p.params.length ts
  let ended ← invoke E p r.1
  pure (outcome ended, r.2)

/-- A word that calls a procedure calls it at the head of a statement and inside
    an expression. -/
theorem word_calls {w : World} (hw : w.store.Lawful) {name : Text} {p : Procedure}
    (hp : w.store.procedure? name = some p) (E : Engine) (patience : Nat) (ts : List Token) :
    wordStatement E patience name ts w = callStatement E p ts w
      ∧ wordValue E name ts w = callValue E p ts w := by
  have hnone : ∀ {m : Meaning}, w.store.Means name m → m = .procedure p :=
    fun hm => hw.means_unique hm (.procedure hp)
  have hform : Form.ofName? name = none := by
    rw [Option.eq_none_iff_forall_ne_some]
    intro f hf
    cases hnone (.form hf)
  have hcommand : Command.ofName? name = none := by
    rw [Option.eq_none_iff_forall_ne_some]
    intro c hc
    cases hnone (.command hc)
  have hfunction : Function.ofName? name = none := by
    rw [Option.eq_none_iff_forall_ne_some]
    intro f hf
    cases hnone (.function hf)
  have hreader : Reader.ofName? name = none := by
    rw [Option.eq_none_iff_forall_ne_some]
    intro r hr
    cases hnone (.reader hr)
  have hstore : store w = .ok w.store w := rfl
  refine ⟨?_, ?_⟩
  · rw [wordStatement, hform, hcommand]
    refine (bind_of_ok hstore).trans ?_
    rw [hp]
    rfl
  · rw [wordValue, hfunction, hreader]
    refine (bind_of_ok hstore).trans ?_
    rw [hp]
    refine congrFun (bind_congr fun r => bind_congr fun ended => ?_) w
    obtain _ | _ | v := ended <;> rfl

/-! ## Definitions -/

/-- What happens on the canvas leaves the names. -/
theorem store_onCanvas {β : Type} (act : CanvasM Number β) (w : World) :
    (endOf (onCanvas act w)).store = w.store := by
  obtain ⟨d, j, hend⟩ := endOf_onCanvas act w
  rw [hend]

/-- Whether a store is lawful only depends on its procedures. -/
theorem lawful_of_procedures {s t : Store} (h : t.procedures = s.procedures) (hs : s.Lawful) :
    t.Lawful :=
  ⟨by rw [h]; exact hs.distinct, by rw [h]; exact hs.definable⟩

/-- That the table of procedures is lawful. -/
def lawfulness : Invariant where
  holds w := w.store.Lawful
  aside hprocedures _ _ := lawful_of_procedures hprocedures
  defines _ _ hp h := h.define hp

/-- What happens on the canvas defines nothing. -/
theorem lawful_canvas {β : Type} (act : CanvasM Number β) : lawfulness.conduct.Keeps (onCanvas act) := by
  intro w _
  exact lawful_of_procedures (congrArg Store.procedures (store_onCanvas act w))

/-- Wherever a session is, its table of procedures is lawful. -/
theorem Underway.lawful {surface : Surface Number} {w : World} (h : Underway surface w) :
    w.store.Lawful := by
  have hall : Canvas.OfTurtles fun _ _ => True :=
    ⟨fun _ _ => trivial, fun _ _ => trivial, fun _ _ _ _ => trivial, fun _ _ _ _ => trivial,
      fun _ _ _ _ => trivial, fun _ _ => trivial⟩
  refine Underway.invariant lawfulness hall (fun {_ act} _ => lawful_canvas act) ?_ ?_ h
  · exact .bind (fun _ _ _ => Store.lawful_empty) fun _ => lawful_canvas _
  · intro pacer host w hnew
    obtain ⟨c, -, hw⟩ := Except.bind_eq_ok hnew
    cases hw
    exact Store.lawful_empty

/-- Wherever a session is, every procedure is found under its own name, which is
    not built in, and its parameters are in capitals.  So no word has two
    meanings; a word that calls a procedure calls the same one at the head of a
    statement and inside an expression; and for the words of a program that is
    the one that is named so. -/
theorem procedures_unshadowed {surface : Surface Number} {w : World} (h : Underway surface w) :
    (∀ p ∈ w.store.procedures, w.store.procedures.find? (·.name == p.name) = some p
        ∧ Vocabulary.isBuiltin p.name = false ∧ ∀ key ∈ p.params, Text.upper key = key)
      ∧ (∀ name m m', w.store.Means name m → w.store.Means name m' → m = m')
      ∧ (∀ name p, w.store.procedure? name = some p → ∀ E patience ts,
        wordStatement E patience name ts w = callStatement E p ts w
          ∧ wordValue E name ts w = callValue E p ts w)
      ∧ ∀ code ts name, Token.tokenize code = .ok ts → .word name ∈ ts →
        w.store.procedure? name = w.store.procedures.find? (·.name == name) := by
  have hlawful := h.lawful
  refine ⟨fun p hp => ⟨hlawful.find?_self hp, (hlawful.definable p hp).free, fun key hkey => ?_⟩,
    fun _ _ _ => hlawful.means_unique, fun _ _ hp => word_calls hlawful hp,
    fun code ts name hcode hname => ?_⟩
  · obtain ⟨name, rfl⟩ := (hlawful.definable p hp).capital key hkey
    exact Text.upper_upper name
  · rw [Store.procedure?, Token.upper_word hcode hname]

/-- A procedure that defines another one, and itself anew. -/
theorem procedures_unshadowed_nested : ∃ w v, quietSession = .ok w
    ∧ v = endOf (HostCall.act ⟨40, 5⟩ (.run "to f :x to g end to F :ab OP :AB end end f 1") w)
    ∧ v.store.procedures.map (fun p => (p.name, p.params))
      = [(("F" : Text), [("AB" : Text)]), ("G", [])]
    ∧ ∀ p, v.store.procedure? "f" = some p → ∀ ts,
      wordStatement (engine ⟨40, 5⟩) 5 "f" ts v = callStatement (engine ⟨40, 5⟩) p ts v
        ∧ wordValue (engine ⟨40, 5⟩) "f" ts v = callValue (engine ⟨40, 5⟩) p ts v := by
  let after : World → World := fun w =>
    endOf (HostCall.act ⟨40, 5⟩ (.run "to f :x to g end to F :ab OP :AB end end f 1") w)
  obtain ⟨w, hnew, hdefined⟩ := quietSession_of (P := fun w =>
    (after w).store.procedures.map (fun p => (p.name, p.params))
      == [(("F" : Text), [("AB" : Text)]), ("G", [])])
    (by decide +kernel)
  have hunderway : Underway _ (after w) := (Underway.new hnew).call ⟨40, 5⟩ _
  obtain ⟨-, -, hcalls, -⟩ := procedures_unshadowed hunderway
  exact ⟨w, after w, hnew, rfl, by simpa using hdefined, fun p hp => hcalls "f" p hp _ _⟩

end Session

end TurtleLogo
