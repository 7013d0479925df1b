import TurtleLogo.Proofs.Delimiters

/-! # Definitions

    `TO` takes a name, the variables behind it and the tokens up to the `END`
    that belongs to it:

    * the parameters are the longest run of variables (`takeParams_eq`);
    * the `END` is the one that the counting of `Delimiters` finds, whatever
      brackets stand around it (`definition_ends`);
    * the table of procedures takes the new one in the place of an older one of
      its name, or else behind all others (`enters_defineIn`).

    A list in a definition is therefore not cut exactly if the words `TO` and
    `END` in it belong together (`list_kept_iff`). -/

namespace TurtleLogo

open Delimiters

/-- Whether a token is a variable. -/
def Token.isVariable : Token → Bool
  | .varref _ => true
  | _ => false

namespace Store

/-- How a procedure comes into a table of procedures: in the place of the older one
    of its name, or behind all others if there is none. -/
inductive Enters (p : Procedure) : List Procedure → List Procedure → Prop where
  | replacing {before after : List Procedure} {q : Procedure} (hname : q.name = p.name)
      (hbefore : ∀ r ∈ before, r.name ≠ p.name) :
      Enters p (before ++ q :: after) (before ++ p :: after)
  | joining {ps : List Procedure} (h : ∀ q ∈ ps, q.name ≠ p.name) : Enters p ps (ps ++ [p])

/-- A definition enters a procedure in the table. -/
theorem enters_defineIn (ps : List Procedure) (p : Procedure) : Enters p ps (defineIn ps p) := by
  induction ps with
  | nil => exact .joining (List.forall_mem_nil _)
  | cons q ps ih =>
      rw [defineIn]
      by_cases hname : q.name = p.name
      · rw [if_pos (beq_iff_eq.2 hname)]
        show Enters p ([] ++ q :: ps) ([] ++ p :: ps)
        exact .replacing hname (List.forall_mem_nil _)
      · rw [if_neg (mt beq_iff_eq.1 hname)]
        -- the rest of the table takes it in either way, and this entry stays in front
        generalize defineIn ps p = table at ih
        cases ih with
        | @replacing before after r hr hbefore =>
            show Enters p (q :: before ++ r :: after) (q :: before ++ p :: after)
            exact .replacing hr (List.forall_mem_cons.2 ⟨hname, hbefore⟩)
        | joining h => exact .joining (List.forall_mem_cons.2 ⟨hname, h⟩)

end Store

namespace Session

/-- The parameters are the longest run of variables. -/
theorem takeParams_eq (ts : List Token) :
    takeParams ts = ((ts.takeWhile Token.isVariable).map fun t => Text.upper t.spelling,
      ts.dropWhile Token.isVariable) := by
  induction ts with
  | nil => rfl
  | cons t ts ih =>
      cases t with
      | varref name =>
          rw [takeParams, ih]
          rfl
      | _ => rfl

/-- Variables before anything else are the parameters. -/
theorem takeParams_append (names : List Text) {ts : List Token}
    (h : ∀ key, ts.head? ≠ some (.varref key)) :
    takeParams (names.map .varref ++ ts) = (names.map Text.upper, ts) := by
  induction names with
  | nil =>
      cases ts with
      | nil => rfl
      | cons t ts =>
          cases t with
          | varref key => exact absurd rfl (h key)
          | _ => rfl
  | cons name names ih =>
      rw [List.map_cons, List.cons_append, takeParams, ih]
      rfl

section

variable {name : Text} (hname : Vocabulary.isBuiltin name = false) {ts : List Token}
  (E : Engine) (patience : Nat) (w : World)
include hname

/-- What `TO` does with what it finds. -/
theorem statement_to : statement E patience (.word "TO" :: .word name :: ts) w
    = match definition.split 0 (takeParams ts).2 with
      | none => .error (.missingEnd name) w
      | some (body, rest) =>
          .ok (.done rest) { w with store := w.store.define ⟨name, (takeParams ts).1, body⟩ } := by
  show defineProcedure (.word name :: ts) w = _
  rw [defineProcedure]
  simp only [hname, splitEnd_eq]
  cases definition.split (0 : Nat) (takeParams ts).2 <;> rfl

/-- A definition that is closed is made, and nothing else happens. -/
theorem statement_to_closed {k : Nat} (h : definition.ClosedAt (takeParams ts).2 k) :
    ∃ table,
      Store.Enters ⟨name, (takeParams ts).1, (takeParams ts).2.take k⟩ w.store.procedures table
        ∧ statement E patience (.word "TO" :: .word name :: ts) w
          = .ok (.done ((takeParams ts).2.drop (k + 1)))
            { w with store := { w.store with procedures := table } } := by
  refine ⟨_, Store.enters_defineIn _ _, ?_⟩
  rw [statement_to hname, split_eq_some_iff.2 ⟨k, h, rfl, rfl⟩]
  rfl

/-- A definition without its `END` is a fault, and nothing is defined. -/
theorem statement_to_open (h : ¬∃ k, definition.ClosedAt (takeParams ts).2 k) :
    statement E patience (.word "TO" :: .word name :: ts) w = .error (.missingEnd name) w := by
  rw [statement_to hname, split_eq_none_iff.2 h]

/-- `TO` finds its `END`.  The parameters of a definition are the longest run of
    variables behind its name.  Behind them the first `END` that brings the count
    of open definitions, from one, to zero ends it: the tokens up to there are
    stored under the name, in the place of an older procedure of that name or else
    behind all others, the tokens after it come next, and nothing else changes.
    If there is no such `END` the definition fails, and all is as it was.  So what
    is stored is just the body, if `TO` and `END` in it belong together and it does
    not begin with a variable. -/
theorem definition_ends (ts : List Token) :
    (∀ k, IsLeast (definition.endings (ts.dropWhile Token.isVariable)) k →
        ∃ table, Store.Enters
            ⟨name, (ts.takeWhile Token.isVariable).map fun t => Text.upper t.spelling,
              (ts.dropWhile Token.isVariable).take k⟩ w.store.procedures table
          ∧ statement E patience (.word "TO" :: .word name :: ts) w
            = .ok (.done ((ts.dropWhile Token.isVariable).drop (k + 1)))
              { w with store := { w.store with procedures := table } })
      ∧ (definition.endings (ts.dropWhile Token.isVariable) = ∅ →
        statement E patience (.word "TO" :: .word name :: ts) w = .error (.missingEnd name) w
          ∧ (Fault.missingEnd name).kind = .parse)
      ∧ ∀ (names : List Text) (body more : List Token), definition.Balanced body →
        (∀ key, body.head? ≠ some (.varref key)) →
        ∃ table, Store.Enters ⟨name, names.map Text.upper, body⟩ w.store.procedures table
          ∧ statement E patience
              (.word "TO" :: .word name :: (names.map .varref ++ (body ++ .word "END" :: more))) w
            = .ok (.done more) { w with store := { w.store with procedures := table } } := by
  have hparams := takeParams_eq ts
  have hrest : (takeParams ts).2 = ts.dropWhile Token.isVariable := congrArg Prod.snd hparams
  refine ⟨fun k hk => ?_, fun hnone => ⟨?_, rfl⟩, fun names body more hbody hhead => ?_⟩
  · have hclosed := isLeast_iff.1 hk
    rw [← hrest] at hclosed
    have hdefined := statement_to_closed hname E patience w hclosed
    rw [hparams] at hdefined
    exact hdefined
  · refine statement_to_open hname E patience w fun ⟨k, hk⟩ => ?_
    rw [hrest] at hk
    have hmem := hk.isLeast.1
    rw [hnone] at hmem
    exact hmem
  · -- the run of variables stops at the body, or at the `END` behind an empty one
    have hstart : ∀ key, (body ++ .word "END" :: more).head? ≠ some (.varref key) := by
      intro key
      cases body with
      | nil => rintro ⟨⟩
      | cons t body => exact hhead key
    have htaken := takeParams_append names hstart
    have hclosed : definition.ClosedAt
        (takeParams (names.map .varref ++ (body ++ .word "END" :: more))).2 body.length := by
      rw [htaken]
      exact closedAt_append hbody more
    have hdefined := statement_to_closed hname E patience w hclosed
    have hbefore : (body ++ .word "END" :: more).take body.length = body := List.take_left
    have hafter : (body ++ .word "END" :: more).drop (body.length + 1) = more := by
      rw [← List.drop_drop, List.drop_left, List.drop_one, List.tail_cons]
    rw [htaken, hbefore, hafter] at hdefined
    exact hdefined

end

/-- A definition in a definition, and one without an end. -/
theorem definition_ends_nested : ∃ w, quietSession = .ok w ∧ Vocabulary.isBuiltin "F" = false
    ∧ (∃ table,
      Store.Enters ⟨"F", [Text.upper "a"], [.word "TO", .word "G", .word "END"]⟩
          w.store.procedures table
        ∧ statement (engine ⟨40, 5⟩) 5
            [.word "TO", .word "F", .varref "a", .word "TO", .word "G", .word "END", .word "END",
              .word "CLEAN"] w
          = .ok (.done [.word "CLEAN"]) { w with store := { w.store with procedures := table } })
    ∧ statement (engine ⟨40, 5⟩) 5
        [.word "TO", .word "F", .word "TO", .word "G", .word "END", .word "CLEAN"] w
      = .error (.missingEnd "F") w := by
  obtain ⟨w, hnew, -⟩ := quietSession_of (P := fun _ => true) rfl
  have hname : Vocabulary.isBuiltin "F" = false := by decide +kernel
  have hbody : definition.Balanced [.word "TO", .word "G", .word "END"] := by decide +kernel
  have hopen : ¬∃ k, definition.ClosedAt
      [.word "TO", .word "G", .word "END", .word "CLEAN"] k := by decide +kernel
  obtain ⟨-, -, hdefines⟩ := definition_ends hname (engine ⟨40, 5⟩) 5 w []
  obtain ⟨-, hfails, -⟩ := definition_ends hname (engine ⟨40, 5⟩) 5 w
    [.word "TO", .word "G", .word "END", .word "CLEAN"]
  have hhead : ∀ key, [Token.word "TO", .word "G", .word "END"].head? ≠ some (.varref key) := by
    rintro key ⟨⟩
  refine ⟨w, hnew, hname, hdefines ["a"] _ [.word "CLEAN"] hbody hhead, (hfails ?_).1⟩
  exact Set.eq_empty_of_forall_notMem fun k hk => hopen (exists_closedAt hk)

/-- The body of a procedure that prints a list. -/
def printing (items : List Token) : List Token :=
  [.word "PRINT", .openBracket] ++ (items ++ [.closeBracket])

/-- A definition is balanced around a list exactly if the items are balanced. -/
theorem balanced_printing (items : List Token) :
    definition.Balanced (printing items) ↔ definition.Balanced items := by
  have hbefore : definition.Balanced [.word "PRINT", .openBracket] := by decide +kernel
  have hafter : definition.Balanced [.closeBracket] := by decide +kernel
  rw [printing, hbefore.append_iff, hafter.iff_append]

/-- A list in a definition is kept, as all the definition says, exactly if the
    words `TO` and `END` in it belong together; else the definition ends in the
    middle of the list, or goes on behind it. -/
theorem list_kept_iff {name : Text} (hname : Vocabulary.isBuiltin name = false) (E : Engine)
    (patience : Nat) (w : World) (items more : List Token) :
    statement E patience (.word "TO" :: .word name :: (printing items ++ .word "END" :: more)) w
        = .ok (.done more) { w with store := w.store.define ⟨name, [], printing items⟩ }
      ↔ definition.Balanced items := by
  have hparams : takeParams (printing items ++ .word "END" :: more)
      = ([], printing items ++ definition.closing :: more) := rfl
  rw [← balanced_printing, statement_to hname, hparams]
  constructor
  · intro h
    cases hsplit : definition.split 0 (printing items ++ definition.closing :: more) with
    | none =>
        rw [hsplit] at h
        cases h
    | some found =>
        rw [hsplit] at h
        injection h with hdone
        injection hdone with hrest
        -- what is left tells where the definition has ended, and so what its body is
        obtain ⟨heq, -⟩ := split_spec (Int.le_refl 0) hsplit
        obtain ⟨k, hk, hbody, -⟩ := split_eq_some_iff.1 hsplit
        rw [hrest] at heq
        rw [List.append_cancel_right heq, hbody]
        exact hk.balanced
  · intro h
    rw [h.split]

/-- A whole definition in a list. -/
theorem list_kept_iff_definition : ∃ w, quietSession = .ok w ∧ Vocabulary.isBuiltin "F" = false
    ∧ statement (engine ⟨40, 5⟩) 5
        [.word "TO", .word "F", .word "PRINT", .openBracket, .word "TO", .word "G", .word "END",
          .closeBracket, .word "END"] w
      = .ok (.done []) { w with
          store := w.store.define ⟨"F", [], printing [.word "TO", .word "G", .word "END"]⟩ } := by
  obtain ⟨w, hnew, -⟩ := quietSession_of (P := fun _ => true) rfl
  have hname : Vocabulary.isBuiltin "F" = false := by decide +kernel
  exact ⟨w, hnew, hname, (list_kept_iff hname (engine ⟨40, 5⟩) 5 w
    [.word "TO", .word "G", .word "END"] []).2 (by decide +kernel)⟩

/-- What is said of the failure of a program, and the names, parameters and bodies of
    the procedures that there are then. -/
def failsWith (code : Text) (w : World) : Option (Text × List (Text × List Text × List Token)) :=
  match run ⟨40, 5⟩ code w with
  | .ok _ _ => none
  | .error f u => some (f.message, u.store.procedures.map fun p => (p.name, p.params, p.body))

/-- An `END` in a list ends the definition around it, which keeps half the list;
    what is left is run, up to the other `END`. -/
theorem list_cut_at_end : brackets.Balanced [.word "END"] ∧ Vocabulary.isBuiltin "F" = false
    ∧ ∃ w, quietSession = .ok w
      ∧ failsWith "TO F PRINT [END] END" w
        = some (Fault.strayEnd.message,
          [(("F" : Text), ([] : List Text), [.word "PRINT", .openBracket])]) := by
  obtain ⟨w, hnew, htried⟩ := quietSession_of (P := fun w =>
    failsWith "TO F PRINT [END] END" w
      == some (Fault.strayEnd.message,
        [(("F" : Text), ([] : List Text), [.word "PRINT", .openBracket])]))
    (by decide +kernel)
  exact ⟨by decide +kernel, by decide +kernel, w, hnew, eq_of_beq htried⟩

end Session

end TurtleLogo
