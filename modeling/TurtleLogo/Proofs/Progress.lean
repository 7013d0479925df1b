import TurtleLogo.Proofs.Boundary

/-! # Progress

    All that reads tokens moves forward over them, and not past their end.

    * A reading that `Advances` leaves, from a place within some tokens, what
      stands behind a later place; that is what a local reading of at least one
      token does (`LocalAt.advances`), so expressions and statements do
      (`reading_advances`).
    * A block is over at the end of its tokens, unless someone has asked to stop
      (`statements_done`). -/

namespace TurtleLogo

/-- A pacer that has told a run to stop says so until it is cleared. -/
theorem Pacer.cancelled_of_look {p q : Pacer} (h : look p = .ok true q) : q.cancelled = true := by
  rw [look, get_bind] at h
  by_cases hcancelled : p.cancelled = true
  · rw [if_pos hcancelled] at h
    cases h
    exact hcancelled
  · rw [if_neg hcancelled] at h
    injection h with hinterrupted hlooked
    rw [← hlooked]
    exact hinterrupted

namespace Session

variable {γ : Type} [Unread γ]

/-- A reading that, from every place within some tokens, gets to a later place and
    not past the end, unless a signal makes that irrelevant. -/
def Advances (read : List Token → SessionM γ) : Prop :=
  ∀ (ts : List Token) (i : Nat), i < ts.length → ∀ w c u, read (ts.drop i) w = .ok c u →
    ∀ rest ∈ Unread.left c, ∃ j, i < j ∧ j ≤ ts.length ∧ rest = ts.drop j

/-- What is left of the tokens behind a place are the tokens behind another. -/
theorem exists_drop {ts rest : List Token} {i n : Nat} (hi : i ≤ ts.length)
    (hsuffix : rest <:+ ts.drop i) (hlength : rest.length + n ≤ (ts.drop i).length) :
    ∃ j, i + n ≤ j ∧ j ≤ ts.length ∧ rest = ts.drop j := by
  rw [List.length_drop] at hlength
  refine ⟨ts.length - rest.length, by omega, by omega, ?_⟩
  exact List.suffix_iff_eq_drop.1 (hsuffix.trans (List.drop_suffix i ts))

/-- A reading that is local to the tokens that it uses up advances. -/
theorem LocalAt.advances {read : List Token → SessionM γ}
    (h : ∀ t ts, LocalAt 1 read (t :: ts)) : Advances read := by
  intro ts i hi w c u hread rest hrest
  rw [List.drop_eq_getElem_cons hi] at hread
  obtain ⟨hleft, -⟩ := h _ _ hread
  obtain ⟨hsuffix, hlength⟩ := hleft rest hrest
  rw [← List.drop_eq_getElem_cons hi] at hsuffix hlength
  exact exists_drop (Nat.le_of_lt hi) hsuffix hlength

/-- A reading that is local everywhere and uses up a token advances. -/
theorem Local.advances {read : List Token → SessionM γ} (h : Local 1 read) : Advances read :=
  LocalAt.advances fun t ts => h (t :: ts)

/-- A stop request that is found was made. -/
theorem cancelled_of_stopRequested {w u : World} (h : stopRequested w = .ok true u) :
    u.pacer.cancelled = true := by
  cases hlook : Pacer.look w.pacer with
  | error f q =>
      simp only [stopRequested, onPacer, hlook] at h
      cases h
  | ok b q =>
      simp only [stopRequested, onPacer, hlook] at h
      cases h
      exact Pacer.cancelled_of_look hlook

/-- A block that is done has left nothing, or someone has asked to stop; what it has
    left are the last of its tokens. -/
theorem statements_done {one : List Token → SessionM Flow} (hone : ∀ t ts, LocalAt 1 one (t :: ts))
    {n : Nat} {ts rest : List Token} {w u : World} (hn : ts.length ≤ n)
    (h : statements one n ts w = .ok (.done rest) u) :
    rest <:+ ts ∧ (u.pacer.cancelled = false → rest = []) := by
  induction n generalizing ts w with
  | zero =>
      cases h
      exact ⟨List.suffix_refl _, fun _ => List.eq_nil_of_length_eq_zero (by omega)⟩
  | succ n ih =>
      cases ts with
      | nil =>
          cases h
          exact ⟨List.suffix_refl _, fun _ => rfl⟩
      | cons t ts =>
          rw [statements_cons] at h
          obtain ⟨stop, v, hstop, h⟩ := bind_eq_ok h
          cases stop with
          | true =>
              cases h
              refine ⟨List.suffix_refl _, fun hgoing => ?_⟩
              rw [cancelled_of_stopRequested hstop] at hgoing
              cases hgoing
          | false =>
              obtain ⟨flow, x, hflow, h⟩ := bind_eq_ok h
              cases flow with
              | signal s => cases h
              | done mid =>
                  -- the statement has left less, and the rest of the block does the same
                  obtain ⟨hsuffix, hlength⟩ := (hone t ts hflow).1 mid rfl
                  obtain ⟨-, y, -, h⟩ := bind_eq_ok h
                  rw [List.length_cons] at hlength hn
                  obtain ⟨hrest, hend⟩ := ih (by omega) h
                  exact ⟨hrest.trans hsuffix, hend⟩

/-- Reading moves forward, and not past the end.  From every place within some
    tokens an expression, a condition, a primary and a statement get to a later
    place, if they get anywhere, and a block that is done with the tokens behind
    that place has come to their end, unless someone has asked to stop. -/
theorem reading_advances (limits : Limits) :
    Advances (engine limits).expression
      ∧ Advances (condition (engine limits))
      ∧ Advances (primary (engine limits))
      ∧ Advances (statement (engine limits) limits.patience)
      ∧ ∀ (ts : List Token) (i : Nat), i < ts.length → ∀ w rest u,
        (engine limits).block (ts.drop i) w = .ok (.done rest) u →
        ∃ j, i ≤ j ∧ j ≤ ts.length ∧ rest = ts.drop j
          ∧ (u.pacer.cancelled = false → j = ts.length) := by
  have hE := local_expression limits.patience limits.depth
  refine ⟨hE.advances, (local_condition hE).advances, (local_primary hE).advances,
    LocalAt.advances (local_statement hE limits.patience), fun ts i hi w rest u h => ?_⟩
  by_cases hdepth : limits.depth < 3
  · change blockAtDepth limits.patience limits.depth (ts.drop i) w = _ at h
    rw [blockAtDepth_shallow hdepth] at h
    cases h
  · obtain ⟨d, hd⟩ : ∃ d, limits.depth = d + 3 := ⟨limits.depth - 3, by omega⟩
    change blockAtDepth limits.patience limits.depth (ts.drop i) w = _ at h
    rw [hd, blockAtDepth_eq] at h
    obtain ⟨hsuffix, hend⟩ := statements_done
      (local_statement (local_expression limits.patience d) limits.patience) (Nat.le_refl _) h
    have hlength : rest.length + 0 ≤ (ts.drop i).length := hsuffix.length_le
    obtain ⟨j, hij, hj, rfl⟩ := exists_drop (Nat.le_of_lt hi) hsuffix hlength
    refine ⟨j, hij, hj, rfl, fun hgoing => ?_⟩
    have hover := List.drop_eq_nil_iff.1 (hend hgoing)
    omega

/-- A program of two statements. -/
def twoStatements : List Token := [.word "MAKE", .quoted "X", .number (.int 3), .word "CLEAN"]

/-- Whether the first of these statements is done, and so are both without anyone
    asking to stop. -/
def doesBoth (w : World) : Bool :=
  (match statement (engine ⟨40, 5⟩) 5 twoStatements w with
    | .ok (.done _) _ => true
    | _ => false)
  && match (engine ⟨40, 5⟩).block twoStatements w with
    | .ok (.done _) v => !v.pacer.cancelled
    | _ => false

/-- The two statements are run one by one and as a block. -/
theorem of_doesBoth {w : World} (h : doesBoth w = true) :
    (∃ rest u, statement (engine ⟨40, 5⟩) 5 twoStatements w = .ok (.done rest) u)
      ∧ ∃ rest v, (engine ⟨40, 5⟩).block twoStatements w = .ok (.done rest) v
        ∧ v.pacer.cancelled = false := by
  obtain ⟨hone, hboth⟩ := Bool.and_eq_true_iff.1 h
  constructor
  · split at hone
    · rename_i rest u hu
      exact ⟨rest, u, hu⟩
    · cases hone
  · split at hboth
    · rename_i rest v hv
      exact ⟨rest, v, hv, by simpa using hboth⟩
    · cases hboth

/-- The law at an assignment and what follows it. -/
theorem reading_advances_make : ∃ w rest u v, quietSession = .ok w
    ∧ statement (engine ⟨40, 5⟩) 5 twoStatements w = .ok (.done rest) u
    ∧ (∃ j, 0 < j ∧ j ≤ twoStatements.length ∧ rest = twoStatements.drop j)
    ∧ (engine ⟨40, 5⟩).block twoStatements w = .ok (.done []) v := by
  obtain ⟨w, hnew, htried⟩ := quietSession_of (P := doesBoth) (by decide +kernel)
  obtain ⟨⟨rest, u, hone⟩, last, v, hboth, hgoing⟩ := of_doesBoth htried
  have hlength : 0 < twoStatements.length := Nat.succ_pos _
  obtain ⟨-, -, -, hstatement, hblock⟩ := reading_advances ⟨40, 5⟩
  obtain ⟨j, -, -, hlast, hend⟩ := hblock twoStatements 0 hlength w last v hboth
  have hnil : last = [] := by rw [hlast, hend hgoing, List.drop_length]
  rw [hnil] at hboth
  exact ⟨w, rest, u, v, hnew, hone, hstatement twoStatements 0 hlength w _ u hone rest rfl, hboth⟩

end Session

end TurtleLogo
