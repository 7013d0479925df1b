import TurtleLogo.Proofs.Edits

/-! # The nearest word

    The suggestion for an unknown word is the first of the nearest candidates, if
    it is at most two edits away (`suggest_firstNearest`).

    * What has been found among the candidates so far `Leads` among them: one
      candidate more keeps it so (`Leads.closer`), and so does a whole list
      (`Leads.foldl`).
    * A candidate that is skipped for its length is further away than what may
      lead, so that nothing would change if it were looked at
      (`Leads.better_eq`). -/

namespace TurtleLogo.Spelling

variable {word c d : Text} {seen candidates : List Text} {best : Option Text × Nat}

/-! ## The first of the nearest -/

/-- The first of those candidates that are nearest to a word. -/
def FirstNearest (word : Text) (candidates : List Text) (c : Text) : Prop :=
  ∃ before after, candidates = before ++ c :: after
    ∧ (∀ d ∈ before, distance word c < distance word d)
    ∧ ∀ d ∈ after, distance word c ≤ distance word d

namespace FirstNearest

/-- The first of the nearest is one of the candidates. -/
theorem mem (h : FirstNearest word candidates c) : c ∈ candidates := by
  obtain ⟨before, after, rfl, -, -⟩ := h
  exact List.mem_append_right _ List.mem_cons_self

/-- No candidate is nearer. -/
theorem distance_le (h : FirstNearest word candidates c) (hd : d ∈ candidates) :
    distance word c ≤ distance word d := by
  obtain ⟨before, after, rfl, hbefore, hafter⟩ := h
  rcases List.mem_append.1 hd with hd | hd
  · exact Nat.le_of_lt (hbefore d hd)
  · rcases List.mem_cons.1 hd with rfl | hd
    · exact Nat.le_refl _
    · exact hafter d hd

/-- A candidate that comes later and is no nearer changes nothing. -/
theorem concat (h : FirstNearest word seen c) (hd : distance word c ≤ distance word d) :
    FirstNearest word (seen ++ [d]) c := by
  obtain ⟨before, after, rfl, hbefore, hafter⟩ := h
  refine ⟨before, after ++ [d], by rw [List.append_assoc, List.cons_append], hbefore, ?_⟩
  intro e he
  rcases List.mem_append.1 he with he | he
  · exact hafter e he
  · rw [List.mem_singleton.1 he]
    exact hd

/-- A candidate that is nearer than all before it. -/
theorem of_nearer (h : ∀ e ∈ seen, distance word d < distance word e) :
    FirstNearest word (seen ++ [d]) d :=
  ⟨seen, [], rfl, h, fun _ he => by cases he⟩

/-- Only one candidate is the first of the nearest: of two the later one would be
    further away than itself. -/
theorem unique (hc : FirstNearest word candidates c) (hd : FirstNearest word candidates d) :
    c = d := by
  have hequal : distance word c = distance word d :=
    Nat.le_antisymm (hc.distance_le hd.mem) (hd.distance_le hc.mem)
  have hfirst : ∀ {x y : Text} {between rest rest' : List Text},
      x :: rest = between ++ y :: rest' → x = y ∨ x ∈ between := by
    intro x y between rest rest' h
    cases between with
    | nil => exact .inl (List.cons.inj h).1
    | cons z zs => exact .inr ((List.cons.inj h).1 ▸ List.mem_cons_self)
  obtain ⟨before, after, hsplit, hbefore, -⟩ := hc
  obtain ⟨before', after', hsplit', hbefore', -⟩ := hd
  rw [hsplit] at hsplit'
  rcases List.append_eq_append_iff.1 hsplit' with
    ⟨between, hlonger, htail⟩ | ⟨between, hlonger, htail⟩
  · rcases hfirst htail with heq | hmem
    · exact heq
    · have hnearer := hbefore' c (hlonger ▸ List.mem_append_right _ hmem)
      omega
  · rcases hfirst htail with heq | hmem
    · exact heq.symm
    · have hnearer := hbefore d (hlonger ▸ List.mem_append_right _ hmem)
      omega

end FirstNearest

/-! ## Looking through the candidates -/

/-- The nearest candidate so far, if one more is looked at whatever its length. -/
def closer (word : Text) (best : Option Text × Nat) (candidate : Text) : Option Text × Nat :=
  let score := editDistance word candidate
  if score < best.2 then (some candidate, score) else best

/-- What leads among some candidates: nothing, if all are more than two edits away,
    or else the first of the nearest. -/
inductive Leads (word : Text) (seen : List Text) : Option Text × Nat → Prop
  | nothing (far : ∀ d ∈ seen, 2 < distance word d) : Leads word seen (none, 3)
  | candidate {c : Text} (near : distance word c ≤ 2) (first : FirstNearest word seen c) :
      Leads word seen (some c, distance word c)

namespace Leads

/-- What leads is at most three edits away. -/
theorem score_le (h : Leads word seen best) : best.2 ≤ 3 := by
  cases h with
  | nothing => exact Nat.le_refl _
  | candidate near => exact Nat.le_succ_of_le near

/-- One candidate more. -/
theorem closer (h : Leads word seen best) (d : Text) :
    Leads word (seen ++ [d]) (closer word best d) := by
  rw [Spelling.closer, editDistance_eq]
  cases h with
  | nothing far =>
      split
      · rename_i hnear
        exact .candidate (Nat.le_of_lt_succ hnear)
          (.of_nearer fun e he => Nat.lt_of_lt_of_le hnear (far e he))
      · rename_i hfar
        refine .nothing fun e he => ?_
        rcases List.mem_append.1 he with he | he
        · exact far e he
        · rw [List.mem_singleton.1 he]
          exact Nat.lt_of_not_le fun hle => hfar (Nat.lt_succ_of_le hle)
  | candidate near first =>
      split
      · rename_i hnearer
        exact .candidate (Nat.le_of_lt (Nat.lt_of_lt_of_le hnearer near))
          (.of_nearer fun e he => Nat.lt_of_lt_of_le hnearer (first.distance_le he))
      · rename_i hlater
        exact .candidate near (first.concat (Nat.le_of_not_lt hlater))

/-- A candidate that is much longer or shorter than the word is too far away. -/
theorem better_eq (h : Leads word seen best) (d : Text) :
    better word best d = Spelling.closer word best d := by
  rw [better]
  split
  · rename_i hskipped
    have hscore := h.score_le
    have hlonger := length_le_editDistance word d
    have hshorter := length_le_editDistance d word
    rw [editDistance_comm] at hshorter
    rw [Bool.or_eq_true, decide_eq_true_eq, decide_eq_true_eq] at hskipped
    -- the lengths differ by more than two, and nothing that leads is further away than that
    rw [Spelling.closer, if_neg (by omega)]
  · rfl

/-- A whole list of candidates, of which some may be skipped or not. -/
theorem foldl (h : Leads word seen best) (candidates : List Text) :
    Leads word (seen ++ candidates) (candidates.foldl (better word) best)
      ∧ candidates.foldl (better word) best = candidates.foldl (Spelling.closer word) best := by
  induction candidates generalizing seen best with
  | nil =>
      rw [List.append_nil]
      exact ⟨h, rfl⟩
  | cons d candidates ih =>
      rw [List.foldl_cons, List.foldl_cons, h.better_eq d, List.append_cons]
      exact ih (h.closer d)

end Leads

/-- Nothing leads before any candidate has been seen. -/
theorem leads_nil (word : Text) : Leads word [] (none, 3) :=
  .nothing fun _ hd => by cases hd

/-- Either a suggestion is made, which is near and the first of the nearest, or all
    candidates are far away. -/
theorem suggest_cases (word : Text) (candidates : List Text) :
    (∃ c, suggest word candidates = some c ∧ distance (Text.upper word) c ≤ 2
        ∧ FirstNearest (Text.upper word) candidates c)
      ∨ suggest word candidates = none ∧ ∀ c ∈ candidates, 2 < distance (Text.upper word) c := by
  rw [suggest]
  have hleads := ((leads_nil (Text.upper word)).foldl candidates).1
  rw [List.nil_append] at hleads
  generalize candidates.foldl (better (Text.upper word)) (none, 3) = best at hleads
  cases hleads with
  | nothing far => exact .inr ⟨rfl, far⟩
  | @candidate c near first => exact .inl ⟨c, rfl, near, first⟩

/-- The suggestion for a word is the first of those candidates that are nearest to
    it in capitals, if that is at most two edits away; there is none exactly if
    all candidates are further away; and nothing would be different if no
    candidate was skipped for its length. -/
theorem suggest_firstNearest (word : Text) (candidates : List Text) :
    (∀ c, suggest word candidates = some c
        ↔ FirstNearest (Text.upper word) candidates c ∧ distance (Text.upper word) c ≤ 2)
      ∧ (suggest word candidates = none ↔ ∀ c ∈ candidates, 2 < distance (Text.upper word) c)
      ∧ suggest word candidates = (candidates.foldl (closer (Text.upper word)) (none, 3)).1 := by
  have hskipped := congrArg Prod.fst ((leads_nil (Text.upper word)).foldl candidates).2
  rcases suggest_cases word candidates with ⟨d, hd, hnear, hfirst⟩ | ⟨hnone, hfar⟩
  · refine ⟨fun c => ?_, ?_, hskipped⟩
    · rw [hd, Option.some_inj]
      constructor
      · rintro rfl
        exact ⟨hfirst, hnear⟩
      · rintro ⟨hc, -⟩
        exact hfirst.unique hc
    · rw [hd]
      exact iff_of_false (fun h => by cases h)
        fun hfar => absurd (hfar d hfirst.mem) (Nat.not_lt.2 hnear)
  · refine ⟨fun c => ?_, iff_of_true hnone hfar, hskipped⟩
    rw [hnone]
    exact iff_of_false (fun h => by cases h)
      fun h => absurd (hfar c h.1.mem) (Nat.not_lt.2 h.2)

/-- Of two words that are one letter away the first is suggested. -/
example : suggest "prnt" ["PENUP", "PENT", "PRINT"] = some "PENT" := by decide

end TurtleLogo.Spelling
