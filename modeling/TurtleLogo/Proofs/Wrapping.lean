import TurtleLogo.Proofs.Exact

/-! # Walks over the edge

    A move on the wrapped canvas is a walk in equal hops, each drawn as a line of its
    own and wrapped after it, and the turtle is then put at the wrapped target.  In
    exact arithmetic the lines are one path that ends where the turtle is put:

    * a wrapped coordinate is inside, and congruent to what was wrapped modulo the
      width (`abs_wrapped_le`, `wrapped_modEq`);
    * so a hop from the wrapped end of another goes on where that one ended, and all
      of them together lead as far as a straight move (`path_hopStarts`);
    * the number of hops keeps them short (`hop_le_wrapStep`). -/

namespace TurtleLogo

/-! ## Ways -/

section

variable {K : Type} [Field K]

/-- A point moved by a vector. -/
def moved (v p : Point K) : Point K := (p.1 + v.1, p.2 + v.2)

/-- A point moved so many times by a vector. -/
def movedBy (n : ℕ) (v p : Point K) : Point K := (p.1 + n * v.1, p.2 + n * v.2)

/-- One of so many equal hops from a point to another. -/
def hopTo (n : ℕ) (p q : Point K) : Point K := ((q.1 - p.1) / n, (q.2 - p.2) / n)

/-- One more move can be made first. -/
theorem movedBy_succ (n : ℕ) (v p : Point K) : movedBy (n + 1) v p = movedBy n v (moved v p) := by
  ext <;> simp only [movedBy, moved, Nat.cast_succ] <;> ring

/-- All hops together are the way from one point to the other. -/
theorem movedBy_hopTo {n : ℕ} (hn : (n : K) ≠ 0) (p q : Point K) :
    movedBy n (hopTo n p q) p = q := by
  ext <;> simp only [movedBy, hopTo] <;> field_simp <;> ring

/-- Two points are the same but for whole widths and heights, of which the halves are
    given. -/
def SamePlace (half p q : Point K) : Prop :=
  p.1 ≡ q.1 [PMOD half.1 + half.1] ∧ p.2 ≡ q.2 [PMOD half.2 + half.2]

namespace SamePlace

variable {half p q r : Point K}

theorem refl (half p : Point K) : SamePlace half p p :=
  ⟨AddCommGroup.modEq_refl _, AddCommGroup.modEq_refl _⟩

theorem trans (h : SamePlace half p q) (h' : SamePlace half q r) : SamePlace half p r :=
  ⟨h.1.trans h'.1, h.2.trans h'.2⟩

/-- The same way leads from the same place to the same place. -/
theorem onward (h : SamePlace half p q) (n : ℕ) (v : Point K) :
    SamePlace half (movedBy n v p) (movedBy n v q) :=
  ⟨h.1.add_right _, h.2.add_right _⟩

end SamePlace

end

/-! ## Paths -/

section

variable {K : Type} [Field K] [LinearOrder K]

/-- A point is between the edges. -/
def BetweenEdges (half p : Point K) : Prop := |p.1| ≤ half.1 ∧ |p.2| ≤ half.2

/-- A path in lines by one vector, of which the starts are given: it begins where it
    should, every line starts inside and goes on where the one before ended, and the
    last one ends at the goal, all of it but for whole widths and heights. -/
structure HopPath (half hop start goal : Point K) (starts : List (Point K)) : Prop where
  first : starts.head? = some start
  inside : ∀ p ∈ starts, BetweenEdges half p
  joined : starts.IsChain fun p q => SamePlace half q (moved hop p)
  last : ∀ p ∈ starts.getLast?, SamePlace half (moved hop p) goal

namespace HopPath

variable {half hop p q goal goal' : Point K} {starts : List (Point K)}

/-- One line is a path. -/
theorem single (hp : BetweenEdges half p) (hgoal : SamePlace half (moved hop p) goal) :
    HopPath half hop p goal [p] where
  first := rfl
  inside := by simpa using hp
  joined := .singleton p
  last := by simpa using hgoal

/-- A path with one line more in front of it. -/
theorem cons (h : HopPath half hop q goal starts) (hp : BetweenEdges half p)
    (hq : SamePlace half q (moved hop p)) : HopPath half hop p goal (p :: starts) where
  first := rfl
  inside := List.forall_mem_cons.2 ⟨hp, h.inside⟩
  joined := by
    cases starts with
    | nil => cases h.first
    | cons r rest =>
        obtain rfl : r = q := Option.some.inj h.first
        exact List.isChain_cons_cons.2 ⟨hq, h.joined⟩
  last := by
    have hne : starts ≠ [] := by
      rintro rfl
      cases h.first
    rw [List.getLast?_cons_of_ne_nil hne]
    exact h.last

theorem trans (h : HopPath half hop p goal starts) (hgoal : SamePlace half goal goal') :
    HopPath half hop p goal' starts :=
  { h with last := fun p hp => (h.last p hp).trans hgoal }

end HopPath

end

/-! ## Wrapped hops -/

section

variable {K : Type} [Field K] [LinearOrder K] [FloorRing K]

/-- A coordinate brought back between `-half` and `half`. -/
def wrapped (v half : K) : K :=
  if |v| ≤ half then v else remainder (v + half) (half + half) - half

/-- A point brought back between the edges. -/
def wrappedPoint (half p : Point K) : Point K := (wrapped p.1 half.1, wrapped p.2 half.2)

/-- The starts of so many hops of a walk. -/
def hopStarts (half hop : Point K) : ℕ → Point K → List (Point K)
  | 0, _ => []
  | n + 1, p => p :: hopStarts half hop n (wrappedPoint half (moved hop p))

/-- There are as many starts as hops. -/
theorem length_hopStarts (half hop p : Point K) (n : ℕ) :
    (hopStarts half hop n p).length = n := by
  induction n generalizing p with
  | zero => rfl
  | succ n ih => rw [hopStarts, List.length_cons, ih]

variable [IsStrictOrderedRing K]

/-- A wrapped coordinate is what it was but for whole widths. -/
theorem wrapped_modEq (v : K) {half : K} (hhalf : 0 < half) :
    wrapped v half ≡ v [PMOD half + half] := by
  rw [wrapped]
  split
  · rfl
  · have hmod := (remainder_modEq (v + half) (b := half + half) (by positivity)).sub_right half
    rwa [add_sub_cancel_right] at hmod

/-- A wrapped coordinate is between the edges. -/
theorem abs_wrapped_le (v : K) {half : K} (hhalf : 0 < half) : |wrapped v half| ≤ half := by
  rw [wrapped]
  split
  · assumption
  · have hmem := remainder_mem (v + half) (b := half + half) (by positivity)
    exact abs_le.2 ⟨by linarith [hmem.1], by linarith [hmem.2]⟩

section

variable {half : Point K} (hwide : 0 < half.1) (hhigh : 0 < half.2)
include hwide hhigh

/-- A wrapped point is between the edges. -/
theorem inside_wrappedPoint (p : Point K) : BetweenEdges half (wrappedPoint half p) :=
  ⟨abs_wrapped_le _ hwide, abs_wrapped_le _ hhigh⟩

/-- A wrapped point is at the place where it was. -/
theorem samePlace_wrappedPoint (p : Point K) : SamePlace half (wrappedPoint half p) p :=
  ⟨wrapped_modEq _ hwide, wrapped_modEq _ hhigh⟩

/-- A walk of some hops leads along a path to where a straight move would lead. -/
theorem path_hopStarts (hop : Point K) (n : ℕ) {p : Point K} (hp : BetweenEdges half p) :
    HopPath half hop p (movedBy (n + 1) hop p) (hopStarts half hop (n + 1) p) := by
  induction n generalizing p with
  | zero =>
      refine .single hp ?_
      rw [movedBy_succ, movedBy, Nat.cast_zero, zero_mul, zero_mul, add_zero, add_zero]
      exact .refl _ _
  | succ n ih =>
      -- the rest of the walk starts where the first hop ended, wrapped
      have hsame := samePlace_wrappedPoint hwide hhigh (moved hop p)
      rw [movedBy_succ]
      exact ((ih (inside_wrappedPoint hwide hhigh _)).cons hp hsame).trans (hsame.onward _ _)

end

/-- Enough hops on a way of some length make each of them short. -/
theorem hop_le_wrapStep {p q : Point K} {d : K} {n : ℕ} (hlength : 0 ≤ d)
    (hhypot : (q.1 - p.1) * (q.1 - p.1) + (q.2 - p.2) * (q.2 - p.2) ≤ d * d) (hn : 0 < n)
    (henough : ⌈d / (wrapStep : K)⌉ ≤ n) :
    (hopTo n p q).1 * (hopTo n p q).1 + (hopTo n p q).2 * (hopTo n p q).2
      ≤ (wrapStep : K) * wrapStep := by
  have hpos : (0 : K) < n := Nat.cast_pos.2 hn
  have hstep : (0 : K) < (wrapStep : K) := by norm_num [wrapStep]
  have hhop : d / n ≤ wrapStep := by
    have hceil := Int.ceil_le.1 henough
    rw [div_le_iff₀ hstep] at hceil
    rw [div_le_iff₀ hpos, mul_comm]
    exact_mod_cast hceil
  calc (q.1 - p.1) / n * ((q.1 - p.1) / n) + (q.2 - p.2) / n * ((q.2 - p.2) / n)
      = ((q.1 - p.1) * (q.1 - p.1) + (q.2 - p.2) * (q.2 - p.2)) / (n * n) := by
        rw [div_mul_div_comm, div_mul_div_comm, add_div]
    _ ≤ d * d / (n * n) := by gcongr
    _ = d / n * (d / n) := (div_mul_div_comm _ _ _ _).symm
    _ ≤ wrapStep * wrapStep := by gcongr

end

/-! ## Moves -/

variable {K : Type} [Field K] [LinearOrder K] [FloorRing K] [IsStrictOrderedRing K]

/-- A line by a vector. -/
def Shape.hop (pen : Pen K) (v p : Point K) : Shape K :=
  .line p.1 p.2 (p.1 + v.1) (p.2 + v.2) pen

namespace Canvas

variable [Trigonometry K]

/-- In exact arithmetic a coordinate is wrapped without fail. -/
theorem wrapCoordinate_eq (v : K) {half : K} (hhalf : 0 < half) :
    wrapCoordinate v half = .ok (wrapped v half) := by
  have hpos : Scalar.le half Scalar.zero = false := by
    simpa [Scalar.le, Scalar.zero] using hhalf
  have hinside : (Scalar.le (Scalar.neg half) v && Scalar.le v half) = decide (|v| ≤ half) := by
    simp [Scalar.le, Scalar.neg, abs_le]
  have hwidth : half + half ≠ 0 := by positivity
  rw [wrapCoordinate, hpos, hinside, Bool.false_or, wrapped]
  by_cases hv : |v| ≤ half
  · simp [hv]
  · rw [if_neg hv, if_neg (by simpa using hv)]
    show (Scalar.mod (v + half) (((2 : ℤ) : K) * half) >>= fun r => Scalar.sub r half) = _
    rw [Int.cast_ofNat, two_mul, Scalar.exact_mod _ hwidth]
    rfl

omit [IsStrictOrderedRing K] in
/-- There is a hop at least, and there are enough unless they are cut off. -/
theorem hopCount_spec (dx dy : K) : ∃ n : ℕ, hopCount dx dy = .ok n ∧ 0 < n
    ∧ (⌈Trigonometry.hypot dx dy / (wrapStep : K)⌉ ≤ maxWrapSteps →
      ⌈Trigonometry.hypot dx dy / (wrapStep : K)⌉ ≤ n) := by
  have hstep : ((wrapStep : ℤ) : K) ≠ 0 := by norm_num [wrapStep]
  refine ⟨min (max 1 ⌈Trigonometry.hypot dx dy / (wrapStep : K)⌉.toNat) maxWrapSteps, ?_, ?_, ?_⟩
  · show (Scalar.div (Trigonometry.hypot dx dy) ((wrapStep : ℤ) : K) >>= fun q => _) = _
    rw [Scalar.exact_div _ hstep]
    rfl
  · have hmax : 0 < maxWrapSteps := by decide
    omega
  · intro huncut
    omega

/-- How far the edges are from the middle. -/
theorem halfExtents_exact {c : Canvas K} (hzoom : c.scene.view.zoom ≠ 0) : halfExtents c =
    .ok (c.surface.width / (2 * c.scene.view.zoom), c.surface.height / (2 * c.scene.view.zoom))
      c := by
  have hwide : ((2 : ℤ) : K) * c.scene.view.zoom ≠ 0 := by
    rw [Int.cast_ofNat]
    exact mul_ne_zero two_ne_zero hzoom
  rw [halfExtents, get_bind, Scalar.exact_ofInt, Scalar.exact_mul]
  show compute (Scalar.div _ _ >>= fun x => Scalar.div _ _ >>= fun y => .ok (x, y)) c = _
  rw [Scalar.exact_div _ hwide, Scalar.exact_div _ hwide, Int.cast_ofNat]
  rfl

section

variable {t : Turtle K} (hdown : t.penDown = true) {half : Point K} (hwide : 0 < half.1)
  (hhigh : 0 < half.2)
include hdown hwide hhigh

/-- A walk draws its hops. -/
theorem walk_eq (hop : Point K) (n : ℕ) (p : Point K) (c : Canvas K) :
    walk t hop.1 hop.2 half.1 half.2 n p.1 p.2 c = .ok ()
      ⟨c.scene.emitAll ((hopStarts half hop n p).map (Shape.hop t.pen hop)), c.surface⟩ := by
  induction n generalizing p c with
  | zero => rfl
  | succ n ih =>
      have hline : c.scene.stroke t p.1 p.2 (p.1 + hop.1) (p.2 + hop.2)
          = c.scene.emit (.hop t.pen hop p) := if_pos hdown
      show (compute (wrapCoordinate (p.1 + hop.1) half.1) >>= fun wx =>
        compute (wrapCoordinate (p.2 + hop.2) half.2) >>= fun wy =>
          walk t hop.1 hop.2 half.1 half.2 n wx wy)
        ⟨c.scene.stroke t p.1 p.2 (p.1 + hop.1) (p.2 + hop.2), c.surface⟩ = _
      rw [wrapCoordinate_eq _ hwide, wrapCoordinate_eq _ hhigh, hline]
      exact ih (wrappedPoint half (moved hop p)) _

/-- A move on the wrapped canvas draws its hops and puts the turtle at the target. -/
theorem wrapTo_eq {x y : K} {n : ℕ} (hn : 0 < n) (hcount : hopCount (x - t.x) (y - t.y) = .ok n)
    {c : Canvas K} (hhalf : halfExtents c = .ok half c) :
    wrapTo t x y c = .ok () ⟨(c.scene.emitAll
      ((hopStarts half (hopTo n (t.x, t.y) (x, y)) n (t.x, t.y)).map
        (Shape.hop t.pen (hopTo n (t.x, t.y) (x, y))))).place
      (wrapped x half.1) (wrapped y half.2), c.surface⟩ := by
  have hdiv : ∀ a : K, Scalar.div a (Scalar.ofInt n) = .ok (a / n) := by
    intro a
    rw [Scalar.exact_ofInt, Int.cast_natCast, Scalar.exact_div _ (Nat.cast_ne_zero.2 hn.ne')]
  rw [wrapTo, bind_of_ok hhalf]
  dsimp only
  rw [bind_of_ok (rfl : compute (Scalar.sub x t.x) c = .ok (x - t.x) c),
    bind_of_ok (rfl : compute (Scalar.sub y t.y) c = .ok (y - t.y) c), hcount,
    bind_of_ok (rfl : compute (.ok n) c = .ok n c), hdiv, hdiv, wrapCoordinate_eq _ hwide,
    wrapCoordinate_eq _ hhigh]
  exact bind_of_ok (walk_eq hdown hwide hhigh (hopTo n (t.x, t.y) (x, y)) n (t.x, t.y) c)

end

/-- The move of a turtle to `(x, y)` on the wrapped canvas is drawn as a path. -/
theorem wrapTo_continuous {c : Canvas K} {t : Turtle K} {w h : K} (x y : K)
    (hturtle : c.scene.turtle? = some t) (hdown : t.penDown = true)
    (hhalf : halfExtents c = .ok (w, h) c) (hwide : 0 < w) (hhigh : 0 < h)
    (hinside : BetweenEdges (w, h) (t.x, t.y))
    (hlength : 0 ≤ Trigonometry.hypot (x - t.x) (y - t.y))
    (hhypot : (x - t.x) * (x - t.x) + (y - t.y) * (y - t.y)
      ≤ Trigonometry.hypot (x - t.x) (y - t.y) * Trigonometry.hypot (x - t.x) (y - t.y)) :
    ∃ (d : Canvas K) (steps : ℕ) (hop finish : Point K) (starts : List (Point K)),
      wrapTo t x y c = .ok () d
        ∧ hopCount (x - t.x) (y - t.y) = .ok steps
        ∧ starts.length = steps
        ∧ hop = ((x - t.x) / steps, (y - t.y) / steps)
        ∧ d.scene.log.toList = c.scene.log.toList ++ starts.map (Shape.hop t.pen hop)
        ∧ HopPath (w, h) hop (t.x, t.y) (x, y) starts
        ∧ d.scene.turtle? = some { t with x := finish.1, y := finish.2 }
        ∧ BetweenEdges (w, h) finish ∧ SamePlace (w, h) finish (x, y)
        ∧ (⌈Trigonometry.hypot (x - t.x) (y - t.y) / (wrapStep : K)⌉ ≤ maxWrapSteps →
          hop.1 * hop.1 + hop.2 * hop.2 ≤ (wrapStep : K) * wrapStep) := by
  obtain ⟨n, hcount, hn, henough⟩ := hopCount_spec (x - t.x) (y - t.y)
  let hop := hopTo n (t.x, t.y) (x, y)
  have hpath : HopPath (w, h) hop (t.x, t.y) (movedBy (n - 1 + 1) hop (t.x, t.y))
      (hopStarts (w, h) hop (n - 1 + 1) (t.x, t.y)) :=
    path_hopStarts hwide hhigh hop (n - 1) hinside
  rw [Nat.sub_add_cancel hn, movedBy_hopTo (Nat.cast_ne_zero.2 hn.ne')] at hpath
  refine ⟨_, n, hop, wrappedPoint (w, h) (x, y), hopStarts (w, h) hop n (t.x, t.y),
    wrapTo_eq hdown hwide hhigh hn hcount hhalf, hcount,
    length_hopStarts _ _ _ _, rfl, Scene.log_emitAll _ _, hpath, ?_,
    inside_wrappedPoint hwide hhigh _, samePlace_wrappedPoint hwide hhigh _, fun huncut => ?_⟩
  · show (Scene.mapTurtle _ _).turtle? = _
    rw [turtle?_mapTurtle, Scene.turtle?_emitAll, hturtle]
    rfl
  · exact hop_le_wrapStep (p := (t.x, t.y)) (q := (x, y)) hlength hhypot hn (henough huncut)

/-- A walk that leaves on the right and comes back in on the left. -/
theorem wrapTo_continuous_across : ∃ (d : Canvas ℚ) (hop : Point ℚ) (starts : List (Point ℚ)),
    wrapTo Turtle.new 500 0 exactSheet = .ok () d
      ∧ d.scene.log.toList = starts.map (Shape.hop Turtle.new.pen hop)
      ∧ HopPath (200, 150) hop (0, 0) (500, 0) starts := by
  have hextents : halfExtents exactSheet = .ok (200, 150) exactSheet := by
    rw [halfExtents_exact one_ne_zero]
    norm_num [exactSheet, Scene.new, View.reset, Surface.new]
  have hlength : Trigonometry.hypot (500 - (Turtle.new : Turtle ℚ).x) (0 - Turtle.new.y) = 500 := by
    norm_num [Turtle.new, Scalar.zero, Trigonometry.hypot]
  obtain ⟨d, steps, hop, finish, starts, hd, -, -, -, hlog, hpath, -⟩ :=
    wrapTo_continuous (c := exactSheet) (t := Turtle.new) (w := 200) (h := 150) 500 0 rfl rfl
      hextents (by norm_num) (by norm_num)
      (by norm_num [BetweenEdges, Turtle.new, Scalar.zero]) (by rw [hlength]; norm_num)
      (by rw [hlength]; norm_num [Turtle.new, Scalar.zero])
  exact ⟨d, hop, starts, hd, hlog, hpath⟩

end Canvas

end TurtleLogo
