import Mathlib.Algebra.Ring.Periodic
import TurtleLogo.Proofs.Exact

/-! # Arcs there and back

    An arc carries a turtle along a circle: it finds the centre at a right angle to
    the heading, and the end in some direction from the centre.  In exact arithmetic,
    where half a turn turns every direction round, the same arc with the opposite
    angle finds the same centre again and ends where the first one began
    (`Turtle.carried_back`); nothing else is needed of directions. -/

namespace TurtleLogo

open Function

section

variable {K : Type} [Field K] [Trigonometry K]

/-- A bearing that differs by whole turns leads in the same direction. -/
theorem direction_congr (hdirection : Antiperiodic (Trigonometry.direction : K → K × K) 180)
    {a b : K} (h : a ≡ b [PMOD 360]) : Trigonometry.direction a = Trigonometry.direction b := by
  have hturn : Periodic (Trigonometry.direction : K → K × K) 360 := by
    have hdouble := hdirection.periodic_two_mul
    norm_num at hdouble
    exact hdouble
  obtain ⟨n, hn⟩ := AddCommGroup.modEq_iff_zsmul.1 h
  rw [← sub_add_cancel b a, ← hn, add_comm, hturn.zsmul n a]

/-- What is to one side is opposite to what is to the other. -/
theorem direction_opposite (hdirection : Antiperiodic (Trigonometry.direction : K → K × K) 180)
    {sense : ℤ} (hsense : sense = 1 ∨ sense = -1) (a : K) :
    Trigonometry.direction (a + (90 * sense : ℤ))
      = -Trigonometry.direction (a - (90 * sense : ℤ)) := by
  rcases hsense with rfl | rfl
  · rw [← hdirection]
    congr 1
    push_cast
    ring
  · rw [← neg_eq_iff_eq_neg, ← hdirection]
    congr 1
    push_cast
    ring

end

variable {K : Type} [Field K] [LinearOrder K] [FloorRing K] [Trigonometry K]

/-- The turtle with the place and heading of another. -/
def Turtle.posedAs (u t : Turtle K) : Turtle K :=
  { u with x := t.x, y := t.y, heading := t.heading }

/-- A turtle that was carried along a circle of some size around a point to its right,
    or to its left if it turns the other way. -/
def Turtle.carried (t : Turtle K) (sense : ℤ) (size sweep : K) : Turtle K :=
  let out := Trigonometry.direction (t.heading + (90 * sense : ℤ))
  let back := Trigonometry.direction (t.heading - (90 * sense : ℤ) + sweep)
  { t with
    x := t.x + size * out.1 + size * back.1
    y := t.y + size * out.2 + size * back.2
    heading := remainder (t.heading + sweep) 360 }

/-- The opposite sweep brings a turtle back. -/
theorem Turtle.carried_back [IsStrictOrderedRing K]
    (hdirection : Antiperiodic (Trigonometry.direction : K → K × K) 180) {t : Turtle K}
    (ht : t.heading ∈ Set.Ico 0 360) {sense : ℤ} (hsense : sense = 1 ∨ sense = -1)
    (size sweep : K) : (t.carried sense size sweep).carried sense size (-sweep) = t := by
  let turned := remainder (t.heading + sweep) (360 : K)
  have hturned : turned ≡ t.heading + sweep [PMOD 360] :=
    remainder_modEq _ (by norm_num)
  -- the centre is found again, on the other side of where the turtle is now
  have hout : Trigonometry.direction (turned + (90 * sense : ℤ))
      = -Trigonometry.direction (t.heading - (90 * sense : ℤ) + sweep) := by
    rw [direction_congr hdirection (hturned.add_right _), direction_opposite hdirection hsense,
      add_sub_right_comm]
  -- and from there it is as far to the first place as it was from that to the centre
  have hback : Trigonometry.direction (turned - (90 * sense : ℤ) + -sweep)
      = -Trigonometry.direction (t.heading + (90 * sense : ℤ)) := by
    have hsame := (hturned.sub_right ((90 * sense : ℤ) : K)).add_right (-sweep)
    rw [direction_congr hdirection hsame, direction_opposite hdirection hsense, neg_neg]
    congr 1
    ring
  have hheading : remainder (turned + -sweep) 360 = t.heading := by
    have hsame := hturned.add_right (-sweep)
    rw [add_neg_cancel_right] at hsame
    exact eq_of_modEq ((remainder_modEq _ (by norm_num)).trans hsame)
      (remainder_mem _ (by norm_num)) ht
  simp only [carried]
  rw [hout, hback, hheading]
  simp only [Prod.fst_neg, Prod.snd_neg]
  congr 1 <;> ring

namespace Canvas

/-- In exact arithmetic a heading in normal form is a remainder. -/
theorem normalizeHeading_exact [IsStrictOrderedRing K] (a : K) :
    normalizeHeading a = .ok (remainder a 360) := by
  have hfull : ((360 : ℤ) : K) ≠ 0 := by norm_num
  have hless : Scalar.le ((360 : ℤ) : K) (remainder a 360) = false := by
    have hmem := remainder_mem a (b := (360 : K)) (by norm_num)
    simpa [Scalar.le] using hmem.2
  rw [normalizeHeading, Scalar.exact_ofInt, Scalar.exact_mod _ hfull]
  show Except.ok (if Scalar.le ((360 : ℤ) : K) (remainder a ((360 : ℤ) : K)) = true then _ else _)
    = _
  rw [Int.cast_ofNat] at hless ⊢
  rw [hless]
  rfl

/-- Two changes of the current turtle are one after the other. -/
theorem mapTurtle_mapTurtle {α : Type} (s : Scene α) (f g : Turtle α → Turtle α) :
    (s.mapTurtle f).mapTurtle g = s.mapTurtle fun t => g (f t) := by
  simp only [Scene.mapTurtle, List.map_map]
  congr 1
  refine List.map_congr_left fun p _ => ?_
  simp only [Function.comp_apply]
  split <;> rfl

/-- The end of an arc is a place and a heading. -/
theorem endArc_eq [IsStrictOrderedRing K] (t : Turtle K) (cx cy radius ex ey sweep : K)
    (c : Canvas K) : endArc t cx cy radius ex ey sweep c = .ok () ⟨(c.scene.mapTurtle fun u =>
      { u with
        x := cx + radius * ex
        y := cy + radius * ey
        heading := remainder (t.heading + sweep) 360 }).touch, c.surface⟩ := by
  show (compute (normalizeHeading (t.heading + sweep)) >>= fun h => change fun s =>
    (s.mapTurtle fun t => { t with heading := h }).touch)
    ⟨c.scene.place (cx + radius * ex) (cy + radius * ey), c.surface⟩ = _
  rw [normalizeHeading_exact, Scene.place]
  show EStateM.Result.ok () (⟨(Scene.mapTurtle (Scene.mapTurtle _ _) _).touch, _⟩ : Canvas K) = _
  rw [mapTurtle_mapTurtle]

/-- The way round that a radius leads. -/
def sense (radius : K) : ℤ := if 0 ≤ radius then 1 else -1

/-- An arc draws one shape at most, and carries the current turtle along. -/
theorem arc_eq [IsStrictOrderedRing K] {c : Canvas K} {t : Turtle K} (angle radius : K)
    (hturtle : c.scene.turtle? = some t) : ∃ drawn : List (Shape K), drawn.length ≤ 1
      ∧ arc angle radius c = .ok () ⟨((c.scene.emitAll drawn).mapTurtle
        (·.posedAs (t.carried (sense radius) |radius| (angle * sense radius)))).touch,
        c.surface⟩ := by
  have hsense : (if Scalar.le Scalar.zero radius = true then (1 : ℤ) else -1) = sense radius := by
    simp [Scalar.le, Scalar.zero, sense]
  let out := Trigonometry.direction (t.heading + (90 * sense radius : ℤ))
  let start := t.heading - (90 * sense radius : ℤ)
  let sweep := angle * sense radius
  let back := Trigonometry.direction (start + sweep)
  let finish := endArc t (t.x + |radius| * out.1) (t.y + |radius| * out.2) |radius| back.1 back.2
    sweep
  have harc : arc angle radius c =
      (if (t.penDown && !Scalar.isZero angle && !Scalar.isZero radius) = true then
        compute (normalizeHeading start) >>= fun first =>
          change (·.emit (.arc (t.x + |radius| * out.1) (t.y + |radius| * out.2) |radius| first
            sweep t.pen)) >>= fun _ => finish
      else finish) c := by
    rw [arc, bind_of_ok (turtle_of_some hturtle), hsense]
    rfl
  rw [harc]
  split
  · refine ⟨[.arc (t.x + |radius| * out.1) (t.y + |radius| * out.2) |radius|
      (remainder start 360) sweep t.pen], le_rfl, ?_⟩
    rw [normalizeHeading_exact]
    exact endArc_eq t (t.x + |radius| * out.1) (t.y + |radius| * out.2) |radius| back.1 back.2
      sweep ⟨c.scene.emit _, c.surface⟩
  · exact ⟨[], Nat.zero_le _, endArc_eq t _ _ _ _ _ _ _⟩

/-- A change only depends on the turtles and on who is current. -/
theorem turtles_mapTurtle {α : Type} {s s' : Scene α} (hturtles : s.turtles = s'.turtles)
    (hcurrent : s.current = s'.current) {f : Turtle α → Turtle α} :
    (s.mapTurtle f).turtles = (s'.mapTurtle f).turtles := by
  rw [Scene.mapTurtle, Scene.mapTurtle, hturtles, hcurrent]

/-- A change of the current turtle is none of the others. -/
theorem others_unchanged {α : Type} (s : Scene α) (f : Turtle α → Turtle α) :
    List.Forall₂ (fun p q => q.1 = p.1 ∧ (p.1.sameKey s.current = false → q.2 = p.2)) s.turtles
      (s.mapTurtle f).turtles := by
  refine List.forall₂_map_right_iff.2 (List.forall₂_same.2 fun p _ => ⟨rfl, fun hother => ?_⟩)
  dsimp only
  rw [if_neg (ne_true_of_eq_false hother)]

/-- An arc with the opposite angle leads back along the same circle.  Half a turn turns
    directions round, so a full one changes none. -/
theorem arc_retraces [IsStrictOrderedRing K]
    (hdirection : ∀ a : K, Trigonometry.direction (a + 180) = -Trigonometry.direction a)
    {c : Canvas K} {t : Turtle K} (hturtle : c.scene.turtle? = some t)
    (hheading : 0 ≤ t.heading ∧ t.heading < 360) (angle radius : K) :
    ∃ (d : Canvas K) (drawn : List (Shape K)),
      (do arc angle radius; arc (-angle) radius : CanvasM K Unit) c = .ok () d
        ∧ d.scene.current = c.scene.current ∧ d.scene.turtle? = some t
        ∧ List.Forall₂ (fun p q => q.1 = p.1
            ∧ (p.1.sameKey c.scene.current = false → q.2 = p.2)) c.scene.turtles d.scene.turtles
        ∧ d.scene.log.toList = c.scene.log.toList ++ drawn ∧ drawn.length ≤ 2 := by
  let sweep := angle * sense radius
  let t' := t.carried (sense radius) |radius| sweep
  obtain ⟨out, hout, hthere⟩ := arc_eq angle radius hturtle
  let e : Canvas K := ⟨((c.scene.emitAll out).mapTurtle (·.posedAs t')).touch, c.surface⟩
  have hturtle' : e.scene.turtle? = some t' := by
    show ((c.scene.emitAll out).mapTurtle (·.posedAs t')).turtle? = _
    rw [turtle?_mapTurtle, Scene.turtle?_emitAll, hturtle]
    rfl
  obtain ⟨back, hback, hhere⟩ := arc_eq (-angle) radius hturtle'
  have hsense : sense radius = 1 ∨ sense radius = -1 := by
    rw [sense]
    split
    · exact .inl rfl
    · exact .inr rfl
  have hreturn : t'.carried (sense radius) |radius| (-angle * sense radius) = t := by
    rw [neg_mul]
    exact Turtle.carried_back hdirection hheading hsense |radius| sweep
  rw [hreturn] at hhere
  refine ⟨_, out ++ back, (bind_of_ok hthere).trans hhere, ?_, ?_, ?_, ?_, ?_⟩
  · show (e.scene.emitAll back).current = _
    rw [Scene.current_emitAll]
    exact Scene.current_emitAll _ _
  · show ((e.scene.emitAll back).mapTurtle (·.posedAs t)).turtle? = _
    rw [turtle?_mapTurtle, Scene.turtle?_emitAll, hturtle']
    rfl
  · have hturtles : (((e.scene.emitAll back).mapTurtle (·.posedAs t)).touch).turtles
        = (c.scene.mapTurtle (·.posedAs t)).turtles := by
      -- what is drawn changes no turtle, and only the last pose of the current one remains
      show ((e.scene.emitAll back).mapTurtle (·.posedAs t)).turtles = _
      rw [turtles_mapTurtle (Scene.turtles_emitAll _ _) (Scene.current_emitAll _ _)]
      show ((((c.scene.emitAll out).mapTurtle (·.posedAs t')).mapTurtle (·.posedAs t))).turtles = _
      rw [mapTurtle_mapTurtle]
      exact turtles_mapTurtle (Scene.turtles_emitAll _ _) (Scene.current_emitAll _ _)
    rw [hturtles]
    exact others_unchanged c.scene (·.posedAs t)
  · show (e.scene.emitAll back).log.toList = _
    rw [Scene.log_emitAll, ← List.append_assoc]
    exact congrArg (· ++ back) (Scene.log_emitAll _ _)
  · rw [List.length_append]
    omega

/-- Half a turn leads from one quarter to the opposite one. -/
theorem direction_half_turn (a : ℚ) :
    Trigonometry.direction (a + 180) = -Trigonometry.direction a := by
  have hfloor : ⌊(a + 180) / 90⌋ = ⌊a / 90⌋ + 2 := by
    rw [add_div, show (180 : ℚ) / 90 = (2 : ℤ) by norm_num, Int.floor_add_intCast]
  simp only [Trigonometry.direction]
  rw [hfloor]
  have hquarter : ⌊a / 90⌋ % 4 = 0 ∨ ⌊a / 90⌋ % 4 = 1 ∨ ⌊a / 90⌋ % 4 = 2 ∨ ⌊a / 90⌋ % 4 = 3 := by
    omega
  rcases hquarter with h | h | h | h <;> simp [Int.add_emod, h]

/-- A quarter of a circle to the right, and back. -/
theorem arc_retraces_quarter : ∃ d : Canvas ℚ,
    (do arc 90 100; arc (-90) 100 : CanvasM ℚ Unit) exactSheet = .ok () d
      ∧ d.scene.turtle? = some Turtle.new := by
  obtain ⟨d, drawn, hd, -, hturtle, -⟩ := arc_retraces direction_half_turn (c := exactSheet)
    (t := Turtle.new) rfl (by norm_num [Turtle.new, Scalar.zero]) 90 100
  exact ⟨d, hd, hturtle⟩

end Canvas

end TurtleLogo
