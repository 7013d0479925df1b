import TurtleLogo.Proofs.Ending

/-! # What every action on the canvas keeps

    An action is `Proper` if it opens no fill, leaves a sane canvas sane, and
    fails tamely on a sane canvas whose surface records.  On a sane canvas the
    current turtle is there, it is not named by a list, and the zoom is not
    zero.  All actions of the turtle are proper, two apart: the one that begins
    a fill, and the choice of a turtle that is named by a list. -/

namespace TurtleLogo

/-- A value that is no list names the same turtle as itself. -/
theorem Value.sameKey_self {v : Value} (h : v.isList = false) : v.sameKey v = true := by
  cases v with
  | number n => simp [sameKey, keyNumber?]
  | truth b => simp [sameKey, keyNumber?]
  | nothing => simp [sameKey, keyNumber?, same]
  | word s => simp [sameKey, keyNumber?, same]
  | list vs => cases h

namespace Canvas

/-- A canvas on which the current turtle can do all that it does. -/
structure Sane (c : Canvas Number) : Prop where
  turtle : c.scene.ids.any (·.sameKey c.scene.current) = true
  name : c.scene.current.isList = false
  zoom : c.scene.view.zoom.isZero = false

/-- What a proper action keeps. -/
structure Follows (c d : Canvas Number) : Prop where
  fills : d.scene.fills.length ≤ c.scene.fills.length
  kind : d.surface.kind = c.surface.kind
  sane : c.Sane → d.Sane

theorem Follows.refl (c : Canvas Number) : c.Follows c :=
  ⟨Nat.le_refl _, rfl, id⟩

theorem Follows.trans {c d e : Canvas Number} (h : c.Follows d) (h' : d.Follows e) : c.Follows e :=
  ⟨Nat.le_trans h'.fills h.fills, h'.kind.trans h.kind, fun hc => h'.sane (h.sane hc)⟩

/-- A fault that an action may meet on a canvas. -/
structure Meets (c : Canvas Number) (f : Fault) : Prop where
  not_ofFrame : ¬f.OfFrame
  tame : c.Sane → c.surface.kind = .recording → f.Tame

/-- A tame fault may be met on every canvas. -/
theorem Meets.of_tame {c : Canvas Number} {f : Fault} (h : f.Tame) : c.Meets f :=
  ⟨h.not_ofFrame, fun _ _ => h⟩

/-- What may be met after a proper action might have been met before it. -/
theorem Meets.of_follows {c d : Canvas Number} {f : Fault} (h : d.Meets f) (hcd : c.Follows d) :
    c.Meets f :=
  ⟨h.not_ofFrame, fun hs hr => h.tame (hcd.sane hs) (hcd.kind.trans hr)⟩

/-- An action that, on a canvas, keeps what it should and fails only as it
    may. -/
structure ProperAt {β : Type} (c : Canvas Number) (act : CanvasM Number β) : Prop where
  follows : c.Follows (endOf (act c))
  meets : ∀ {f d}, act c = .error f d → c.Meets f

/-- An action that is proper on every canvas. -/
def Proper {β : Type} (act : CanvasM Number β) : Prop := ∀ c, ProperAt c act

section

variable {β γ : Type}

/-- An action that is proper on a canvas can be followed by a proper one. -/
theorem ProperAt.bind {c : Canvas Number} {m : CanvasM Number β} {k : β → CanvasM Number γ}
    (hm : ProperAt c m) (hk : ∀ b, Proper (k b)) : ProperAt c (m >>= k) := by
  have hc := hm.follows
  cases hmc : m c with
  | error f d =>
      rw [hmc] at hc
      refine ⟨by rw [bind_of_error hmc]; exact hc, fun h => ?_⟩
      rw [bind_of_error hmc] at h
      cases h
      exact hm.meets hmc
  | ok b d =>
      rw [hmc] at hc
      refine ⟨by rw [bind_of_ok hmc]; exact hc.trans (hk b d).follows, fun h => ?_⟩
      rw [bind_of_ok hmc] at h
      exact ((hk b d).meets h).of_follows hc

/-- A computation that divides by zero on no sane canvas. -/
theorem ProperAt.compute {c : Canvas Number} {r : Except ArithmeticFault β}
    (hr : c.Sane → Usual r) : ProperAt c (compute r : CanvasM Number β) := by
  cases r with
  | ok b => exact ⟨.refl c, fun h => by cases h⟩
  | error e =>
      refine ⟨.refl c, fun h => ?_⟩
      cases h
      refine ⟨by simp [Fault.OfFrame], fun hs _ => ?_⟩
      cases e with
      | zeroDivisor => exact absurd rfl (hr hs)
      | tooBig => rfl
      | notUsable => rfl

theorem Proper.pure (b : β) : Proper (Pure.pure b : CanvasM Number β) :=
  fun c => ⟨.refl c, fun h => by cases h⟩

/-- Two proper actions in a row are proper. -/
theorem Proper.bind {m : CanvasM Number β} {k : β → CanvasM Number γ} (hm : Proper m)
    (hk : ∀ b, Proper (k b)) : Proper (m >>= k) := fun c => (hm c).bind hk

/-- Arithmetic that does not divide by zero is proper. -/
theorem Proper.compute {r : Except ArithmeticFault β} (hr : Usual r) :
    Proper (compute r : CanvasM Number β) := fun _ => .compute fun _ => hr

/-- Going on with what was computed. -/
theorem Proper.compute_bind {r : Except ArithmeticFault β} {k : β → CanvasM Number γ}
    (hr : Usual r) (hk : ∀ b, r = .ok b → Proper (k b)) :
    Proper (TurtleLogo.compute r >>= k) := by
  cases r with
  | ok b => exact hk b rfl
  | error e =>
      have he : Usual (.error e : Except ArithmeticFault γ) := by
        intro h
        cases h
        exact hr rfl
      exact Proper.compute he

/-- Cleaning up after a proper action. -/
theorem Proper.after {m : CanvasM Number β} {done failed : CanvasM Number Unit} (hm : Proper m)
    (hdone : Proper done) (hfailed : Proper failed) : Proper (wrapUp m done failed) := by
  intro c
  have hc := (hm c).follows
  -- the action may end well or not, and so may what is done after it
  cases hmc : m c with
  | ok b d =>
      rw [hmc] at hc
      have hd := (hdone d).follows
      cases hdd : done d with
      | ok _ e =>
          rw [hdd] at hd
          have hrun : wrapUp m done failed c = .ok b e := wrapUp_ok_ok hmc hdd
          exact ⟨by rw [hrun]; exact hc.trans hd, fun h => by rw [hrun] at h; cases h⟩
      | error g e =>
          have hg := ((hdone d).meets hdd).of_follows hc
          rw [hdd] at hd
          have hrun : wrapUp m done failed c = .error g e := wrapUp_ok_error hmc hdd
          exact ⟨by rw [hrun]; exact hc.trans hd, fun h => by rw [hrun] at h; cases h; exact hg⟩
  | error f d =>
      have hf := (hm c).meets hmc
      rw [hmc] at hc
      have hd := (hfailed d).follows
      cases hdd : failed d with
      | ok _ e =>
          rw [hdd] at hd
          have hrun : wrapUp m done failed c = .error f e := wrapUp_error_ok hmc hdd
          exact ⟨by rw [hrun]; exact hc.trans hd, fun h => by rw [hrun] at h; cases h; exact hf⟩
      | error g e =>
          have hg := ((hfailed d).meets hdd).of_follows hc
          rw [hdd] at hd
          have hrun : wrapUp m done failed c = .error g e := wrapUp_error_error hmc hdd
          exact ⟨by rw [hrun]; exact hc.trans hd, fun h => by rw [hrun] at h; cases h; exact hg⟩

/-- Going on after a look at the scene. -/
theorem Proper.scene_bind {k : Scene Number → CanvasM Number γ}
    (hk : ∀ c, ProperAt c (k c.scene)) : Proper (scene? >>= k) :=
  fun c => ⟨(hk c).follows, fun h => (hk c).meets h⟩

/-- Going on after a look at the canvas. -/
theorem Proper.get_bind {k : Canvas Number → CanvasM Number γ} (hk : ∀ c, ProperAt c (k c)) :
    Proper (get >>= k) :=
  fun c => ⟨(hk c).follows, fun h => (hk c).meets h⟩

end

/-! ## Changes of the scene -/

/-- A change of the scene that opens no fill and keeps the names of the turtles,
    the current one, and a zoom that is not zero. -/
structure Mild (g : Scene Number → Scene Number) : Prop where
  fills : ∀ s, (g s).fills.length ≤ s.fills.length
  ids : ∀ s, (g s).ids = s.ids
  current : ∀ s, (g s).current = s.current
  zoom : ∀ s, s.view.zoom.isZero = false → (g s).view.zoom.isZero = false

/-- A mild change is a proper action. -/
theorem Mild.proper {g : Scene Number → Scene Number} (hg : Mild g) : Proper (change g) := by
  intro ⟨s, u⟩
  refine ⟨⟨hg.fills s, rfl, fun hs => ⟨?_, ?_, hg.zoom s hs.zoom⟩⟩, fun h => by cases h⟩
  · show (g s).ids.any (·.sameKey (g s).current) = true
    rw [hg.ids, hg.current]
    exact hs.turtle
  · show (g s).current.isList = false
    rw [hg.current]
    exact hs.name

end Canvas

namespace Scene

@[simp] theorem ids_mapTurtle (s : Scene Number) (f : Turtle Number → Turtle Number) :
    (s.mapTurtle f).ids = s.ids := by
  simp [ids, mapTurtle, Function.comp_def]

@[simp] theorem ids_clear (s : Scene Number) : s.clear.ids = s.ids := by
  simp [ids, clear, Function.comp_def]

/-- The current turtle is found if and only if one of the names is its name. -/
theorem exists_turtle_iff {s : Scene Number} :
    (∃ t, s.turtle? = some t) ↔ ∃ id ∈ s.ids, id.sameKey s.current = true := by
  rw [← Option.isSome_iff_exists, turtle?, Option.isSome_map, List.find?_isSome]
  constructor
  · rintro ⟨p, hp, hkey⟩
    exact ⟨p.1, List.mem_map_of_mem hp, hkey⟩
  · rintro ⟨id, hid, hkey⟩
    obtain ⟨p, hp, rfl⟩ := List.mem_map.1 hid
    exact ⟨p, hp, hkey⟩

/-- The current turtle is there if its name is. -/
theorem turtle?_isSome {s : Scene Number} (h : s.ids.any (·.sameKey s.current) = true) :
    s.turtle?.isSome = true :=
  Option.isSome_iff_exists.2 (exists_turtle_iff.2 (List.any_eq_true.1 h))

/-- The turtles when one has been chosen: it is among them, or it is put there. -/
theorem mem_tell {s : Scene Number} {id : Value} {p : Value × Turtle Number}
    (h : p ∈ if s.hasTurtle id then s.turtles else s.turtles ++ [(id, Turtle.new)]) :
    p ∈ s.turtles ∨ p = (id, Turtle.new) := by
  split at h
  · exact .inl h
  · exact (List.mem_append.1 h).imp_right List.mem_singleton.1

/-- Whoever is chosen is there. -/
theorem exists_turtle_tell (s : Scene Number) {id : Value} (hname : id.isList = false) :
    ∃ t, turtle? { s with
      turtles := if s.hasTurtle id then s.turtles else s.turtles ++ [(id, Turtle.new)]
      current := id, dirty := true } = some t := by
  refine exists_turtle_iff.2 ?_
  by_cases hold : s.hasTurtle id = true
  · rw [if_pos hold]
    obtain ⟨p, hp, hkey⟩ := List.any_eq_true.1 hold
    exact ⟨p.1, List.mem_map_of_mem hp, hkey⟩
  · rw [if_neg hold]
    refine ⟨id, ?_, Value.sameKey_self hname⟩
    exact List.mem_map_of_mem (List.mem_append_right _ (List.mem_singleton.2 rfl))

end Scene

namespace Canvas

theorem mild_mapTurtle (f : Turtle Number → Turtle Number) : Mild (·.mapTurtle f) :=
  ⟨fun _ => Nat.le_refl _, fun s => s.ids_mapTurtle f, fun _ => rfl, fun _ h => h⟩

theorem mild_emit (shape : Shape Number) : Mild (·.emit shape) :=
  ⟨fun s => by simp [Scene.emit], fun _ => rfl, fun _ => rfl, fun _ h => h⟩

/-- Drawing a line is mild, be the pen up or down. -/
theorem mild_stroke (t : Turtle Number) (x1 y1 x2 y2 : Number) :
    Mild fun s => s.stroke t x1 y1 x2 y2 := by
  by_cases h : t.penDown = true
  · simpa only [Scene.stroke, if_pos h] using mild_emit (.line x1 y1 x2 y2 t.pen)
  · simp only [Scene.stroke, if_neg h]
    exact ⟨fun _ => Nat.le_refl _, fun _ => rfl, fun _ => rfl, fun _ h => h⟩

theorem mild_touch : Mild Scene.touch :=
  ⟨fun _ => Nat.le_refl _, fun _ => rfl, fun _ => rfl, fun _ h => h⟩

/-- Two mild changes in a row are mild. -/
theorem Mild.comp {g h : Scene Number → Scene Number} (hg : Mild g) (hh : Mild h) :
    Mild fun s => h (g s) :=
  ⟨fun s => Nat.le_trans (hh.fills _) (hg.fills s), fun s => (hh.ids _).trans (hg.ids s),
    fun s => (hh.current _).trans (hg.current s), fun s hz => hh.zoom _ (hg.zoom s hz)⟩

/-- Ending a fill is mild. -/
theorem mild_endFill : Mild Scene.endFill := by
  refine ⟨fun s => ?_, fun s => ?_, fun s => ?_, fun s h => ?_⟩ <;>
    cases hs : s.fills <;> simp [Scene.endFill, Scene.emit, Scene.ids, *]

/-- What ends the innermost fill. -/
theorem length_fills_endFill (s : Scene Number) :
    s.endFill.fills.length = s.fills.length - 1 := by
  cases hs : s.fills <;> simp [Scene.endFill, Scene.emit, hs]

theorem mild_cancelFill : Mild Scene.cancelFill :=
  ⟨fun s => by simp [Scene.cancelFill], fun _ => rfl, fun _ => rfl, fun _ h => h⟩

theorem mild_clear : Mild Scene.clear :=
  ⟨fun _ => Nat.zero_le _, fun s => s.ids_clear, fun _ => rfl, fun _ h => h⟩

/-! ## Turtles -/

/-- The current turtle is given where it is among the turtles. -/
theorem turtle_of_some {α : Type} {c : Canvas α} {t : Turtle α} (h : c.scene.turtle? = some t) :
    (turtle : CanvasM α (Turtle α)) c = .ok t c := by
  rw [turtle, bind_of_ok (rfl : scene? c = .ok c.scene c), h]
  rfl

/-- Where it is not among the turtles, there is a fault. -/
theorem turtle_of_none {c : Canvas Number} (h : c.scene.turtle? = none) :
    (turtle : CanvasM Number (Turtle Number)) c = .error .noSuchTurtle c := by
  rw [turtle, bind_of_ok (rfl : scene? c = .ok c.scene c), h]
  rfl

/-- A change of the current turtle is one of the turtle that is found. -/
theorem turtle?_mapTurtle {α : Type} (s : Scene α) (f : Turtle α → Turtle α) :
    (s.mapTurtle f).turtle? = s.turtle?.map f := by
  rw [Scene.turtle?, Scene.turtle?, Scene.mapTurtle, List.find?_map, Option.map_map,
    Option.map_map]
  refine Option.map_congr fun p hp => ?_
  have hkey := List.find?_some hp
  exact if_pos hkey

/-- Asking for the current turtle is proper, as it is there on a sane canvas. -/
theorem proper_turtle : Proper (turtle : CanvasM Number (Turtle Number)) := by
  intro c
  cases ht : c.scene.turtle? with
  | some t =>
      refine ⟨by rw [turtle_of_some ht]; exact .refl c, fun h => ?_⟩
      rw [turtle_of_some ht] at h
      cases h
  | none =>
      refine ⟨by rw [turtle_of_none ht]; exact .refl c, fun h => ?_⟩
      rw [turtle_of_none ht] at h
      cases h
      refine ⟨by simp [Fault.OfFrame], fun hs _ => ?_⟩
      have hsome := Scene.turtle?_isSome hs.turtle
      rw [ht] at hsome
      cases hsome

theorem proper_changeTurtle (f : Turtle Number → Turtle Number) : Proper (changeTurtle f) :=
  .bind proper_turtle fun _ => (mild_mapTurtle f).proper

/-- Choosing a turtle by its name does not fail, and adds it if it is new. -/
theorem tell_of_name {who : Value} (h : (nameOf who).isList = false) :
    tell who = change fun s : Scene Number =>
      { s with
        turtles := if s.hasTurtle (nameOf who) then s.turtles
          else s.turtles ++ [(nameOf who, Turtle.new)]
        current := nameOf who
        dirty := true } := by
  rw [tell]
  simp only [h]
  rfl

/-- Choosing a turtle that is not named by a list. -/
theorem proper_tell {who : Value} (h : (nameOf who).isList = false) :
    Proper (tell who : CanvasM Number Unit) := by
  rw [tell_of_name h]
  intro ⟨s, u⟩
  refine ⟨⟨Nat.le_refl _, rfl, fun hs => ⟨?_, h, hs.zoom⟩⟩, fun hf => by cases hf⟩
  exact List.any_eq_true.2 (Scene.exists_turtle_iff.1 (s.exists_turtle_tell h))

/-- A list names no turtle. -/
theorem tell_of_list {who : Value} (h : (nameOf who).isList = true) (c : Canvas Number) :
    tell who c = .error .listAsTurtle c := by
  rw [tell]
  simp only [h]
  rfl

/-- What beginning a fill does, on a canvas with a current turtle. -/
theorem beginFill_cases (c : Canvas Number) :
    (∃ t, beginFill c = .ok () { c with scene := c.scene.beginFill t })
      ∨ ∃ f, beginFill c = .error f c ∧ c.Meets f := by
  cases ht : c.scene.turtle? with
  | some t =>
      refine Or.inl ⟨t, ?_⟩
      rw [beginFill, bind_of_ok (turtle_of_some ht)]
      rfl
  | none =>
      refine Or.inr ⟨.noSuchTurtle, ?_, (proper_turtle c).meets (turtle_of_none ht)⟩
      rw [beginFill, bind_of_error (turtle_of_none ht)]

/-- Beginning a fill leaves the turtles alone. -/
theorem sane_beginFill {c : Canvas Number} (h : c.Sane) (t : Turtle Number) :
    Sane { c with scene := c.scene.beginFill t } := ⟨h.turtle, h.name, h.zoom⟩

/-- What happens between the beginning of a fill and its end. -/
theorem Follows.of_fill {c d : Canvas Number} {t : Turtle Number} {g : Scene Number → Scene Number}
    (h : Follows { c with scene := c.scene.beginFill t } d) (hg : Mild g)
    (hend : ∀ s, (g s).fills.length = s.fills.length - 1) :
    c.Follows { d with scene := g d.scene } := by
  have hfills : d.scene.fills.length ≤ c.scene.fills.length + 1 := h.fills
  refine ⟨?_, h.kind, fun hs => ((hg.proper d).follows).sane (h.sane (sane_beginFill hs t))⟩
  show (g d.scene).fills.length ≤ _
  rw [hend]
  omega

/-- A change of the view is proper if it divides by nothing and does not make the
    zoom zero. -/
theorem proper_changeView {f : View Number → Except ArithmeticFault (View Number)}
    (hf : ∀ v, Usual (f v))
    (hz : ∀ v v', v.zoom.isZero = false → f v = .ok v' → v'.zoom.isZero = false) :
    Proper (changeView f) := by
  have hchange : ∀ c : Canvas Number, changeView f c =
      match f c.scene.view with
      | .ok v => .ok () ⟨{ c.scene with view := v }, c.surface⟩
      | .error e => .error (.arithmetic e) c := by
    intro c
    rw [changeView, TurtleLogo.get_bind]
    cases f c.scene.view <;> rfl
  intro c
  constructor
  · rw [hchange]
    cases hv : f c.scene.view with
    | error e => exact .refl c
    | ok v => exact ⟨Nat.le_refl _, rfl, fun hs => ⟨hs.turtle, hs.name, hz _ _ hs.zoom hv⟩⟩
  · intro g d h
    rw [hchange] at h
    have hu := hf c.scene.view
    cases hv : f c.scene.view with
    | ok v => rw [hv] at h; cases h
    | error e =>
        rw [hv] at h hu
        cases h
        cases e with
        | zeroDivisor => exact absurd rfl hu
        | tooBig => exact .of_tame rfl
        | notUsable => exact .of_tame rfl

/-! ## Showing the scene -/

/-- Two actions on the surface in a row are one action on it. -/
theorem onSurface_bind {β γ : Type} (m : EStateM Fault (Surface Number) β)
    (k : β → EStateM Fault (Surface Number) γ) :
    onSurface (m >>= k) = onSurface m >>= fun b => onSurface (k b) := by
  funext ⟨s, u⟩
  cases hm : m u with
  | ok b u' =>
      rw [bind_of_ok (show onSurface m ⟨s, u⟩ = .ok b ⟨s, u'⟩ by simp only [onSurface, hm])]
      simp only [onSurface, bind_of_ok hm]
  | error f u' =>
      rw [bind_of_error (show onSurface m ⟨s, u⟩ = .error f ⟨s, u'⟩ by simp only [onSurface, hm])]
      simp only [onSurface, bind_of_error hm]

/-- What is done with a surface is proper if the surface stays of its kind, and
    if one that records fails tamely. -/
theorem proper_onSurface {β : Type} {m : EStateM Fault (Surface Number) β}
    (hkind : ∀ u, (endOf (m u)).kind = u.kind)
    (hfault : ∀ {u f u'}, m u = .error f u' → ¬f.OfFrame ∧ (u.kind = .recording → f.Tame)) :
    Proper (onSurface m) := by
  intro ⟨s, u⟩
  constructor
  · have hu := hkind u
    cases hm : m u with
    | ok b u' =>
        simp only [onSurface, hm]
        rw [hm] at hu
        exact ⟨Nat.le_refl _, hu, fun h => ⟨h.turtle, h.name, h.zoom⟩⟩
    | error f u' =>
        simp only [onSurface, hm]
        rw [hm] at hu
        exact ⟨Nat.le_refl _, hu, fun h => ⟨h.turtle, h.name, h.zoom⟩⟩
  · intro f d h
    cases hm : m u with
    | ok b u' => simp only [onSurface, hm] at h; cases h
    | error g u' =>
        simp only [onSurface, hm] at h
        cases h
        exact ⟨(hfault hm).1, fun _ => (hfault hm).2⟩

/-- Arithmetic is proper on the surface, too. -/
theorem proper_onSurface_compute {β : Type} {r : Except ArithmeticFault β} (hr : Usual r) :
    Proper (onSurface (compute r) : CanvasM Number β) := by
  have h := Proper.compute hr
  have hlift : (onSurface (compute r) : CanvasM Number β) = compute r := by
    funext ⟨s, u⟩
    cases r <;> rfl
  rw [hlift]
  exact h

/-- A call on the surface is proper, as on a recording surface it cannot fail. -/
theorem proper_draw (call : Call Number) : Proper (onSurface (Surface.draw call)) := by
  have hput : ∀ (u : Surface Number) m, (u.put m).kind = u.kind := by
    intro u m
    cases m with
    | call c => cases c <;> rfl
    | stroke s => cases s <;> rfl
  have hdraw : ∀ u : Surface Number, Surface.draw call u =
      match Surface.mark? u.kind u.known call with
      | .ok none => .ok () u
      | .ok (some m) => .ok () (u.put m)
      | .error e => .error (.arithmetic e) u := by
    intro u
    rw [Surface.draw, TurtleLogo.get_bind]
    cases Surface.mark? u.kind u.known call with
    | error e => rfl
    | ok o => cases o <;> rfl
  apply proper_onSurface
  · intro u
    rw [hdraw]
    cases Surface.mark? u.kind u.known call with
    | error e => rfl
    | ok o =>
        cases o with
        | none => rfl
        | some m => exact hput u m
  · intro u f u' h
    rw [hdraw] at h
    cases hm : Surface.mark? u.kind u.known call with
    | ok o => rw [hm] at h; cases o <;> cases h
    | error e =>
        rw [hm] at h
        cases h
        refine ⟨by simp [Fault.OfFrame], fun hrec => ?_⟩
        rw [hrec] at hm
        cases hm

/-- Showing shapes is proper. -/
theorem proper_drawShapes (v : View Number) (background : Text) (ss : List (Shape Number)) :
    Proper (onSurface (drawShapes v background ss)) := by
  induction ss with
  | nil => exact proper_onSurface_compute (.ok ())
  | cons s ss ih =>
      rw [drawShapes, onSurface_bind]
      refine .bind (proper_onSurface_compute (s.usual_call v background)) fun call => ?_
      rw [onSurface_bind]
      exact .bind (proper_draw call) fun _ => ih

/-- Showing turtles is proper. -/
theorem proper_drawTurtles (v : View Number) (ts : List (Turtle Number)) :
    Proper (onSurface (drawTurtles v ts)) := by
  induction ts with
  | nil => exact proper_onSurface_compute (.ok ())
  | cons t ts ih =>
      rw [drawTurtles]
      dsimp only
      split
      · rw [onSurface_bind]
        refine .bind (proper_onSurface_compute (t.usual_call v)) fun call => ?_
        rw [onSurface_bind]
        exact .bind (proper_draw call) fun _ => ih
      · exact ih

/-- Showing a whole scene is proper. -/
theorem proper_replay (s : Scene Number) : Proper (onSurface s.replay) := by
  rw [Scene.replay, onSurface_bind]
  refine .bind (proper_draw _) fun _ => ?_
  rw [onSurface_bind]
  exact .bind (proper_drawShapes _ _ _) fun _ => proper_drawTurtles _ _

/-- Where the view is moved to does not matter for its zoom. -/
theorem isZero_of_moved {β : Type} {r : Except ArithmeticFault β} {g : β → View Number}
    {v v' : View Number} (hg : ∀ b, (g b).zoom = v.zoom) (hv : v.zoom.isZero = false)
    (h : (r >>= fun b => pure (g b)) = .ok v') : v'.zoom.isZero = false := by
  obtain ⟨b, -, h⟩ := Except.bind_eq_ok h
  cases h
  rw [hg]
  exact hv

/-- Centring the view is proper. -/
theorem proper_centreView : Proper (centreView : CanvasM Number Unit) := by
  refine .get_bind fun c => .bind (proper_changeView (fun v => v.usual_centreAcross _) ?_ c)
    fun _ => proper_changeView (fun v => v.usual_centreDown _) ?_
  · exact fun _ _ => isZero_of_moved fun _ => rfl
  · exact fun _ _ => isZero_of_moved fun _ => rfl

/-- Showing the scene as it is is proper. -/
theorem proper_redraw : Proper (redraw : CanvasM Number Unit) := by
  refine .bind (Mild.proper ⟨fun _ => Nat.le_refl _, fun _ => rfl, fun _ => rfl, fun _ h => h⟩)
    fun _ => .bind proper_centreView fun _ => .get_bind fun c => proper_replay c.scene c

/-- Starting over is proper. -/
theorem proper_reset : Proper (reset : CanvasM Number Unit) := by
  refine .bind (fun ⟨s, u⟩ => ⟨⟨Nat.zero_le _, rfl, fun _ => ⟨rfl, rfl, rfl⟩⟩, fun h => by cases h⟩)
    fun _ => proper_redraw

/-! ## Motion -/

/-- Finding the visible area is proper, for it divides by the zoom. -/
theorem proper_halfExtents : Proper (halfExtents : CanvasM Number (Point Number)) := by
  refine .get_bind fun c => .compute fun hs => ?_
  have hzoom := hs.zoom
  refine .bind_of (Number.usual_mul _ _) fun wide hwide => ?_
  refine .bind (Number.usual_div (Number.isZero_twice hzoom hwide)) fun x => ?_
  refine .bind_of (Number.usual_mul _ _) fun high hhigh => ?_
  exact .bind (Number.usual_div (Number.isZero_twice hzoom hhigh)) fun y => .ok _

/-- Walking in hops is proper. -/
theorem proper_walk (t : Turtle Number) (hopX hopY halfWidth halfHeight : Number) (steps : Nat)
    (x y : Number) : Proper (walk t hopX hopY halfWidth halfHeight steps x y) := by
  induction steps generalizing x y with
  | zero => exact .pure _
  | succ steps ih =>
      refine .bind (.compute (Number.usual_add _ _)) fun nx => ?_
      refine .bind (.compute (Number.usual_add _ _)) fun ny => ?_
      refine .bind (mild_stroke t x y nx ny).proper fun _ => ?_
      refine .bind (.compute (usual_wrapCoordinate _ _)) fun wx => ?_
      exact .bind (.compute (usual_wrapCoordinate _ _)) fun wy => ih wx wy

theorem proper_place (x y : Number) : Proper (change (·.place x y)) :=
  (mild_mapTurtle _).proper

/-- A move on the wrapped canvas is proper. -/
theorem proper_wrapTo (t : Turtle Number) (x y : Number) : Proper (wrapTo t x y) := by
  refine .bind proper_halfExtents fun half => ?_
  refine .bind (.compute (Number.usual_sub _ _)) fun dx => ?_
  refine .bind (.compute (Number.usual_sub _ _)) fun dy => ?_
  refine .compute_bind (usual_hopCount dx dy) fun steps hsteps => ?_
  have hpos : steps ≠ 0 := Nat.ne_of_gt (hopCount_pos hsteps)
  have hdiv : ∀ d : Number, Usual (Scalar.div d (Scalar.ofInt steps)) := fun d =>
    Number.usual_div (by simpa [Scalar.ofInt, Number.isZero] using hpos)
  refine .bind (.compute (hdiv _)) fun hopX => .bind (.compute (hdiv _)) fun hopY => ?_
  refine .bind (proper_walk _ _ _ _ _ _ _ _) fun _ => ?_
  refine .bind (.compute (usual_wrapCoordinate _ _)) fun wx => ?_
  exact .bind (.compute (usual_wrapCoordinate _ _)) fun wy => proper_place wx wy

theorem proper_lineTo (t : Turtle Number) (x y : Number) : Proper (lineTo t x y) :=
  ((mild_stroke t t.x t.y x y).comp (mild_mapTurtle _)).proper

theorem proper_touch : Proper (change (·.touch) : CanvasM Number Unit) := mild_touch.proper

theorem proper_scene? : Proper (scene? : CanvasM Number (Scene Number)) :=
  .get_bind fun c => Proper.pure c.scene c

/-- A move is proper, whatever the edge does to it. -/
theorem proper_moveTo (x y : Number) : Proper (moveTo x y) := by
  refine .bind proper_turtle fun t => .bind proper_scene? fun s => ?_
  dsimp only
  split
  · exact .bind (proper_wrapTo t x y) fun _ => proper_touch
  · exact .bind proper_halfExtents fun _ => .bind (proper_lineTo t _ _) fun _ => proper_touch
  · exact .bind (proper_lineTo t x y) fun _ => proper_touch

/-- Turning to a heading is proper. -/
theorem proper_setHeading (angle : Number) : Proper (setHeading angle) :=
  .bind (.compute (usual_normalizeHeading angle)) fun _ =>
    .bind (proper_changeTurtle _) fun _ => proper_touch

theorem proper_forward (distance : Number) : Proper (forward distance) :=
  .bind proper_turtle fun _ => .bind (.compute (usual_pointAt _ _ _ _)) fun _ => proper_moveTo _ _

theorem proper_left (angle : Number) : Proper (left angle) :=
  .bind proper_turtle fun _ => .bind (.compute (Number.usual_sub _ _)) fun _ => proper_setHeading _

theorem proper_right (angle : Number) : Proper (right angle) :=
  .bind proper_turtle fun _ => .bind (.compute (Number.usual_add _ _)) fun _ => proper_setHeading _

theorem proper_home : Proper (home : CanvasM Number Unit) :=
  .bind (proper_moveTo _ _) fun _ => proper_setHeading _

theorem proper_setX (x : Number) : Proper (setX x) :=
  .bind proper_turtle fun _ => proper_moveTo _ _

theorem proper_setY (y : Number) : Proper (setY y) :=
  .bind proper_turtle fun _ => proper_moveTo _ _

/-- Drawing a circle is proper. -/
theorem proper_circle (radius : Number) : Proper (circle radius) := by
  refine .bind proper_turtle fun t => ?_
  by_cases h : (t.penDown && !Scalar.isZero radius) = true
  · simpa only [if_pos h] using (mild_emit (.circle t.x t.y radius t.pen)).proper
  · simpa only [if_neg h] using mild_touch.proper

/-- Going to the end of an arc is proper. -/
theorem proper_endArc (t : Turtle Number) (cx cy radius ex ey sweep : Number) :
    Proper (endArc t cx cy radius ex ey sweep) := by
  refine .bind (.compute (Number.usual_mul _ _)) fun rx => ?_
  refine .bind (.compute (Number.usual_add _ _)) fun x => ?_
  refine .bind (.compute (Number.usual_mul _ _)) fun ry => ?_
  refine .bind (.compute (Number.usual_add _ _)) fun y => ?_
  refine .bind (proper_place x y) fun _ => ?_
  refine .bind (.compute (Number.usual_add _ _)) fun turned => ?_
  refine .bind (.compute (usual_normalizeHeading _)) fun h => ?_
  exact ((mild_mapTurtle _).comp mild_touch).proper

/-- Going along an arc is proper. -/
theorem proper_arc (angle radius : Number) : Proper (arc angle radius) := by
  refine .bind proper_turtle fun t => ?_
  refine .bind (.compute (Number.usual_add _ _)) fun side => ?_
  refine .bind (.compute (usual_pointAt _ _ _ _)) fun ⟨cx, cy⟩ => ?_
  refine .bind (.compute (Number.usual_sub _ _)) fun start => ?_
  refine .bind (.compute (Number.usual_mul _ _)) fun sweep => ?_
  refine .bind (.compute (Number.usual_add _ _)) fun last => ?_
  refine .bind (.compute (Number.usual_direction _)) fun ⟨ex, ey⟩ => ?_
  dsimp only
  split
  · refine .bind (.compute (usual_normalizeHeading start)) fun first => ?_
    exact .bind (mild_emit _).proper fun _ => proper_endArc _ _ _ _ _ _ _
  · exact proper_endArc _ _ _ _ _ _ _

theorem proper_endFill : Proper (endFill : CanvasM Number Unit) := mild_endFill.proper

theorem proper_cancelFill : Proper (cancelFill : CanvasM Number Unit) := mild_cancelFill.proper

/-! ## Pen, screen and view -/

/-- Choosing the background is proper. -/
theorem proper_setBackground (color : Text) : Proper (setBackground color : CanvasM Number Unit) :=
  .bind (Mild.proper ⟨fun _ => Nat.le_refl _, fun _ => rfl, fun _ => rfl, fun _ h => h⟩) fun _ =>
    proper_redraw

theorem proper_setMode (mode : EdgeMode) : Proper (setMode mode : CanvasM Number Unit) :=
  Mild.proper ⟨fun _ => Nat.le_refl _, fun _ => rfl, fun _ => rfl, fun _ h => h⟩

theorem proper_setVisible (visible : Bool) : Proper (setVisible visible : CanvasM Number Unit) :=
  .bind (proper_changeTurtle _) fun _ => proper_touch

theorem proper_clearScreen : Proper (clearScreen : CanvasM Number Unit) :=
  .bind mild_clear.proper fun _ => proper_redraw

/-- Emptying the drawing is proper. -/
theorem proper_clean : Proper (clean : CanvasM Number Unit) :=
  .bind (Mild.proper ⟨fun _ => Nat.le_refl _, fun _ => rfl, fun _ => rfl, fun _ h => h⟩) fun _ =>
    proper_redraw

theorem proper_zoomIn : Proper (zoomIn : CanvasM Number Unit) :=
  .bind (proper_changeView View.usual_zoomIn fun _ _ => View.isZero_zoomIn) fun _ => proper_redraw

/-- Looking from farther away is proper. -/
theorem proper_zoomOut : Proper (zoomOut : CanvasM Number Unit) :=
  .bind (proper_changeView View.usual_zoomOut fun _ _ _ => View.isZero_zoomOut) fun _ =>
    proper_redraw

/-- Moving the picture is proper. -/
theorem proper_pan (dx dy : Number) : Proper (pan dx dy) := by
  refine .bind (proper_changeView (fun v => .bind (Number.usual_add _ _) fun _ => .ok _)
    fun _ _ => isZero_of_moved fun _ => rfl) fun _ => ?_
  refine .bind (proper_changeView (fun v => .bind (Number.usual_add _ _) fun _ => .ok _)
    fun _ _ => isZero_of_moved fun _ => rfl) fun _ => ?_
  exact proper_redraw

/-- Looking from where one looked first is proper. -/
theorem proper_resetView : Proper (resetView : CanvasM Number Unit) :=
  .bind (Mild.proper ⟨fun _ => Nat.le_refl _, fun _ => rfl, fun _ => rfl, fun _ _ => rfl⟩) fun _ =>
    proper_redraw

/-- Reading off coordinates is proper. -/
theorem proper_coordinatesAt (px py : Number) : Proper (coordinatesAt px py) := by
  refine .bind proper_centreView fun _ => .scene_bind fun c => ?_
  refine .bind (.compute fun hs => View.usual_toLogical hs.zoom px py) fun ⟨x, y⟩ => ?_
  refine .bind (.compute (Number.usual_whole _ _)) fun _ => ?_
  exact .bind (.compute (Number.usual_whole _ _)) fun _ => .pure _

/-- Saving on the surface is proper, as a recording one always can. -/
theorem proper_save (path : Text) : Proper (onSurface (Surface.save path)) := by
  have hsave : ∀ u : Surface Number,
      (∃ x, Surface.save path u = .ok () { u with saved := x })
        ∨ (u.kind ≠ .recording ∧ ∃ f, ¬f.OfFrame ∧ Surface.save path u = .error f u) := by
    intro u
    rw [Surface.save, TurtleLogo.get_bind]
    cases hk : u.kind with
    | recording => exact Or.inl ⟨_, rfl⟩
    | plain => exact Or.inr ⟨by simp, .cannotSave, by simp [Fault.OfFrame], rfl⟩
    | raster =>
        dsimp only
        cases u.folder.target (Folder.pictureName path) with
        | ok _ => exact Or.inl ⟨_, rfl⟩
        | error _ => exact Or.inr ⟨by simp, .cannotOpen _, by simp [Fault.OfFrame], rfl⟩
  apply proper_onSurface
  · intro u
    rcases hsave u with ⟨x, h⟩ | ⟨-, f, -, h⟩ <;> rw [h] <;> rfl
  · intro u f u' hf
    rcases hsave u with ⟨x, h⟩ | ⟨hk, g, hg, h⟩
    · rw [h] at hf; cases hf
    · rw [h] at hf
      cases hf
      exact ⟨hg, fun hrec => absurd hrec hk⟩

/-- Giving turtles their visibility back leaves their names. -/
theorem ids_restoreVisible (shown : List Bool) (ts : List (Value × Turtle Number)) :
    (restoreVisible shown ts).map (·.1) = ts.map (·.1) := by
  induction ts generalizing shown with
  | nil => cases shown <;> rfl
  | cons t ts ih =>
      cases shown with
      | nil => rfl
      | cons v shown => simp [restoreVisible, ih]

/-- Saving the picture is proper. -/
theorem proper_savePicture (path : Text) : Proper (savePicture path : CanvasM Number Unit) := by
  have hide : Mild fun s : Scene Number =>
      { s with turtles := s.turtles.map fun (id, t) => (id, { t with visible := false }) } :=
    ⟨fun _ => Nat.le_refl _, fun s => by simp [Scene.ids, Function.comp_def], fun _ => rfl,
      fun _ h => h⟩
  have put : ∀ shown, Mild fun s : Scene Number =>
      { s with turtles := restoreVisible shown s.turtles } := fun shown =>
    ⟨fun _ => Nat.le_refl _, fun s => ids_restoreVisible shown s.turtles, fun _ => rfl,
      fun _ h => h⟩
  refine .bind proper_scene? fun s => ?_
  have hback := (put (s.turtles.map (·.2.visible))).proper.bind fun _ => proper_redraw
  exact .after (hide.proper.bind fun _ => .bind proper_redraw fun _ => proper_save path) hback hback

/-- Bringing the surface up to date is proper. -/
theorem proper_present : Proper (present : CanvasM Number Unit) := by
  refine .bind proper_scene? fun s => ?_
  split
  · exact proper_redraw
  · exact .pure _

end Canvas

end TurtleLogo
