import TurtleLogo.Proofs.Quantity
import TurtleLogo.Proofs.Shelter

/-! # Counted loops

    `REPEAT` and `FOR` say before their first pass how many passes there will
    be, and unless a pass ends the loop they make exactly these
    (`loops_counted`).  `Passes` is the reference: passes one after another,
    each begun by giving the loop its count or its variable anew.

    * `REPEAT n` makes as many passes as there are whole numbers from one to
      `n`, whatever the fraction of `n`.
    * `FOR` over whole numbers makes `forCount` passes, in either direction.
      Its value is computed from the number of the pass and not from the value
      before, so an assignment to the variable inside the body is forgotten. -/

namespace TurtleLogo

/-- A number that is finite needs no mark. -/
theorem World.mark_of_isFinite {n : Number} (h : n.isFinite = true) (w : World) :
    w.mark n = (n, w) := by
  unfold mark
  split
  · cases h
  · rfl

/-! ## Counts -/

/-- How many passes a `FOR` over whole numbers makes. -/
def forCount (start finish step : ℤ) : ℤ :=
  max 0 (⌊((finish - start : ℤ) : ℚ) / step⌋ + 1)

/-- The passes of a `FOR` are over when there have been as many as it has. -/
theorem forCount_le_iff {start finish step : ℤ} (hstep : step ≠ 0) (k : ℕ) :
    forCount start finish step ≤ k
      ↔ if 0 < step then finish < start + k * step else start + k * step < finish := by
  have hcount : forCount start finish step ≤ k ↔ ((finish - start : ℤ) : ℚ) / step < k := by
    rw [forCount, max_le_iff, Int.add_one_le_iff, Int.floor_lt]
    exact and_iff_right (Int.natCast_nonneg k)
  rw [hcount]
  split
  · rename_i hpos
    rw [div_lt_iff₀ (by exact_mod_cast hpos)]
    norm_cast
    exact sub_lt_iff_lt_add'
  · rename_i hneg
    have hneg : step < 0 := lt_of_le_of_ne (not_lt.1 hneg) hstep
    rw [div_lt_iff_of_neg (by exact_mod_cast hneg)]
    norm_cast
    exact lt_sub_iff_add_lt'

namespace Session

/-- A value is past the end of a loop exactly from the count on. -/
theorem isPast_iff {name : Text} {start finish step : ℤ} (hstep : step ≠ 0) (k : ℕ) :
    LoopRange.isPast ⟨name, .int start, .int finish, .int step⟩ (.int (start + k * step)) = true
      ↔ forCount start finish step ≤ k := by
  have hlt : ∀ a b : ℤ, Number.lt (.int a) (.int b) = true ↔ a < b := fun a b =>
    (Number.lt_iff rfl rfl).trans Int.cast_lt
  rw [forCount_le_iff hstep, LoopRange.isPast]
  by_cases hpos : 0 < step
  · rw [if_pos hpos, if_pos ((hlt 0 step).2 hpos)]
    exact hlt _ _
  · rw [if_neg hpos, if_neg fun h => hpos ((hlt 0 step).1 h)]
    exact hlt _ _

/-! ## Passes -/

/-- The passes of a loop in sequence, the first with the given number.  Each
    begins with a look that finds no request to stop, starts in the world that
    `start` makes of the names there, and runs to its end.  The result is the
    worlds in which they start and the one in which the last has ended; there
    is none if a signal, a fault or a request to stop comes up. -/
def passes (run : SessionM Flow) (start : Nat → Store → Store) :
    Nat → Nat → World → Option (List World × World)
  | 0, _, w => some ([], w)
  | n + 1, k, w =>
      match stopRequested w with
      | .ok false w' =>
          match run { w' with store := start k w'.store } with
          | .ok (.done _) u => (passes run start n (k + 1) u).map fun r =>
              ({ w' with store := start k w'.store } :: r.1, r.2)
          | _ => none
      | _ => none

/-- What it takes to make a pass and those after it. -/
theorem passes_succ {run : SessionM Flow} {start : Nat → Store → Store} {n k : Nat}
    {w v : World} {starts : List World} (h : passes run start (n + 1) k w = some (starts, v)) :
    ∃ w' rest u more, stopRequested w = .ok false w'
      ∧ run { w' with store := start k w'.store } = .ok (.done rest) u
      ∧ passes run start n (k + 1) u = some (more, v)
      ∧ starts = { w' with store := start k w'.store } :: more := by
  rw [passes] at h
  split at h
  · rename_i w' hlook
    split at h
    · rename_i rest u hrun
      obtain ⟨r, hr, hpair⟩ := Option.map_eq_some_iff.1 h
      cases hpair
      exact ⟨w', rest, u, r.1, hlook, hrun, hr, rfl⟩
    · cases h
  · cases h

/-- There are as many starts as passes. -/
theorem length_passes {run : SessionM Flow} {start : Nat → Store → Store} {n k : Nat}
    {w v : World} {starts : List World} (h : passes run start n k w = some (starts, v)) :
    starts.length = n := by
  induction n generalizing k w starts with
  | zero =>
      cases h
      rfl
  | succ n ih =>
      obtain ⟨w', rest, u, more, -, -, hmore, rfl⟩ := passes_succ h
      rw [List.length_cons, ih hmore]

/-- What a world `C` keeps from pass to pass, and what holds of every pass,
    given by its number and the world in which it starts. -/
theorem passes_spec {run : SessionM Flow} {start : Nat → Store → Store} {C : World → Prop}
    {P : Nat → World → Prop}
    (hlook : ∀ {w b w'}, C w → stopRequested w = .ok b w' → C w')
    (hstart : ∀ {k w}, C w → P k { w with store := start k w.store })
    (hrun : ∀ {k w rest u}, C w → run { w with store := start k w.store } = .ok (.done rest) u →
      C u) {n k : Nat} {w v : World} {starts : List World}
    (h : passes run start n k w = some (starts, v)) (hw : C w) :
    C v ∧ ∀ i (hi : i < starts.length), P (k + i) starts[i] := by
  induction n generalizing k w starts with
  | zero =>
      cases h
      exact ⟨hw, fun i hi => absurd hi (Nat.not_lt_zero i)⟩
  | succ n ih =>
      obtain ⟨w', rest, u, more, look, body, hmore, rfl⟩ := passes_succ h
      have hw' := hlook hw look
      obtain ⟨hv, hrest⟩ := ih hmore (hrun hw' body)
      refine ⟨hv, fun i hi => ?_⟩
      cases i with
      | zero => exact hstart hw'
      | succ i =>
          have hnext := hrest i (Nat.lt_of_succ_lt_succ hi)
          rwa [Nat.add_right_comm] at hnext

/-- The start of a pass of `REPEAT`. -/
def counted (k : Nat) (s : Store) : Store := { s with repcount := some k }

/-- The start of a pass of `FOR`. -/
def bound (name : Text) (start step : ℤ) (k : Nat) (s : Store) : Store :=
  s.bindInnermost name (.number (.int (start + k * step)))

/-- A `REPEAT` whose passes end well ends where the last one does. -/
theorem repeatPasses_eq {E : Engine} {body : List Token} {n k : Nat} {w v : World}
    {starts : List World} (h : passes (E.block body) counted n k w = some (starts, v)) :
    repeatPasses E body n k w = .ok none v := by
  induction n generalizing k w starts with
  | zero =>
      cases h
      rfl
  | succ n ih =>
      obtain ⟨w', rest, u, more, look, run, hmore, -⟩ := passes_succ h
      have hset : changeStore (counted k) w' = .ok () { w' with store := counted k w'.store } := rfl
      rw [repeatPasses, bind_of_ok look]
      exact (bind_of_ok hset).trans ((bind_of_ok run).trans (ih hmore))

/-- What a pass of `FOR` begins with. -/
theorem forPasses_succ (E : Engine) (body : List Token) (name : Text) (start finish step : ℤ)
    (patience k : Nat) : forPasses E ⟨name, .int start, .int finish, .int step⟩ body (patience + 1) k
      = (do
        if ← stopRequested then pure none
        else if LoopRange.isPast ⟨name, .int start, .int finish, .int step⟩ (.int (start + k * step))
        then pure none
        else
          changeStore (bound name start step k)
          match ← E.block body with
          | .signal s => pure (some s)
          | .done _ =>
              forPasses E ⟨name, .int start, .int finish, .int step⟩ body patience (k + 1)) := by
  rw [forPasses]
  rfl

/-- The passes of `FOR` that are left, and the look after them. -/
theorem forPasses_eq {E : Engine} {body : List Token} {name : Text} {start finish step : ℤ}
    {n k patience : Nat} {w v v' : World} {b : Bool} {starts : List World}
    (h : passes (E.block body) (bound name start step) n k w = some (starts, v)) (hstep : step ≠ 0)
    (hcount : (k : ℤ) + n = max (k : ℤ) (forCount start finish step))
    (hpatience : n < patience) (hlast : stopRequested v = .ok b v') :
    forPasses E ⟨name, .int start, .int finish, .int step⟩ body patience k w = .ok none v' := by
  obtain ⟨patience, rfl⟩ : ∃ m, patience = m + 1 := ⟨patience - 1, by omega⟩
  induction n generalizing k patience w starts with
  | zero =>
      have hover : forCount start finish step ≤ k := by omega
      cases h
      rw [forPasses_succ, bind_of_ok hlast, (isPast_iff hstep k).2 hover]
      cases b <;> rfl
  | succ n ih =>
      obtain ⟨w', rest, u, more, look, run, hmore, -⟩ := passes_succ h
      obtain ⟨patience, rfl⟩ : ∃ m, patience = m + 1 := ⟨patience - 1, by omega⟩
      have hleft : ¬forCount start finish step ≤ k := by
        push_cast at hcount
        omega
      have hset : changeStore (bound name start step k) w'
          = .ok () { w' with store := bound name start step k w'.store } := rfl
      rw [forPasses_succ, bind_of_ok look, if_neg Bool.false_ne_true,
        if_neg (mt (isPast_iff hstep k).1 hleft), bind_of_ok hset, bind_of_ok run]
      refine ih hmore ?_ patience (by omega)
      push_cast at hcount ⊢
      omega

/-! ## The frame of a loop -/

/-- A block that runs to its end leaves as many frames open as there were. -/
theorem length_block {limits : Limits} {body rest : List Token} {w u : World}
    (h : (engine limits).block body w = .ok (.done rest) u) :
    u.store.locals.length = w.store.locals.length := by
  obtain ⟨_, hs, -⟩ := steady_end
    ((steady_laws.engines limits.patience limits.depth).block ⟨w, true⟩ body)
  have hend : endOf ((engine limits).block body w) = u := by rw [h]; rfl
  rw [← hend]
  exact hs.grows.length

/-- Every pass of a `FOR` starts with the variable bound in the frame that was
    opened for the loop. -/
theorem bound_passes {limits : Limits} {body : List Token} {name : Text} {start step : ℤ}
    {n : Nat} {w v : World} {starts : List World}
    (h : passes ((engine limits).block body) (bound name start step) n 0
      { w with store := w.store.push [] } = some (starts, v)) :
    v.store.locals.length = w.store.locals.length + 1
      ∧ ∀ k (hk : k < starts.length),
        starts[k].store.locals.length = w.store.locals.length + 1
          ∧ (starts[k].store.frame 0).get? name = some (.number (.int (start + k * step))) := by
  have hopen : ∀ {u : World} {k : Nat}, u.store.locals.length = w.store.locals.length + 1 →
      (bound name start step k u.store).locals.length = w.store.locals.length + 1 := fun hu =>
    (Store.grows_bindInnermost _ _ _).length.trans hu
  have hall := passes_spec (C := fun u => u.store.locals.length = w.store.locals.length + 1)
    (P := fun k u => u.store.locals.length = w.store.locals.length + 1
      ∧ (u.store.frame 0).get? name = some (.number (.int (start + k * step))))
    (fun {u b u'} hu hlook => ?_) (fun {k u} hu => ⟨hopen hu, ?_⟩)
    (fun {k u rest v} hu hrun => (length_block hrun).trans (hopen hu)) h rfl
  · refine ⟨hall.1, fun k hk => ?_⟩
    have hk' := hall.2 k hk
    rwa [Nat.zero_add] at hk'
  · obtain ⟨b', q, hstop⟩ := stopRequested_eq u
    rw [hstop] at hlook
    cases hlook
    exact hu
  · cases hlocals : u.store.locals with
    | nil => rw [hlocals] at hu; cases hu
    | cons f fs =>
        have hframe : Store.frame (bound name start step k u.store) 0
            = f.assign name (.number (.int (start + k * step))) := by
          simp only [bound, Store.bindInnermost, hlocals]
          rfl
        rw [hframe]
        exact Frame.get?_assign_self _ _ _

/-- A `FOR` whose passes end well ends where the last one does, its frame closed. -/
theorem forLoop_eq {limits : Limits} {body : List Token} {name : Text} {start finish step : ℤ}
    {patience : Nat} {w v v' : World} {b : Bool} {starts : List World}
    (h : passes ((engine limits).block body) (bound name start step)
      (forCount start finish step).toNat 0 { w with store := w.store.push [] } = some (starts, v))
    (hstep : step ≠ 0) (hpatience : forCount start finish step < patience)
    (hlast : stopRequested v = .ok b v') :
    forLoop (engine limits) patience ⟨name, .int start, .int finish, .int step⟩ body w
      = .ok none { v' with store := v'.store.pop } := by
  have hcount : 0 ≤ forCount start finish step := le_max_left _ _
  have hpasses : forPasses (engine limits) ⟨name, .int start, .int finish, .int step⟩ body
      patience 0 { w with store := w.store.push [] } = .ok none v' :=
    forPasses_eq h hstep (by omega) (by omega) hlast
  have hopen : v'.store.locals.length = w.store.locals.length + 1 := by
    obtain ⟨b', q, hstop⟩ := stopRequested_eq v
    rw [hstop] at hlast
    cases hlast
    exact (bound_passes h).1
  rw [forLoop, inFrame_eq]
  exact wrapUp_ok_ok hpasses (closeFrame_eq hopen)

/-! ## The statements -/

/-- A number that is finite is read as it is. -/
theorem number_ok {v : Value} {who : Text} {n : Number} (h : v.asNumber who = .ok n)
    (hn : n.isFinite = true) (w : World) : number v who w = .ok n w := by
  have hread : attempt (v.asNumber who) w = .ok n w := by rw [h]; rfl
  rw [number, bind_of_ok hread, fresh, World.mark_of_isFinite hn]

/-- A block that is found is read, and nothing happens. -/
theorem blockAt_ok {place : BlockPlace} {ts body rest : List Token}
    (h : Token.block place ts = .ok (body, rest)) (w : World) :
    blockAt place ts w = .ok (body, rest) w := by
  rw [blockAt, h]
  rfl

/-- A `REPEAT` whose passes all run to their ends. -/
theorem repeatForm_eq {E : Engine} {ts more body rest : List Token} {count : Value} {n : Number}
    {w w₁ v : World} {starts : List World} (hcount : E.expression ts w = .ok (count, more) w₁)
    (hbody : Token.block .repeatBody more = .ok (body, rest))
    (hnumber : count.asNumber "REPEAT" = .ok n) (hfinite : n.isFinite = true)
    (hpasses : passes (E.block body) counted (max 0 ⌊n.value⌋).toNat 1 w₁ = some (starts, v)) :
    repeatForm E ts w
      = .ok (.done rest) { v with store := { v.store with repcount := w₁.store.repcount } } := by
  have hfloor : (compute n.floor : SessionM Int) w₁ = .ok ⌊n.value⌋ w₁ := by
    rw [Number.floor_eq hfinite]
    rfl
  have htimes : (max 0 ⌊n.value⌋).toNat = ⌊n.value⌋.toNat := by omega
  rw [htimes] at hpasses
  have hloop : counting (repeatPasses E body ⌊n.value⌋.toNat 1) w₁
      = .ok none { v with store := { v.store with repcount := w₁.store.repcount } } :=
    afterwards_ok (repeatPasses_eq hpasses)
  rw [repeatForm]
  exact (bind_of_ok hcount).trans <| (bind_of_ok (blockAt_ok hbody _)).trans <|
    (bind_of_ok (number_ok hnumber hfinite _)).trans <| (bind_of_ok hfloor).trans <|
    (bind_of_ok hloop).trans rfl

/-- A `FOR` whose inputs have been read and whose loop runs to its end. -/
theorem forForm_eq {E : Engine} {patience : Nat} {ts control more body rest left last : List Token}
    {name : Text} {a b c : Value} {start finish step : ℤ} {w w₁ w₂ w₃ v : World}
    (hcontrol : Token.block .forControl ts = .ok (control, more))
    (hname : loopName? control = some name)
    (hbody : Token.block .forBody more = .ok (body, rest))
    (hstart : E.expression control.tail w = .ok (a, left) w₁)
    (hfinish : E.expression left w₁ = .ok (b, last) w₂) (hstep : stepValue E last w₂ = .ok c w₃)
    (ha : a.asNumber "FOR" = .ok (.int start)) (hb : b.asNumber "FOR" = .ok (.int finish))
    (hc : c.asNumber "FOR" = .ok (.int step)) (hzero : step ≠ 0)
    (hloop : forLoop E patience ⟨Text.upper name, .int start, .int finish, .int step⟩ body w₃
      = .ok none v) : forForm E patience ts w = .ok (.done rest) v := by
  have hrange : loopRange name a b c w₃
      = .ok ⟨Text.upper name, .int start, .int finish, .int step⟩ w₃ := by
    have hnonzero : (Number.int step).isZero = false := by simpa [Number.isZero] using hzero
    rw [loopRange, bind_of_ok (number_ok ha rfl _), bind_of_ok (number_ok hb rfl _),
      bind_of_ok (number_ok hc rfl _), hnonzero]
    rfl
  rw [forForm]
  refine (bind_of_ok (blockAt_ok hcontrol _)).trans ?_
  simp only [hname]
  exact (bind_of_ok (blockAt_ok hbody _)).trans <| (bind_of_ok hstart).trans <|
    (bind_of_ok hfinish).trans <| (bind_of_ok hstep).trans <| (bind_of_ok hrange).trans <|
    (bind_of_ok hloop).trans rfl

/-- `REPEAT` and `FOR` make as many passes as their inputs say, each from the
    world in which it has to start, and end in the world in which the last one
    has ended.

    Here a block or an input may be any program, and `passes` has a result when
    all the passes run to their ends and nobody asks to stop.  The allowance of
    passes is of any size that does not cut a `FOR` short. -/
theorem loops_counted (limits : Limits) :
    (∀ {ts more body rest : List Token} {count : Value} {n : Number} {w w₁ v : World}
        {starts : List World},
      (engine limits).expression ts w = .ok (count, more) w₁ →
      Token.block .repeatBody more = .ok (body, rest) →
      count.asNumber "REPEAT" = .ok n → n.isFinite = true →
      passes ((engine limits).block body) counted (max 0 ⌊n.value⌋).toNat 1 w₁
        = some (starts, v) →
      (starts.length : ℤ) = max 0 ⌊n.value⌋
        ∧ (∀ k (hk : k < starts.length), starts[k].store.repcount = some (k + 1))
        ∧ statement (engine limits) limits.patience (.word "REPEAT" :: ts) w
          = .ok (.done rest)
            { v with store := { v.store with repcount := w₁.store.repcount } })
      ∧ ∀ {ts control more body rest left last : List Token} {name : Text} {a b c : Value}
          {start finish step : ℤ} {w w₁ w₂ w₃ v : World} {starts : List World},
        Token.block .forControl ts = .ok (control, more) →
        loopName? control = some name →
        Token.block .forBody more = .ok (body, rest) →
        (engine limits).expression control.tail w = .ok (a, left) w₁ →
        (engine limits).expression left w₁ = .ok (b, last) w₂ →
        stepValue (engine limits) last w₂ = .ok c w₃ →
        a.asNumber "FOR" = .ok (.int start) → b.asNumber "FOR" = .ok (.int finish) →
        c.asNumber "FOR" = .ok (.int step) → step ≠ 0 →
        passes ((engine limits).block body) (bound (Text.upper name) start step)
          (forCount start finish step).toNat 0 { w₃ with store := w₃.store.push [] }
            = some (starts, v) →
        forCount start finish step < limits.patience →
        (starts.length : ℤ) = forCount start finish step
          ∧ (∀ k (hk : k < starts.length),
            starts[k].store.locals.length = w₃.store.locals.length + 1
              ∧ (starts[k].store.frame 0).get? (Text.upper name)
                = some (.number (.int (start + k * step))))
          ∧ ∃ d v', stopRequested v = .ok d v'
            ∧ statement (engine limits) limits.patience (.word "FOR" :: ts) w
              = .ok (.done rest) { v' with store := v'.store.pop } := by
  refine ⟨?_, ?_⟩
  · intro ts more body rest count n w w₁ v starts hcount hbody hnumber hfinite hpasses
    have htimes : 0 ≤ max 0 ⌊n.value⌋ := le_max_left _ _
    refine ⟨by rw [length_passes hpasses, Int.toNat_of_nonneg htimes], fun k hk => ?_,
      repeatForm_eq hcount hbody hnumber hfinite hpasses⟩
    have hall := passes_spec (C := fun _ => True) (P := fun k u => u.store.repcount = some k)
      (fun _ _ => trivial) (fun _ => rfl) (fun _ _ => trivial) hpasses trivial
    rw [hall.2 k hk, Nat.add_comm]
  · intro ts control more body rest left last name a b c start finish step w w₁ w₂ w₃ v starts
      hcontrol hname hbody hstart hfinish hstep ha hb hc hzero hpasses hpatience
    obtain ⟨d, q, hlast⟩ := stopRequested_eq v
    have hloop := forLoop_eq hpasses hzero hpatience hlast
    have htimes : 0 ≤ forCount start finish step := le_max_left _ _
    exact ⟨by rw [length_passes hpasses, Int.toNat_of_nonneg htimes], (bound_passes hpasses).2, d,
      _, hlast,
      forForm_eq hcontrol hname hbody hstart hfinish hstep ha hb hc hzero hloop⟩

/-- Two passes that run another `REPEAT`, and three, from five down to one,
    that assign to the variable of the loop. -/
theorem loops_counted_nested : ∃ w, quietSession = .ok w
    ∧ (∃ starts v, passes ((engine ⟨20, 5⟩).block
        [.word "REPEAT", .number (.int 3), .openBracket, .closeBracket]) counted 2 1 w
          = some (starts, v) ∧ (starts.length : ℤ) = max 0 ⌊((2 : ℤ) : ℚ)⌋
      ∧ statement (engine ⟨20, 5⟩) 5 [.word "REPEAT", .number (.int 2), .openBracket,
          .word "REPEAT", .number (.int 3), .openBracket, .closeBracket, .closeBracket] w
        = .ok (.done []) { v with store := { v.store with repcount := w.store.repcount } })
    ∧ ∃ starts v, passes ((engine ⟨20, 5⟩).block
        [.word "MAKE", .quoted "I", .number (.int 99)]) (bound "I" 5 (-2)) 3 0
          { w with store := w.store.push [] } = some (starts, v)
      ∧ (starts.length : ℤ) = forCount 5 1 (-2)
      ∧ ∃ d v', stopRequested v = .ok d v'
        ∧ statement (engine ⟨20, 5⟩) 5 [.word "FOR", .openBracket, .word "I", .number (.int 5),
            .number (.int 1), .number (.int (-2)), .closeBracket, .openBracket, .word "MAKE",
            .quoted "I", .number (.int 99), .closeBracket] w
          = .ok (.done []) { v' with store := v'.store.pop } := by
  obtain ⟨w, hnew, hruns⟩ := quietSession_of (P := fun w =>
    (passes ((engine ⟨20, 5⟩).block
      [.word "REPEAT", .number (.int 3), .openBracket, .closeBracket]) counted 2 1 w).isSome
    && (passes ((engine ⟨20, 5⟩).block [.word "MAKE", .quoted "I", .number (.int 99)])
      (bound "I" 5 (-2)) 3 0 { w with store := w.store.push [] }).isSome) (by decide +kernel)
  obtain ⟨hrepeat, hfor⟩ := Bool.and_eq_true_iff.1 hruns
  obtain ⟨⟨starts₁, v₁⟩, hrepeat⟩ := Option.isSome_iff_exists.1 hrepeat
  obtain ⟨⟨starts₂, v₂⟩, hfor⟩ := Option.isSome_iff_exists.1 hfor
  have htwo : (max 0 ⌊(Number.int 2).value⌋).toNat = 2 := by decide +kernel
  have hthree : (forCount 5 1 (-2)).toNat = 3 := by decide +kernel
  have hcount : (engine ⟨20, 5⟩).expression [.number (.int 2), .openBracket, .word "REPEAT",
      .number (.int 3), .openBracket, .closeBracket, .closeBracket] w
        = .ok (.number (.int 2), [.openBracket, .word "REPEAT", .number (.int 3), .openBracket,
          .closeBracket, .closeBracket]) w := rfl
  have hstart : (engine ⟨20, 5⟩).expression [.number (.int 5), .number (.int 1),
      .number (.int (-2))] w
        = .ok (.number (.int 5), [.number (.int 1), .number (.int (-2))]) w := rfl
  have hfinish : (engine ⟨20, 5⟩).expression [.number (.int 1), .number (.int (-2))] w
      = .ok (.number (.int 1), [.number (.int (-2))]) w := rfl
  have hstep : stepValue (engine ⟨20, 5⟩) [.number (.int (-2))] w
      = .ok (.number (.int (-2))) w := rfl
  have hcontrol : Token.block .forControl [.openBracket, .word "I", .number (.int 5),
      .number (.int 1), .number (.int (-2)), .closeBracket, .openBracket, .word "MAKE",
      .quoted "I", .number (.int 99), .closeBracket]
        = .ok ([.word "I", .number (.int 5), .number (.int 1), .number (.int (-2))],
          [.openBracket, .word "MAKE", .quoted "I", .number (.int 99), .closeBracket]) := rfl
  obtain ⟨hcount₁, -, hend₁⟩ := (loops_counted ⟨20, 5⟩).1 hcount rfl rfl rfl
    (by rw [htwo]; exact hrepeat)
  obtain ⟨hcount₂, -, hend₂⟩ := (loops_counted ⟨20, 5⟩).2 hcontrol rfl rfl hstart hfinish hstep
    rfl rfl rfl (by decide) (by rw [hthree]; exact hfor) (by decide +kernel)
  exact ⟨w, hnew, ⟨starts₁, v₁, hrepeat, hcount₁, hend₁⟩, starts₂, v₂, hfor, hcount₂, hend₂⟩

end Session

end TurtleLogo
