import DisplayBuffers.Proofs.Descriptions
import DisplayBuffers.Proofs.MappingCount
import DisplayBuffers.Proofs.StrictExecution
import DisplayBuffers.Proofs.SurfaceContents

/-! Runs that are never stuck. What the strict reading relies on without a check is provided by what
all operations keep: mapped objects have references, objects have planes, fronts are slots. It is up
to the clients alone not to hold more references than can be counted. -/
namespace DisplayBuffers.Strict
open Session
variable {σ ι κ : Type} {D : Driver σ ι}

/-- Whether an operation takes a reference to an object at a target, if there is one to be had. -/
def Takes (t : Target) (b : BufferObject) : Op ι → Prop
  | .acquire u | .withMapping u _ => u = t
  | .acquireRegion u x y width height =>
    u = t ∧ x = 0 ∧ y = 0 ∧ width = b.width ∧ height = b.height
  | _ => False

section
variable {s : Session σ} {op : Op ι} {t : Target} {b : BufferObject}

theorem target?_of_takes (h : Takes t b op) : op.target? = some t := by
  cases op with
  | acquire u => exact congrArg some h
  | withMapping u accesses => exact congrArg some h
  | acquireRegion u x y width height => exact congrArg some h.1
  | _ => exact h.elim

theorem demands_of_takes {a : Address} (hb : s.object? t = some b) (ht : Takes t b op)
    (ha : (b.acquire D s.world).1 = .ok a) : .acquire ∈ (s.turn D op).demands t := by
  have hturn := (turn_of_target? (D := D) (target?_of_takes ht) hb).1
  rcases hq : b.acquire D s.world with ⟨e | a', b', w'⟩
  · rw [hq] at ha
    cases ha
  · rw [hturn]
    cases op with
    | acquire u =>
      obtain rfl : u = t := ht
      simp [Turn.demands, Op.work, hq]
    | withMapping u accesses =>
      obtain rfl : u = t := ht
      simp [Turn.demands, Op.work, BufferObject.withMapping, hq]
    | acquireRegion u x y width height =>
      obtain ⟨rfl, hwhole⟩ := ht
      simp [Turn.demands, Op.work, BufferObject.acquireRegion, hwhole, hq]
    | _ => exact ht.elim

theorem not_mem_attempted (e : Error) : .acquire ∉ attempted e := by
  unfold attempted
  split <;> simp

/-- A reference that was taken was there to be had. -/
theorem takes_of_demands (h : .acquire ∈ (s.turn D op).demands t) :
    ∃ b a, s.object? t = some b ∧ Takes t b op ∧ (b.acquire D s.world).1 = .ok a := by
  have ho : op.Refers t := by
    by_contra ho
    rw [Turn.demands_of_not_refers ho] at h
    cases h
  have ht := Op.target?_of_refers ho
  cases hb : s.object? t with
  | none =>
    have hanswer : (s.turn D op).answer = .malformed ∨ (s.turn D op).answer = .noSlot := by
      rw [turn, s.step_of_target? ht]
      rcases onObject_of_none hb (op.work D) with hq | hq <;> rw [hq]
      · exact .inl rfl
      · exact .inr rfl
    unfold Turn.demands at h
    rcases hanswer with ha | ha <;> rw [ha] at h <;> cases op <;> cases h
  | some b =>
    have hturn := (turn_of_target? (D := D) ht hb).1
    rw [hturn] at h
    cases op with
    | acquire u =>
      obtain rfl : u = t := ho
      rcases hq : b.acquire D s.world with ⟨e | a, b', w'⟩
      · exact absurd (by simpa [Turn.demands, Op.work, hq] using h) (not_mem_attempted e)
      · exact ⟨b, a, rfl, rfl, by rw [hq]⟩
    | withMapping u accesses =>
      obtain rfl : u = t := ho
      rcases hq : b.acquire D s.world with ⟨e | a, b', w'⟩
      · exact absurd (by simpa [Turn.demands, Op.work, BufferObject.withMapping, hq] using h)
          (not_mem_attempted e)
      · exact ⟨b, a, rfl, rfl, by rw [hq]⟩
    | acquireRegion u x y width height =>
      obtain rfl : u = t := ho
      by_cases hwhole : x = 0 ∧ y = 0 ∧ width = b.width ∧ height = b.height
      · rcases hq : b.acquire D s.world with ⟨e | a, b', w'⟩
        · exact absurd (by simpa [Turn.demands, Op.work, BufferObject.acquireRegion, hwhole, hq]
            using h) (not_mem_attempted e)
        · exact ⟨b, a, rfl, ⟨rfl, hwhole⟩, by rw [hq]⟩
      · simp [Turn.demands, Op.work, BufferObject.acquireRegion, hwhole, attempted] at h
    | release u =>
      obtain rfl : u = t := ho
      simp [Turn.demands, Op.work] at h
    | _ => exact ho.elim

end

section
variable {s : Session σ} {op : Op ι} {t : Target} {b : BufferObject}

theorem onObject?_eq {f : BufferObject → World σ → Option (Answer × BufferObject × World σ)}
    {g : BufferObject → World σ → Answer × BufferObject × World σ}
    (h : ∀ b, s.object? t = some b → f b s.world = some (g b s.world)) :
    onObject? s t f = some (s.onObject t g) := by
  cases hb : s.object? t with
  | none =>
    simp only [onObject?, hb]
    exact congrArg some (onObject_congr fun b hb' => by cases hb.symm.trans hb')
  | some b =>
    simp only [onObject?, hb, h b hb, Option.map_some]
    refine congrArg some (onObject_congr fun b' hb' => ?_)
    rw [Option.some.inj (hb.symm.trans hb')]

theorem onSurface?_eq {surface : String}
    {f : Surface → World σ → Option (Answer × Surface × World σ)}
    {g : Surface → World σ → Answer × Surface × World σ}
    (h : ∀ x, s.surfaces.find? surface = some x → f x s.world = some (g x s.world)) :
    onSurface? s surface f = some (s.onSurface surface g) := by
  cases hx : s.surfaces.find? surface with
  | none => simp only [onSurface?, onSurface, hx]
  | some x => simp only [onSurface?, onSurface, hx, h x hx, Option.map_some]

theorem onDevice?_eq {f : Session σ → Option (Outcome × Session σ)}
    {g : Session σ → Outcome × Session σ} (h : f s = some (g s)) :
    onDevice? s f = some (s.onDevice g) := by
  rw [onDevice?, onDevice]
  split
  · exact h
  · rfl

theorem step?_of_target? (h : op.target? = some t) :
    step? D s op = onObject? s t (work? D op) := by
  cases op <;> cases h <;> rfl

theorem work?_eq {w : World σ} (ht : op.target? = some t) (hc : b.Counted)
    (hroom : ∀ a, Takes t b op → (b.acquire D w).1 = .ok a → b.references + 1 < wordCount) :
    work? D op b w = some (op.work D b w) := by
  cases op with
  | acquire u =>
    rw [work?, acquire?_of_lt fun a => hroom a (Option.some.inj ht)]
    rfl
  | acquireRegion u x y width height =>
    rw [work?, acquireRegion?, Op.work, BufferObject.acquireRegion]
    split
    · next hwhole =>
      rw [acquire?_of_lt fun a => hroom a ⟨Option.some.inj ht, hwhole⟩]
      rfl
    · rfl
  | release u =>
    rw [work?, release?_of_counted D b w hc]
    rfl
  | withMapping u accesses =>
    rw [work?, withMapping?_of_lt accesses hc fun a => hroom a (Option.some.inj ht)]
    rfl
  | _ => rfl

theorem work?_eq_none {w : World σ} {a : Address} (ht : Takes t b op)
    (ha : (b.acquire D w).1 = .ok a) (h : wordCount ≤ b.references + 1) :
    work? D op b w = none := by
  cases op with
  | acquire u =>
    rw [work?, acquire?_of_le ha h]
    rfl
  | acquireRegion u x y width height =>
    rw [work?, acquireRegion?, if_pos ht.2, acquire?_of_le ha h]
    rfl
  | withMapping u accesses =>
    rw [work?, withMapping?_of_le accesses ha h]
    rfl
  | _ => exact ht.elim

/-- What the strict reading relies on. -/
structure Sane (s : Session σ) : Prop where
  counted : ∀ {t b}, s.object? t = some b → b.Counted
  planes : ∀ {t b}, s.object? t = some b → 1 ≤ b.planeCount
  front : ∀ {surface x i}, s.surfaces.find? surface = some x → x.front = some i → i < slotCount

theorem sane (D : Driver σ ι) (d : σ) (ops : List (Op ι)) : Sane ((start d).run D ops).2 where
  counted hb := (tracked D d ops _ _ hb).counted
  planes hb := (wellFormed D d ops hb).nonempty
  front hx hi := front_lt D d ops hx hi

/-- Every reference that an operation takes can be counted. -/
def Room (D : Driver σ ι) (s : Session σ) (op : Op ι) : Prop :=
  ∀ t b, s.object? t = some b → .acquire ∈ (s.turn D op).demands t →
    b.references + 1 < wordCount

theorem step?_share (hs : Sane s) (name : String) :
    step? D s (.share t name) = some (s.step D (.share t name)) := by
  have hshare := onObject?_eq (s := s) (t := t) (f := sharing? D) (g := sharing D) fun b hb => by
    rw [sharing?, share?_of_planes D b s.world (hs.planes hb)]
    rfl
  rw [step?, step, shareObject, hshare]
  rfl

theorem step?_replace (surface : String) (index : Nat) (buffer : Option NamedBuffer) :
    step? D s (.replace surface index buffer) =
      some (s.step D (.replace surface index buffer)) := by
  have hput (s : Session σ) (z : Option SlotBuffer) :
      onSurface? s surface (replacing? D index z) =
        some (s.onSurface surface (replacing D index z)) :=
    onSurface?_eq fun x _ => by
      rw [replacing?, replace?_eq]
      rfl
  rw [step]
  cases hx : s.surfaces.find? surface with
  | none => cases buffer <;> simp [step?, Session.replace, onSurface?, hx]
  | some x =>
    cases buffer with
    | none =>
      rw [s.replace_none hx]
      exact hput s none
    | some y =>
      cases hy : s.slotBuffer? y with
      | none => simp only [step?, Session.replace, hx, hy]
      | some z =>
        rw [s.replace_some index hx hy]
        simp only [step?, hx, hy]
        exact hput _ (some z)

theorem step?_lockFront (hs : Sane s) (surface : String) (name : Option String) :
    step? D s (.lockFront surface name) = some (s.step D (.lockFront surface name)) := by
  have hlock : onSurface? s surface locking? =
      some (s.onSurface surface fun x w => (.identity x.lockFront.1, x.lockFront.2, w)) :=
    onSurface?_eq fun x hx => by
      rw [locking?, lockFront?_of_lt x fun i => hs.front hx]
      rfl
  rw [step?, step, Session.lockFront, hlock]
  rfl

/-- An operation is what it always is if there is room for the references that it takes. -/
theorem step?_of_room (hs : Sane s) (hroom : Room D s op) :
    step? D s op = some (s.step D op) := by
  cases ht : op.target? with
  | some t =>
    rw [step?_of_target? ht, s.step_of_target? ht]
    exact onObject?_eq fun b hb => work?_eq ht (hs.counted hb) fun a htakes ha =>
      hroom t b hb (demands_of_takes hb htakes ha)
  | none =>
    cases op with
    | create name width height format usage =>
      rw [step?, step]
      refine onDevice?_eq ?_
      rw [create?_eq]
      rfl
    | createBuffer name width height fourcc modifiers =>
      rw [step?, step]
      refine onDevice?_eq ?_
      rw [createBuffer?_eq]
      rfl
    | importFrom name source =>
      rw [step?, step]
      refine onDevice?_eq ?_
      cases source.resolve? s.descriptors.find? with
      | none => rfl
      | some source =>
        dsimp only
        rw [importFrom?_eq]
        rfl
    | share t name => exact step?_share hs name
    | replace surface index buffer => exact step?_replace surface index buffer
    | allocate surface index =>
      rw [step?, step]
      refine onSurface?_eq fun x _ => ?_
      rw [allocate?_eq]
      rfl
    | lockFront surface name => exact step?_lockFront hs surface name
    | _ => first | rfl | cases ht

/-- An operation is stuck if it takes a reference that cannot be counted. -/
theorem step?_of_no_room (hroom : ¬ Room D s op) : step? D s op = none := by
  unfold Room at hroom
  push Not at hroom
  obtain ⟨t, b, hb, hdemands, hexceeds⟩ := hroom
  obtain ⟨b', a, hb', htakes, ha⟩ := takes_of_demands hdemands
  obtain rfl := Option.some.inj (hb.symm.trans hb')
  rw [step?_of_target? (target?_of_takes htakes), onObject?, hb]
  dsimp only
  rw [work?_eq_none htakes ha hexceeds, Option.map_none]

end

/-- Room in terms of the references that the client can tell. -/
theorem room_iff (D : Driver σ ι) (d : σ) (ops : List (Op ι)) (op : Op ι) :
    Room D ((start d).run D ops).2 op ↔
      ∀ t, .acquire ∈ (turn D ((start d).run D ops).2 op).demands t →
        (counter t ((start d).history D ops)).count + 1 < wordCount := by
  constructor
  · intro hroom t ht
    obtain ⟨b, _, hb, _⟩ := takes_of_demands ht
    rw [← (tracked D d ops t b hb).count]
    exact hroom t b hb ht
  · intro hfew t b hb ht
    rw [(tracked D d ops t b hb).count]
    exact hfew t ht

/-- Going on from a past, there are always fewer references to an object than there are words. -/
def Few (past h : List (Turn σ ι)) : Prop :=
  ∀ before e after, h = before ++ e :: after →
    ∀ t, .acquire ∈ e.demands t → (counter t (past ++ before)).count + 1 < wordCount

theorem few_cons {past h : List (Turn σ ι)} {e : Turn σ ι} :
    Few past (e :: h) ↔
      (∀ t, .acquire ∈ e.demands t → (counter t past).count + 1 < wordCount) ∧
        Few (past ++ [e]) h := by
  constructor
  · refine fun hf => ⟨?_, fun before e' after he => ?_⟩
    · simpa using hf [] e h rfl
    · simpa using hf (e :: before) e' after (by rw [he, List.cons_append])
  · rintro ⟨hfirst, hrest⟩ before e' after he
    cases before with
    | nil =>
      obtain ⟨rfl, _⟩ := List.cons.inj he
      simpa using hfirst
    | cons e'' before =>
      obtain ⟨rfl, htail⟩ := List.cons.inj he
      simpa using hrest before e' after htail

theorem run?_cons {s : Session σ} {op : Op ι} (h : step? D s op = some (s.step D op))
    (ops : List (Op ι)) : run? D s (op :: ops) = (run? D (s.step D op).2 ops).map
      fun (outcomes, s') => ((s.step D op).1 :: outcomes, s') := by
  rw [run?, h]
  rfl

/-- A run goes on strictly just as long as there are few references. -/
theorem run?_eq (D : Driver σ ι) (d : σ) (past ops : List (Op ι)) :
    let s := ((start d).run D past).2
    (Few ((start d).history D past) (s.history D ops) → run? D s ops = some (s.run D ops)) ∧
      (¬ Few ((start d).history D past) (s.history D ops) → run? D s ops = none) := by
  induction ops generalizing past with
  | nil =>
    refine ⟨fun _ => rfl, fun h => absurd ?_ h⟩
    intro before e after he
    cases before <;> cases he
  | cons op ops ih =>
    intro s
    have hnext : ((start d).run D (past ++ [op])).2 = (s.step D op).2 := run_concat _ past op
    have hpast : (start d).history D (past ++ [op]) = (start d).history D past ++ [s.turn D op] :=
      history_concat _ past op
    have ih := ih (past ++ [op])
    rw [hnext, hpast] at ih
    rw [history, few_cons, ← room_iff]
    by_cases hroom : Room D s op
    · have hstep : step? D s op = some (s.step D op) := step?_of_room (sane D d past) hroom
      rw [run?_cons hstep]
      refine ⟨fun hf => ?_, fun hf => ?_⟩
      · rw [ih.1 hf.2]
        rfl
      · rw [ih.2 fun h => hf ⟨hroom, h⟩]
        rfl
    · refine ⟨fun hf => absurd hf.1 hroom, fun _ => ?_⟩
      rw [run?, step?_of_no_room hroom]
      rfl

/-- No operation is ever stuck, unless a reference is taken where there are as many as can be
counted. The sizes that are computed, and the length that a dumb buffer is mapped with, are the
products of what they are computed from. -/
theorem run_strict (D : Driver σ ι) (d : σ) (ops : List (Op ι)) :
    (run? D (start d) ops = some ((start d).run D ops) ↔
      ∀ before e after, (start d).history D ops = before ++ e :: after →
        ∀ t, .acquire ∈ e.demands t → (counter t before).count + 1 < 2 ^ 64) ∧
    (∀ (K : Dumb.Kernel κ ι) kind width height c,
      Dumb.allocate? K kind width height c = some (Dumb.allocate K kind width height c)) ∧
    ∀ a b : UInt32, (a.toUInt64 * b.toUInt64).toNat = rowBytes a b := by
  refine ⟨?_, Dumb.allocate?_eq, fun a b => ?_⟩
  · have h := run?_eq D d [] ops
    constructor
    · intro hrun
      by_contra hf
      cases (h.2 hf).symm.trans hrun
    · exact h.1
  · rw [UInt64.toNat_mul, UInt32.toNat_toUInt64, UInt32.toNat_toUInt64]
    exact Nat.mod_eq_of_lt (rowBytes_lt a b)

end DisplayBuffers.Strict
