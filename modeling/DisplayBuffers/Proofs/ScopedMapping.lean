import DisplayBuffers.Proofs.Contents

/-! A mapping for as long as some accesses take, against the same accesses by a client that takes a
reference, goes through the address that it is answered, and gives the reference back. -/
namespace DisplayBuffers
variable {σ ι : Type} {D : Driver σ ι}

namespace BufferObject

/-- What accesses to a mapped object see and store through the view at its address: the bytes are an
array, as long as the object tells, and just the accesses that go beyond it fail. -/
structure Served (b : BufferObject) (a : Address) (v : Nat → Cell) (m m' : Memory)
    (accesses : List Access) (seen : List Seen) : Prop where
  told : Set.InjOn v (Set.Iio b.byteSize) →
    seen = (b.retain a).seenAll a accesses (m.read v 0 b.byteSize)
  within : seen.map (·.accepted) = accesses.map fun x => decide (x.reach ≤ b.byteSize)
  stored : Stored b.byteSize v m m' (accesses.zip seen)

section
variable {b : BufferObject} {a : Address}

theorem accessAll_served (b : BufferObject) (D : Driver σ ι) (a : Address)
    (accesses : List Access) (w : World σ) :
    ∃ m, ((b.retain a).accessAll D a accesses w).2 = { w with memory := m } ∧
      b.Served a (w.view D a) w.memory m accesses
        ((b.retain a).accessAll D a accesses w).1 := by
  have hm : (b.retain a).mapping = some a := rfl
  have hstored := accessAll_stored (D := D) hm accesses w
  obtain ⟨m, hw⟩ := (b.retain a).accessAll_memory D a accesses w
  rw [hw] at hstored
  exact ⟨m, hw, accessAll_seen hm accesses w le_rfl, accessAll_within hm accesses w, hstored⟩

/-- The reference that was the first is given back with a call, if the storage is owned. -/
theorem release_first {s : Storage} {d : Dmabuf} (hb : b.backing = .owned s d)
    (hr : b.references = 0) (w : World σ) : ((b.retain a).release D w).2 = w.unmap D s a := by
  simp [release, retain, hb, hr]

/-- A reference on top of others is given back without the driver. -/
theorem release_again (hr : 0 < b.references) (w : World σ) :
    ((b.retain a).release D w).2 = w := by
  have hne : b.references ≠ 0 := by omega
  simp [release, retain, hne]

theorem release_lent {d : Option Dmabuf} {x : Option Address} (hb : b.backing = .borrowed d x)
    (w : World σ) : (b.release D w).2 = w := by
  have h := released D b w
  generalize (b.release D w).1 = b', (b.release D w).2 = w' at h ⊢
  cases h with
  | unmapped hb' => cases hb.symm.trans hb'
  | _ => rfl

end
end BufferObject

namespace Session
open BufferObject (Access Seen)

/-- A mapping for some accesses, by what the object is like before. The driver is called only where
owned storage is not mapped yet, and is then called again after the accesses. -/
inductive Scoped (D : Driver σ ι) (b : BufferObject) (accesses : List Access) (w : World σ) :
    Answer → World σ → Prop
  | first {s d a w' seen m} (hb : b.backing = .owned s d) (hm : b.mapping = none)
      (h : w.map D s = (.ok a, w')) (hs : b.Served a (w'.view D a) w.memory m accesses seen) :
      Scoped D b accesses w (.accesses seen) ({ w' with memory := m }.unmap D s a)
  | failed {s d e w'} (hb : b.backing = .owned s d) (hm : b.mapping = none)
      (h : w.map D s = (.error e, w')) :
      Scoped D b accesses w (.failed (.allocation .mapStorage e)) w'
  | again {s d a seen m} (hb : b.backing = .owned s d) (hm : b.mapping = some a)
      (hs : b.Served a (w.view D a) w.memory m accesses seen) :
      Scoped D b accesses w (.accesses seen) { w with memory := m }
  | lent {d a seen m} (hb : b.backing = .borrowed d (some a))
      (hs : b.Served a (w.view D a) w.memory m accesses seen) :
      Scoped D b accesses w (.accesses seen) { w with memory := m }
  | refused {d} (hb : b.backing = .borrowed d none) :
      Scoped D b accesses w (.failed (.invalidArgument .noCpuStorage)) w

theorem scoped_of_counted {b : BufferObject} (hc : b.Counted) (D : Driver σ ι) (t : Target)
    (accesses : List Access) (w : World σ) :
    Scoped D b accesses w ((Op.withMapping t accesses).work D b w).1
      ((Op.withMapping t accesses).work D b w).2.2 := by
  rcases hq : b.acquire D w with ⟨e | a, b', w'⟩
  · simp only [Op.work, BufferObject.withMapping, hq]
    cases BufferObject.acquired hq with
    | failed hb hm hw => exact .failed hb hm hw
    | refused hb => exact .refused hb
  · obtain rfl := BufferObject.acquire_retains hq
    obtain ⟨m, hw, hs⟩ := b.accessAll_served D a accesses w'
    rw [BufferObject.memory_acquire hq] at hs
    simp only [Op.work, BufferObject.withMapping, hq, hw]
    cases BufferObject.acquired hq with
    | again hb hm =>
      rw [BufferObject.release_again (hc.pos hm)]
      exact .again hb hm hs
    | first hb hm hmap =>
      rw [BufferObject.release_first hb (hc.references_eq_zero hm)]
      exact .first hb hm hmap hs
    | lent hb =>
      rw [BufferObject.release_lent (b := b.retain a) hb]
      exact .lent hb hs

/-- Puts a buffer object where one is, with the world as it is then. -/
def put (s : Session σ) (t : Target) (b : BufferObject) (w : World σ) : Session σ :=
  match t with
  | .object name => { s with world := w, objects := s.objects.insert name b }
  | .slot surface i =>
    match s.surfaces.find? surface with
    | some x =>
      { s with world := w, surfaces := s.surfaces.insert surface (x.withSlot i (some b)) }
    | none => s.withWorld w

section
variable (s : Session σ) (t : Target) (b c : BufferObject) (w w' : World σ)

@[simp] theorem world_put : (s.put t b w).world = w := by
  unfold put
  split
  · rfl
  · split <;> rfl

theorem withWorld_put : (s.put t b w).withWorld w' = s.put t b w' := by
  unfold put
  split
  · rfl
  · split <;> rfl

/-- What was put somewhere is gone when something else is put there. -/
theorem put_put : (s.put t b w).put t c w' = s.put t c w' := by
  cases t with
  | object name => simp only [put, Table.insert_insert]
  | slot surface i =>
    cases hx : s.surfaces.find? surface with
    | none => simp only [put, hx, withWorld]
    | some x =>
      simp only [put, hx, Table.find?_insert, if_true, Surface.withSlot_withSlot,
        Table.insert_insert]

end

section
variable {s : Session σ} {t : Target} {b : BufferObject}

theorem onObject_eq_put (hb : s.object? t = some b)
    (f : BufferObject → World σ → Answer × BufferObject × World σ) :
    s.onObject t f = (⟨(f b s.world).1, .object (f b s.world).2.1⟩,
      s.put t (f b s.world).2.1 (f b s.world).2.2) := by
  cases t with
  | object name =>
    have hb : s.objects.find? name = some b := hb
    simp only [onObject, put, hb]
  | slot surface i =>
    obtain ⟨x, hx, hi⟩ := Option.bind_eq_some_iff.mp hb
    simp only [onObject, put, hx, hi]

theorem object?_put (hb : s.object? t = some b) (c : BufferObject) (w : World σ) :
    (s.put t c w).object? t = some c := by
  have h := s.object?_onObject t t fun _ _ => (.done, c, w)
  rw [onObject_eq_put hb, hb] at h
  simpa using h

/-- An object that is put where it was makes no difference. -/
theorem alike_put (hb : s.object? t = some b) : s.Alike (s.put t b s.world) := by
  have h := alike_onObject (f := fun b w => (.done, b, w)) hb rfl
  rwa [onObject_eq_put hb, withWorld_put] at h

theorem step_eq_put {op : Op ι} (ho : op.target? = some t) (hb : s.object? t = some b) :
    s.step D op = (⟨(op.work D b s.world).1, .object (op.work D b s.world).2.1⟩,
      s.put t (op.work D b s.world).2.1 (op.work D b s.world).2.2) := by
  rw [s.step_of_target? ho, onObject_eq_put hb]

/-- An operation on an object that was put in the place of another. -/
theorem step_put {op : Op ι} (ho : op.target? = some t) (hb : s.object? t = some b)
    (c : BufferObject) (w : World σ) :
    (s.put t c w).step D op = (⟨(op.work D c w).1, .object (op.work D c w).2.1⟩,
      s.put t (op.work D c w).2.1 (op.work D c w).2.2) := by
  rw [step_eq_put ho (object?_put hb c w), world_put, put_put]

end

/-- An outcome where nothing but success or failure was of interest. -/
def Answer.toUnit : Answer → Except Error Unit
  | .failed e => .error e
  | _ => .ok ()

theorem Answer.toUnit_ofUnit (r : Except Error Unit) : (Answer.ofUnit r).toUnit = r := by
  cases r <;> rfl

/-- How many bytes the object at a target tells that it has. -/
def toldSize (s : Session σ) (t : Target) : Nat := ((s.object? t).map (·.byteSize)).getD 0

/-- How many references the object at a target tells that are held. -/
def toldReferences (s : Session σ) (t : Target) : Nat := ((s.object? t).map (·.references)).getD 0

/-- An access by a client that holds a reference and the address that came with it. Data are written
by the operation for that; the client keeps to the bytes that the object tells. -/
def accessByHand (D : Driver σ ι) (t : Target) (a : Address) (s : Session σ) :
    Access → Seen × Session σ
  | .write data =>
    let (outcome, s) := s.step D (.write t data)
    (.written outcome.answer.toUnit, s)
  | .poke offset value =>
    if offset < s.toldSize t then
      (.poked true, s.withWorld
        { s.world with memory := s.world.memory.poke (s.world.view D a) offset value })
    else (.poked false, s)
  | .peek offset count =>
    if offset + count ≤ s.toldSize t then
      (.peeked (some (s.world.memory.read (s.world.view D a) offset count)), s)
    else (.peeked none, s)
  | .inspect => (.inspected (s.toldSize t) (s.toldReferences t) a, s)

def accessAllByHand (D : Driver σ ι) (t : Target) (a : Address) :
    List Access → Session σ → List Seen × Session σ
  | [], s => ([], s)
  | x :: xs, s =>
    let (seen, s) := s.accessByHand D t a x
    let (rest, s) := accessAllByHand D t a xs s
    (seen :: rest, s)

/-- Takes a reference, makes the accesses, and gives the reference back. Where none was obtained
there is nothing to give back. -/
def mapByHand (D : Driver σ ι) (s : Session σ) (t : Target) (accesses : List Access) :
    Outcome × Session σ :=
  let (taken, s) := s.step D (.acquire t)
  match taken.answer with
  | .address a =>
    let (seen, s) := accessAllByHand D t a accesses s
    let (returned, s) := s.step D (.release t)
    (⟨.accesses seen, returned.subject⟩, s)
  | _ => (taken, s)

section
variable {s : Session σ} {t : Target} {b : BufferObject}

theorem toldSize_put (hb : s.object? t = some b) (c : BufferObject) (w : World σ) :
    (s.put t c w).toldSize t = c.byteSize := by
  simp [toldSize, object?_put hb]

theorem toldReferences_put (hb : s.object? t = some b) (c : BufferObject) (w : World σ) :
    (s.put t c w).toldReferences t = c.references := by
  simp [toldReferences, object?_put hb]

theorem accessByHand_put (hb : s.object? t = some b) (c : BufferObject) (a : Address)
    (w : World σ) (x : Access) :
    (s.put t c w).accessByHand D t a x =
      ((c.access D a w x).1, s.put t c (c.access D a w x).2) := by
  cases x with
  | write data =>
    have hop : (Op.write t data : Op ι).target? = some t := rfl
    rw [accessByHand, step_put hop hb]
    simp only [Op.work, BufferObject.access, Answer.toUnit_ofUnit]
  | poke offset value =>
    simp only [accessByHand, BufferObject.access, toldSize_put hb, world_put, withWorld_put]
    split <;> rfl
  | peek offset count =>
    simp only [accessByHand, BufferObject.access, toldSize_put hb, world_put]
    split <;> rfl
  | inspect =>
    simp only [accessByHand, BufferObject.access, toldSize_put hb, toldReferences_put hb]

theorem accessAllByHand_put (hb : s.object? t = some b) (c : BufferObject) (a : Address)
    (accesses : List Access) (w : World σ) :
    accessAllByHand D t a accesses (s.put t c w) =
      ((c.accessAll D a accesses w).1, s.put t c (c.accessAll D a accesses w).2) := by
  induction accesses generalizing w with
  | nil => rfl
  | cons x xs ih => simp only [accessAllByHand, accessByHand_put hb, ih, BufferObject.accessAll]

/-- The two ways to map an object are one, whatever is at the target. -/
theorem step_withMapping_eq (s : Session σ) (t : Target) (accesses : List Access) :
    s.step D (.withMapping t accesses) = s.mapByHand D t accesses := by
  have hscoped : (Op.withMapping t accesses : Op ι).target? = some t := rfl
  have hacquire : (Op.acquire t : Op ι).target? = some t := rfl
  have hrelease : (Op.release t : Op ι).target? = some t := rfl
  rw [mapByHand]
  cases hb : s.object? t with
  | none =>
    have hsame : s.step D (.withMapping t accesses) = s.step D (.acquire t) := by
      rw [s.step_of_target? hscoped, s.step_of_target? hacquire,
        onObject_congr fun b hb' => by cases hb.symm.trans hb']
    rw [hsame, s.step_of_target? hacquire]
    rcases onObject_of_none hb ((Op.acquire t).work D) with h | h <;> rw [h] <;> rfl
  | some b =>
    rw [step_eq_put hscoped hb, step_eq_put hacquire hb]
    rcases hq : b.acquire D s.world with ⟨e | a, b', w⟩
    · simp only [Op.work, BufferObject.withMapping, hq]
    · simp only [Op.work, BufferObject.withMapping, hq, accessAllByHand_put hb,
        step_put hrelease hb]

end

/-- In every state that a client can reach and whatever the driver answers, a mapping for some
accesses amounts to a reference that is taken, the accesses through its address, and the return of
the reference. Afterwards the object is as it was, whether or not it could be mapped and whatever
became of the accesses, and so is everything else that the client holds. -/
theorem mapping_by_hand (D : Driver σ ι) (d : σ) (ops : List (Op ι)) (t : Target)
    (accesses : List Access) :
    let s := ((start d).run D ops).2
    let e := s.turn D (.withMapping t accesses)
    s.step D (.withMapping t accesses) = s.mapByHand D t accesses ∧
    ∀ b, s.object? t = some b →
      Scoped D b accesses s.world e.answer e.after.world ∧
      e.after.object? t = some b ∧ s.Alike (e.after.withWorld s.world) := by
  intro s e
  refine ⟨step_withMapping_eq s t accesses, fun b hb => ?_⟩
  have hc : b.Counted := (tracked D d ops t b hb).counted
  have hscoped := scoped_of_counted hc D t accesses s.world
  have hobject : ((Op.withMapping t accesses).work D b s.world).2.1 = b := by
    rw [Op.work_withMapping]
    exact hc.withMapping D accesses s.world
  have hop : (Op.withMapping t accesses : Op ι).target? = some t := rfl
  have hstep := step_eq_put (D := D) hop hb
  rw [hobject] at hstep
  generalize (Op.withMapping t accesses).work D b s.world = r at hscoped hstep
  have hanswer : e.answer = r.1 := congrArg (·.1.answer) hstep
  have hafter : e.after = s.put t b r.2.2 := congrArg Prod.snd hstep
  rw [hanswer, hafter, world_put, withWorld_put]
  exact ⟨hscoped, object?_put hb b _, alike_put hb⟩

end Session
end DisplayBuffers
