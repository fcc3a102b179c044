import DisplayBuffers.Proofs.InvalidInput

/-! The errors of a session. An operation is refused as faulty for what it asks of the session as it
is; otherwise it succeeds, or fails with the one call to the driver that was refused. -/
namespace DisplayBuffers

namespace BufferObject

/-- The error that a step of a scoped mapping can have. -/
def Seen.error? : Seen → Option Error
  | .written (.error x) => some x
  | _ => none

/-- The fault of a step of a scoped mapping that shows so many bytes. -/
def Access.fault? (size : Nat) : Access → Option Error
  | .write data => if size < data.length then some (.invalidArgument .writeTooLong) else none
  | _ => none

variable {σ : Type}

theorem error?_access {b : BufferObject} {m : Address} (hm : b.mapping = some m) (a : Address)
    (w : World σ) (x : Access) : (b.access D a w x).1.error? = x.fault? b.byteSize := by
  cases x with
  | write data =>
    simp only [access, write, hm, Access.fault?]
    split <;> rfl
  | poke offset value =>
    simp only [access]
    split <;> rfl
  | peek offset count =>
    simp only [access]
    split <;> rfl
  | inspect => rfl

theorem errors_accessAll {b : BufferObject} {m : Address} (hm : b.mapping = some m) (a : Address)
    (l : List Access) (w : World σ) :
    (b.accessAll D a l w).1.map Seen.error? = l.map (Access.fault? b.byteSize) := by
  induction l generalizing w with
  | nil => rfl
  | cons x l ih =>
    rw [accessAll, List.map_cons, List.map_cons, ih, error?_access hm]

end BufferObject

namespace Session
variable {σ ι : Type} {D : Driver σ ι}

/-- What makes a request faulty, by what it asks for. -/
def Faulty (s : Session σ) : Op ι → Prop
  | .create _ _ _ format _ | .createSurface _ _ _ format _ =>
    s.device = true ∧ PixelFormat.ofCode? format = none
  | .createBuffer _ _ _ fourcc modifiers =>
    s.device = true ∧ (PixelFormat.ofCode? fourcc.code = none ∨
      modifiers ≠ [] ∧ ∀ m ∈ modifiers, m.isTrivial = false)
  | .importFrom _ source =>
    s.device = true ∧ ∃ x, source.resolve? s.descriptors.find? = some x ∧ x.Faulty
  | .layoutPlanes _ _ => s.device = true
  | .acquire t | .withMapping t _ => ∃ b, s.object? t = some b ∧ b.Inaccessible
  | .acquireRegion t x y width height => ∃ b, s.object? t = some b ∧
    (¬ (x = 0 ∧ y = 0 ∧ width = b.width ∧ height = b.height) ∨ b.Inaccessible)
  | .write t data => ∃ b, s.object? t = some b ∧ (b.mapping = none ∨ b.byteSize < data.length)
  | .plane t index => ∃ b, s.object? t = some b ∧ b.planes.length ≤ index
  | .share t _ => ∃ b, s.object? t = some b ∧ b.handle.isNull = true ∧ b.descriptor? = none
  | .replace surface index buffer => (s.surfaces.find? surface).isSome = true ∧
    (∀ x, buffer = some x → (s.slotBuffer? x).isSome = true) ∧ slotCount ≤ index
  | .allocate surface index => (s.surfaces.find? surface).isSome = true ∧ slotCount ≤ index
  | .setFront surface front =>
    (s.surfaces.find? surface).isSome = true ∧ ∃ i, front = some i ∧ slotCount ≤ i
  | _ => False

section
variable {s : Session σ}

theorem exists_of_errors_onObject {t : Target} {x : Error}
    {f : BufferObject → World σ → Answer × BufferObject × World σ}
    (hx : x ∈ (s.onObject t f).1.answer.errors) :
    ∃ b, s.object? t = some b ∧ x ∈ (f b s.world).1.errors := by
  cases hb : s.object? t with
  | none => rcases onObject_of_none hb f with h | h <;> rw [h] at hx <;> cases hx
  | some b => exact ⟨b, rfl, (onObject_of_some hb f).1 ▸ hx⟩

theorem exists_of_errors_onSurface {surface : String} {x : Error}
    {f : Surface → World σ → Answer × Surface × World σ}
    (hx : x ∈ (s.onSurface surface f).1.answer.errors) :
    ∃ y, s.surfaces.find? surface = some y ∧ x ∈ (f y s.world).1.errors := by
  cases hy : s.surfaces.find? surface with
  | none =>
    simp only [onSurface, hy] at hx
    cases hx
  | some y =>
    simp only [onSurface, hy] at hx
    exact ⟨y, rfl, hx⟩

theorem judged_onDevice {faulty : Prop} {f : Session σ → Outcome × Session σ}
    (hf : Judged faulty s.world (f s).1.answer.errors (f s).2.world) :
    Judged (s.device = true ∧ faulty) s.world (s.onDevice f).1.answer.errors
      (s.onDevice f).2.world := by
  rw [onDevice]
  split
  · next hd => exact hf.congr (by simp [hd])
  · next hd => exact .success (by simp [hd])

theorem judged_onObject (t : Target) (fault : BufferObject → Prop)
    {f : BufferObject → World σ → Answer × BufferObject × World σ}
    (hf : ∀ b, Judged (fault b) s.world (f b s.world).1.errors (f b s.world).2.2) :
    Judged (∃ b, s.object? t = some b ∧ fault b) s.world (s.onObject t f).1.answer.errors
      (s.onObject t f).2.world := by
  cases hb : s.object? t with
  | none =>
    rcases onObject_of_none hb f with h | h <;> rw [h] <;> exact .success (by simp)
  | some b =>
    obtain ⟨hanswer, hworld⟩ := onObject_of_some hb f
    rw [hanswer, hworld]
    exact (hf b).congr (by simp)

theorem judged_onSurface (surface : String) (faulty : Prop)
    {f : Surface → World σ → Answer × Surface × World σ}
    (hf : ∀ x, Judged faulty s.world (f x s.world).1.errors (f x s.world).2.2) :
    Judged ((s.surfaces.find? surface).isSome = true ∧ faulty) s.world
      (s.onSurface surface f).1.answer.errors (s.onSurface surface f).2.world := by
  rw [onSurface]
  cases hx : s.surfaces.find? surface with
  | none => exact .success (by simp)
  | some x => exact (hf x).congr (by simp)

theorem judged_addObject {faulty : Prop} {name : String}
    {made : Except Error BufferObject × World σ}
    (h : Judged faulty s.world (errorsOf made.1) made.2) :
    Judged faulty s.world (s.addObject D name made).1.answer.errors
      (s.addObject D name made).2.world := by
  obtain ⟨e | b, w⟩ := made
  · exact h
  · refine .success fun hf => ?_
    obtain ⟨x, hx, _⟩ := h.invalid.mpr hf
    cases hx

end

theorem errors_ofUnit {α : Type} (r : Except Error α) : (Answer.ofUnit r).errors = errorsOf r := by
  cases r <;> rfl

theorem plane_judged (b : BufferObject) (index : Nat) (w : World σ) :
    Judged (b.planes.length ≤ index) w
      (Answer.plane (b.planeStride index) (b.planeHandle index) (b.planeOffset index)).errors
      w := by
  rcases errors_plane b index with ⟨hi, h⟩ | ⟨hi, h⟩ <;> rw [h]
  · exact ⟨iff_of_true ⟨_, List.mem_cons_self, rfl⟩ hi, fun _ => .refl w⟩
  · exact .success (Nat.not_le_of_lt hi)

theorem replace_none (s : Session σ) {surface : String} {x : Surface} {index : Nat}
    (hx : s.surfaces.find? surface = some x) :
    s.replace D surface index none = s.onSurface surface (replacing D index none) := by
  simp only [replace, hx]
  rfl

theorem replace_some (s : Session σ) {surface : String} {x : Surface} (index : Nat)
    {y : NamedBuffer} {z : SlotBuffer} (hx : s.surfaces.find? surface = some x)
    (hy : s.slotBuffer? y = some z) :
    s.replace D surface index (some y) =
      { s with descriptors := y.descriptor.elim s.descriptors s.descriptors.erase }.onSurface
        surface (replacing D index (some z)) := by
  simp only [replace, hx, hy]
  cases y.descriptor <;> rfl

theorem replace_judged (s : Session σ) (surface : String) (index : Nat)
    (buffer : Option NamedBuffer) :
    Judged (s.Faulty (.replace surface index buffer : Op ι)) s.world
      (s.replace D surface index buffer).1.answer.errors
      (s.replace D surface index buffer).2.world := by
  have hput (s : Session σ) (y : Option SlotBuffer) :
      Judged ((s.surfaces.find? surface).isSome = true ∧ slotCount ≤ index) s.world
        (s.onSurface surface (replacing D index y)).1.answer.errors
        (s.onSurface surface (replacing D index y)).2.world :=
    judged_onSurface surface _ fun x => by
      rw [replacing, errors_ofUnit]
      exact x.replace_judged index y s.world
  cases hx : s.surfaces.find? surface with
  | none =>
    have hrefused : s.replace D surface index buffer = s.refuse := by simp only [replace, hx]
    rw [hrefused]
    exact .success (by simp [Faulty, hx])
  | some x =>
    cases buffer with
    | none =>
      rw [s.replace_none hx]
      exact (hput s none).congr (by simp [Faulty, hx])
    | some y =>
      cases hy : s.slotBuffer? y with
      | none =>
        have hrefused : s.replace D surface index (some y) = s.refuse := by
          simp only [replace, hx, hy]
        rw [hrefused]
        exact .success (by simp [Faulty, hy])
      | some z =>
        rw [s.replace_some index hx hy]
        generalize y.descriptor.elim s.descriptors s.descriptors.erase = descriptors
        exact (hput { s with descriptors } (some z)).congr (by simp [Faulty, hx, hy])

theorem share_judged (s : Session σ) (t : Target) (name : String) :
    Judged (s.Faulty (.share t name : Op ι)) s.world (s.shareObject D t name).1.answer.errors
      (s.shareObject D t name).2.world := by
  have h : Judged (s.Faulty (.share t name : Op ι)) s.world
      (s.onObject t (sharing D)).1.answer.errors (s.onObject t (sharing D)).2.world := by
    refine judged_onObject t _ fun b => ?_
    have hb := b.share_judged (D := D) s.world
    rw [sharing]
    rcases hq : b.share D s.world with ⟨e | d, w⟩ <;> rw [hq] at hb <;> exact hb
  rw [shareObject]
  generalize hout : s.onObject t _ = out
  have hout : s.onObject t (sharing D) = out := hout
  rw [hout] at h
  obtain ⟨outcome, s'⟩ := out
  dsimp only at h ⊢
  split
  · next d _ => exact h.before (logs_keepDescriptor s' name d)
  · exact h

/-- Whether an operation can answer errors. -/
def Op.CanFail : Op ι → Prop
  | .layoutPlanes _ _ | .create _ _ _ _ _ | .createBuffer _ _ _ _ _ | .importFrom _ _
  | .createSurface _ _ _ _ _ | .acquire _ | .acquireRegion _ _ _ _ _ | .write _ _
  | .withMapping _ _ | .plane _ _ | .share _ _ | .replace _ _ _ | .allocate _ _
  | .setFront _ _ => True
  | _ => False

theorem errors_of_sure (s : Session σ) (op : Op ι) (h : ¬ op.CanFail) :
    (s.step D op).1.answer.errors = [] := by
  refine List.eq_nil_iff_forall_not_mem.mpr fun x hx => ?_
  cases op with
  | layoutPlanes | create | createBuffer | importFrom | createSurface | acquire | acquireRegion
  | write | withMapping | plane | share | replace | allocate | setFront => exact h trivial
  | outside i | receive name | newMemory name length => cases hx
  | deviceName | supportsFormat format usage | destroyDevice =>
    simp only [step, onDevice] at hx
    split at hx <;> cases hx
  | close name | readMemory name offset count | destroy name | destroySurface surface =>
    simp only [step] at hx
    split at hx <;> cases hx
  | exportHandle handle flags name =>
    simp only [step, onDevice] at hx
    split at hx
    · split at hx <;> cases hx
    · cases hx
  | importDescriptor name =>
    simp only [step, onDevice] at hx
    split at hx
    · split at hx
      · cases hx
      · split at hx <;> cases hx
    · cases hx
  | release t | inspect t =>
    obtain ⟨_, _, he⟩ := exists_of_errors_onObject hx
    cases he
  | saveId t name =>
    have hx : x ∈ (s.onObject t fun b w => (.done, b, w)).1.answer.errors := by
      simp only [step, saveId] at hx
      split at hx <;> exact hx
    obtain ⟨_, _, he⟩ := exists_of_errors_onObject hx
    cases he
  | inspectSurface surface =>
    obtain ⟨_, _, he⟩ := exists_of_errors_onSurface hx
    cases he
  | lockFront surface name =>
    have hx : x ∈ (s.onSurface surface fun y w =>
        (.identity y.lockFront.1, y.lockFront.2, w)).1.answer.errors := by
      simp only [step, lockFront] at hx
      split at hx <;> exact hx
    obtain ⟨_, _, he⟩ := exists_of_errors_onSurface hx
    cases he
  | unlock surface id =>
    simp only [step] at hx
    split at hx
    · cases hx
    · obtain ⟨_, _, he⟩ := exists_of_errors_onSurface hx
      cases he

/-- Whether an operation is refused as faulty, by what it asks for. -/
theorem step_judged (s : Session σ) (op : Op ι) :
    Judged (s.Faulty op) s.world (s.step D op).1.answer.errors (s.step D op).2.world := by
  cases op with
  | create name width height format usage =>
    exact judged_onDevice (judged_addObject (BufferObject.create_judged ..))
  | createBuffer name width height fourcc modifiers =>
    exact judged_onDevice (judged_addObject (Device.createBuffer_judged ..))
  | importFrom name source =>
    refine judged_onDevice ?_
    cases hs : source.resolve? s.descriptors.find? with
    | none => exact .success (by simp)
    | some x =>
      exact (judged_addObject (BufferObject.importFrom_judged x s.world)).congr (by simp)
  | createSurface name width height format usage =>
    refine judged_onDevice ?_
    have h := Surface.create_judged width height format usage s.world
    cases hx : Surface.create width height format usage with
    | error e =>
      rw [hx] at h
      exact h
    | ok x =>
      refine .success fun hf => ?_
      obtain ⟨e, he, _⟩ := (hx ▸ h).invalid.mpr hf
      cases he
  | layoutPlanes format modifier =>
    simp only [step, onDevice, Faulty]
    split
    · next hd => exact .fault hd rfl rfl
    · next hd => exact .success hd
  | acquire t =>
    refine judged_onObject t _ fun b => ?_
    have h := b.acquire_judged (D := D) s.world
    rcases hq : b.acquire D s.world with ⟨e | a, b', w⟩ <;> rw [hq] at h <;> exact h
  | acquireRegion t x y width height =>
    refine judged_onObject t _ fun b => ?_
    have h := b.acquireRegion_judged (D := D) x y width height s.world
    rcases hq : b.acquireRegion D x y width height s.world with ⟨e | a, b', w⟩ <;>
      rw [hq] at h <;> exact h
  | withMapping t accesses =>
    refine judged_onObject t _ fun b => ?_
    have h := b.withMapping_judged (D := D) accesses s.world
    rcases hq : b.withMapping D accesses s.world with ⟨e | a, b', w⟩ <;> rw [hq] at h <;> exact h
  | write t data =>
    refine judged_onObject t _ fun b => ?_
    rw [errors_ofUnit]
    exact b.write_judged data s.world
  | plane t index => exact judged_onObject t _ fun b => plane_judged b index s.world
  | share t name => exact share_judged s t name
  | replace surface index buffer => exact replace_judged s surface index buffer
  | allocate surface index =>
    refine judged_onSurface surface _ fun x => ?_
    have h := x.allocate_judged (D := D) index s.world
    rcases hq : x.allocate D index s.world with ⟨e | id, x', w⟩ <;> rw [hq] at h <;> exact h
  | setFront surface front =>
    refine judged_onSurface surface _ fun x => ?_
    rw [errors_ofUnit]
    exact x.setFront_judged front s.world
  | _ =>
    rw [s.errors_of_sure _ id]
    exact .success id

/-- Errors tell who is at fault. An operation is refused as faulty just where what it asks for is,
and the driver is not called then. Otherwise it succeeds if no call was refused, and fails with the
one that was: calls that could not give something back are never reported. The steps of a scoped
mapping are at fault one by one, and never call the driver. -/
theorem errors_classified (D : Driver σ ι) (s : Session σ) (op : Op ι) :
    let e := s.turn D op
    ((∃ x ∈ e.answer.errors, x.isInvalidInput = true) ↔ s.Faulty op) ∧
    (s.Faulty op → ∀ x ∈ e.events, x.isDriverCall = false) ∧
    (¬ s.Faulty op →
      (e.events.filter Event.isRefused = [] ∧ e.answer.Succeeds) ∨
        ∃ x, e.events.filter Event.isRefused = [x] ∧ e.answer.Reports x) ∧
    (∀ t b accesses seen, op = .withMapping t accesses → s.object? t = some b →
      e.answer = .accesses seen →
      seen.map BufferObject.Seen.error? =
        accesses.map (BufferObject.Access.fault? b.byteSize)) ∧
    ∀ (b : BufferObject) a (w : World σ) x, (b.access D a w x).2.events = w.events := by
  intro e
  have hjudged : Judged (s.Faulty op) s.world e.answer.errors (s.step D op).2.world :=
    s.step_judged op
  obtain ⟨_, htells⟩ := s.turn_accounts (D := D) op
  refine ⟨hjudged.invalid, fun hf x hx => ?_, fun hf => ?_, fun t b accesses seen ht hb ha => ?_,
    fun b a w x => ?_⟩
  · obtain ⟨l, hl, hidle, _⟩ := hjudged.idle hf
    have hx : x ∈ l := turn_events hl ▸ hx
    cases hd : x.isDriverCall with
    | false => rfl
    | true => exact (hidle x hx hd).elim
  · rcases htells.cases with ⟨hinvalid, _⟩ | h | h
    · exact absurd (hjudged.invalid.mp hinvalid) hf
    · exact .inl h
    · exact .inr h
  · subst ht
    have hop : (Op.withMapping t accesses : Op ι).target? = some t := rfl
    have ha := (congrArg Turn.answer (turn_of_target? (D := D) hop hb).1).symm.trans ha
    rcases hq : b.acquire D s.world with ⟨x | a, b', w⟩
    · simp [Op.work, BufferObject.withMapping, hq] at ha
    · simp only [Op.work, BufferObject.withMapping, hq, Answer.accesses.injEq] at ha
      have hmapped : b'.mapping = some a ∧ b'.byteSize = b.byteSize := by
        cases BufferObject.acquired hq <;> exact ⟨rfl, rfl⟩
      rw [← ha, BufferObject.errors_accessAll hmapped.1, hmapped.2]
  · obtain ⟨m, hm⟩ := b.access_memory D a w x
    rw [hm]

end Session
end DisplayBuffers
