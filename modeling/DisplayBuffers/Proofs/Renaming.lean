import DisplayBuffers.Proofs.Lineage
import DisplayBuffers.Proofs.Relabelling

/-! What the client calls its buffer objects makes no difference. When their names are permuted, and
with them the ids, the same operations under the new names have the same outcomes, step by step. -/
namespace DisplayBuffers
variable {σ ι : Type}

namespace Table
variable {κ α : Type} [DecidableEq κ] {ρ : Equiv.Perm κ} {f : α → α} {t t' : Table κ α}
  (h : ∀ k, t'.find? (ρ k) = (t.find? k).map f)
include h

/-- Tables that have the same under other keys, but for a change, still do after the insertion of
something and its change. -/
theorem find?_insert_renamed (k : κ) (a : α) (j : κ) :
    (t'.insert (ρ k) (f a)).find? (ρ j) = ((t.insert k a).find? j).map f := by
  simp only [find?_insert, EmbeddingLike.apply_eq_iff_eq]
  split
  · rfl
  · exact h j

theorem find?_erase_renamed (k j : κ) :
    (t'.erase (ρ k)).find? (ρ j) = ((t.erase k).find? j).map f := by
  simp only [find?_erase, EmbeddingLike.apply_eq_iff_eq]
  split
  · rfl
  · exact h j

end Table

namespace Session
variable (D : Driver σ ι) (ρ : Equiv.Perm String) (π : Equiv.Perm BufferId)

def Target.rename : Target → Target
  | .object name => .object (ρ name)
  | .slot surface index => .slot surface index

/-- The same operation, with another name where it names a buffer object of the client's own. -/
def Op.rename : Op ι → Op ι
  | .create name width height format usage => .create (ρ name) width height format usage
  | .createBuffer name width height fourcc modifiers =>
    .createBuffer (ρ name) width height fourcc modifiers
  | .importFrom name source => .importFrom (ρ name) source
  | .acquire t => .acquire (t.rename ρ)
  | .acquireRegion t x y width height => .acquireRegion (t.rename ρ) x y width height
  | .release t => .release (t.rename ρ)
  | .write t data => .write (t.rename ρ) data
  | .withMapping t accesses => .withMapping (t.rename ρ) accesses
  | .inspect t => .inspect (t.rename ρ)
  | .saveId t name => .saveId (t.rename ρ) name
  | .plane t index => .plane (t.rename ρ) index
  | .share t name => .share (t.rename ρ) name
  | .destroy name => .destroy (ρ name)
  | op => op

theorem Op.target?_rename (op : Op ι) : (op.rename ρ).target? = op.target?.map (·.rename ρ) := by
  cases op <;> rfl

theorem Op.work_rename (op : Op ι) : (op.rename ρ).work D = op.work D := by
  cases op <;> rfl

def Answer.relabel : Answer → Answer
  | .identity id => .identity (id.map π)
  | a => a

def Subject.relabel : Subject → Subject
  | .nothing => .nothing
  | .object b => .object (b.relabel π)
  | .surface x => .surface (x.relabel π)

def Outcome.relabel (o : Outcome) : Outcome := ⟨o.answer.relabel π, o.subject.relabel π⟩

/-- Sessions that differ in the names of buffer objects and in ids, and in the order in which names
are listed. -/
structure Renamed (s s' : Session σ) : Prop where
  world : s'.world = s.world.relabel π
  device : s'.device = s.device
  objects : ∀ name, s'.objects.find? (ρ name) = (s.objects.find? name).map (·.relabel π)
  surfaces : ∀ name, s'.surfaces.find? name = (s.surfaces.find? name).map (·.relabel π)
  descriptors : s'.descriptors = s.descriptors
  memories : s'.memories = s.memories
  ids : ∀ name, s'.ids.find? name = (s.ids.find? name).map π

/-- The outcomes differ in ids and the sessions after them in names and ids. -/
structure Corresponds (r r' : Outcome × Session σ) : Prop where
  outcome : r'.1 = r.1.relabel π
  session : Renamed ρ π r.2 r'.2

section
variable {D ρ π} {s s' : Session σ} (h : Renamed ρ π s s')
include h

theorem Renamed.refuse : Corresponds ρ π s.refuse s'.refuse := ⟨rfl, h⟩

theorem Renamed.reply (a : Answer) : Corresponds ρ π (s.reply a) (s'.reply (a.relabel π)) :=
  ⟨rfl, h⟩

theorem Renamed.withWorld (w : World σ) :
    Renamed ρ π (s.withWorld w) (s'.withWorld (w.relabel π)) :=
  ⟨rfl, h.device, h.objects, h.surfaces, h.descriptors, h.memories, h.ids⟩

theorem Renamed.insertObject (name : String) (b : BufferObject) :
    Renamed ρ π { s with objects := s.objects.insert name b }
      { s' with objects := s'.objects.insert (ρ name) (b.relabel π) } :=
  ⟨h.world, h.device, Table.find?_insert_renamed h.objects name b, h.surfaces,
    h.descriptors, h.memories, h.ids⟩

theorem Renamed.eraseObject (name : String) :
    Renamed ρ π { s with objects := s.objects.erase name }
      { s' with objects := s'.objects.erase (ρ name) } :=
  ⟨h.world, h.device, Table.find?_erase_renamed h.objects name, h.surfaces,
    h.descriptors, h.memories, h.ids⟩

theorem Renamed.insertSurface (name : String) (x : Surface) :
    Renamed ρ π { s with surfaces := s.surfaces.insert name x }
      { s' with surfaces := s'.surfaces.insert name (x.relabel π) } :=
  ⟨h.world, h.device, h.objects,
    Table.find?_insert_renamed (ρ := Equiv.refl String) h.surfaces name x, h.descriptors,
    h.memories, h.ids⟩

theorem Renamed.eraseSurface (name : String) :
    Renamed ρ π { s with surfaces := s.surfaces.erase name }
      { s' with surfaces := s'.surfaces.erase name } :=
  ⟨h.world, h.device, h.objects,
    Table.find?_erase_renamed (ρ := Equiv.refl String) h.surfaces name, h.descriptors, h.memories,
    h.ids⟩

theorem Renamed.insertId (name : String) (id : BufferId) :
    Renamed ρ π { s with ids := s.ids.insert name id }
      { s' with ids := s'.ids.insert name (π id) } :=
  ⟨h.world, h.device, h.objects, h.surfaces, h.descriptors, h.memories,
    Table.find?_insert_renamed (ρ := Equiv.refl String) h.ids name id⟩

theorem Renamed.withDescriptors (t : Table String Dmabuf) :
    Renamed ρ π { s with descriptors := t } { s' with descriptors := t } :=
  ⟨h.world, h.device, h.objects, h.surfaces, rfl, h.memories, h.ids⟩

theorem Renamed.keepDescriptor (name : String) (d : Dmabuf) :
    Renamed ρ π (s.keepDescriptor name d) (s'.keepDescriptor name d) := by
  rw [Session.keepDescriptor, Session.keepDescriptor, h.descriptors, h.world]
  have hkeep (w : World σ) := (h.withWorld w).withDescriptors (s.descriptors.insert name d)
  cases s.descriptors.find? name with
  | none => exact hkeep s.world
  | some old =>
    dsimp only
    rw [World.close_relabel]
    exact hkeep (s.world.close old)

theorem Renamed.keepObject (name : String) (b : BufferObject) :
    Renamed ρ π (s.keepObject D name b) (s'.keepObject D (ρ name) (b.relabel π)) := by
  rw [Session.keepObject, Session.keepObject, h.objects, h.world]
  have hkeep (w : World σ) := (h.withWorld w).insertObject name b
  cases s.objects.find? name with
  | none => exact hkeep s.world
  | some old =>
    dsimp only [Option.map_some]
    rw [BufferObject.destroy_relabel]
    exact hkeep (old.destroy D s.world)

theorem Renamed.keepSurface (name : String) (x : Surface) :
    Renamed ρ π (s.keepSurface D name x) (s'.keepSurface D name (x.relabel π)) := by
  rw [Session.keepSurface, Session.keepSurface, h.surfaces, h.world]
  have hkeep (w : World σ) := (h.withWorld w).insertSurface name x
  cases s.surfaces.find? name with
  | none => exact hkeep s.world
  | some old =>
    dsimp only [Option.map_some]
    rw [Surface.destroy_relabel]
    exact hkeep (old.destroy D s.world)

theorem Renamed.addObject (name : String) {made made' : Except Error BufferObject × World σ}
    (hm : made' = (made.1.map (·.relabel π), made.2.relabel π)) :
    Corresponds ρ π (s.addObject D name made) (s'.addObject D (ρ name) made') := by
  subst hm
  obtain ⟨x | b, w⟩ := made
  · exact (h.withWorld w).reply (.failed x)
  · exact ⟨rfl, (h.withWorld w).keepObject name b⟩

theorem Renamed.onObject (t : Target)
    {f f' : BufferObject → World σ → Answer × BufferObject × World σ}
    (hf : ∀ b, f' (b.relabel π) (s.world.relabel π) = ((f b s.world).1.relabel π,
      (f b s.world).2.1.relabel π, (f b s.world).2.2.relabel π)) :
    Corresponds ρ π (s.onObject t f) (s'.onObject (t.rename ρ) f') := by
  cases t with
  | object name =>
    simp only [Session.onObject, Target.rename, h.objects, h.world]
    cases s.objects.find? name with
    | none => exact h.refuse
    | some b =>
      simp only [Option.map_some, hf]
      exact ⟨rfl, (h.withWorld _).insertObject name _⟩
  | slot surface i =>
    simp only [Session.onObject, Target.rename, h.surfaces, h.world]
    cases s.surfaces.find? surface with
    | none => exact h.refuse
    | some x =>
      simp only [Option.map_some, Surface.slot?_relabel]
      cases x.slot? i with
      | none => exact h.reply .noSlot
      | some b =>
        simp only [Option.map_some, hf]
        refine ⟨rfl, ?_⟩
        have hslot := x.withSlot_relabel π i (some (f b s.world).2.1)
        rw [Option.map_some] at hslot
        rw [hslot]
        exact (h.withWorld _).insertSurface surface _

theorem Renamed.onSurface (surface : String)
    {f f' : Surface → World σ → Answer × Surface × World σ}
    (hf : ∀ x, f' (x.relabel π) (s.world.relabel π) = ((f x s.world).1.relabel π,
      (f x s.world).2.1.relabel π, (f x s.world).2.2.relabel π)) :
    Corresponds ρ π (s.onSurface surface f) (s'.onSurface surface f') := by
  simp only [Session.onSurface, h.surfaces, h.world]
  cases s.surfaces.find? surface with
  | none => exact h.refuse
  | some x =>
    simp only [Option.map_some, hf]
    exact ⟨rfl, (h.withWorld _).insertSurface surface _⟩

theorem Renamed.onDevice {f f' : Session σ → Outcome × Session σ}
    (hf : Corresponds ρ π (f s) (f' s')) :
    Corresponds ρ π (s.onDevice f) (s'.onDevice f') := by
  rw [Session.onDevice, Session.onDevice, h.device]
  split
  · exact hf
  · exact h.refuse

theorem Renamed.work {op : Op ι} {t : Target} (ht : op.target? = some t) :
    Corresponds ρ π (s.onObject t (op.work D)) (s'.onObject (t.rename ρ) (op.work D)) := by
  refine h.onObject t fun b => ?_
  cases op with
  | acquire u =>
    simp only [Op.work, BufferObject.acquire_relabel]
    rcases b.acquire D s.world with ⟨_ | _, _, _⟩ <;> rfl
  | acquireRegion u x y width height =>
    simp only [Op.work, BufferObject.acquireRegion_relabel]
    rcases b.acquireRegion D x y width height s.world with ⟨_ | _, _, _⟩ <;> rfl
  | release u => simp only [Op.work, BufferObject.release_relabel, Answer.relabel]
  | write u data =>
    simp only [Op.work, BufferObject.write_relabel]
    rcases b.write D data s.world with ⟨_ | _, _⟩ <;> rfl
  | withMapping u accesses =>
    simp only [Op.work, BufferObject.withMapping_relabel]
    rcases b.withMapping D accesses s.world with ⟨_ | _, _, _⟩ <;> rfl
  | inspect u => rfl
  | plane u index => rfl
  | _ => cases ht

theorem Renamed.shareObject (t : Target) (name : String) :
    Corresponds ρ π (s.shareObject D t name) (s'.shareObject D (t.rename ρ) name) := by
  have hon : Corresponds ρ π (s.onObject t (sharing D)) (s'.onObject (t.rename ρ) (sharing D)) := by
    refine h.onObject t fun b => ?_
    simp only [sharing, BufferObject.share_relabel]
    rcases b.share D s.world with ⟨_ | _, _⟩ <;> rfl
  rw [Session.shareObject, Session.shareObject]
  generalize hr : s.onObject t _ = r
  generalize hr' : s'.onObject _ _ = r'
  replace hon : Corresponds ρ π r r' := hr ▸ hr' ▸ hon
  obtain ⟨⟨answer, subject⟩, s₁⟩ := r
  obtain ⟨outcome', s₁'⟩ := r'
  obtain ⟨rfl, hs⟩ := hon
  cases answer with
  | dmabuf d => exact ⟨rfl, hs.keepDescriptor name d⟩
  | _ => exact ⟨rfl, hs⟩

theorem Renamed.saveId (t : Target) (name : String) :
    Corresponds ρ π (s.saveId t name) (s'.saveId (t.rename ρ) name) := by
  have hon : Corresponds ρ π (s.onObject t fun b w => (.done, b, w))
      (s'.onObject (t.rename ρ) fun b w => (.done, b, w)) := h.onObject t fun b => rfl
  rw [Session.saveId, Session.saveId]
  generalize s.onObject t _ = r at hon ⊢
  generalize s'.onObject _ _ = r' at hon ⊢
  obtain ⟨⟨answer, subject⟩, s₁⟩ := r
  obtain ⟨outcome', s₁'⟩ := r'
  obtain ⟨rfl, hs⟩ := hon
  cases subject with
  | object b => exact ⟨rfl, hs.insertId name b.id⟩
  | _ => exact ⟨rfl, hs⟩

theorem Renamed.lockFront (surface : String) (name : Option String) :
    Corresponds ρ π (s.lockFront surface name) (s'.lockFront surface name) := by
  have hon : Corresponds ρ π
      (s.onSurface surface fun x w => (.identity x.lockFront.1, x.lockFront.2, w))
      (s'.onSurface surface fun x w => (.identity x.lockFront.1, x.lockFront.2, w)) :=
    h.onSurface surface fun x => by simp only [Surface.lockFront_relabel, Answer.relabel]
  rw [Session.lockFront, Session.lockFront]
  generalize hr : s.onSurface surface _ = r
  generalize hr' : s'.onSurface surface _ = r'
  replace hon : Corresponds ρ π r r' := hr ▸ hr' ▸ hon
  obtain ⟨⟨answer, subject⟩, s₁⟩ := r
  obtain ⟨outcome', s₁'⟩ := r'
  obtain ⟨rfl, hs⟩ := hon
  cases answer with
  | identity id =>
    cases id with
    | none => exact ⟨rfl, hs⟩
    | some id =>
      cases name with
      | none => exact ⟨rfl, hs⟩
      | some name => exact ⟨rfl, hs.insertId name id⟩
  | _ => exact ⟨rfl, hs⟩

theorem Renamed.replace (hπ : Fixes π s.world.identities) (surface : String) (i : Nat)
    (buffer : Option NamedBuffer) :
    Corresponds ρ π (s.replace D surface i buffer) (s'.replace D surface i buffer) := by
  have hput {s s' : Session σ} (h : Renamed ρ π s s') (hπ : Fixes π s.world.identities)
      (y : Option SlotBuffer) :
      Corresponds ρ π (s.onSurface surface (replacing D i y))
        (s'.onSurface surface (replacing D i y)) := by
    refine h.onSurface surface fun x => ?_
    simp only [replacing, Surface.replace_relabel D x hπ]
    cases (x.replace D i y s.world).1 <;> rfl
  have hbuffer (x : NamedBuffer) : s'.slotBuffer? x = s.slotBuffer? x := by
    rw [slotBuffer?, slotBuffer?, h.descriptors, h.memories]
  cases hx : s.surfaces.find? surface with
  | none =>
    simp only [Session.replace, h.surfaces, hx, Option.map_none]
    exact h.refuse
  | some x =>
    cases buffer with
    | none =>
      simp only [Session.replace, h.surfaces, hx, Option.map_some]
      exact hput h hπ none
    | some y =>
      simp only [Session.replace, h.surfaces, hx, Option.map_some, hbuffer, h.descriptors]
      cases s.slotBuffer? y with
      | none => exact h.refuse
      | some z =>
        cases y.descriptor with
        | none => exact hput (h.withDescriptors s.descriptors) hπ (some z)
        | some name => exact hput (h.withDescriptors (s.descriptors.erase name)) hπ (some z)

/-- Operations under the new names do the same, as long as ids to come are left alone. -/
theorem Renamed.step (hπ : Fixes π s.world.identities) (op : Op ι) :
    Corresponds ρ π (s.step D op) (s'.step D (op.rename ρ)) := by
  cases ho : op.target? with
  | some t =>
    have ho' : (op.rename ρ).target? = some (t.rename ρ) := by
      rw [op.target?_rename, ho, Option.map_some]
    rw [step_of_target? s ho, step_of_target? s' ho', op.work_rename]
    exact h.work ho
  | none =>
    cases op with
    | acquire t | acquireRegion t x y width height | release t | write t data
    | withMapping t accesses | inspect t | plane t index => cases ho
    | outside i =>
      simp only [Session.step, Op.rename, h.world, World.outside_relabel]
      exact (h.withWorld _).reply .done
    | receive name =>
      simp only [Session.step, Op.rename, h.world, World.receive_relabel]
      exact ((h.withWorld _).keepDescriptor name _).reply (.dmabuf _)
    | close name =>
      simp only [Session.step, Op.rename, h.descriptors, h.world, World.close_relabel]
      cases s.descriptors.find? name with
      | none => exact h.refuse
      | some d => exact ((h.withWorld _).withDescriptors _).reply .done
    | newMemory name length =>
      simp only [Session.step, Op.rename, h.memories]
      refine Renamed.reply ?_ .done
      exact ⟨h.world, h.device, h.objects, h.surfaces, h.descriptors, rfl, h.ids⟩
    | readMemory name offset count =>
      simp only [Session.step, Op.rename, h.memories, h.world]
      cases s.memories.lookup name with
      | none => exact h.refuse
      | some m => exact h.reply (readBytes s.world.memory (.client m.key) m.length offset count)
    | deviceName => exact h.onDevice (h.reply (.text _))
    | supportsFormat format usage => exact h.onDevice (h.reply (.flag _))
    | layoutPlanes format modifier =>
      simp only [Session.step, Op.rename]
      refine h.onDevice ?_
      cases Device.planeCount format modifier <;> exact h.reply _
    | create name width height format usage =>
      simp only [Session.step, Op.rename]
      refine h.onDevice (h.addObject name ?_)
      rw [h.world, BufferObject.create_relabel D hπ]
    | createBuffer name width height fourcc modifiers =>
      simp only [Session.step, Op.rename]
      refine h.onDevice (h.addObject name ?_)
      rw [h.world, BufferObject.createBuffer_relabel D hπ]
    | importFrom name source =>
      simp only [Session.step, Op.rename]
      refine h.onDevice ?_
      simp only [h.descriptors]
      cases source.resolve? s.descriptors.find? with
      | none => exact h.refuse
      | some source =>
        refine h.addObject name ?_
        rw [h.world, BufferObject.importFrom_relabel D hπ]
    | createSurface name width height format usage =>
      simp only [Session.step, Op.rename]
      refine h.onDevice ?_
      rcases hx : Surface.create width height format usage with e | x
      · exact h.reply (.failed e)
      · have hkeep := (h.withWorld s.world.hold).keepSurface (D := D) name x
        rw [Surface.relabel_of_create π hx] at hkeep
        rw [h.world, World.hold_relabel]
        refine ⟨?_, hkeep⟩
        rw [Outcome.relabel, Subject.relabel, Surface.relabel_of_create π hx]
        rfl
    | exportHandle handle flags name =>
      simp only [Session.step, Op.rename]
      refine h.onDevice ?_
      simp only [h.world, World.exportHandle_relabel]
      rcases s.world.exportHandle D handle flags with ⟨e | d, w⟩
      · exact (h.withWorld w).reply (.driverFailed e)
      · exact ((h.withWorld w).keepDescriptor name d).reply (.dmabuf d)
    | importDescriptor name =>
      simp only [Session.step, Op.rename]
      refine h.onDevice ?_
      simp only [h.descriptors, h.world, World.importDescriptor_relabel]
      cases s.descriptors.find? name with
      | none => exact h.refuse
      | some d =>
        dsimp only
        rcases s.world.importDescriptor D d with ⟨e | handle, w⟩
        · exact (h.withWorld w).reply (.driverFailed e)
        · exact (h.withWorld w).reply (.handle handle)
    | destroyDevice =>
      simp only [Session.step, Op.rename]
      refine h.onDevice (Renamed.reply ?_ .done)
      rw [h.world, World.letGo_relabel]
      exact ⟨rfl, rfl, h.objects, h.surfaces, h.descriptors, h.memories, h.ids⟩
    | saveId t name => exact h.saveId t name
    | share t name => exact h.shareObject t name
    | destroy name =>
      simp only [Session.step, Op.rename, h.objects, h.world]
      cases s.objects.find? name with
      | none => exact h.refuse
      | some b =>
        simp only [Option.map_some, BufferObject.destroy_relabel]
        exact ((h.withWorld _).eraseObject name).reply .done
    | inspectSurface surface =>
      simp only [Session.step, Op.rename]
      exact h.onSurface surface fun x => rfl
    | replace surface i buffer => exact h.replace hπ surface i buffer
    | allocate surface i =>
      simp only [Session.step, Op.rename]
      refine h.onSurface surface fun x => ?_
      simp only [Surface.allocate_relabel D x hπ]
      rcases x.allocate D i s.world with ⟨e | id, x', w⟩ <;> rfl
    | setFront surface front =>
      simp only [Session.step, Op.rename]
      refine h.onSurface surface fun x => ?_
      simp only [Surface.setFront_relabel]
      cases (x.setFront front).1 <;> rfl
    | lockFront surface name => exact h.lockFront surface name
    | unlock surface name =>
      simp only [Session.step, Op.rename, h.ids]
      cases s.ids.find? name with
      | none => exact h.refuse
      | some id => exact h.onSurface surface fun x => by simp only [x.unlock_relabel]; rfl
    | destroySurface surface =>
      simp only [Session.step, Op.rename, h.surfaces, h.world]
      cases s.surfaces.find? surface with
      | none => exact h.refuse
      | some x =>
        simp only [Option.map_some, Surface.destroy_relabel]
        exact ((h.withWorld _).eraseSurface surface).reply .done

end

theorem Renamed.run {D : Driver σ ι} {ρ : Equiv.Perm String} {π : Equiv.Perm BufferId}
    {s s' : Session σ} (h : Renamed ρ π s s') (hπ : Fixes π s.world.identities)
    (ops : List (Op ι)) :
    (s'.run D (ops.map (·.rename ρ))).1 = (s.run D ops).1.map (·.relabel π) ∧
      Renamed ρ π (s.run D ops).2 (s'.run D (ops.map (·.rename ρ))).2 := by
  induction ops generalizing s s' with
  | nil => exact ⟨rfl, h⟩
  | cons op ops ih =>
    obtain ⟨houtcome, hsession⟩ := h.step (D := D) hπ op
    obtain ⟨houtcomes, hrun⟩ := ih hsession (hπ.mono (step_advances s op).identities)
    refine ⟨?_, hrun⟩
    rw [List.map_cons, Session.run, Session.run, List.map_cons]
    exact congrArg₂ List.cons houtcome houtcomes

end Session
end DisplayBuffers
