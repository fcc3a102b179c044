import DisplayBuffers.Proofs.Imports
import DisplayBuffers.Proofs.Slots
import DisplayBuffers.Proofs.Table
import DisplayBuffers.Session.Step

/-! A session as an estate. Whatever a client does, in whatever order and however the driver
answers, amounts to a sequence of changes; results about changes hold of whole runs. -/
namespace DisplayBuffers.Session
variable {σ ι : Type} {D : Driver σ ι}

/-- The buffer objects of the client's own and those in the slots of its surfaces. -/
def live (s : Session σ) : Multiset (Place × BufferObject) :=
  s.objects.values.map (Place.own, ·) + s.surfaces.values.bind Surface.placed

def held (s : Session σ) : Multiset Dmabuf := s.descriptors.values

/-- How many hold the driver besides the buffer objects: the device and the surfaces. -/
def users (s : Session σ) : Nat := s.device.toNat + s.surfaces.values.card

def estate (s : Session σ) : Estate σ := ⟨s.live, s.held, s.users, s.world⟩

theorem users_of_device {s : Session σ} (h : s.device = true) :
    s.users = s.surfaces.values.card + 1 := by
  rw [users, h, Bool.toNat_true, Nat.add_comm]

theorem users_of_surface {s : Session σ} {name : String} {x : Surface}
    (h : s.surfaces.find? name = some x) :
    s.users = s.device.toNat + (s.surfaces.erase name).values.card + 1 := by
  rw [users, Table.values_of_find? h, Multiset.card_cons, Nat.add_assoc]

theorem users_insert (s : Session σ) (name : String) (x : Surface) :
    s.device.toNat + (s.surfaces.insert name x).values.card =
      s.device.toNat + (s.surfaces.erase name).values.card + 1 := by
  rw [Table.values_insert, Multiset.card_cons, Nat.add_assoc]

theorem live_of_object {s : Session σ} {name : String} {b : BufferObject}
    (h : s.objects.find? name = some b) :
    s.live = (.own, b) ::ₘ ((s.objects.erase name).values.map (Place.own, ·) +
      s.surfaces.values.bind Surface.placed) := by
  rw [live, Table.values_of_find? h, Multiset.map_cons, Multiset.cons_add]

theorem live_of_surface {s : Session σ} {name : String} {x : Surface}
    (h : s.surfaces.find? name = some x) :
    s.live = x.placed + (s.objects.values.map (Place.own, ·) +
      (s.surfaces.erase name).values.bind Surface.placed) := by
  rw [live, Table.values_of_find? h, Multiset.cons_bind, add_left_comm]

private theorem surface_first (s : Session σ) (name : String) (x : Surface) :
    s.objects.values.map (Place.own, ·) + (s.surfaces.insert name x).values.bind Surface.placed =
      x.placed + (s.objects.values.map (Place.own, ·) +
        (s.surfaces.erase name).values.bind Surface.placed) := by
  rw [Table.values_insert, Multiset.cons_bind, add_left_comm]

theorem held_of_find? {s : Session σ} {name : String} {d : Dmabuf}
    (h : s.descriptors.find? name = some d) :
    s.held = d ::ₘ (s.descriptors.erase name).values :=
  Table.values_of_find? h

theorem keepDescriptor_changes (s : Session σ) (name : String) (d : Dmabuf) :
    Changes D ⟨s.live, d ::ₘ s.held, s.users, s.world⟩ (s.keepDescriptor name d).estate := by
  rw [keepDescriptor]
  cases h : s.descriptors.find? name with
  | none =>
    rw [held, ← Table.values_erase_of_find?_none h]
    exact .refl
  | some old =>
    rw [held_of_find? h, Multiset.cons_swap]
    exact .one .closed

theorem keepObject_changes (s : Session σ) (name : String) (b : BufferObject) :
    Changes D ⟨(.own, b) ::ₘ s.live, s.held, s.users, s.world⟩ (s.keepObject D name b).estate := by
  unfold keepObject estate live
  simp only [Table.values_insert, Multiset.map_cons, Multiset.cons_add]
  cases h : s.objects.find? name with
  | none =>
    rw [Table.values_erase_of_find?_none h]
    exact .refl
  | some old =>
    rw [Table.values_of_find? h, Multiset.map_cons, Multiset.cons_add, Multiset.cons_swap]
    exact .one .destroyed

theorem keepSurface_changes (s : Session σ) (name : String) (x : Surface) :
    Changes D ⟨x.placed + s.live, s.held, s.users + 1, s.world⟩
      (s.keepSurface D name x).estate := by
  unfold keepSurface estate live users
  simp only [surface_first, users_insert]
  cases h : s.surfaces.find? name with
  | none =>
    rw [Table.values_erase_of_find?_none h]
    exact .refl
  | some old =>
    rw [Table.values_of_find? h, Multiset.cons_bind, add_left_comm (s.objects.values.map _),
      add_left_comm x.placed, Multiset.card_cons, ← Nat.add_assoc]
    exact old.destroy_changes _ _ _ _

theorem addObject_changes {s : Session σ} {name : String}
    {made : Except Error BufferObject × World σ}
    (h : Changes D s.estate
      ⟨(brought made.1).map (Place.own, ·) + s.live, s.held, s.users, made.2⟩) :
    Changes D s.estate (s.addObject D name made).2.estate := by
  obtain ⟨e | b, w⟩ := made
  · have hw : Changes D s.estate ⟨s.live, s.held, s.users, w⟩ := by simpa [brought] using h
    exact hw
  · exact h.trans (keepObject_changes (s.withWorld w) name b)

/-- What an answer hands to the client. -/
def handed : Answer → Multiset Dmabuf
  | .dmabuf d => {d}
  | _ => 0

/-- An operation on a buffer object, wherever it is kept, changes that object alone. -/
theorem onObject_changes {f : BufferObject → World σ → Answer × BufferObject × World σ}
    {s t : Session σ} {target : Target} {outcome : Outcome}
    (ht : s.onObject target f = (outcome, t)) (G : Answer → Multiset Dmabuf)
    (hm : G .malformed = 0) (hn : G .noSlot = 0)
    (hf : ∀ p b w L H n, Changes D ⟨(p, b) ::ₘ L, H, n, w⟩
      ⟨(p, (f b w).2.1) ::ₘ L, G (f b w).1 + H, n, (f b w).2.2⟩) :
    Changes D s.estate ⟨t.live, G outcome.answer + t.held, t.users, t.world⟩ := by
  obtain rfl : (s.onObject target f).1 = outcome := by rw [ht]
  obtain rfl : (s.onObject target f).2 = t := by rw [ht]
  have hrefused {a : Answer} (ha : G a = 0) :
      Changes D s.estate ⟨s.live, G a + s.held, s.users, s.world⟩ := by
    rw [ha, zero_add]
    exact .refl
  cases target with
  | object name =>
    cases h : s.objects.find? name with
    | none =>
      simp only [onObject, h]
      exact hrefused hm
    | some b =>
      have hb := hf .own b s.world ((s.objects.erase name).values.map (Place.own, ·) +
        s.surfaces.values.bind Surface.placed) s.held s.users
      rw [estate, live_of_object h]
      simp only [onObject, h, live, Table.values_insert, Multiset.map_cons, Multiset.cons_add]
      exact hb
  | slot surface i =>
    cases h : s.surfaces.find? surface with
    | none =>
      simp only [onObject, h]
      exact hrefused hm
    | some x =>
      cases hx : x.slot? i with
      | none =>
        simp only [onObject, h, hx]
        exact hrefused hn
      | some b =>
        have hb := hf .slot b s.world ((x.withSlot i none).placed +
          (s.objects.values.map (Place.own, ·) +
            (s.surfaces.erase surface).values.bind Surface.placed)) s.held s.users
        rw [users_of_surface h] at hb
        rw [estate, live_of_surface h, Surface.placed_of_slot? hx, Multiset.cons_add,
          users_of_surface h]
        simp only [onObject, h, hx, live, users, users_insert]
        rw [surface_first, Surface.placed_withSlot x (Surface.lt_of_slot? hx), Multiset.cons_add]
        exact hb

/-- An operation on an object that hands nothing out. -/
theorem onObject_work {f : BufferObject → World σ → Answer × BufferObject × World σ}
    (hf : ∀ p b w L H n, Changes D ⟨(p, b) ::ₘ L, H, n, w⟩
      ⟨(p, (f b w).2.1) ::ₘ L, H, n, (f b w).2.2⟩)
    (s : Session σ) (target : Target) :
    Changes D s.estate (s.onObject target f).2.estate := by
  have h := onObject_changes (Prod.eta (s.onObject target f)).symm (fun _ => 0) rfl rfl
    (fun p b w L H n => by simpa only [zero_add] using hf p b w L H n)
  rw [zero_add] at h
  exact h

/-- An operation on a surface changes what its slots hold, and nothing that others hold. -/
theorem onSurface_changes {f : Surface → World σ → Answer × Surface × World σ}
    {G : Multiset Dmabuf} {s : Session σ} {n : String}
    (hs : (s.surfaces.find? n).isSome ∨ G = 0)
    (hf : ∀ x L H n, Changes D ⟨x.placed + L, G + H, n + 1, s.world⟩
      ⟨(f x s.world).2.1.placed + L, H, n + 1, (f x s.world).2.2⟩) :
    Changes D ⟨s.live, G + s.held, s.users, s.world⟩ (s.onSurface n f).2.estate := by
  rw [onSurface]
  cases h : s.surfaces.find? n with
  | none =>
    have hG : G = 0 := by simpa [h] using hs
    rw [hG, zero_add]
    exact .refl
  | some x =>
    have hx := hf x (s.objects.values.map (Place.own, ·) +
      (s.surfaces.erase n).values.bind Surface.placed) s.held
      (s.device.toNat + (s.surfaces.erase n).values.card)
    rw [live_of_surface h, users_of_surface h]
    simp only [estate, live, users, surface_first, users_insert]
    exact hx

private theorem accessAll_changes (p : Place) (b : BufferObject) {a : Address}
    (hm : b.mapping = some a) (xs : List BufferObject.Access) (w : World σ)
    (L : Multiset (Place × BufferObject)) (H : Multiset Dmabuf)
    (n : Nat) :
    Changes D ⟨(p, b) ::ₘ L, H, n, w⟩ ⟨(p, b) ::ₘ L, H, n, (b.accessAll D a xs w).2⟩ := by
  induction xs generalizing w with
  | nil => exact .refl
  | cons x xs ih => exact (Changes.one (.used (.access hm x))).trans (ih _)

private theorem withMapping_changes (xs : List BufferObject.Access) (p : Place)
    (b : BufferObject) (w : World σ) (L : Multiset (Place × BufferObject)) (H : Multiset Dmabuf)
    (n : Nat) :
    Changes D ⟨(p, b) ::ₘ L, H, n, w⟩
      ⟨(p, (b.withMapping D xs w).2.1) ::ₘ L, H, n, (b.withMapping D xs w).2.2⟩ := by
  rw [BufferObject.withMapping]
  rcases h : b.acquire D w with ⟨e | a, b', w'⟩
  · exact .one (.used (.acquire h))
  · have hm : b'.mapping = some a := by
      cases BufferObject.acquired h <;> rfl
    exact (Changes.one (.used (.acquire h))).trans
      ((accessAll_changes p b' hm xs w' L H n).trans (.one (.used .release)))

private theorem acquire_changes (p : Place) (b : BufferObject) (w : World σ)
    (L : Multiset (Place × BufferObject)) (H : Multiset Dmabuf)
    (n : Nat) :
    Changes D ⟨(p, b) ::ₘ L, H, n, w⟩
      ⟨(p, (b.acquire D w).2.1) ::ₘ L, H, n, (b.acquire D w).2.2⟩ :=
  .one (.used (.acquire (r := (b.acquire D w).1) rfl))

private theorem write_changes (data : List UInt8) (p : Place) (b : BufferObject) (w : World σ)
    (L : Multiset (Place × BufferObject)) (H : Multiset Dmabuf)
    (n : Nat) :
    Changes D ⟨(p, b) ::ₘ L, H, n, w⟩ ⟨(p, b) ::ₘ L, H, n, (b.write D data w).2⟩ := by
  cases hm : b.mapping with
  | none =>
    have hw : (b.write D data w).2 = w := by simp only [BufferObject.write, hm]
    rw [hw]
    exact .refl
  | some a => exact .one (.used (.access hm (.write data)))

theorem shareObject_changes (s : Session σ) (target : Target) (name : String) :
    Changes D s.estate (s.shareObject D target name).2.estate := by
  rw [shareObject]
  generalize hout : s.onObject target _ = out
  obtain ⟨outcome, t⟩ := out
  refine (onObject_changes hout handed rfl rfl ?_).trans ?_
  · intro p b w L H n
    rcases hb : b.share D w with ⟨e | d, w'⟩
    · simpa only [hb, handed, zero_add] using Changes.one (.notShared hb)
    · simpa only [hb, handed, Multiset.singleton_add] using Changes.one (.shared hb)
  · dsimp only
    split
    · next d ha =>
      simp only [ha, handed, Multiset.singleton_add]
      exact keepDescriptor_changes t name d
    · next ha =>
      have hz : handed outcome.answer = 0 := by
        unfold handed
        split
        · next d hd => exact (ha d hd).elim
        · rfl
      simp only [hz, zero_add]
      exact .refl

/-- A buffer for a slot brings exactly the descriptor that is named. -/
theorem slotBuffer?_held {s : Session σ} {x : NamedBuffer} {b : SlotBuffer}
    (h : s.slotBuffer? x = some b) :
    s.held = (b.descriptor.toList : Multiset Dmabuf) + (match x.descriptor with
      | some name => s.descriptors.erase name
      | none => s.descriptors).values := by
  rw [slotBuffer?] at h
  cases hd : x.descriptor with
  | none =>
    cases hm : x.memory with
    | none => simp [hd, hm] at h
    | some m =>
      obtain ⟨c, _, rfl⟩ := Option.map_eq_some_iff.mp (by simpa only [hd, hm] using h)
      exact (zero_add _).symm
  | some name =>
    cases hm : x.memory with
    | none =>
      obtain ⟨d, hf, rfl⟩ := Option.map_eq_some_iff.mp (by simpa only [hd, hm] using h)
      exact held_of_find? hf
    | some m =>
      simp only [hd, hm] at h
      split at h
      · next d c hf _ =>
        obtain rfl := Option.some.inj h
        exact held_of_find? hf
      · cases h

theorem replace_changes (s : Session σ) (surface : String) (i : Nat)
    (buffer : Option NamedBuffer) :
    Changes D s.estate (s.replace D surface i buffer).2.estate := by
  unfold replace
  split
  · exact .refl
  · have hx := onSurface_changes (D := D) (G := 0) (s := s) (n := surface)
      (f := fun x w => (.ofUnit (x.replace D i none w).1, (x.replace D i none w).2)) (.inr rfl)
      (fun x L H n => by
        rw [zero_add]
        exact x.replace_none_changes L H n s.world i)
    rw [zero_add] at hx
    exact hx
  · next x y hs =>
    split
    · exact .refl
    · next b hb =>
      rw [estate, slotBuffer?_held hb]
      exact onSurface_changes (D := D) (s := { s with descriptors := match y.descriptor with
          | some name => s.descriptors.erase name
          | none => s.descriptors })
        (f := fun x w => (.ofUnit (x.replace D i (some b) w).1, (x.replace D i (some b) w).2))
        (.inl (by simp [hs])) (fun x L H n => x.replace_changes L H n s.world i (some b))

theorem saveId_changes (s : Session σ) (target : Target) (name : String) :
    Changes D s.estate (s.saveId target name).2.estate := by
  have h := onObject_work (D := D) (f := fun b w => (.done, b, w))
    (fun p b w L H n => .refl) s target
  rw [saveId]
  refine h.trans ?_
  generalize s.onObject target _ = out
  obtain ⟨outcome, t⟩ := out
  dsimp only
  split <;> exact .refl

theorem lockFront_changes (s : Session σ) (surface : String) (name : Option String) :
    Changes D s.estate (s.lockFront surface name).2.estate := by
  have h := onSurface_changes (D := D) (G := 0) (s := s) (n := surface)
    (f := fun x w => (.identity x.lockFront.1, x.lockFront.2, w)) (.inr rfl)
    (fun x L H n => by
      rw [zero_add]
      exact x.lockFront_changes L H (n + 1) s.world)
  rw [zero_add] at h
  rw [lockFront]
  refine h.trans ?_
  generalize s.onSurface surface _ = out
  obtain ⟨outcome, t⟩ := out
  dsimp only
  split <;> exact .refl

private theorem onDevice_changes {s : Session σ} {f : Session σ → Outcome × Session σ}
    (hf : s.device = true → Changes D s.estate (f s).2.estate) :
    Changes D s.estate (s.onDevice f).2.estate := by
  rw [onDevice]
  split
  · next hd => exact hf hd
  · exact .refl

private theorem surface_work {f : Surface → World σ → Answer × Surface × World σ}
    (s : Session σ) (name : String)
    (hf : ∀ x L H n, Changes D ⟨x.placed + L, H, n + 1, s.world⟩
      ⟨(f x s.world).2.1.placed + L, H, n + 1, (f x s.world).2.2⟩) :
    Changes D s.estate (s.onSurface name f).2.estate := by
  have h := onSurface_changes (D := D) (G := 0) (s := s) (n := name) (f := f) (.inr rfl)
    (fun x L H n => by
      rw [zero_add]
      exact hf x L H n)
  rw [zero_add] at h
  exact h

section Made
variable {s : Session σ} (hd : s.device = true)
include hd

theorem importFrom_changes (name : String) (source : ImportSource String) :
    Changes D s.estate (match source.resolve? s.descriptors.find? with
      | none => s.refuse
      | some source => s.addObject D name (BufferObject.importFrom D source s.world)).2.estate := by
  split
  · exact .refl
  · next resolved h =>
    apply addObject_changes
    rw [estate, users_of_device hd]
    apply BufferObject.importFrom_changes
    intro d hd
    obtain ⟨x, hx⟩ := ImportSource.resolve?_descriptors h hd
    exact Table.mem_values_of_find? hx

private theorem create_changes (width height : UInt32) (code : FormatCode) (usage : Usage) :
    Changes D s.estate
      ⟨(brought (BufferObject.create D width height code usage s.world).1).map (Place.own, ·) +
          s.live, s.held, s.users,
        (BufferObject.create D width height code usage s.world).2⟩ := by
  rw [estate, users_of_device hd]
  exact BufferObject.create_changes _ _

private theorem createBuffer_changes (width height : UInt32) (fourcc : Fourcc)
    (modifiers : List Modifier) :
    Changes D s.estate
      ⟨(brought (Device.createBuffer D width height fourcc modifiers s.world).1).map
          (Place.own, ·) + s.live, s.held, s.users,
        (Device.createBuffer D width height fourcc modifiers s.world).2⟩ := by
  unfold Device.createBuffer
  split
  · exact create_changes hd ..
  · split
    · exact create_changes hd ..
    · simp only [brought, Multiset.map_zero, zero_add]
      exact .refl

theorem createSurface_changes {width height : UInt32} {format : FormatCode} {usage : Usage}
    {x : Surface} (h : Surface.create width height format usage = .ok x) (name : String) :
    Changes D s.estate ((s.withWorld s.world.hold).keepSurface D name x).estate := by
  have hx := keepSurface_changes (D := D) (s.withWorld s.world.hold) name x
  have hjoined : Changes D s.estate ⟨s.live, s.held, s.users + 1, s.world.hold⟩ := by
    rw [estate, users_of_device hd]
    exact .one .joined
  rw [Surface.placed_create h, zero_add] at hx
  exact hjoined.trans hx

end Made

/-- What the client owns when an operation begins. One that receives a descriptor begins with the
descriptor, which nobody exported here. -/
def supplied (D : Driver σ ι) (s : Session σ) : Op ι → Estate σ
  | .receive _ => ⟨s.live, (s.world.receive D).1 ::ₘ s.held, s.users, (s.world.receive D).2⟩
  | _ => s.estate

/-- Whatever an operation does to a session, it does by changes. -/
theorem step_changes (s : Session σ) (op : Op ι) :
    Changes D (s.supplied D op) (s.step D op).2.estate := by
  cases op with
  | outside i => exact .one (.outside i)
  | receive name => exact keepDescriptor_changes (s.withWorld (s.world.receive D).2) name _
  | close name =>
    simp only [step]
    split
    · exact .refl
    · next d h =>
      change Changes D s.estate _
      rw [estate, held_of_find? h]
      exact .one .closed
  | newMemory name length => exact .refl
  | readMemory name offset count =>
    simp only [step]
    split <;> exact .refl
  | deviceName => exact onDevice_changes fun _ => .refl
  | supportsFormat format usage => exact onDevice_changes fun _ => .refl
  | layoutPlanes format modifier => exact onDevice_changes fun _ => .refl
  | create name width height format usage =>
    exact onDevice_changes fun hd => addObject_changes (create_changes hd ..)
  | createBuffer name width height fourcc modifiers =>
    exact onDevice_changes fun hd => addObject_changes (createBuffer_changes hd ..)
  | importFrom name source =>
    exact onDevice_changes fun hd => importFrom_changes hd name source
  | createSurface name width height format usage =>
    refine onDevice_changes fun hd => ?_
    split
    · exact .refl
    · next x h => exact createSurface_changes hd h name
  | exportHandle handle flags name =>
    refine onDevice_changes fun hd => ?_
    rw [estate, users_of_device hd]
    split
    · next d w h =>
      have hkeep := keepDescriptor_changes (D := D) (s.withWorld w) name d
      rw [show (s.withWorld w).users = s.surfaces.values.card + 1 from users_of_device hd] at hkeep
      exact (Changes.one (.exported h)).trans hkeep
    · next e w h =>
      rw [show ((s.withWorld w).reply (.driverFailed e)).2.estate =
        ⟨s.live, s.held, s.surfaces.values.card + 1, w⟩ from
          congrArg (Estate.mk _ _ · _) (users_of_device hd)]
      exact .one (.notExported h)
  | importDescriptor name =>
    refine onDevice_changes fun hd => ?_
    split
    · exact .refl
    · next d h =>
      have hi : Changes D s.estate ⟨s.live, s.held, s.users, (s.world.importDescriptor D d).2⟩ := by
        rw [estate, users_of_device hd]
        exact .one (.converted (Table.mem_values_of_find? h))
      rcases he : s.world.importDescriptor D d with ⟨e | handle, w⟩ <;> rw [he] at hi <;> exact hi
  | destroyDevice =>
    refine onDevice_changes fun hd => ?_
    have hgone : ({ s with device := false, world := s.world.letGo D } : Session σ).estate =
        ⟨s.live, s.held, s.surfaces.values.card, s.world.letGo D⟩ :=
      congrArg (Estate.mk _ _ · _) (Nat.zero_add _)
    rw [estate, users_of_device hd]
    exact hgone ▸ .one .left
  | acquire target =>
    refine onObject_work (fun p b w L H n => ?_) s target
    have h := acquire_changes (D := D) p b w L H n
    rcases hq : b.acquire D w with ⟨e | a, b', w'⟩ <;> rw [hq] at h <;> exact h
  | acquireRegion target x y width height =>
    refine onObject_work (fun p b w L H n => ?_) s target
    have h : Changes D ⟨(p, b) ::ₘ L, H, n, w⟩
        ⟨(p, (b.acquireRegion D x y width height w).2.1) ::ₘ L, H, n,
          (b.acquireRegion D x y width height w).2.2⟩ := by
      rw [BufferObject.acquireRegion]
      split
      · exact acquire_changes p b w L H n
      · exact .refl
    rcases hq : b.acquireRegion D x y width height w with ⟨e | a, b', w'⟩ <;> rw [hq] at h <;>
      exact h
  | release target => exact onObject_work (fun p b w L H n => .one (.used .release)) s target
  | write target data => exact onObject_work (write_changes data) s target
  | withMapping target accesses =>
    refine onObject_work (fun p b w L H n => ?_) s target
    have h := withMapping_changes (D := D) accesses p b w L H n
    rcases hq : b.withMapping D accesses w with ⟨e | a, b', w'⟩ <;> rw [hq] at h <;> exact h
  | inspect target => exact onObject_work (fun p b w L H n => .refl) s target
  | saveId target name => exact saveId_changes s target name
  | plane target index => exact onObject_work (fun p b w L H n => .refl) s target
  | share target name => exact shareObject_changes s target name
  | destroy name =>
    simp only [step]
    split
    · exact .refl
    · next b h =>
      change Changes D s.estate _
      rw [estate, live_of_object h]
      exact .one .destroyed
  | inspectSurface surface => exact surface_work s surface (fun x L H n => .refl)
  | replace surface index buffer => exact replace_changes s surface index buffer
  | allocate surface index =>
    refine surface_work s surface (fun x L H n => ?_)
    have h := x.allocate_changes (D := D) L H n s.world index
    rcases hq : x.allocate D index s.world with ⟨e | id, y, w⟩ <;> rw [hq] at h <;> exact h
  | setFront surface front =>
    refine surface_work s surface (fun x L H n => ?_)
    have hb : (x.setFront front).2.placed = x.placed := by
      rw [Surface.setFront]
      split <;> rfl
    rw [hb]
    exact .refl
  | lockFront surface name => exact lockFront_changes s surface name
  | unlock surface id =>
    simp only [step]
    split
    · exact .refl
    · next id _ =>
      exact surface_work s surface (fun x L H n => x.unlock_changes L H (n + 1) s.world id)
  | destroySurface surface =>
    simp only [step]
    split
    · exact .refl
    · next x h =>
      change Changes D s.estate _
      rw [estate, live_of_surface h, users_of_surface h]
      exact x.destroy_changes _ _ _ _

/-- What every change keeps, and the receipt of a descriptor, is kept by whole runs of any
operations in any order. -/
theorem run_keeps {I : Estate σ → Prop} (change : ∀ e f, Change D e f → I e → I f)
    (receive : ∀ L H n w, I ⟨L, H, n, w⟩ → I ⟨L, (w.receive D).1 ::ₘ H, n, (w.receive D).2⟩)
    {s : Session σ} (hs : I s.estate) (ops : List (Op ι)) : I (s.run D ops).2.estate := by
  induction ops generalizing s with
  | nil => exact hs
  | cons op ops ih =>
    have hop : I (s.supplied D op) := by
      cases op
      case receive name => exact receive _ _ _ _ hs
      all_goals exact hs
    exact ih ((step_changes s op).keeps change hop)

end DisplayBuffers.Session
