import DisplayBuffers.Proofs.History
import DisplayBuffers.Proofs.SlotStates

/-! Where buffer objects are, and what an operation makes of one that stays where it is: its mapping
and its lock can change and nothing else. -/
namespace DisplayBuffers.Session
variable {σ ι : Type} {D : Driver σ ι}

/-- The buffer object at a target, if there is one. -/
def object? (s : Session σ) : Target → Option BufferObject
  | .object name => s.objects.find? name
  | .slot surface index => (s.surfaces.find? surface).bind (·.slot? index)

def Target.surface? : Target → Option String
  | .object _ => none
  | .slot surface _ => some surface

theorem Target.surface?_eq_some {t : Target} {surface : String} :
    t.surface? = some surface ↔ ∃ i, t = .slot surface i := by
  cases t <;> simp [surface?, eq_comm]

/-- The index of the slot that a surface has as its front. -/
def frontIndex? (s : Session σ) (surface : String) : Option Nat :=
  (s.surfaces.find? surface).bind (·.front)

/-- The slot that a surface has as its front. -/
def front? (s : Session σ) (surface : String) : Option Target :=
  (s.frontIndex? surface).map (.slot surface)

theorem front?_eq_some {s : Session σ} {surface : String} {t : Target} :
    s.front? surface = some t ↔
      ∃ x i, s.surfaces.find? surface = some x ∧ x.front = some i ∧ .slot surface i = t := by
  simp only [front?, frontIndex?, Option.map_eq_some_iff, Option.bind_eq_some_iff]
  constructor
  · rintro ⟨i, ⟨x, hx, hi⟩, ht⟩
    exact ⟨x, i, hx, hi, ht⟩
  · rintro ⟨x, i, hx, hi, ht⟩
    exact ⟨i, ⟨x, hx, hi⟩, ht⟩

namespace Op

/-- Whether an operation can put something else to a target, or nothing. -/
def Renews (t : Target) : Op ι → Prop
  | .create name _ _ _ _ | .createBuffer name _ _ _ _ | .importFrom name _ | .destroy name =>
    t = .object name
  | .createSurface name _ _ _ _ | .destroySurface name => t.surface? = some name
  | .replace surface i _ | .allocate surface i => t = .slot surface i
  | _ => False

/-- Whether an operation takes references to the object at a target, or gives them back. -/
def Refers (t : Target) : Op ι → Prop
  | .acquire u | .acquireRegion u _ _ _ _ | .release u | .withMapping u _ => u = t
  | _ => False

/-- Whether an operation stores through the mapping of the object at a target. -/
def Stores (t : Target) : Op ι → Prop
  | .write u _ | .withMapping u _ => u = t
  | _ => False

/-- The object that an operation works on, where that is all it does. -/
def target? : Op ι → Option Target
  | .acquire t | .acquireRegion t _ _ _ _ | .release t | .write t _ | .withMapping t _
  | .inspect t | .plane t _ => some t
  | _ => none

/-- The work of an operation on an object, with its answer. -/
def work (D : Driver σ ι) (op : Op ι) (b : BufferObject) (w : World σ) :
    Answer × BufferObject × World σ :=
  match op with
  | .acquire _ =>
    match b.acquire D w with
    | (.ok a, b, w) => (.address a, b, w)
    | (.error e, b, w) => (.failed e, b, w)
  | .acquireRegion _ x y width height =>
    match b.acquireRegion D x y width height w with
    | (.ok a, b, w) => (.address a, b, w)
    | (.error e, b, w) => (.failed e, b, w)
  | .release _ => (.done, b.release D w)
  | .write _ data => (.ofUnit (b.write D data w).1, b, (b.write D data w).2)
  | .withMapping _ accesses =>
    match b.withMapping D accesses w with
    | (.ok seen, b, w) => (.accesses seen, b, w)
    | (.error e, b, w) => (.failed e, b, w)
  | .plane _ index =>
    (.plane (b.planeStride index) (b.planeHandle index) (b.planeOffset index), b, w)
  | _ => (.done, b, w)

section
variable {op : Op ι} {t : Target}

theorem target?_of_refers (h : op.Refers t) : op.target? = some t := by
  cases op <;> first | exact congrArg some h | exact h.elim

theorem not_renews_of_target? (h : op.target? = some t) (u : Target) : ¬ op.Renews u := by
  cases op <;> first | exact id | cases h

end

section
variable (D : Driver σ ι) (t : Target) (b : BufferObject) (w : World σ)

theorem work_acquire : ((acquire t : Op ι).work D b w).2 = (b.acquire D w).2 := by
  simp only [work]
  rcases b.acquire D w with ⟨_ | _, b', w'⟩ <;> rfl

theorem work_acquireRegion (x y width height : UInt32) :
    ((acquireRegion t x y width height : Op ι).work D b w).2 =
      (b.acquireRegion D x y width height w).2 := by
  simp only [work]
  rcases b.acquireRegion D x y width height w with ⟨_ | _, b', w'⟩ <;> rfl

theorem work_withMapping (accesses : List BufferObject.Access) :
    ((withMapping t accesses : Op ι).work D b w).2 = (b.withMapping D accesses w).2 := by
  simp only [work]
  rcases b.withMapping D accesses w with ⟨_ | _, b', w'⟩ <;> rfl

end

end Op

theorem step_of_target? (s : Session σ) {op : Op ι} {t : Target} (h : op.target? = some t) :
    s.step D op = s.onObject t (op.work D) := by
  cases op with
  | acquire u | acquireRegion u x y width height | release u | write u data
  | withMapping u accesses | inspect u | plane u index =>
    cases h
    rfl
  | _ => cases h

/-- Sharing as work on an object. -/
def sharing (D : Driver σ ι) (b : BufferObject) (w : World σ) : Answer × BufferObject × World σ :=
  match b.share D w with
  | (.ok d, w) => (.dmabuf d, b, w)
  | (.error e, w) => (.failed e, b, w)

theorem shareObject_cases (s : Session σ) (D : Driver σ ι) (t : Target) (name : String) :
    (s.shareObject D t name).2 = (s.onObject t (sharing D)).2 ∨
      ∃ d, (s.shareObject D t name).2 =
        (s.onObject t (sharing D)).2.keepDescriptor name d := by
  rw [shareObject]
  generalize hout : s.onObject t _ = out
  have hout : s.onObject t (sharing D) = out := hout
  rw [hout]
  obtain ⟨outcome, s'⟩ := out
  dsimp only
  split
  · next d _ => exact .inr ⟨d, rfl⟩
  · exact .inl rfl

/-- Replacing what is in a slot as work on a surface. -/
def replacing (D : Driver σ ι) (i : Nat) (y : Option SlotBuffer) (x : Surface) (w : World σ) :
    Answer × Surface × World σ :=
  (.ofUnit (x.replace D i y w).1, (x.replace D i y w).2)

theorem replace_cases (s : Session σ) (D : Driver σ ι) (surface : String) (i : Nat)
    (buffer : Option NamedBuffer) :
    s.replace D surface i buffer = s.refuse ∨
      ∃ y descriptors, s.replace D surface i buffer =
        { s with descriptors }.onSurface surface (replacing D i y) := by
  unfold replace
  split
  · exact .inl rfl
  · exact .inr ⟨none, s.descriptors, rfl⟩
  · split
    · exact .inl rfl
    · next y _ => exact .inr ⟨some y, _, rfl⟩

/-- What an operation makes of a buffer object that stays where it is. -/
def leaves (D : Driver σ ι) (s : Session σ) (op : Op ι) (t : Target) (b : BufferObject) :
    BufferObject :=
  match op with
  | .acquire u => if u = t then (b.acquire D s.world).2.1 else b
  | .acquireRegion u x y width height =>
    if u = t then (b.acquireRegion D x y width height s.world).2.1 else b
  | .release u => if u = t then (b.release D s.world).1 else b
  | .withMapping u accesses => if u = t then (b.withMapping D accesses s.world).2.1 else b
  | .lockFront surface _ => if s.front? surface = some t then { b with locked := true } else b
  | .unlock surface name =>
    match s.ids.find? name with
    | some id => if t.surface? = some surface then Surface.unlocked id b else b
    | none => b
  | _ => b

theorem leaves_of_target? (s : Session σ) {op : Op ι} {u : Target} (h : op.target? = some u)
    (t : Target) (b : BufferObject) :
    s.leaves D op t b = if u = t then (op.work D b s.world).2.1 else b := by
  cases op with
  | acquire u =>
    cases h
    rw [Op.work_acquire]
    rfl
  | acquireRegion u x y width height =>
    cases h
    rw [Op.work_acquireRegion]
    rfl
  | withMapping u accesses =>
    cases h
    rw [Op.work_withMapping]
    rfl
  | release u =>
    cases h
    rfl
  | write u data | inspect u | plane u index =>
    cases h
    exact (ite_self b).symm
  | _ => cases h

section Tables
variable (s : Session σ) (w : World σ) (t : Target)

theorem object?_insert_object (name : String) (b : BufferObject) :
    object? { s with world := w, objects := s.objects.insert name b } t =
      if t = .object name then some b else s.object? t := by
  cases t with
  | object name' => simp [object?, Table.find?_insert]
  | slot surface i => simp [object?]

theorem object?_erase_object (name : String) :
    object? { s with world := w, objects := s.objects.erase name } t =
      if t = .object name then none else s.object? t := by
  cases t with
  | object name' => simp [object?, Table.find?_erase]
  | slot surface i => simp [object?]

theorem object?_insert_surface (surface : String) (x : Surface) (m : String) (i : Nat) :
    object? { s with world := w, surfaces := s.surfaces.insert surface x } (.slot m i) =
      if m = surface then x.slot? i else s.object? (.slot m i) := by
  simp only [object?, Table.find?_insert]
  split <;> rfl

theorem object?_erase_surface (surface : String) (m : String) (i : Nat) :
    object? { s with world := w, surfaces := s.surfaces.erase surface } (.slot m i) =
      if m = surface then none else s.object? (.slot m i) := by
  simp only [object?, Table.find?_erase]
  split <;> rfl

end Tables

section Combinators
variable (s : Session σ) (t u : Target)

theorem object?_onObject (f : BufferObject → World σ → Answer × BufferObject × World σ) :
    (s.onObject t f).2.object? u =
      (s.object? u).map fun b => if t = u then (f b s.world).2.1 else b := by
  have hidle (hn : t = u → s.object? u = none) (hs : (s.onObject t f).2 = s) :
      (s.onObject t f).2.object? u =
        (s.object? u).map fun b => if t = u then (f b s.world).2.1 else b := by
    rw [hs]
    by_cases hu : t = u
    · rw [hn hu]
      rfl
    · simp [hu]
  cases t with
  | object name =>
    cases h : s.objects.find? name with
    | none => exact hidle (fun hu => hu ▸ h) (by simp only [onObject, h, refuse])
    | some b =>
      simp only [onObject, h]
      rw [object?_insert_object]
      split
      · next hu => simp [hu, object?, h]
      · next hu => simp [Ne.symm hu]
  | slot surface i =>
    cases hx : s.surfaces.find? surface with
    | none =>
      exact hidle (fun hu => hu ▸ by simp [object?, hx]) (by simp only [onObject, hx, refuse])
    | some x =>
      cases hb : x.slot? i with
      | none =>
        exact hidle (fun hu => hu ▸ by simp [object?, hx, hb])
          (by simp only [onObject, hx, hb, reply])
      | some b =>
        simp only [onObject, hx, hb]
        cases u with
        | object name => simp [object?]
        | slot m j =>
          rw [object?_insert_surface, Surface.slot?_withSlot]
          by_cases hm : m = surface
          · subst hm
            by_cases hj : i = j
            · subst hj
              simp [object?, hx, hb, Surface.lt_of_slot? hb]
            · simp [object?, hx, hj]
          · simp [hm, Ne.symm hm]

/-- Looking at an object leaves everything where it is. -/
theorem object?_onObject_of_same
    {f : BufferObject → World σ → Answer × BufferObject × World σ}
    (hf : ∀ b, (f b s.world).2.1 = b) : (s.onObject t f).2.object? u = s.object? u := by
  rw [object?_onObject]
  simp only [hf, ite_self, Option.map_id']

theorem object?_onSurface (surface : String)
    (f : Surface → World σ → Answer × Surface × World σ) :
    (s.onSurface surface f).2.object? t =
      match t with
      | .object _ => s.object? t
      | .slot m i => if m = surface then
          (s.surfaces.find? surface).bind fun x => (f x s.world).2.1.slot? i
        else s.object? t := by
  rw [onSurface]
  cases h : s.surfaces.find? surface with
  | none =>
    cases t with
    | object name => rfl
    | slot m i =>
      dsimp only
      split
      · next hm => simp [hm, object?, h, refuse]
      · rfl
  | some x =>
    cases t with
    | object name => rfl
    | slot m i =>
      dsimp only
      rw [object?_insert_surface]
      rfl

theorem object?_onSurface_slot (surface : String) (i : Nat)
    (f : Surface → World σ → Answer × Surface × World σ) :
    (s.onSurface surface f).2.object? (.slot surface i) =
      (s.surfaces.find? surface).bind fun x => (f x s.world).2.1.slot? i := by
  rw [object?_onSurface]
  exact if_pos rfl

/-- An operation on a surface that leaves in each slot what was there, or makes something of it. -/
theorem object?_onSurface_map {surface : String}
    {f : Surface → World σ → Answer × Surface × World σ}
    {g : Surface → Nat → BufferObject → BufferObject}
    (hf : ∀ x i, (f x s.world).2.1.slot? i = (x.slot? i).map (g x i)) :
    (s.onSurface surface f).2.object? t = (s.object? t).map fun b =>
      match t with
      | .object _ => b
      | .slot m i => if m = surface then
          ((s.surfaces.find? surface).map fun x => g x i b).getD b
        else b := by
  rw [object?_onSurface]
  cases t with
  | object name => simp
  | slot m i =>
    dsimp only
    split
    · next hm =>
      subst hm
      simp only [object?]
      cases s.surfaces.find? m with
      | none => rfl
      | some x => simp [hf]
    · simp

/-- An operation on a surface that leaves in a slot what was there. -/
theorem object?_onSurface_of_same {s : Session σ} {surface : String} {t : Target}
    {f : Surface → World σ → Answer × Surface × World σ}
    (hf : ∀ x i, t = .slot surface i → (f x s.world).2.1.slot? i = x.slot? i) :
    (s.onSurface surface f).2.object? t = s.object? t := by
  rw [object?_onSurface]
  cases t with
  | object name => rfl
  | slot m i =>
    dsimp only
    split
    · next hm =>
      subst hm
      simp only [object?]
      cases s.surfaces.find? m with
      | none => rfl
      | some x => exact hf x i rfl
    · rfl

theorem object?_keepDescriptor (name : String) (d : Dmabuf) :
    (s.keepDescriptor name d).object? t = s.object? t := by
  cases t <;> rfl

theorem world_onObject {P : World σ → Prop}
    {f : BufferObject → World σ → Answer × BufferObject × World σ} (h : P s.world)
    (hf : ∀ b, s.object? t = some b → P (f b s.world).2.2) : P (s.onObject t f).2.world := by
  cases t with
  | object name =>
    rw [onObject]
    split
    · exact h
    · next b hb => exact hf b hb
  | slot surface i =>
    rw [onObject]
    split
    · exact h
    · next x hx =>
      split
      · exact h
      · next b hb => exact hf b (by simp [object?, hx, hb])

theorem world_onSurface {P : World σ → Prop} {surface : String}
    {f : Surface → World σ → Answer × Surface × World σ} (h : P s.world)
    (hf : ∀ x, s.surfaces.find? surface = some x → P (f x s.world).2.2) :
    P (s.onSurface surface f).2.world := by
  rw [onSurface]
  split
  · exact h
  · next x hx => exact hf x hx

theorem world_onDevice {P : World σ → Prop} {f : Session σ → Outcome × Session σ}
    (h : P s.world) (hf : P (f s).2.world) : P (s.onDevice f).2.world := by
  rw [onDevice]
  split
  · exact hf
  · exact h

/-- An object that is made takes the place of the one before it. -/
theorem object?_addObject (name : String) (made : Except Error BufferObject × World σ) :
    (s.addObject D name made).2.object? t =
      match made.1 with
      | .ok b => if t = .object name then some b else s.object? t
      | .error _ => s.object? t := by
  obtain ⟨e | b, w⟩ := made
  · cases t <;> rfl
  · simp only [addObject, keepObject]
    rw [object?_insert_object]
    cases t <;> rfl

theorem object?_shareObject (name : String) :
    (s.shareObject D t name).2.object? u = s.object? u := by
  have h := s.object?_onObject_of_same t u (f := sharing D) fun b => by
    rw [sharing]
    split <;> rfl
  rcases s.shareObject_cases D t name with hs | ⟨d, hs⟩
  · rw [hs, h]
  · rw [hs, object?_keepDescriptor, h]

theorem object?_saveId (name : String) : (s.saveId t name).2.object? u = s.object? u := by
  have h := s.object?_onObject_of_same t u (f := fun b w => (.done, b, w)) fun b => rfl
  rw [saveId]
  generalize s.onObject t _ = out at h ⊢
  obtain ⟨outcome, s'⟩ := out
  dsimp only
  split
  · rw [← h]
    cases u <;> rfl
  · exact h

theorem object?_lockFront (surface : String) (name : Option String) :
    (s.lockFront surface name).2.object? t = (s.object? t).map fun b =>
      if s.front? surface = some t then { b with locked := true } else b := by
  have h : (s.onSurface surface fun x w =>
      (.identity x.lockFront.1, x.lockFront.2, w)).2.object? t = (s.object? t).map fun b =>
        if s.front? surface = some t then { b with locked := true } else b := by
    rw [object?_onSurface_map s t fun x i => x.slot?_lockFront i]
    cases t with
    | object n =>
      have hn : s.front? surface ≠ some (.object n) := by simp [front?_eq_some]
      simp [hn]
    | slot m i =>
      by_cases hm : m = surface
      · subst hm
        cases hx : s.surfaces.find? m with
        | none => simp [object?, hx]
        | some x => simp [front?, frontIndex?, hx]
      · have hn : s.front? surface ≠ some (.slot m i) := by simp [front?_eq_some, Ne.symm hm]
        simp [hm, hn]
  rw [lockFront]
  generalize s.onSurface surface _ = out at h ⊢
  obtain ⟨outcome, s'⟩ := out
  dsimp only
  split
  · rw [← h]
    cases t <;> rfl
  · exact h

theorem object?_unlock (surface : String) (id : BufferId) :
    (s.onSurface surface fun x w => (.done, x.unlock id, w)).2.object? t =
      (s.object? t).map fun b =>
        if t.surface? = some surface then Surface.unlocked id b else b := by
  rw [object?_onSurface_map s t fun x i => x.slot?_unlock id i]
  cases t with
  | object n => simp [Target.surface?]
  | slot m i =>
    by_cases hm : m = surface
    · subst hm
      cases hx : s.surfaces.find? m with
      | none => simp [object?, hx]
      | some x => simp [Target.surface?]
    · simp [Target.surface?, hm]

end Combinators

private theorem map_leaves_of_idle (s : Session σ) {op : Op ι} {t : Target}
    (h : ∀ b, s.leaves D op t b = b) : (s.object? t).map (s.leaves D op t) = s.object? t := by
  rw [show s.leaves D op t = id from funext h, Option.map_id, id]

private theorem object?_onDevice_of_same {s : Session σ} {f : Session σ → Outcome × Session σ}
    {t : Target} (h : (f s).2.object? t = s.object? t) :
    (s.onDevice f).2.object? t = s.object? t := by
  rw [onDevice]
  split
  · exact h
  · rfl

private theorem object?_addObject_of_ne (s : Session σ) {t : Target} {name : String}
    (h : t ≠ .object name) (made : Except Error BufferObject × World σ) :
    (s.addObject D name made).2.object? t = s.object? t := by
  rw [object?_addObject]
  split
  · rw [if_neg h]
  · rfl

theorem object?_step_of_not_renews (s : Session σ) {op : Op ι} {t : Target}
    (h : ¬ op.Renews t) :
    (s.step D op).2.object? t = (s.object? t).map (s.leaves D op t) := by
  have hidle (hs : (s.step D op).2.object? t = s.object? t)
      (hl : ∀ b, s.leaves D op t b = b) :
      (s.step D op).2.object? t = (s.object? t).map (s.leaves D op t) := by
    rw [map_leaves_of_idle s hl, hs]
  -- operations on a single object differ in their work only, so that they are one case
  cases ho : op.target? with
  | some u =>
    rw [s.step_of_target? ho, object?_onObject]
    exact congrArg (Option.map · _) (funext fun b => (s.leaves_of_target? ho t b).symm)
  | none =>
    cases op with
    | acquire u | acquireRegion u x y width height | release u | write u data
    | withMapping u accesses | inspect u | plane u index => cases ho
    | outside i => exact hidle (by cases t <;> rfl) fun b => rfl
    | receive name => exact hidle (by cases t <;> rfl) fun b => rfl
    | close name =>
      refine hidle ?_ fun b => rfl
      simp only [step]
      split <;> cases t <;> rfl
    | newMemory name length => exact hidle (by cases t <;> rfl) fun b => rfl
    | readMemory name offset count =>
      refine hidle ?_ fun b => rfl
      simp only [step]
      split <;> rfl
    | deviceName => exact hidle (object?_onDevice_of_same rfl) fun b => rfl
    | supportsFormat format usage => exact hidle (object?_onDevice_of_same rfl) fun b => rfl
    | layoutPlanes format modifier => exact hidle (object?_onDevice_of_same rfl) fun b => rfl
    | create name width height format usage =>
      exact hidle (object?_onDevice_of_same (object?_addObject_of_ne s h _)) fun b => rfl
    | createBuffer name width height fourcc modifiers =>
      exact hidle (object?_onDevice_of_same (object?_addObject_of_ne s h _)) fun b => rfl
    | importFrom name source =>
      refine hidle (object?_onDevice_of_same ?_) fun b => rfl
      split
      · rfl
      · exact object?_addObject_of_ne s h _
    | createSurface name width height format usage =>
      refine hidle (object?_onDevice_of_same ?_) fun b => rfl
      split
      · rfl
      · cases t with
        | object name => rfl
        | slot m i =>
          rw [keepSurface, object?_insert_surface, if_neg (fun hm => h (congrArg some hm))]
          rfl
    | exportHandle handle flags name =>
      refine hidle (object?_onDevice_of_same ?_) fun b => rfl
      split <;> cases t <;> rfl
    | importDescriptor name =>
      refine hidle (object?_onDevice_of_same ?_) fun b => rfl
      split
      · rfl
      · split <;> cases t <;> rfl
    | destroyDevice => exact hidle (object?_onDevice_of_same (by cases t <;> rfl)) fun b => rfl
    | saveId u name => exact hidle (s.object?_saveId u t name) fun b => rfl
    | share u name => exact hidle (s.object?_shareObject u t name) fun b => rfl
    | destroy name =>
      refine hidle ?_ fun b => rfl
      simp only [step]
      split
      · rfl
      · exact (s.object?_erase_object _ t name).trans (if_neg h)
    | inspectSurface surface =>
      exact hidle (object?_onSurface_of_same fun x i _ => rfl) fun b => rfl
    | replace surface index buffer =>
      have hput (s : Session σ) (y : Option SlotBuffer) :
          (s.onSurface surface (replacing D index y)).2.object? t = s.object? t :=
        object?_onSurface_of_same fun x i ht =>
          x.slot?_replace_of_ne s.world (fun hi : index = i => h (hi ▸ ht)) y
      refine hidle ?_ fun b => rfl
      rw [step]
      rcases s.replace_cases D surface index buffer with hs | ⟨y, descriptors, hs⟩
      · rw [hs, refuse]
      · rw [hs, hput]
        cases t <;> rfl
    | allocate surface index =>
      refine hidle (object?_onSurface_of_same fun x i ht => ?_) fun b => rfl
      have hx := x.slot?_allocate_of_ne (D := D) s.world fun hi : index = i => h (hi ▸ ht)
      rcases hq : x.allocate D index s.world with ⟨_ | _, x', w⟩ <;> rw [hq] at hx <;> exact hx
    | setFront surface front =>
      exact hidle (object?_onSurface_of_same fun x i _ => x.slot?_setFront front i) fun b => rfl
    | lockFront surface name => exact s.object?_lockFront t surface name
    | unlock surface name =>
      cases hi : s.ids.find? name with
      | none =>
        refine hidle ?_ fun b => ?_
        · simp only [step, hi, refuse]
        · simp only [leaves, hi]
      | some id =>
        have hl : s.leaves D (.unlock surface name) t = fun b : BufferObject =>
            if t.surface? = some surface then Surface.unlocked id b else b := by
          funext b
          simp only [leaves, hi]
        rw [hl]
        simp only [step, hi]
        exact s.object?_unlock t surface id
    | destroySurface surface =>
      refine hidle ?_ fun b => rfl
      simp only [step]
      split
      · rfl
      · cases t with
        | object name => rfl
        | slot m i =>
          exact (s.object?_erase_surface _ surface m i).trans
            (if_neg fun hm => h (congrArg some hm))

/-- Sessions that differ in the order in which names are listed at most. -/
structure Alike (s s' : Session σ) : Prop where
  world : s'.world = s.world
  device : s'.device = s.device
  objects : ∀ name, s'.objects.find? name = s.objects.find? name
  surfaces : ∀ name, s'.surfaces.find? name = s.surfaces.find? name
  descriptors : s'.descriptors = s.descriptors
  memories : s'.memories = s.memories
  ids : s'.ids = s.ids

/-- Putting a surface back where it was. -/
theorem alike_insert_surface {s : Session σ} {surface : String} {x : Surface}
    (hx : s.surfaces.find? surface = some x) :
    s.Alike { s with surfaces := s.surfaces.insert surface x } := by
  refine ⟨rfl, rfl, fun _ => rfl, fun name => ?_, rfl, rfl, rfl⟩
  rw [Table.find?_insert]
  split
  · next hn => rw [hn, hx]
  · rfl

/-- An operation that leaves a surface as it was leaves all as it was. -/
theorem alike_onSurface {s : Session σ} {surface : String} {x : Surface}
    {f : Surface → World σ → Answer × Surface × World σ}
    (hx : s.surfaces.find? surface = some x) (hf : (f x s.world).2 = (x, s.world)) :
    s.Alike (s.onSurface surface f).2 := by
  have hs : (s.onSurface surface f).2 =
      { s with surfaces := s.surfaces.insert surface x } := by
    simp only [onSurface, hx, hf]
  rw [hs]
  exact alike_insert_surface hx

/-- Where there is no object nothing happens. -/
theorem onObject_of_none {s : Session σ} {t : Target} (h : s.object? t = none)
    (f : BufferObject → World σ → Answer × BufferObject × World σ) :
    s.onObject t f = s.reply .malformed ∨ s.onObject t f = s.reply .noSlot := by
  cases t with
  | object name =>
    have h : s.objects.find? name = none := h
    exact .inl (by simp only [onObject, h, refuse, reply])
  | slot surface i =>
    cases hx : s.surfaces.find? surface with
    | none => exact .inl (by simp only [onObject, hx, refuse, reply])
    | some x =>
      have h : x.slot? i = none := by simpa [object?, hx] using h
      exact .inr (by simp only [onObject, hx, h])

theorem onObject_of_some {s : Session σ} {t : Target} {b : BufferObject}
    (h : s.object? t = some b) (f : BufferObject → World σ → Answer × BufferObject × World σ) :
    (s.onObject t f).1.answer = (f b s.world).1 ∧
      (s.onObject t f).2.world = (f b s.world).2.2 := by
  cases t with
  | object name =>
    have h : s.objects.find? name = some b := h
    simp only [onObject, h, and_self]
  | slot surface i =>
    obtain ⟨x, hx, hi⟩ := Option.bind_eq_some_iff.mp h
    simp only [onObject, hx, hi, and_self]

theorem onObject_congr {s : Session σ} {t : Target}
    {f g : BufferObject → World σ → Answer × BufferObject × World σ}
    (h : ∀ b, s.object? t = some b → f b s.world = g b s.world) :
    s.onObject t f = s.onObject t g := by
  cases t with
  | object name =>
    cases hb : s.objects.find? name with
    | none => simp only [onObject, hb]
    | some b => simp only [onObject, hb, h b hb]
  | slot surface i =>
    cases hx : s.surfaces.find? surface with
    | none => simp only [onObject, hx]
    | some x =>
      cases hb : x.slot? i with
      | none => simp only [onObject, hx, hb]
      | some b => simp only [onObject, hx, hb, h b (by rw [object?, hx]; exact hb)]

/-- An operation on an object that is there answers what the work on it answers. -/
theorem turn_of_target? {s : Session σ} {op : Op ι} {t : Target} {b : BufferObject}
    (ht : op.target? = some t) (hb : s.object? t = some b) :
    s.turn D op = ⟨s, op, (op.work D b s.world).1, (s.step D op).2⟩ ∧
      (s.step D op).2.world = (op.work D b s.world).2.2 := by
  have h := onObject_of_some hb (op.work D)
  rw [← s.step_of_target? ht] at h
  exact ⟨by rw [← h.1]; rfl, h.2⟩

/-- An operation that leaves an object as it was leaves all as it was but for the world. -/
theorem alike_onObject {s : Session σ} {t : Target} {b : BufferObject}
    {f : BufferObject → World σ → Answer × BufferObject × World σ}
    (hb : s.object? t = some b) (hf : (f b s.world).2.1 = b) :
    s.Alike ((s.onObject t f).2.withWorld s.world) := by
  cases t with
  | object name =>
    have hb : s.objects.find? name = some b := hb
    have hs : (s.onObject (.object name) f).2.withWorld s.world =
        { s with objects := s.objects.insert name b } := by
      simp only [onObject, hb, hf, withWorld]
    rw [hs]
    refine ⟨rfl, rfl, fun n => ?_, fun _ => rfl, rfl, rfl, rfl⟩
    rw [Table.find?_insert]
    split
    · next hn => rw [hn, hb]
    · rfl
  | slot surface i =>
    obtain ⟨x, hx, hi⟩ := Option.bind_eq_some_iff.mp hb
    have hs : (s.onObject (.slot surface i) f).2.withWorld s.world =
        { s with surfaces := s.surfaces.insert surface x } := by
      simp only [onObject, hx, hi, hf, withWorld]
      rw [← hi, x.withSlot_slot?]
    rw [hs]
    exact alike_insert_surface hx

theorem answer_lockFront (s : Session σ) (surface : String) (name : Option String) :
    (s.step D (.lockFront surface name)).1.answer = match s.surfaces.find? surface with
      | none => .malformed
      | some x => .identity ((x.front.bind x.slot?).map (·.id)) := by
  simp only [step, lockFront, onSurface]
  cases s.surfaces.find? surface with
  | none => rfl
  | some x =>
    dsimp only
    rw [← x.lockFront_id]
    split <;> rfl

end DisplayBuffers.Session
