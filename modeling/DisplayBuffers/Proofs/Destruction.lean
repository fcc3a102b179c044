import DisplayBuffers.Proofs.Departures
import DisplayBuffers.Proofs.SurfaceContents

/-! Which buffer objects an operation destroys. They can be told from the operation and its answer,
and they are those that are not found any more where they were. -/
namespace DisplayBuffers
variable {σ ι : Type} {D : Driver σ ι}

/-- What a slot is given gets a number that no object had. -/
theorem Surface.slot?_replace_some (x : Surface) (D : Driver σ ι) {i : Nat} (hi : i < slotCount)
    (z : SlotBuffer) (w : World σ) :
    ∃ c, (x.replace D i (some z) w).2.1.slot? i = some c ∧ w.identities ≤ c.id.number := by
  rw [replace, if_pos hi]
  exact ⟨_, (slot?_withSlot _ i i _).trans (if_pos ⟨rfl, hi⟩),
    (clear_advances D x i w).identities⟩

namespace Session

/-- The objects that an operation destroys, in order, each with its slot if it makes room there. A
surface is destroyed with what is in its slots. -/
def destroyed (s : Session σ) (op : Op ι) (answer : Answer) : List (Option Nat × BufferObject) :=
  match op, answer with
  | .create name _ _ _ _, .done | .createBuffer name _ _ _ _, .done | .importFrom name _, .done
  | .destroy name, _ => (s.objects.find? name).toList.map (none, ·)
  | .createSurface name _ _ _ _, .done | .destroySurface name, _ =>
    (s.surfaces.find? name).toList.flatMap fun x => x.occupants.map (none, ·)
  | .replace surface i _, .done | .allocate surface i, _ =>
    (s.object? (.slot surface i)).toList.map (some i, ·)
  | _, _ => []

/-- An object is not found any more where it was. -/
def Gone (s' : Session σ) (t : Target) (b : BufferObject) : Prop :=
  ∀ c, s'.object? t = some c → c.id ≠ b.id

section
variable {s s' : Session σ} {op : Op ι} {t : Target} {b : BufferObject}

theorem not_gone {c : BufferObject} (h : s'.object? t = some c) (hid : c.id = b.id) :
    ¬ s'.Gone t b :=
  fun hg => hg c h hid

theorem gone_of_none (h : s'.object? t = none) : s'.Gone t b := by
  intro c hc
  cases h.symm.trans hc

/-- A new object has another number. -/
theorem Apart.gone_of_new (hs : s.Apart) (hb : s.object? t = some b) {c : BufferObject}
    (h : s'.object? t = some c) (hc : s.world.identities ≤ c.id.number) : s'.Gone t b := by
  intro c' hc' hid
  obtain rfl := Option.some.inj (h.symm.trans hc')
  have := hs.numbered hb
  rw [hid] at hc
  omega

theorem not_gone_of_not_renews (hb : s.object? t = some b) (h : ¬ op.Renews t) :
    ¬ (s.step D op).2.Gone t b := by
  refine not_gone (c := s.leaves D op t b) ?_ (leaves_id ..)
  rw [object?_step_of_not_renews s h, hb]
  rfl

/-- An operation that puts something else to a target destroys what is there. -/
theorem gone_iff_of_renewed {P : Prop} {a : Answer} (hb : s.object? t = some b)
    (hr : op.Renews t → P) (hd : (∃ slot, (slot, b) ∈ s.destroyed op a) ↔ P)
    (hg : P → (s.step D op).2.Gone t b) :
    (∃ slot, (slot, b) ∈ s.destroyed op a) ↔ (s.step D op).2.Gone t b := by
  rw [hd]
  refine ⟨hg, fun h => ?_⟩
  by_contra hn
  exact not_gone_of_not_renews hb (mt hr hn) h

/-- An operation that leaves everything where it is destroys nothing. -/
theorem gone_iff_of_left {a : Answer} (hb : s.object? t = some b) (hd : s.destroyed op a = [])
    (h : (s.step D op).2.object? t = s.object? t) :
    (∃ slot, (slot, b) ∈ s.destroyed op a) ↔ (s.step D op).2.Gone t b := by
  refine ⟨fun ⟨slot, hslot⟩ => ?_, fun hg => absurd hg (not_gone (h.trans hb) rfl)⟩
  rw [hd] at hslot
  cases hslot

section
variable (hs : s.Apart) (hb : s.object? t = some b)
include hs hb

theorem mem_named {name : String} :
    (∃ slot, (slot, b) ∈ (s.objects.find? name).toList.map ((none : Option Nat), ·)) ↔
      t = .object name := by
  constructor
  · rintro ⟨slot, h⟩
    obtain ⟨c, hc, he⟩ := List.mem_map.mp h
    obtain ⟨-, rfl⟩ := Prod.mk.inj he
    exact hs.named hb (u := .object name) (Option.mem_toList.mp hc) rfl
  · rintro rfl
    exact ⟨none, List.mem_map.mpr ⟨b, Option.mem_toList.mpr hb, rfl⟩⟩

theorem mem_slot {surface : String} {i : Nat} :
    (∃ slot, (slot, b) ∈ (s.object? (.slot surface i)).toList.map (some i, ·)) ↔
      t = .slot surface i := by
  constructor
  · rintro ⟨slot, h⟩
    obtain ⟨c, hc, he⟩ := List.mem_map.mp h
    obtain ⟨-, rfl⟩ := Prod.mk.inj he
    exact hs.named hb (Option.mem_toList.mp hc) rfl
  · rintro rfl
    exact ⟨some i, List.mem_map.mpr ⟨b, Option.mem_toList.mpr hb, rfl⟩⟩

theorem mem_surface {surface : String} :
    (∃ slot, (slot, b) ∈ (s.surfaces.find? surface).toList.flatMap fun x =>
      x.occupants.map ((none : Option Nat), ·)) ↔ t.surface? = some surface := by
  rw [Target.surface?_eq_some]
  constructor
  · rintro ⟨slot, h⟩
    obtain ⟨x, hx, h⟩ := List.mem_flatMap.mp h
    obtain ⟨c, hc, he⟩ := List.mem_map.mp h
    obtain ⟨-, rfl⟩ := Prod.mk.inj he
    obtain ⟨i, -, hi⟩ := List.mem_filterMap.mp hc
    refine ⟨i, hs.named hb ?_ rfl⟩
    rw [object?, Option.mem_toList.mp hx]
    exact hi
  · rintro ⟨i, rfl⟩
    obtain ⟨x, hx, hi⟩ := Option.bind_eq_some_iff.mp hb
    refine ⟨none, List.mem_flatMap.mpr ⟨x, Option.mem_toList.mpr hx, List.mem_map.mpr ⟨b, ?_, rfl⟩⟩⟩
    exact List.mem_filterMap.mpr ⟨i, List.mem_range.mpr (Surface.lt_of_slot? hi), hi⟩

/-- What is made destroys what had the name; if nothing is made nothing is destroyed. -/
theorem gone_iff_of_added {name : String} {made : Except Error BufferObject × World σ}
    (hop : s.step D op = s.onDevice fun _ => s.addObject D name made)
    (hr : op.Renews t → t = .object name)
    (hdone : s.destroyed op .done = (s.objects.find? name).toList.map (none, ·))
    (hnot : ∀ a, a ≠ .done → s.destroyed op a = [])
    (hnew : ∀ c w, made = (.ok c, w) → s.world.identities ≤ c.id.number) :
    (∃ slot, (slot, b) ∈ s.destroyed op (s.step D op).1.answer) ↔
      (s.step D op).2.Gone t b := by
  rw [onDevice] at hop
  cases hd : s.device with
  | false =>
    rw [hd] at hop
    exact gone_iff_of_left hb (hnot _ (by simp [hop, refuse])) (by rw [hop]; rfl)
  | true =>
    rw [hd, if_pos rfl] at hop
    have hobject := object?_addObject (D := D) s (t := t) name made
    rw [← hop] at hobject
    obtain ⟨e | c, w⟩ := made
    · exact gone_iff_of_left hb (hnot _ (by simp [hop, addObject, reply])) hobject
    · have hanswer : (s.step D op).1.answer = .done := by
        rw [hop]
        rfl
      rw [hanswer]
      have hmem : (∃ slot, (slot, b) ∈ s.destroyed op .done) ↔ t = .object name := by
        rw [hdone]
        exact mem_named hs hb
      refine gone_iff_of_renewed hb hr hmem fun ht => ?_
      dsimp only at hobject
      rw [if_pos ht] at hobject
      exact hs.gone_of_new hb hobject (hnew c w rfl)

theorem gone_iff_of_replaced (surface : String) (i : Nat) (buffer : Option NamedBuffer) :
    (∃ slot, (slot, b) ∈ s.destroyed (.replace surface i buffer : Op ι)
        (s.replace D surface i buffer).1.answer) ↔
      (s.step D (.replace surface i buffer)).2.Gone t b := by
  have hstep : s.step D (.replace surface i buffer) = s.replace D surface i buffer := rfl
  rcases s.replace_cases D surface i buffer with h | ⟨y, descriptors, h⟩
  · rw [h] at hstep ⊢
    exact gone_iff_of_left hb rfl (by rw [hstep]; rfl)
  have hsame : object? { s with descriptors } t = s.object? t := by cases t <;> rfl
  rw [h] at hstep ⊢
  cases hx : s.surfaces.find? surface with
  | none =>
    simp only [onSurface, hx] at hstep ⊢
    exact gone_iff_of_left hb rfl (by rw [hstep]; exact hsame)
  | some x =>
    by_cases hi : i < slotCount
    · have hdone : (replacing D i y x s.world).1 = .done := by
        rw [replacing, Surface.replace, if_pos hi]
        cases y <;> rfl
      have hobject := object?_onSurface_slot { s with descriptors } surface i (replacing D i y)
      dsimp only at hobject
      rw [← hstep, hx, Option.bind_some, replacing] at hobject
      simp only [onSurface, hx]
      rw [hdone]
      refine gone_iff_of_renewed hb id (mem_slot hs hb) fun ht => ?_
      subst ht
      cases y with
      | none => exact gone_of_none (hobject.trans (x.slot?_replace_none _ i))
      | some z =>
        obtain ⟨c, hc, hnew⟩ := x.slot?_replace_some D hi z s.world
        exact hs.gone_of_new hb (hobject.trans hc) hnew
    · have hobject : (onSurface { s with descriptors } surface (replacing D i y)).2.object? t = _ :=
        object?_onSurface_of_same fun z j _ => by rw [replacing, (z.replace_error D hi y _).2]
      rw [← hstep] at hobject
      simp only [onSurface, hx, replacing, (x.replace_error D hi y s.world).1]
      exact gone_iff_of_left hb rfl (hobject.trans hsame)

end

/-- What an operation destroys is not there any more, and all that is not there any more was
destroyed. -/
theorem gone_iff (hs : s.Apart) (op : Op ι) (hb : s.object? t = some b) :
    (∃ slot, (slot, b) ∈ s.destroyed op (s.step D op).1.answer) ↔
      (s.step D op).2.Gone t b := by
  cases op with
  | create name width height format usage =>
    have hop : s.step D (.create name width height format usage) = s.onDevice fun _ =>
        s.addObject D name (BufferObject.create D width height format usage s.world) := rfl
    refine gone_iff_of_added hs hb hop id rfl ?_ fun c w h =>
      (BufferObject.create_newborn h).1.above
    intro a ha
    cases a <;> first | rfl | exact absurd rfl ha
  | createBuffer name width height fourcc modifiers =>
    have hop : s.step D (.createBuffer name width height fourcc modifiers) =
        s.onDevice fun _ => s.addObject D name
          (Device.createBuffer D width height fourcc modifiers s.world) := rfl
    refine gone_iff_of_added hs hb hop id rfl ?_ fun c w h =>
      (BufferObject.create_newborn (Device.createBuffer_ok h)).1.above
    intro a ha
    cases a <;> first | rfl | exact absurd rfl ha
  | importFrom name source =>
    have hnot (a : Answer) (ha : a ≠ .done) :
        s.destroyed (.importFrom name source : Op ι) a = [] := by
      cases a <;> first | rfl | exact absurd rfl ha
    cases hsource : source.resolve? s.descriptors.find? with
    | none =>
      have hrefused : s.step D (.importFrom name source) = s.refuse := by
        simp only [step, onDevice, hsource]
        split <;> rfl
      exact gone_iff_of_left hb (hnot _ (by simp [hrefused, refuse])) (by rw [hrefused]; rfl)
    | some source' =>
      have hop : s.step D (.importFrom name source) = s.onDevice fun _ =>
          s.addObject D name (BufferObject.importFrom D source' s.world) := by
        simp only [step, onDevice, hsource]
      exact gone_iff_of_added hs hb hop id rfl hnot fun c w h =>
        (BufferObject.importFrom_newborn h).1.above
  | destroy name =>
    refine gone_iff_of_renewed hb id (mem_named hs hb) fun ht => gone_of_none ?_
    subst ht
    have hb : s.objects.find? name = some b := hb
    simp only [step, hb, reply]
    rw [object?_erase_object, if_pos rfl]
  | createSurface name width height format usage =>
    have hop : (.createSurface name width height format usage : Op ι).Recreates name := rfl
    rcases recreates_cases (s := s) (D := D) hop with ⟨ha, hempty⟩ | ⟨ha, hsame⟩
    · have hdone : (s.step D (.createSurface name width height format usage)).1.answer =
          .done := ha
      rw [hdone]
      refine gone_iff_of_renewed hb id (mem_surface hs hb) fun ht => gone_of_none ?_
      obtain ⟨i, rfl⟩ := Target.surface?_eq_some.mp ht
      exact Option.bind_eq_none_iff.mpr fun y hy => (hempty y hy).1 i
    · refine gone_iff_of_left hb ?_ ?_
      · have hnot (a : Answer) (ha : a ≠ .done) :
            s.destroyed (.createSurface name width height format usage : Op ι) a = [] := by
          cases a <;> first | rfl | exact absurd rfl ha
        exact hnot _ ha
      · cases t with
        | object n =>
          rw [object?_step_of_not_renews s (by simp [Op.Renews, Target.surface?])]
          exact Option.map_id' ..
        | slot m i => rw [object?, hsame, object?]
  | destroySurface name =>
    refine gone_iff_of_renewed hb id (mem_surface hs hb) fun ht => gone_of_none ?_
    obtain ⟨i, rfl⟩ := Target.surface?_eq_some.mp ht
    obtain ⟨x, hx, -⟩ := Option.bind_eq_some_iff.mp hb
    simp only [step, hx, reply]
    rw [object?_erase_surface, if_pos rfl]
  | replace surface i buffer => exact gone_iff_of_replaced hs hb surface i buffer
  | allocate surface i =>
    refine gone_iff_of_renewed hb id (mem_slot hs hb) fun ht => ?_
    subst ht
    obtain ⟨x, hx, hi⟩ := Option.bind_eq_some_iff.mp hb
    have hafter : (s.step D (.allocate surface i)).2.object? (.slot surface i) =
        (x.allocate D i s.world).2.1.slot? i := by
      rw [(step_allocate hx).2, object?_insert_surface, if_pos rfl]
    rcases hq : x.allocate D i s.world with ⟨e | id, y, w⟩ <;> rw [hq] at hafter
    · refine gone_of_none (hafter.trans ?_)
      rw [(Surface.allocate_error hq).2.1, if_pos rfl]
    · obtain ⟨c, -, hc, hnew, -⟩ := Surface.allocate_newborn hq
      exact hs.gone_of_new hb (hafter.trans hc) hnew.above
  | _ => exact gone_iff_of_renewed (P := False) hb id (by simp [destroyed]) False.elim

end

end Session
end DisplayBuffers
