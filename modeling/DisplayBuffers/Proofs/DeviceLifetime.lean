import DisplayBuffers.Proofs.Effects
import DisplayBuffers.Proofs.LettingGo

/-! How long the session with the driver lasts. Each holder lets go of the driver after the calls
that are made for it, and the session ends with the last; when the device is destroyed makes no
difference to what the client does without it. -/
namespace DisplayBuffers
variable {σ ι : Type} {D : Driver σ ι}

/-- A driver to which its end makes no difference in what others do to it and share with it. -/
structure Driver.EndsQuietly (D : Driver σ ι) : Prop where
  receive : ∀ d, D.receive (D.shutdown d) = ((D.receive d).1, D.shutdown (D.receive d).2)
  outside : ∀ i d, D.outside i (D.shutdown d) = D.shutdown (D.outside i d)

namespace World

theorem outside_letGo (hD : D.EndsQuietly) (w : World σ) (i : ι) :
    (w.letGo D).outside D i = (w.outside D i).letGo D := by
  by_cases h : w.holders = 1
  · rw [letGo_of_last D h, letGo_of_last (w := w.outside D i) D h]
    simp only [outside, hD.outside]
  · rw [letGo_of_others D h, letGo_of_others (w := w.outside D i) D h]
    rfl

theorem receive_letGo (hD : D.EndsQuietly) (w : World σ) :
    (w.letGo D).receive D = ((w.receive D).1, (w.receive D).2.letGo D) := by
  by_cases h : w.holders = 1
  · rw [letGo_of_last D h, letGo_of_last (w := (w.receive D).2) D h]
    simp only [receive, hD.receive]
  · rw [letGo_of_others D h, letGo_of_others (w := (w.receive D).2) D h]
    rfl

end World

namespace Session

/-- Whether an operation is made at the device. -/
def Op.AtDevice : Op ι → Prop
  | .deviceName | .supportsFormat _ _ | .layoutPlanes _ _ | .create _ _ _ _ _
  | .createBuffer _ _ _ _ _ | .importFrom _ _ | .createSurface _ _ _ _ _ | .exportHandle _ _ _
  | .importDescriptor _ | .destroyDevice => True
  | _ => False

/-- The session without its device, which has let go of the driver. -/
def leave (D : Driver σ ι) (s : Session σ) : Session σ :=
  { s with device := false, world := s.world.letGo D }

theorem step_destroyDevice {s : Session σ} (hd : s.device = true) :
    s.step D .destroyDevice = (⟨.done, .nothing⟩, s.leave D) := by
  simp only [step, onDevice, hd, if_true, reply, leave]

theorem Op.work_letGo {w : World σ} (hw : 1 < w.holders) (op : Op ι) (b : BufferObject) :
    op.work D b (w.letGo D) =
      ((op.work D b w).1, (op.work D b w).2.1, (op.work D b w).2.2.letGo D) := by
  cases op with
  | acquire t =>
    rcases h : b.acquire D w with ⟨_ | _, b', w'⟩ <;>
      simp only [work, BufferObject.acquire_letGo hw h, h]
  | acquireRegion t x y width height =>
    rcases h : b.acquireRegion D x y width height w with ⟨_ | _, b', w'⟩ <;>
      simp only [work, BufferObject.acquireRegion_letGo hw h, h]
  | release t => simp only [work, BufferObject.release_letGo hw]
  | write t data => simp only [work, BufferObject.write_letGo hw]
  | withMapping t accesses =>
    rcases h : b.withMapping D accesses w with ⟨_ | _, b', w'⟩ <;>
      simp only [work, BufferObject.withMapping_letGo hw h, h]
  | _ => rfl

section Leave
variable {s : Session σ}

private theorem onObject_leave {t : Target}
    {f : BufferObject → World σ → Answer × BufferObject × World σ}
    (hf : ∀ b, s.object? t = some b → f b (s.world.letGo D) =
      ((f b s.world).1, (f b s.world).2.1, (f b s.world).2.2.letGo D)) :
    (s.leave D).onObject t f = ((s.onObject t f).1, (s.onObject t f).2.leave D) := by
  cases t with
  | object name =>
    simp only [onObject, leave]
    cases hb : s.objects.find? name with
    | none => rfl
    | some b => simp only [hf b hb]
  | slot surface i =>
    simp only [onObject, leave]
    cases hx : s.surfaces.find? surface with
    | none => rfl
    | some x =>
      dsimp only
      cases hb : x.slot? i with
      | none => rfl
      | some b =>
        have hs : s.object? (.slot surface i) = some b := by simp [object?, hx, hb]
        simp only [hf b hs]

private theorem onSurface_leave {surface : String}
    {f : Surface → World σ → Answer × Surface × World σ}
    (hf : ∀ x, s.surfaces.find? surface = some x → f x (s.world.letGo D) =
      ((f x s.world).1, (f x s.world).2.1, (f x s.world).2.2.letGo D)) :
    (s.leave D).onSurface surface f =
      ((s.onSurface surface f).1, (s.onSurface surface f).2.leave D) := by
  simp only [onSurface, leave]
  cases hx : s.surfaces.find? surface with
  | none => rfl
  | some x => simp only [hf x hx]

/-- An object holds the driver besides the device, wherever it is. -/
theorem Counted.found (hs : s.Counted) {t : Target} {b : BufferObject}
    (hb : s.object? t = some b) : s.device.toNat + b.driverReferences ≤ s.world.holders := by
  cases t with
  | object name => exact hs.object hb
  | slot surface i =>
    obtain ⟨x, hx, hi⟩ := Option.bind_eq_some_iff.mp hb
    have hslot := Surface.placed_references hi
    have hsurface := hs.surface hx
    omega

/-- Where the device holds the driver, an object or a surface is not the only one that does. -/
theorem Counted.others_of_object (hs : s.Counted) (hd : s.device = true) {t : Target}
    {b : BufferObject} (hb : s.object? t = some b) : 1 < s.world.holders := by
  have h := hs.found hb
  have hpos := b.driverReferences_pos
  rw [hd, Bool.toNat_true] at h
  omega

theorem Counted.others_of_surface (hs : s.Counted) (hd : s.device = true) {surface : String}
    {x : Surface} (hx : s.surfaces.find? surface = some x) :
    2 + objectReferences x.placed ≤ s.world.holders := by
  have h := hs.surface hx
  rwa [hd, Bool.toNat_true] at h

theorem keepDescriptor_leave (s : Session σ) (name : String) (d : Dmabuf) :
    (s.leave D).keepDescriptor name d = (s.keepDescriptor name d).leave D := by
  simp only [keepDescriptor, leave]
  cases s.descriptors.find? name <;> rfl

/-- An operation that is not made at the device has the same outcome whether the device lets go of
the driver before it or after it. Whatever it works on holds the driver as well. -/
theorem step_leave (hD : D.EndsQuietly) (hs : s.Counted) (hd : s.device = true) {op : Op ι}
    (h : ¬ op.AtDevice) :
    (s.leave D).step D op = ((s.step D op).1, (s.step D op).2.leave D) := by
  cases ho : op.target? with
  | some t =>
    rw [step_of_target? _ ho, step_of_target? _ ho]
    exact onObject_leave fun b hb => op.work_letGo (hs.others_of_object hd hb) b
  | none =>
    cases op with
    | acquire | acquireRegion | release | write | withMapping | inspect | plane => cases ho
    | outside i => simp only [step, leave, reply, World.outside_letGo hD]
    | receive name =>
      have hr : (s.leave D).withWorld ((s.world.receive D).2.letGo D) =
          (s.withWorld (s.world.receive D).2).leave D := rfl
      have hw : (s.leave D).world = s.world.letGo D := rfl
      simp only [step, reply, hw, World.receive_letGo hD, hr, keepDescriptor_leave]
    | close name =>
      simp only [step, leave]
      cases s.descriptors.find? name <;> rfl
    | newMemory name length => rfl
    | readMemory name offset count =>
      simp only [step, leave]
      cases s.memories.lookup name <;> rfl
    | saveId t name =>
      have hx : (s.leave D).onObject t (fun b w => (.done, b, w)) = _ :=
        onObject_leave fun _ _ => rfl
      simp only [step, saveId, hx]
      cases (s.onObject t fun b w => (.done, b, w)).1.subject <;> rfl
    | share t name =>
      have hx : (s.leave D).onObject t (sharing D) = _ := onObject_leave fun b hb => by
        rcases hq : b.share D s.world with ⟨_ | _, w⟩ <;>
          simp only [sharing, BufferObject.share_letGo (hs.others_of_object hd hb) hq, hq]
      simp only [step, shareObject]
      generalize hleft : (s.leave D).onObject t _ = left
      generalize hout : s.onObject t _ = out
      have hleft : (s.leave D).onObject t (sharing D) = left := hleft
      have hout : s.onObject t (sharing D) = out := hout
      rw [hx, hout] at hleft
      subst hleft
      obtain ⟨⟨answer, subject⟩, s'⟩ := out
      cases answer with
      | dmabuf d => exact congrArg (Prod.mk _) (keepDescriptor_leave s' name d)
      | _ => rfl
    | destroy name =>
      simp only [step, leave]
      cases hb : s.objects.find? name with
      | none => rfl
      | some b =>
        have hw := hs.object hb
        rw [hd, Bool.toNat_true, Nat.add_comm] at hw
        simp only [BufferObject.destroy_letGo hw, reply]
    | inspectSurface surface =>
      simp only [step]
      exact onSurface_leave fun _ _ => rfl
    | replace surface i buffer =>
      have hput (descriptors : Table String Dmabuf) (y : Option SlotBuffer) :
          ({ s.leave D with descriptors } : Session σ).onSurface surface (replacing D i y) = _ :=
        onSurface_leave (s := { s with descriptors }) fun x hx => by
          simp only [replacing, Surface.replace_letGo (hs.others_of_surface hd hx)]
      have hfind : (s.leave D).surfaces.find? surface = s.surfaces.find? surface := rfl
      have hbuffer (x : NamedBuffer) : (s.leave D).slotBuffer? x = s.slotBuffer? x := rfl
      simp only [step, replace, hfind, hbuffer]
      split
      · rfl
      · exact hput s.descriptors none
      · split
        · rfl
        · exact hput _ _
    | allocate surface i =>
      simp only [step]
      refine onSurface_leave fun x hx => ?_
      rw [Surface.allocate_letGo (hs.others_of_surface hd hx)]
      rcases x.allocate D i s.world with ⟨_ | _, x', w⟩ <;> rfl
    | setFront surface front =>
      simp only [step]
      exact onSurface_leave fun _ _ => rfl
    | lockFront surface name =>
      have hx : (s.leave D).onSurface surface
          (fun x w => (.identity x.lockFront.1, x.lockFront.2, w)) = _ :=
        onSurface_leave fun _ _ => rfl
      simp only [step, lockFront, hx]
      split <;> rfl
    | unlock surface name =>
      simp only [step, leave]
      cases s.ids.find? name with
      | none => rfl
      | some id => exact onSurface_leave fun _ _ => rfl
    | destroySurface surface =>
      simp only [step, leave]
      cases hx : s.surfaces.find? surface with
      | none => rfl
      | some x =>
        have hw := hs.others_of_surface hd hx
        simp only [Surface.destroy_letGo (x := x) (w := s.world) (D := D) (by omega), reply]
    | _ => exact absurd trivial h

private theorem onObject_device (s : Session σ) (t : Target)
    (f : BufferObject → World σ → Answer × BufferObject × World σ) :
    (s.onObject t f).2.device = s.device := by
  cases t with
  | object name =>
    rw [onObject]
    split <;> rfl
  | slot surface i =>
    rw [onObject]
    split
    · rfl
    · split <;> rfl

private theorem onSurface_device (s : Session σ) (surface : String)
    (f : Surface → World σ → Answer × Surface × World σ) :
    (s.onSurface surface f).2.device = s.device := by
  rw [onSurface]
  split <;> rfl

theorem device_step (s : Session σ) {op : Op ι} (h : ¬ op.AtDevice) :
    (s.step D op).2.device = s.device := by
  cases ho : op.target? with
  | some t =>
    rw [step_of_target? _ ho]
    exact s.onObject_device t _
  | none =>
    cases op with
    | acquire | acquireRegion | release | write | withMapping | inspect | plane => cases ho
    | outside | receive | newMemory => rfl
    | close | readMemory | destroy | destroySurface =>
      simp only [step]
      split <;> rfl
    | saveId t name =>
      simp only [step, saveId]
      split
      · exact s.onObject_device t _
      · exact s.onObject_device t _
    | share t name =>
      rcases s.shareObject_cases D t name with h | ⟨d, h⟩
      · exact (congrArg device h).trans (s.onObject_device t _)
      · exact (congrArg device h).trans (s.onObject_device t _)
    | inspectSurface surface => exact s.onSurface_device surface _
    | replace surface i buffer =>
      rcases s.replace_cases D surface i buffer with h | ⟨y, descriptors, h⟩
      · exact congrArg (·.2.device) h
      · exact (congrArg (·.2.device) h).trans (onSurface_device _ surface _)
    | allocate surface i => exact s.onSurface_device surface _
    | setFront surface front => exact s.onSurface_device surface _
    | lockFront surface name =>
      simp only [step, lockFront]
      split
      · exact s.onSurface_device surface _
      · exact s.onSurface_device surface _
    | unlock surface name =>
      simp only [step]
      split
      · rfl
      · exact s.onSurface_device surface _
    | _ => exact absurd trivial h

/-- Without operations at the device, it makes no difference when the device is destroyed. -/
theorem run_leave (hD : D.EndsQuietly) (hs : s.Counted) (hd : s.device = true)
    {ops : List (Op ι)} (h : ∀ op ∈ ops, ¬ op.AtDevice) :
    (s.leave D).run D ops = ((s.run D ops).1, (s.run D ops).2.leave D) ∧
      (s.run D ops).2.device = true := by
  induction ops generalizing s with
  | nil => exact ⟨rfl, hd⟩
  | cons op ops ih =>
    have hop := h op List.mem_cons_self
    obtain ⟨hrun, hd'⟩ := ih (step_counted hs op) ((device_step s hop).trans hd)
      fun x hx => h x (List.mem_cons_of_mem _ hx)
    refine ⟨?_, hd'⟩
    simp only [run] at hrun ⊢
    simp only [step_leave hD hs hd hop, hrun]

end Leave

section Closing
variable (s : Session σ)

private theorem mem_insertName {n name : String} {l : List String} :
    n ∈ insertName name l ↔ n = name ∨ n ∈ l := by
  induction l with
  | nil => simp [insertName]
  | cons x l ih =>
    rw [insertName]
    split
    · exact List.mem_cons
    · rw [List.mem_cons, List.mem_cons, ih]
      exact or_left_comm

private theorem mem_sortNames {n : String} {l : List String} : n ∈ sortNames l ↔ n ∈ l := by
  induction l with
  | nil => rfl
  | cons x l ih =>
    rw [sortNames, List.foldr_cons, mem_insertName, List.mem_cons]
    exact or_congr_right ih

private theorem find?_of_not_mem_keys {α : Type} {t : Table String α} {n : String}
    (h : n ∉ sortNames t.keys) : t.find? n = none := by
  rw [mem_sortNames, Table.keys] at h
  rw [Table.find?, List.lookup_eq_none_iff]
  intro e he
  have hne : n ≠ e.1 := fun hn => h (List.mem_map.mpr ⟨e, he, hn.symm⟩)
  simpa using hne

/-- Operations that each take one thing away, one after the other, take all of them away. -/
private theorem run_erases {α β : Type} {f : String → Op ι} {g : Session σ → String → Option α}
    {k : Session σ → β} (step : ∀ s name, (∀ n, g (Session.step D s (f name)).2 n =
      if n = name then none else g s n) ∧ k (Session.step D s (f name)).2 = k s)
    (names : List String) :
    (∀ n, g (s.run D (names.map f)).2 n = if n ∈ names then none else g s n) ∧
      k (s.run D (names.map f)).2 = k s := by
  induction names generalizing s with
  | nil => exact ⟨fun n => rfl, rfl⟩
  | cons name names ih =>
    obtain ⟨hlook, hrest⟩ := step s name
    obtain ⟨hlook', hrest'⟩ := ih (s.step D (f name)).2
    refine ⟨fun n => ?_, hrest'.trans hrest⟩
    refine (hlook' n).trans ?_
    rw [hlook]
    by_cases hn : n = name <;> simp [hn]

private theorem step_destroy (name : String) :
    (∀ n, (s.step D (.destroy name)).2.objects.find? n =
        if n = name then none else s.objects.find? n) ∧
      ((s.step D (.destroy name)).2.surfaces, (s.step D (.destroy name)).2.device) =
        (s.surfaces, s.device) := by
  simp only [step]
  split
  · next hn =>
    refine ⟨fun n => ?_, rfl⟩
    split
    · next h => rw [h, refuse, hn]
    · rfl
  · exact ⟨Table.find?_erase _ _, rfl⟩

private theorem step_destroySurface (name : String) :
    (∀ n, (s.step D (.destroySurface name)).2.surfaces.find? n =
        if n = name then none else s.surfaces.find? n) ∧
      ((s.step D (.destroySurface name)).2.objects, (s.step D (.destroySurface name)).2.device) =
        (s.objects, s.device) := by
  simp only [step]
  split
  · next hn =>
    refine ⟨fun n => ?_, rfl⟩
    split
    · next h => rw [h, refuse, hn]
    · rfl
  · exact ⟨Table.find?_erase _ _, rfl⟩

/-- The end of a session leaves nothing. -/
theorem nothing_left : (s.finish D).device = false ∧
    (∀ name, (s.finish D).objects.find? name = none) ∧
    ∀ surface, (s.finish D).surfaces.find? surface = none := by
  obtain ⟨ho, hkept⟩ := s.run_erases (D := D) (g := fun s => s.objects.find?)
    (k := fun s => (s.surfaces, s.device)) step_destroy (sortNames s.objects.keys)
  obtain ⟨hs, hd⟩ := Prod.mk.inj hkept
  rw [finish, closing, run_append, run_append]
  generalize (s.run D ((sortNames s.objects.keys).map .destroy)).2 = s₁ at ho hs hd ⊢
  obtain ⟨hs', hkept'⟩ := s₁.run_erases (D := D) (g := fun s => s.surfaces.find?)
    (k := fun s => (s.objects, s.device)) step_destroySurface (sortNames s.surfaces.keys)
  obtain ⟨ho', hd'⟩ := Prod.mk.inj hkept'
  generalize (s₁.run D ((sortNames s.surfaces.keys).map .destroySurface)).2 = s₂ at hs' ho' hd' ⊢
  have hobjects (n : String) : s₂.objects.find? n = none := by
    rw [ho', ho]
    split
    · rfl
    · next hn => exact find?_of_not_mem_keys hn
  have hsurfaces (n : String) : s₂.surfaces.find? n = none := by
    rw [hs', hs]
    split
    · rfl
    · next hn => exact find?_of_not_mem_keys hn
  have hdevice : s₂.device = s.device := hd'.trans hd
  cases hdev : s.device with
  | false =>
    simp only [Bool.false_eq_true, if_false, run]
    exact ⟨hdevice.trans hdev, hobjects, hsurfaces⟩
  | true =>
    simp only [if_true, run, step_destroyDevice (hdevice.trans hdev)]
    exact ⟨rfl, hobjects, hsurfaces⟩

/-- At the end of a session nobody holds the driver. -/
theorem Counted.finish {s : Session σ} (hs : s.Counted) :
    (s.finish D).world.holders = 0 := by
  have hcounted : (s.finish D).Counted := run_counted hs s.closing
  obtain ⟨hd, ho, hx⟩ := s.nothing_left (D := D)
  by_contra hn
  simpa [hd, ho, hx] using hcounted.alive.mp (Nat.pos_of_ne_zero hn)

/-- What is left to be done at the end does not depend on the device, apart from its own end. -/
theorem finish_leave (hD : D.EndsQuietly) (hs : s.Counted) (hd : s.device = true) :
    (s.leave D).finish D = s.finish D := by
  let things : List (Op ι) := (sortNames s.objects.keys).map .destroy ++
    (sortNames s.surfaces.keys).map .destroySurface
  have hthings : ∀ op ∈ things, ¬ op.AtDevice := by
    intro op hop
    rcases List.mem_append.mp hop with h | h
    · obtain ⟨name, _, rfl⟩ := List.mem_map.mp h
      exact id
    · obtain ⟨name, _, rfl⟩ := List.mem_map.mp h
      exact id
  have hclosing : s.closing = things ++ [.destroyDevice] := by
    rw [closing, hd]
    rfl
  have hclosing' : (s.leave D).closing = things := List.append_nil _
  obtain ⟨hrun, hd'⟩ := run_leave hD hs hd hthings
  rw [Session.finish, Session.finish, hclosing, hclosing', hrun, run_concat,
    step_destroyDevice hd']

end Closing

section Destruction

/-- Two sessions that are the same, but that one of them has destroyed its device. One less holds
the driver there, and the session with the driver has ended if nobody does. -/
structure LacksDevice (D : Driver σ ι) (early late : Session σ) : Prop where
  device : early.device = false ∧ late.device = true
  objects : early.objects = late.objects
  surfaces : early.surfaces = late.surfaces
  descriptors : early.descriptors = late.descriptors
  memories : early.memories = late.memories
  ids : early.ids = late.ids
  memory : early.world.memory = late.world.memory
  openDescriptors : early.world.descriptors = late.world.descriptors
  events : early.world.events = late.world.events
  holders : early.world.holders + 1 = late.world.holders
  driver : early.world.driver =
    if early.world.holders = 0 then D.shutdown late.world.driver else late.world.driver

/-- What becomes of operations that are not made at the device if the device is destroyed before
them: the same outcomes, the same state after each of them, and the same state in the end. -/
structure Outlasts (D : Driver σ ι) (s : Session σ) (later : List (Op ι)) : Prop where
  outcomes : ((s.step D .destroyDevice).2.run D later).1 = (s.run D later).1
  states : ∀ n, LacksDevice D ((s.step D .destroyDevice).2.run D (later.take n)).2
    (s.run D (later.take n)).2
  destroyed : ((s.step D .destroyDevice).2.run D later).2 =
    ((s.run D later).2.step D .destroyDevice).2
  finished : ((s.step D .destroyDevice).2.run D later).2.finish D = (s.run D later).2.finish D

theorem lacksDevice_leave {s : Session σ} (hs : s.Counted) (hd : s.device = true) :
    LacksDevice D (s.leave D) s := by
  have hpos : 0 < s.world.holders := hs.alive.mpr (.inl hd)
  have hlast : s.world.holders = 1 ↔ s.world.holders - 1 = 0 := by omega
  refine ⟨⟨rfl, hd⟩, rfl, rfl, rfl, rfl, rfl, rfl, rfl, rfl, Nat.sub_add_cancel hpos, ?_⟩
  simp only [leave, World.letGo, hlast]

/-- In every session with a driver that ends quietly, what the client does without the device goes
on as it would have done with it. -/
theorem run_outlasts (hD : D.EndsQuietly) (d : σ) (ops : List (Op ι))
    (hd : ((start d).run D ops).2.device = true) {later : List (Op ι)}
    (h : ∀ op ∈ later, ¬ op.AtDevice) : Outlasts D ((start d).run D ops).2 later := by
  have hs : ((start d).run D ops).2.Counted := run_counted (start_counted d) ops
  obtain ⟨hrun, hd'⟩ := run_leave hD hs hd h
  have hgone := step_destroyDevice (D := D) hd
  refine ⟨by rw [hgone, hrun], fun n => ?_, ?_, ?_⟩
  · obtain ⟨hn, hdn⟩ := run_leave hD hs hd fun op hop => h op (List.mem_of_mem_take hop)
    rw [hgone, hn]
    exact lacksDevice_leave (run_counted hs _) hdn
  · rw [hgone, hrun, step_destroyDevice hd']
  · rw [hgone, hrun]
    exact finish_leave _ hD (run_counted hs later) hd'

end Destruction
end Session
end DisplayBuffers
