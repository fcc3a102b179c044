import DisplayBuffers.Proofs.Lineage

/-! How buffer objects come about. An object that a session has was created, imported or put into a
slot, and since then nothing but its mapping and its lock has changed. So what each way of making
one provides, and use keeps, holds of every object of every run. -/
namespace DisplayBuffers
variable {σ ι : Type} {D : Driver σ ι}

/-- The ways of making a buffer object. One that is put into a slot has the size and the format of
the surface. -/
inductive Made (D : Driver σ ι) : BufferObject → Prop
  | created {width height code usage w b w'}
      (h : BufferObject.create D width height code usage w = (.ok b, w')) : Made D b
  | imported {source w b w'} (h : BufferObject.importFrom D source w = (.ok b, w')) : Made D b
  | installed (x : Surface) (y : SlotBuffer) (w : World σ) :
      Made D (BufferObject.borrow x.width x.height x.format.code [⟨.null, y.stride⟩] y.descriptor
        y.address w).1

/-- An imported object has a canonical format, whatever the source is. -/
theorem BufferObject.importFrom_borrows {source : ImportSource Dmabuf} {w w' : World σ}
    {b : BufferObject} (h : importFrom D source w = (.ok b, w')) :
    ∃ (width height : UInt32) (c : FormatCode) (planes : List Plane) (w₁ : World σ),
      borrow width height c.canonical planes none none w₁ = (b, w') := by
  cases source with
  | external r =>
    simp only [importFrom, importExternal] at h
    split at h
    · cases h
    · next r =>
      split at h
      · cases h
      · obtain ⟨rfl, rfl⟩ := h
        exact ⟨_, _, r.format, _, _, rfl⟩
  | descriptor d width height stride format =>
    simp only [importFrom] at h
    split at h
    · cases h
    · obtain ⟨rfl, rfl⟩ := h
      exact ⟨_, _, format, _, _, rfl⟩
  | planes ds strides width height format modifier =>
    simp only [importFrom, importPlanes] at h
    split at h
    · cases h
    split at h
    · cases h
    split at h
    · cases h
    split at h
    · obtain ⟨rfl, rfl⟩ := h
      exact ⟨_, _, format, _, _, rfl⟩
    · cases h

namespace Surface
variable {x : Surface} {i : Nat} {w : World σ} {b : BufferObject}

theorem made_of_replace {y : Option SlotBuffer}
    (h : (x.replace D i y w).2.1.slot? i = some b) : Made D b := by
  by_cases hi : i < slotCount
  · simp only [replace, hi, if_true] at h
    cases y with
    | none =>
      rw [slot?_clear, if_pos rfl] at h
      cases h
    | some y =>
      rw [slot?_withSlot, if_pos ⟨rfl, hi⟩] at h
      obtain rfl := Option.some.inj h
      exact .installed _ y _
  · rw [slot?_eq_none _ hi] at h
    cases h

theorem made_of_allocate (h : (x.allocate D i w).2.1.slot? i = some b) : Made D b := by
  by_cases hi : i < slotCount
  · simp only [allocate, hi, if_true] at h
    split at h
    · next c w' hc =>
      rw [slot?_withSlot, if_pos ⟨rfl, hi⟩] at h
      obtain rfl := Option.some.inj h
      exact .created hc
    · rw [slot?_clear, if_pos rfl] at h
      cases h
  · rw [slot?_eq_none _ hi] at h
    cases h

end Surface

namespace Session
variable {s : Session σ} {op : Op ι} {t : Target} {b : BufferObject}

private theorem made_of_onDevice {f : Session σ → Outcome × Session σ}
    (hf : (f s).2.object? t = some b → s.object? t = some b ∨ Made D b)
    (h : (s.onDevice f).2.object? t = some b) : s.object? t = some b ∨ Made D b := by
  rw [onDevice] at h
  split at h
  · exact hf h
  · exact .inl h

private theorem made_of_addObject {name : String} {made : Except Error BufferObject × World σ}
    (hm : ∀ c w, made = (.ok c, w) → Made D c)
    (h : (s.addObject D name made).2.object? t = some b) : s.object? t = some b ∨ Made D b := by
  obtain ⟨e | c, w⟩ := made
  · rw [object?_addObject] at h
    exact .inl h
  · rw [object?_addObject] at h
    dsimp only at h
    split at h
    · obtain rfl := Option.some.inj h
      exact .inr (hm _ _ rfl)
    · exact .inl h

/-- What is found where an operation can put something else was there before, or it was made. -/
private theorem step_made (hr : op.Renews t) (h : (s.step D op).2.object? t = some b) :
    s.object? t = some b ∨ Made D b := by
  cases op with
  | create name width height format usage =>
    exact made_of_onDevice (made_of_addObject fun _ _ hc => .created hc) h
  | createBuffer name width height fourcc modifiers =>
    exact made_of_onDevice (made_of_addObject fun _ _ hc => .created (Device.createBuffer_ok hc)) h
  | importFrom name source =>
    refine made_of_onDevice (fun h => ?_) h
    split at h
    · exact .inl h
    · exact made_of_addObject (fun _ _ hc => .imported hc) h
  | destroy name =>
    obtain rfl : t = .object name := hr
    simp only [step] at h
    split at h
    · exact .inl h
    · rw [reply, object?_erase_object, if_pos rfl] at h
      cases h
  | createSurface name width height format usage =>
    obtain ⟨i, rfl⟩ := Target.surface?_eq_some.mp hr
    refine made_of_onDevice (fun h => ?_) h
    split at h
    · exact .inl h
    · next x hx =>
      rw [keepSurface, object?_insert_surface, if_pos rfl, Surface.slot?_create hx] at h
      cases h
  | destroySurface name =>
    obtain ⟨i, rfl⟩ := Target.surface?_eq_some.mp hr
    simp only [step] at h
    split at h
    · exact .inl h
    · rw [reply, object?_erase_surface, if_pos rfl] at h
      cases h
  | replace surface i buffer =>
    obtain rfl : t = .slot surface i := hr
    rw [step] at h
    rcases s.replace_cases D surface i buffer with hs | ⟨y, descriptors, hs⟩
    · rw [hs] at h
      exact .inl h
    · rw [hs, object?_onSurface_slot] at h
      obtain ⟨x, _, hx⟩ := Option.bind_eq_some_iff.mp h
      exact .inr (Surface.made_of_replace hx)
  | allocate surface i =>
    obtain rfl : t = .slot surface i := hr
    rw [step, object?_onSurface_slot] at h
    obtain ⟨x, _, hx⟩ := Option.bind_eq_some_iff.mp h
    refine .inr (Surface.made_of_allocate (x := x) (i := i) (w := s.world) ?_)
    rw [← hx]
    rcases x.allocate D i s.world with ⟨_ | _, x', w'⟩ <;> rfl
  | _ => exact hr.elim

/-- An object found after an operation was there before, or the operation made it. -/
theorem left_or_made (h : (s.step D op).2.object? t = some b) :
    (∃ c, s.object? t = some c ∧ b = s.leaves D op t c) ∨ Made D b := by
  by_cases hr : op.Renews t
  · rcases step_made hr h with hc | hm
    · exact .inl ⟨b, hc, (s.leaves_of_renews hr b).symm⟩
    · exact .inr hm
  · rw [object?_step_of_not_renews s hr] at h
    obtain ⟨c, hc, rfl⟩ := Option.map_eq_some_iff.mp h
    exact .inl ⟨c, hc, rfl⟩

/-- What every object has when it is made, whatever becomes of its mapping and its lock, is true of
every object of every run. -/
theorem objects_keep {P : BufferObject → Prop} (made : ∀ b, Made D b → P b)
    (used : ∀ b m r l, P b → P { b with mapping := m, references := r, locked := l }) (d : σ)
    (ops : List (Op ι)) {t : Target} {b : BufferObject}
    (h : ((start d).run D ops).2.object? t = some b) : P b := by
  induction ops using List.reverseRecOn generalizing t b with
  | nil =>
    rw [run, object?_start] at h
    cases h
  | append_singleton ops op ih =>
    rw [run_concat] at h
    rcases left_or_made h with ⟨c, hc, rfl⟩ | hm
    · obtain ⟨m, r, l, hl⟩ := leaves_same (D := D) ((start d).run D ops).2 op t c
      rw [hl]
      exact used c m r l (ih hc)
    · exact made b hm

end Session
end DisplayBuffers
