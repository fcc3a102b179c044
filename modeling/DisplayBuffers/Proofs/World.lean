import DisplayBuffers.World

/-! What each call does to the world, in full: the driver's new state, the event, the descriptors
and the numbers in use. Later modules cite these equations and do not open the calls again. -/
namespace DisplayBuffers.World
variable {σ ι : Type}

section
variable (w : World σ) (D : Driver σ ι)

@[simp] theorem hold_driver : w.hold.driver = w.driver := rfl
@[simp] theorem hold_memory : w.hold.memory = w.memory := rfl
@[simp] theorem hold_descriptors : w.hold.descriptors = w.descriptors := rfl
@[simp] theorem hold_events : w.hold.events = w.events := rfl
@[simp] theorem hold_allocations : w.hold.allocations = w.allocations := rfl
@[simp] theorem hold_identities : w.hold.identities = w.identities := rfl
@[simp] theorem hold_holders : w.hold.holders = w.holders + 1 := rfl

@[simp] theorem letGo_memory : (w.letGo D).memory = w.memory := rfl
@[simp] theorem letGo_descriptors : (w.letGo D).descriptors = w.descriptors := rfl
@[simp] theorem letGo_events : (w.letGo D).events = w.events := rfl
@[simp] theorem letGo_allocations : (w.letGo D).allocations = w.allocations := rfl
@[simp] theorem letGo_identities : (w.letGo D).identities = w.identities := rfl
@[simp] theorem letGo_holders : (w.letGo D).holders = w.holders - 1 := rfl

end

variable {w : World σ} (D : Driver σ ι)

/-- While others hold the driver, nothing comes of one who lets go of it. -/
theorem letGo_of_others (h : w.holders ≠ 1) :
    w.letGo D = { w with holders := w.holders - 1 } := by
  rw [letGo, if_neg h]

theorem letGo_driver (w : World σ) (D : Driver σ ι) : (w.letGo D).driver = w.driver ∨
    w.holders = 1 ∧ (w.letGo D).driver = D.shutdown w.driver := by
  by_cases h : w.holders = 1
  · exact .inr ⟨h, if_pos h⟩
  · exact .inl (if_neg h)

theorem letGo_driver_of_others (h : w.holders ≠ 1) : (w.letGo D).driver = w.driver := by
  rw [letGo_of_others D h]

/-- The last to let go of the driver ends the session with it. -/
theorem letGo_of_last (h : w.holders = 1) :
    w.letGo D = { w with driver := D.shutdown w.driver, holders := 0 } := by
  rw [letGo, if_pos h, h]

variable {D}

theorem allocate_ok {w w' : World σ} {D : Driver σ ι} {kind : BufferKind} {width height : UInt32}
    {format : PixelFormat} {s : Storage}
    (h : w.allocate D kind width height format = (.ok s, w')) :
    s.key = w.allocations ∧
      (D.allocate w.allocations kind width height format w.driver).1 = .ok s.toAllocation ∧
      w' = { w with
        driver := (D.allocate w.allocations kind width height format w.driver).2
        allocations := w.allocations + 1
        events := w.events ++ [.allocate kind width height format (.ok s)] } := by
  rw [allocate] at h
  split at h
  · next a driver ha =>
    obtain ⟨hs, rfl⟩ := Prod.mk.inj h
    obtain rfl := Except.ok.inj hs
    rw [ha]
    exact ⟨rfl, rfl, rfl⟩
  · cases h

/-- The driver allocates whoever else holds it. -/
theorem allocate_hold {w w' : World σ} {D : Driver σ ι} {kind : BufferKind}
    {width height : UInt32} {format : PixelFormat} {r : Except IoError Storage}
    (h : w.allocate D kind width height format = (r, w')) :
    w.hold.allocate D kind width height format = (r, w'.hold) := by
  simp only [allocate, hold_driver, hold_allocations] at h ⊢
  split at h
  · obtain ⟨rfl, rfl⟩ := Prod.mk.inj h
    rfl
  · obtain ⟨rfl, rfl⟩ := Prod.mk.inj h
    rfl

theorem allocate_error {w w' : World σ} {D : Driver σ ι} {kind : BufferKind}
    {width height : UInt32} {format : PixelFormat} {e : IoError}
    (h : w.allocate D kind width height format = (.error e, w')) :
    w' = { w with
      driver := (D.allocate w.allocations kind width height format w.driver).2
      events := w.events ++ [.allocate kind width height format (.error e)] } := by
  rw [allocate] at h
  split at h
  · cases h
  · next e' driver ha =>
    obtain ⟨he, rfl⟩ := Prod.mk.inj h
    obtain rfl := Except.error.inj he
    rw [ha]
    rfl

theorem map_eq {w w' : World σ} {D : Driver σ ι} {s : Storage} {r : Except IoError Address}
    (h : w.map D s = (r, w')) :
    w' = { w with driver := (D.map s w.driver).2, events := w.events ++ [.map s r] } := by
  obtain ⟨rfl, rfl⟩ := Prod.mk.inj h
  rfl

theorem unmap_eq (w : World σ) (D : Driver σ ι) (s : Storage) (a : Address) :
    ∃ r warnings, w.unmap D s a = { w with
      driver := (D.unmap s a w.driver).2
      events := w.events ++ .unmap s a r :: List.map Event.warn warnings } := by
  rw [unmap]
  rcases D.unmap s a w.driver with ⟨_ | _, driver⟩
  · next e =>
    by_cases hw : D.warnsOfFailedUnmap
    · exact ⟨.error e, [.unmapFailed s.handle e], by simp [hw, record, warn]⟩
    · exact ⟨.error e, [], by simp [hw, record]⟩
  · exact ⟨.ok (), [], rfl⟩

theorem release_eq (w : World σ) (D : Driver σ ι) (s : Storage) :
    ∃ r warnings, w.release D s = { w with
      driver := (D.release s w.driver).2
      events := w.events ++ .release s r :: List.map Event.warn warnings } := by
  rw [release]
  rcases D.release s w.driver with ⟨_ | _, driver⟩
  · next e => exact ⟨.error e, [.releaseFailed s.handle e], by simp [record, warn]⟩
  · exact ⟨.ok (), [], rfl⟩

theorem exportHandle_ok {w w' : World σ} {D : Driver σ ι} {handle : Handle} {flags : ExportFlags}
    {d : Dmabuf} (h : w.exportHandle D handle flags = (.ok d, w')) :
    w' = { w with
      driver := (D.exportHandle handle flags w.driver).2
      descriptors := d :: w.descriptors
      events := w.events ++ [.exportHandle handle flags (.ok d)] } := by
  rw [exportHandle] at h
  split at h
  · next d' driver hd =>
    obtain ⟨hd', rfl⟩ := Prod.mk.inj h
    obtain rfl := Except.ok.inj hd'
    rw [hd]
    rfl
  · cases h

theorem exportHandle_error {w w' : World σ} {D : Driver σ ι} {handle : Handle}
    {flags : ExportFlags} {e : IoError} (h : w.exportHandle D handle flags = (.error e, w')) :
    w' = { w with
      driver := (D.exportHandle handle flags w.driver).2
      events := w.events ++ [.exportHandle handle flags (.error e)] } := by
  rw [exportHandle] at h
  split at h
  · cases h
  · next e' driver hd =>
    obtain ⟨he, rfl⟩ := Prod.mk.inj h
    obtain rfl := Except.error.inj he
    rw [hd]
    rfl

/-- A duplicate refers to the same shared buffer. -/
theorem duplicate_ok {w w' : World σ} {D : Driver σ ι} {d d' : Dmabuf}
    (h : w.duplicate D d = (.ok d', w')) :
    d' = d ∧ w' = { w with
      driver := (D.duplicate d w.driver).2
      descriptors := d :: w.descriptors
      events := w.events ++ [.duplicate d (.ok ())] } := by
  rw [duplicate] at h
  split at h
  · next driver hd =>
    obtain ⟨hd', rfl⟩ := Prod.mk.inj h
    obtain rfl := Except.ok.inj hd'
    rw [hd]
    exact ⟨rfl, rfl⟩
  · cases h

theorem duplicate_error {w w' : World σ} {D : Driver σ ι} {d : Dmabuf} {e : IoError}
    (h : w.duplicate D d = (.error e, w')) :
    w' = { w with
      driver := (D.duplicate d w.driver).2
      events := w.events ++ [.duplicate d (.error e)] } := by
  rw [duplicate] at h
  split at h
  · cases h
  · next e' driver hd =>
    obtain ⟨he, rfl⟩ := Prod.mk.inj h
    obtain rfl := Except.error.inj he
    rw [hd]
    rfl

theorem receive_eq (w : World σ) (D : Driver σ ι) :
    w.receive D = ((D.receive w.driver).1,
      { w with
        driver := (D.receive w.driver).2
        descriptors := (D.receive w.driver).1 :: w.descriptors }) := rfl

end DisplayBuffers.World
