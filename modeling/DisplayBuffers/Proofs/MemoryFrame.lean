import DisplayBuffers.Proofs.Effects

/-! What leaves all bytes alone: every call to the driver, and every operation but the two that
store through a mapping. -/
namespace DisplayBuffers
variable {σ ι : Type} {D : Driver σ ι}

namespace World
variable {w w' : World σ}

theorem memory_allocate {kind : BufferKind} {width height : UInt32} {format : PixelFormat}
    {r : Except IoError Storage} (h : w.allocate D kind width height format = (r, w')) :
    w'.memory = w.memory := by
  cases r with
  | error e => rw [allocate_error h]
  | ok s => rw [(allocate_ok h).2.2]

theorem memory_map {s : Storage} {r : Except IoError Address} (h : w.map D s = (r, w')) :
    w'.memory = w.memory := by
  rw [map_eq h]

theorem memory_exportHandle {handle : Handle} {flags : ExportFlags} {r : Except IoError Dmabuf}
    (h : w.exportHandle D handle flags = (r, w')) : w'.memory = w.memory := by
  cases r with
  | error e => rw [exportHandle_error h]
  | ok d => rw [exportHandle_ok h]

theorem memory_duplicate {d : Dmabuf} {r : Except IoError Dmabuf}
    (h : w.duplicate D d = (r, w')) : w'.memory = w.memory := by
  cases r with
  | error e => rw [duplicate_error h]
  | ok d => rw [(duplicate_ok h).2]

@[simp] theorem memory_unmap (w : World σ) (D : Driver σ ι) (s : Storage) (a : Address) :
    (w.unmap D s a).memory = w.memory := by
  obtain ⟨r, warnings, h⟩ := w.unmap_eq D s a
  rw [h]

@[simp] theorem memory_release (w : World σ) (D : Driver σ ι) (s : Storage) :
    (w.release D s).memory = w.memory := by
  obtain ⟨r, warnings, h⟩ := w.release_eq D s
  rw [h]

@[simp] theorem memory_close (w : World σ) (d : Dmabuf) : (w.close d).memory = w.memory := rfl

end World

namespace BufferObject
variable {b b' : BufferObject} {w w' : World σ}

theorem memory_acquire {r : Except Error Address} (h : b.acquire D w = (r, b', w')) :
    w'.memory = w.memory := by
  cases acquired h with
  | first hb hm hw => exact World.memory_map hw
  | failed hb hm hw => exact World.memory_map hw
  | _ => rfl

theorem memory_release (b : BufferObject) (D : Driver σ ι) (w : World σ) :
    (b.release D w).2.memory = w.memory := by
  have h := released D b w
  generalize (b.release D w).1 = b', (b.release D w).2 = w' at h ⊢
  cases h with
  | unmapped hb hm hr => exact w.memory_unmap D _ _
  | _ => rfl

theorem memory_destroy (b : BufferObject) (D : Driver σ ι) (w : World σ) :
    (b.destroy D w).memory = w.memory := by
  have hwarn : (if b.locked then w.warn (.destroyedLocked b.id) else w).memory = w.memory := by
    split <;> rfl
  rw [destroy]
  cases b.backing with
  | owned s d => cases b.mapping <;> simp [hwarn]
  | borrowed d a => cases d <;> simp [hwarn]

theorem memory_create {width height : UInt32} {code : FormatCode} {usage : Usage}
    {r : Except Error BufferObject} (h : create D width height code usage w = (r, w')) :
    w'.memory = w.memory := by
  have hexported {format : PixelFormat} {s : Storage} {r : Except IoError Dmabuf} {w₁ w₂ : World σ}
      (ha : w.allocate D (.ofUsage usage) width height format = (.ok s, w₁))
      (he : w₁.hold.exportHandle D s.handle .closeOnExec = (r, w₂)) : w₂.memory = w.memory :=
    (World.memory_exportHandle he).trans ((World.hold_memory w₁).trans (World.memory_allocate ha))
  cases created h with
  | unsupported hf => rfl
  | notAllocated hf ha => exact World.memory_allocate ha
  | notExported hf ha he =>
    rw [World.letGo_memory, World.memory_release]
    exact hexported ha he
  | unmapped hf ha he hu =>
    have h := hexported ha he
    exact h
  | mapped hf ha he hu hm =>
    have h := hexported ha he
    exact (World.memory_map hm).trans h
  | notMapped hf ha he hu hm =>
    have h := hexported ha he
    rw [World.letGo_memory, World.memory_release, World.memory_close, World.letGo_memory]
    exact (World.memory_map hm).trans h

theorem memory_share {r : Except Error Dmabuf} (h : b.share D w = (r, w')) :
    w'.memory = w.memory := by
  cases shared h with
  | nothing => rfl
  | duplicated hn hd hw => exact World.memory_duplicate hw
  | notDuplicated hn hd hw => exact World.memory_duplicate hw
  | exported hn hw => exact World.memory_exportHandle hw
  | notExported hn hw => exact World.memory_exportHandle hw

end BufferObject

/-- Bytes change only through the mapping of an object. -/
theorem Effect.memory {Used Stored : BufferObject → Prop} {w w' : World σ}
    (h : Effect D Used Stored w w') (hs : ∀ b, ¬ Stored b) : w'.memory = w.memory := by
  cases h with
  | outside i => rfl
  | received => rfl
  | closed d => rfl
  | warned x => rfl
  | named => rfl
  | exported handle flags => exact World.memory_exportHandle rfl
  | converted d => rfl
  | created width height code usage => exact BufferObject.memory_create rfl
  | shared b => exact BufferObject.memory_share rfl
  | acquired hb => exact BufferObject.memory_acquire rfl
  | @released b hb => exact b.memory_release D w
  | @destroyed b hb => exact b.memory_destroy D w
  | @written b data hb => exact absurd hb (hs b)
  | @accessed b accesses hu hb => exact absurd hb (hs b)
  | joined | left => rfl

namespace Session

end Session
end DisplayBuffers
