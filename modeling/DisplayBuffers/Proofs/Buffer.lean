import DisplayBuffers.Buffer.Sharing

/-! The outcomes of the operations on one buffer object, a constructor for each. An operation that
fails half way is one of them, with the world as it leaves it. -/
namespace DisplayBuffers.BufferObject
variable {σ ι : Type}

/-- The outcomes of taking a reference. -/
inductive Acquired (D : Driver σ ι) (b : BufferObject) (w : World σ) :
    Except Error Address → BufferObject → World σ → Prop
  | again {s d a} (hb : b.backing = .owned s d) (hm : b.mapping = some a) :
      Acquired D b w (.ok a) (b.retain a) w
  | first {s d a w'} (hb : b.backing = .owned s d) (hm : b.mapping = none)
      (h : w.map D s = (.ok a, w')) : Acquired D b w (.ok a) (b.retain a) w'
  | failed {s d e w'} (hb : b.backing = .owned s d) (hm : b.mapping = none)
      (h : w.map D s = (.error e, w')) : Acquired D b w (.error (.allocation .mapStorage e)) b w'
  | lent {d a} (hb : b.backing = .borrowed d (some a)) : Acquired D b w (.ok a) (b.retain a) w
  | refused {d} (hb : b.backing = .borrowed d none) :
      Acquired D b w (.error (.invalidArgument .noCpuStorage)) b w

theorem acquired {D : Driver σ ι} {b b' : BufferObject} {w w' : World σ}
    {r : Except Error Address} (h : b.acquire D w = (r, b', w')) : Acquired D b w r b' w' := by
  rw [acquire] at h
  split at h
  · next hb hm =>
    obtain ⟨rfl, rfl, rfl⟩ := h
    exact .again hb hm
  · next hb hm =>
    split at h
    · next hw =>
      obtain ⟨rfl, rfl, rfl⟩ := h
      exact .first hb hm hw
    · next hw =>
      obtain ⟨rfl, rfl, rfl⟩ := h
      exact .failed hb hm hw
  · next hb =>
    obtain ⟨rfl, rfl, rfl⟩ := h
    exact .lent hb
  · next hb =>
    obtain ⟨rfl, rfl, rfl⟩ := h
    exact .refused hb

/-- Whoever acquires an object holds a reference to it. -/
theorem acquire_retains {D : Driver σ ι} {b b' : BufferObject} {w w' : World σ} {a : Address}
    (h : b.acquire D w = (.ok a, b', w')) : b' = b.retain a := by
  cases acquired h <;> rfl

/-- The outcomes of giving a reference back. The driver takes part only in the last return of a
reference to owned storage. -/
inductive Released (D : Driver σ ι) (b : BufferObject) (w : World σ) :
    BufferObject → World σ → Prop
  | idle (hm : b.mapping = none) : Released D b w b w
  | unmapped {s d a} (hb : b.backing = .owned s d) (hm : b.mapping = some a)
      (hr : b.references ≤ 1) :
      Released D b w { b with mapping := none, references := 0 } (w.unmap D s a)
  | returned {d x a} (hb : b.backing = .borrowed d x) (hm : b.mapping = some a)
      (hr : b.references ≤ 1) : Released D b w { b with mapping := none, references := 0 } w
  | kept {a} (hm : b.mapping = some a) (hr : 1 < b.references) :
      Released D b w { b with references := b.references - 1 } w

theorem released (D : Driver σ ι) (b : BufferObject) (w : World σ) :
    Released D b w (b.release D w).1 (b.release D w).2 := by
  cases hm : b.mapping with
  | none =>
    have h : b.release D w = (b, w) := by simp [release, hm]
    rw [h]
    exact .idle hm
  | some a =>
    by_cases hr : b.references ≤ 1
    · have hz : b.references - 1 = 0 := by omega
      cases hb : b.backing with
      | owned s d =>
        have h : b.release D w = ({ b with mapping := none, references := 0 }, w.unmap D s a) := by
          simp [release, hm, hz, hb]
        rw [h]
        exact .unmapped hb hm hr
      | borrowed d x =>
        have h : b.release D w = ({ b with mapping := none, references := 0 }, w) := by
          simp [release, hm, hz, hb]
        rw [h]
        exact .returned hb hm hr
    · have hz : b.references - 1 ≠ 0 := by omega
      have h : b.release D w = ({ b with references := b.references - 1 }, w) := by
        simp [release, hm, hz]
      rw [h]
      exact .kept hm (by omega)

/-- An unmapped object over storage that was allocated for it. -/
def ofStorage (id : BufferId) (width height : UInt32) (format : PixelFormat) (s : Storage)
    (d : Dmabuf) : BufferObject where
  id := id
  width := width
  height := height
  format := format.code
  planes := [⟨s.handle, s.stride⟩]
  byteSize := rowBytes s.stride s.height
  backing := .owned s d
  mapping := none
  references := 0
  locked := false

/-- The outcomes of creation, by the last call that was made. -/
inductive Created (D : Driver σ ι) (width height : UInt32) (code : FormatCode) (usage : Usage)
    (w : World σ) : Except Error BufferObject → World σ → Prop
  | unsupported (hf : PixelFormat.ofCode? code = none) :
      Created D width height code usage w (.error (.invalidArgument .unsupportedFormat)) w
  | notAllocated {format e w₁} (hf : PixelFormat.ofCode? code = some format)
      (ha : w.allocate D (.ofUsage usage) width height format = (.error e, w₁)) :
      Created D width height code usage w (.error (.allocation .allocateStorage e)) w₁
  | notExported {format s e w₁ w₂} (hf : PixelFormat.ofCode? code = some format)
      (ha : w.allocate D (.ofUsage usage) width height format = (.ok s, w₁))
      (he : w₁.hold.exportHandle D s.handle .closeOnExec = (.error e, w₂)) :
      Created D width height code usage w (.error (.allocation .exportHandle e))
        ((w₂.release D s).letGo D)
  | unmapped {format s d w₁ w₂} (hf : PixelFormat.ofCode? code = some format)
      (ha : w.allocate D (.ofUsage usage) width height format = (.ok s, w₁))
      (he : w₁.hold.exportHandle D s.handle .closeOnExec = (.ok d, w₂))
      (hu : usage.contains .write = false) :
      Created D width height code usage w (.ok (ofStorage w₂.freshId.1 width height format s d))
        w₂.freshId.2.hold
  | mapped {format s d a w₁ w₂ w₃} (hf : PixelFormat.ofCode? code = some format)
      (ha : w.allocate D (.ofUsage usage) width height format = (.ok s, w₁))
      (he : w₁.hold.exportHandle D s.handle .closeOnExec = (.ok d, w₂))
      (hu : usage.contains .write = true) (hm : w₂.freshId.2.hold.map D s = (.ok a, w₃)) :
      Created D width height code usage w
        (.ok ((ofStorage w₂.freshId.1 width height format s d).retain a)) w₃
  | notMapped {format s d e w₁ w₂ w₃} (hf : PixelFormat.ofCode? code = some format)
      (ha : w.allocate D (.ofUsage usage) width height format = (.ok s, w₁))
      (he : w₁.hold.exportHandle D s.handle .closeOnExec = (.ok d, w₂))
      (hu : usage.contains .write = true) (hm : w₂.freshId.2.hold.map D s = (.error e, w₃)) :
      Created D width height code usage w (.error (.allocation .mapStorage e))
        ((((w₃.letGo D).close d).release D s).letGo D)

theorem created {D : Driver σ ι} {width height : UInt32} {code : FormatCode} {usage : Usage}
    {w w' : World σ} {r : Except Error BufferObject}
    (h : create D width height code usage w = (r, w')) :
    Created D width height code usage w r w' := by
  rw [create] at h
  split at h
  · next hf =>
    obtain ⟨rfl, rfl⟩ := h
    exact .unsupported hf
  next format hf =>
  split at h
  · next ha =>
    obtain ⟨rfl, rfl⟩ := h
    exact .notAllocated hf ha
  next s w₁ ha =>
  split at h
  · next he =>
    obtain ⟨rfl, rfl⟩ := h
    exact .notExported hf ha he
  next d w₂ he =>
  cases hu : usage.contains .write with
  | false =>
    simp only [hu, Bool.false_eq_true, if_false] at h
    obtain ⟨rfl, rfl⟩ := h
    exact .unmapped hf ha he hu
  | true =>
    simp only [hu, if_true] at h
    split at h
    · next hq =>
      obtain ⟨rfl, rfl⟩ := h
      cases acquired hq with
      | again hb hm => cases hm
      | first hb hm hw =>
        obtain ⟨rfl, rfl⟩ := Backing.owned.inj hb
        exact .mapped hf ha he hu hw
      | lent hb => cases hb
    · next hq =>
      obtain ⟨rfl, rfl⟩ := h
      cases acquired hq with
      | failed hb hm hw =>
        obtain ⟨rfl, rfl⟩ := Backing.owned.inj hb
        exact .notMapped hf ha he hu hw
      | refused hb => cases hb

/-- The outcomes of making another descriptor. -/
inductive Shared (D : Driver σ ι) (b : BufferObject) (w : World σ) :
    Except Error Dmabuf → World σ → Prop
  | nothing (hn : b.handle.isNull = true) (hd : b.descriptor? = none) :
      Shared D b w (.error (.invalidArgument .noKernelHandle)) w
  | duplicated {d d' w'} (hn : b.handle.isNull = true) (hd : b.descriptor? = some d)
      (h : w.duplicate D d = (.ok d', w')) : Shared D b w (.ok d') w'
  | notDuplicated {d e w'} (hn : b.handle.isNull = true) (hd : b.descriptor? = some d)
      (h : w.duplicate D d = (.error e, w')) :
      Shared D b w (.error (.allocation .duplicateDescriptor e)) w'
  | exported {d w'} (hn : b.handle.isNull = false)
      (h : w.exportHandle D b.handle .closeOnExec = (.ok d, w')) : Shared D b w (.ok d) w'
  | notExported {e w'} (hn : b.handle.isNull = false)
      (h : w.exportHandle D b.handle .closeOnExec = (.error e, w')) :
      Shared D b w (.error (.allocation .exportHandle e)) w'

theorem shared {D : Driver σ ι} {b : BufferObject} {w w' : World σ} {r : Except Error Dmabuf}
    (h : b.share D w = (r, w')) : Shared D b w r w' := by
  rw [share] at h
  split at h
  · next hn =>
    split at h
    · next hd =>
      obtain ⟨rfl, rfl⟩ := h
      exact .nothing hn hd
    · next hd =>
      split at h
      · next hw =>
        obtain ⟨rfl, rfl⟩ := h
        exact .duplicated hn hd hw
      · next hw =>
        obtain ⟨rfl, rfl⟩ := h
        exact .notDuplicated hn hd hw
  · next hn =>
    have hn : b.handle.isNull = false := by simpa using hn
    split at h
    · next hw =>
      obtain ⟨rfl, rfl⟩ := h
      exact .exported hn hw
    · next hw =>
      obtain ⟨rfl, rfl⟩ := h
      exact .notExported hn hw

end DisplayBuffers.BufferObject
