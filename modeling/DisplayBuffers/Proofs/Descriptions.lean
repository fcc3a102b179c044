import DisplayBuffers.Proofs.CallsAtTarget
import DisplayBuffers.Proofs.Construction
import DisplayBuffers.Proofs.Origins
import DisplayBuffers.Proofs.PlaneImport

/-! What buffer objects tell about themselves. Whichever way an object is made, it has one to three
planes and as many bytes as its first plane and its rows make up. Nothing that is done with it
afterwards makes a difference to what it tells. -/
namespace DisplayBuffers
variable {σ ι : Type} {D : Driver σ ι}

namespace BufferObject

/-- How many rows the bytes of a buffer object make up. Of storage that was allocated there may be
more rows than the object shows. -/
def rows (b : BufferObject) : UInt32 :=
  match b.backing with
  | .owned s _ => s.height
  | .borrowed _ _ => b.height

/-- What is settled when a buffer object is made. -/
structure WellFormed (b : BufferObject) : Prop where
  nonempty : 1 ≤ b.planeCount
  few : b.planeCount ≤ maxPlanes
  sized : b.byteSize = rowBytes b.stride b.rows

theorem WellFormed.used {b : BufferObject} (h : b.WellFormed) (m : Option Address) (r : Nat)
    (l : Bool) : WellFormed { b with mapping := m, references := r, locked := l } :=
  ⟨h.nonempty, h.few, h.sized⟩

theorem wellFormed_ofStorage (id : BufferId) (width height : UInt32) (format : PixelFormat)
    (s : Storage) (d : Dmabuf) : (ofStorage id width height format s d).WellFormed :=
  ⟨Nat.le_refl 1, Nat.le_add_right 1 2, rfl⟩

theorem wellFormed_borrow {planes : List Plane} (hn : 1 ≤ planes.length)
    (hf : planes.length ≤ maxPlanes) (width height : UInt32) (format : FormatCode)
    (descriptor : Option Dmabuf) (address : Option Address) (w : World σ) :
    (borrow width height format planes descriptor address w).1.WellFormed :=
  ⟨hn, hf, rfl⟩

theorem wellFormed_borrow_one (width height : UInt32) (format : FormatCode) (p : Plane)
    (descriptor : Option Dmabuf) (address : Option Address) (w : World σ) :
    (borrow width height format [p] descriptor address w).1.WellFormed :=
  ⟨Nat.le_refl 1, Nat.le_add_right 1 2, rfl⟩

theorem wellFormed_create {width height : UInt32} {code : FormatCode} {usage : Usage}
    {w w' : World σ} {b : BufferObject} (h : create D width height code usage w = (.ok b, w')) :
    b.WellFormed := by
  cases created h with
  | unmapped => exact wellFormed_ofStorage ..
  | mapped => exact (wellFormed_ofStorage ..).used ..

/-- Of the planes that a sharing layer lists, there is no account unless there are several. -/
theorem wellFormed_importFrom {source : ImportSource Dmabuf} {w w' : World σ} {b : BufferObject}
    (h : importFrom D source w = (.ok b, w')) : b.WellFormed := by
  cases source with
  | external r =>
    simp only [importFrom, importExternal] at h
    split at h
    · cases h
    split at h
    · cases h
    · next r hfew =>
      obtain ⟨rfl, rfl⟩ := h
      split
      · next hn => exact wellFormed_borrow hn.le (Nat.le_of_not_lt hfew) ..
      · exact wellFormed_borrow_one ..
  | descriptor d width height stride format =>
    simp only [importFrom] at h
    split at h
    · cases h
    · obtain ⟨rfl, rfl⟩ := h
      exact wellFormed_borrow_one ..
  | planes ds strides width height format modifier =>
    simp only [importFrom, importPlanes] at h
    split at h
    · cases h
    split at h
    · cases h
    next hcount =>
    split at h
    · cases h
    next hl =>
    split at h
    · next hp =>
      have hlength := convertPlanes_length (of_not_not hl) hp
      obtain ⟨rfl, rfl⟩ := h
      refine wellFormed_borrow ?_ ?_ .. <;> rw [hlength] <;> omega
    · cases h

/-- What a buffer object tells about its planes and its size fits together. -/
structure Coherent (b : BufferObject) : Prop where
  count : 1 ≤ b.planeCount ∧ b.planeCount ≤ 3
  inside : ∀ i (h : i < b.planeCount),
    b.planeStride i = .ok (b.planes.get ⟨i, h⟩).stride ∧
    b.planeHandle i = .ok (b.planes.get ⟨i, h⟩).handle ∧ b.planeOffset i = .ok 0
  outside : ∀ i, b.planeCount ≤ i →
    b.planeStride i = .error (.invalidArgument .planeIndexOutOfRange) ∧
    b.planeHandle i = .error (.invalidArgument .planeIndexOutOfRange) ∧
    b.planeOffset i = .error (.invalidArgument .planeIndexOutOfRange)
  first : b.planeStride 0 = .ok b.stride ∧ b.planeHandle 0 = .ok b.handle
  size : match b.backing with
    | .owned s _ => b.byteSize = b.stride.toNat * s.height.toNat
    | .borrowed _ _ => b.byteSize = b.stride.toNat * b.height.toNat

theorem plane_of_lt {b : BufferObject} {i : Nat} (h : i < b.planeCount) :
    b.plane i = .ok (b.planes.get ⟨i, h⟩) := by
  rw [plane, List.getElem?_eq_getElem h]
  rfl

theorem plane_of_le {b : BufferObject} {i : Nat} (h : b.planeCount ≤ i) :
    b.plane i = .error (.invalidArgument .planeIndexOutOfRange) := by
  rw [plane, List.getElem?_eq_none h]

theorem WellFormed.coherent {b : BufferObject} (h : b.WellFormed) : b.Coherent where
  count := ⟨h.nonempty, h.few⟩
  inside i hi := by
    simp only [planeStride, planeHandle, planeOffset, plane_of_lt hi]
    exact ⟨rfl, rfl, rfl⟩
  outside i hi := by
    simp only [planeStride, planeHandle, planeOffset, plane_of_le hi]
    exact ⟨rfl, rfl, rfl⟩
  first := by
    obtain ⟨p, ps, hp⟩ := List.exists_cons_of_length_pos h.nonempty
    simp only [planeStride, planeHandle, plane, stride, handle, hp]
    exact ⟨rfl, rfl⟩
  size := by
    have hs := h.sized
    rw [rows, rowBytes] at hs
    split <;> simp [*]

end BufferObject

theorem Made.wellFormed {b : BufferObject} (h : Made D b) : b.WellFormed := by
  cases h with
  | created h => exact BufferObject.wellFormed_create h
  | imported h => exact BufferObject.wellFormed_importFrom h
  | installed x y w =>
    exact BufferObject.wellFormed_borrow_one ..

namespace Session

theorem wellFormed (D : Driver σ ι) (d : σ) (ops : List (Op ι)) {t : Target} {b : BufferObject}
    (h : ((start d).run D ops).2.object? t = some b) : b.WellFormed :=
  objects_keep (fun _ hm => hm.wellFormed) (fun _ m r l hb => hb.used m r l) d ops h

theorem allocation_of_owned (D : Driver σ ι) (d : σ) (ops : List (Op ι)) {t : Target}
    {b : BufferObject} {x : Storage} {f : Dmabuf}
    (hb : ((start d).run D ops).2.object? t = some b) (hx : b.backing = .owned x f) :
    b.planes = [⟨x.handle, x.stride⟩] ∧ ∃ usage format,
      .allocate (.ofUsage usage) b.width b.height format (.ok x) ∈
        ((start d).run D ops).2.world.events := by
  obtain ⟨p, hp⟩ := live_of_object? hb
  cases origin_of_live D d ops _ hp with
  | created hb' hplanes hsize hcalls =>
    obtain ⟨rfl, rfl⟩ := Backing.owned.inj (hx.symm.trans hb')
    exact ⟨hplanes, _, _, hcalls.subset List.mem_cons_self⟩
  | imported hb' => cases hx.symm.trans hb'
  | installed hb' => cases hx.symm.trans hb'

/-- Buffer objects describe themselves coherently, and always in the same way. The storage that one
owns was allocated for it with its size; while it is used, and as long as nothing else can take its
place, only its mapping, its references and its lock change; and whatever has its number later on
is the same object in the same place. -/
theorem descriptions_settled (D : Driver σ ι) (d : σ) (ops : List (Op ι)) :
    let s := ((start d).run D ops).2
    (∀ t b, s.object? t = some b → b.Coherent) ∧
    (∀ t b x f, s.object? t = some b → b.backing = .owned x f →
      b.planes = [⟨x.handle, x.stride⟩] ∧ ∃ usage format,
        .allocate (.ofUsage usage) b.width b.height format (.ok x) ∈ s.world.events) ∧
    (∀ t b w b' w', s.object? t = some b → Use D b w b' w' →
      b'.Coherent ∧ ∃ m r, b' = { b with mapping := m, references := r }) ∧
    (∀ t b op, s.object? t = some b → ¬ op.Renews t → ∃ m r l,
      (s.step D op).2.object? t = some { b with mapping := m, references := r, locked := l }) ∧
    ∀ t b later t' b', s.object? t = some b → (s.run D later).2.object? t' = some b' →
      b'.id = b.id → t' = t ∧
        ∃ m r l, b' = { b with mapping := m, references := r, locked := l } := by
  intro s
  have hs : s.Apart := (apart_start d).run ops
  have hw {t : Target} {b : BufferObject} (hb : s.object? t = some b) : b.WellFormed :=
    wellFormed D d ops hb
  refine ⟨fun t b hb => (hw hb).coherent, fun t b x f => allocation_of_owned D d ops, ?_, ?_, ?_⟩
  · intro t b w b' w' hb hu
    obtain ⟨m, r, rfl⟩ := hu.same
    exact ⟨((hw hb).used m r b.locked).coherent, m, r, rfl⟩
  · intro t b op hb hr
    obtain ⟨m, r, l, hl⟩ := leaves_same (D := D) s op t b
    rw [object?_step_of_not_renews s hr, hb, Option.map_some, hl]
    exact ⟨m, r, l, rfl⟩
  · exact fun t b later t' b' hb hb' hid => hs.endures hb hb' hid

end Session
end DisplayBuffers
