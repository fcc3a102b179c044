import DisplayBuffers.Device
import DisplayBuffers.Proofs.Imports
import DisplayBuffers.Proofs.MappingState
import DisplayBuffers.Proofs.SlotStates

/-! What every way of making a buffer object has in common: the object has nothing that another one
has, and the number of references it begins with is known. -/
namespace DisplayBuffers
variable {σ ι : Type} {D : Driver σ ι}

/-- The key of the storage that was allocated for a buffer object, if any was. -/
def BufferObject.key? (b : BufferObject) : Option Nat :=
  match b.backing with
  | .owned storage _ => some storage.key
  | .borrowed _ _ => none

theorem BufferObject.key?_eq_some {b : BufferObject} {k : Nat} :
    b.key? = some k ↔ ∃ s d, b.backing = .owned s d ∧ s.key = k := by
  unfold key?
  cases b.backing <;> simp

/-- A new object of which others can tell that it is new: neither its number nor the key of its
storage was given out before. The storage that it borrows is not a driver's. -/
structure Newborn (w : World σ) (b : BufferObject) (w' : World σ) : Prop extends Fresh w b w' where
  stored : ∀ k, b.key? = some k → w.allocations ≤ k ∧ k < w'.allocations
  lent : ∀ d a, b.backing = .borrowed d (some a) → ∃ k, a = .client k
  counted : b.Counted

theorem Newborn.mono {w₀ w₁ w₂ w₃ : World σ} {b : BufferObject} (h : Newborn w₁ b w₂)
    (h₀ : w₀.Advances w₁) (h₂ : w₂.Advances w₃) : Newborn w₀ b w₃ where
  above := h₀.identities.trans h.above
  below := h.below.trans_le h₂.identities
  unlocked := h.unlocked
  stored k hb :=
    ⟨h₀.allocations.trans (h.stored k hb).1, (h.stored k hb).2.trans_le h₂.allocations⟩
  lent := h.lent
  counted := h.counted

theorem Usage.contains_union_right (u v : Usage) : (u.union v).contains v = true := by
  have h : (u.bits ||| v.bits) &&& v.bits = v.bits := by
    apply UInt32.eq_of_toBitVec_eq
    ext i
    simp
    grind
  simp [contains, union, h]

namespace BufferObject

private theorem newborn_ofStorage {w w' : World σ} {b : BufferObject} (hf : Fresh w b w')
    {s : Storage} {d : Dmabuf} (hb : b.backing = .owned s d) (hs : s.key = w.allocations)
    (hw : w'.allocations = w.allocations + 1) (hc : b.isMapped = true ↔ 0 < b.references) :
    Newborn w b w' where
  toFresh := hf
  counted := ⟨hc, fun hb' _ => by cases hb.symm.trans hb'⟩
  stored k hk := by
    obtain ⟨s', d', hb', rfl⟩ := key?_eq_some.mp hk
    obtain ⟨rfl, rfl⟩ := Backing.owned.inj (hb.symm.trans hb')
    omega
  lent d' a hb' := by
    rw [hb] at hb'
    cases hb'

/-- A created object is mapped once if the cpu is going to write. -/
theorem create_newborn {width height : UInt32} {code : FormatCode} {usage : Usage}
    {w w' : World σ} {b : BufferObject}
    (h : create D width height code usage w = (.ok b, w')) :
    Newborn w b w' ∧ b.references = if usage.contains .write then 1 else 0 := by
  have hf := create_fresh h
  cases created h with
  | unmapped hc ha he hu =>
    obtain ⟨hk, _, rfl⟩ := World.allocate_ok ha
    rw [World.exportHandle_ok he] at hf ⊢
    exact ⟨newborn_ofStorage hf rfl hk rfl (by simp [isMapped, ofStorage]),
      by simp [hu, ofStorage]⟩
  | mapped hc ha he hu hm =>
    obtain ⟨hk, _, rfl⟩ := World.allocate_ok ha
    rw [World.exportHandle_ok he] at hm
    rw [World.map_eq hm] at hf ⊢
    exact ⟨newborn_ofStorage hf rfl hk rfl (by simp [isMapped, ofStorage, retain]),
      by simp [hu, ofStorage, retain]⟩

theorem borrow_newborn {width height : UInt32} {format : FormatCode} {planes : List Plane}
    {descriptor : Option Dmabuf} {address : Option Address} {w w₀ : World σ}
    (hw : w₀.Advances w) (ha : ∀ a, address = some a → ∃ k, a = .client k) :
    Newborn w₀ (borrow width height format planes descriptor address w).1
        (borrow width height format planes descriptor address w).2 ∧
      (borrow width height format planes descriptor address w).1.references = 0 ∧
      (borrow width height format planes descriptor address w).1.key? = none := by
  have hn : Newborn w (borrow width height format planes descriptor address w).1
      (borrow width height format planes descriptor address w).2 :=
    ⟨borrow_fresh rfl, nofun, fun d a hb => ha a (Backing.borrowed.inj hb).2,
      counted_of_unmapped rfl rfl⟩
  exact ⟨hn.mono hw (.refl _), rfl, rfl⟩

/-- An import converts the descriptors first, which gives out no numbers. -/
theorem importFrom_newborn {source : ImportSource Dmabuf} {w w' : World σ} {b : BufferObject}
    (h : importFrom D source w = (.ok b, w')) :
    Newborn w b w' ∧ b.references = 0 ∧ b.key? = none := by
  cases source with
  | external r =>
    simp only [importFrom, importExternal] at h
    split at h
    · cases h
    · split at h
      · cases h
      · obtain ⟨rfl, rfl⟩ := h
        exact borrow_newborn (.refl _) (by simp)
  | descriptor d width height stride format =>
    have ha : w.Advances (w.importDescriptor D d).2 :=
      ⟨List.prefix_append _ _, le_rfl, le_rfl⟩
    simp only [importFrom] at h
    split at h
    · cases h
    · next hw =>
      rw [hw] at ha
      obtain ⟨rfl, rfl⟩ := h
      exact borrow_newborn ha (by simp)
  | planes ds strides width height format modifier =>
    have ha := (convertPlanes_changes (D := D) (l := ds.zip strides) (n := 0) 0
      (H := (ds : Multiset Dmabuf)) (fun p hp => (List.of_mem_zip hp).1) w).moves.advances
    simp only [importFrom, importPlanes] at h
    split at h
    · cases h
    split at h
    · cases h
    split at h
    · cases h
    split at h
    · next hw =>
      rw [hw] at ha
      obtain ⟨rfl, rfl⟩ := h
      exact borrow_newborn ha (by simp)
    · cases h

end BufferObject

theorem Device.createBuffer_ok {width height : UInt32} {fourcc : Fourcc}
    {modifiers : List Modifier} {w w' : World σ} {b : BufferObject}
    (h : createBuffer D width height fourcc modifiers w = (.ok b, w')) :
    BufferObject.create D width height fourcc.code (Usage.scanout.union .rendering) w =
      (.ok b, w') := by
  unfold createBuffer at h
  split at h
  · exact h
  · split at h
    · exact h
    · cases h

namespace Surface
variable {x x' : Surface} {w w' : World σ} {i : Nat}

theorem replace_newborn {y : SlotBuffer} (hi : i < slotCount)
    (hy : ∀ a, y.address = some a → ∃ k, a = .client k)
    (h : x.replace D i (some y) w = (.ok (), x', w')) :
    ∃ b, x'.slot? i = some b ∧ Newborn w b w' ∧ b.references = 0 ∧ b.key? = none := by
  simp only [replace, hi, if_true, Prod.mk.injEq, true_and] at h
  obtain ⟨rfl, rfl⟩ := h
  exact ⟨_, (slot?_withSlot _ i i _).trans (if_pos ⟨rfl, hi⟩),
    BufferObject.borrow_newborn (clear_advances D x i w) hy⟩

theorem allocate_newborn {id : BufferId} (h : x.allocate D i w = (.ok id, x', w')) :
    ∃ b, b.id = id ∧ x'.slot? i = some b ∧ Newborn w b w' ∧ b.references = 1 := by
  by_cases hi : i < slotCount
  · simp only [allocate, hi, if_true] at h
    split at h
    · next b w₁ hb =>
      obtain ⟨hid, rfl, rfl⟩ := h
      obtain ⟨hn, hr⟩ := BufferObject.create_newborn hb
      rw [Usage.contains_union_right, if_pos rfl] at hr
      exact ⟨b, rfl, (slot?_withSlot _ i i _).trans (if_pos ⟨rfl, hi⟩),
        hn.mono (clear_advances D x i w) (.refl _), hr⟩
    · cases h
  · simp only [allocate, hi, if_false] at h
    cases h

end Surface
end DisplayBuffers
