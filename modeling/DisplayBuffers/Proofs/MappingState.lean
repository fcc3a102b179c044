import DisplayBuffers.Proofs.Buffer

/-! The mapping of one buffer object against the references to it. An object is mapped just while
references are held; who holds a reference and gives it back leaves the object as it was. -/
namespace DisplayBuffers.BufferObject
variable {σ ι : Type} {D : Driver σ ι} {b b' : BufferObject} {w w' : World σ}

/-- The mapping is there while references are held. That of borrowed storage is at the address that
came with the storage. -/
structure Counted (b : BufferObject) : Prop where
  mapped : b.isMapped = true ↔ 0 < b.references
  lent : ∀ {d a}, b.backing = .borrowed d a → b.isMapped = true → b.mapping = a

theorem Counted.references_eq_zero (h : b.Counted) (hm : b.mapping = none) : b.references = 0 := by
  have hn : b.isMapped = false := by simp [isMapped, hm]
  have := h.mapped
  rw [hn] at this
  simpa using this

theorem Counted.pos (h : b.Counted) {a : Address} (hm : b.mapping = some a) :
    0 < b.references :=
  h.mapped.mp (by simp [isMapped, hm])

theorem Counted.mapping_eq_none_iff (h : b.Counted) : b.mapping = none ↔ b.references = 0 := by
  constructor
  · exact h.references_eq_zero
  · intro hr
    cases hm : b.mapping with
    | none => rfl
    | some a =>
      have := h.pos hm
      omega

theorem counted_of_unmapped (hm : b.mapping = none) (hr : b.references = 0) : b.Counted where
  mapped := by simp [isMapped, hm, hr]
  lent _ h := by simp [isMapped, hm] at h

/-- A reference that was taken is counted, and the mapping is at the address that was answered. -/
theorem Counted.acquire_ok (h : b.Counted) {a : Address} (ha : b.acquire D w = (.ok a, b', w')) :
    b'.Counted ∧ b'.references = b.references + 1 ∧ b'.mapping = some a ∧
      (0 < b.references → b.mapping = some a) := by
  have howned {s d} (hb : b.backing = .owned s d) : (b.retain a).Counted :=
    ⟨by simp [isMapped, retain], fun hb' _ => by cases hb.symm.trans hb'⟩
  cases acquired ha with
  | again hb hm => exact ⟨howned hb, rfl, rfl, fun _ => hm⟩
  | first hb hm hw =>
    refine ⟨howned hb, rfl, rfl, fun hr => ?_⟩
    rw [h.references_eq_zero hm] at hr
    cases hr
  | lent hb =>
    refine ⟨⟨by simp [isMapped, retain], ?_⟩, rfl, rfl, fun hr => h.lent hb (h.mapped.mpr hr)⟩
    intro d' a' hb' _
    obtain ⟨_, rfl⟩ := Backing.borrowed.inj (hb.symm.trans hb')
    rfl

/-- A reference that could not be taken leaves no trace on the object. -/
theorem acquire_error {e : Error} (ha : b.acquire D w = (.error e, b', w')) : b' = b := by
  cases acquired ha <;> rfl

theorem Counted.release (h : b.Counted) (D : Driver σ ι) (w : World σ) :
    (b.release D w).1.Counted ∧ (b.release D w).1.references = b.references - 1 ∧
      (1 < b.references → (b.release D w).1.mapping = b.mapping) := by
  have hr := released D b w
  generalize (b.release D w).1 = b', (b.release D w).2 = w' at hr ⊢
  cases hr with
  | idle hm =>
    have := h.references_eq_zero hm
    exact ⟨h, by omega, fun _ => rfl⟩
  | unmapped hb hm hr => exact ⟨counted_of_unmapped rfl rfl, by simp; omega, fun _ => by omega⟩
  | returned hb hm hr => exact ⟨counted_of_unmapped rfl rfl, by simp; omega, fun _ => by omega⟩
  | kept hm hr =>
    refine ⟨⟨?_, ?_⟩, rfl, fun _ => rfl⟩
    · have : 0 < b.references - 1 := by omega
      simp [isMapped, hm, this]
    · intro d a hb hmapped
      exact h.lent hb hmapped

/-- The reference that was taken last is given back as if it had not been taken. -/
theorem Counted.release_acquired (h : b.Counted) {a : Address}
    (ha : b.acquire D w = (.ok a, b', w')) (w'' : World σ) : (b'.release D w'').1 = b := by
  have hfirst (hm : b.mapping = none) : ((b.retain a).release D w'').1 = b := by
    have hz := h.references_eq_zero hm
    cases b
    simp_all [retain, BufferObject.release]
  have hagain (hm : b.mapping = some a) : ((b.retain a).release D w'').1 = b := by
    have hp := h.pos hm
    cases b
    simp_all [retain, BufferObject.release, Nat.pos_iff_ne_zero]
  cases acquired ha with
  | again hb hm => exact hagain hm
  | first hb hm hw => exact hfirst hm
  | lent hb =>
    cases hm : b.mapping with
    | none => exact hfirst hm
    | some a' => exact hagain (h.lent hb (by simp [isMapped, hm]))

/-- Accesses during a mapping leave the object as it was, whether it can be mapped or not. -/
theorem Counted.withMapping (h : b.Counted) (D : Driver σ ι) (accesses : List Access)
    (w : World σ) : (b.withMapping D accesses w).2.1 = b := by
  rw [BufferObject.withMapping]
  rcases ha : b.acquire D w with ⟨e | a, b', w'⟩
  · exact acquire_error ha
  · exact h.release_acquired ha _

end DisplayBuffers.BufferObject
