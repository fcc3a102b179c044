import DisplayBuffers.Proofs.SessionEstate

/-! The references to a driver. As many are counted as are held: one by the device, one by each
surface and one by each buffer object, and one more by the storage that an object owns. -/
namespace DisplayBuffers
variable {σ ι : Type} {D : Driver σ ι}

/-- Whether a reference to the driver goes with what has to be given back. -/
def Holding.refers : Holding → Bool
  | .storage _ _ | .reference => true
  | .descriptor _ => false

/-- How many references to the driver are among what is held. -/
def references (H : Multiset Holding) : Nat := H.countP (·.refers = true)

section
variable (H G : Multiset Holding)

@[simp] theorem references_add : references (H + G) = references H + references G :=
  Multiset.countP_add _ _ _

@[simp] theorem references_storage (s : Storage) (m : Option Address) :
    references (.storage s m ::ₘ H) = references H + 1 := Multiset.countP_cons_of_pos _ rfl

@[simp] theorem references_reference : references (.reference ::ₘ H) = references H + 1 :=
  Multiset.countP_cons_of_pos _ rfl

@[simp] theorem references_descriptor (d : Dmabuf) :
    references (.descriptor d ::ₘ H) = references H :=
  Multiset.countP_cons_of_neg _ (by simp [Holding.refers])

@[simp] theorem references_descriptors (H : Multiset Dmabuf) :
    references (H.map .descriptor) = 0 := by
  induction H using Multiset.induction_on with
  | empty => rfl
  | cons d H ih => rw [Multiset.map_cons, references_descriptor, ih]

@[simp] theorem references_replicate (n : Nat) : references (.replicate n .reference) = n := by
  induction n with
  | zero => rfl
  | succ n ih => rw [Multiset.replicate_succ, references_reference, ih]

end

theorem references_pos {H : Multiset Holding} (h : .reference ∈ H) : 0 < references H :=
  Multiset.countP_pos.mpr ⟨_, h, rfl⟩

/-- A world counts the references that somebody holds. -/
def Counted (x : Multiset Holding × World σ) : Prop := x.2.holders = references x.1

/-- References are made and given up by those who hold one. -/
theorem Move.counted {x y : Multiset Holding × World σ} (h : Move D x y) (hx : Counted x) :
    Counted y := by
  unfold Counted at hx ⊢
  cases h with
  | allocated h =>
    obtain ⟨-, -, rfl⟩ := World.allocate_ok h
    simpa using hx
  | notAllocated hr h =>
    rw [World.allocate_error h]
    exact hx
  | mapped h | notMapped h =>
    rw [World.map_eq h]
    simpa using hx
  | @unmapped H w s a =>
    obtain ⟨r, warnings, hw⟩ := w.unmap_eq D s a
    rw [hw]
    simpa using hx
  | @released H w s =>
    obtain ⟨r, warnings, hw⟩ := w.release_eq D s
    rw [hw]
    simpa using hx
  | exported hr h =>
    rw [World.exportHandle_ok h]
    simpa using hx
  | notExported hr h =>
    rw [World.exportHandle_error h]
    exact hx
  | duplicated hr hd h =>
    obtain ⟨rfl, rfl⟩ := World.duplicate_ok h
    simpa using hx
  | notDuplicated hr hd h =>
    rw [World.duplicate_error h]
    exact hx
  | closed =>
    rw [references_descriptor] at hx
    exact hx
  | joined hr =>
    simpa using hx
  | @left H w =>
    have hx : w.holders = references H + 1 := by simpa using hx
    simp [hx]
  | _ => exact hx

theorem BufferObject.references_holdings (b : BufferObject) :
    DisplayBuffers.references b.holdings = b.driverReferences := by
  cases hb : b.backing with
  | owned s d =>
    rw [holdings_owned hb, references_reference, references_storage, driverReferences, hb]
    rfl
  | borrowed d a =>
    rw [holdings_borrowed hb, references_reference, driverReferences, hb]
    cases d <;> rfl

theorem BufferObject.driverReferences_pos (b : BufferObject) : 0 < b.driverReferences := by
  rw [driverReferences]
  split <;> decide

/-- The references that live objects hold. -/
def objectReferences (L : Multiset (Place × BufferObject)) : Nat :=
  references (L.bind (·.2.holdings))

theorem objectReferences_cons (x : Place × BufferObject) (L : Multiset (Place × BufferObject)) :
    objectReferences (x ::ₘ L) = x.2.driverReferences + objectReferences L := by
  rw [objectReferences, Multiset.cons_bind, references_add, BufferObject.references_holdings,
    objectReferences]

theorem objectReferences_add (L M : Multiset (Place × BufferObject)) :
    objectReferences (L + M) = objectReferences L + objectReferences M := by
  rw [objectReferences, Multiset.add_bind, references_add, objectReferences, objectReferences]

theorem Surface.placed_references {x : Surface} {i : Nat} {b : BufferObject}
    (h : x.slot? i = some b) : b.driverReferences ≤ objectReferences x.placed := by
  rw [placed_of_slot? h, objectReferences_cons]
  exact Nat.le_add_right ..

namespace Session
variable {s : Session σ}

/-- As many references to the driver are counted as the device, the surfaces and the objects
hold. -/
def Counted (s : Session σ) : Prop := s.world.holders = s.users + objectReferences s.live

theorem counted_iff : s.Counted ↔ DisplayBuffers.Counted (s.estate.holdings, s.world) := by
  rw [DisplayBuffers.Counted, Estate.holdings, references_add, references_add,
    references_descriptors, references_replicate, Nat.add_zero, Nat.add_comm]
  rfl

theorem start_counted (d : σ) : (start d).Counted := rfl

theorem supplied_counted (hs : s.Counted) (op : Op ι) :
    DisplayBuffers.Counted ((s.supplied D op).holdings, (s.supplied D op).world) := by
  rw [counted_iff] at hs
  cases op with
  | receive name =>
    rw [supplied, Estate.holdings_held_cons]
    exact hs.trans (references_descriptor _ _).symm
  | _ => exact hs

theorem step_counted (hs : s.Counted) (op : Op ι) : (s.step D op).2.Counted :=
  counted_iff.mpr ((step_changes s op).moves.keeps (fun _ _ => Move.counted)
    (supplied_counted hs op))

/-- In every run as many references to the driver are counted as are held. -/
theorem run_counted (hs : s.Counted) (ops : List (Op ι)) : (s.run D ops).2.Counted := by
  induction ops generalizing s with
  | nil => exact hs
  | cons op ops ih => exact ih (step_counted hs op)

namespace Counted

theorem object (h : s.Counted) {name : String} {b : BufferObject}
    (hb : s.objects.find? name = some b) :
    s.device.toNat + b.driverReferences ≤ s.world.holders := by
  have hlive := congrArg objectReferences (live_of_object hb)
  rw [objectReferences_cons] at hlive
  dsimp only at hlive
  rw [h, hlive, users]
  omega

theorem surface (h : s.Counted) {name : String} {x : Surface}
    (hx : s.surfaces.find? name = some x) :
    s.device.toNat + 1 + objectReferences x.placed ≤ s.world.holders := by
  rw [h, live_of_surface hx, users_of_surface hx, objectReferences_add]
  omega

/-- Somebody holds the driver for as long as the device, an object or a surface is left. -/
theorem alive (h : s.Counted) : 0 < s.world.holders ↔ s.device = true ∨
    (∃ name b, s.objects.find? name = some b) ∨ ∃ surface x, s.surfaces.find? surface = some x := by
  constructor
  · intro hpos
    rw [Table.exists_find?_iff, Table.exists_find?_iff]
    by_contra hn
    obtain ⟨hd, ho, hs⟩ : s.device ≠ true ∧ s.objects.values = 0 ∧ s.surfaces.values = 0 := by
      simpa only [not_or, not_not] using hn
    have hlive : s.live = 0 := by rw [live, ho, hs]; rfl
    rw [h, users, hs, hlive, Bool.eq_false_of_not_eq_true hd] at hpos
    exact hpos.ne rfl
  · rintro (hd | ⟨name, b, hb⟩ | ⟨surface, x, hx⟩)
    · rw [h, users_of_device hd]
      omega
    · exact b.driverReferences_pos.trans_le ((Nat.le_add_left ..).trans (h.object hb))
    · have hx := h.surface hx
      omega

end Counted
end Session
end DisplayBuffers
