import Mathlib.Data.List.ReduceOption
import DisplayBuffers.Proofs.Estate
import DisplayBuffers.Surface

/-! The slots of a surface: what each holds after an operation, the bag of all they hold, and the
operations of surfaces as changes to what the client owns. -/
namespace DisplayBuffers.Surface
variable {σ ι : Type}

theorem slot?_withSlot (x : Surface) (i j : Nat) (o : Option BufferObject) :
    (x.withSlot i o).slot? j = if i = j ∧ i < slotCount then o else x.slot? j := by
  unfold slot? withSlot
  rw [Vector.getElem?_setIfInBounds]
  by_cases hij : i = j
  · subst hij
    by_cases hi : i < slotCount
    · simp [hi]
    · simp [hi]
  · simp [hij]

theorem lt_of_slot? {x : Surface} {i : Nat} {b : BufferObject} (h : x.slot? i = some b) :
    i < slotCount := by
  by_contra hi
  rw [slot?, Vector.getElem?_eq_none (Nat.le_of_not_lt hi)] at h
  cases h

theorem slots_ext {x y : Vector (Option BufferObject) slotCount}
    (h : ∀ i : Nat, x[i]?.join = y[i]?.join) : x = y := by
  apply Vector.ext
  intro i hi
  simpa [hi] using h i

theorem withSlot_slot? (x : Surface) (i : Nat) : x.withSlot i (x.slot? i) = x := by
  have h : (x.withSlot i (x.slot? i)).slots = x.slots := by
    apply slots_ext
    intro j
    change (x.withSlot i (x.slot? i)).slot? j = x.slot? j
    rw [slot?_withSlot]
    split
    · next hij => rw [hij.1]
    · rfl
  cases x
  simpa [withSlot] using h

theorem withSlot_withSlot (x : Surface) (i : Nat) (o p : Option BufferObject) :
    (x.withSlot i o).withSlot i p = x.withSlot i p := by
  simp only [withSlot, Vector.setIfInBounds_setIfInBounds]

theorem create_empty {width height : UInt32} {code : FormatCode} {usage : Usage} {x : Surface}
    (h : create width height code usage = .ok x) :
    x.slots = .replicate slotCount none ∧ x.front = none := by
  simp only [create] at h
  split at h
  · cases h
  · obtain rfl := Except.ok.inj h
    exact ⟨rfl, rfl⟩

/-- A slot that is cleared was empty, or what it held is destroyed, after a warning if the display
holds on to it. -/
theorem clear_cases {σ ι : Type} (D : Driver σ ι) (x : Surface) (i : Nat) (w : World σ) :
    x.slot? i = none ∧ x.clear D i w = (x, w) ∨
    ∃ old, x.slot? i = some old ∧ x.clear D i w = (x.withSlot i none,
      old.destroy D (if old.locked then w.warn (.replacedLocked i old.id) else w)) := by
  cases h : x.slot? i with
  | none => exact .inl ⟨rfl, by simp only [clear, h]⟩
  | some old => exact .inr ⟨old, rfl, by simp only [clear, h]⟩

theorem clear_surface {σ ι : Type} (D : Driver σ ι) (x : Surface) (i : Nat) (w : World σ) :
    (x.clear D i w).1 = x.withSlot i none := by
  rcases x.clear_cases D i w with ⟨h, hc⟩ | ⟨old, _, hc⟩
  · rw [hc, ← h, withSlot_slot?]
  · rw [hc]

/-- What is allocated for a slot has the measures of the surface, and is drawn in. -/
theorem allocate_of_lt {σ ι : Type} (D : Driver σ ι) (x : Surface) {i : Nat} (hi : i < slotCount)
    (w : World σ) :
    x.allocate D i w = match BufferObject.create D x.width x.height x.format.code
        (x.usage.union .write) (x.clear D i w).2 with
      | (.ok b, w) => (.ok b.id, x.withSlot i (some b), w)
      | (.error e, w) => (.error e, x.withSlot i none, w) := by
  simp only [allocate, if_pos hi, clear_surface, withSlot_withSlot]
  rfl

/-- What the slots hold, in no order. -/
def buffers (x : Surface) : Multiset BufferObject := (x.slots.toList.reduceOption : List _)

theorem slot?_of_mem_buffers {x : Surface} {b : BufferObject} (h : b ∈ x.buffers) :
    ∃ i, x.slot? i = some b := by
  have h : some b ∈ x.slots.toList := List.reduceOption_mem_iff.mp (Multiset.mem_coe.mp h)
  obtain ⟨i, hi, hb⟩ := Vector.getElem_of_mem (Vector.mem_toList_iff.mp h)
  exact ⟨i, by rw [slot?, Vector.getElem?_eq_getElem hi, hb]; rfl⟩

private theorem reduceOption_set {α : Type} (o : Option α) {l : List (Option α)} {i : Nat}
    (hi : i < l.length) :
    ((l.set i o).reduceOption : Multiset α) =
      (o.toList : Multiset α) + ((l.set i none).reduceOption : Multiset α) := by
  induction l generalizing i with
  | nil => simp at hi
  | cons a l ih =>
    cases i with
    | zero => cases o <;> rfl
    | succ i =>
      have h := ih (i := i) (by simpa using hi)
      cases a with
      | none => exact h
      | some a =>
        simp only [List.set_cons_succ, List.reduceOption_cons_of_some, ← Multiset.cons_coe, h,
          Multiset.add_cons]

theorem buffers_withSlot (x : Surface) {i : Nat} (hi : i < slotCount) (o : Option BufferObject) :
    (x.withSlot i o).buffers =
      (o.toList : Multiset BufferObject) + (x.withSlot i none).buffers := by
  simp only [buffers, withSlot, Vector.toList_setIfInBounds]
  exact reduceOption_set o (by simpa using hi)

theorem buffers_of_slot? {x : Surface} {i : Nat} {b : BufferObject} (h : x.slot? i = some b) :
    x.buffers = b ::ₘ (x.withSlot i none).buffers := by
  conv_lhs => rw [← x.withSlot_slot? i, x.buffers_withSlot (lt_of_slot? h), h]
  rfl

/-- The same, as part of what the client owns. -/
def placed (x : Surface) : Multiset (Place × BufferObject) := x.buffers.map (Place.slot, ·)

theorem placed_withSlot (x : Surface) {i : Nat} (hi : i < slotCount) (b : BufferObject) :
    (x.withSlot i (some b)).placed = (.slot, b) ::ₘ (x.withSlot i none).placed := by
  rw [placed, buffers_withSlot x hi, Multiset.map_add]
  rfl

theorem placed_of_slot? {x : Surface} {i : Nat} {b : BufferObject} (h : x.slot? i = some b) :
    x.placed = (.slot, b) ::ₘ (x.withSlot i none).placed := by
  rw [placed, buffers_of_slot? h, Multiset.map_cons, placed]

theorem placed_create {width height : UInt32} {code : FormatCode} {usage : Usage} {x : Surface}
    (h : create width height code usage = .ok x) : x.placed = 0 := by
  rw [placed, buffers, (create_empty h).1]
  rfl

/-- A buffer object as a surface leaves it that gives back an id. -/
def unlocked (id : BufferId) (b : BufferObject) : BufferObject :=
  if b.id = id then { b with locked := false } else b

theorem buffers_unlock (x : Surface) (id : BufferId) :
    (x.unlock id).buffers = x.buffers.map (unlocked id) := by
  simp only [buffers, unlock, Vector.toList_map, Multiset.map_coe]
  exact congrArg _ (List.reduceOption_map (f := unlocked id) (l := x.slots.toList))

section
variable {D : Driver σ ι} (L : Multiset (Place × BufferObject)) (H : Multiset Dmabuf) (n : Nat)
  (w : World σ)

theorem clear_changes (x : Surface) (i : Nat) :
    Changes D ⟨x.placed + L, H, n, w⟩
      ⟨(x.clear D i w).1.placed + L, H, n, (x.clear D i w).2⟩ := by
  rcases x.clear_cases D i w with ⟨_, hc⟩ | ⟨old, h, hc⟩
  · rw [hc]
    exact .refl
  · rw [hc, placed_of_slot? h, Multiset.cons_add]
    have hwarn : Changes D ⟨(.slot, old) ::ₘ ((x.withSlot i none).placed + L), H, n, w⟩
        ⟨(.slot, old) ::ₘ ((x.withSlot i none).placed + L), H, n,
          if old.locked then w.warn (.replacedLocked i old.id) else w⟩ := by
      split
      · exact .one (.warned _)
      · exact .refl
    exact hwarn.trans (.one .destroyed)

private theorem placed_clear_withSlot (x : Surface) {i : Nat} (hi : i < slotCount)
    (b : BufferObject) :
    ((x.clear D i w).1.withSlot i (some b)).placed = (.slot, b) ::ₘ (x.clear D i w).1.placed := by
  rw [placed_withSlot _ hi, clear_surface, withSlot_withSlot]

/-- The descriptor that comes with a buffer, if there is one of either. -/
def offered (buffer : Option SlotBuffer) : Option Dmabuf := buffer.bind (·.descriptor)

private theorem no_descriptor :
    ((Option.toList (none : Option Dmabuf)) : Multiset Dmabuf) + H = H :=
  zero_add H

/-- The surface takes the descriptor over whatever becomes of the request. -/
theorem replace_changes (x : Surface) (i : Nat) (buffer : Option SlotBuffer) :
    Changes D ⟨x.placed + L, ((offered buffer).toList : Multiset Dmabuf) + H, n + 1, w⟩
      ⟨(x.replace D i buffer w).2.1.placed + L, H, n + 1, (x.replace D i buffer w).2.2⟩ := by
  by_cases hi : i < slotCount
  · cases buffer with
    | none =>
      simp only [replace, hi, if_true]
      rw [offered, Option.bind_none, no_descriptor]
      exact clear_changes L H (n + 1) w x i
    | some y =>
      simp only [replace, hi, if_true]
      rw [placed_clear_withSlot w x hi, Multiset.cons_add]
      exact (clear_changes L _ (n + 1) w x i).trans (.one (.installed rfl))
  · simp only [replace, hi, if_false, offered]
    cases buffer.bind (·.descriptor) with
    | none =>
      rw [no_descriptor]
      exact .refl
    | some d => exact .one .closed

theorem replace_none_changes (x : Surface) (i : Nat) :
    Changes D ⟨x.placed + L, H, n + 1, w⟩
      ⟨(x.replace D i none w).2.1.placed + L, H, n + 1, (x.replace D i none w).2.2⟩ := by
  have h := replace_changes (D := D) L H n w x i none
  rw [offered, Option.bind_none, no_descriptor] at h
  exact h

theorem allocate_changes (x : Surface) (i : Nat) :
    Changes D ⟨x.placed + L, H, n + 1, w⟩
      ⟨(x.allocate D i w).2.1.placed + L, H, n + 1, (x.allocate D i w).2.2⟩ := by
  by_cases hi : i < slotCount
  · simp only [allocate, hi, if_true]
    refine (clear_changes L H (n + 1) w x i).trans ?_
    split
    · next b w' h =>
      rw [placed_clear_withSlot w x hi, Multiset.cons_add]
      exact .one (.created .slot h)
    · next e w' h => exact .one (.notCreated h)
  · simp only [allocate, hi, if_false]
    exact .refl

theorem lockFront_changes (x : Surface) :
    Changes D ⟨x.placed + L, H, n, w⟩ ⟨x.lockFront.2.placed + L, H, n, w⟩ := by
  rw [lockFront]
  split
  · exact .refl
  · next i hf =>
    split
    · exact .refl
    · next b h =>
      simp only [placed_withSlot x (lt_of_slot? h)]
      rw [placed_of_slot? h, Multiset.cons_add, Multiset.cons_add]
      exact .one (.locked true)

private theorem unlocked_changes (id : BufferId) (M : Multiset BufferObject) :
    Changes D ⟨M.map (Place.slot, ·) + L, H, n, w⟩
      ⟨(M.map (unlocked id)).map (Place.slot, ·) + L, H, n, w⟩ := by
  induction M using Multiset.induction_on generalizing L with
  | empty => exact .refl
  | cons b M ih =>
    have hb : Changes D ⟨(.slot, b) ::ₘ (M.map (Place.slot, ·) + L), H, n, w⟩
        ⟨(.slot, unlocked id b) ::ₘ (M.map (Place.slot, ·) + L), H, n, w⟩ := by
      rw [unlocked]
      split
      · exact .one (.locked false)
      · exact .refl
    simp only [Multiset.map_cons, Multiset.cons_add]
    have h := ih ((.slot, unlocked id b) ::ₘ L)
    rw [Multiset.add_cons, Multiset.add_cons] at h
    exact hb.trans h

theorem unlock_changes (x : Surface) (id : BufferId) :
    Changes D ⟨x.placed + L, H, n, w⟩ ⟨(x.unlock id).placed + L, H, n, w⟩ := by
  rw [placed, placed, buffers_unlock]
  exact unlocked_changes L H n w id x.buffers

private theorem destroyAll_changes (l : List (Option BufferObject)) :
    Changes D ⟨(l.reduceOption : Multiset BufferObject).map (Place.slot, ·) + L, H, n, w⟩
      ⟨L, H, n, l.foldl (fun w slot => match slot with
        | some b => b.destroy D w
        | none => w) w⟩ := by
  induction l generalizing w with
  | nil =>
    change Changes D ⟨0 + L, H, n, w⟩ ⟨L, H, n, w⟩
    rw [zero_add]
    exact .refl
  | cons o l ih =>
    cases o with
    | none => exact ih w
    | some b =>
      rw [List.reduceOption_cons_of_some, ← Multiset.cons_coe, Multiset.map_cons, Multiset.cons_add]
      exact (Changes.one .destroyed).trans (ih (b.destroy D w))

theorem destroy_changes (x : Surface) :
    Changes D ⟨x.placed + L, H, n + 1, w⟩ ⟨L, H, n, x.destroy D w⟩ :=
  (Changes.one .left).trans (destroyAll_changes L H n (w.letGo D) x.slots.toList)

end
end DisplayBuffers.Surface
