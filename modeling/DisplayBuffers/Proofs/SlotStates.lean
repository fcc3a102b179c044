import DisplayBuffers.Proofs.Slots

/-! What each operation of a surface leaves in each of its slots, by index: which object, and
whether the display holds on to it. Objects are numbered upwards, so one that is put into a slot has
a number that nothing had before. -/
namespace DisplayBuffers
variable {σ ι : Type} {D : Driver σ ι}

/-- A new object: its number is not below any that were given out before, and below all that will
be; and the display has had no occasion to lock it. -/
structure Fresh (w : World σ) (b : BufferObject) (w' : World σ) : Prop where
  above : w.identities ≤ b.id.number
  below : b.id.number < w'.identities
  unlocked : b.locked = false

namespace BufferObject

theorem borrow_fresh {width height : UInt32} {format : FormatCode} {planes : List Plane}
    {descriptor : Option Dmabuf} {address : Option Address} {w w' : World σ} {b : BufferObject}
    (h : borrow width height format planes descriptor address w = (b, w')) : Fresh w b w' := by
  obtain ⟨rfl, rfl⟩ := Prod.mk.inj h
  exact ⟨le_rfl, Nat.lt_succ_self _, rfl⟩

theorem create_fresh {width height : UInt32} {code : FormatCode} {usage : Usage} {w w' : World σ}
    {b : BufferObject} (h : create D width height code usage w = (.ok b, w')) : Fresh w b w' := by
  cases created h with
  | unmapped hf ha he hu =>
    obtain ⟨_, _, rfl⟩ := World.allocate_ok ha
    rw [World.exportHandle_ok he]
    exact ⟨le_rfl, Nat.lt_succ_self _, rfl⟩
  | mapped hf ha he hu hm =>
    obtain ⟨_, _, rfl⟩ := World.allocate_ok ha
    rw [World.exportHandle_ok he] at hm ⊢
    rw [World.map_eq hm]
    exact ⟨le_rfl, Nat.lt_succ_self _, rfl⟩

end BufferObject
namespace Surface
variable {x x' : Surface} {w w' : World σ}

theorem slot?_eq_none (x : Surface) {i : Nat} (hi : ¬ i < slotCount) : x.slot? i = none := by
  by_contra hs
  obtain ⟨b, hb⟩ := Option.ne_none_iff_exists'.mp hs
  exact hi (lt_of_slot? hb)

theorem slot?_clear (D : Driver σ ι) (x : Surface) (i j : Nat) (w : World σ) :
    (x.clear D i w).1.slot? j = if i = j then none else x.slot? j := by
  rcases x.clear_cases D i w with ⟨h, hc⟩ | ⟨old, h, hc⟩
  · rw [hc]
    split
    · next hij => rw [← hij, h]
    · rfl
  · rw [hc, slot?_withSlot]
    simp only [lt_of_slot? h, and_true]

theorem front_clear (D : Driver σ ι) (x : Surface) (i : Nat) (w : World σ) :
    (x.clear D i w).1.front = x.front := by
  rcases x.clear_cases D i w with ⟨_, hc⟩ | ⟨old, _, hc⟩
  · rw [hc]
  · rw [hc]
    rfl

theorem clear_advances (D : Driver σ ι) (x : Surface) (i : Nat) (w : World σ) :
    w.Advances (x.clear D i w).2 :=
  (clear_changes (D := D) 0 0 0 w x i).moves.advances

theorem clear_identities_le (D : Driver σ ι) (x : Surface) (i : Nat) (w : World σ) :
    w.identities ≤ (x.clear D i w).2.identities :=
  (clear_advances D x i w).identities

/-- A slot was given a new object; the front and the other slots are as before. -/
structure Populated (x : Surface) (w : World σ) (i : Nat) (b : BufferObject) (x' : Surface)
    (w' : World σ) : Prop where
  inRange : i < slotCount
  front : x'.front = x.front
  slots : ∀ j, x'.slot? j = if i = j then some b else x.slot? j
  fresh : Fresh w b w'

private theorem populated_withSlot {i : Nat} {b : BufferObject} (hi : i < slotCount)
    (hb : Fresh (x.clear D i w).2 b w') :
    Populated x w i b ((x.clear D i w).1.withSlot i (some b)) w' where
  inRange := hi
  front := front_clear D x i w
  slots j := by
    rw [slot?_withSlot, slot?_clear]
    by_cases hij : i = j
    · simp [hij, hij ▸ hi]
    · simp [hij]
  fresh := ⟨(clear_identities_le D x i w).trans hb.above, hb.below, hb.unlocked⟩

theorem replace_populated {i : Nat} {y : SlotBuffer}
    (h : x.replace D i (some y) w = (.ok (), x', w')) : ∃ b, Populated x w i b x' w' := by
  by_cases hi : i < slotCount
  · simp only [replace, hi, if_true, Prod.mk.injEq, true_and] at h
    obtain ⟨rfl, rfl⟩ := h
    exact ⟨_, populated_withSlot hi (BufferObject.borrow_fresh rfl)⟩
  · simp only [replace, hi, if_false] at h
    cases h

theorem allocate_populated {i : Nat} {id : BufferId}
    (h : x.allocate D i w = (.ok id, x', w')) : ∃ b, b.id = id ∧ Populated x w i b x' w' := by
  by_cases hi : i < slotCount
  · simp only [allocate, hi, if_true] at h
    split at h
    · next b w₁ hb =>
      obtain ⟨hid, rfl, rfl⟩ := h
      exact ⟨b, rfl, populated_withSlot hi (BufferObject.create_fresh hb)⟩
    · cases h
  · simp only [allocate, hi, if_false] at h
    cases h

/-- When no object could be created the slot was emptied all the same. -/
theorem allocate_error {i : Nat} {e : Error} (h : x.allocate D i w = (.error e, x', w')) :
    x'.front = x.front ∧ (∀ j, x'.slot? j = if i = j then none else x.slot? j) ∧
      w.identities ≤ w'.identities := by
  have hw := (allocate_changes (D := D) 0 0 0 w x i).moves.advances.identities
  rw [h] at hw
  by_cases hi : i < slotCount
  · simp only [allocate, hi, if_true] at h
    split at h
    · cases h
    · obtain ⟨_, rfl, rfl⟩ := h
      exact ⟨front_clear D x i w, fun j => slot?_clear D x i j w, hw⟩
  · simp only [allocate, hi, if_false] at h
    obtain ⟨_, rfl, rfl⟩ := h
    refine ⟨rfl, ?_, hw⟩
    intro j
    by_cases hij : i = j
    · subst hij
      simp [x.slot?_eq_none hi]
    · simp [hij]

theorem replace_ok (D : Driver σ ι) (x : Surface) {i : Nat} (hi : i < slotCount)
    (y : Option SlotBuffer) (w : World σ) : (x.replace D i y w).1 = .ok () := by
  cases y <;> simp [replace, hi]

theorem replace_error (D : Driver σ ι) (x : Surface) {i : Nat} (hi : ¬ i < slotCount)
    (y : Option SlotBuffer) (w : World σ) :
    (x.replace D i y w).1 = .error (.invalidArgument .slotIndexOutOfRange) ∧
      (x.replace D i y w).2.1 = x := by
  simp [replace, hi]

theorem setFront_some {i : Nat} (h : x.setFront (some i) = (.ok (), x')) :
    i < slotCount ∧ x' = { x with front := some i } := by
  rw [setFront] at h
  split at h
  · next hi =>
    obtain ⟨_, rfl⟩ := h
    exact ⟨by simpa using hi, rfl⟩
  · cases h

theorem lockFront_some {id : BufferId} (h : x.lockFront = (some id, x')) :
    ∃ i b, x.front = some i ∧ x.slot? i = some b ∧ b.id = id ∧
      x' = x.withSlot i (some { b with locked := true }) := by
  rw [lockFront] at h
  split at h
  · cases h
  · next i hf =>
    split at h
    · cases h
    · next b hb =>
      obtain ⟨hid, rfl⟩ := Prod.mk.inj h
      exact ⟨i, b, hf, hb, Option.some.inj hid, rfl⟩

theorem lockFront_id (x : Surface) : x.lockFront.1 = (x.front.bind x.slot?).map (·.id) := by
  rw [lockFront]
  cases hf : x.front with
  | none => rfl
  | some i => cases hb : x.slot? i <;> simp [hb]

theorem slot?_unlock (x : Surface) (id : BufferId) (j : Nat) :
    (x.unlock id).slot? j = (x.slot? j).map (unlocked id) := by
  unfold slot? unlock
  rw [Vector.getElem?_map]
  cases x.slots[j]? <;> rfl

theorem unlock_eq_self {x : Surface} {id : BufferId}
    (h : ∀ i b, x.slot? i = some b → unlocked id b = b) : x.unlock id = x := by
  have hs : (x.unlock id).slots = x.slots := by
    apply slots_ext
    intro i
    change (x.unlock id).slot? i = x.slot? i
    rw [slot?_unlock]
    cases hb : x.slot? i with
    | none => rfl
    | some b => exact congrArg some (h i b hb)
  cases x
  simpa [unlock] using hs

/-- The first slot that holds the buffer with an id. -/
def holder? (x : Surface) (id : BufferId) : Option Nat :=
  (List.range slotCount).find? fun i => (x.slot? i).any (·.id == id)

/-- Gives the first buffer with an id back, and looks no further. -/
def unlockFirst (x : Surface) (id : BufferId) : Surface :=
  match x.holder? id with
  | none => x
  | some i => x.withSlot i ((x.slot? i).map ({ · with locked := false }))

/-- Where no two slots hold buffers with the same id, the first buffer with an id is the only one. -/
theorem unlock_eq_unlockFirst {x : Surface} (h : ∀ i j b c, x.slot? i = some b →
    x.slot? j = some c → b.id = c.id → i = j) (id : BufferId) : x.unlock id = x.unlockFirst id := by
  rw [unlockFirst]
  cases hf : x.holder? id with
  | none =>
    refine unlock_eq_self fun i b hb => if_neg fun hid => ?_
    have hnone := List.find?_eq_none.mp hf i (List.mem_range.mpr (lt_of_slot? hb))
    simp [hb, hid] at hnone
  | some i =>
    obtain ⟨b, hb, hid⟩ : ∃ b, x.slot? i = some b ∧ b.id = id := by
      rw [holder?] at hf
      have hany := List.find?_some hf
      cases hb : x.slot? i with
      | none => simp [hb] at hany
      | some b => exact ⟨b, rfl, by simpa [hb] using hany⟩
    suffices hs : (x.unlock id).slots =
        (x.withSlot i ((x.slot? i).map ({ · with locked := false }))).slots by
      cases x
      simpa [unlock, withSlot] using hs
    refine slots_ext fun j => ?_
    change (x.unlock id).slot? j = (x.withSlot i _).slot? j
    rw [slot?_unlock, slot?_withSlot]
    by_cases hij : i = j
    · subst hij
      rw [if_pos ⟨rfl, lt_of_slot? hb⟩, hb, Option.map_some, Option.map_some, unlocked, if_pos hid]
    · rw [if_neg fun hc => hij hc.1]
      cases hc : x.slot? j with
      | none => rfl
      | some c =>
        have hne : c.id ≠ id := fun hcid => hij (h i j b c hb hc (hid.trans hcid.symm))
        rw [Option.map_some, unlocked, if_neg hne]

theorem hasFree_iff (x : Surface) :
    x.hasFree = true ↔ ∃ i, i < slotCount ∧ ∀ b, x.slot? i = some b → b.locked = false := by
  have hslot {i : Nat} (hi : i < slotCount) : x.slot? i = x.slots[i] := by
    simp [slot?, hi]
  rw [hasFree, Vector.any_eq_true]
  constructor
  · rintro ⟨i, hi, h⟩
    refine ⟨i, hi, ?_⟩
    intro b hb
    rw [← hslot hi, hb] at h
    simpa using h
  · rintro ⟨i, hi, h⟩
    refine ⟨i, hi, ?_⟩
    rw [← hslot hi]
    cases hs : x.slot? i with
    | none => rfl
    | some b => simp [h b hs]

theorem slot?_create {width height : UInt32} {code : FormatCode} {usage : Usage}
    (h : create width height code usage = .ok x) (j : Nat) : x.slot? j = none := by
  rw [slot?, (create_empty h).1]
  by_cases hj : j < slotCount <;> simp [hj]

section
variable (x w) {i j : Nat}

theorem slot?_replace_of_ne (h : i ≠ j) (buffer : Option SlotBuffer) :
    (x.replace D i buffer w).2.1.slot? j = x.slot? j := by
  rw [replace]
  split
  · cases buffer with
    | none => exact (slot?_clear D x i j w).trans (if_neg h)
    | some y =>
      dsimp only
      rw [slot?_withSlot, if_neg (fun hj => h hj.1), slot?_clear, if_neg h]
  · rfl

theorem slot?_allocate_of_ne (h : i ≠ j) :
    (x.allocate D i w).2.1.slot? j = x.slot? j := by
  have hclear : (x.clear D i w).1.slot? j = x.slot? j :=
    (slot?_clear D x i j w).trans (if_neg h)
  rw [allocate]
  split
  · dsimp only
    split
    · rw [slot?_withSlot, if_neg (fun hj => h hj.1), hclear]
    · exact hclear
  · rfl

theorem slot?_setFront (front : Option Nat) (j : Nat) :
    (x.setFront front).2.slot? j = x.slot? j := by
  rw [setFront]
  split <;> rfl

theorem slot?_lockFront (j : Nat) :
    x.lockFront.2.slot? j =
      (x.slot? j).map fun b => if x.front = some j then { b with locked := true } else b := by
  rw [lockFront]
  cases hf : x.front with
  | none => simp
  | some i =>
    cases hb : x.slot? i with
    | none =>
      by_cases hj : i = j
      · subst hj
        simp [hb]
      · simp [hb, hj]
    | some b =>
      simp only [hb, slot?_withSlot]
      by_cases hj : i = j
      · subst hj
        simp [hb, lt_of_slot? hb]
      · simp [hj]

theorem slot?_replace_none (i : Nat) :
    (x.replace D i none w).2.1.slot? i = none := by
  rw [replace]
  split
  · exact (slot?_clear D x i i w).trans (if_pos rfl)
  · next hi => exact x.slot?_eq_none hi

end

end Surface
end DisplayBuffers
