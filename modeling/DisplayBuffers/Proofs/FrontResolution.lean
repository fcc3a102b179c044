import DisplayBuffers.Proofs.CallLog
import DisplayBuffers.Proofs.Lineage
import DisplayBuffers.Proofs.Outlines

/-! Which buffer the front of a surface stands for. The slot that is the front and what the slots
hold are changed by different operations; the answer depends on the latest of either kind that
succeeded. -/
namespace DisplayBuffers
variable {σ ι : Type} {D : Driver σ ι}

theorem BufferObject.destroy_identities (D : Driver σ ι) (b : BufferObject) (w : World σ) :
    (b.destroy D w).identities = w.identities := by
  obtain ⟨_, _, _, h, -⟩ := b.destroy_logged D w
  rw [h]

namespace Surface

theorem clear_identities (D : Driver σ ι) (x : Surface) (i : Nat) (w : World σ) :
    (x.clear D i w).2.identities = w.identities := by
  rcases x.clear_cases D i w with ⟨_, hc⟩ | ⟨old, _, hc⟩
  · rw [hc]
  · rw [hc]
    refine (old.destroy_identities D _).trans ?_
    split <;> rfl

/-- A buffer that is put into a slot gets the next number. -/
theorem replace_installs (D : Driver σ ι) (x : Surface) {i : Nat} (hi : i < slotCount)
    (y : SlotBuffer) (w : World σ) : ∃ b, (x.replace D i (some y) w).2.1.slot? i = some b ∧
      b.id = ⟨w.identities⟩ := by
  simp only [replace, hi, if_true]
  refine ⟨_, (slot?_withSlot _ i i _).trans (if_pos ⟨rfl, hi⟩), ?_⟩
  rw [← clear_identities D x i w]
  rfl

theorem lockFront_of_none {x : Surface} (h : x.lockFront.1 = none) : x.lockFront.2 = x := by
  rw [lockFront] at h ⊢
  cases hf : x.front with
  | none => rfl
  | some i =>
    cases hb : x.slot? i with
    | none => simp only [hb]
    | some b => simp [hf, hb] at h

end Surface

namespace Session

/-- The front that an operation gave to a surface. One that was just created has none. -/
def Turn.fronts? (surface : String) (e : Turn σ ι) : Option (Option Nat) :=
  match e.op, e.answer with
  | .setFront name front, .done => if name = surface then some front else none
  | .createSurface name _ _ _ _, .done | .destroySurface name, .done =>
    if name = surface then some none else none
  | _, _ => none

/-- What an operation that works on a slot put there, or that it left the slot empty. -/
def Turn.places? (surface : String) (i : Nat) (e : Turn σ ι) : Option (Option BufferId) :=
  match e.op, e.answer with
  | .replace name j none, .done => if name = surface ∧ j = i then some none else none
  | .replace name j (some _), .done =>
    if name = surface ∧ j = i then some (some ⟨e.before.world.identities⟩) else none
  | .allocate name j, .identity id => if name = surface ∧ j = i then some id else none
  | .allocate name j, .failed _ =>
    if name = surface ∧ j = i ∧ j < slotCount then some none else none
  | .createSurface name _ _ _ _, .done | .destroySurface name, .done =>
    if name = surface then some none else none
  | _, _ => none

theorem Turn.fronts?_of_not_refronts {e : Turn σ ι} {surface : String}
    (h : ¬ e.op.Refronts surface) : e.fronts? surface = none := by
  unfold fronts?
  split
  · next hop _ => exact if_neg fun hm => h (hop ▸ hm)
  · next hop _ => exact if_neg fun hm => h (hop ▸ hm)
  · next hop _ => exact if_neg fun hm => h (hop ▸ hm)
  · rfl

/-- The front is what the latest operation made it that succeeded in making it anything. -/
theorem frontIndex?_step (s : Session σ) (op : Op ι) (surface : String) :
    (s.step D op).2.frontIndex? surface =
      ((s.turn D op).fronts? surface).getD (s.frontIndex? surface) := by
  by_cases h : op.Refronts surface
  · cases op with
    | setFront m front =>
      obtain rfl : m = surface := h
      cases hx : s.surfaces.find? m with
      | none => simp [turn, step, onSurface, hx, refuse, Turn.fronts?]
      | some x =>
        simp only [turn, step, onSurface, hx]
        rw [frontIndex?, Table.find?_insert, if_pos rfl, Surface.setFront]
        split
        · simp [Turn.fronts?, Answer.ofUnit]
        · simp [Turn.fronts?, Answer.ofUnit, frontIndex?, hx]
    | createSurface m width height format usage =>
      obtain rfl : m = surface := h
      cases hd : s.device with
      | false => simp [turn, step, onDevice, hd, refuse, Turn.fronts?]
      | true =>
        cases hc : Surface.create width height format usage with
        | error e => simp [turn, step, onDevice, hd, hc, reply, Turn.fronts?]
        | ok x =>
          simp only [turn, step, onDevice, hd, if_true, hc]
          rw [keepSurface, frontIndex?, Table.find?_insert, if_pos rfl, Option.bind_some,
            (Surface.create_empty hc).2]
          simp [Turn.fronts?]
    | destroySurface m =>
      obtain rfl : m = surface := h
      cases hx : s.surfaces.find? m with
      | none => simp [turn, step, hx, refuse, Turn.fronts?]
      | some x =>
        simp [turn, step, hx, reply, Turn.fronts?, frontIndex?, Table.find?_erase]
    | _ => exact h.elim
  · rw [frontIndex?_eq_outline, outline?_step s h, Turn.fronts?_of_not_refronts h,
      ← frontIndex?_eq_outline]
    rfl

theorem object?_slot_eq_none (s : Session σ) (surface : String) {i : Nat} (hi : ¬ i < slotCount) :
    s.object? (.slot surface i) = none := by
  rw [object?]
  cases s.surfaces.find? surface with
  | none => rfl
  | some x => exact x.slot?_eq_none hi

theorem Turn.places?_of_not_renews {e : Turn σ ι} {surface : String} {i : Nat}
    (h : ¬ e.op.Renews (.slot surface i)) : e.places? surface i = none := by
  have hslot {name : String} {j : Nat} (hop : Target.slot surface i = .slot name j →
      e.op.Renews (.slot surface i)) : ¬ (name = surface ∧ j = i) := by
    rintro ⟨rfl, rfl⟩
    exact h (hop rfl)
  have hname {name : String} (hop : some surface = some name → e.op.Renews (.slot surface i)) :
      name ≠ surface := by
    rintro rfl
    exact h (hop rfl)
  unfold places?
  split
  · next hop _ => exact if_neg (hslot fun ht => hop ▸ ht)
  · next hop _ => exact if_neg (hslot fun ht => hop ▸ ht)
  · next hop _ => exact if_neg (hslot fun ht => hop ▸ ht)
  · next hop _ => exact if_neg fun hc => hslot (fun ht => hop ▸ ht) ⟨hc.1, hc.2.1⟩
  · next hop _ => exact if_neg (hname fun ht => hop ▸ ht)
  · next hop _ => exact if_neg (hname fun ht => hop ▸ ht)
  · rfl

/-- A slot holds what the latest operation put there that came to work on it. -/
theorem object?_slot_step (s : Session σ) (op : Op ι) (surface : String) (i : Nat) :
    ((s.step D op).2.object? (.slot surface i)).map (·.id) =
      ((s.turn D op).places? surface i).getD ((s.object? (.slot surface i)).map (·.id)) := by
  by_cases h : op.Renews (.slot surface i)
  · cases op with
    | createSurface m width height format usage =>
      obtain rfl : surface = m := Option.some.inj h
      cases hd : s.device with
      | false => simp [turn, step, onDevice, hd, refuse, Turn.places?]
      | true =>
        cases hc : Surface.create width height format usage with
        | error e => simp [turn, step, onDevice, hd, hc, reply, Turn.places?]
        | ok x =>
          simp only [turn, step, onDevice, hd, if_true, hc]
          rw [keepSurface, object?_insert_surface, if_pos rfl, Surface.slot?_create hc]
          simp [Turn.places?]
    | destroySurface m =>
      obtain rfl : surface = m := Option.some.inj h
      cases hx : s.surfaces.find? surface with
      | none => simp [turn, step, hx, refuse, Turn.places?]
      | some x =>
        simp only [turn, step, hx, reply]
        rw [object?_erase_surface, if_pos rfl]
        simp [Turn.places?]
    | replace m j buffer =>
      obtain ⟨rfl, rfl⟩ := Target.slot.inj h
      cases hx : s.surfaces.find? surface with
      | none => simp [turn, step, replace, hx, refuse, Turn.places?]
      | some x =>
        cases buffer with
        | none =>
          have hs := x.slot?_replace_none (D := D) s.world i
          simp only [turn, step, replace, hx]
          rw [object?_onSurface_slot, hx, Option.bind_some, hs]
          by_cases hi : i < slotCount
          · simp [onSurface, hx, Turn.places?, Surface.replace_ok D x hi, Answer.ofUnit]
          · simp [onSurface, hx, Turn.places?, (Surface.replace_error D x hi none s.world).1,
              Answer.ofUnit, object?, x.slot?_eq_none hi]
        | some y =>
          cases hy : s.slotBuffer? y with
          | none => simp [turn, step, replace, hx, hy, refuse, Turn.places?]
          | some z =>
            simp only [turn, step, replace, hx, hy]
            rw [object?_onSurface_slot]
            simp only [hx, Option.bind_some]
            by_cases hi : i < slotCount
            · obtain ⟨b, hb, hid⟩ := x.replace_installs D hi z s.world
              simp [onSurface, hx, Turn.places?, Surface.replace_ok D x hi, Answer.ofUnit, hb, hid]
            · obtain ⟨he, hs⟩ := Surface.replace_error D x hi (some z) s.world
              simp [onSurface, hx, Turn.places?, he, hs, Answer.ofUnit, object?]
    | allocate m j =>
      obtain ⟨rfl, rfl⟩ := Target.slot.inj h
      cases hx : s.surfaces.find? surface with
      | none => simp [turn, step, onSurface, hx, refuse, Turn.places?]
      | some x =>
        rcases ha : x.allocate D i s.world with ⟨e | id, x', w'⟩
        · have hs := (Surface.allocate_error ha).2.1 i
          by_cases hi : i < slotCount
          · simp [turn, step, onSurface, hx, ha, Turn.places?, hi, object?,
              Table.find?_insert, hs]
          · simp [turn, step, onSurface, hx, ha, Turn.places?, hi, object?,
              Table.find?_insert, hs, x.slot?_eq_none hi]
        · obtain ⟨b, rfl, hs, _⟩ := Surface.allocate_newborn ha
          simp [turn, step, onSurface, hx, ha, Turn.places?, object?,
            Table.find?_insert, hs]
    | _ => cases h
  · rw [object?_step_of_not_renews s h, Turn.places?_of_not_renews h]
    rw [Option.map_map]
    simp only [Option.getD_none]
    congr 1
    funext b
    exact s.leaves_id op _ b

/-- The front and the slots, told from the history alone. -/
theorem front_told (D : Driver σ ι) (d : σ) (ops : List (Op ι)) (surface : String) :
    ((start d).run D ops).2.frontIndex? surface =
      (latest? (Turn.fronts? surface) ((start d).history D ops)).join := by
  refine history_keeps (I := fun h s => s.frontIndex? surface =
    (latest? (Turn.fronts? surface) h).join) rfl ?_ ops
  intro ops op ih
  rw [frontIndex?_step, ih, latest?_concat]
  cases Turn.fronts? surface _ <;> rfl

theorem slot_told (D : Driver σ ι) (d : σ) (ops : List (Op ι)) (surface : String) (i : Nat) :
    (((start d).run D ops).2.object? (.slot surface i)).map (·.id) =
      (latest? (Turn.places? surface i) ((start d).history D ops)).join := by
  refine history_keeps (I := fun h s => (s.object? (.slot surface i)).map (·.id) =
    (latest? (Turn.places? surface i) h).join) rfl ?_ ops
  intro ops op ih
  rw [object?_slot_step, ih, latest?_concat]
  cases Turn.places? surface i _ <;> rfl

/-- Whether an operation leaves alone what the front of a surface stands for: it is rejected for its
index, or it works on something else. -/
def Op.Spares (surface : String) (front : Option Nat) : Op ι → Prop
  | .setFront name (some j) => name = surface → slotCount ≤ j
  | .setFront name none => name ≠ surface
  | .replace name j _ | .allocate name j => name = surface → slotCount ≤ j ∨ front ≠ some j
  | .createSurface name _ _ _ _ | .destroySurface name => name ≠ surface
  | _ => True

theorem answer_lockFront_eq_some {s : Session σ} {surface : String} {name : Option String}
    {id : BufferId} :
    (s.step D (.lockFront surface name)).1.answer = .identity (some id) ↔
      ∃ i, s.frontIndex? surface = some i ∧
        (s.object? (.slot surface i)).map (·.id) = some id := by
  rw [answer_lockFront]
  cases hx : s.surfaces.find? surface with
  | none => simp [frontIndex?, hx]
  | some x => simp [frontIndex?, object?, hx, Option.bind_eq_some_iff]

theorem step_lockFront_of_some {s : Session σ} {surface : String} {name : Option String}
    {x : Surface} {i : Nat} {b : BufferObject} (hx : s.surfaces.find? surface = some x)
    (hi : x.front = some i) (hb : x.slot? i = some b) :
    (s.step D (.lockFront surface name)).2 = { s with
      surfaces := s.surfaces.insert surface (x.withSlot i (some { b with locked := true }))
      ids := match name with
        | some name => s.ids.insert name b.id
        | none => s.ids } := by
  have hl : x.lockFront = (some b.id, x.withSlot i (some { b with locked := true })) := by
    simp only [Surface.lockFront, hi, hb]
  simp only [step, lockFront, onSurface, hx, hl]
  cases name <;> rfl

theorem alike_lockFront_of_none {s : Session σ} {surface : String} {name : Option String}
    (h : (s.step D (.lockFront surface name)).1.answer = .identity none) :
    s.Alike (s.step D (.lockFront surface name)).2 := by
  rw [answer_lockFront] at h
  cases hx : s.surfaces.find? surface with
  | none => simp [hx] at h
  | some x =>
    have hnone : x.lockFront.1 = none := by
      rw [x.lockFront_id]
      simpa [hx] using h
    have halike := alike_onSurface
      (f := fun x w => (.identity x.lockFront.1, x.lockFront.2, w)) hx
      (congrArg (·, s.world) (x.lockFront_of_none hnone))
    have hs : (s.step D (.lockFront surface name)).2 =
        (s.onSurface surface fun x w => (.identity x.lockFront.1, x.lockFront.2, w)).2 := by
      simp [step, lockFront, onSurface, hx, hnone]
    rw [← hs] at halike
    exact halike

/-- Such an operation leaves the front, and what the slot that is the front holds. -/
theorem answer_lockFront_of_spares {s : Session σ} {op : Op ι} {surface : String}
    (h : op.Spares surface (s.frontIndex? surface)) (name : Option String) :
    ((s.step D op).2.step D (.lockFront surface name)).1.answer =
      (s.step D (.lockFront surface name)).1.answer := by
  have houtline : (s.step D op).2.outline? surface = s.outline? surface := by
    by_cases hr : op.Refronts surface
    · cases op with
      | setFront m front =>
        obtain rfl : m = surface := hr
        cases front with
        | none => exact absurd rfl h
        | some j =>
          refine s.outline?_onSurface m fun x => ?_
          rw [Surface.setFront, if_neg (by simpa using h rfl)]
      | createSurface m width height format usage => exact absurd hr h
      | destroySurface m => exact absurd hr h
      | _ => exact hr.elim
    · exact outline?_step s hr
  have hslot (i : Nat) (hi : s.frontIndex? surface = some i) :
      ((s.step D op).2.object? (.slot surface i)).map (·.id) =
        (s.object? (.slot surface i)).map (·.id) := by
    by_cases hlt : i < slotCount
    · have hr : ¬ op.Renews (.slot surface i) := by
        cases op with
        | createSurface m width height format usage => exact fun hm => h (Option.some.inj hm).symm
        | destroySurface m => exact fun hm => h (Option.some.inj hm).symm
        | replace m j buffer =>
          rintro ⟨rfl, rfl⟩
          exact (h rfl).elim (Nat.not_le_of_lt hlt) fun hf => hf hi
        | allocate m j =>
          rintro ⟨rfl, rfl⟩
          exact (h rfl).elim (Nat.not_le_of_lt hlt) fun hf => hf hi
        | _ => simp [Op.Renews]
      rw [object?_slot_step, Turn.places?_of_not_renews hr]
      rfl
    · rw [object?_slot_eq_none _ surface hlt, object?_slot_eq_none _ surface hlt]
  rw [answer_lockFront, answer_lockFront]
  unfold outline? at houtline
  cases hx : s.surfaces.find? surface with
  | none =>
    have hx' : (s.step D op).2.surfaces.find? surface = none := by simpa [hx] using houtline
    rw [hx']
  | some x =>
    obtain ⟨x', hx', ho⟩ := Option.map_eq_some_iff.mp (houtline.trans (congrArg _ hx))
    have hf : x'.outline.front = x.outline.front := congrArg (·.front) ho
    change x'.front = x.front at hf
    rw [hx']
    dsimp only
    rw [hf]
    cases hi : x.front with
    | none => rfl
    | some i =>
      have hid := hslot i (by simp [frontIndex?, hx, hi])
      simpa [object?, hx, hx'] using hid

/-- What is locked is what the latest successful choice of a front and the latest change of that
slot make it, whatever else happened and whatever was rejected. -/
theorem front_resolves (D : Driver σ ι) (d : σ) (ops : List (Op ι)) (surface : String)
    (name : Option String) :
    let h := (start d).history D ops
    let s := ((start d).run D ops).2
    let answer := (s.step D (.lockFront surface name)).1.answer
    let s' := (s.step D (.lockFront surface name)).2
    (∀ id, answer = .identity (some id) ↔
      ∃ i, latest? (Turn.fronts? surface) h = some (some i) ∧
        latest? (Turn.places? surface i) h = some (some id)) ∧
    (∀ x, s.surfaces.find? surface = some x → ∃ id, answer = .identity id) ∧
    (∀ id, answer = .identity (some id) → ∃ x i b, s.surfaces.find? surface = some x ∧
      x.front = some i ∧ x.slot? i = some b ∧ b.id = id ∧ s' = { s with
        surfaces := s.surfaces.insert surface (x.withSlot i (some { b with locked := true }))
        ids := match name with
          | some name => s.ids.insert name id
          | none => s.ids }) ∧
    (answer = .identity none → s.Alike s') ∧
    (∀ op i id, (s.turn D op).places? surface i = some (some id) →
      ∃ b, (s.step D op).2.object? (.slot surface i) = some b ∧ b.id = id) ∧
    (∀ op, op.Spares surface (s.frontIndex? surface) →
      ((s.step D op).2.step D (.lockFront surface name)).1.answer = answer) := by
  intro h s answer s'
  refine ⟨?_, ?_, ?_, alike_lockFront_of_none, ?_,
    fun op hop => answer_lockFront_of_spares hop name⟩
  · intro id
    have hfront : s.frontIndex? surface = (latest? (Turn.fronts? surface) h).join :=
      front_told D d ops surface
    have hslot (i : Nat) : (s.object? (.slot surface i)).map (·.id) =
        (latest? (Turn.places? surface i) h).join := slot_told D d ops surface i
    rw [answer_lockFront_eq_some]
    simp only [hfront, hslot, Option.join_eq_some_iff]
  · intro x hx
    exact ⟨_, (answer_lockFront s surface name).trans (by rw [hx])⟩
  · intro id hid
    obtain ⟨i, hi, hid⟩ := answer_lockFront_eq_some.mp hid
    obtain ⟨b, hb, rfl⟩ := Option.map_eq_some_iff.mp hid
    obtain ⟨x, hx, hi⟩ := Option.bind_eq_some_iff.mp hi
    have hb : x.slot? i = some b := by simpa [object?, hx] using hb
    exact ⟨x, i, b, hx, hi, hb, rfl, step_lockFront_of_some hx hi hb⟩
  · intro op i id hop
    have hid := s.object?_slot_step (D := D) op surface i
    rw [hop] at hid
    exact Option.map_eq_some_iff.mp hid

end Session
end DisplayBuffers
