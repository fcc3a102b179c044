import DisplayBuffers.Proofs.Newborn
import DisplayBuffers.Proofs.Whereabouts

/-! The lives of buffer objects. An object that is at a target was put there by one operation, and
has stayed there since. No two objects are alike: each has a number of its own, and storage of its
own if it owns any. -/
namespace DisplayBuffers.Session
variable {σ ι : Type} {D : Driver σ ι}

/-- The target to which an operation puts a new buffer object. -/
def Op.makes? : Op ι → Option Target
  | .create name _ _ _ _ | .createBuffer name _ _ _ _ | .importFrom name _ => some (.object name)
  | .replace surface i _ | .allocate surface i => some (.slot surface i)
  | _ => none

/-- How many references a new object at a target begins with, if an operation put one there. -/
def Turn.begins? (e : Turn σ ι) (t : Target) : Option Nat :=
  match e.op, e.answer with
  | .create name _ _ _ usage, .done =>
    if t = .object name then some (if usage.contains .write then 1 else 0) else none
  | .createBuffer name _ _ _ _, .done => if t = .object name then some 0 else none
  | .importFrom name _, .done => if t = .object name then some 0 else none
  | .replace surface i (some _), .done => if t = .slot surface i then some 0 else none
  | .allocate surface i, .identity _ => if t = .slot surface i then some 1 else none
  | _, _ => none

/-- What becomes of a target to which an operation can put something else. Only what is made there
begins a life. -/
inductive Renewal (D : Driver σ ι) (s : Session σ) (op : Op ι) (t : Target) : Prop
  | refused (h : (s.step D op).2.object? t = s.object? t) (hb : (s.turn D op).begins? t = none)
  | vacated (h : (s.step D op).2.object? t = none) (hb : (s.turn D op).begins? t = none)
  | made {b} (h : (s.step D op).2.object? t = some b) (hm : op.makes? = some t)
      (hn : Newborn s.world b (s.step D op).2.world)
      (hb : (s.turn D op).begins? t = some b.references)

/-- A refused operation begins no life. -/
theorem Turn.begins?_of_failed {e : Turn σ ι} {t : Target}
    (h : e.answer = .malformed ∨ ∃ x, e.answer = .failed x) : e.begins? t = none := by
  obtain ⟨s, op, a, s'⟩ := e
  unfold begins?
  dsimp only at h ⊢
  split
  all_goals first | rfl | (rcases h with h | ⟨x, h⟩ <;> cases h)

private theorem Renewal.of_refused {s : Session σ} {op : Op ι} {t : Target} {a : Answer}
    (h : s.step D op = (⟨a, .nothing⟩, s)) (ha : a = .malformed ∨ ∃ x, a = .failed x) :
    Renewal D s op t := by
  refine .refused (by rw [h]) (Turn.begins?_of_failed ?_)
  simpa [turn, h] using ha

private theorem Renewal.of_device_gone {s : Session σ} {op : Op ι} {t : Target}
    {f : Session σ → Outcome × Session σ} (h : s.step D op = s.onDevice f)
    (hd : s.device = false) : Renewal D s op t := by
  refine .of_refused (a := .malformed) ?_ (.inl rfl)
  rw [h, onDevice, hd]
  rfl

private theorem addObject_renewal {s : Session σ} {op : Op ι} {name : String}
    {made : Except Error BufferObject × World σ}
    (hop : s.step D op = s.addObject D name made) (hm : op.makes? = some (.object name))
    (hn : ∀ b w, made = (.ok b, w) → Newborn s.world b w ∧
      (Turn.mk s op .done (s.step D op).2).begins? (.object name) = some b.references) :
    Renewal D s op (.object name) := by
  obtain ⟨e | b, w⟩ := made
  · refine .refused ?_ (Turn.begins?_of_failed (.inr ⟨e, ?_⟩))
    · rw [hop, object?_addObject]
    · simp [turn, hop, addObject, reply]
  · obtain ⟨hn, hr⟩ := hn b w rfl
    have ho : (s.step D op).2.object? (.object name) = some b := by
      rw [hop, object?_addObject]
      exact if_pos rfl
    have hw : w.Advances (s.step D op).2.world := by
      rw [hop]
      exact (keepObject_changes (D := D) (s.withWorld w) name b).moves.advances
    refine .made ho hm (hn.mono (.refl _) hw) ?_
    rw [← hr]
    simp [turn, hop, addObject]

private theorem surface_renewal {s : Session σ} {op : Op ι} {surface : String} {i : Nat}
    {a : Answer} {x' : Surface} {w' : World σ} {t : Table String Dmabuf}
    (hop : s.step D op = (⟨a, .surface x'⟩, { s with
      world := w', surfaces := s.surfaces.insert surface x', descriptors := t }))
    (hm : op.makes? = some (.slot surface i))
    (hv : x'.slot? i = none →
      (Turn.mk s op a (s.step D op).2).begins? (.slot surface i) = none)
    (hn : ∀ b, x'.slot? i = some b → Newborn s.world b w' ∧
      (Turn.mk s op a (s.step D op).2).begins? (.slot surface i) = some b.references) :
    Renewal D s op (.slot surface i) := by
  have ho : (s.step D op).2.object? (.slot surface i) = x'.slot? i := by
    rw [hop, object?, Table.find?_insert, if_pos rfl, Option.bind_some]
  have ha : s.turn D op = ⟨s, op, a, (s.step D op).2⟩ := by
    rw [turn, hop]
  cases hs : x'.slot? i with
  | none => exact .vacated (ho.trans hs) (ha ▸ hv hs)
  | some b =>
    obtain ⟨hn, hb⟩ := hn b hs
    have hw : w'.Advances (s.step D op).2.world := by
      rw [hop]
      exact .refl w'
    exact .made (ho.trans hs) hm (hn.mono (.refl _) hw) (ha ▸ hb)

/-- The bytes that a buffer for a slot shows are those of memory that the client brought. -/
theorem slotBuffer?_address {s : Session σ} {x : NamedBuffer} {y : SlotBuffer}
    (h : s.slotBuffer? x = some y) (a : Address) (ha : y.address = some a) :
    ∃ k, a = .client k := by
  unfold slotBuffer? at h
  split at h
  · cases h
  · obtain ⟨d, _, rfl⟩ := Option.map_eq_some_iff.mp h
    cases ha
  · obtain ⟨m, _, rfl⟩ := Option.map_eq_some_iff.mp h
    exact ⟨m.key, (Option.some.inj ha).symm⟩
  · split at h
    · obtain rfl := Option.some.inj h
      exact ⟨_, (Option.some.inj ha).symm⟩
    · cases h

theorem object?_step_of_renews (s : Session σ) {op : Op ι} {t : Target} (h : op.Renews t) :
    Renewal D s op t := by
  cases op with
  | create name width height format usage =>
    obtain rfl : t = .object name := h
    cases hd : s.device with
    | false => exact .of_device_gone (by rw [step]) hd
    | true =>
      refine addObject_renewal (by simp [step, onDevice, hd]; rfl) rfl fun b w hb => ?_
      obtain ⟨hn, hr⟩ := BufferObject.create_newborn hb
      exact ⟨hn, by simp [Turn.begins?, hr]⟩
  | createBuffer name width height fourcc modifiers =>
    obtain rfl : t = .object name := h
    cases hd : s.device with
    | false => exact .of_device_gone (by rw [step]) hd
    | true =>
      refine addObject_renewal (by simp [step, onDevice, hd]; rfl) rfl fun b w hb => ?_
      obtain ⟨hn, hr⟩ := BufferObject.create_newborn (Device.createBuffer_ok hb)
      exact ⟨hn, by rw [hr]; simp [Turn.begins?]; rfl⟩
  | importFrom name source =>
    obtain rfl : t = .object name := h
    cases hd : s.device with
    | false => exact .of_device_gone (by rw [step]) hd
    | true =>
      cases hs : source.resolve? s.descriptors.find? with
      | none =>
        exact .of_refused (a := .malformed) (by simp [step, onDevice, hd, hs, refuse])
          (.inl rfl)
      | some source' =>
        refine addObject_renewal (by simp [step, onDevice, hd, hs]; rfl) rfl fun b w hb => ?_
        obtain ⟨hn, hr, _⟩ := BufferObject.importFrom_newborn hb
        exact ⟨hn, by simp [Turn.begins?, hr]⟩
  | destroy name =>
    obtain rfl : t = .object name := h
    cases hb : s.objects.find? name with
    | none => exact .of_refused (a := .malformed) (by simp only [step, hb, refuse]) (.inl rfl)
    | some b =>
      refine .vacated ?_ rfl
      simp only [step, hb, reply]
      rw [object?_erase_object, if_pos rfl]
  | createSurface name width height format usage =>
    cases hd : s.device with
    | false => exact .of_device_gone (by rw [step]) hd
    | true =>
      cases hc : Surface.create width height format usage with
      | error e =>
        exact .of_refused (a := .failed e) (by simp [step, onDevice, hd, hc, reply])
          (.inr ⟨e, rfl⟩)
      | ok x =>
        obtain ⟨i, rfl⟩ := Target.surface?_eq_some.mp h
        refine .vacated ?_ rfl
        simp only [step, onDevice, hd, if_true, hc]
        rw [keepSurface, object?_insert_surface, if_pos rfl, Surface.slot?_create hc]
  | destroySurface name =>
    obtain ⟨i, rfl⟩ := Target.surface?_eq_some.mp h
    cases hx : s.surfaces.find? name with
    | none => exact .of_refused (a := .malformed) (by simp only [step, hx, refuse]) (.inl rfl)
    | some x =>
      refine .vacated ?_ rfl
      simp only [step, hx, reply]
      rw [object?_erase_surface, if_pos rfl]
  | replace surface i buffer =>
    obtain rfl : t = .slot surface i := h
    cases hx : s.surfaces.find? surface with
    | none =>
      exact .of_refused (a := .malformed) (by simp only [step, replace, hx, refuse]) (.inl rfl)
    | some x =>
      cases buffer with
      | none =>
        refine .vacated ?_ rfl
        simp only [step, replace, hx]
        rw [object?_onSurface_slot, hx]
        exact x.slot?_replace_none s.world i
      | some y =>
        cases hb : s.slotBuffer? y with
        | none =>
          exact .of_refused (a := .malformed) (by simp only [step, replace, hx, hb, refuse])
            (.inl rfl)
        | some z =>
          rcases hr : x.replace D i (some z) s.world with ⟨r, x', w'⟩
          obtain ⟨t, hp⟩ : ∃ t, s.step D (.replace surface i (some y)) =
              (⟨.ofUnit r, .surface x'⟩, { s with
                world := w', surfaces := s.surfaces.insert surface x', descriptors := t }) := by
            simp only [step, replace, hx, hb, onSurface, hr]
            exact ⟨_, rfl⟩
          by_cases hi : i < slotCount
          · obtain rfl : r = .ok () := by
              simpa [Surface.replace, hi] using congrArg Prod.fst hr.symm
            obtain ⟨b, hs, hn, hb', _⟩ := Surface.replace_newborn hi (slotBuffer?_address hb) hr
            refine surface_renewal hp rfl (fun hv => ?_) fun b' hs' => ?_
            · cases hs.symm.trans hv
            · obtain rfl := Option.some.inj (hs.symm.trans hs')
              exact ⟨hn, by simp [Turn.begins?, Answer.ofUnit, hb']⟩
          · obtain rfl : r = .error (.invalidArgument .slotIndexOutOfRange) := by
              simpa [Surface.replace, hi] using congrArg Prod.fst hr.symm
            exact surface_renewal hp rfl (fun _ => rfl)
              fun b hs => absurd (Surface.lt_of_slot? hs) hi
  | allocate surface i =>
    obtain rfl : t = .slot surface i := h
    cases hx : s.surfaces.find? surface with
    | none =>
      exact .of_refused (a := .malformed) (by simp only [step, onSurface, hx, refuse])
        (.inl rfl)
    | some x =>
      rcases ha : x.allocate D i s.world with ⟨e | id, x', w'⟩
      · have hp : s.step D (.allocate surface i) = (⟨.failed e, .surface x'⟩,
            { s with world := w', surfaces := s.surfaces.insert surface x' }) := by
          simp only [step, onSurface, hx, ha]
        refine surface_renewal hp rfl (fun _ => rfl) fun b hs => ?_
        rw [(Surface.allocate_error ha).2.1 i, if_pos rfl] at hs
        cases hs
      · have hp : s.step D (.allocate surface i) = (⟨.identity (some id), .surface x'⟩,
            { s with world := w', surfaces := s.surfaces.insert surface x' }) := by
          simp only [step, onSurface, hx, ha]
        obtain ⟨b, -, hs, hn, hb⟩ := Surface.allocate_newborn ha
        refine surface_renewal hp rfl (fun hv => ?_) fun b' hs' => ?_
        · cases hs.symm.trans hv
        · obtain rfl := Option.some.inj (hs.symm.trans hs')
          exact ⟨hn, by simp [Turn.begins?, hb]⟩
  | _ => exact h.elim

theorem begins?_of_not_renews (s : Session σ) {op : Op ι} {t : Target} (h : ¬ op.Renews t) :
    (s.turn D op).begins? t = none := by
  unfold turn Turn.begins?
  dsimp only
  split
  all_goals first | rfl | exact if_neg h

/-- An operation that begins a life at a target makes an object there. -/
theorem made_of_begins {s : Session σ} {op : Op ι} {t : Target} {r : Nat}
    (h : (s.turn D op).begins? t = some r) :
    ∃ b, (s.step D op).2.object? t = some b ∧ op.makes? = some t ∧
      Newborn s.world b (s.step D op).2.world ∧ b.references = r := by
  by_cases hr : op.Renews t
  · cases object?_step_of_renews (D := D) s hr with
    | refused _ hb => cases hb.symm.trans h
    | vacated _ hb => cases hb.symm.trans h
    | made ho hm hn hb => exact ⟨_, ho, hm, hn, Option.some.inj (hb.symm.trans h)⟩
  · cases (s.begins?_of_not_renews hr).symm.trans h

theorem leaves_of_renews (s : Session σ) {op : Op ι} {t : Target} (h : op.Renews t)
    (b : BufferObject) : s.leaves D op t b = b := by
  unfold leaves
  split
  all_goals first | rfl | exact h.elim

/-- What is at a target was there before, or the operation made it. -/
theorem lineage (s : Session σ) {op : Op ι} {t : Target} {b' : BufferObject}
    (h : (s.step D op).2.object? t = some b') :
    (∃ b, s.object? t = some b ∧ b' = s.leaves D op t b ∧ (s.turn D op).begins? t = none) ∨
    (op.makes? = some t ∧ Newborn s.world b' (s.step D op).2.world ∧
      (s.turn D op).begins? t = some b'.references) := by
  by_cases hr : op.Renews t
  · cases object?_step_of_renews (D := D) s hr with
    | refused ho hb => exact .inl ⟨b', ho.symm.trans h, (s.leaves_of_renews hr b').symm, hb⟩
    | vacated ho _ => cases ho.symm.trans h
    | made ho hm hn hb =>
      obtain rfl := Option.some.inj (ho.symm.trans h)
      exact .inr ⟨hm, hn, hb⟩
  · rw [object?_step_of_not_renews s hr] at h
    obtain ⟨b, hb, rfl⟩ := Option.map_eq_some_iff.mp h
    exact .inl ⟨b, hb, rfl, s.begins?_of_not_renews hr⟩

private theorem withMapping_same (b : BufferObject) (accesses : List BufferObject.Access)
    (w : World σ) :
    ∃ m r, (b.withMapping D accesses w).2.1 = { b with mapping := m, references := r } := by
  rw [BufferObject.withMapping]
  rcases ha : b.acquire D w with ⟨e | a, b₁, w₁⟩
  all_goals obtain ⟨m, r, rfl⟩ := (Use.acquire ha).same
  · exact ⟨m, r, rfl⟩
  · dsimp only
    obtain ⟨m', r', hr⟩ := (Use.release (D := D) (b := { b with mapping := m, references := r })
      (w := (BufferObject.accessAll _ _ a accesses w₁).2)).same
    exact ⟨m', r', hr⟩

/-- Whether an operation locks or unlocks a buffer. -/
def Op.Locks : Op ι → Prop
  | .lockFront _ _ | .unlock _ _ => True
  | _ => False

/-- Unless buffers are locked or unlocked, an object that stays is used at most. -/
theorem leaves_used (s : Session σ) {op : Op ι} (h : ¬ op.Locks) (t : Target) (b : BufferObject) :
    ∃ m r, s.leaves D op t b = { b with mapping := m, references := r } := by
  have hidle {b' : BufferObject} (h : b' = b) :
      ∃ m r, b' = { b with mapping := m, references := r } := ⟨_, _, h⟩
  cases op with
  | acquire u =>
    simp only [leaves]
    split
    · exact (Use.acquire rfl).same
    · exact hidle rfl
  | acquireRegion u x y width height =>
    simp only [leaves, BufferObject.acquireRegion]
    split
    · split
      · exact (Use.acquire rfl).same
      · exact hidle rfl
    · exact hidle rfl
  | release u =>
    simp only [leaves]
    split
    · exact Use.release.same
    · exact hidle rfl
  | withMapping u accesses =>
    simp only [leaves]
    split
    · exact withMapping_same b accesses s.world
    · exact hidle rfl
  | lockFront surface name => exact absurd trivial h
  | unlock surface name => exact absurd trivial h
  | _ => exact hidle rfl

theorem leaves_lockFront (s : Session σ) (surface : String) (name : Option String) (t : Target)
    (b : BufferObject) : s.leaves D (.lockFront surface name) t b =
      { b with locked := b.locked || decide (s.front? surface = some t) } := by
  simp only [leaves]
  split
  · next h => simp [h]
  · next h => simp [h]

theorem leaves_unlock (s : Session σ) (surface name : String) (t : Target) (b : BufferObject) :
    s.leaves D (.unlock surface name) t b =
      { b with locked := b.locked &&
        !decide (s.ids.find? name = some b.id ∧ t.surface? = some surface) } := by
  simp only [leaves]
  cases hid : s.ids.find? name with
  | none => simp
  | some id =>
    by_cases ht : t.surface? = some surface
    · by_cases hb : b.id = id
      · simp [Surface.unlocked, ht, hb]
      · simp [Surface.unlocked, ht, hb, Ne.symm hb]
    · simp [ht]

/-- An object that stays is used, locked or unlocked at most. -/
theorem leaves_same (s : Session σ) (op : Op ι) (t : Target) (b : BufferObject) :
    ∃ m r l, s.leaves D op t b = { b with mapping := m, references := r, locked := l } := by
  by_cases h : op.Locks
  · cases op with
    | lockFront surface name => exact ⟨_, _, _, s.leaves_lockFront surface name t b⟩
    | unlock surface name => exact ⟨_, _, _, s.leaves_unlock surface name t b⟩
    | _ => exact h.elim
  · obtain ⟨m, r, hl⟩ := s.leaves_used (D := D) h t b
    exact ⟨m, r, b.locked, hl⟩

section
variable (s : Session σ) (op : Op ι) (t : Target) (b : BufferObject)

@[simp] theorem leaves_id : (s.leaves D op t b).id = b.id := by
  obtain ⟨m, r, l, h⟩ := s.leaves_same (D := D) op t b
  rw [h]

@[simp] theorem leaves_backing : (s.leaves D op t b).backing = b.backing := by
  obtain ⟨m, r, l, h⟩ := s.leaves_same (D := D) op t b
  rw [h]

@[simp] theorem leaves_key? : (s.leaves D op t b).key? = b.key? := by
  simp only [BufferObject.key?, leaves_backing]

end

/-- Buffer objects at different targets have nothing in common. -/
structure Apart (s : Session σ) : Prop where
  numbered : ∀ {t b}, s.object? t = some b → b.id.number < s.world.identities
  named : ∀ {t u b c}, s.object? t = some b → s.object? u = some c → b.id = c.id → t = u
  stored : ∀ {t b k}, s.object? t = some b → b.key? = some k → k < s.world.allocations
  owned : ∀ {t u b c k}, s.object? t = some b → s.object? u = some c → b.key? = some k →
    c.key? = some k → t = u
  lent : ∀ {t b d a}, s.object? t = some b → b.backing = .borrowed d (some a) →
    ∃ k, a = .client k

/-- What stays was apart from all else before, and what is made is made of new parts. -/
theorem Apart.step {s : Session σ} (h : s.Apart) (op : Op ι) : (s.step D op).2.Apart where
  numbered ht := by
    rcases s.lineage ht with ⟨b, hb, rfl, _⟩ | ⟨_, hn, _⟩
    · rw [leaves_id]
      exact (h.numbered hb).trans_le (s.step_advances op).identities
    · exact hn.below
  named {t u _ _} ht hu hid := by
    rcases s.lineage ht with ⟨b, hb, rfl, _⟩ | ⟨hm, hn, _⟩ <;>
      rcases s.lineage hu with ⟨c, hc, rfl, _⟩ | ⟨hm', hn', _⟩
    · exact h.named hb hc (by simpa using hid)
    · have := h.numbered hb
      have := hn'.above
      rw [leaves_id] at hid
      rw [hid] at *
      omega
    · have := h.numbered hc
      have := hn.above
      rw [leaves_id] at hid
      rw [hid] at *
      omega
    · exact Option.some.inj (hm.symm.trans hm')
  stored ht hk := by
    rcases s.lineage ht with ⟨b, hb, rfl, _⟩ | ⟨_, hn, _⟩
    · rw [leaves_key?] at hk
      exact (h.stored hb hk).trans_le (s.step_advances op).allocations
    · exact (hn.stored _ hk).2
  owned {t u _ _ _} ht hu hk hk' := by
    rcases s.lineage ht with ⟨b, hb, rfl, _⟩ | ⟨hm, hn, _⟩ <;>
      rcases s.lineage hu with ⟨c, hc, rfl, _⟩ | ⟨hm', hn', _⟩
    · exact h.owned hb hc (by simpa using hk) (by simpa using hk')
    · have := h.stored hb (by simpa using hk)
      have := (hn'.stored _ hk').1
      omega
    · have := h.stored hc (by simpa using hk')
      have := (hn.stored _ hk).1
      omega
    · exact Option.some.inj (hm.symm.trans hm')
  lent ht hb' := by
    rcases s.lineage ht with ⟨b, hb, rfl, _⟩ | ⟨_, hn, _⟩
    · exact h.lent hb (by simpa using hb')
    · exact hn.lent _ _ hb'

/-- A buffer that is given back is the only one that has its id. -/
theorem Apart.unlock_eq {s : Session σ} (h : s.Apart) {surface : String} {x : Surface}
    (hx : s.surfaces.find? surface = some x) (id : BufferId) : x.unlock id = x.unlockFirst id := by
  refine Surface.unlock_eq_unlockFirst (fun i j b c hb hc hid => ?_) id
  have hsame : Target.slot surface i = .slot surface j :=
    h.named (Option.bind_eq_some_iff.mpr ⟨x, hx, hb⟩) (Option.bind_eq_some_iff.mpr ⟨x, hx, hc⟩) hid
  exact (Target.slot.inj hsame).2

theorem Apart.run {s : Session σ} (h : s.Apart) (ops : List (Op ι)) : (s.run D ops).2.Apart := by
  induction ops generalizing s with
  | nil => exact h
  | cons op ops ih => exact ih (h.step op)

theorem object?_start (d : σ) (t : Target) : (start d).object? t = none := by
  cases t <;> rfl

theorem apart_start (d : σ) : (start d).Apart where
  numbered h := by simp [object?_start] at h
  named h := by simp [object?_start] at h
  stored h := by simp [object?_start] at h
  owned h := by simp [object?_start] at h
  lent h := by simp [object?_start] at h

/-- An object found after a run was at the same target before it, and has been used, locked or
unlocked at most, or it was made during the run. -/
theorem ancestry (s : Session σ) {ops : List (Op ι)} {t : Target} {b' : BufferObject}
    (h : (s.run D ops).2.object? t = some b') :
    (∃ b, s.object? t = some b ∧
      ∃ m r l, b' = { b with mapping := m, references := r, locked := l }) ∨
      s.world.identities ≤ b'.id.number := by
  induction ops using List.reverseRecOn generalizing b' with
  | nil => exact .inl ⟨b', h, _, _, _, rfl⟩
  | append_singleton ops op ih =>
    rw [run_concat] at h
    rcases lineage _ h with ⟨b, hb, rfl, _⟩ | ⟨_, hn, _⟩
    · obtain ⟨m, r, l, hl⟩ := leaves_same (D := D) (s.run D ops).2 op t b
      rw [hl]
      rcases ih hb with ⟨c, hc, _, _, _, rfl⟩ | hn
      · exact .inl ⟨c, hc, m, r, l, rfl⟩
      · exact .inr hn
    · exact .inr ((s.run_advances ops).identities.trans hn.above)

/-- An object stays where it is for as long as it lives, and is used, locked or unlocked at most. -/
theorem Apart.endures {s : Session σ} (hs : s.Apart) {ops : List (Op ι)} {t t' : Target}
    {b b' : BufferObject} (hb : s.object? t = some b)
    (hb' : (s.run D ops).2.object? t' = some b') (hid : b'.id = b.id) :
    t' = t ∧ ∃ m r l, b' = { b with mapping := m, references := r, locked := l } := by
  rcases s.ancestry hb' with ⟨c, hc, m, r, l, rfl⟩ | hn
  · obtain rfl := hs.named hc hb hid
    obtain rfl := Option.some.inj (hc.symm.trans hb)
    exact ⟨rfl, m, r, l, rfl⟩
  · have := hs.numbered hb
    rw [hid] at hn
    omega

theorem Apart.stays {s : Session σ} (hs : s.Apart) {ops : List (Op ι)} {t t' : Target}
    {b b' : BufferObject} (hb : s.object? t = some b)
    (hb' : (s.run D ops).2.object? t' = some b') (hid : b'.id = b.id) :
    t' = t ∧ b'.backing = b.backing ∧ b'.byteSize = b.byteSize := by
  obtain ⟨rfl, _, _, _, rfl⟩ := hs.endures hb hb' hid
  exact ⟨rfl, rfl, rfl⟩

end DisplayBuffers.Session
