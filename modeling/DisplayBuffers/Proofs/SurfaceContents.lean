import DisplayBuffers.Proofs.Borrowed
import DisplayBuffers.Proofs.Contents
import DisplayBuffers.Proofs.FailedOperations
import DisplayBuffers.Proofs.FrontResolution

/-! What a surface holds fits it. The measures of a surface are settled when it is created; whatever
comes into a slot is made to them, and what was there before is gone by then. -/
namespace DisplayBuffers
variable {σ ι : Type} {D : Driver σ ι}

/-- A buffer object as it can be in a slot of a surface. It borrows and has no handle, or it owns
storage that was allocated for drawing on the surface. -/
structure Surface.Fits (events : List Event) (x : Surface) (b : BufferObject) : Prop where
  width : b.width = x.width
  height : b.height = x.height
  format : b.format = x.format.code
  content : (∃ d a stride, b.backing = .borrowed d a ∧ b.planes = [⟨.null, stride⟩]) ∨
    ∃ st d, b.backing = .owned st d ∧
      .allocate (.ofUsage (x.usage.union .write)) x.width x.height x.format (.ok st) ∈ events

namespace Surface
variable {x y : Surface} {b : BufferObject} {events events' : List Event} {i : Nat} {w w' : World σ}

/-- A surface as it was created: only the measures are left. -/
def blank (x : Surface) : Surface := { x.outline with front := none }

theorem measures_of_blank (h : x.blank = y.blank) :
    x.width = y.width ∧ x.height = y.height ∧ x.format = y.format ∧ x.usage = y.usage :=
  ⟨congrArg (·.width) h, congrArg (·.height) h, congrArg (·.format) h, congrArg (·.usage) h⟩

theorem Fits.mono (h : x.Fits events b) (hs : events <+: events') : x.Fits events' b where
  width := h.width
  height := h.height
  format := h.format
  content := h.content.imp_right fun ⟨st, d, hb, he⟩ => ⟨st, d, hb, hs.subset he⟩

theorem Fits.used (h : x.Fits events b) (m : Option Address) (r : Nat) (l : Bool) :
    x.Fits events { b with mapping := m, references := r, locked := l } :=
  ⟨h.width, h.height, h.format, h.content⟩

/-- What fits a surface depends on its measures alone. -/
theorem Fits.of_blank (h : x.Fits events b) (hxy : x.blank = y.blank) : y.Fits events b := by
  obtain ⟨hw, hh, hf, hu⟩ := measures_of_blank hxy
  obtain ⟨hbw, hbh, hbf, hc⟩ := h
  rw [hw, hh, hf, hu] at hc
  exact ⟨hbw.trans hw, hbh.trans hh, hbf.trans (congrArg _ hf), hc⟩

theorem fits_of_replace {z : Option SlotBuffer}
    (h : (x.replace D i z w).2.1.slot? i = some b) : x.Fits events b := by
  by_cases hi : i < slotCount
  · cases z with
    | none =>
      rw [x.slot?_replace_none w i] at h
      cases h
    | some z =>
      simp only [replace, if_pos hi, clear_surface] at h
      rw [slot?_withSlot, if_pos ⟨rfl, hi⟩] at h
      obtain rfl := Option.some.inj h
      exact ⟨rfl, rfl, rfl, .inl ⟨_, _, _, rfl, rfl⟩⟩
  · rw [slot?_eq_none _ hi] at h
    cases h

/-- A slot that was filled anew holds what a creation made, for drawing, after the slot had been
cleared. -/
theorem allocate_completed {id : BufferId} (h : x.allocate D i w = (.ok id, y, w')) :
    i < slotCount ∧ ∃ b A st d a, b.id = id ∧ y = x.withSlot i (some b) ∧
      BufferObject.Completed D x.width x.height x.format (x.usage.union .write) (x.clear D i w).2 A
        st d (some a) b w' := by
  by_cases hi : i < slotCount
  · rw [x.allocate_of_lt D hi] at h
    split at h
    · next b w₁ hq =>
      obtain ⟨hid, rfl, rfl⟩ := h
      obtain ⟨format, A, st, d, m, hf, hc⟩ := BufferObject.create_ok_logged hq
      obtain rfl := Option.some.inj ((PixelFormat.ofCode?_code x.format).symm.trans hf)
      obtain ⟨a, rfl⟩ : ∃ a, m = some a := by
        rw [← Option.isSome_iff_exists, hc.mapped.1, Usage.contains_union_right]
      exact ⟨hi, b, A, st, d, a, rfl, rfl, hc⟩
    · cases h
  · rw [allocate, if_neg hi] at h
    cases h

end Surface

/-- A completed creation begins with the allocation of the storage. -/
theorem BufferObject.Completed.allocation {width height : UInt32} {format : PixelFormat}
    {usage : Usage} {w w' : World σ} {A : Answers} {st : Storage} {d : Dmabuf} {m : Option Address}
    {b : BufferObject} (h : Completed D width height format usage w A st d m b w') :
    .allocate (.ofUsage usage) width height format (.ok st) ∈
      createCalls width height format usage A := by
  rw [createCalls, Answers.attempts, h.allocated]
  exact List.mem_cons_self

namespace Surface
variable {x y : Surface} {b : BufferObject} {i : Nat} {w w' : World σ}

theorem fits_of_allocate (h : (x.allocate D i w).2.1.slot? i = some b) :
    x.Fits (x.allocate D i w).2.2.events b := by
  rcases hq : x.allocate D i w with ⟨e | id, y, w'⟩ <;> rw [hq] at h
  · rw [(allocate_error hq).2.1 i, if_pos rfl] at h
    cases h
  · obtain ⟨hi, b', A, st, d, a, rfl, rfl, hc⟩ := allocate_completed hq
    rw [slot?_withSlot, if_pos ⟨rfl, hi⟩] at h
    obtain rfl := Option.some.inj h
    refine ⟨?_, ?_, ?_, .inr ⟨st, d, ?_, ?_⟩⟩
    · rw [hc.object]
    · rw [hc.object]
    · rw [hc.object]
    · rw [hc.object]
    · dsimp only
      rw [hc.events]
      exact List.mem_append_right _ hc.allocation

/-- What the log has of the end of what is in a slot. -/
def removal (D : Driver σ ι) (x : Surface) (i : Nat) (unmapped released : Except IoError Unit) :
    List Event :=
  match x.slot? i with
  | none => []
  | some b => (if b.locked then [.warn (.replacedLocked i b.id), .warn (.destroyedLocked b.id)]
      else []) ++ (b.parting unmapped released).flatMap (Event.logged D)

theorem clear_logged (D : Driver σ ι) (x : Surface) (i : Nat) (w : World σ) :
    ∃ unmapped released,
      (x.clear D i w).2.events = w.events ++ x.removal D i unmapped released := by
  have h := x.clear_rid D i w
  unfold World.Rid at h
  unfold removal
  cases hs : x.slot? i with
  | none =>
    rw [hs] at h
    exact ⟨.ok (), .ok (), by rw [h, List.append_nil]⟩
  | some b =>
    rw [hs] at h
    obtain ⟨driver, unmapped, released, h, -⟩ := h
    exact ⟨unmapped, released, by rw [h]⟩

/-- The driver is not asked for what is put into a slot. -/
theorem replace_logged (D : Driver σ ι) (x : Surface) (hi : i < slotCount) (z : Option SlotBuffer)
    (w : World σ) : ∃ unmapped released,
      (x.replace D i z w).2.2.events = w.events ++ x.removal D i unmapped released := by
  rw [replace, if_pos hi]
  cases z <;> exact x.clear_logged D i w

/-- Storage for a slot is asked for when what was there is gone. -/
theorem allocate_logged (D : Driver σ ι) (x : Surface) (hi : i < slotCount) (w : World σ) :
    ∃ unmapped released A rest, (x.allocate D i w).2.2.events = w.events ++
        (x.removal D i unmapped released ++
          BufferObject.createCalls x.width x.height x.format (x.usage.union .write) A ++ rest) ∧
      (rest = [] ∨ rest = A.undoing ++ A.complaints.map .warn) := by
  obtain ⟨unmapped, released, hclear⟩ := x.clear_logged D i w
  have hformat {format : PixelFormat} (hf : PixelFormat.ofCode? x.format.code = some format) :
      format = x.format :=
    Option.some.inj (hf.symm.trans (PixelFormat.ofCode?_code x.format))
  rw [x.allocate_of_lt D hi]
  rcases hq : BufferObject.create D x.width x.height x.format.code (x.usage.union .write)
    (x.clear D i w).2 with ⟨e | b, w'⟩
  · rcases BufferObject.create_error_logged hq with ⟨hf, _⟩ | ⟨format, A, hf, hA⟩
    · cases (PixelFormat.ofCode?_code x.format).symm.trans hf
    · obtain rfl := hformat hf
      refine ⟨unmapped, released, A, _, ?_, .inr rfl⟩
      dsimp only
      rw [hA.events, hclear]
      simp only [List.append_assoc]
  · obtain ⟨format, A, st, d, m, hf, hc⟩ := BufferObject.create_ok_logged hq
    obtain rfl := hformat hf
    refine ⟨unmapped, released, A, [], ?_, .inl rfl⟩
    dsimp only
    rw [hc.events, hclear, List.append_nil, List.append_assoc]

end Surface

namespace Session

section
variable {s : Session σ} {op : Op ι} {surface : String} {x : Surface}

/-- Whether an operation can put another surface, or none, under a name. -/
def Op.Recreates (surface : String) : Op ι → Prop
  | .createSurface name _ _ _ _ | .destroySurface name => name = surface
  | _ => False

/-- A surface that takes the place of another is empty; the other one stays if there is none. -/
theorem recreates_cases (h : op.Recreates surface) :
    ((s.turn D op).answer = .done ∧ ∀ y, (s.step D op).2.surfaces.find? surface = some y →
      (∀ i, y.slot? i = none) ∧ y.front = none) ∨
    ((s.turn D op).answer ≠ .done ∧ (s.step D op).2.surfaces = s.surfaces) := by
  cases op with
  | createSurface m width height format usage =>
    obtain rfl : m = surface := h
    cases hd : s.device with
    | false => exact .inr (by simp [turn, step, onDevice, hd, refuse])
    | true =>
      cases hc : Surface.create width height format usage with
      | error e => exact .inr (by simp [turn, step, onDevice, hd, hc, reply])
      | ok x =>
        refine .inl ⟨by simp [turn, step, onDevice, hd, hc], fun y hy => ?_⟩
        simp only [step, onDevice, hd, if_true, hc] at hy
        rw [keepSurface, Table.find?_insert, if_pos rfl] at hy
        obtain rfl := Option.some.inj hy
        exact ⟨Surface.slot?_create hc, (Surface.create_empty hc).2⟩
  | destroySurface m =>
    obtain rfl : m = surface := h
    cases hx : s.surfaces.find? m with
    | none => exact .inr (by simp [turn, step, hx, refuse])
    | some x =>
      refine .inl ⟨by simp [turn, step, hx, reply], fun y hy => ?_⟩
      simp [step, hx, reply, Table.find?_erase] at hy
  | _ => exact h.elim

/-- The measures of a surface stay as they are for as long as nothing takes its place. -/
theorem blank_step (h : op.Recreates surface → (s.turn D op).answer ≠ .done) :
    ((s.step D op).2.surfaces.find? surface).map (·.blank) =
      (s.surfaces.find? surface).map (·.blank) := by
  by_cases hr : op.Recreates surface
  · rcases recreates_cases (s := s) (D := D) hr with ⟨hd, _⟩ | ⟨_, hs⟩
    · exact absurd hd (h hr)
    · rw [hs]
  · by_cases hf : op.Refronts surface
    · cases op with
      | setFront m front =>
        obtain rfl : m = surface := hf
        rw [step, onSurface]
        cases hx : s.surfaces.find? m with
        | none => simp [refuse, hx]
        | some x =>
          simp only [Table.find?_insert, if_true, Option.map_some, Surface.setFront]
          split <;> rfl
      | createSurface => exact absurd hf hr
      | destroySurface => exact absurd hf hr
      | _ => exact hf.elim
    · have ho := outline?_step (D := D) s hf
      have hblank (s : Session σ) : (s.surfaces.find? surface).map (·.blank) =
          (s.outline? surface).map (·.blank) := by
        rw [outline?, Option.map_map]
        rfl
      rw [hblank, hblank, ho]

theorem blank_run {ops : List (Op ι)}
    (h : ∀ e ∈ s.history D ops, e.op.Recreates surface → e.answer ≠ .done) :
    ((s.run D ops).2.surfaces.find? surface).map (·.blank) =
      (s.surfaces.find? surface).map (·.blank) := by
  induction ops using List.reverseRecOn with
  | nil => rfl
  | append_singleton ops op ih =>
    rw [history_concat] at h
    have hlast := h _ (List.mem_append_right _ (List.mem_singleton_self _))
    rw [run_concat]
    exact (blank_step hlast).trans (ih fun e he => h e (List.mem_append_left _ he))

/-- A front is chosen among the slots there are. -/
theorem lt_of_fronts? {i : Nat} (h : (s.turn D op).fronts? surface = some (some i)) :
    i < slotCount := by
  unfold Turn.fronts? at h
  split at h
  · next m front hop ha =>
    obtain rfl : op = .setFront m front := hop
    rw [turn, step, onSurface] at ha
    cases hx : s.surfaces.find? m with
    | none => simp [hx, refuse] at ha
    | some x =>
      rcases hq : x.setFront front with ⟨e | ⟨⟩, y⟩
      · simp [hx, hq, Answer.ofUnit] at ha
      · obtain ⟨_, rfl⟩ : m = surface ∧ front = some i := by simpa using h
        exact (Surface.setFront_some hq).1
  · simp at h
  · simp at h
  · cases h

end

theorem front_lt (D : Driver σ ι) (d : σ) (ops : List (Op ι)) {surface : String} {x : Surface}
    {i : Nat} (hx : ((start d).run D ops).2.surfaces.find? surface = some x)
    (hi : x.front = some i) : i < slotCount := by
  have hf : ((start d).run D ops).2.frontIndex? surface = some i := by
    rw [frontIndex?, hx]
    exact hi
  clear hx hi
  induction ops using List.reverseRecOn with
  | nil => cases hf
  | append_singleton ops op ih =>
    rw [run_concat, frontIndex?_step] at hf
    cases ho : (turn D ((start d).run D ops).2 op).fronts? surface with
    | none =>
      rw [ho] at hf
      exact ih hf
    | some front =>
      rw [ho] at hf
      obtain rfl : front = some i := hf
      exact lt_of_fronts? ho

section
variable {s : Session σ} {surface : String} {x : Surface} {i : Nat}

/-- One operation of a surface that is there. -/
theorem step_onSurface (op : Op ι) {f : Surface → World σ → Answer × Surface × World σ}
    {s' : Session σ} (hop : s.step D op = s'.onSurface surface f)
    (hx : s'.surfaces.find? surface = some x) :
    s.step D op = (⟨(f x s'.world).1, .surface (f x s'.world).2.1⟩, { s' with
      world := (f x s'.world).2.2
      surfaces := s'.surfaces.insert surface (f x s'.world).2.1 }) := by
  rw [hop, onSurface, hx]

/-- A replacement that is done is done by a surface, for a slot that it has. -/
theorem world_of_replaced {y : Option NamedBuffer}
    (h : (s.step D (.replace surface i y)).1.answer = .done) :
    ∃ x z, s.surfaces.find? surface = some x ∧ i < slotCount ∧
      (s.step D (.replace surface i y)).2.world = (x.replace D i z s.world).2.2 := by
  rcases s.replace_cases D surface i y with hs | ⟨z, descriptors, hs⟩
  · rw [step, hs] at h
    cases h
  · replace hs : s.step D (.replace surface i y) = _ := hs
    cases hx : s.surfaces.find? surface with
    | none =>
      simp only [hs, onSurface, hx] at h
      cases h
    | some x =>
      have hstep := step_onSurface (.replace surface i y) hs hx
      rw [hstep] at h ⊢
      refine ⟨x, z, rfl, ?_, rfl⟩
      by_contra hi
      simp only [replacing, (Surface.replace_error D x hi z s.world).1] at h
      cases h

theorem step_allocate (hx : s.surfaces.find? surface = some x) :
    (s.step D (.allocate surface i)).1.answer =
        (match (x.allocate D i s.world).1 with
          | .ok id => .identity (some id)
          | .error e => .failed e) ∧
      (s.step D (.allocate surface i)).2 = { s with
        world := (x.allocate D i s.world).2.2
        surfaces := s.surfaces.insert surface (x.allocate D i s.world).2.1 } := by
  simp only [step, onSurface, hx]
  rcases x.allocate D i s.world with ⟨_ | _, _, _⟩ <;> exact ⟨rfl, rfl⟩

/-- A slot that was filled anew can be drawn in. The object in it has storage that was allocated
with the measures of the surface. -/
theorem allocated_for_drawing {id : BufferId}
    (h : (s.step D (.allocate surface i)).1.answer = .identity (some id)) :
    ∃ x b st f, s.surfaces.find? surface = some x ∧
      (s.step D (.allocate surface i)).2.object? (.slot surface i) = some b ∧ b.id = id ∧
      b.backing = .owned st f ∧ b.isMapped = true ∧ b.references = 1 ∧
      .allocate (.ofUsage (x.usage.union .write)) x.width x.height x.format (.ok st) ∈
        (s.turn D (.allocate surface i)).events := by
  cases hx : s.surfaces.find? surface with
  | none =>
    simp only [step, onSurface, hx] at h
    cases h
  | some x =>
    obtain ⟨hanswer, hafter⟩ := step_allocate (D := D) (i := i) hx
    rw [hanswer] at h
    rcases hq : x.allocate D i s.world with ⟨e | id', y, w'⟩ <;> rw [hq] at h hafter
    · cases h
    · obtain rfl : id' = id := by simpa using h
      obtain ⟨hi, b, A, st, f, a, hid, rfl, hc⟩ := Surface.allocate_completed hq
      obtain ⟨unmapped, released, hclear⟩ := x.clear_logged D i s.world
      have hevents : (s.turn D (.allocate surface i)).events =
          x.removal D i unmapped released ++
            BufferObject.createCalls x.width x.height x.format (x.usage.union .write) A := by
        refine turn_events ?_
        rw [hafter, hc.events, hclear, List.append_assoc]
      have hobject : (s.step D (.allocate surface i)).2.object? (.slot surface i) = some b := by
        rw [hafter, object?_insert_surface, if_pos rfl, Surface.slot?_withSlot, if_pos ⟨rfl, hi⟩]
      refine ⟨x, b, st, f, rfl, hobject, hid, ?_, ?_, ?_, ?_⟩
      · rw [hc.object]
      · rw [hc.object]
        rfl
      · rw [hc.object]
        exact if_pos (Usage.contains_union_right _ _)
      · rw [hevents]
        exact List.mem_append_right _ hc.allocation

theorem slotBuffer?_stride {y : NamedBuffer} {z : SlotBuffer} (h : s.slotBuffer? y = some z) :
    z.stride = y.stride := by
  unfold slotBuffer? at h
  split at h
  · cases h
  · obtain ⟨_, _, rfl⟩ := Option.map_eq_some_iff.mp h
    rfl
  · obtain ⟨_, _, rfl⟩ := Option.map_eq_some_iff.mp h
    rfl
  · split at h
    · obtain rfl := Option.some.inj h
      rfl
    · cases h

/-- What an operation puts into a slot fits, if what was there before did. -/
theorem fits_step {op : Op ι} {y : Surface} {b : BufferObject}
    (hold : ∀ x b, s.surfaces.find? surface = some x → x.slot? i = some b →
      x.Fits s.world.events b)
    (hy : (s.step D op).2.surfaces.find? surface = some y) (hb : y.slot? i = some b) :
    y.Fits (s.step D op).2.world.events b := by
  have hgrow := (s.step_advances (D := D) op).events
  have hobject : (s.step D op).2.object? (.slot surface i) = some b := by
    rw [object?, hy]
    exact hb
  by_cases hr : op.Recreates surface ∧ (s.turn D op).answer = .done
  · rcases recreates_cases (s := s) (D := D) hr.1 with ⟨_, hempty⟩ | ⟨hd, _⟩
    · cases ((hempty y hy).1 i).symm.trans hb
    · exact absurd hr.2 hd
  have hblank := blank_step (s := s) (D := D) fun h hd => hr ⟨h, hd⟩
  rw [hy] at hblank
  obtain ⟨x, hx, hblank⟩ := Option.map_eq_some_iff.mp hblank.symm
  -- What was in the slot fits the surface as it was, and so the surface as it is.
  have hstay {c : BufferObject} (hc : s.object? (.slot surface i) = some c) :
      y.Fits (s.step D op).2.world.events c := by
    rw [object?, hx] at hc
    exact ((hold x c hx hc).mono hgrow).of_blank hblank
  have hrecreated (h : op.Recreates surface) : y.Fits (s.step D op).2.world.events b := by
    rcases recreates_cases (s := s) (D := D) h with ⟨hd, _⟩ | ⟨_, hs⟩
    · exact absurd ⟨h, hd⟩ hr
    · refine hstay ?_
      rw [object?, ← hs]
      exact hobject
  by_cases hn : op.Renews (.slot surface i)
  · cases op with
    | createSurface m width height format usage =>
      exact hrecreated (Option.some.inj hn).symm
    | destroySurface m =>
      exact hrecreated (Option.some.inj hn).symm
    | replace m j buffer =>
      obtain ⟨rfl, rfl⟩ := Target.slot.inj hn
      rw [step] at hobject
      rcases s.replace_cases D surface i buffer with hs | ⟨z, descriptors, hs⟩
      · rw [hs] at hobject
        exact hstay hobject
      · rw [hs, object?_onSurface_slot] at hobject
        dsimp only at hobject
        rw [hx] at hobject
        exact (Surface.fits_of_replace hobject).of_blank hblank
    | allocate m j =>
      obtain ⟨rfl, rfl⟩ := Target.slot.inj hn
      have hs := (step_allocate (D := D) (i := i) hx).2
      rw [hs] at hobject ⊢
      rw [object?_insert_surface, if_pos rfl] at hobject
      exact (Surface.fits_of_allocate hobject).of_blank hblank
    | _ => cases hn
  · rw [object?_step_of_not_renews s hn] at hobject
    obtain ⟨c, hc, rfl⟩ := Option.map_eq_some_iff.mp hobject
    obtain ⟨m, r, l, hl⟩ := leaves_same (D := D) s op (.slot surface i) c
    rw [hl]
    exact (hstay hc).used m r l

end

theorem fits (D : Driver σ ι) (d : σ) (ops : List (Op ι)) {surface : String} {i : Nat}
    {x : Surface} {b : BufferObject}
    (hx : ((start d).run D ops).2.surfaces.find? surface = some x) (hb : x.slot? i = some b) :
    x.Fits ((start d).run D ops).2.world.events b := by
  induction ops using List.reverseRecOn generalizing x b with
  | nil => cases hx
  | append_singleton ops op ih =>
    rw [run_concat] at hx ⊢
    exact fits_step (fun _ _ hx hb => ih hx hb) hx hb

end Session

/-- What holds of a surface at any time. -/
structure Surface.Sound (events : List Event) (x : Surface) : Prop where
  front : ∀ i, x.front = some i → i < 2
  format : x.format.code = 875713112 ∨ x.format.code = 875713089
  fits : ∀ i b, x.slot? i = some b → i < 2 ∧ x.Fits events b
  distinct : ∀ i j b c, x.slot? i = some b → x.slot? j = some c → b.id = c.id → i = j

namespace Session

theorem sound (D : Driver σ ι) (d : σ) (ops : List (Op ι)) {surface : String} {x : Surface}
    (hx : ((start d).run D ops).2.surfaces.find? surface = some x) :
    x.Sound ((start d).run D ops).2.world.events where
  front i := front_lt D d ops hx
  format := by
    cases x.format
    · exact .inl rfl
    · exact .inr rfl
  fits i b hb := ⟨Surface.lt_of_slot? hb, fits D d ops hx hb⟩
  distinct i j b c hb hc hid := by
    have hobject (k : Nat) :
        ((start d).run D ops).2.object? (.slot surface k) = x.slot? k := by
      rw [object?, hx]
      rfl
    have hs : Apart ((start d).run D ops).2 := (apart_start d).run ops
    exact (Target.slot.inj (hs.named ((hobject i).trans hb) ((hobject j).trans hc) hid)).2

section
variable {s : Session σ} {surface : String} {x : Surface} {i : Nat}

theorem measures_run {ops : List (Op ι)} (hx : s.surfaces.find? surface = some x)
    (h : ∀ e ∈ s.history D ops, e.op.Recreates surface → e.answer ≠ .done) :
    ∃ y, (s.run D ops).2.surfaces.find? surface = some y ∧ y.width = x.width ∧
      y.height = x.height ∧ y.format = x.format ∧ y.usage = x.usage := by
  have hblank := blank_run h
  rw [hx] at hblank
  obtain ⟨y, hy, hblank⟩ := Option.map_eq_some_iff.mp hblank
  exact ⟨y, hy, Surface.measures_of_blank hblank⟩

/-- A buffer from elsewhere is borrowed for as long as it is there. -/
theorem borrowed_while_there (hs : Apart s) {y : NamedBuffer}
    (h : (s.turn D (.replace surface i (some y))).answer = .done) :
    ∃ b, (s.turn D (.replace surface i (some y))).after.object? (.slot surface i) = some b ∧
      ∀ later c, ((s.turn D (.replace surface i (some y))).after.run D later).2.object?
        (.slot surface i) = some c → c.id = b.id →
          c.ownership = .borrowed ∧ c.planes = [⟨.null, y.stride⟩] := by
  obtain ⟨z, b, hz, hb, hbacking, hplanes⟩ := installs_borrow h
  refine ⟨b, hb, fun later c hc hid => ?_⟩
  obtain ⟨_, m, r, l, rfl⟩ := Apart.endures (hs.step _) hb hc hid
  rw [← slotBuffer?_stride hz]
  exact ⟨by simp only [BufferObject.ownership, hbacking], hplanes⟩

theorem events_of_replaced (hx : s.surfaces.find? surface = some x) (hi : i < slotCount)
    {y : Option NamedBuffer} (h : (s.turn D (.replace surface i y)).answer = .done) :
    ∃ unmapped released,
      (s.turn D (.replace surface i y)).events = x.removal D i unmapped released := by
  obtain ⟨x', z, hx', _, hworld⟩ := world_of_replaced h
  obtain rfl := Option.some.inj (hx.symm.trans hx')
  obtain ⟨unmapped, released, hlog⟩ := x.replace_logged D hi z s.world
  exact ⟨unmapped, released, turn_events (by rw [hworld, hlog])⟩

theorem events_of_allocate (hx : s.surfaces.find? surface = some x) (hi : i < slotCount) :
    ∃ unmapped released A rest, (s.turn D (.allocate surface i)).events =
        x.removal D i unmapped released ++
          BufferObject.createCalls x.width x.height x.format (x.usage.union .write) A ++ rest ∧
      (rest = [] ∨ rest = A.undoing ++ A.complaints.map .warn) := by
  obtain ⟨unmapped, released, A, rest, hlog, hrest⟩ := x.allocate_logged D hi s.world
  refine ⟨unmapped, released, A, rest, turn_events ?_, hrest⟩
  rw [(step_allocate hx).2, hlog]

end

/-- A surface keeps its measures, and what its slots hold is made to them. A buffer from elsewhere
is borrowed for as long as it is there; one that is allocated can be drawn in at once. What a slot
held is destroyed before anything is asked of the driver for what comes into it. -/
theorem surfaces_sound (D : Driver σ ι) (d : σ) (ops : List (Op ι)) (surface : String) :
    let s := ((start d).run D ops).2
    (∀ x, s.surfaces.find? surface = some x → x.Sound s.world.events) ∧
    (∀ x later, s.surfaces.find? surface = some x →
      (∀ e ∈ s.history D later, e.op.Recreates surface → e.answer ≠ .done) →
      ∃ y, (s.run D later).2.surfaces.find? surface = some y ∧ y.width = x.width ∧
        y.height = x.height ∧ y.format = x.format ∧ y.usage = x.usage) ∧
    (∀ i y, (s.turn D (.replace surface i (some y))).answer = .done →
      ∃ b, (s.turn D (.replace surface i (some y))).after.object? (.slot surface i) = some b ∧
        ∀ later c, ((s.turn D (.replace surface i (some y))).after.run D later).2.object?
          (.slot surface i) = some c → c.id = b.id →
            c.ownership = .borrowed ∧ c.planes = [⟨.null, y.stride⟩]) ∧
    (∀ i id, (s.turn D (.allocate surface i)).answer = .identity (some id) →
      ∃ x b st f, s.surfaces.find? surface = some x ∧
        (s.turn D (.allocate surface i)).after.object? (.slot surface i) = some b ∧ b.id = id ∧
        b.backing = .owned st f ∧ b.isMapped = true ∧ b.references = 1 ∧
        .allocate (.ofUsage (x.usage.union .write)) x.width x.height x.format (.ok st) ∈
          (s.turn D (.allocate surface i)).events ∧
        ∀ data, ((s.turn D (.allocate surface i)).after.step D
          (.write (.slot surface i) data)).1.answer =
            if data.length ≤ b.byteSize then .done else .failed (.invalidArgument .writeTooLong)) ∧
    ∀ x i, s.surfaces.find? surface = some x → i < 2 →
      (∀ y, (s.turn D (.replace surface i y)).answer = .done →
        ∃ unmapped released,
          (s.turn D (.replace surface i y)).events = x.removal D i unmapped released) ∧
      ∃ unmapped released A rest, (s.turn D (.allocate surface i)).events =
          x.removal D i unmapped released ++
            BufferObject.createCalls x.width x.height x.format (x.usage.union .write) A ++ rest ∧
        (rest = [] ∨ rest = A.undoing ++ A.complaints.map .warn) := by
  intro s
  refine ⟨fun x hx => sound D d ops hx, fun x later => measures_run,
    fun i y => borrowed_while_there ((apart_start d).run ops), ?_,
    fun x i hx hi => ⟨fun y => events_of_replaced hx hi, events_of_allocate hx hi⟩⟩
  intro i id hid
  obtain ⟨x, b, st, f, hx, hb, hbid, hbacking, hmapped, hreferences, hcall⟩ :=
    allocated_for_drawing hid
  refine ⟨x, b, st, f, hx, hb, hbid, hbacking, hmapped, hreferences, hcall, fun data => ?_⟩
  exact (answer_write hb D data).1.trans (if_pos hmapped)

end Session
end DisplayBuffers
