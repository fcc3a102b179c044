import DisplayBuffers.Proofs.FailedOperations
import DisplayBuffers.Proofs.PlaneImport

/-! The ends of buffer objects in the log, and what else the log gains when objects are made and
used. A departure warns of a lock first and then makes its calls, each followed by the warning of
its failure. -/
namespace DisplayBuffers
variable {σ ι : Type} {D : Driver σ ι}

namespace Event

/-- Neither a warning nor a call whose failure can be warned of. -/
def isPlain : Event → Bool
  | .unmap _ _ _ | .release _ _ | .warn _ => false
  | _ => true

theorem warning?_of_plain {e : Event} (h : e.isPlain = true) : e.warning? = none := by
  cases e <;> first | rfl | cases h

theorem warnings_of_warn (xs : List Warning) : (xs.map warn).filterMap warning? = xs := by
  rw [List.filterMap_map]
  exact List.filterMap_some

theorem logged_of_plain {e : Event} (h : e.isPlain = true) : e.logged D = [e] := by
  cases e <;> first | rfl | cases h

theorem flatMap_logged_of_plain {l : List Event} (h : ∀ e ∈ l, e.isPlain = true) :
    l.flatMap (logged D) = l := by
  induction l with
  | nil => rfl
  | cons e l ih =>
    rw [List.flatMap_cons, logged_of_plain (h e List.mem_cons_self),
      ih fun x hx => h x (List.mem_cons_of_mem e hx)]
    rfl

/-- The warnings among calls and what is warned of after each. -/
theorem warnings_of_logged {l : List Event} (h : ∀ e ∈ l, e.warning? = none) :
    (l.flatMap (logged D)).filterMap warning? = l.flatMap (complaints D) := by
  induction l with
  | nil => rfl
  | cons e l ih =>
    rw [List.flatMap_cons, List.filterMap_append, ih fun x hx => h x (List.mem_cons_of_mem e hx),
      List.flatMap_cons, logged, List.filterMap_cons_none (h e List.mem_cons_self),
      warnings_of_warn]

/-- The handle that a conversion answered. -/
def converted? : Event → Option Handle
  | .importDescriptor _ (.ok handle) => some handle
  | _ => none

theorem conversions_plain (ds : List Dmabuf) (rs : List (Except IoError Handle)) :
    ∀ e ∈ List.zipWith importDescriptor ds rs, e.isPlain = true := by
  intro e he
  rw [← List.map_uncurry_zip_eq_zipWith] at he
  obtain ⟨⟨d, r⟩, -, rfl⟩ := List.mem_map.mp he
  rfl

/-- The handles that were answered before the last conversion was refused. -/
theorem converted_of_aborted {ds : List Dmabuf} {handles : List Handle} {c : IoError}
    (h : ds.length = handles.length + 1) :
    (List.zipWith importDescriptor ds (handles.map .ok ++ [.error c])).filterMap converted? =
      handles := by
  induction handles generalizing ds with
  | nil =>
    obtain ⟨d, rfl⟩ := List.length_eq_one_iff.mp h
    rfl
  | cons handle handles ih =>
    obtain _ | ⟨d, ds⟩ := ds
    · cases h
    · rw [List.map_cons, List.cons_append, List.zipWith_cons_cons,
        List.filterMap_cons_some (f := converted?) rfl, ih (Nat.succ.inj h)]

end Event

/-- What is warned of when planes are left converted: nothing if there are none. -/
def Warning.ofOrphaned : List Handle → List Warning
  | [] => []
  | handles => [.importAborted handles]

/-- The end of a buffer object, with the driver's answers to the calls that it takes. The object may
have to make room in a slot of a surface. -/
structure Departure where
  slot : Option Nat
  object : BufferObject
  unmapped : Except IoError Unit
  released : Except IoError Unit

namespace Departure

/-- What is warned of beforehand if the display still holds on to the object. -/
def alarms (x : Departure) : List Warning :=
  if x.object.locked then
    x.slot.toList.map (.replacedLocked · x.object.id) ++ [.destroyedLocked x.object.id]
  else []

/-- The calls that give back what the object holds: it is unmapped, its descriptor is closed, and
its storage is released. -/
def calls (x : Departure) : List Event := x.object.parting x.unmapped x.released

/-- All that is warned of, in order. -/
def warnings (D : Driver σ ι) (x : Departure) : List Warning :=
  x.alarms ++ x.calls.flatMap (Event.complaints D)

def log (D : Driver σ ι) (x : Departure) : List Event :=
  x.alarms.map .warn ++ x.calls.flatMap (Event.logged D)

/-- No call of a departure is a warning. -/
theorem warning?_of_call {x : Departure} {e : Event} (h : e ∈ x.calls) : e.warning? = none := by
  rcases BufferObject.mem_parting h with ⟨_, _, _, _, _, rfl⟩ | ⟨_, rfl⟩ | ⟨_, _, _, rfl⟩ <;> rfl

theorem warnings_of_log (x : Departure) :
    (x.log D).filterMap Event.warning? = x.warnings D := by
  rw [log, List.filterMap_append, Event.warnings_of_logged fun _ => warning?_of_call,
    Event.warnings_of_warn]
  rfl

end Departure

namespace World
variable {w w' w'' : World σ}

/-- The log gains events with a property. -/
def Gains (P : Event → Prop) (w w' : World σ) : Prop :=
  ∃ l, w'.events = w.events ++ l ∧ ∀ e ∈ l, P e

section
variable {P : Event → Prop}

theorem Gains.of_same (h : w'.events = w.events) : w.Gains P w' :=
  ⟨[], by rw [h, List.append_nil], nofun⟩

theorem Gains.one {e : Event} (h : w'.events = w.events ++ [e]) (he : P e) : w.Gains P w' :=
  ⟨[e], h, fun _ hx => List.mem_singleton.mp hx ▸ he⟩

theorem Gains.trans (h : w.Gains P w') (k : w'.Gains P w'') : w.Gains P w'' := by
  obtain ⟨l, hl, hp⟩ := h
  obtain ⟨m, hm, hq⟩ := k
  refine ⟨l ++ m, by rw [hm, hl, List.append_assoc], fun e he => ?_⟩
  exact (List.mem_append.mp he).elim (hp e) (hq e)

/-- A call with what is warned of after it. -/
theorem Gains.logged {e : Event} (h : w'.events = w.events ++ e.logged D) (he : P e)
    (hwarn : ∀ x, P (.warn x)) : w.Gains P w' := by
  refine ⟨_, h, fun x hx => ?_⟩
  rcases Event.mem_logged hx with rfl | ⟨y, rfl⟩
  · exact he
  · exact hwarn y

end

/-- The log gains plain events. -/
def Plainly (w w' : World σ) : Prop := w.Gains (·.isPlain = true) w'

/-- The log gains departures of objects, in order. -/
def Departs (D : Driver σ ι) (w w' : World σ) (gone : List (Option Nat × BufferObject)) : Prop :=
  ∃ departures : List Departure, departures.map (fun x => (x.slot, x.object)) = gone ∧
    w'.events = w.events ++ departures.flatMap (·.log D)

theorem Departs.nobody (h : w'.events = w.events) : w.Departs D w' [] :=
  ⟨[], rfl, by rw [h]; exact (List.append_nil _).symm⟩

theorem Departs.trans {gone gone' : List (Option Nat × BufferObject)} (h : w.Departs D w' gone)
    (k : w'.Departs D w'' gone') : w.Departs D w'' (gone ++ gone') := by
  obtain ⟨ds, rfl, hd⟩ := h
  obtain ⟨es, rfl, he⟩ := k
  exact ⟨ds ++ es, List.map_append, by rw [he, hd, List.flatMap_append, List.append_assoc]⟩

/-- In departures there are warnings, calls that can be warned of, and closed descriptors. -/
theorem Departs.gains {gone : List (Option Nat × BufferObject)} {P : Event → Prop}
    (h : w.Departs D w' gone) (hP : ∀ e, e.isPlain = false → P e) (hclose : ∀ d, P (.close d)) :
    w.Gains P w' := by
  obtain ⟨departures, -, hw⟩ := h
  refine ⟨_, hw, fun e he => ?_⟩
  obtain ⟨x, -, he⟩ := List.mem_flatMap.mp he
  rcases List.mem_append.mp he with he | he
  · obtain ⟨y, -, rfl⟩ := List.mem_map.mp he
    exact hP _ rfl
  · rcases Event.mem_flatMap_logged he with he | ⟨y, rfl⟩
    · rcases BufferObject.mem_parting he with ⟨_, _, _, _, _, rfl⟩ | ⟨d, rfl⟩ | ⟨_, _, _, rfl⟩
      · exact hP _ rfl
      · exact hclose d
      · exact hP _ rfl
    · exact hP _ rfl

end World

namespace BufferObject
variable {b b' : BufferObject} {w w' : World σ}

theorem destroy_departs (b : BufferObject) (D : Driver σ ι) (w : World σ) :
    w.Departs D (b.destroy D w) [(none, b)] := by
  obtain ⟨driver, unmapped, released, h, -⟩ := b.destroy_logged D w
  refine ⟨[⟨none, b, unmapped, released⟩], rfl, ?_⟩
  rw [h, List.flatMap_singleton, Departure.log, Departure.alarms, Departure.calls]
  cases b.locked <;> rfl

theorem acquire_plainly {r : Except Error Address} (h : b.acquire D w = (r, b', w')) :
    w.Plainly w' := by
  cases acquired h with
  | first hb hm hw => exact .one (congrArg World.events (World.map_eq hw)) rfl
  | failed hb hm hw => exact .one (congrArg World.events (World.map_eq hw)) rfl
  | _ => exact .of_same rfl

theorem acquireRegion_plainly {r : Except Error Address} {x y width height : UInt32}
    (h : b.acquireRegion D x y width height w = (r, b', w')) : w.Plainly w' := by
  rw [acquireRegion] at h
  split at h
  · exact acquire_plainly h
  · obtain ⟨-, -, rfl⟩ := h
    exact .of_same rfl

theorem share_plainly {r : Except Error Dmabuf} (h : b.share D w = (r, w')) : w.Plainly w' := by
  cases shared h with
  | nothing hn hd => exact .of_same rfl
  | duplicated hn hd hw => exact .one (congrArg World.events (World.duplicate_ok hw).2) rfl
  | notDuplicated hn hd hw => exact .one (congrArg World.events (World.duplicate_error hw)) rfl
  | exported hn hw => exact .one (congrArg World.events (World.exportHandle_ok hw)) rfl
  | notExported hn hw => exact .one (congrArg World.events (World.exportHandle_error hw)) rfl

/-- At most a mapping of the object's own storage is undone when a reference is given back. -/
theorem release_unmaps (b : BufferObject) (D : Driver σ ι) (w : World σ) :
    (b.release D w).2.events = w.events ∨ ∃ st d a r, b.backing = .owned st d ∧
      b.mapping = some a ∧
      (b.release D w).2.events = w.events ++ (Event.unmap st a r).logged D := by
  have h := released D b w
  generalize (b.release D w).1 = b', (b.release D w).2 = w' at h
  cases h with
  | @unmapped s d a hb hm hr =>
    exact .inr ⟨s, d, a, _, hb, hm, congrArg World.events (w.unmap_logged D s a)⟩
  | _ => exact .inl rfl

/-- A user of the mapping may have it made, and have it undone again. -/
theorem withMapping_unmaps {r : Except Error (List Seen)} {l : List Access}
    (h : b.withMapping D l w = (r, b', w')) : w.Plainly w' ∨ ∃ w₁ st d a r, w.Plainly w₁ ∧
      b.backing = .owned st d ∧ w'.events = w₁.events ++ (Event.unmap st a r).logged D := by
  rw [withMapping] at h
  rcases ha : b.acquire D w with ⟨e | a, b₁, w₁⟩ <;> rw [ha] at h
  · obtain ⟨-, -, rfl⟩ := h
    exact .inl (acquire_plainly ha)
  · obtain ⟨-, -, rfl⟩ := h
    obtain rfl := acquire_retains ha
    obtain ⟨m, hm⟩ := (b.retain a).accessAll_memory D a l w₁
    have hw₁ : w.Plainly ((b.retain a).accessAll D a l w₁).2 :=
      (acquire_plainly ha).trans (.of_same (by rw [hm]))
    rcases (b.retain a).release_unmaps D ((b.retain a).accessAll D a l w₁).2 with
      hr | ⟨st, d, a', r, hb, -, hr⟩
    · exact .inl (hw₁.trans (.of_same hr))
    · exact .inr ⟨_, st, d, a', r, hw₁, hb, hr⟩

section
variable {width height : UInt32} {format : PixelFormat} {usage : Usage} {A : Answers}

theorem createCalls_plain : ∀ e ∈ createCalls width height format usage A, e.isPlain = true := by
  obtain ⟨x | s, exported, mapped, released⟩ := A
  · exact fun e he => List.mem_singleton.mp he ▸ rfl
  · obtain x | d := exported
    · simp [createCalls, Answers.attempts, Event.isPlain]
    · cases hu : usage.contains .write <;>
        simp [createCalls, Answers.attempts, Event.isPlain, hu]

/-- What a creation obtained is given back after it as by a departure. -/
theorem undoing_logged : A.undoing.flatMap (Event.logged D) =
    A.undoing ++ A.complaints.map .warn := by
  obtain ⟨x | s, x | d, mapped, x | _⟩ := A <;> rfl

/-- Only storage that was allocated is released. -/
theorem mem_undoing {e : Event} (h : e ∈ A.undoing) :
    e.isPlain = true ∨ ∃ st, A.allocated = .ok st ∧ e = .release st A.released := by
  obtain ⟨x | s, x | d, mapped, released⟩ := A
  · cases h
  · cases h
  · exact .inr ⟨s, rfl, List.mem_singleton.mp h⟩
  · rcases List.mem_pair.mp h with rfl | rfl
    · exact .inl rfl
    · exact .inr ⟨s, rfl, rfl⟩

end

theorem importFrom_plainly {source : ImportSource Dmabuf}
    (h : importFrom D source w = (.ok b, w')) : w.Plainly w' := by
  cases source with
  | external resource =>
    simp only [importFrom, importExternal] at h
    split at h
    · cases h
    · split at h
      · cases h
      · obtain ⟨-, rfl⟩ := Prod.mk.inj h
        exact .of_same rfl
  | descriptor d width height stride format =>
    simp only [importFrom] at h
    split at h
    · cases h
    · next hq =>
      obtain ⟨-, rfl⟩ := Prod.mk.inj h
      exact .one (congrArg World.events (World.importDescriptor_eq hq)) rfl
  | planes ds strides width height format modifier =>
    rcases importFrom_planes_cases D ds strides width height format modifier w with
      ⟨x, hrefused⟩ | hsettled
    · cases h.symm.trans hrefused
    · rw [h] at hsettled
      cases hsettled with
      | converted ha => exact ⟨_, rfl, Event.conversions_plain _ _⟩

/-- What an import of planes leaves behind when it fails is warned of in the end. -/
theorem importFrom_planes_failed {ds : List Dmabuf} {strides : List UInt32}
    {width height : UInt32} {format : FormatCode} {modifier : Modifier} {x : Error}
    (h : importFrom D (.planes ds strides width height format modifier) w = (.error x, w')) :
    ∃ l, (∀ e ∈ l, e.isPlain = true) ∧ w'.events =
      w.events ++ (l ++ (Warning.ofOrphaned (l.filterMap Event.converted?)).map .warn) := by
  rcases importFrom_planes_cases D ds strides width height format modifier w with
    ⟨x, hrefused⟩ | hsettled
  · obtain ⟨-, rfl⟩ := Prod.mk.inj (h.symm.trans hrefused)
    exact ⟨[], by simp, (List.append_nil _).symm⟩
  rw [h] at hsettled
  cases hsettled with
  | @aborted before d rest handles c order answered =>
    have hlength := D.length_answers (before ++ [d]) w.driver
    rw [answered, List.length_append, List.length_map] at hlength
    refine ⟨List.zipWith .importDescriptor (before ++ [d]) (handles.map .ok ++ [.error c]),
      Event.conversions_plain _ _, ?_⟩
    rw [Event.converted_of_aborted hlength.symm, ← List.append_assoc]
    cases handles <;> rfl

end BufferObject

namespace Surface

theorem slots_in_order (x : Surface) :
    x.slots.toList = (List.range slotCount).map x.slot? := by
  refine List.ext_getElem? fun i => ?_
  by_cases hi : i < slotCount
  · simp [slot?, hi]
  · simp [hi]

/-- The objects in the slots, the first slot first. -/
def occupants (x : Surface) : List BufferObject := (List.range slotCount).filterMap x.slot?

theorem destroy_departs (x : Surface) (D : Driver σ ι) (w : World σ) :
    w.Departs D (x.destroy D w) (x.occupants.map (none, ·)) := by
  have hoccupants : x.occupants = x.slots.toList.filterMap id := by
    rw [x.slots_in_order, List.filterMap_map]
    rfl
  rw [hoccupants, destroy]
  refine (World.Departs.nobody rfl : w.Departs D (w.letGo D) []).trans ?_
  generalize x.slots.toList = l, w.letGo D = w
  induction l generalizing w with
  | nil => exact .nobody rfl
  | cons o l ih =>
    cases o with
    | none => exact ih w
    | some b => exact (b.destroy_departs D w).trans (ih _)

theorem clear_departs (x : Surface) (D : Driver σ ι) (i : Nat) (w : World σ) :
    w.Departs D (x.clear D i w).2 ((x.slot? i).toList.map (some i, ·)) := by
  have h := x.clear_rid D i w
  cases hs : x.slot? i with
  | none =>
    rw [hs] at h
    exact .nobody (congrArg World.events h)
  | some b =>
    rw [hs] at h
    obtain ⟨driver, unmapped, released, h, -⟩ := h
    refine ⟨[⟨some i, b, unmapped, released⟩], rfl, ?_⟩
    rw [h, List.flatMap_singleton, Departure.log, Departure.alarms, Departure.calls]
    cases b.locked <;> rfl

end Surface
end DisplayBuffers
