import DisplayBuffers.Proofs.DriverAnswers
import DisplayBuffers.Proofs.SlotStates

/-! The log as what it tells of the driver: the calls and how they ended, the errors and warnings
that come of those that failed, and what the driver has in use after them. Calls that give something
back are followed by their warning at once, so that the log of an operation is that of its calls. -/
namespace DisplayBuffers
variable {σ ι : Type}

namespace Event

/-- Descriptors are duplicated and closed without the driver. -/
def isDriverCall : Event → Bool
  | .duplicate _ _ | .close _ | .warn _ => false
  | _ => true

/-- The errors by which a failed call can be reported, one for each kind of request that makes the
call. Storage that cannot be unmapped or released is warned of at most. -/
def reports : Event → List Error
  | .allocate _ _ _ _ (.error c) => [.allocation .allocateStorage c]
  | .map _ (.error c) => [.allocation .mapStorage c]
  | .importDescriptor _ (.error c) => [.allocation .importDescriptor c, .allocation .importPlane c]
  | .exportHandle _ _ (.error c) => [.allocation .exportHandle c]
  | .duplicate _ (.error c) => [.allocation .duplicateDescriptor c]
  | _ => []

/-- A failed call that has to be reported. -/
def isRefused (e : Event) : Bool := !e.reports.isEmpty

def complaints (D : Driver σ ι) : Event → List Warning
  | .unmap s _ (.error c) => if D.warnsOfFailedUnmap then [.unmapFailed s.handle c] else []
  | .release s (.error c) => [.releaseFailed s.handle c]
  | _ => []

/-- A call as it stands in the log. -/
def logged (D : Driver σ ι) (e : Event) : List Event := e :: (e.complaints D).map .warn

theorem logged_close (D : Driver σ ι) (d : Dmabuf) : (close d).logged D = [.close d] := rfl

theorem mem_logged {D : Driver σ ι} {e x : Event} (h : x ∈ e.logged D) :
    x = e ∨ ∃ y, x = .warn y := by
  rcases List.mem_cons.mp h with h | h
  · exact .inl h
  · obtain ⟨y, _, rfl⟩ := List.mem_map.mp h
    exact .inr ⟨y, rfl⟩

theorem mem_flatMap_logged {D : Driver σ ι} {l : List Event} {x : Event}
    (h : x ∈ l.flatMap (logged D)) : x ∈ l ∨ ∃ y, x = .warn y := by
  obtain ⟨e, he, hx⟩ := List.mem_flatMap.mp h
  rcases mem_logged hx with rfl | hx
  · exact .inl he
  · exact .inr hx

end Event

/-- What a driver has in use, as far as its answers tell: storage that was allocated and has not
been released, and mappings that have not been undone. -/
structure Upkeep where
  storages : List Storage
  mappings : List (Storage × Address)
  deriving DecidableEq

namespace Upkeep

def none : Upkeep := ⟨[], []⟩

def after (u : Upkeep) : Event → Upkeep
  | .allocate _ _ _ _ (.ok s) => { u with storages := s :: u.storages }
  | .map s (.ok a) => { u with mappings := (s, a) :: u.mappings }
  | .unmap s a (.ok _) => { u with mappings := u.mappings.erase (s, a) }
  | .release s (.ok _) => { u with storages := u.storages.erase s }
  | _ => u

def afterAll (u : Upkeep) (l : List Event) : Upkeep := l.foldl after u

theorem afterAll_append (u : Upkeep) (l l' : List Event) :
    u.afterAll (l ++ l') = (u.afterAll l).afterAll l' := List.foldl_append

theorem afterAll_warnings (u : Upkeep) (l : List Warning) : u.afterAll (l.map .warn) = u := by
  induction l with
  | nil => rfl
  | cons x l ih => exact ih

theorem after_of_refused {e : Event} (h : e.isRefused = true) (u : Upkeep) : u.after e = u := by
  unfold after
  split <;> first | rfl | cases h

end Upkeep

namespace World
variable {w w' : World σ} {D : Driver σ ι}

def upkeep (w : World σ) : Upkeep := Upkeep.none.afterAll w.events

theorem upkeep_of_events {l : List Event} (h : w'.events = w.events ++ l) :
    w'.upkeep = w.upkeep.afterAll l := by
  rw [upkeep, upkeep, h, Upkeep.afterAll_append]

theorem importDescriptor_eq {d : Dmabuf} {r : Except IoError Handle}
    (h : w.importDescriptor D d = (r, w')) : w' = { w with
      driver := (D.importDescriptor d w.driver).2
      events := w.events ++ [.importDescriptor d r] } := by
  obtain ⟨rfl, rfl⟩ := Prod.mk.inj h
  rfl

theorem unmap_logged (w : World σ) (D : Driver σ ι) (s : Storage) (a : Address) :
    w.unmap D s a = { w with
      driver := (D.unmap s a w.driver).2
      events := w.events ++ (Event.unmap s a (D.unmap s a w.driver).1).logged D } := by
  rw [unmap]
  rcases D.unmap s a w.driver with ⟨_ | _, driver⟩
  · by_cases hw : D.warnsOfFailedUnmap <;> simp [hw, record, warn, Event.logged, Event.complaints]
  · rfl

theorem release_logged (w : World σ) (D : Driver σ ι) (s : Storage) :
    w.release D s = { w with
      driver := (D.release s w.driver).2
      events := w.events ++ (Event.release s (D.release s w.driver).1).logged D } := by
  rw [release]
  rcases D.release s w.driver with ⟨_ | _, driver⟩
  · simp [record, warn, Event.logged, Event.complaints]
  · rfl

end World

namespace BufferObject
variable {D : Driver σ ι}

/-- The calls that give back what an object holds, with the answers to the first and the last. -/
def parting (b : BufferObject) (unmapped released : Except IoError Unit) : List Event :=
  match b.backing with
  | .owned s d =>
    b.mapping.toList.map (fun a => .unmap s a unmapped) ++ [.close d, .release s released]
  | .borrowed d _ => d.toList.map .close

theorem mem_parting {b : BufferObject} {unmapped released : Except IoError Unit} {e : Event}
    (h : e ∈ b.parting unmapped released) :
    (∃ s d a, b.backing = .owned s d ∧ b.mapping = some a ∧ e = .unmap s a unmapped) ∨
      (∃ d, e = .close d) ∨ ∃ s d, b.backing = .owned s d ∧ e = .release s released := by
  unfold parting at h
  split at h
  · next s d hb =>
    rcases List.mem_append.mp h with h | h
    · obtain ⟨a, ha, rfl⟩ := List.mem_map.mp h
      exact .inl ⟨s, d, a, hb, Option.mem_toList.mp ha, rfl⟩
    · rcases List.mem_pair.mp h with rfl | rfl
      · exact .inr (.inl ⟨d, rfl⟩)
      · exact .inr (.inr ⟨s, d, hb, rfl⟩)
  · obtain ⟨d, _, rfl⟩ := List.mem_map.mp h
    exact .inr (.inl ⟨d, rfl⟩)

/-- Destruction warns of an object that is still locked, makes the calls of its parting and lets go
of the driver. If others hold the driver nothing comes of that, and the driver is left as the calls
leave it. -/
theorem destroy_logged (b : BufferObject) (D : Driver σ ι) (w : World σ) :
    ∃ driver unmapped released, b.destroy D w = { w with
      driver
      descriptors := w.descriptors.diff b.descriptor?.toList
      events := w.events ++ ((if b.locked then [.warn (.destroyedLocked b.id)] else []) ++
        (b.parting unmapped released).flatMap (Event.logged D))
      holders := w.holders - b.driverReferences } ∧
      (b.driverReferences < w.holders →
        D.Answered (b.parting unmapped released) w.driver w.allocations driver) := by
  have hwarn : (if b.locked then w.warn (.destroyedLocked b.id) else w) = { w with
      events := w.events ++ if b.locked then [.warn (.destroyedLocked b.id)] else [] } := by
    split
    · rfl
    · rw [List.append_nil]
  rw [destroy, hwarn]
  generalize (if b.locked then [Event.warn (.destroyedLocked b.id)] else []) = warning
  let w₁ := w.letGo D
  have hothers (h : 1 < w.holders) : w₁.driver = w.driver :=
    World.letGo_driver_of_others D h.ne'
  cases hb : b.backing with
  | owned s d =>
    have hlast (w₂ : World σ) (h : 2 < w.holders) (hw : w₂.holders = w.holders - 1) :
        (w₂.letGo D).driver = w₂.driver := World.letGo_driver_of_others D (by omega)
    cases hm : b.mapping with
    | none =>
      let w₂ : World σ := { w₁ with driver := (D.release s w₁.driver).2 }
      refine ⟨(w₂.letGo D).driver, .ok (), (D.release s w₁.driver).1, ?_, fun h => ?_⟩
      · simp [w₁, w₂, World.letGo, World.release_logged, World.close, World.record, descriptor?,
          driverReferences, parting, hb, hm, Event.logged_close, Nat.sub_sub]
      · have h : 2 < w.holders := by simpa only [driverReferences, hb] using h
        rw [hlast w₂ h rfl, parting, hb, hm]
        simp only [w₂, hothers (Nat.lt_of_succ_lt h)]
        exact ⟨trivial, rfl, rfl⟩
    | some a =>
      let u := D.unmap s a w₁.driver
      let w₂ : World σ := { w₁ with driver := (D.release s u.2).2 }
      refine ⟨(w₂.letGo D).driver, u.1, (D.release s u.2).1, ?_, fun h => ?_⟩
      · simp [u, w₁, w₂, World.letGo, World.release_logged, World.unmap_logged, World.close,
          World.record, descriptor?, driverReferences, parting, hb, hm, Event.logged_close,
          Nat.sub_sub]
      · have h : 2 < w.holders := by simpa only [driverReferences, hb] using h
        rw [hlast w₂ h rfl, parting, hb, hm]
        simp only [u, w₂, hothers (Nat.lt_of_succ_lt h)]
        exact ⟨rfl, trivial, rfl, rfl⟩
  | borrowed d a =>
    refine ⟨w₁.driver, .ok (), .ok (), ?_, fun h => ?_⟩
    · cases d <;> simp [w₁, World.letGo, descriptor?, driverReferences, parting, hb, World.close,
        World.record, Event.logged_close]
    · rw [hothers (by simpa only [driverReferences, hb] using h), parting, hb]
      cases d with
      | none => rfl
      | some d => exact ⟨trivial, rfl⟩

end BufferObject
end DisplayBuffers
