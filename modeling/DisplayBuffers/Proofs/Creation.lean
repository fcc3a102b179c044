import DisplayBuffers.Proofs.CallLog
import DisplayBuffers.Proofs.Newborn

/-! Creation call by call. The calls that are made depend on the answers to those before them; the
first that is refused ends the creation, and what the others obtained is given back. -/
namespace DisplayBuffers
variable {σ ι : Type} {D : Driver σ ι}

/-- A driver's answers to the calls of a creation. Where a call is not made its answer is of no
account. -/
structure Answers where
  allocated : Except IoError Storage
  exported : Except IoError Dmabuf
  mapped : Except IoError Address
  released : Except IoError Unit

namespace Answers
variable (A : Answers)

/-- The calls up to the first that is refused. -/
def attempts (kind : BufferKind) (width height : UInt32) (format : PixelFormat) (write : Bool) :
    List Event :=
  .allocate kind width height format A.allocated ::
    match A.allocated with
    | .error _ => []
    | .ok s => .exportHandle s.handle .closeOnExec A.exported ::
      match A.exported with
      | .error _ => []
      | .ok _ => if write then [.map s A.mapped] else []

/-- The calls that give back what was obtained. -/
def undoing : List Event :=
  match A.allocated, A.exported with
  | .error _, _ => []
  | .ok s, .error _ => [.release s A.released]
  | .ok s, .ok d => [.close d, .release s A.released]

/-- The storage that could not be given back. -/
def left : List Storage :=
  match A.allocated, A.released with
  | .ok s, .error _ => [s]
  | _, _ => []

/-- What is warned of when storage could not be given back. -/
def complaints : List Warning :=
  match A.allocated, A.released with
  | .ok s, .error e => [.releaseFailed s.handle e]
  | _, _ => []

end Answers

namespace BufferObject

section
variable (D : Driver σ ι) (width height : UInt32) (format : PixelFormat) (usage : Usage)
  (w : World σ) (A : Answers)

/-- The calls of a creation. A cursor has storage of its own kind. -/
def createCalls : List Event :=
  A.attempts (if usage.contains .cursor then .cursor else .scanout) width height format
    (usage.contains .write)

/-- A creation that came to nothing. One call was refused, which is the error that is answered. The
answers are those that the driver gives to the calls, one after the other; as somebody else holds it
who creates, nothing more becomes of it. -/
structure Withdrawn (x : Error) (w' : World σ) : Prop where
  answered : 0 < w.holders → D.Answered (createCalls width height format usage A ++ A.undoing)
    w.driver w.allocations w'.driver
  reported : (createCalls width height format usage A).flatMap Event.reports = [x]
  unused : ∀ s, A.allocated = .ok s → s.key = w.allocations
  events : w'.events = w.events ++ createCalls width height format usage A ++ A.undoing ++
    A.complaints.map .warn
  descriptors : w'.descriptors = w.descriptors
  memory : w'.memory = w.memory
  upkeep : w'.upkeep = { w.upkeep with storages := A.left ++ w.upkeep.storages }
  holders : w'.holders = w.holders

/-- A creation that no call was refused in, and the object it made. The answers are those that the
driver gives to the calls, one after the other. The object holds the driver, and so does its
storage. -/
structure Completed (s : Storage) (d : Dmabuf) (m : Option Address) (b : BufferObject)
    (w' : World σ) : Prop where
  answered : D.Answered (createCalls width height format usage A) w.driver w.allocations w'.driver
  reported : (createCalls width height format usage A).flatMap Event.reports = []
  allocated : A.allocated = .ok s
  exported : A.exported = .ok d
  mapped : m.isSome = usage.contains .write ∧ ∀ a, m = some a → A.mapped = .ok a
  object : b = {
    id := ⟨w.identities⟩, width, height, format := format.code
    planes := [⟨s.handle, s.stride⟩]
    byteSize := rowBytes s.stride s.height
    backing := .owned s d
    mapping := m
    references := if usage.contains .write then 1 else 0
    locked := false }
  unused : s.key = w.allocations
  events : w'.events = w.events ++ createCalls width height format usage A
  descriptors : w'.descriptors = d :: w.descriptors
  memory : w'.memory = w.memory
  upkeep : w'.upkeep = ⟨s :: w.upkeep.storages,
    m.toList.map (s, ·) ++ w.upkeep.mappings⟩
  holders : w'.holders = w.holders + 2

end

variable {width height : UInt32} {code : FormatCode} {usage : Usage} {w w' : World σ}
  {format : PixelFormat}

/-- What was obtained in vain is not in use any more, unless it could not be released. -/
private theorem afterAll_undone {A : Answers}
    (h : (createCalls width height format usage A).flatMap Event.reports ≠ []) (u : Upkeep) :
    (u.afterAll (createCalls width height format usage A)).afterAll A.undoing =
      { u with storages := A.left ++ u.storages } := by
  obtain ⟨e | s, exported, mapped, released⟩ := A
  · rfl
  · obtain e | d := exported
    · cases released <;>
        simp [createCalls, Answers.attempts, Answers.undoing, Answers.left, Upkeep.afterAll,
          Upkeep.after]
    · cases hu : usage.contains .write with
      | false => simp [createCalls, Answers.attempts, Event.reports, hu] at h
      | true =>
        obtain e | a := mapped
        · cases released <;>
            simp [createCalls, Answers.attempts, Answers.undoing, Answers.left, Upkeep.afterAll,
              Upkeep.after, hu]
        · simp [createCalls, Answers.attempts, Event.reports, hu] at h

private theorem Withdrawn.of_events {A : Answers} {x : Error}
    (hg : 0 < w.holders → D.Answered (createCalls width height format usage A ++ A.undoing)
      w.driver w.allocations w'.driver)
    (hr : (createCalls width height format usage A).flatMap Event.reports = [x])
    (hs : ∀ s, A.allocated = .ok s → s.key = w.allocations)
    (he : w'.events = w.events ++ createCalls width height format usage A ++ A.undoing ++
      A.complaints.map .warn)
    (hd : w'.descriptors = w.descriptors) (hm : w'.memory = w.memory)
    (hh : w'.holders = w.holders) : Withdrawn D width height format usage w A x w' := by
  refine ⟨hg, hr, hs, he, hd, hm, ?_, hh⟩
  rw [List.append_assoc, List.append_assoc] at he
  rw [World.upkeep_of_events he, Upkeep.afterAll_append, Upkeep.afterAll_append,
    afterAll_undone (by simp [hr]), Upkeep.afterAll_warnings]

/-- A creation that answers an error had no format to begin with or was withdrawn. -/
theorem create_error_logged {x : Error}
    (h : create D width height code usage w = (.error x, w')) :
    (PixelFormat.ofCode? code = none ∧ x = .invalidArgument .unsupportedFormat ∧ w' = w) ∨
      ∃ format A, PixelFormat.ofCode? code = some format ∧
        Withdrawn D width height format usage w A x w' := by
  cases created h with
  | unsupported hf => exact .inl ⟨hf, rfl, rfl⟩
  | @notAllocated format e _ hf ha =>
    refine .inr ⟨format, ⟨.error e, .error e, .error e, .ok ()⟩, hf, ?_⟩
    have hga := World.allocate_given ha
    obtain rfl := World.allocate_error ha
    exact .of_events (fun _ => ⟨hga, rfl⟩) rfl nofun (by simp [createCalls, BufferKind.ofUsage,
      Answers.attempts, Answers.undoing, Answers.complaints]) rfl rfl rfl
  | @notExported format s e w₁ w₂ hf ha he =>
    have hga := World.allocate_given ha
    have hge := World.exportHandle_given he
    obtain ⟨hs, _, rfl⟩ := World.allocate_ok ha
    obtain rfl := World.exportHandle_error he
    rw [World.release_logged]
    rcases hr : D.release s _ with ⟨r, driver⟩
    refine .inr ⟨format, ⟨.ok s, .error e, .error e, r⟩, hf, .of_events ?_ rfl ?_ ?_ rfl rfl rfl⟩
    · intro hw
      refine ⟨hga, hge, (congrArg Prod.fst hr).symm, ?_⟩
      have hdriver := congrArg Prod.snd hr
      exact (World.letGo_driver_of_others _ (by simpa using hw.ne')).trans hdriver.symm
    · rintro _ ⟨⟩
      exact hs
    cases r <;> simp [createCalls, BufferKind.ofUsage, Answers.attempts, Answers.undoing,
      Answers.complaints, Event.logged, Event.complaints]
  | @notMapped format s d e w₁ w₂ w₃ hf ha he hu hm =>
    have hga := World.allocate_given ha
    have hge := World.exportHandle_given he
    have hgm := World.map_given hm
    obtain ⟨hs, _, rfl⟩ := World.allocate_ok ha
    obtain rfl := World.exportHandle_ok he
    have hw := World.map_eq hm
    have hothers : w₃.holders ≠ 1 := by simp [hw, World.freshId]
    rw [World.letGo_of_others D hothers, World.release_logged]
    subst hw
    simp only [World.close, World.record, World.freshId]
    rcases hr : D.release s _ with ⟨r, driver⟩
    refine .inr ⟨format, ⟨.ok s, .ok d, .error e, r⟩, hf,
      .of_events ?_ ?_ ?_ ?_ (by simp) rfl rfl⟩
    · intro hw
      rw [createCalls, Answers.attempts, hu]
      refine ⟨hga, hge, hgm, trivial, (congrArg Prod.fst hr).symm, ?_⟩
      have hdriver := congrArg Prod.snd hr
      exact (World.letGo_driver_of_others _ (by simpa using hw.ne')).trans hdriver.symm
    · simp [createCalls, Answers.attempts, Event.reports, hu]
    · rintro _ ⟨⟩
      exact hs
    · cases r <;> simp [createCalls, BufferKind.ofUsage, Answers.attempts, Answers.undoing,
        Answers.complaints, Event.logged, Event.complaints, hu]

/-- What was obtained and kept is in use. -/
private theorem afterAll_obtained (width height : UInt32) (format : PixelFormat) {A : Answers}
    {s : Storage} {d : Dmabuf} {m : Option Address} (ha : A.allocated = .ok s)
    (he : A.exported = .ok d)
    (hm : m.isSome = usage.contains .write ∧ ∀ a, m = some a → A.mapped = .ok a) :
    (createCalls width height format usage A).flatMap Event.reports = [] ∧
      ∀ u : Upkeep, u.afterAll (createCalls width height format usage A) =
        ⟨s :: u.storages, m.toList.map (s, ·) ++ u.mappings⟩ := by
  obtain ⟨hw, hm⟩ := hm
  cases m with
  | none => simp [createCalls, Answers.attempts, Event.reports, Upkeep.afterAll, Upkeep.after, ha,
      he, ← hw]
  | some a => simp [createCalls, Answers.attempts, Event.reports, Upkeep.afterAll, Upkeep.after,
      ha, he, ← hw, hm a]

/-- A creation that answers an object was completed. -/
theorem create_ok_logged {b : BufferObject}
    (h : create D width height code usage w = (.ok b, w')) :
    ∃ format A s d m, PixelFormat.ofCode? code = some format ∧
      Completed D width height format usage w A s d m b w' := by
  cases created h with
  | @unmapped format s d w₁ w₂ hf ha he hu =>
    have hga := World.allocate_given ha
    have hge := World.exportHandle_given he
    obtain ⟨hs, _, rfl⟩ := World.allocate_ok ha
    obtain rfl := World.exportHandle_ok he
    let A : Answers := ⟨.ok s, .ok d, .error .unsupported, .ok ()⟩
    have hm : (none : Option Address).isSome = usage.contains .write ∧
        ∀ a, none = some a → A.mapped = .ok a := by simp [hu]
    have hevents : w.events ++ [.allocate (.ofUsage usage) width height format (.ok s)] ++
        [.exportHandle s.handle .closeOnExec (.ok d)] =
          w.events ++ createCalls width height format usage A := by
      simp [A, createCalls, BufferKind.ofUsage, Answers.attempts, hu]
    obtain ⟨hr, hk⟩ := afterAll_obtained width height format (A := A) rfl rfl hm
    refine ⟨format, A, s, d, none, hf, ?_, hr, rfl, rfl, hm, ?_, hs, hevents, rfl, rfl,
      (World.upkeep_of_events hevents).trans (hk _), rfl⟩
    · rw [createCalls, Answers.attempts, hu]
      exact ⟨hga, hge, rfl⟩
    · simp [ofStorage, World.freshId, hu]
  | @mapped format s d a w₁ w₂ w₃ hf ha he hu hq =>
    have hga := World.allocate_given ha
    have hge := World.exportHandle_given he
    have hgm := World.map_given hq
    obtain ⟨hs, _, rfl⟩ := World.allocate_ok ha
    obtain rfl := World.exportHandle_ok he
    obtain rfl := World.map_eq hq
    let A : Answers := ⟨.ok s, .ok d, .ok a, .ok ()⟩
    have hm : (some a).isSome = usage.contains .write ∧
        ∀ x, some a = some x → A.mapped = .ok x := by simp [A, hu]
    have hevents : w.events ++ [.allocate (.ofUsage usage) width height format (.ok s)] ++
        [.exportHandle s.handle .closeOnExec (.ok d)] ++ [.map s (.ok a)] =
          w.events ++ createCalls width height format usage A := by
      simp [A, createCalls, BufferKind.ofUsage, Answers.attempts, hu]
    obtain ⟨hr, hk⟩ := afterAll_obtained width height format (A := A) rfl rfl hm
    refine ⟨format, A, s, d, some a, hf, ?_, hr, rfl, rfl, hm, ?_, hs, hevents, rfl, rfl,
      (World.upkeep_of_events hevents).trans (hk _), rfl⟩
    · rw [createCalls, Answers.attempts, hu]
      exact ⟨hga, hge, hgm, rfl⟩
    · simp [ofStorage, retain, World.freshId, hu]

/-- Creation is all or nothing. For a format that cannot be allocated nothing is done. Otherwise,
whatever the driver answers to its calls, either it refuses none and there is an object over what
was obtained, or its first refusal is answered and what was obtained before has been given back. -/
theorem create_all_or_nothing (D : Driver σ ι) (width height : UInt32) (code : FormatCode)
    (usage : Usage) (w : World σ) :
    let made := create D width height code usage w
    match PixelFormat.ofCode? code with
    | none => made = (.error (.invalidArgument .unsupportedFormat), w)
    | some format => ∃ A,
      (∃ x, made.1 = .error x ∧ Withdrawn D width height format usage w A x made.2) ∨
        ∃ b s d m, made.1 = .ok b ∧ Completed D width height format usage w A s d m b made.2 := by
  intro made
  rcases h : made with ⟨x | b, w'⟩
  · rcases create_error_logged h with ⟨hf, rfl, rfl⟩ | ⟨format, A, hf, hw⟩
    · rw [hf]
    · rw [hf]
      exact ⟨A, .inl ⟨x, rfl, hw⟩⟩
  · obtain ⟨format, A, s, d, m, hf, hc⟩ := create_ok_logged h
    rw [hf]
    exact ⟨A, .inr ⟨b, s, d, m, rfl, hc⟩⟩

end BufferObject
end DisplayBuffers
