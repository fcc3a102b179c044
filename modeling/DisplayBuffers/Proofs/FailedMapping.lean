import DisplayBuffers.Proofs.Attribution
import DisplayBuffers.Proofs.Lineage
import DisplayBuffers.Proofs.MappingCalls

/-! Mappings that fail. The client is told, and nothing is mapped. -/
namespace DisplayBuffers
variable {σ ι : Type} {D : Driver σ ι}

namespace BufferObject
variable {b b' : BufferObject} {w w' : World σ} {x : Error}

/-- Where no address could be had, either nothing was asked or nothing is mapped. -/
theorem acquire_failed (h : b.acquire D w = (.error x, b', w')) : w' = w ∨ b'.mapping = none := by
  cases acquired h with
  | failed hb hm hw => exact .inr hm
  | refused hb => exact .inl rfl

theorem acquireRegion_failed {left top width height : UInt32}
    (h : b.acquireRegion D left top width height w = (.error x, b', w')) :
    w' = w ∨ b'.mapping = none := by
  rw [acquireRegion] at h
  split at h
  · exact acquire_failed h
  · obtain ⟨_, rfl, rfl⟩ := h
    exact .inl rfl

theorem withMapping_failed {accesses : List Access}
    (h : b.withMapping D accesses w = (.error x, b', w')) : w' = w ∨ b'.mapping = none := by
  rw [withMapping] at h
  split at h
  · next ha =>
    obtain ⟨_, rfl, rfl⟩ := h
    exact acquire_failed ha
  · cases h

end BufferObject

namespace Session
variable {s : Session σ} {op : Op ι} {t : Target} {b : BufferObject}

private theorem work_failed (hop : op.Refers t) {w : World σ} {x : Error}
    (hx : (op.work D b w).1 = .failed x) :
    (op.work D b w).2.2 = w ∨ (op.work D b w).2.1.mapping = none := by
  cases op with
  | acquire t =>
    rcases hq : b.acquire D w with ⟨e | a, b', w'⟩ <;> simp only [Op.work, hq] at hx ⊢
    · exact BufferObject.acquire_failed hq
    · cases hx
  | acquireRegion t left top width height =>
    rcases hq : b.acquireRegion D left top width height w with ⟨e | a, b', w'⟩ <;>
      simp only [Op.work, hq] at hx ⊢
    · exact BufferObject.acquireRegion_failed hq
    · cases hx
  | withMapping t accesses =>
    rcases hq : b.withMapping D accesses w with ⟨e | a, b', w'⟩ <;> simp only [Op.work, hq] at hx ⊢
    · exact BufferObject.withMapping_failed hq
    · cases hx
  | release t => cases hx
  | _ => exact hop.elim

/-- The driver's errors as they are, without a word on what was attempted, are for those who call it
themselves. -/
private theorem work_not_driverFailed (hop : op.Refers t) (w : World σ) (c : IoError) :
    (op.work D b w).1 ≠ .driverFailed c := by
  cases op with
  | acquire t => rcases hq : b.acquire D w with ⟨e | a, b', w'⟩ <;> simp [Op.work, hq]
  | acquireRegion t x y width height =>
    rcases hq : b.acquireRegion D x y width height w with ⟨e | a, b', w'⟩ <;> simp [Op.work, hq]
  | release t => rintro ⟨⟩
  | withMapping t accesses =>
    rcases hq : b.withMapping D accesses w with ⟨e | a, b', w'⟩ <;> simp [Op.work, hq]
  | _ => exact hop.elim

private theorem creation_not_driverFailed (hop : op.Creates) (c : IoError) :
    (s.step D op).1.answer ≠ .driverFailed c := by
  have hadd (name : String) (made : Except Error BufferObject × World σ) :
      (s.onDevice fun s => s.addObject D name made).1.answer ≠ .driverFailed c := by
    rw [onDevice]
    split
    · obtain ⟨_ | b, w⟩ := made <;> rintro ⟨⟩
    · rintro ⟨⟩
  cases op with
  | create name width height format usage => exact hadd name _
  | createBuffer name width height fourcc modifiers => exact hadd name _
  | allocate surface i =>
    simp only [step, onSurface]
    split
    · rintro ⟨⟩
    · dsimp only
      split <;> rintro ⟨⟩
  | _ => exact hop.elim

private theorem answer_of_object (hb : s.object? t = some b) (ho : op.target? = some t) :
    (s.turn D op).answer = (op.work D b s.world).1 ∧
      (s.step D op).2.world.events = (op.work D b s.world).2.2.events := by
  obtain ⟨ha, hw⟩ := onObject_of_some hb (op.work D)
  rw [turn, s.step_of_target? ho]
  exact ⟨ha, congrArg World.events hw⟩

/-- A mapping that failed is what the operation answers, and whoever has the storage then has it
unmapped. -/
theorem failed_mapping (hs : s.Apart) {st : Storage} {c : IoError}
    (h : .map st (.error c) ∈ (s.turn D op).events) :
    (s.turn D op).answer = .failed (.allocation .mapStorage c) ∧
      ∀ t b d, (s.step D op).2.object? t = some b → b.backing = .owned st d →
        b.mapping = none := by
  obtain ⟨hmade, htells⟩ := s.turn_accounts (D := D) op
  obtain ⟨o, hfor⟩ := hmade _ h rfl
  have hrefused : .map st (.error c) ∈ (s.turn D op).events.filter Event.isRefused :=
    List.mem_filter.mpr ⟨h, rfl⟩
  have hanswer : (s.turn D op).answer = .failed (.allocation .mapStorage c) := by
    rcases htells.cases with ⟨_, hnone⟩ | ⟨hnone, _⟩ | ⟨e, hone, step, c', hreports, hans⟩
    · rw [hnone] at hrefused
      cases hrefused
    · rw [hnone] at hrefused
      cases hrefused
    · rw [hone] at hrefused
      obtain rfl := List.mem_singleton.mp hrefused
      obtain ⟨rfl, rfl⟩ := Error.allocation.inj (List.mem_singleton.mp hreports)
      refine hans.resolve_right fun hraw => ?_
      cases hfor with
      | mapped hb ho hop =>
        rw [(answer_of_object hb (Op.target?_of_refers hop)).1] at hraw
        exact work_not_driverFailed hop _ _ hraw
      | created hop he => exact creation_not_driverFailed hop _ hraw
  refine ⟨hanswer, fun u b' d hu hown => ?_⟩
  rcases s.lineage hu with ⟨b, hb, rfl, _⟩ | ⟨_, _, hbegins⟩
  · rw [leaves_backing] at hown
    have hkey : b.key? = some st.key := BufferObject.key?_of_owned hown
    cases hfor with
    | mapped hb₀ ho hop =>
      obtain rfl := hs.owned hb₀ hb (BufferObject.key?_of_owned ho) hkey
      obtain rfl := Option.some.inj (hb₀.symm.trans hb)
      have htarget := Op.target?_of_refers hop
      obtain ⟨hwork, hevents⟩ := answer_of_object (D := D) hb htarget
      rw [s.leaves_of_target? htarget, if_pos rfl]
      refine (work_failed hop (hwork.symm.trans hanswer)).resolve_left fun hsame => ?_
      rw [hsame] at hevents
      rw [turn_events (l := []) (hevents.trans (List.append_nil _).symm)] at h
      cases h
    | created hop he => exact absurd (hs.stored hb hkey) (Nat.not_lt.mpr he)
  · rw [Turn.begins?_of_failed (.inr ⟨_, hanswer⟩)] at hbegins
    cases hbegins

end Session
end DisplayBuffers
