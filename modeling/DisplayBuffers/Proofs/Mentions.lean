import DisplayBuffers.Proofs.Relabelling
import DisplayBuffers.Proofs.Warnings

/-! Where ids turn up besides their objects: the client saves some, and warnings in the log tell
some. An id that is saved was given out before, and one that is told belongs to an object that is
gone. -/
namespace DisplayBuffers
variable {σ ι : Type} {D : Driver σ ι}

/-- A warning in the log is about the object with an id. -/
def World.Tells (w : World σ) (id : BufferId) : Prop :=
  ∃ x, .warn x ∈ w.events ∧ x.id? = some id

theorem World.relabel_eq_self {π : Equiv.Perm BufferId} {w : World σ}
    (h : ∀ id, w.Tells id → π id = id) : w.relabel π = w := by
  have hevents : w.events.map (Event.relabel π) = w.events := by
    refine (List.map_congr_left fun e he => ?_).trans (List.map_id _)
    cases e with
    | warn x => exact congrArg Event.warn (x.relabel_eq_self π fun i hi => h i ⟨x, he, hi⟩)
    | _ => rfl
  rw [World.relabel, hevents]

theorem Departure.id?_of_alarm {x : Departure} {y : Warning} (h : y ∈ x.alarms) :
    y.id? = some x.object.id := by
  rw [alarms] at h
  split at h
  · rcases List.mem_append.mp h with h | h
    · obtain ⟨i, -, rfl⟩ := List.mem_map.mp h
      rfl
    · rw [List.mem_singleton.mp h]
      rfl
  · cases h

namespace Event
variable {e : Event} {x : Warning}

/-- Calls tell no id, and neither do the warnings that come with them. -/
theorem id?_of_logged (he : e.warning? = none) (h : .warn x ∈ e.logged D) : x.id? = none := by
  rcases List.mem_cons.mp h with rfl | h
  · cases he
  · obtain ⟨y, hy, heq⟩ := List.mem_map.mp h
    obtain rfl := Event.warn.inj heq
    exact id?_of_complaint D hy

end Event

namespace Session

/-- What is destroyed was there. -/
theorem object?_of_destroyed {s : Session σ} {op : Op ι} {a : Answer} {slot : Option Nat}
    {b : BufferObject} (h : (slot, b) ∈ s.destroyed op a) : ∃ t, s.object? t = some b := by
  have hfound {t : Target} {k : Option Nat}
      (h : (slot, b) ∈ (s.object? t).toList.map (k, ·)) : ∃ t, s.object? t = some b := by
    obtain ⟨c, hc, heq⟩ := List.mem_map.mp h
    obtain ⟨-, rfl⟩ := Prod.mk.inj heq
    exact ⟨t, Option.mem_toList.mp hc⟩
  have hsurface {surface : String} (h : (slot, b) ∈ (s.surfaces.find? surface).toList.flatMap
      fun x => x.occupants.map ((none : Option Nat), ·)) : ∃ t, s.object? t = some b := by
    obtain ⟨x, hx, h⟩ := List.mem_flatMap.mp h
    obtain ⟨c, hc, heq⟩ := List.mem_map.mp h
    obtain ⟨-, rfl⟩ := Prod.mk.inj heq
    obtain ⟨i, -, hi⟩ := List.mem_filterMap.mp hc
    exact ⟨.slot surface i, Option.bind_eq_some_iff.mpr ⟨x, Option.mem_toList.mp hx, hi⟩⟩
  unfold destroyed at h
  split at h
  · exact hfound (t := .object _) h
  · exact hfound (t := .object _) h
  · exact hfound (t := .object _) h
  · exact hfound (t := .object _) h
  · exact hsurface h
  · exact hsurface h
  · exact hfound h
  · exact hfound h
  · cases h

/-- An operation tells of the objects that it destroys at most. -/
theorem Narrated.tells {s : Session σ} {op : Op ι} {a : Answer} {w' : World σ}
    (h : s.Narrated D op a w') {id : BufferId} (hid : w'.Tells id) :
    s.world.Tells id ∨ ∃ slot b, (slot, b) ∈ s.destroyed op a ∧ b.id = id := by
  obtain ⟨events, before, departures, after, hw, hevents, hgone, hbefore, hafter⟩ := h
  obtain ⟨x, hx, hid⟩ := hid
  have hsilent (hn : x.id? = none) : False := by simp [hn] at hid
  rw [hw, hevents] at hx
  simp only [List.mem_append] at hx
  rcases hx with hx | ((hx | hx) | hx) | hx
  · exact .inl ⟨x, hx, hid⟩
  · cases hbefore _ hx
  · obtain ⟨y, hy, hx⟩ := List.mem_flatMap.mp hx
    refine .inr ⟨y.slot, y.object, hgone ▸ List.mem_map_of_mem hy, ?_⟩
    rcases List.mem_append.mp hx with hx | hx
    · obtain ⟨z, hz, heq⟩ := List.mem_map.mp hx
      obtain rfl := Event.warn.inj heq
      exact Option.some.inj ((Departure.id?_of_alarm hz).symm.trans hid)
    · obtain ⟨e, he, hx⟩ := List.mem_flatMap.mp hx
      exact (hsilent (Event.id?_of_logged (Departure.warning?_of_call he) hx)).elim
  · obtain ⟨e, he, hx⟩ := List.mem_flatMap.mp hx
    exact (hsilent (Event.id?_of_logged (hafter e he).warning? hx)).elim
  · obtain ⟨y, hy, heq⟩ := List.mem_map.mp hx
    obtain rfl := Event.warn.inj heq
    refine (hsilent ?_).elim
    rw [aborted] at hy
    cases ho : orphaned op a events with
    | nil =>
      rw [ho] at hy
      cases hy
    | cons handle handles =>
      rw [ho] at hy
      rw [List.mem_singleton.mp hy]
      rfl

section Saved
variable (s : Session σ)

theorem ids_onObject (t : Target) (f : BufferObject → World σ → Answer × BufferObject × World σ) :
    (s.onObject t f).2.ids = s.ids := by
  cases t with
  | object name =>
    rw [onObject]
    split <;> rfl
  | slot surface i =>
    rw [onObject]
    split
    · rfl
    · split <;> rfl

theorem ids_onSurface (surface : String) (f : Surface → World σ → Answer × Surface × World σ) :
    (s.onSurface surface f).2.ids = s.ids := by
  rw [onSurface]
  split <;> rfl

variable {s}

theorem ids_onDevice {f : Session σ → Outcome × Session σ} (hf : (f s).2.ids = s.ids) :
    (s.onDevice f).2.ids = s.ids := by
  rw [onDevice]
  split
  · exact hf
  · rfl

/-- Whether an operation can save an id. -/
def Op.Saves : Op ι → Prop
  | .saveId _ _ | .lockFront _ _ => True
  | _ => False

theorem ids_step {op : Op ι} (h : ¬ op.Saves) : (s.step D op).2.ids = s.ids := by
  have hadd (name : String) (made : Except Error BufferObject × World σ) :
      (s.addObject D name made).2.ids = s.ids := by
    obtain ⟨_ | b, w⟩ := made <;> rfl
  cases ho : op.target? with
  | some t =>
    rw [s.step_of_target? ho]
    exact s.ids_onObject t _
  | none =>
    cases op with
    | acquire | acquireRegion | release | write | withMapping | inspect | plane => cases ho
    | outside | receive | newMemory => rfl
    | deviceName | supportsFormat | layoutPlanes | destroyDevice => exact ids_onDevice rfl
    | create name | createBuffer name => exact ids_onDevice (hadd name _)
    | importFrom name source =>
      refine ids_onDevice ?_
      split
      · rfl
      · exact hadd name _
    | createSurface name width height format usage =>
      refine ids_onDevice ?_
      split <;> rfl
    | exportHandle handle flags name =>
      refine ids_onDevice ?_
      split <;> rfl
    | importDescriptor name =>
      refine ids_onDevice ?_
      split
      · rfl
      · split <;> rfl
    | close name | readMemory name | destroy name | destroySurface name =>
      rw [step]
      split <;> rfl
    | inspectSurface surface | allocate surface | setFront surface =>
      exact s.ids_onSurface surface _
    | unlock surface name =>
      rw [step]
      split
      · rfl
      · exact s.ids_onSurface surface _
    | replace surface i buffer =>
      rcases s.replace_cases D surface i buffer with hr | ⟨y, descriptors, hr⟩
      · exact congrArg (·.2.ids) hr
      · exact (congrArg (·.2.ids) hr).trans (ids_onSurface { s with descriptors } surface _)
    | share t name =>
      rcases s.shareObject_cases D t name with hr | ⟨d, hr⟩
      · exact (congrArg (·.ids) hr).trans (s.ids_onObject t _)
      · exact (congrArg (·.ids) hr).trans (s.ids_onObject t _)
    | saveId | lockFront => exact absurd trivial h

private theorem saved_insert {t : Table String BufferId} {n name : String} {id id' : BufferId}
    (h : (t.insert n id').find? name = some id) : t.find? name = some id ∨ id' = id := by
  rw [Table.find?_insert] at h
  split at h
  · exact .inr (Option.some.inj h)
  · exact .inl h

private theorem saved_saveId {t : Target} {n name : String} {id : BufferId}
    (h : (s.saveId t n).2.ids.find? name = some id) :
    s.ids.find? name = some id ∨ ∃ t b, s.object? t = some b ∧ b.id = id := by
  have hids := s.ids_onObject t fun b w => (.done, b, w)
  have hsubject : ∀ b, (s.onObject t fun b w => (.done, b, w)).1.subject = .object b →
      s.object? t = some b := by
    intro b hb
    cases t with
    | object name =>
      rw [onObject] at hb
      split at hb
      · cases hb
      · next hc => exact Subject.object.inj hb ▸ hc
    | slot surface i =>
      rw [onObject] at hb
      split at hb
      · cases hb
      · next x hx =>
        split at hb
        · cases hb
        · next hc => exact Option.bind_eq_some_iff.mpr ⟨x, hx, Subject.object.inj hb ▸ hc⟩
  rw [saveId] at h
  generalize s.onObject t _ = r at hids hsubject h
  obtain ⟨⟨answer, subject⟩, s₁⟩ := r
  have hkept (h : s₁.ids.find? name = some id) :
      s.ids.find? name = some id ∨ ∃ t b, s.object? t = some b ∧ b.id = id :=
    .inl (by rw [← hids, h])
  cases subject with
  | object b =>
    rcases saved_insert h with h | hid
    · exact hkept h
    · exact .inr ⟨t, b, hsubject b rfl, hid⟩
  | _ => exact hkept h

private theorem saved_lockFront {surface : String} {n : Option String} {name : String}
    {id : BufferId} (h : (s.lockFront surface n).2.ids.find? name = some id) :
    s.ids.find? name = some id ∨ ∃ t b, s.object? t = some b ∧ b.id = id := by
  have hids := s.ids_onSurface surface fun x w => (.identity x.lockFront.1, x.lockFront.2, w)
  have hanswer : ∀ id, (s.onSurface surface fun x w =>
      (.identity x.lockFront.1, x.lockFront.2, w)).1.answer = .identity (some id) →
      ∃ t b, s.object? t = some b ∧ b.id = id := by
    intro id ha
    rw [onSurface] at ha
    split at ha
    · cases ha
    · next x hx =>
      obtain ⟨b, hb, rfl⟩ := Option.map_eq_some_iff.mp
        (x.lockFront_id.symm.trans (Answer.identity.inj ha))
      obtain ⟨i, -, hb⟩ := Option.bind_eq_some_iff.mp hb
      exact ⟨.slot surface i, b, Option.bind_eq_some_iff.mpr ⟨x, hx, hb⟩, rfl⟩
  rw [lockFront] at h
  generalize s.onSurface surface _ = r at hids hanswer h
  obtain ⟨⟨answer, subject⟩, s₁⟩ := r
  have hkept (h : s₁.ids.find? name = some id) :
      s.ids.find? name = some id ∨ ∃ t b, s.object? t = some b ∧ b.id = id :=
    .inl (by rw [← hids, h])
  cases answer with
  | identity i =>
    cases i with
    | none => exact hkept h
    | some i =>
      cases n with
      | none => exact hkept h
      | some n =>
        rcases saved_insert h with h | hid
        · exact hkept h
        · exact .inr (hid ▸ hanswer i rfl)
  | _ => exact hkept h

/-- The id that is saved is that of an object. -/
theorem saved_step (op : Op ι) {name : String} {id : BufferId}
    (h : (s.step D op).2.ids.find? name = some id) :
    s.ids.find? name = some id ∨ ∃ t b, s.object? t = some b ∧ b.id = id := by
  by_cases hop : op.Saves
  · cases op with
    | saveId t n => exact saved_saveId h
    | lockFront surface n => exact saved_lockFront h
    | _ => exact hop.elim
  · rw [ids_step hop] at h
    exact .inl h

end Saved

/-- Ids that were saved and ids that warnings tell have been given out, and no warning is about an
object that is still there. -/
structure Discreet (s : Session σ) : Prop where
  saved : ∀ {name id}, s.ids.find? name = some id → id.number < s.world.identities
  told : ∀ {id}, s.world.Tells id → id.number < s.world.identities
  untold : ∀ {t b}, s.object? t = some b → ¬ s.world.Tells b.id

/-- Only objects that are there have their ids saved, and only those that go are told of. -/
theorem Discreet.step {s : Session σ} (h : s.Discreet) (hs : s.Apart) (op : Op ι) :
    (s.step D op).2.Discreet := by
  have htells {id : BufferId} (hid : (s.step D op).2.world.Tells id) : s.world.Tells id ∨
      ∃ t b, s.object? t = some b ∧ b.id = id ∧ (s.step D op).2.Gone t b := by
    rcases (step_narrated s op).tells hid with hid | ⟨slot, b, hb, rfl⟩
    · exact .inl hid
    · obtain ⟨t, ht⟩ := object?_of_destroyed hb
      exact .inr ⟨t, b, ht, rfl, (gone_iff hs op ht).mp ⟨slot, hb⟩⟩
  have hadvances := (s.step_advances (D := D) op).identities
  constructor
  · intro name id hid
    rcases saved_step op hid with hid | ⟨t, b, hb, rfl⟩
    · exact (h.saved hid).trans_le hadvances
    · exact (hs.numbered hb).trans_le hadvances
  · intro id hid
    rcases htells hid with hid | ⟨t, b, hb, rfl, -⟩
    · exact (h.told hid).trans_le hadvances
    · exact (hs.numbered hb).trans_le hadvances
  · intro t c hc hid
    rcases s.lineage hc with ⟨b, hb, rfl, -⟩ | ⟨-, hn, -⟩
    · rw [leaves_id] at hid
      rcases htells hid with hid | ⟨u, b', hb', hid', hgone⟩
      · exact h.untold hb hid
      · obtain rfl := hs.named hb' hb hid'
        exact hgone _ hc ((leaves_id ..).trans hid'.symm)
    · have hnew := hn.above
      rcases htells hid with hid | ⟨u, b', hb', hid', -⟩
      · exact absurd (h.told hid) (by omega)
      · have hold := hs.numbered hb'
        rw [hid'] at hold
        omega

theorem discreet_run (D : Driver σ ι) (d : σ) (ops : List (Op ι)) :
    ((start d).run D ops).2.Discreet := by
  induction ops using List.reverseRecOn with
  | nil =>
    refine ⟨fun h => ?_, fun h => ?_, fun h => ?_⟩
    · cases h
    · obtain ⟨x, hx, -⟩ := h
      cases hx
    · cases (object?_start d _).symm.trans h
  | append_singleton ops op ih =>
    rw [run_concat]
    exact ih.step ((apart_start d).run ops) op

end Session
end DisplayBuffers
