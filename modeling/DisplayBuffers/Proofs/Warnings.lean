import DisplayBuffers.Proofs.Attribution
import DisplayBuffers.Proofs.Destruction
import DisplayBuffers.Proofs.DriverRecord

/-! What is warned of, and when. Most warnings come with the end of a buffer object, so that the
operations that end some are told apart first; the others come of a mapping that cannot be undone,
of a creation that is withdrawn, and of an import that leaves handles behind. -/
namespace DisplayBuffers.Session
variable {σ ι : Type} {D : Driver σ ι}

/-- The handles that an import of planes leaves behind when it fails, by its events. -/
def orphaned (op : Op ι) (answer : Answer) (events : List Event) : List Handle :=
  match op, answer with
  | .importFrom _ (.planes _ _ _ _ _ _), .failed _ => events.filterMap Event.converted?
  | _, _ => []

/-- What is warned of an import that fails. -/
def aborted (op : Op ι) (answer : Answer) (events : List Event) : List Warning :=
  Warning.ofOrphaned (orphaned op answer events)

/-- Whether an operation gives references to the object at a target back. -/
def Op.Returns (t : Target) : Op ι → Prop
  | .release u | .withMapping u _ => u = t
  | _ => False

/-- The calls of an operation apart from those of departures. What is given back among them is a
mapping that is not used any more, or the storage of an object that could not be created. -/
inductive Follows (s : Session σ) (op : Op ι) (answer : Answer) (log : List Event) : Event → Prop
  | plain {e} (h : e.isPlain = true) : Follows s op answer log e
  | unmapped {t b st d a r} (hop : op.Returns t) (hb : s.object? t = some b)
      (ho : b.backing = .owned st d) : Follows s op answer log (.unmap st a r)
  | released {x kind width height format st r} (hop : op.Creates) (ha : answer = .failed x)
      (hk : s.world.allocations ≤ st.key)
      (hs : .allocate kind width height format (.ok st) ∈ log) :
      Follows s op answer log (.release st r)

theorem Follows.warning? {s : Session σ} {op : Op ι} {answer : Answer} {log : List Event}
    {e : Event} (h : s.Follows op answer log e) : e.warning? = none := by
  cases h with
  | plain h => exact Event.warning?_of_plain h
  | unmapped => rfl
  | released => rfl

/-- The log of an operation: what is done first has nothing to warn of, then objects are destroyed,
and after these the other calls are made, each with its warning. -/
def Narrated (D : Driver σ ι) (s : Session σ) (op : Op ι) (answer : Answer) (w' : World σ) : Prop :=
  ∃ (events before : List Event) (departures : List Departure) (after : List Event),
    w'.events = s.world.events ++ events ∧
    events = before ++ departures.flatMap (Departure.log D) ++ after.flatMap (Event.logged D) ++
      (aborted op answer events).map .warn ∧
    departures.map (fun x => (x.slot, x.object)) = s.destroyed op answer ∧
    (∀ e ∈ before, e.isPlain = true) ∧ ∀ e ∈ after, s.Follows op answer w'.events e

section
variable {s : Session σ} {op : Op ι} {answer : Answer} {w₁ w₂ w' : World σ}

theorem Narrated.intro (after : List Event) (h : s.world.Plainly w₁)
    (hd : w₁.Departs D w₂ (s.destroyed op answer))
    (hw : w'.events = w₂.events ++ after.flatMap (Event.logged D))
    (ha : ∀ l, aborted op answer l = []) (hf : ∀ e ∈ after, s.Follows op answer w'.events e) :
    s.Narrated D op answer w' := by
  obtain ⟨before, hbefore, hplain⟩ := h
  obtain ⟨departures, hgone, hdeparted⟩ := hd
  refine ⟨_, before, departures, after, ?_, by rw [ha, List.map_nil, List.append_nil], hgone,
    hplain, hf⟩
  rw [hw, hdeparted, hbefore]
  simp only [List.append_assoc]

/-- Objects are destroyed after what has nothing to warn of. -/
theorem Narrated.departs (h : s.world.Plainly w₁) (hd : w₁.Departs D w' (s.destroyed op answer))
    (ha : ∀ l, aborted op answer l = []) : s.Narrated D op answer w' :=
  .intro [] h hd (List.append_nil _).symm ha nofun

/-- There is nothing to warn of. -/
theorem Narrated.plainly (h : s.world.Plainly w') (hd : s.destroyed op answer = [])
    (ha : ∀ l, aborted op answer l = []) : s.Narrated D op answer w' :=
  .departs h (hd ▸ .nobody rfl) ha

theorem Narrated.quiet (h : w'.events = s.world.events) (hd : s.destroyed op answer = [])
    (ha : ∀ l, aborted op answer l = []) : s.Narrated D op answer w' :=
  .plainly (.of_same h) hd ha

/-- One call whose failure is warned of. -/
theorem Narrated.follows {e : Event} (h : s.world.Plainly w₁) (hd : s.destroyed op answer = [])
    (hw : w'.events = w₁.events ++ e.logged D) (ha : ∀ l, aborted op answer l = [])
    (hf : s.Follows op answer w'.events e) : s.Narrated D op answer w' := by
  have hnobody : w₁.Departs D w₁ (s.destroyed op answer) := hd ▸ .nobody rfl
  refine .intro [e] h hnobody ?_ ha fun x hx => List.mem_singleton.mp hx ▸ hf
  rw [hw, List.flatMap_singleton]

theorem Narrated.of_events (h : s.Narrated D op answer w₁) (hw : w'.events = w₁.events) :
    s.Narrated D op answer w' := by
  rw [Narrated, hw]
  exact h

theorem narrated_onObject {t : Target}
    {f : BufferObject → World σ → Answer × BufferObject × World σ}
    (hd : ∀ a, s.destroyed op a = []) (ha : ∀ a l, aborted op a l = [])
    (hf : ∀ b, s.object? t = some b → s.Narrated D op (f b s.world).1 (f b s.world).2.2) :
    s.Narrated D op (s.onObject t f).1.answer (s.onObject t f).2.world := by
  cases hb : s.object? t with
  | none => rcases onObject_of_none hb f with h | h <;> rw [h] <;> exact .quiet rfl (hd _) (ha _)
  | some b =>
    obtain ⟨hanswer, hworld⟩ := onObject_of_some hb f
    rw [hanswer, hworld]
    exact hf b hb

theorem narrated_onSurface {surface : String}
    {f : Surface → World σ → Answer × Surface × World σ}
    (hd : s.surfaces.find? surface = none → s.destroyed op .malformed = [])
    (ha : ∀ l, aborted op .malformed l = [])
    (hf : ∀ x, s.surfaces.find? surface = some x →
      s.Narrated D op (f x s.world).1 (f x s.world).2.2) :
    s.Narrated D op (s.onSurface surface f).1.answer (s.onSurface surface f).2.world := by
  rw [onSurface]
  split
  · next hx => exact .quiet rfl (hd hx) ha
  · next x hx => exact hf x hx

theorem narrated_onDevice {f : Session σ → Outcome × Session σ}
    (hd : s.destroyed op .malformed = []) (ha : ∀ l, aborted op .malformed l = [])
    (hf : s.Narrated D op (f s).1.answer (f s).2.world) :
    s.Narrated D op (s.onDevice f).1.answer (s.onDevice f).2.world := by
  rw [onDevice]
  split
  · exact hf
  · exact .quiet rfl hd ha

theorem keepDescriptor_plainly (s : Session σ) (name : String) (d : Dmabuf) :
    s.world.Plainly (s.keepDescriptor name d).world := by
  rw [keepDescriptor]
  dsimp only
  split
  · exact .one rfl rfl
  · exact .of_same rfl

/-- What is made takes the place of what was there before. -/
theorem narrated_addObject {name : String} {made : Except Error BufferObject × World σ}
    (hd : s.destroyed op .done = (s.objects.find? name).toList.map (none, ·))
    (ha : ∀ l, aborted op .done l = [])
    (hok : ∀ b w, made = (.ok b, w) → s.world.Plainly w)
    (herror : ∀ x w, made = (.error x, w) → s.Narrated D op (.failed x) w) :
    s.Narrated D op (s.addObject D name made).1.answer (s.addObject D name made).2.world := by
  obtain ⟨x | b, w⟩ := made
  · exact herror x w rfl
  · have hdeparts : w.Departs D ((s.withWorld w).keepObject D name b).world
        (s.destroyed op .done) := by
      rw [hd]
      simp only [keepObject, withWorld]
      cases s.objects.find? name with
      | none => exact .nobody rfl
      | some old => exact old.destroy_departs D w
    exact .departs (hok b w rfl) hdeparts ha

end

section
variable {s : Session σ} {op : Op ι}

theorem create_plainly {width height : UInt32} {code : FormatCode} {usage : Usage}
    {w w' : World σ} {b : BufferObject}
    (h : BufferObject.create D width height code usage w = (.ok b, w')) : w.Plainly w' := by
  obtain ⟨_, _, _, _, _, _, hc⟩ := BufferObject.create_ok_logged h
  exact ⟨_, hc.events, BufferObject.createCalls_plain⟩

/-- A creation that fails destroys what it has made so far, after what made room for it. -/
theorem narrated_withdrawn {width height : UInt32} {code : FormatCode} {usage : Usage}
    {w w' : World σ} {x : Error} (hop : op.Creates)
    (hd : s.world.Departs D w (s.destroyed op (.failed x)))
    (ha : ∀ l, aborted op (.failed x) l = []) (hw : s.world.allocations ≤ w.allocations)
    (h : BufferObject.create D width height code usage w = (.error x, w')) :
    s.Narrated D op (.failed x) w' := by
  rcases BufferObject.create_error_logged h with ⟨_, _, rfl⟩ | ⟨format, A, _, hA⟩
  · exact .departs (.of_same rfl) hd ha
  · have hevents := hA.events
    rw [List.append_assoc, List.append_assoc] at hevents
    refine .intro (BufferObject.createCalls width height format usage A ++ A.undoing)
      (.of_same rfl) hd ?_ ha fun e he => ?_
    · rw [hevents, List.flatMap_append, BufferObject.undoing_logged,
        Event.flatMap_logged_of_plain BufferObject.createCalls_plain]
    · rcases List.mem_append.mp he with he | he
      · exact .plain (BufferObject.createCalls_plain e he)
      · rcases BufferObject.mem_undoing he with hp | ⟨st, hst, rfl⟩
        · exact .plain hp
        · have hs : .allocate (.ofUsage usage) width height format (.ok st) ∈ w'.events := by
            rw [hevents, ← hst]
            exact List.mem_append_right _ (List.mem_append_left _ List.mem_cons_self)
          exact .released hop rfl (hw.trans (hA.unused st hst).ge) hs

theorem narrated_work {t : Target} {b : BufferObject} (ht : op.target? = some t)
    (hb : s.object? t = some b) :
    s.Narrated D op (op.work D b s.world).1 (op.work D b s.world).2.2 := by
  cases op with
  | acquire u =>
    simp only [Op.work]
    rcases hq : b.acquire D s.world with ⟨e | a, b', w'⟩ <;>
      exact .plainly (BufferObject.acquire_plainly hq) rfl fun _ => rfl
  | acquireRegion u x y width height =>
    simp only [Op.work]
    rcases hq : b.acquireRegion D x y width height s.world with ⟨e | a, b', w'⟩ <;>
      exact .plainly (BufferObject.acquireRegion_plainly hq) rfl fun _ => rfl
  | release u =>
    rcases b.release_unmaps D s.world with hw | ⟨st, d, a, r, ho, -, hw⟩
    · exact .quiet hw rfl fun _ => rfl
    · exact .follows (.of_same rfl) rfl hw (fun _ => rfl) (.unmapped rfl (by cases ht; exact hb) ho)
  | write u data =>
    refine .quiet ?_ rfl fun _ => rfl
    simp only [Op.work, BufferObject.write]
    split
    · rfl
    · split <;> rfl
  | withMapping u accesses =>
    simp only [Op.work]
    rcases hq : b.withMapping D accesses s.world with ⟨e | seen, b', w'⟩ <;>
      rcases BufferObject.withMapping_unmaps hq with hw | ⟨w₁, st, d, a, r, hw₁, ho, hw⟩
    · exact .plainly hw rfl fun _ => rfl
    · exact .follows hw₁ rfl hw (fun _ => rfl) (.unmapped rfl (by cases ht; exact hb) ho)
    · exact .plainly hw rfl fun _ => rfl
    · exact .follows hw₁ rfl hw (fun _ => rfl) (.unmapped rfl (by cases ht; exact hb) ho)
  | inspect u => exact .quiet rfl rfl fun _ => rfl
  | plane u index => exact .quiet rfl rfl fun _ => rfl
  | _ => cases ht

theorem narrated_share (s : Session σ) (t : Target) (name : String) :
    s.Narrated D (.share t name : Op ι) (s.shareObject D t name).1.answer
      (s.shareObject D t name).2.world := by
  have hplain : s.world.Plainly (s.onObject t (sharing D)).2.world := by
    refine s.world_onObject t (.of_same rfl) fun b _ => ?_
    rw [sharing]
    rcases hq : b.share D s.world with ⟨e | d, w⟩ <;> exact BufferObject.share_plainly hq
  refine .plainly ?_ rfl fun _ => rfl
  rcases s.shareObject_cases D t name with h | ⟨d, h⟩
  · rw [h]
    exact hplain
  · rw [h]
    exact hplain.trans (keepDescriptor_plainly _ name d)

theorem narrated_replace (s : Session σ) (surface : String) (i : Nat)
    (buffer : Option NamedBuffer) :
    s.Narrated D (.replace surface i buffer : Op ι) (s.replace D surface i buffer).1.answer
      (s.replace D surface i buffer).2.world := by
  rcases s.replace_cases D surface i buffer with h | ⟨y, descriptors, h⟩
  · rw [h]
    exact .quiet rfl rfl fun _ => rfl
  · rw [h]
    have hsurface (x : Surface) (hx : s.surfaces.find? surface = some x) :
        s.Narrated D (.replace surface i buffer : Op ι) (replacing D i y x s.world).1
          (replacing D i y x s.world).2.2 := by
      by_cases hi : i < slotCount
      · have hdone : (replacing D i y x s.world).1 = .done := by
          rw [replacing, Surface.replace, if_pos hi]
          cases y <;> rfl
        have hworld : (replacing D i y x s.world).2.2.events = (x.clear D i s.world).2.events := by
          rw [replacing, Surface.replace, if_pos hi]
          cases y <;> rfl
        have hgone : (x.slot? i).toList.map (some i, ·) =
            s.destroyed (.replace surface i buffer : Op ι) .done := by
          rw [destroyed, object?, hx]
          rfl
        rw [hdone]
        have h := x.clear_departs D i s.world
        rw [hgone] at h
        exact (Narrated.departs (.of_same rfl) h fun _ => rfl).of_events hworld
      · have hfailed : (replacing D i y x s.world).1 =
            .failed (.invalidArgument .slotIndexOutOfRange) := by
          rw [replacing, (x.replace_error D hi y s.world).1]
          rfl
        rw [hfailed]
        refine .plainly ?_ rfl fun _ => rfl
        rw [replacing, Surface.replace, if_neg hi]
        dsimp only
        split
        · exact .one rfl rfl
        · exact .of_same rfl
    cases hx : s.surfaces.find? surface with
    | none =>
      simp only [onSurface, hx]
      exact .quiet rfl rfl fun _ => rfl
    | some x =>
      simp only [onSurface, hx]
      exact hsurface x hx

theorem narrated_allocate (s : Session σ) (surface : String) (i : Nat) (x : Surface)
    (hx : s.surfaces.find? surface = some x) :
    s.Narrated D (.allocate surface i : Op ι)
      (match (x.allocate D i s.world).1 with
        | .ok id => .identity (some id)
        | .error e => .failed e) (x.allocate D i s.world).2.2 := by
  have hgone (a : Answer) : s.destroyed (.allocate surface i : Op ι) a =
      (x.slot? i).toList.map (some i, ·) := by
    rw [destroyed, object?, hx]
    rfl
  by_cases hi : i < slotCount
  · have hdeparts (a : Answer) : s.world.Departs D (x.clear D i s.world).2
        (s.destroyed (.allocate surface i : Op ι) a) := by
      rw [hgone]
      exact x.clear_departs D i s.world
    rw [x.allocate_of_lt D hi]
    rcases hq : BufferObject.create D x.width x.height x.format.code (x.usage.union .write)
      (x.clear D i s.world).2 with ⟨e | b, w'⟩
    · exact narrated_withdrawn trivial (hdeparts _) (fun _ => rfl)
        (Surface.clear_advances D x i s.world).allocations hq
    · obtain ⟨l, hl, hp⟩ := create_plainly hq
      refine .intro l (.of_same rfl) (hdeparts _) ?_ (fun _ => rfl) fun e he => .plain (hp e he)
      rw [Event.flatMap_logged_of_plain hp]
      exact hl
  · rw [Surface.allocate, if_neg hi]
    refine .quiet rfl ?_ fun _ => rfl
    rw [hgone, x.slot?_eq_none hi]
    rfl

theorem narrated_import (s : Session σ) {name : String} {source : ImportSource String}
    {source' : ImportSource Dmabuf} (hs : source.resolve? s.descriptors.find? = some source') :
    s.Narrated D (.importFrom name source : Op ι)
      (s.addObject D name (BufferObject.importFrom D source' s.world)).1.answer
      (s.addObject D name (BufferObject.importFrom D source' s.world)).2.world := by
  refine narrated_addObject rfl (fun _ => by cases source <;> rfl)
    (fun b w h => BufferObject.importFrom_plainly h) fun x w h => ?_
  cases source with
  | external resource =>
    obtain rfl := Option.some.inj hs
    simp only [BufferObject.importFrom, BufferObject.importExternal] at h
    refine .quiet ?_ rfl fun _ => rfl
    split at h
    · rw [← (Prod.mk.inj h).2]
    · split at h
      · rw [← (Prod.mk.inj h).2]
      · cases h
  | descriptor d width height stride format =>
    obtain ⟨d', -, rfl⟩ := Option.map_eq_some_iff.mp hs
    simp only [BufferObject.importFrom] at h
    refine .plainly ?_ rfl fun _ => rfl
    split at h
    · next hq =>
      obtain ⟨-, rfl⟩ := Prod.mk.inj h
      exact .one (congrArg World.events (World.importDescriptor_eq hq)) rfl
    · cases h
  | planes ds strides width height format modifier =>
    obtain ⟨ds', -, rfl⟩ := Option.map_eq_some_iff.mp hs
    obtain ⟨l, hplain, hw⟩ := BufferObject.importFrom_planes_failed h
    have hconverted (xs : List Warning) :
        (l ++ xs.map Event.warn).filterMap Event.converted? = l.filterMap Event.converted? := by
      rw [List.filterMap_append, List.filterMap_map]
      exact (congrArg _ (List.filterMap_eq_nil_iff.mpr fun _ _ => rfl)).trans (List.append_nil _)
    refine ⟨_, l, [], [], hw, ?_, rfl, hplain, by simp⟩
    rw [aborted, orphaned, hconverted]
    simp only [List.flatMap_nil, List.append_nil]

/-- Every operation is narrated, whatever the driver answers. -/
theorem step_narrated (s : Session σ) (op : Op ι) :
    s.Narrated D op (s.step D op).1.answer (s.step D op).2.world := by
  cases ho : op.target? with
  | some t =>
    rw [s.step_of_target? ho]
    refine narrated_onObject ?_ ?_ fun b hb => narrated_work ho hb
    · intro a
      cases op <;> first | rfl | cases ho
    · intro a l
      cases op <;> first | rfl | cases ho
  | none =>
    cases op with
    | acquire t | acquireRegion t x y width height | release t | write t data
    | withMapping t accesses | inspect t | plane t index => cases ho
    | outside i => exact .quiet rfl rfl fun _ => rfl
    | receive name =>
      have hw : s.world.Plainly (s.world.receive D).2 := .of_same rfl
      exact .plainly (hw.trans (keepDescriptor_plainly (s.withWorld _) name _)) rfl fun _ => rfl
    | close name =>
      simp only [step]
      split
      · exact .quiet rfl rfl fun _ => rfl
      · exact .plainly (.one rfl rfl) rfl fun _ => rfl
    | newMemory name length => exact .quiet rfl rfl fun _ => rfl
    | readMemory name offset count =>
      simp only [step]
      split <;> exact .quiet rfl rfl fun _ => rfl
    | deviceName => exact narrated_onDevice rfl (fun _ => rfl) (.quiet rfl rfl fun _ => rfl)
    | supportsFormat format usage =>
      exact narrated_onDevice rfl (fun _ => rfl) (.quiet rfl rfl fun _ => rfl)
    | layoutPlanes format modifier =>
      exact narrated_onDevice rfl (fun _ => rfl) (.quiet rfl rfl fun _ => rfl)
    | create name width height format usage =>
      refine narrated_onDevice rfl (fun _ => rfl) (narrated_addObject rfl (fun _ => rfl)
        (fun b w h => create_plainly h) fun x w h => ?_)
      exact narrated_withdrawn trivial (.nobody rfl) (fun _ => rfl) le_rfl h
    | createBuffer name width height fourcc modifiers =>
      refine narrated_onDevice rfl (fun _ => rfl) (narrated_addObject rfl (fun _ => rfl)
        (fun b w h => create_plainly (Device.createBuffer_ok h)) fun x w h => ?_)
      have hcreate {w : World σ} (h : Device.createBuffer.create D width height fourcc s.world =
          (.error x, w)) : s.Narrated D (.createBuffer name width height fourcc modifiers)
            (.failed x) w :=
        narrated_withdrawn trivial (.nobody rfl) (fun _ => rfl) le_rfl h
      unfold Device.createBuffer at h
      split at h
      · exact hcreate h
      · split at h
        · exact hcreate h
        · obtain ⟨-, rfl⟩ := Prod.mk.inj h
          exact .quiet rfl rfl fun _ => rfl
    | importFrom name source =>
      refine narrated_onDevice rfl (fun _ => by cases source <;> rfl) ?_
      split
      · exact .quiet rfl rfl fun _ => by cases source <;> rfl
      · next source' hs => exact narrated_import s hs
    | createSurface name width height format usage =>
      refine narrated_onDevice rfl (fun _ => rfl) ?_
      split
      · exact .quiet rfl rfl fun _ => rfl
      · have hheld : s.world.Plainly s.world.hold := .of_same rfl
        refine .departs hheld ?_ fun _ => rfl
        have hfind : (s.withWorld s.world.hold).surfaces.find? name = s.surfaces.find? name := rfl
        simp only [destroyed, keepSurface, hfind]
        cases s.surfaces.find? name with
        | none => exact .nobody rfl
        | some old => simpa [withWorld] using old.destroy_departs D s.world.hold
    | exportHandle handle flags name =>
      refine narrated_onDevice rfl (fun _ => rfl) ?_
      split
      · next d w hq =>
        have hw : s.world.Plainly w := .one (congrArg World.events (World.exportHandle_ok hq)) rfl
        exact .plainly (hw.trans (keepDescriptor_plainly (s.withWorld w) name d)) rfl fun _ => rfl
      · next c w hq =>
        exact .plainly (.one (congrArg World.events (World.exportHandle_error hq)) rfl) rfl
          fun _ => rfl
    | importDescriptor name =>
      refine narrated_onDevice rfl (fun _ => rfl) ?_
      split
      · exact .quiet rfl rfl fun _ => rfl
      · split
        all_goals
          next hq =>
            exact .plainly (.one (congrArg World.events (World.importDescriptor_eq hq)) rfl) rfl
              fun _ => rfl
    | destroyDevice => exact narrated_onDevice rfl (fun _ => rfl) (.quiet rfl rfl fun _ => rfl)
    | saveId t name =>
      have h : s.Narrated D (.saveId t name : Op ι) (s.onObject t fun b w => (.done, b, w)).1.answer
          (s.onObject t fun b w => (.done, b, w)).2.world :=
        narrated_onObject (fun _ => rfl) (fun _ _ => rfl) fun b _ => .quiet rfl rfl fun _ => rfl
      simp only [step, saveId]
      split <;> exact h
    | share t name => exact narrated_share s t name
    | destroy name =>
      simp only [step]
      split
      · next hb => exact .quiet rfl (by rw [destroyed, hb]; rfl) fun _ => rfl
      · next b hb =>
        refine .departs (.of_same rfl) ?_ fun _ => rfl
        rw [destroyed, hb]
        exact b.destroy_departs D s.world
    | inspectSurface surface =>
      exact narrated_onSurface (fun _ => rfl) (fun _ => rfl) fun x _ => .quiet rfl rfl fun _ => rfl
    | replace surface index buffer => exact narrated_replace s surface index buffer
    | allocate surface index =>
      refine narrated_onSurface (fun hx => ?_) (fun _ => rfl) fun x hx => ?_
      · rw [destroyed, object?, hx]
        rfl
      · have h := narrated_allocate (D := D) s surface index x hx
        rcases hq : x.allocate D index s.world with ⟨_ | _, _, _⟩ <;> rw [hq] at h <;> exact h
    | setFront surface front =>
      exact narrated_onSurface (fun _ => rfl) (fun _ => rfl) fun x _ => .quiet rfl rfl fun _ => rfl
    | lockFront surface name =>
      have h : s.Narrated D (.lockFront surface name : Op ι)
          (s.onSurface surface fun x w => (.identity x.lockFront.1, x.lockFront.2, w)).1.answer
          (s.onSurface surface fun x w =>
            (.identity x.lockFront.1, x.lockFront.2, w)).2.world :=
        narrated_onSurface (fun _ => rfl) (fun _ => rfl) fun x _ => .quiet rfl rfl fun _ => rfl
      simp only [step, lockFront]
      split <;> exact h
    | unlock surface name =>
      simp only [step]
      split
      · exact .quiet rfl rfl fun _ => rfl
      · exact narrated_onSurface (fun _ => rfl) (fun _ => rfl) fun x _ =>
          .quiet rfl rfl fun _ => rfl
    | destroySurface surface =>
      simp only [step]
      split
      · next hx => exact .quiet rfl (by rw [destroyed, hx]; rfl) fun _ => rfl
      · next x hx =>
        refine .departs (.of_same rfl) ?_ fun _ => rfl
        have hgone : s.destroyed (.destroySurface surface : Op ι) .done =
            x.occupants.map (none, ·) := by
          rw [destroyed, hx]
          exact List.append_nil _
        rw [reply, hgone]
        exact x.destroy_departs D s.world

end

/-- What was warned of in an operation. -/
def Turn.warnings (e : Turn σ ι) : List Warning := e.events.filterMap Event.warning?

/-- The objects that were destroyed in an operation, and the handles left behind in it. -/
def Turn.destroyed (e : Turn σ ι) : List (Option Nat × BufferObject) :=
  e.before.destroyed e.op e.answer

def Turn.aborted (e : Turn σ ι) : List Warning := Session.aborted e.op e.answer e.events

/-- Whatever the driver answers in a run, what an operation warns of is this and nothing else, in
this order. For each object that it destroys, which are those not found any more where they were, it
warns of the lock, twice if the object makes room in a slot, then of a mapping that the driver could
not undo, and then of storage that it could not release; and it makes all calls of these departures
all the same. After them it warns of a mapping that could not be undone when a user was done with
it, or of storage that could not be released when an object could not be created. In the end it
warns of the handles that a failed import leaves. What it answers tells of other calls only. The
outcomes of all these calls are the driver's answers to them. -/
theorem warnings_complete (D : Driver σ ι) (d : σ) (ops : List (Op ι)) (op : Op ι) :
    let s := ((start d).run D ops).2
    let e := s.turn D op
    ∃ (before : List Event) (departures : List Departure) (after : List Event),
      departures.map (fun x => (x.slot, x.object)) = e.destroyed ∧
      (∀ t b, s.object? t = some b → ((∃ slot, (slot, b) ∈ e.destroyed) ↔ e.after.Gone t b)) ∧
      e.warnings = departures.flatMap (·.warnings D) ++ after.flatMap (·.complaints D) ++
        e.aborted ∧
      e.events = before ++ departures.flatMap (·.log D) ++ after.flatMap (·.logged D) ++
        e.aborted.map .warn ∧
      (∀ x ∈ before, x.isPlain = true) ∧
      (∀ x ∈ after, s.Follows op e.answer e.after.world.events x) ∧
      e.answer.TellsOf (e.events.filter Event.isRefused) ∧
      D.Recorded d (s.world.events ++ e.events) e.after.world.driver := by
  intro s e
  obtain ⟨events, before, departures, after, hevents, hlog, hgone, hbefore, hafter⟩ :=
    step_narrated (D := D) s op
  have he : e.events = events := turn_events hevents
  have hplain : before.filterMap Event.warning? = [] :=
    List.filterMap_eq_nil_iff.mpr fun x hx => Event.warning?_of_plain (hbefore x hx)
  have hdeparted : (departures.flatMap (Departure.log D)).filterMap Event.warning? =
      departures.flatMap (·.warnings D) := by
    rw [List.filterMap_flatMap]
    exact congrArg (List.flatMap · departures) (funext Departure.warnings_of_log)
  have hcomplained : (after.flatMap (Event.logged D)).filterMap Event.warning? =
      after.flatMap (·.complaints D) :=
    Event.warnings_of_logged fun x hx => (hafter x hx).warning?
  have hfull : e.events = before ++ departures.flatMap (·.log D) ++ after.flatMap (·.logged D) ++
      e.aborted.map .warn := by
    rw [Turn.aborted, he]
    exact hlog
  have hs : s.Apart := (apart_start d).run ops
  have hrecorded : D.Recorded d (s.world.events ++ e.events) e.after.world.driver := by
    have hlog := (run_recorded D d (ops ++ [op])).log
    rw [run_concat] at hlog
    rwa [he, ← hevents]
  refine ⟨before, departures, after, hgone, fun t b hb => gone_iff hs op hb, ?_, hfull, hbefore,
    hafter, (s.turn_accounts op).2, hrecorded⟩
  rw [Turn.warnings, hfull]
  simp only [List.filterMap_append]
  rw [hplain, hdeparted, hcomplained, Event.warnings_of_warn, List.nil_append]

end DisplayBuffers.Session
