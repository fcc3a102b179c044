import DisplayBuffers.Proofs.Departures
import DisplayBuffers.Proofs.Isolation
import DisplayBuffers.Proofs.KernelDiscipline

/-! Descriptors made on demand. An object with a kernel handle has it exported each time; one
without duplicates the descriptor that it was given, if there is one. So only a client that asks for
the export of a handle itself can have the null handle refused. -/
namespace DisplayBuffers
variable {σ ι : Type} {D : Driver σ ι}

namespace Session

/-- What an operation does that makes a descriptor by one call and gives it a name. The descriptor
that had the name before is closed. -/
structure Turn.Makes (e : Turn σ ι) (name : String) (call : Event) (step : FailedStep)
    (r : Except IoError Dmabuf) : Prop where
  made : ∀ d, r = .ok d →
    let superseded := (e.before.descriptors.find? name).toList
    e.answer = .dmabuf d ∧ e.events = call :: superseded.map .close ∧
      e.after.descriptors = e.before.descriptors.insert name d ∧
      e.after.world.descriptors = (d :: e.before.world.descriptors).diff superseded
  failed : ∀ c, r = .error c →
    e.answer = .failed (.allocation step c) ∧ e.events = [call] ∧
      e.after.descriptors = e.before.descriptors ∧
      e.after.world.descriptors = e.before.world.descriptors

/-- What a request for another descriptor of an object does. The objects stay as they are, and so
does the descriptor that the object may hold. -/
structure OnDemand (D : Driver σ ι) (name : String) (b : BufferObject) (e : Turn σ ι) :
    Prop where
  /-- A handle is exported, whatever descriptor the object holds. -/
  exported : b.handle.isNull = false →
    let r := (D.exportHandle b.handle .closeOnExec e.before.world.driver).1
    e.Makes name (.exportHandle b.handle .closeOnExec r) .exportHandle r
  duplicated : b.handle.isNull = true → ∀ d, b.descriptor? = some d →
    let r := (D.duplicate d e.before.world.driver).1
    e.Makes name (.duplicate d r) .duplicateDescriptor (r.map fun _ => d)
  nothing : b.handle.isNull = true → b.descriptor? = none →
    e.answer = .failed (.invalidArgument .noKernelHandle) ∧
      e.after.world = e.before.world ∧ e.after.descriptors = e.before.descriptors
  objects : ∀ t, e.after.object? t = e.before.object? t
  held : ∀ d, b.descriptor? = some d → d ∈ e.after.world.descriptors

/-- The descriptor that had the name is closed, and there is nothing else to it. -/
theorem keepDescriptor_supersedes (s : Session σ) (name : String) (d : Dmabuf) :
    let superseded := (s.descriptors.find? name).toList
    (s.keepDescriptor name d).world.events = s.world.events ++ superseded.map .close ∧
      (s.keepDescriptor name d).descriptors = s.descriptors.insert name d ∧
      (s.keepDescriptor name d).world.descriptors = s.world.descriptors.diff superseded := by
  rw [keepDescriptor]
  cases s.descriptors.find? name with
  | none => exact ⟨(List.append_nil _).symm, rfl, rfl⟩
  | some old =>
    refine ⟨rfl, rfl, ?_⟩
    rw [Option.toList_some, List.diff_cons, List.diff_nil]
    rfl

section
variable {s : Session σ} {t : Target} {b : BufferObject} {w : World σ} {name : String}

/-- The descriptor that was made is kept; if none was made nothing else happens. -/
theorem turn_share (hb : s.object? t = some b) {r : Except Error Dmabuf}
    (h : b.share D s.world = (r, w)) :
    let e := s.turn D (.share t name)
    let superseded := (s.descriptors.find? name).toList
    (∀ d, r = .ok d → e.answer = .dmabuf d ∧
      e.after.world.events = w.events ++ superseded.map .close ∧
      e.after.descriptors = s.descriptors.insert name d ∧
      e.after.world.descriptors = w.descriptors.diff superseded) ∧
    ∀ x, r = .error x →
      e.answer = .failed x ∧ e.after.world = w ∧ e.after.descriptors = s.descriptors := by
  intro e superseded
  obtain ⟨hanswer, hworld⟩ := onObject_of_some hb (sharing D)
  have hobject : (sharing D b s.world).2.1 = b := by
    rw [sharing]
    split <;> rfl
  have hdescriptors : (s.onObject t (sharing D)).2.descriptors = s.descriptors :=
    (alike_onObject hb hobject).descriptors
  have he : (e.answer, e.after) =
      ((s.shareObject D t name).1.answer, (s.shareObject D t name).2) := rfl
  rw [shareObject] at he
  generalize hout : s.onObject t _ = out at he
  have hout : s.onObject t (sharing D) = out := hout
  rw [hout] at hanswer hworld hdescriptors
  rw [sharing, h] at hanswer hworld
  constructor
  · rintro d rfl
    simp only [hanswer] at he
    obtain ⟨ha, hs⟩ := Prod.mk.inj he
    obtain ⟨hevents, hkept, hopen⟩ := out.2.keepDescriptor_supersedes name d
    rw [hs]
    rw [hworld, hdescriptors] at hevents hopen
    rw [hdescriptors] at hkept
    exact ⟨ha, hevents, hkept, hopen⟩
  · rintro x rfl
    simp only [hanswer] at he
    obtain ⟨ha, hs⟩ := Prod.mk.inj he
    rw [ha, hs]
    exact ⟨rfl, hworld, hdescriptors⟩

theorem makes_of_ok (hb : s.object? t = some b) {call : Event} {step : FailedStep} {d : Dmabuf}
    (driver : σ) (h : b.share D s.world = (.ok d, { s.world with
      driver, descriptors := d :: s.world.descriptors, events := s.world.events ++ [call] })) :
    (s.turn D (.share t name)).Makes name call step (.ok d) where
  made := by
    rintro d' ⟨⟩
    obtain ⟨hanswer, hevents, hkept, hopen⟩ := (turn_share hb h).1 d rfl
    refine ⟨hanswer, turn_events ?_, hkept, hopen⟩
    rw [← List.singleton_append, ← List.append_assoc]
    exact hevents
  failed := nofun

theorem makes_of_error (hb : s.object? t = some b) {call : Event} {step : FailedStep} {c : IoError}
    (driver : σ) (h : b.share D s.world = (.error (.allocation step c), { s.world with
      driver, events := s.world.events ++ [call] })) :
    (s.turn D (.share t name)).Makes name call step (.error c) where
  made := nofun
  failed := by
    rintro c' ⟨⟩
    obtain ⟨hanswer, hworld, hkept⟩ := (turn_share hb h).2 _ rfl
    refine ⟨hanswer, turn_events (congrArg World.events hworld), hkept, ?_⟩
    rw [hworld]
    rfl

theorem makes_of_handle (hb : s.object? t = some b) (hn : b.handle.isNull = false) :
    let r := (D.exportHandle b.handle .closeOnExec s.world.driver).1
    (s.turn D (.share t name)).Makes name (.exportHandle b.handle .closeOnExec r)
      .exportHandle r := by
  dsimp only
  rcases hq : D.exportHandle b.handle .closeOnExec s.world.driver with ⟨c | d, driver⟩
  · refine makes_of_error hb driver ?_
    simp only [BufferObject.share, hn, Bool.false_eq_true, if_false, World.exportHandle, hq,
      World.record]
  · refine makes_of_ok hb driver ?_
    simp only [BufferObject.share, hn, Bool.false_eq_true, if_false, World.exportHandle, hq,
      World.record]

theorem makes_of_descriptor (hb : s.object? t = some b) (hn : b.handle.isNull = true) {d : Dmabuf}
    (hd : b.descriptor? = some d) :
    let r := (D.duplicate d s.world.driver).1
    (s.turn D (.share t name)).Makes name (.duplicate d r) .duplicateDescriptor
      (r.map fun _ => d) := by
  dsimp only
  rcases hq : D.duplicate d s.world.driver with ⟨c | x, driver⟩
  · refine makes_of_error hb driver ?_
    simp only [BufferObject.share, hn, hd, if_true, World.duplicate, hq, World.record]
  · refine makes_of_ok hb driver ?_
    simp only [BufferObject.share, hn, hd, if_true, World.duplicate, hq, World.record]

end

theorem on_demand (D : Driver σ ι) (d : σ) (ops : List (Op ι)) {t : Target} {b : BufferObject}
    (hb : ((start d).run D ops).2.object? t = some b) (name : String) :
    OnDemand D name b (((start d).run D ops).2.turn D (.share t name)) := by
  generalize hs : ((start d).run D ops).2 = s at hb ⊢
  have hobjects (u : Target) : (s.turn D (.share t name)).after.object? u = s.object? u := by
    exact object?_shareObject s t u name
  exact {
    exported := makes_of_handle hb
    duplicated := fun hn _ hx => makes_of_descriptor hb hn hx
    nothing := fun hn hd => by
      have hshare : b.share D s.world = (.error (.invalidArgument .noKernelHandle), s.world) := by
        simp only [BufferObject.share, hn, hd, if_true]
      exact (turn_share hb hshare).2 _ rfl
    objects := hobjects
    held := fun x hx => by
      have hrun : (s.turn D (.share t name)).after =
          ((start d).run D (ops ++ [.share t name])).2 := by
        rw [run_concat, hs]
        rfl
      have hafter : (s.turn D (.share t name)).after.object? t = some b := (hobjects t).trans hb
      rw [hrun] at hafter ⊢
      exact descriptor_open D d _ hafter hx }

end Session

/-- A handle of a buffer is exported, and no other process inherits the descriptor. Other events are
of no account. -/
def Event.NamesBuffer : Event → Prop
  | .exportHandle handle flags _ => handle.isNull = false ∧ flags = .closeOnExec
  | _ => True

theorem World.Departs.names {w w' : World σ} {gone : List (Option Nat × BufferObject)}
    (h : w.Departs D w' gone) : w.Gains Event.NamesBuffer w' := by
  refine h.gains (fun e he => ?_) fun d => trivial
  cases e <;> trivial

/-- The storage that was just allocated is exported. -/
theorem BufferObject.create_names (hD : D.NamesBuffers) {width height : UInt32} {code : FormatCode}
    {usage : Usage} {w w' : World σ} {r : Except Error BufferObject}
    (h : create D width height code usage w = (r, w')) : w.Gains Event.NamesBuffer w' := by
  have hallocate {kind format st w₁} (ha : w.allocate D kind width height format = (.ok st, w₁)) :
      w.Gains Event.NamesBuffer w₁ ∧ st.handle.isNull = false := by
    obtain ⟨-, hst, rfl⟩ := World.allocate_ok ha
    exact ⟨.one rfl trivial, hD _ _ _ _ _ _ _ hst⟩
  have hrelease (st : Storage) (w : World σ) : w.Gains Event.NamesBuffer (w.release D st) :=
    .logged (congrArg World.events (w.release_logged D st)) trivial fun _ => trivial
  cases created h with
  | unsupported hf => exact .of_same rfl
  | notAllocated hf ha => exact .one (congrArg World.events (World.allocate_error ha)) trivial
  | notExported hf ha he =>
    obtain ⟨hw, hn⟩ := hallocate ha
    exact (hw.trans (.one (congrArg World.events (World.exportHandle_error he)) ⟨hn, rfl⟩)).trans
      (hrelease _ _)
  | unmapped hf ha he hu =>
    obtain ⟨hw, hn⟩ := hallocate ha
    exact hw.trans (.one (congrArg World.events (World.exportHandle_ok he)) ⟨hn, rfl⟩)
  | mapped hf ha he hu hm =>
    obtain ⟨hw, hn⟩ := hallocate ha
    exact (hw.trans (.one (congrArg World.events (World.exportHandle_ok he)) ⟨hn, rfl⟩)).trans
      (.one (congrArg World.events (World.map_eq hm)) trivial)
  | notMapped hf ha he hu hm =>
    obtain ⟨hw, hn⟩ := hallocate ha
    exact (((hw.trans (.one (congrArg World.events (World.exportHandle_ok he)) ⟨hn, rfl⟩)).trans
      (.one (congrArg World.events (World.map_eq hm)) trivial)).trans
      (.one (e := .close _) rfl trivial)).trans (hrelease _ _)

namespace Session
variable {s : Session σ} {op : Op ι}

theorem names_addObject {name : String} {made : Except Error BufferObject × World σ}
    (h : s.world.Gains Event.NamesBuffer made.2) :
    s.world.Gains Event.NamesBuffer (s.addObject D name made).2.world := by
  obtain ⟨x | b, w⟩ := made
  · exact h
  · refine World.Gains.trans h ?_
    simp only [addObject, keepObject, withWorld]
    split
    · next old _ => exact (old.destroy_departs D w).names
    · exact .of_same rfl

theorem names_onDevice {f : Session σ → Outcome × Session σ}
    (h : s.world.Gains Event.NamesBuffer (f s).2.world) :
    s.world.Gains Event.NamesBuffer (s.onDevice f).2.world := by
  rw [onDevice]
  split
  · exact h
  · exact .of_same rfl

theorem step_names (hD : D.NamesBuffers) (hop : op.Creates) :
    s.world.Gains Event.NamesBuffer (s.step D op).2.world := by
  cases op with
  | create name width height format usage =>
    exact names_onDevice (names_addObject (BufferObject.create_names hD rfl))
  | createBuffer name width height fourcc modifiers =>
    refine names_onDevice (names_addObject ?_)
    unfold Device.createBuffer
    split
    · exact BufferObject.create_names hD rfl
    · split
      · exact BufferObject.create_names hD rfl
      · exact .of_same rfl
  | allocate surface i =>
    simp only [step, onSurface]
    split
    · exact .of_same rfl
    · next x hx =>
      by_cases hi : i < slotCount
      · have hclear := (x.clear_departs D i s.world).names
        rw [x.allocate_of_lt D hi]
        rcases hq : BufferObject.create D x.width x.height x.format.code (x.usage.union .write)
          (x.clear D i s.world).2 with ⟨e | b, w⟩
        all_goals exact hclear.trans (BufferObject.create_names hD hq)
      · rw [Surface.allocate, if_neg hi]
        exact .of_same rfl
  | _ => cases hop

/-- An operation exports handles of buffers only, unless it is the client's own request. -/
theorem turn_names (hD : D.NamesBuffers) (s : Session σ) (op : Op ι) {e : Event}
    (he : e ∈ (s.turn D op).events) :
    e.NamesBuffer ∨ ∃ handle flags name r, op = .exportHandle handle flags name ∧
      e = .exportHandle handle flags r := by
  by_cases hop : op.Creates
  · obtain ⟨l, hl, hP⟩ := step_names (s := s) hD hop
    rw [turn_events hl] at he
    exact .inl (hP e he)
  · cases hc : e.isDriverCall with
    | false => cases e <;> first | exact .inl trivial | cases hc
    | true =>
      obtain ⟨o, h⟩ := (s.turn_accounts (D := D) op).1 e he hc
      cases h with
      | shared hb hn _ => exact .inl ⟨hn, rfl⟩
      | created h _ => exact absurd h hop
      | exported h => exact .inr ⟨_, _, _, _, h, rfl⟩
      | _ => exact .inl trivial

end Session

namespace Dumb
variable {κ : Type} {K : Kernel κ ι}

/-- Each request for a descriptor of an object is one export of its handle, if it has one, or one
duplicate of the descriptor that it was given, if it was given one; and it changes nothing about any
object. On a kernel that gives every dumb buffer a handle, all that a session exports of its buffers
is not the null handle and reaches the kernel, whatever it answers. -/
theorem export_on_demand (D : Driver σ ι) (d : σ) (K : Kernel κ ι) (k : κ) (calls : List Call)
    (ops : List (Session.Op ι)) :
    (∀ t name b, ((Session.start d).run D ops).2.object? t = some b →
      Session.OnDemand D name b (((Session.start d).run D ops).2.turn D (.share t name))) ∧
    (K.NamesBuffers → ∀ op,
      let s := ((Session.start ⟨k, true, calls⟩).run (driver K) ops).2
      let e := s.turn (driver K) op
      ∃ before new, Transcript calls s.world before ∧
        Transcript calls e.after.world (before ++ new) ∧ e.events = new.map (·.1) ∧
        ∀ handle flags r l, (.exportHandle handle flags r, l) ∈ new →
          (∃ name, op = .exportHandle handle flags name) ∨
            (handle.isNull = false ∧ flags = .closeOnExec ∧
              ∃ r', r = r'.mapError .os ∧ l = [.primeFromHandle handle flags r'])) := by
  refine ⟨fun t name b hb => Session.on_demand D d ops hb name, fun hK op => ?_⟩
  intro s e
  obtain ⟨t, t', ht, ht', hevents⟩ := step_transcript K (c := ⟨k, true, calls⟩) rfl ops op
  have hevents : e.events = t'.map (·.1) := hevents
  refine ⟨t, t', ht, ht', hevents, fun handle flags r l hl => ?_⟩
  have he : .exportHandle handle flags r ∈ e.events := by
    rw [hevents]
    exact List.mem_map.mpr ⟨_, hl, rfl⟩
  rcases Session.turn_names (driver_namesBuffers hK) s op he with ⟨hn, hflags⟩ | h
  · refine .inr ⟨hn, hflags, ?_⟩
    have hserves := ht'.serves _ (List.mem_append_right _ hl)
    cases hserves with
    | exported _ hr => exact ⟨_, hr, rfl⟩
    | refused hnull => cases hn.symm.trans hnull
  · obtain ⟨handle', flags', name, r', rfl, heq⟩ := h
    cases heq
    exact .inl ⟨name, rfl⟩

/-- A buffer that was created on it is exported by one call to the kernel. -/
theorem export_on_steady_kernel :
    let s := ((Session.start ⟨(), true, []⟩).run (driver .steady)
      [.create "a" 64 64 PixelFormat.xrgb8888.code .scanout]).2
    ∃ b before new, s.object? (.object "a") = some b ∧ b.handle = ⟨1⟩ ∧
      Session.OnDemand (driver .steady) "d" b (s.turn (driver .steady) (.share (.object "a") "d")) ∧
      Transcript [] (s.turn (driver .steady) (.share (.object "a") "d")).after.world
        (before ++ new) ∧
      new.map (·.1) = [.exportHandle ⟨1⟩ .closeOnExec (.ok ⟨0⟩)] := by
  intro s
  obtain ⟨hdemand, hnames⟩ := export_on_demand (driver .steady) ⟨(), true, []⟩ .steady () []
    [.create "a" 64 64 PixelFormat.xrgb8888.code .scanout]
  obtain ⟨before, new, -, hafter, hevents, -⟩ :=
    hnames steady_namesBuffers (.share (.object "a") "d")
  exact ⟨_, before, new, rfl, rfl, hdemand _ "d" _ rfl, hafter, hevents.symm⟩

end Dumb
end DisplayBuffers
