import DisplayBuffers.Proofs.Reporting
import DisplayBuffers.Proofs.Whereabouts

/-! Why an operation calls the driver. Each call is made for an object that is there, for one that
is about to be made, or because the client asks for it; and what the operation answers tells of the
calls that were refused. -/
namespace DisplayBuffers.Session
variable {σ ι : Type} {D : Driver σ ι}

/-- What the log gains in an operation. -/
def Turn.events (e : Turn σ ι) : List Event :=
  e.after.world.events.drop e.before.world.events.length

/-- Whether an operation allocates storage for an object that it makes. -/
def Op.Creates : Op ι → Prop
  | .create _ _ _ _ _ | .createBuffer _ _ _ _ _ | .allocate _ _ => True
  | _ => False

/-- The target of the object that an operation makes a call for, if there is one yet. -/
inductive MadeFor (s : Session σ) (op : Op ι) : Option Target → Event → Prop
  | mapped {t b st d r} (hb : s.object? t = some b) (ho : b.backing = .owned st d)
      (hop : op.Refers t) : MadeFor s op (some t) (.map st r)
  | unmapped {t b st d a r} (hb : s.object? t = some b) (ho : b.backing = .owned st d)
      (hop : op.Refers t ∨ op.Renews t) : MadeFor s op (some t) (.unmap st a r)
  | released {t b st d r} (hb : s.object? t = some b) (ho : b.backing = .owned st d)
      (hop : op.Renews t) : MadeFor s op (some t) (.release st r)
  | shared {t b name r} (hb : s.object? t = some b) (hn : b.handle.isNull = false)
      (hop : op = .share t name) : MadeFor s op (some t) (.exportHandle b.handle .closeOnExec r)
  | created {e} (hop : op.Creates) (he : e.OfCreation s.world.allocations) : MadeFor s op none e
  | imported {name source d r} (hop : op = .importFrom name source) :
      MadeFor s op none (.importDescriptor d r)
  | exported {handle flags name r} (hop : op = .exportHandle handle flags name) :
      MadeFor s op none (.exportHandle handle flags r)
  | converted {name d r} (hop : op = .importDescriptor name) :
      MadeFor s op none (.importDescriptor d r)

/-- A call that an operation has a reason for. -/
def Warrants (s : Session σ) (op : Op ι) (e : Event) : Prop := ∃ o, MadeFor s op o e

namespace Answer

/-- The errors that an answer reports for the operation as a whole. -/
def errors : Answer → List Error
  | .failed x => [x]
  | .plane a b c => errorsOf a ++ errorsOf b ++ errorsOf c
  | _ => []

/-- The refused calls that an answer tells of. -/
def TellsOf (a : Answer) (refused : List Event) : Prop :=
  match a with
  | .failed x => x.TellsOf refused
  | .driverFailed c => ∃ e step, refused = [e] ∧ .allocation step c ∈ e.reports
  | .plane a b c =>
    refused = [] ∧ ∀ x ∈ (Answer.plane a b c).errors, x.isInvalidInput = true
  | _ => refused = []

/-- Nothing went wrong. -/
def Succeeds (a : Answer) : Prop := a.errors = [] ∧ ∀ c, a ≠ .driverFailed c

/-- A refused call is passed on as the driver's error. -/
def Reports (a : Answer) (e : Event) : Prop :=
  ∃ step c, .allocation step c ∈ e.reports ∧
    (a = .failed (.allocation step c) ∨ a = .driverFailed c)

theorem TellsOf.cases {a : Answer} {refused : List Event} (h : a.TellsOf refused) :
    ((∃ x ∈ a.errors, x.isInvalidInput = true) ∧ refused = []) ∨
      (refused = [] ∧ a.Succeeds) ∨ ∃ e, refused = [e] ∧ a.Reports e := by
  cases a with
  | failed x =>
    rcases h with ⟨hx, hr⟩ | ⟨e, hr, hx⟩
    · exact .inl ⟨⟨x, List.mem_singleton_self x, hx⟩, hr⟩
    · obtain ⟨step, c, rfl⟩ := Event.allocation_of_reports hx
      exact .inr (.inr ⟨e, hr, step, c, hx, .inl rfl⟩)
  | driverFailed c =>
    obtain ⟨e, step, hr, hx⟩ := h
    exact .inr (.inr ⟨e, hr, step, c, hx, .inr rfl⟩)
  | plane a b c =>
    obtain ⟨hr, hx⟩ := h
    cases he : (Answer.plane a b c).errors with
    | nil => exact .inr (.inl ⟨hr, he, nofun⟩)
    | cons x l =>
      rw [he] at hx
      exact .inl ⟨⟨x, List.mem_cons_self, hx x List.mem_cons_self⟩, hr⟩
  | _ => exact .inr (.inl ⟨h, rfl, nofun⟩)

end Answer

theorem errors_plane (b : BufferObject) (index : Nat) :
    let errors :=
      (Answer.plane (b.planeStride index) (b.planeHandle index) (b.planeOffset index)).errors
    (b.planes.length ≤ index ∧
        errors = List.replicate 3 (.invalidArgument .planeIndexOutOfRange)) ∨
      (index < b.planes.length ∧ errors = []) := by
  cases hp : b.planes[index]? with
  | none =>
    have hplane : b.plane index = .error (.invalidArgument .planeIndexOutOfRange) := by
      rw [BufferObject.plane, hp]
    refine .inl ⟨List.getElem?_eq_none_iff.mp hp, ?_⟩
    rw [BufferObject.planeStride, BufferObject.planeHandle, BufferObject.planeOffset, hplane]
    rfl
  | some p =>
    have hplane : b.plane index = .ok p := by rw [BufferObject.plane, hp]
    refine .inr ⟨(List.getElem?_eq_some_iff.mp hp).1, ?_⟩
    rw [BufferObject.planeStride, BufferObject.planeHandle, BufferObject.planeOffset, hplane]
    rfl

/-- Calls with a property are made, and the answer tells of those that were refused. -/
def Accounts (P : Event → Prop) (w : World σ) (answer : Answer) (w' : World σ) : Prop :=
  ∃ refused, w.Logs P refused w' ∧ answer.TellsOf refused

section
variable {P : Event → Prop} {w w' : World σ} {α : Type}

theorem Accounts.quiet {a : Answer} (h : w.Logs P [] w') (ha : a.TellsOf []) :
    Accounts P w a w' := ⟨[], h, ha⟩

theorem Accounts.before {a : Answer} {w'' : World σ} (h : Accounts P w a w')
    (k : w'.Logs P [] w'') : Accounts P w a w'' := by
  obtain ⟨refused, hl, ha⟩ := h
  exact ⟨refused, hl.before k, ha⟩

/-- An answer that passes an error on. -/
theorem Accounts.of_error {e : Error} (h : Reported P w (.error e : Except Error α) w') :
    Accounts P w (.failed e) w' := by
  obtain ⟨refused, hl, ht⟩ := h
  exact ⟨refused, hl, ht⟩

/-- An answer to what went well. -/
theorem Accounts.of_ok {x : α} {a : Answer} (h : Reported P w (.ok x) w') (ha : a.TellsOf []) :
    Accounts P w a w' := by
  obtain ⟨refused, hl, ht⟩ := h
  obtain rfl : refused = [] := ht
  exact .quiet hl ha

theorem Accounts.ofUnit {r : Except Error α} (h : Reported P w r w') :
    Accounts P w (.ofUnit r) w' := by
  cases r with
  | ok x => exact .of_ok h rfl
  | error e => exact .of_error h

variable {s : Session σ}

theorem accounts_onObject {t : Target}
    {f : BufferObject → World σ → Answer × BufferObject × World σ}
    (hf : ∀ b, s.object? t = some b → Accounts P s.world (f b s.world).1 (f b s.world).2.2) :
    Accounts P s.world (s.onObject t f).1.answer (s.onObject t f).2.world := by
  cases hb : s.object? t with
  | none => rcases onObject_of_none hb f with h | h <;> rw [h] <;> exact .quiet (.refl _) rfl
  | some b =>
    obtain ⟨hanswer, hworld⟩ := onObject_of_some hb f
    rw [hanswer, hworld]
    exact hf b hb

theorem accounts_onSurface {surface : String}
    {f : Surface → World σ → Answer × Surface × World σ}
    (hf : ∀ x, s.surfaces.find? surface = some x →
      Accounts P s.world (f x s.world).1 (f x s.world).2.2) :
    Accounts P s.world (s.onSurface surface f).1.answer (s.onSurface surface f).2.world := by
  rw [onSurface]
  split
  · exact .quiet (.refl _) rfl
  · next x hx => exact hf x hx

theorem accounts_onDevice {f : Session σ → Outcome × Session σ}
    (hf : Accounts P s.world (f s).1.answer (f s).2.world) :
    Accounts P s.world (s.onDevice f).1.answer (s.onDevice f).2.world := by
  rw [onDevice]
  split
  · exact hf
  · exact .quiet (.refl _) rfl

theorem logs_keepDescriptor (s : Session σ) (name : String) (d : Dmabuf) :
    s.world.Logs P [] (s.keepDescriptor name d).world := by
  rw [keepDescriptor]
  dsimp only
  split
  · exact .close _ _
  · exact .refl _

/-- The calls that end the object at a target are made for it. -/
def Ends (P : Event → Prop) (s : Session σ) (t : Target) : Prop :=
  ∀ b st d, s.object? t = some b → b.backing = .owned st d →
    (∀ a r, P (.unmap st a r)) ∧ ∀ r, P (.release st r)

theorem Ends.logs_destroy {t : Target} {b : BufferObject} (h : Ends P s t)
    (hb : s.object? t = some b) (w : World σ) : w.Logs P [] (b.destroy D w) :=
  BufferObject.destroy_logs (fun st d a r ho _ => (h b st d hb ho).1 a r)
    (fun st d r ho => (h b st d hb ho).2 r) w

theorem accounts_addObject {name : String} {made : Except Error BufferObject × World σ}
    (hm : Reported P s.world made.1 made.2) (he : Ends P s (.object name)) :
    Accounts P s.world (s.addObject D name made).1.answer (s.addObject D name made).2.world := by
  obtain ⟨e | b, w⟩ := made
  · exact .of_error hm
  · have hdone : Accounts P s.world .done w := .of_ok hm rfl
    refine hdone.before ?_
    simp only [addObject, keepObject]
    split
    · next old ho => exact he.logs_destroy ho w
    · exact .refl w

end

section
variable {s : Session σ} {op : Op ι}

theorem ends_of_renews (op : Op ι) {t : Target} (h : op.Renews t) : Ends (s.Warrants op) s t :=
  fun _ _ _ hb ho => ⟨fun _ _ => ⟨_, .unmapped hb ho (.inr h)⟩, fun _ => ⟨_, .released hb ho h⟩⟩

theorem work_accounts {t : Target} {b : BufferObject} (ht : op.target? = some t)
    (hb : s.object? t = some b) :
    Accounts (s.Warrants op) s.world (op.work D b s.world).1 (op.work D b s.world).2.2 := by
  have hmap (hop : op.Refers t) (st : Storage) (d : Dmabuf) (r : Except IoError Address)
      (ho : b.backing = .owned st d) : s.Warrants op (.map st r) := ⟨_, .mapped hb ho hop⟩
  have hunmap (hop : op.Refers t) (st : Storage) (d : Dmabuf) (a : Address)
      (r : Except IoError Unit) (ho : b.backing = .owned st d) :
      s.Warrants op (.unmap st a r) := ⟨_, .unmapped hb ho (.inl hop)⟩
  cases op with
  | acquire u =>
    obtain rfl : u = t := Option.some.inj ht
    simp only [Op.work]
    rcases hq : b.acquire D s.world with ⟨e | a, b', w'⟩ <;>
      have h := BufferObject.acquire_reported (hmap rfl) hq
    · exact .of_error h
    · exact .of_ok h rfl
  | acquireRegion u x y width height =>
    obtain rfl : u = t := Option.some.inj ht
    simp only [Op.work]
    rcases hq : b.acquireRegion D x y width height s.world with ⟨e | a, b', w'⟩ <;>
      have h := BufferObject.acquireRegion_reported (hmap rfl) hq
    · exact .of_error h
    · exact .of_ok h rfl
  | withMapping u accesses =>
    obtain rfl : u = t := Option.some.inj ht
    simp only [Op.work]
    rcases hq : b.withMapping D accesses s.world with ⟨e | a, b', w'⟩ <;>
      have h := BufferObject.withMapping_reported (hmap rfl) (hunmap rfl) hq
    · exact .of_error h
    · exact .of_ok h rfl
  | release u =>
    obtain rfl : u = t := Option.some.inj ht
    exact .quiet (BufferObject.release_logs (hunmap rfl) _) rfl
  | write u data =>
    simp only [Op.work, BufferObject.write]
    split
    · exact .quiet (.refl _) (.inl ⟨rfl, rfl⟩)
    · split
      · exact .quiet (.refl _) (.inl ⟨rfl, rfl⟩)
      · exact .quiet (.of_same rfl) rfl
  | inspect u => exact .quiet (.refl _) rfl
  | plane u index =>
    refine .quiet (.refl _) ⟨rfl, ?_⟩
    rcases errors_plane b index with ⟨_, h⟩ | ⟨_, h⟩ <;> rw [h] <;>
      simp [List.replicate, Error.isInvalidInput]
  | _ => cases ht

private theorem made_accounts {name : String} (hop : op.Creates)
    (hr : op.Renews (.object name)) {made : Except Error BufferObject × World σ}
    (h : Reported (Event.OfCreation s.world.allocations) s.world made.1 made.2) :
    Accounts (s.Warrants op) s.world (s.addObject D name made).1.answer
      (s.addObject D name made).2.world := by
  obtain ⟨refused, hl, ht⟩ := h
  exact accounts_addObject ⟨refused, hl.mono fun e he => ⟨_, .created hop he⟩, ht⟩
    (ends_of_renews op hr)

theorem surface_ends {surface : String} {x : Surface} (hx : s.surfaces.find? surface = some x)
    {i : Nat} {P : Event → Prop} (h : Ends P s (.slot surface i)) :
    (∀ b st d a r, x.slot? i = some b → b.backing = .owned st d → b.mapping = some a →
        P (.unmap st a r)) ∧
      ∀ b st d r, x.slot? i = some b → b.backing = .owned st d → P (.release st r) := by
  have hat {b : BufferObject} (hb : x.slot? i = some b) : s.object? (.slot surface i) = some b := by
    simp [object?, hx, hb]
  exact ⟨fun b st d a r hb ho _ => (h b st d (hat hb) ho).1 a r,
    fun b st d r hb ho => (h b st d (hat hb) ho).2 r⟩

theorem surface_logs_destroy {surface : String} {x : Surface} {P : Event → Prop}
    (hx : s.surfaces.find? surface = some x) (h : ∀ i, Ends P s (.slot surface i)) (w : World σ) :
    w.Logs P [] (x.destroy D w) :=
  x.destroy_logs (fun i => (surface_ends hx (h i)).1) (fun i => (surface_ends hx (h i)).2) w

private theorem share_accounts (s : Session σ) (t : Target) (name : String) :
    Accounts (s.Warrants (.share t name : Op ι)) s.world (s.shareObject D t name).1.answer
      (s.shareObject D t name).2.world := by
  have h : Accounts (s.Warrants (.share t name : Op ι)) s.world
      (s.onObject t (sharing D)).1.answer (s.onObject t (sharing D)).2.world := by
    refine accounts_onObject fun b hb => ?_
    have hw (r : Except IoError Dmabuf) (hn : b.handle.isNull = false) :
        s.Warrants (.share t name : Op ι) (.exportHandle b.handle .closeOnExec r) :=
      ⟨_, .shared hb hn rfl⟩
    rw [sharing]
    rcases hq : b.share D s.world with ⟨e | d, w⟩ <;>
      have hr := BufferObject.share_reported hw hq
    · exact .of_error hr
    · exact .of_ok hr rfl
  rw [shareObject]
  generalize hout : s.onObject t _ = out
  have hout : s.onObject t (sharing D) = out := hout
  rw [hout] at h
  obtain ⟨outcome, s'⟩ := out
  dsimp only at h ⊢
  split
  · next d _ => exact h.before (logs_keepDescriptor s' name d)
  · exact h

/-- What an operation does with the driver is warranted, and what it answers tells of the calls that
were refused. -/
theorem step_accounts (s : Session σ) (op : Op ι) :
    Accounts (s.Warrants op) s.world (s.step D op).1.answer (s.step D op).2.world := by
  cases ho : op.target? with
  | some t =>
    rw [s.step_of_target? ho]
    exact accounts_onObject fun b hb => work_accounts ho hb
  | none =>
    cases op with
    | acquire t | acquireRegion t x y width height | release t | write t data
    | withMapping t accesses | inspect t | plane t index => cases ho
    | outside i => exact .quiet (.of_same rfl) rfl
    | receive name =>
      have hw : s.world.Logs (s.Warrants (.receive name : Op ι)) [] (s.world.receive D).2 :=
        .of_same rfl
      exact .quiet (hw.after (logs_keepDescriptor (s.withWorld (s.world.receive D).2) name _)) rfl
    | close name =>
      simp only [step]
      split
      · exact .quiet (.refl _) rfl
      · exact .quiet (.close _ _) rfl
    | newMemory name length => exact .quiet (.refl _) rfl
    | readMemory name offset count =>
      simp only [step]
      split <;> exact .quiet (.refl _) rfl
    | deviceName => exact accounts_onDevice (.quiet (.refl _) rfl)
    | supportsFormat format usage => exact accounts_onDevice (.quiet (.refl _) rfl)
    | layoutPlanes format modifier =>
      exact accounts_onDevice (.quiet (.refl _) (.inl ⟨rfl, rfl⟩))
    | create name width height format usage =>
      exact accounts_onDevice
        (made_accounts (by trivial) (by exact rfl) (BufferObject.create_reported rfl))
    | createBuffer name width height fourcc modifiers =>
      exact accounts_onDevice
        (made_accounts (by trivial) (by exact rfl) (BufferObject.createBuffer_reported rfl))
    | importFrom name source =>
      refine accounts_onDevice ?_
      split
      · exact .quiet (.refl _) rfl
      · exact accounts_addObject
          (BufferObject.importFrom_reported (fun d r => ⟨_, .imported rfl⟩) rfl)
          (ends_of_renews (.importFrom name source) rfl)
    | createSurface name width height format usage =>
      refine accounts_onDevice ?_
      split
      · next e he => exact .quiet (.refl _) (.inl ⟨Surface.create_error he ▸ rfl, rfl⟩)
      · refine .quiet ((World.Logs.hold s.world).after ?_) rfl
        simp only [keepSurface, withWorld]
        split
        · next old hx => exact surface_logs_destroy hx (fun i =>
            ends_of_renews (.createSurface name width height format usage) rfl) _
        · exact .refl _
    | exportHandle handle flags name =>
      refine accounts_onDevice ?_
      split
      · next d w hq =>
        have hw : s.world.Logs (s.Warrants (.exportHandle handle flags name : Op ι)) [] w :=
          .one (congrArg World.events (World.exportHandle_ok hq)) ⟨_, .exported rfl⟩
        exact .quiet (hw.after (logs_keepDescriptor (s.withWorld w) name d)) rfl
      · next c w hq =>
        exact ⟨_, .one (congrArg World.events (World.exportHandle_error hq)) ⟨_, .exported rfl⟩,
          _, _, rfl, List.mem_cons_self⟩
    | importDescriptor name =>
      refine accounts_onDevice ?_
      split
      · exact .quiet (.refl _) rfl
      · split
        · next hq =>
          exact .quiet (.one (congrArg World.events (World.importDescriptor_eq hq))
            ⟨_, .converted rfl⟩) rfl
        · next hq =>
          exact ⟨_, .one (congrArg World.events (World.importDescriptor_eq hq))
            ⟨_, .converted rfl⟩, _, _, rfl, List.mem_cons_self⟩
    | destroyDevice => exact accounts_onDevice (.quiet (.of_same rfl) rfl)
    | saveId t name =>
      have h := accounts_onObject (P := s.Warrants (.saveId t name : Op ι)) (s := s) (t := t)
        (f := fun b w => (.done, b, w)) fun b _ => .quiet (.refl _) rfl
      simp only [step, saveId]
      split <;> exact h
    | share t name => exact share_accounts s t name
    | destroy name =>
      simp only [step]
      split
      · exact .quiet (.refl _) rfl
      · next b hb =>
        exact .quiet ((ends_of_renews (.destroy name) rfl).logs_destroy hb _) rfl
    | inspectSurface surface => exact accounts_onSurface fun x _ => .quiet (.refl _) rfl
    | replace surface index buffer =>
      rw [step]
      rcases s.replace_cases D surface index buffer with h | ⟨y, descriptors, h⟩
      · rw [h]
        exact .quiet (.refl _) rfl
      · rw [h]
        refine accounts_onSurface (s := { s with descriptors }) fun x hx => ?_
        obtain ⟨hunmap, hrelease⟩ := surface_ends (s := s) hx
          (ends_of_renews (.replace surface index buffer) rfl)
        exact .ofUnit (x.replace_reported hunmap hrelease y s.world)
    | allocate surface index =>
      refine accounts_onSurface fun x hx => ?_
      obtain ⟨hunmap, hrelease⟩ :=
        surface_ends hx (ends_of_renews (.allocate surface index : Op ι) rfl)
      have h := x.allocate_reported (D := D) hunmap hrelease fun n e hn he =>
        ⟨_, .created trivial (he.mono hn)⟩
      rcases hq : x.allocate D index s.world with ⟨e | id, x', w'⟩ <;> rw [hq] at h
      · exact .of_error h
      · exact .of_ok h rfl
    | setFront surface front =>
      refine accounts_onSurface fun x _ => .ofUnit ?_
      rw [Surface.setFront]
      split
      · exact .ok (.refl _)
      · exact .faulty rfl _
    | lockFront surface name =>
      have h := accounts_onSurface (P := s.Warrants (.lockFront surface name : Op ι)) (s := s)
        (f := fun x w => (.identity x.lockFront.1, x.lockFront.2, w)) (fun x _ =>
          .quiet (.refl _) rfl : ∀ x, s.surfaces.find? surface = some x → _)
      simp only [step, lockFront]
      split <;> exact h
    | unlock surface name =>
      simp only [step]
      split
      · exact .quiet (.refl _) rfl
      · exact accounts_onSurface fun x _ => .quiet (.refl _) rfl
    | destroySurface surface =>
      simp only [step]
      split
      · exact .quiet (.refl _) rfl
      · next x hx =>
        exact .quiet (surface_logs_destroy hx
          (fun i => ends_of_renews (.destroySurface surface) rfl) _) rfl

theorem turn_events {s : Session σ} {op : Op ι} {l : List Event}
    (h : (s.step D op).2.world.events = s.world.events ++ l) : (s.turn D op).events = l := by
  rw [Turn.events, turn, h, List.drop_left]

theorem turn_accounts (s : Session σ) (op : Op ι) :
    (∀ e ∈ (s.turn D op).events, e.isDriverCall = true → s.Warrants op e) ∧
      (s.turn D op).answer.TellsOf ((s.turn D op).events.filter Event.isRefused) := by
  obtain ⟨refused, ⟨l, hl, hP, rfl⟩, ht⟩ := s.step_accounts (D := D) op
  rw [turn_events hl]
  exact ⟨hP, ht⟩

end

end DisplayBuffers.Session
