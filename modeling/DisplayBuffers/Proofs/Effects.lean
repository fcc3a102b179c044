import DisplayBuffers.Proofs.Whereabouts

/-! What operations do to the world. Each does a few things one after the other, and the objects
that it uses or stores through are among those that it is about. -/
namespace DisplayBuffers
variable {σ ι : Type}

/-- One thing that an operation does to the world. Objects are used when they are mapped, unmapped
or destroyed, and stored through when their bytes change. -/
inductive Effect (D : Driver σ ι) (Used Stored : BufferObject → Prop) : World σ → World σ → Prop
  | outside {w} (i : ι) : Effect D Used Stored w (w.outside D i)
  | received {w} : Effect D Used Stored w (w.receive D).2
  | closed {w} (d : Dmabuf) : Effect D Used Stored w (w.close d)
  | warned {w} (x : Warning) : Effect D Used Stored w (w.warn x)
  | named {w} : Effect D Used Stored w w.freshId.2
  | exported {w} (handle : Handle) (flags : ExportFlags) :
      Effect D Used Stored w (w.exportHandle D handle flags).2
  | converted {w} (d : Dmabuf) : Effect D Used Stored w (w.importDescriptor D d).2
  | created {w} (width height : UInt32) (code : FormatCode) (usage : Usage) :
      Effect D Used Stored w (BufferObject.create D width height code usage w).2
  | shared {w} (b : BufferObject) : Effect D Used Stored w (b.share D w).2
  | acquired {w b} (hb : Used b) : Effect D Used Stored w (b.acquire D w).2.2
  | released {w b} (hb : Used b) : Effect D Used Stored w (b.release D w).2
  | destroyed {w b} (hb : Used b) : Effect D Used Stored w (b.destroy D w)
  | written {w b} (data : List UInt8) (hb : Stored b) : Effect D Used Stored w (b.write D data w).2
  | accessed {w b} (accesses : List BufferObject.Access) (hu : Used b) (hs : Stored b) :
      Effect D Used Stored w (b.withMapping D accesses w).2.2
  | joined {w} : Effect D Used Stored w w.hold
  | left {w} : Effect D Used Stored w (w.letGo D)

theorem Effect.advances {D : Driver σ ι} {Used Stored : BufferObject → Prop} {w w' : World σ}
    (h : Effect D Used Stored w w') : w.Advances w' := by
  cases h with
  | outside i => exact ⟨List.prefix_rfl, le_rfl, le_rfl⟩
  | received => exact ⟨List.prefix_rfl, le_rfl, le_rfl⟩
  | closed d => exact ⟨List.prefix_append _ _, le_rfl, le_rfl⟩
  | warned x => exact ⟨List.prefix_append _ _, le_rfl, le_rfl⟩
  | named => exact ⟨List.prefix_rfl, le_rfl, Nat.le_succ _⟩
  | exported handle flags =>
    rcases h : w.exportHandle D handle flags with ⟨e | d, w'⟩
    · exact (Move.notExported (Multiset.mem_singleton_self _) h).advances
    · exact (Move.exported (Multiset.mem_singleton_self _) h).advances
  | converted d => exact ⟨List.prefix_append _ _, le_rfl, le_rfl⟩
  | created width height code usage =>
    rcases h : BufferObject.create D width height code usage w with ⟨e | b, w'⟩
    · exact (BufferObject.create_error_moves (Multiset.mem_singleton_self _) h).advances
    · exact (BufferObject.create_ok_moves (Multiset.mem_singleton_self _) h).advances
  | shared b =>
    rcases h : b.share D w with ⟨e | d, w'⟩
    · exact (BufferObject.share_error_moves 0 h).advances
    · exact (BufferObject.share_ok_moves 0 h).advances
  | @acquired b hb => exact (BufferObject.acquire_moves (b := b) 0 rfl).advances
  | @released b hb => exact (b.release_moves w 0).advances
  | @destroyed b hb => exact (b.destroy_moves w 0).advances
  | @written b data hb =>
    obtain ⟨m, hm⟩ := b.access_memory D (.client 0) w (.write data)
    have hm : (b.write D data w).2 = { w with memory := m } := hm
    rw [hm]
    exact ⟨List.prefix_rfl, le_rfl, le_rfl⟩
  | @accessed b accesses hu hs =>
    rw [BufferObject.withMapping]
    rcases h : b.acquire D w with ⟨e | a, b', w'⟩
    · exact (BufferObject.acquire_moves 0 h).advances
    · have hr := (b'.release_moves (D := D) (b'.accessAll D a accesses w').2 0).advances
      have ha : w'.Advances (b'.accessAll D a accesses w').2 := by
        obtain ⟨m, hm⟩ := b'.accessAll_memory D a accesses w'
        rw [hm]
        exact ⟨List.prefix_rfl, le_rfl, le_rfl⟩
      exact ((BufferObject.acquire_moves 0 h).advances.trans ha).trans hr
  | joined | left => exact ⟨List.prefix_rfl, le_rfl, le_rfl⟩

def Effects (D : Driver σ ι) (Used Stored : BufferObject → Prop) : World σ → World σ → Prop :=
  Relation.ReflTransGen (Effect D Used Stored)

variable {D : Driver σ ι} {Used Stored : BufferObject → Prop} {w w' : World σ}

namespace Effects

theorem refl : Effects D Used Stored w w := Relation.ReflTransGen.refl

theorem one (h : Effect D Used Stored w w') : Effects D Used Stored w w' := .single h

theorem trans {w'' : World σ} (h : Effects D Used Stored w w') (k : Effects D Used Stored w' w'') :
    Effects D Used Stored w w'' := Relation.ReflTransGen.trans h k

/-- What a new object over somebody else's storage does. -/
theorem borrowed : Effects D Used Stored w w.freshId.2.hold := (one .named).trans (one .joined)

/-- What a call does to the world, where its result is known. -/
theorem of_call {α : Type} {call : α × World σ} {r : α} (h : Effects D Used Stored w call.2)
    (hr : call = (r, w')) : Effects D Used Stored w w' := by
  rwa [hr] at h

/-- What every effect keeps is kept by all of them together. -/
theorem keeps {I : World σ → Prop} (step : ∀ w w', Effect D Used Stored w w' → I w → I w')
    (h : Effects D Used Stored w w') (hw : I w) : I w' := by
  induction h with
  | refl => exact hw
  | tail _ e ih => exact step _ _ e ih

end Effects

namespace BufferObject

theorem convertPlanes_effects (l : List (Dmabuf × UInt32)) (w : World σ) :
    Effects D Used Stored w (convertPlanes D l w).2 := by
  induction l generalizing w with
  | nil => exact .refl
  | cons x l ih =>
    have hx : Effects D Used Stored w (w.importDescriptor D x.1).2 := .one (.converted x.1)
    rw [convertPlanes]
    split
    · next hq => exact hx.of_call hq
    · next hq =>
      refine (hx.of_call hq).trans ?_
      split
      · next hc => exact (ih _).of_call hc
      · next hc => exact (ih _).of_call hc

theorem importFrom_effects (source : ImportSource Dmabuf) (w : World σ) :
    Effects D Used Stored w (importFrom D source w).2 := by
  cases source with
  | external r =>
    simp only [importFrom, importExternal]
    split
    · exact .refl
    · split
      · exact .refl
      · exact .borrowed
  | descriptor d width height stride format =>
    have hd : Effects D Used Stored w (w.importDescriptor D d).2 := .one (.converted d)
    simp only [importFrom]
    split
    · next hq => exact hd.of_call hq
    · next hq => exact (hd.of_call hq).trans .borrowed
  | planes ds strides width height format modifier =>
    have hc : Effects D Used Stored w (convertPlanes D (ds.zip strides) w).2 :=
      convertPlanes_effects _ w
    simp only [importFrom, importPlanes]
    split
    · exact .refl
    split
    · exact .refl
    split
    · exact .refl
    split
    · next hq => exact (hc.of_call hq).trans .borrowed
    · next hq =>
      refine (hc.of_call hq).trans ?_
      dsimp only
      split
      · exact .refl
      · exact .one (.warned _)

end BufferObject

theorem Device.createBuffer_effects (width height : UInt32) (fourcc : Fourcc)
    (modifiers : List Modifier) (w : World σ) :
    Effects D Used Stored w (createBuffer D width height fourcc modifiers w).2 := by
  unfold createBuffer
  split
  · exact .one (.created ..)
  · split
    · exact .one (.created ..)
    · exact .refl

namespace Surface

theorem clear_effects {x : Surface} {i : Nat} (h : ∀ b, x.slot? i = some b → Used b)
    (w : World σ) : Effects D Used Stored w (x.clear D i w).2 := by
  rcases x.clear_cases D i w with ⟨_, hc⟩ | ⟨old, hold, hc⟩
  · rw [hc]
    exact .refl
  · rw [hc]
    refine Effects.trans ?_ (.one (.destroyed (h old hold)))
    split
    · exact .one (.warned _)
    · exact .refl

theorem replace_effects {x : Surface} {i : Nat} (h : ∀ b, x.slot? i = some b → Used b)
    (y : Option SlotBuffer) (w : World σ) :
    Effects D Used Stored w (x.replace D i y w).2.2 := by
  rw [replace]
  split
  · have hc : Effects D Used Stored w (x.clear D i w).2 := clear_effects h w
    cases y with
    | none => exact hc
    | some y => exact hc.trans .borrowed
  · dsimp only
    split
    · exact .one (.closed _)
    · exact .refl

theorem allocate_effects {x : Surface} {i : Nat} (h : ∀ b, x.slot? i = some b → Used b)
    (w : World σ) : Effects D Used Stored w (x.allocate D i w).2.2 := by
  rw [allocate]
  split
  · have hc : Effects D Used Stored w (x.clear D i w).2 := clear_effects h w
    dsimp only
    split
    · next hq => exact hc.trans ((Effects.one (.created ..)).of_call hq)
    · next hq => exact hc.trans ((Effects.one (.created ..)).of_call hq)
  · exact .refl

theorem destroy_effects {x : Surface} (h : ∀ i b, x.slot? i = some b → Used b) (w : World σ) :
    Effects D Used Stored w (x.destroy D w) := by
  have hall : ∀ b, some b ∈ x.slots.toList → Used b := by
    intro b hb
    obtain ⟨i, hi⟩ := slot?_of_mem_buffers (x := x) (b := b)
      (List.reduceOption_mem_iff.mpr hb)
    exact h i b hi
  refine (Effects.one .left).trans ?_
  rw [destroy]
  generalize w.letGo D = w
  generalize x.slots.toList = l at hall
  induction l generalizing w with
  | nil => exact .refl
  | cons o l ih =>
    rw [List.foldl_cons]
    refine Effects.trans ?_ (ih _ fun b hb => hall b (List.mem_cons_of_mem _ hb))
    cases o with
    | none => exact .refl
    | some b => exact .one (.destroyed (hall b List.mem_cons_self))

end Surface

namespace Session

/-- The objects whose mapping an operation can use, or that it can end. -/
def Uses (s : Session σ) (op : Op ι) (b : BufferObject) : Prop :=
  ∃ t, s.object? t = some b ∧ (op.Refers t ∨ op.Renews t)

/-- The objects through whose mapping an operation can store. -/
def StoresIn (s : Session σ) (op : Op ι) (b : BufferObject) : Prop :=
  ∃ t, s.object? t = some b ∧ op.Stores t

section
variable {s : Session σ}

theorem keepDescriptor_effects (s : Session σ) (name : String) (d : Dmabuf) :
    Effects D Used Stored s.world (s.keepDescriptor name d).world := by
  rw [keepDescriptor]
  dsimp only
  split
  · exact .one (.closed _)
  · exact .refl

theorem onDevice_effects {f : Session σ → Outcome × Session σ}
    (h : Effects D Used Stored s.world (f s).2.world) :
    Effects D Used Stored s.world (s.onDevice f).2.world :=
  world_onDevice s .refl h

theorem addObject_effects {name : String} {made : Except Error BufferObject × World σ}
    (hm : Effects D Used Stored s.world made.2)
    (hb : ∀ b, s.object? (.object name) = some b → Used b) :
    Effects D Used Stored s.world (s.addObject D name made).2.world := by
  obtain ⟨e | b, w⟩ := made
  · exact hm
  · simp only [addObject, keepObject]
    split
    · next old ho => exact hm.trans (.one (.destroyed (hb old ho)))
    · exact hm

theorem sharing_effects (s : Session σ) (t : Target) :
    Effects D Used Stored s.world (s.onObject t (sharing D)).2.world := by
  refine world_onObject s t .refl fun b _ => ?_
  rw [sharing]
  split
  · next hq => exact (Effects.one (.shared b)).of_call hq
  · next hq => exact (Effects.one (.shared b)).of_call hq

theorem lockFront_world (s : Session σ) (surface : String) (name : Option String) :
    (s.lockFront surface name).2.world = s.world := by
  have h : (s.onSurface surface fun x w =>
      (.identity x.lockFront.1, x.lockFront.2, w)).2.world = s.world :=
    world_onSurface s (P := (· = s.world)) rfl fun _ _ => rfl
  simp only [lockFront]
  split
  · exact h
  · exact h

theorem saveId_world (s : Session σ) (t : Target) (name : String) :
    (s.saveId t name).2.world = s.world := by
  have h : (s.onObject t fun b w => (.done, b, w)).2.world = s.world :=
    world_onObject s t (P := (· = s.world)) rfl fun _ _ => rfl
  simp only [saveId]
  split
  · exact h
  · exact h

end

theorem work_effects {s : Session σ} {op : Op ι} {t : Target} {b : BufferObject}
    (hb : s.object? t = some b) (ht : op.target? = some t) :
    Effects D (s.Uses op) (s.StoresIn op) s.world (op.work D b s.world).2.2 := by
  have hused (h : op.Refers t) : s.Uses op b := ⟨t, hb, .inl h⟩
  have hstored (h : op.Stores t) : s.StoresIn op b := ⟨t, hb, h⟩
  cases op with
  | acquire u =>
    obtain rfl : u = t := Option.some.inj ht
    rw [Op.work_acquire]
    exact .one (.acquired (hused rfl))
  | acquireRegion u x y width height =>
    obtain rfl : u = t := Option.some.inj ht
    rw [Op.work_acquireRegion, BufferObject.acquireRegion]
    split
    · exact .one (.acquired (hused rfl))
    · exact .refl
  | release u =>
    obtain rfl : u = t := Option.some.inj ht
    exact .one (.released (hused rfl))
  | write u data =>
    obtain rfl : u = t := Option.some.inj ht
    exact .one (.written data (hstored rfl))
  | withMapping u accesses =>
    obtain rfl : u = t := Option.some.inj ht
    rw [Op.work_withMapping]
    exact .one (.accessed accesses (hused rfl) (hstored rfl))
  | inspect u | plane u index => exact .refl
  | _ => cases ht

/-- Whatever an operation does to the world is done with the objects it is about. -/
theorem step_effects (s : Session σ) (op : Op ι) :
    Effects D (s.Uses op) (s.StoresIn op) s.world (s.step D op).2.world := by
  cases ho : op.target? with
  | some t =>
    rw [s.step_of_target? ho]
    exact world_onObject s t .refl fun b hb => work_effects hb ho
  | none =>
    cases op with
    | acquire t | acquireRegion t x y width height | release t | write t data
    | withMapping t accesses | inspect t | plane t index => cases ho
    | outside i => exact .one (.outside i)
    | receive name =>
      exact Effects.trans (.one .received) (keepDescriptor_effects (s.withWorld _) name _)
    | close name =>
      simp only [step]
      split
      · exact .refl
      · exact .one (.closed _)
    | newMemory name length => exact .refl
    | readMemory name offset count =>
      simp only [step]
      split <;> exact .refl
    | deviceName => exact onDevice_effects .refl
    | supportsFormat format usage => exact onDevice_effects .refl
    | layoutPlanes format modifier => exact onDevice_effects .refl
    | create name width height format usage =>
      exact onDevice_effects (addObject_effects (.one (.created ..)) fun b hb =>
        ⟨_, hb, .inr rfl⟩)
    | createBuffer name width height fourcc modifiers =>
      exact onDevice_effects (addObject_effects (Device.createBuffer_effects ..) fun b hb =>
        ⟨_, hb, .inr rfl⟩)
    | importFrom name source =>
      refine onDevice_effects ?_
      split
      · exact .refl
      · exact addObject_effects (BufferObject.importFrom_effects ..) fun b hb => ⟨_, hb, .inr rfl⟩
    | createSurface name width height format usage =>
      refine onDevice_effects ?_
      split
      · exact .refl
      · refine (Effects.one .joined).trans ?_
        simp only [keepSurface, withWorld]
        split
        · next x hx =>
          exact x.destroy_effects
            (fun i b hi => ⟨.slot name i, by simp [object?, hx, hi], .inr rfl⟩) _
        · exact .refl
    | exportHandle handle flags name =>
      refine onDevice_effects ?_
      split
      · next hq =>
        exact ((Effects.one (.exported handle flags)).of_call hq).trans
          (keepDescriptor_effects (s.withWorld _) name _)
      · next hq => exact (Effects.one (.exported handle flags)).of_call hq
    | importDescriptor name =>
      refine onDevice_effects ?_
      split
      · exact .refl
      · next d _ =>
        split
        · next hq => exact (Effects.one (.converted d)).of_call hq
        · next hq => exact (Effects.one (.converted d)).of_call hq
    | destroyDevice => exact onDevice_effects (.one .left)
    | saveId t name =>
      rw [step, saveId_world]
      exact .refl
    | share t name =>
      rw [step]
      rcases s.shareObject_cases D t name with h | ⟨d, h⟩
      · rw [h]
        exact sharing_effects s t
      · rw [h]
        exact (sharing_effects s t).trans (keepDescriptor_effects _ name d)
    | destroy name =>
      simp only [step]
      split
      · exact .refl
      · next b hb => exact .one (.destroyed ⟨.object name, hb, .inr rfl⟩)
    | inspectSurface surface => exact world_onSurface s .refl fun x _ => .refl
    | replace surface index buffer =>
      rw [step]
      rcases s.replace_cases D surface index buffer with h | ⟨y, descriptors, h⟩
      · rw [h]
        exact .refl
      · rw [h]
        refine world_onSurface _ .refl fun x hx => x.replace_effects (fun b hb => ?_) y _
        exact ⟨.slot surface index, by simp [object?, hx, hb], .inr rfl⟩
    | allocate surface index =>
      refine world_onSurface s .refl fun x hx => ?_
      have hb (b : BufferObject) (hb : x.slot? index = some b) :
          s.Uses (.allocate surface index : Op ι) b :=
        ⟨.slot surface index, by simp [object?, hx, hb], .inr rfl⟩
      split
      · next hq => exact (x.allocate_effects hb s.world).of_call (congrArg (·.2) hq)
      · next hq => exact (x.allocate_effects hb s.world).of_call (congrArg (·.2) hq)
    | setFront surface front => exact world_onSurface s .refl fun x _ => .refl
    | lockFront surface name =>
      rw [step, lockFront_world]
      exact .refl
    | unlock surface name =>
      simp only [step]
      split
      · exact .refl
      · exact world_onSurface s .refl fun x _ => .refl
    | destroySurface surface =>
      simp only [step]
      split
      · exact .refl
      · next x hx =>
        exact x.destroy_effects
          (fun i b hi => ⟨.slot surface i, by simp [object?, hx, hi], .inr rfl⟩) _

end Session
end DisplayBuffers
