import DisplayBuffers.Proofs.Contents
import DisplayBuffers.Proofs.ErrorClassification

/-! Storage of somebody else. Objects that were imported or put into a slot from elsewhere never
have the driver do anything to storage; their bytes are shown at the address that came with them, if
one did. -/
namespace DisplayBuffers
variable {σ ι : Type} {D : Driver σ ι}

namespace BufferObject
variable {b b' : BufferObject} {w w' : World σ}

theorem importFrom_backing {source : ImportSource Dmabuf}
    (h : importFrom D source w = (.ok b, w')) : b.backing = .borrowed none none := by
  cases source with
  | external r =>
    simp only [importFrom, importExternal] at h
    split at h
    · cases h
    · split at h
      · cases h
      · obtain ⟨rfl, rfl⟩ := h
        rfl
  | descriptor d width height stride format =>
    simp only [importFrom] at h
    split at h
    · cases h
    · obtain ⟨rfl, rfl⟩ := h
      rfl
  | planes ds strides width height format modifier =>
    simp only [importFrom, importPlanes] at h
    split at h
    · cases h
    split at h
    · cases h
    split at h
    · cases h
    split at h
    · obtain ⟨rfl, rfl⟩ := h
      rfl
    · cases h

/-- References to borrowed storage are a matter of the object alone. -/
theorem acquire_borrowed {d : Option Dmabuf} {a : Option Address} (hb : b.backing = .borrowed d a)
    (D : Driver σ ι) (w : World σ) : b.acquire D w = match a with
      | some a => (.ok a, b.retain a, w)
      | none => (.error (.invalidArgument .noCpuStorage), b, w) := by
  cases a <;> simp [acquire, hb]

/-- What ends with a borrowing object is its hold of the driver, and its descriptor if it has
one. -/
theorem destroy_borrowed {d : Option Dmabuf} {a : Option Address}
    (hb : b.backing = .borrowed d a) (D : Driver σ ι) (w : World σ) :
    (b.destroy D w).driver = (w.letGo D).driver ∧ (b.destroy D w).events = w.events ++
      ((if b.locked then [.warn (.destroyedLocked b.id)] else []) ++ d.toList.map .close) := by
  cases d <;> cases hl : b.locked <;>
    simp [destroy, hb, hl, World.letGo, World.warn, World.record, World.close]

end BufferObject

namespace Session
variable {s : Session σ} {op : Op ι} {t : Target} {b : BufferObject} {d : Option Dmabuf}
  {a : Option Address}

/-- A call that exports the handle which an object was imported with. -/
def ExportsHandle (op : Op ι) (t : Target) (b : BufferObject) (e : Event) : Prop :=
  ∃ name r, op = .share t name ∧ b.handle.isNull = false ∧
    e = .exportHandle b.handle .closeOnExec r

theorem MadeFor.of_borrowed {e : Event} (h : MadeFor s op (some t) e) (hb : s.object? t = some b)
    (ho : b.backing = .borrowed d a) : ExportsHandle op t b e := by
  have hother {b' : BufferObject} {st : Storage} {d' : Dmabuf} (hb' : s.object? t = some b')
      (ho' : b'.backing = .owned st d') : False := by
    obtain rfl := Option.some.inj (hb'.symm.trans hb)
    cases ho'.symm.trans ho
  cases h with
  | mapped hb' ho' _ => exact (hother hb' ho').elim
  | unmapped hb' ho' _ => exact (hother hb' ho').elim
  | released hb' ho' _ => exact (hother hb' ho').elim
  | @shared _ b' name r hb' hn hop =>
    obtain rfl := Option.some.inj (hb'.symm.trans hb)
    exact ⟨name, r, hop, hn, rfl⟩

/-- Whether an operation is about the object at a target and nothing else. -/
def Op.About (t : Target) : Op ι → Prop
  | .share u _ | .saveId u _ => u = t
  | .destroy name => t = .object name
  | op => op.target? = some t

theorem Op.About.cases (h : op.About t) : op.target? = some t ∨ (∃ name, op = .share t name) ∨
    (∃ name, op = .saveId t name) ∨ ∃ name, op = .destroy name ∧ t = .object name := by
  cases op with
  | share u name =>
    obtain rfl : u = t := h
    exact .inr (.inl ⟨name, rfl⟩)
  | saveId u name =>
    obtain rfl : u = t := h
    exact .inr (.inr (.inl ⟨name, rfl⟩))
  | destroy name => exact .inr (.inr (.inr ⟨name, rfl, h⟩))
  | _ => exact .inl h

/-- An operation that is about one object calls the driver for that object alone. -/
theorem MadeFor.of_about {e : Event} {o : Option Target} (h : MadeFor s op o e)
    (ht : op.About t) : o = some t := by
  have hrefers {u : Target} (hu : op.Refers u) : u = t := by
    rcases ht.cases with ht | ⟨name, rfl⟩ | ⟨name, rfl⟩ | ⟨name, rfl, _⟩
    · exact Option.some.inj ((Op.target?_of_refers hu).symm.trans ht)
    all_goals exact hu.elim
  have hrenews {u : Target} (hu : op.Renews u) : u = t := by
    rcases ht.cases with ht | ⟨name, rfl⟩ | ⟨name, rfl⟩ | ⟨name, rfl, rfl⟩
    · exact absurd hu (Op.not_renews_of_target? ht u)
    · exact hu.elim
    · exact hu.elim
    · exact hu
  cases h with
  | mapped _ _ hop => rw [hrefers hop]
  | unmapped _ _ hop => rw [hop.elim hrefers hrenews]
  | released _ _ hop => rw [hrenews hop]
  | shared _ _ hop =>
    subst hop
    rw [show _ = t from ht]
  | created hop he => cases op <;> first | exact hop.elim | cases ht
  | imported hop | exported hop | converted hop =>
    subst hop
    cases ht

/-- What is answered to a request for bytes that somebody else may have told the address of. -/
def shownAt (a : Option Address) (shown : Address → Answer) : Answer :=
  match a with
  | some a => shown a
  | none => .failed (.invalidArgument .noCpuStorage)

/-- How an object over borrowed storage behaves. The only call that can be made for it is the export
of a handle that it was imported with, and none when it ends and lets go of the driver; its mapping
is the address that it came with, or none if it came without. -/
structure Untouched (D : Driver σ ι) (s : Session σ) (t : Target) (b : BufferObject)
    (d : Option Dmabuf) (a : Option Address) : Prop where
  calls : ∀ (op : Op ι) e, MadeFor s op (some t) e → ExportsHandle op t b e
  used : ∀ op : Op ι, op.About t → ∀ e ∈ (s.turn D op).events, e.isDriverCall = true →
    ExportsHandle op t b e
  ended : ∀ w, (b.destroy D w).driver = (w.letGo D).driver ∧ (b.destroy D w).events = w.events ++
    ((if b.locked then [.warn (.destroyedLocked b.id)] else []) ++ d.toList.map .close)
  mapped : b.mapping = if b.references = 0 then none else a
  acquire : (s.step D (.acquire t)).1.answer = shownAt a .address
  taken : (s.step D (.acquire t)).2.object? t = some (a.elim b b.retain)
  region : ∀ x y width height, (s.step D (.acquireRegion t x y width height)).1.answer =
    if x = 0 ∧ y = 0 ∧ width = b.width ∧ height = b.height then shownAt a .address
    else .failed (.invalidArgument .partialRegion)
  guarded : ∀ accesses, (s.step D (.withMapping t accesses)).1.answer =
    shownAt a fun a => .accesses ((b.retain a).accessAll D a accesses s.world).1
  write : a = none → ∀ data, (s.step D (.write t data)).1.answer = .failed .notMapped

theorem untouched (hb : s.object? t = some b) (ho : b.backing = .borrowed d a) (hc : b.Counted) :
    Untouched D s t b d a := by
  have hanswer (op : Op ι) (ht : op.target? = some t) :
      (s.step D op).1.answer = (op.work D b s.world).1 :=
    congrArg Turn.answer (turn_of_target? (D := D) ht hb).1
  have hmapped : b.mapping = if b.references = 0 then none else a := by
    split
    · next hr => exact hc.mapping_eq_none_iff.mpr hr
    · next hr => exact hc.lent ho (hc.mapped.mpr (Nat.pos_of_ne_zero hr))
  exact {
    calls := fun op e h => h.of_borrowed hb ho
    used := fun op ht e he hd => by
      obtain ⟨o, h⟩ := (s.turn_accounts (D := D) op).1 e he hd
      obtain rfl := h.of_about ht
      exact h.of_borrowed hb ho
    ended := BufferObject.destroy_borrowed ho D
    mapped := hmapped
    acquire := by
      rw [hanswer _ rfl]
      simp only [Op.work, BufferObject.acquire_borrowed ho]
      cases a <;> rfl
    taken := by
      rw [object?_step_of_not_renews s id, hb]
      simp only [leaves, Option.map_some, if_true, BufferObject.acquire_borrowed ho]
      cases a <;> rfl
    region := fun x y width height => by
      rw [hanswer _ rfl]
      by_cases hr : x = 0 ∧ y = 0 ∧ width = b.width ∧ height = b.height
      · simp only [Op.work, BufferObject.acquireRegion, if_pos hr,
          BufferObject.acquire_borrowed ho]
        cases a <;> rfl
      · simp only [Op.work, BufferObject.acquireRegion, if_neg hr]
    guarded := fun accesses => by
      rw [hanswer _ rfl]
      simp only [Op.work, BufferObject.withMapping, BufferObject.acquire_borrowed ho]
      cases a <;> rfl
    write := fun ha data => by
      have hm : b.mapping = none := by rw [hmapped, ha, ite_self]
      rw [hanswer _ rfl]
      simp only [Op.work, BufferObject.write, hm]
      rfl }

/-- The storage of an object is not touched for as long as the object lives. -/
def LeftAlone (D : Driver σ ι) (s : Session σ) (t : Target) (b : BufferObject)
    (d : Option Dmabuf) (a : Option Address) : Prop :=
  ∀ ops u c, (s.run D ops).2.object? u = some c → c.id = b.id →
    u = t ∧ Untouched D (s.run D ops).2 t c d a

theorem leftAlone (d₀ : σ) (ops : List (Op ι)) (hb : ((start d₀).run D ops).2.object? t = some b)
    (ho : b.backing = .borrowed d a) : LeftAlone D ((start d₀).run D ops).2 t b d a := by
  intro ops' u c hc hid
  obtain ⟨rfl, hbacking, _⟩ := ((apart_start d₀).run ops).stays hb hc hid
  refine ⟨rfl, untouched hc (hbacking.trans ho) ?_⟩
  rw [← run_append] at hc
  exact (tracked D d₀ (ops ++ ops') u c hc).counted

/-- What was imported borrows, and nobody told where its bytes are. -/
theorem imports_borrow {name : String} {source : ImportSource String}
    (h : (s.step D (.importFrom name source)).1.answer = .done) :
    ∃ b, (s.step D (.importFrom name source)).2.object? (.object name) = some b ∧
      b.backing = .borrowed none none := by
  simp only [step, onDevice] at h ⊢
  cases hd : s.device with
  | false =>
    simp only [hd] at h
    cases h
  | true =>
    cases hs : source.resolve? s.descriptors.find? with
    | none =>
      simp only [hd, hs] at h
      cases h
    | some source' =>
      simp only [hd, hs, if_true] at h ⊢
      rcases hq : BufferObject.importFrom D source' s.world with ⟨e | b, w⟩
      · rw [hq] at h
        cases h
      · refine ⟨b, ?_, BufferObject.importFrom_backing hq⟩
        rw [object?_addObject]
        exact if_pos rfl

/-- What was put into a slot borrows what came with it, and has no handle. -/
theorem installs_borrow {surface : String} {i : Nat} {y : NamedBuffer}
    (h : (s.step D (.replace surface i (some y))).1.answer = .done) :
    ∃ z b, s.slotBuffer? y = some z ∧
      (s.step D (.replace surface i (some y))).2.object? (.slot surface i) = some b ∧
      b.backing = .borrowed z.descriptor z.address ∧ b.planes = [⟨.null, z.stride⟩] := by
  simp only [step] at h ⊢
  cases hx : s.surfaces.find? surface with
  | none =>
    simp only [replace, hx] at h
    cases h
  | some x =>
    cases hy : s.slotBuffer? y with
    | none =>
      simp only [replace, hx, hy] at h
      cases h
    | some z =>
      rw [s.replace_some i hx hy] at h ⊢
      simp only [onSurface, hx, replacing] at h
      by_cases hi : i < slotCount
      · rcases hc : x.clear D i s.world with ⟨x', w'⟩
        refine ⟨z, (BufferObject.borrow x'.width x'.height x'.format.code [⟨.null, z.stride⟩]
          z.descriptor z.address w').1, rfl, ?_, rfl, rfl⟩
        rw [object?_onSurface_slot]
        simp only [hx, Option.bind_some, replacing, Surface.replace, hi, if_true, hc]
        rw [Surface.slot?_withSlot, if_pos ⟨rfl, hi⟩]
      · rw [(Surface.replace_error D x hi (some z) s.world).1] at h
        cases h

/-- A call that gives back the storage of the object at a target, or its mapping. -/
def GivesBack (s : Session σ) (t : Target) (e : Event) : Prop :=
  ∃ b st d, s.object? t = some b ∧ b.backing = .owned st d ∧
    ((∃ a r, e = .unmap st a r) ∨ ∃ r, e = .release st r)

/-- Putting something into a slot calls the driver only to end an owning object that was there. -/
theorem MadeFor.of_replace {surface : String} {i : Nat} {y : Option NamedBuffer} {o : Option Target}
    {e : Event} (h : MadeFor s (.replace surface i y : Op ι) o e) :
    s.GivesBack (.slot surface i) e := by
  cases h with
  | unmapped hb ho hop =>
    obtain rfl : _ = Target.slot surface i := hop.elim False.elim id
    exact ⟨_, _, _, hb, ho, .inl ⟨_, _, rfl⟩⟩
  | released hb ho hop =>
    obtain rfl : _ = Target.slot surface i := hop
    exact ⟨_, _, _, hb, ho, .inr ⟨_, rfl⟩⟩
  | mapped _ _ hop => exact hop.elim
  | created hop _ => exact hop.elim
  | shared _ _ hop | imported hop | exported hop | converted hop => cases hop

/-- Borrowed storage is left alone. Each call to the driver has an object or a request that it is
made for. Objects that were imported and buffers that were put into a slot get none but the export
of a handle, all their life; and putting a buffer into a slot calls the driver only for an owning
object that has to go. -/
theorem borrowed_left_alone (D : Driver σ ι) (d₀ : σ) (ops : List (Op ι)) :
    let s := ((start d₀).run D ops).2
    (∀ op, ∀ e ∈ (s.turn D op).events, e.isDriverCall = true → s.Warrants op e) ∧
    (∀ t b d a, s.object? t = some b → b.backing = .borrowed d a → LeftAlone D s t b d a) ∧
    (∀ name source, (s.turn D (.importFrom name source)).answer = .done →
      ∃ b, (s.turn D (.importFrom name source)).after.object? (.object name) = some b ∧
        LeftAlone D (s.turn D (.importFrom name source)).after (.object name) b none none) ∧
    ∀ surface i,
      (∀ y, (s.turn D (.replace surface i (some y))).answer = .done →
        ∃ z b, s.slotBuffer? y = some z ∧
          (s.turn D (.replace surface i (some y))).after.object? (.slot surface i) = some b ∧
          b.planes = [⟨.null, z.stride⟩] ∧ LeftAlone D
            (s.turn D (.replace surface i (some y))).after (.slot surface i) b z.descriptor
            z.address) ∧
      ∀ y, ∀ e ∈ (s.turn D (.replace surface i y)).events, e.isDriverCall = true →
        s.GivesBack (.slot surface i) e := by
  intro s
  have hafter (op : Op ι) {t b d a} (hb : (s.turn D op).after.object? t = some b)
      (ho : b.backing = .borrowed d a) : LeftAlone D (s.turn D op).after t b d a := by
    have hs : (s.turn D op).after = ((start d₀).run D (ops ++ [op])).2 := by rw [run_concat]; rfl
    rw [hs] at hb ⊢
    exact leftAlone d₀ (ops ++ [op]) hb ho
  refine ⟨fun op => (s.turn_accounts (D := D) op).1, fun t b d a => leftAlone d₀ ops, ?_, ?_⟩
  · intro name source h
    obtain ⟨b, hb, ho⟩ := imports_borrow h
    exact ⟨b, hb, hafter _ hb ho⟩
  · refine fun surface i => ⟨fun y h => ?_, fun y e he hd => ?_⟩
    · obtain ⟨z, b, hz, hb, ho, hp⟩ := installs_borrow h
      exact ⟨z, b, hz, hb, hp, hafter _ hb ho⟩
    · obtain ⟨o, h⟩ := (s.turn_accounts (D := D) _).1 e he hd
      exact h.of_replace

end Session
end DisplayBuffers
