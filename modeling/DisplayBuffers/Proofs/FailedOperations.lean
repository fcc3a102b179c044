import DisplayBuffers.Proofs.ErrorClassification

/-! What an operation that fails leaves behind. The client holds what it held, and the driver has
nothing more and nothing less in use. The exception is a slot that could not be filled anew: what
was in it is gone by then. -/
namespace DisplayBuffers
variable {σ ι : Type} {D : Driver σ ι} {w w' : World σ} {x : Error}

/-- Descriptors that were converted to handles, as they stand in the log. -/
def conversions (converted : List (Dmabuf × Handle)) : List Event :=
  converted.map fun p => .importDescriptor p.1 (.ok p.2)

/-- Handles that were obtained in vain are warned of. -/
def abandoned (converted : List (Dmabuf × Handle)) : List Event :=
  if converted.isEmpty then [] else [.warn (.importAborted (converted.map (·.2)))]

/-- The world after a request that failed. Nothing was done about one that was itself at fault. Any
other ended with a call that was refused, and no call before it but conversions. -/
inductive World.Spared (w : World σ) (x : Error) : List (Dmabuf × Handle) → World σ → Prop
  | faulty (hx : x.isInvalidInput = true) : Spared w x [] w
  | refused {converted call driver} (hx : x ∈ call.reports) : Spared w x converted { w with
      driver
      events := w.events ++ (conversions converted ++ call :: abandoned converted) }

namespace World.Spared

theorem of_eq {converted : List (Dmabuf × Handle)} (driver : σ) {call : Event}
    (h : w' = { w with
      driver
      events := w.events ++ (conversions converted ++ call :: abandoned converted) })
    (hx : x ∈ call.reports) : w.Spared x converted w' := h ▸ .refused hx

theorem one {driver : σ} {call : Event}
    (h : w' = { w with driver, events := w.events ++ [call] }) (hx : x ∈ call.reports) :
    w.Spared x [] w' := of_eq driver h hx

/-- Neither a conversion nor a call that is refused takes anything into use. -/
theorem upkeep {converted : List (Dmabuf × Handle)} (h : w.Spared x converted w') :
    w'.upkeep = w.upkeep := by
  cases h with
  | faulty => rfl
  | @refused _ call _ hx =>
    have hconverted (u : Upkeep) : u.afterAll (conversions converted) = u := by
      induction converted with
      | nil => rfl
      | cons p l ih => exact ih
    have hcall : call.isRefused = true := by simp [Event.isRefused, List.ne_nil_of_mem hx]
    rw [World.upkeep_of_events rfl, Upkeep.afterAll_append, hconverted]
    change (w.upkeep.after call).afterAll (abandoned converted) = _
    rw [Upkeep.after_of_refused hcall, abandoned]
    split <;> rfl

end World.Spared

namespace BufferObject
variable {b b' : BufferObject}

theorem acquire_spared (h : b.acquire D w = (.error x, b', w')) :
    b' = b ∧ w.Spared x [] w' := by
  cases acquired h with
  | failed hb hm hw => exact ⟨rfl, .one (World.map_eq hw) List.mem_cons_self⟩
  | refused hb => exact ⟨rfl, .faulty rfl⟩

theorem acquireRegion_spared {left top width height : UInt32}
    (h : b.acquireRegion D left top width height w = (.error x, b', w')) :
    b' = b ∧ w.Spared x [] w' := by
  rw [acquireRegion] at h
  split at h
  · exact acquire_spared h
  · obtain ⟨rfl, rfl, rfl⟩ := h
    exact ⟨rfl, .faulty rfl⟩

theorem withMapping_spared {accesses : List Access}
    (h : b.withMapping D accesses w = (.error x, b', w')) : b' = b ∧ w.Spared x [] w' := by
  rw [withMapping] at h
  split at h
  · next ha =>
    obtain ⟨rfl, rfl, rfl⟩ := h
    exact acquire_spared ha
  · cases h

/-- Data that does not fit is not written in part. -/
theorem write_spared {data : List UInt8} (h : b.write D data w = (.error x, w')) :
    x.isInvalidInput = true ∧ w' = w := by
  rw [write] at h
  split at h
  · obtain ⟨rfl, rfl⟩ := h
    exact ⟨rfl, rfl⟩
  · split at h
    · obtain ⟨rfl, rfl⟩ := h
      exact ⟨rfl, rfl⟩
    · cases h

theorem share_spared (h : b.share D w = (.error x, w')) : w.Spared x [] w' := by
  cases shared h with
  | nothing => exact .faulty rfl
  | notDuplicated hn hd hw => exact .one (World.duplicate_error hw) List.mem_cons_self
  | notExported hn hw => exact .one (World.exportHandle_error hw) List.mem_cons_self

/-- Where a descriptor cannot be converted, those before it have been, and none after it. -/
theorem convertPlanes_error {l : List (Dmabuf × UInt32)} {c : IoError} {planes : List Plane}
    (h : convertPlanes D l w = (.error (c, planes), w')) :
    ∃ converted d rest driver, l.map Prod.fst = converted.map Prod.fst ++ d :: rest ∧
      planes.map (·.handle) = converted.map Prod.snd ∧ w' = { w with
        driver
        events := w.events ++ (conversions converted ++ [.importDescriptor d (.error c)]) } := by
  induction l generalizing w planes with
  | nil => cases h
  | cons p l ih =>
    obtain ⟨d, stride⟩ := p
    rw [convertPlanes] at h
    split at h
    · next e w₁ hq =>
      obtain ⟨⟨rfl, rfl⟩, rfl⟩ := h
      exact ⟨[], d, l.map Prod.fst, _, rfl, rfl, World.importDescriptor_eq hq⟩
    · next handle w₁ hq =>
      split at h
      · cases h
      · next e planes' w₂ hrest =>
        obtain ⟨⟨rfl, rfl⟩, rfl⟩ := h
        obtain ⟨converted, d', rest, driver, hl, hp, rfl⟩ := ih hrest
        refine ⟨(d, handle) :: converted, d', rest, driver, ?_, ?_, ?_⟩
        · rw [List.map_cons, List.map_cons, hl, List.cons_append]
        · rw [List.map_cons, List.map_cons, hp]
        · simp [World.importDescriptor_eq hq, conversions]

/-- An import that fails leaves nothing but the handles of the planes before the one that it failed
at. -/
theorem importFrom_spared {source : ImportSource Dmabuf}
    (h : importFrom D source w = (.error x, w')) :
    ∃ converted, converted.map Prod.fst <+: source.descriptors ∧ w.Spared x converted w' := by
  have hfaulty (hx : x.isInvalidInput = true) (hw : w' = w) :
      ∃ converted, converted.map Prod.fst <+: source.descriptors ∧ w.Spared x converted w' :=
    ⟨[], List.nil_prefix, hw ▸ .faulty hx⟩
  cases source with
  | external resource =>
    simp only [importFrom, importExternal] at h
    split at h
    · obtain ⟨rfl, rfl⟩ := h
      exact hfaulty rfl rfl
    · split at h
      · obtain ⟨rfl, rfl⟩ := h
        exact hfaulty rfl rfl
      · cases h
  | descriptor d width height stride format =>
    simp only [importFrom] at h
    split at h
    · next c w₁ hq =>
      obtain ⟨rfl, rfl⟩ := h
      exact ⟨[], List.nil_prefix, .one (World.importDescriptor_eq hq) List.mem_cons_self⟩
    · cases h
  | planes ds strides width height format modifier =>
    simp only [importFrom, importPlanes] at h
    split at h
    · obtain ⟨rfl, rfl⟩ := h
      exact hfaulty rfl rfl
    split at h
    · obtain ⟨rfl, rfl⟩ := h
      exact hfaulty rfl rfl
    split at h
    · obtain ⟨rfl, rfl⟩ := h
      exact hfaulty rfl rfl
    next hlength =>
    split at h
    · cases h
    · next c planes w₁ hq =>
      obtain ⟨rfl, rfl⟩ := h
      obtain ⟨converted, d, rest, driver, hl, hp, rfl⟩ := convertPlanes_error hq
      have hds : (ds.zip strides).map Prod.fst = ds :=
        List.map_fst_zip (by rw [not_not.mp hlength])
      have hempty : planes.isEmpty = converted.isEmpty := by
        rw [← List.isEmpty_map (f := (·.handle)), hp, List.isEmpty_map]
      have hcall : Error.allocation .importPlane c ∈
          (Event.importDescriptor d (.error c)).reports := List.mem_cons_of_mem _ List.mem_cons_self
      refine ⟨converted, ⟨d :: rest, hl.symm.trans hds⟩, .of_eq driver ?_ hcall⟩
      rw [hempty, hp]
      cases converted <;> simp [abandoned, World.warn, World.record]

end BufferObject

/-- What was in a slot was destroyed, with warnings if the display holds on to it. The outcomes of
the calls are the driver's answers to them, and as the surface holds it too, the driver is left as
they leave it. -/
def World.Rid (D : Driver σ ι) (w : World σ) (i : Nat) (former : Option BufferObject)
    (w' : World σ) : Prop :=
  match former with
  | none => w' = w
  | some b => ∃ driver unmapped released, w' = { w with
      driver
      descriptors := w.descriptors.diff b.descriptor?.toList
      events := w.events ++
        ((if b.locked then [.warn (.replacedLocked i b.id), .warn (.destroyedLocked b.id)]
          else []) ++ (b.parting unmapped released).flatMap (Event.logged D))
      holders := w.holders - b.driverReferences } ∧
      (b.driverReferences < w.holders →
        D.Answered (b.parting unmapped released) w.driver w.allocations driver)

namespace Surface
variable {s : Surface}

theorem clear_rid (s : Surface) (D : Driver σ ι) (i : Nat) (w : World σ) :
    w.Rid D i (s.slot? i) (s.clear D i w).2 := by
  rcases s.clear_cases D i w with ⟨hs, hc⟩ | ⟨b, hs, hc⟩
  · rw [hc, hs]
    rfl
  · rw [hc, hs]
    obtain ⟨driver, unmapped, released, hd, hanswered⟩ :=
      b.destroy_logged D (if b.locked then w.warn (.replacedLocked i b.id) else w)
    refine ⟨driver, unmapped, released, hd.trans ?_, ?_⟩
    · cases b.locked <;> simp [World.warn, World.record]
    · split at hanswered <;> exact hanswered

/-- A slot that could not be filled anew is empty, and what was obtained for it was given back. -/
theorem allocate_failed {s' : Surface} {i : Nat} (hi : i < slotCount)
    (h : s.allocate D i w = (.error x, s', w')) :
    s' = s.withSlot i none ∧ ∃ cleared A, w.Rid D i (s.slot? i) cleared ∧
      BufferObject.Withdrawn D s.width s.height s.format (s.usage.union .write) cleared A x w' := by
  rw [s.allocate_of_lt D hi] at h
  split at h
  · cases h
  · next e w₂ hq =>
    obtain ⟨⟨rfl⟩, rfl, rfl⟩ := h
    refine ⟨rfl, (s.clear D i w).2, ?_⟩
    rcases BufferObject.create_error_logged hq with ⟨hf, _⟩ | ⟨format, A, hf, hA⟩
    · cases (PixelFormat.ofCode?_code s.format).symm.trans hf
    · obtain rfl := Option.some.inj ((PixelFormat.ofCode?_code s.format).symm.trans hf)
      exact ⟨A, s.clear_rid D i w, hA⟩

theorem setFront_failed {front : Option Nat} {s' : Surface}
    (h : s.setFront front = (.error x, s')) : x.isInvalidInput = true ∧ s' = s := by
  rw [setFront] at h
  split at h
  · cases h
  · obtain ⟨⟨rfl⟩, rfl⟩ := h
    exact ⟨rfl, rfl⟩

end Surface

namespace Session
variable {s : Session σ} {op : Op ι} {converted : List (Dmabuf × Handle)}

/-- A session after an operation that failed holds what it held. The driver may have been called,
but has the same in use. -/
structure Undisturbed (s : Session σ) (x : Error) (converted : List (Dmabuf × Handle))
    (s' : Session σ) : Prop where
  alike : s.Alike (s'.withWorld s.world)
  world : s.world.Spared x converted s'.world
  upkeep : s'.world.upkeep = s.world.upkeep

theorem undisturbed {s' : Session σ} (h : s.Alike (s'.withWorld s.world))
    (hw : s.world.Spared x converted s'.world) : Undisturbed s x converted s' :=
  ⟨h, hw, hw.upkeep⟩

theorem undisturbed_of_alike {s' : Session σ} (hx : x.isInvalidInput = true) (h : s.Alike s') :
    Undisturbed s x [] s' :=
  undisturbed ⟨rfl, h.device, h.objects, h.surfaces, h.descriptors, h.memories, h.ids⟩
    (h.world ▸ .faulty hx)

/-- An operation that failed changed nothing. Handles of planes that were converted are the trace of
an import. -/
def Harmless (s : Session σ) (op : Op ι) (x : Error) (s' : Session σ) : Prop :=
  ∃ converted, Undisturbed s x converted s' ∧
    (converted = [] ∨ ∃ name named source, op = .importFrom name named ∧
      named.resolve? s.descriptors.find? = some source ∧
      converted.map Prod.fst <+: source.descriptors)

theorem Undisturbed.harmless {s' : Session σ} (h : Undisturbed s x [] s') : Harmless s op x s' :=
  ⟨[], h, .inl rfl⟩

/-- Whether an operation allocates storage or puts something into a slot. -/
def Op.Fills : Op ι → Prop
  | .create _ _ _ _ _ | .createBuffer _ _ _ _ _ | .replace _ _ _ | .allocate _ _ => True
  | _ => False

theorem work_spared {b : BufferObject} (hx : x ∈ (op.work D b w).1.errors) :
    (op.work D b w).2.1 = b ∧ w.Spared x [] (op.work D b w).2.2 := by
  cases op with
  | acquire t =>
    rcases hq : b.acquire D w with ⟨e | a, b', w'⟩ <;> simp only [Op.work, hq] at hx ⊢
    · obtain rfl := List.mem_singleton.mp hx
      exact BufferObject.acquire_spared hq
    · cases hx
  | acquireRegion t left top width height =>
    rcases hq : b.acquireRegion D left top width height w with ⟨e | a, b', w'⟩ <;>
      simp only [Op.work, hq] at hx ⊢
    · obtain rfl := List.mem_singleton.mp hx
      exact BufferObject.acquireRegion_spared hq
    · cases hx
  | withMapping t accesses =>
    rcases hq : b.withMapping D accesses w with ⟨e | a, b', w'⟩ <;> simp only [Op.work, hq] at hx ⊢
    · obtain rfl := List.mem_singleton.mp hx
      exact BufferObject.withMapping_spared hq
    · cases hx
  | write t data =>
    rcases hq : b.write D data w with ⟨e | a, w'⟩ <;> simp only [Op.work, hq, true_and] at hx ⊢
    · obtain rfl := List.mem_singleton.mp hx
      obtain ⟨hinvalid, rfl⟩ := BufferObject.write_spared hq
      exact .faulty hinvalid
    · cases hx
  | plane t index =>
    refine ⟨rfl, .faulty ?_⟩
    rcases errors_plane b index with ⟨_, h⟩ | ⟨_, h⟩ <;> simp only [Op.work, h] at hx
    · rw [List.eq_of_mem_replicate hx]
      rfl
    · cases hx
  | _ => cases hx

section Combinators

/-- Work on an object that leaves it as it was when it fails. -/
theorem harmless_onObject {t : Target}
    {f : BufferObject → World σ → Answer × BufferObject × World σ}
    (hf : ∀ b, x ∈ (f b s.world).1.errors →
      (f b s.world).2.1 = b ∧ s.world.Spared x [] (f b s.world).2.2)
    (hx : x ∈ (s.onObject t f).1.answer.errors) :
    Harmless s op x (s.onObject t f).2 := by
  obtain ⟨b, hb, hfailed⟩ := exists_of_errors_onObject hx
  obtain ⟨hsame, hspared⟩ := hf b hfailed
  exact (undisturbed (alike_onObject hb hsame) ((onObject_of_some hb f).2 ▸ hspared)).harmless

/-- Work on a surface that leaves it as it was when it fails. -/
theorem harmless_onSurface {surface : String}
    {f : Surface → World σ → Answer × Surface × World σ}
    (hf : ∀ y, x ∈ (f y s.world).1.errors →
      x.isInvalidInput = true ∧ (f y s.world).2 = (y, s.world))
    (hx : x ∈ (s.onSurface surface f).1.answer.errors) :
    Harmless s op x (s.onSurface surface f).2 := by
  obtain ⟨y, hy, hfailed⟩ := exists_of_errors_onSurface hx
  obtain ⟨hinvalid, hsame⟩ := hf y hfailed
  exact (undisturbed_of_alike hinvalid (alike_onSurface hy hsame)).harmless

theorem harmless_onDevice {f : Session σ → Outcome × Session σ}
    (hf : x ∈ (f s).1.answer.errors → Harmless s op x (f s).2)
    (hx : x ∈ (s.onDevice f).1.answer.errors) :
    Harmless s op x (s.onDevice f).2 := by
  rw [onDevice] at hx ⊢
  split at hx
  · next hd =>
    rw [if_pos hd]
    exact hf hx
  · cases hx

theorem undisturbed_withWorld (hw : s.world.Spared x converted w) :
    Undisturbed s x converted (s.withWorld w) :=
  undisturbed ⟨rfl, rfl, fun _ => rfl, fun _ => rfl, rfl, rfl, rfl⟩ hw

end Combinators

theorem share_harmless {t : Target} {name : String}
    (hx : x ∈ (s.shareObject D t name).1.answer.errors) :
    Harmless s op x (s.shareObject D t name).2 := by
  have hsame : s.shareObject D t name = s.onObject t (sharing D) := by
    rw [shareObject] at hx ⊢
    generalize hout : s.onObject t _ = out at hx ⊢
    have hout : s.onObject t (sharing D) = out := hout
    rw [hout]
    obtain ⟨outcome, s'⟩ := out
    dsimp only at hx ⊢
    split
    · next d hd =>
      simp only [hd] at hx
      cases hx
    · rfl
  rw [hsame] at hx ⊢
  refine harmless_onObject (fun b hb => ?_) hx
  rw [sharing] at hb ⊢
  rcases hq : b.share D s.world with ⟨e | d, w⟩ <;> rw [hq] at hb
  · obtain rfl := List.mem_singleton.mp hb
    exact ⟨rfl, BufferObject.share_spared hq⟩
  · cases hb

/-- An operation that fails changes nothing, unless it was to fill something. -/
theorem failed_harmless (hop : ¬ op.Fills) (hx : x ∈ (s.step D op).1.answer.errors) :
    Harmless s op x (s.step D op).2 := by
  cases ho : op.target? with
  | some t =>
    rw [s.step_of_target? ho] at hx ⊢
    exact harmless_onObject (fun b => work_spared) hx
  | none =>
    cases op with
    | acquire t | acquireRegion t left top width height | release t | write t data
    | withMapping t accesses | inspect t | plane t index => cases ho
    | create | createBuffer | replace | allocate => exact absurd trivial hop
    | layoutPlanes format modifier =>
      refine harmless_onDevice (fun hx => ?_) hx
      obtain rfl := List.mem_singleton.mp hx
      exact (undisturbed_withWorld (.faulty rfl)).harmless
    | createSurface name width height format usage =>
      refine harmless_onDevice (fun hx => ?_) hx
      rcases hq : Surface.create width height format usage with e | y <;> simp only [hq] at hx ⊢
      · obtain rfl := List.mem_singleton.mp hx
        exact (undisturbed_withWorld (.faulty (Surface.create_error hq ▸ rfl))).harmless
      · cases hx
    | importFrom name named =>
      refine harmless_onDevice (fun hx => ?_) hx
      cases hs : named.resolve? s.descriptors.find? with
      | none =>
        simp only [hs] at hx
        cases hx
      | some source =>
        simp only [hs] at hx ⊢
        rcases hq : BufferObject.importFrom D source s.world with ⟨e | b, w⟩ <;> rw [hq] at hx
        · obtain rfl := List.mem_singleton.mp hx
          obtain ⟨converted, hprefix, hw⟩ := BufferObject.importFrom_spared hq
          exact ⟨converted, undisturbed_withWorld hw,
            .inr ⟨name, named, source, rfl, hs, hprefix⟩⟩
        · cases hx
    | setFront surface front =>
      refine harmless_onSurface (fun y hy => ?_) hx
      rcases hq : y.setFront front with ⟨e | _, y'⟩ <;> simp only [hq] at hy ⊢
      · obtain rfl := List.mem_singleton.mp hy
        obtain ⟨hinvalid, rfl⟩ := Surface.setFront_failed hq
        exact ⟨hinvalid, rfl⟩
      · cases hy
    | share t name => exact share_harmless hx
    | _ =>
      rw [s.errors_of_sure _ id] at hx
      cases hx

/-- The session when the descriptor that comes with a buffer for a slot has been closed. -/
def handedOver (s : Session σ) (buffer : Option NamedBuffer) : Session σ :=
  match buffer.bind (·.descriptor) with
  | none => s
  | some name =>
    match s.descriptors.find? name with
    | none => s
    | some d => { s with world := s.world.close d, descriptors := s.descriptors.erase name }

theorem handedOver_of_slotBuffer? {b : NamedBuffer} {z : SlotBuffer}
    (h : s.slotBuffer? b = some z) : s.handedOver (some b) = { s with
      world := z.descriptor.elim s.world s.world.close
      descriptors := b.descriptor.elim s.descriptors s.descriptors.erase } := by
  unfold slotBuffer? at h
  split at h
  · cases h
  · next hd _ =>
    obtain ⟨d, hf, rfl⟩ := Option.map_eq_some_iff.mp h
    simp [handedOver, hd, hf]
  · next hd _ =>
    obtain ⟨m, _, rfl⟩ := Option.map_eq_some_iff.mp h
    simp [handedOver, hd]
  · next hd _ =>
    split at h
    · next hf _ =>
      obtain rfl := Option.some.inj h
      simp [handedOver, hd, hf]
    · cases h

theorem failed_replacing {i : Nat} {z : Option SlotBuffer} {y : Surface}
    (hx : x ∈ (replacing D i z y w).1.errors) :
    slotCount ≤ i ∧ (replacing D i z y w).2 = (y, (z.bind (·.descriptor)).elim w w.close) := by
  by_cases hi : i < slotCount
  · rw [replacing, y.replace_ok D hi z w] at hx
    cases hx
  · refine ⟨Nat.le_of_not_lt hi, ?_⟩
    simp only [replacing, Surface.replace, if_neg hi]
    cases z.bind (·.descriptor) <;> rfl

/-- A slot that is out of range cannot be filled. Nothing comes of it but that the descriptor which
was handed in is closed. -/
theorem failed_replace {surface : String} {i : Nat} {buffer : Option NamedBuffer}
    (hx : x ∈ (s.replace D surface i buffer).1.answer.errors) :
    slotCount ≤ i ∧ (s.handedOver buffer).Alike (s.replace D surface i buffer).2 := by
  cases hy : s.surfaces.find? surface with
  | none =>
    simp only [replace, hy] at hx
    cases hx
  | some y =>
    cases buffer with
    | none =>
      rw [s.replace_none hy] at hx ⊢
      obtain ⟨y', hy', hfailed⟩ := exists_of_errors_onSurface hx
      obtain rfl := Option.some.inj (hy.symm.trans hy')
      obtain ⟨hi, hsame⟩ := failed_replacing hfailed
      exact ⟨hi, alike_onSurface hy hsame⟩
    | some b =>
      cases hz : s.slotBuffer? b with
      | none =>
        simp only [replace, hy, hz] at hx
        cases hx
      | some z =>
        rw [s.replace_some i hy hz] at hx ⊢
        obtain ⟨y', hy', hfailed⟩ := exists_of_errors_onSurface hx
        obtain rfl := Option.some.inj (hy.symm.trans hy')
        obtain ⟨hi, hsame⟩ := failed_replacing hfailed
        refine ⟨hi, ?_⟩
        rw [handedOver_of_slotBuffer? hz]
        have hsession : ({ s with
            descriptors := b.descriptor.elim s.descriptors s.descriptors.erase }.onSurface surface
              (replacing D i (some z))).2 = { s with
            world := z.descriptor.elim s.world s.world.close
            descriptors := b.descriptor.elim s.descriptors s.descriptors.erase
            surfaces := s.surfaces.insert surface y } := by
          simp only [onSurface, hy, hsame, Option.bind_some]
        rw [hsession]
        exact alike_insert_surface hy

/-- What a failed attempt to fill a slot anew leaves. The slot is empty, the rest of the surface and
of the session is as it was; what was in the slot was destroyed, and then the creation was
withdrawn. -/
structure Vacated (D : Driver σ ι) (s : Session σ) (surface : String) (i : Nat) (y : Surface)
    (x : Error) (s' : Session σ) : Prop where
  session : s' = { s with
    world := s'.world
    surfaces := s.surfaces.insert surface (y.withSlot i none) }
  slots : ∀ j, (y.withSlot i none).slot? j = if i = j then none else y.slot? j
  world : ∃ cleared A, s.world.Rid D i (y.slot? i) cleared ∧
    BufferObject.Withdrawn D y.width y.height y.format (y.usage.union .write) cleared A x s'.world

theorem failed_allocate {surface : String} {i : Nat}
    (hx : x ∈ (s.step D (.allocate surface i)).1.answer.errors) :
    if i < slotCount then
      ∃ y, s.surfaces.find? surface = some y ∧
        Vacated D s surface i y x (s.step D (.allocate surface i)).2
    else s.Alike (s.step D (.allocate surface i)).2 := by
  obtain ⟨y, hy, hfailed⟩ := exists_of_errors_onSurface hx
  rcases hq : y.allocate D i s.world with ⟨e | id, y', w'⟩ <;> rw [hq] at hfailed
  · obtain rfl := List.mem_singleton.mp hfailed
    have hsession : (s.step D (.allocate surface i)).2 =
        { s with world := w', surfaces := s.surfaces.insert surface y' } := by
      simp only [step, onSurface, hy, hq]
    rw [hsession]
    split
    · next hi =>
      obtain ⟨rfl, hw⟩ := Surface.allocate_failed hi hq
      refine ⟨y, hy, rfl, fun j => ?_, hw⟩
      rw [Surface.slot?_withSlot]
      simp [hi]
    · next hi =>
      rw [Surface.allocate, if_neg hi] at hq
      obtain ⟨_, rfl, rfl⟩ := hq
      exact alike_insert_surface hy
  · cases hfailed

/-- Failures do no harm. Where an operation answers an error the client holds what it held, as it
was, and the driver has the same in use; where the request is itself at fault nothing is done at
all. What is handed in for a slot out of range is closed, and a slot that could not be filled anew
is empty. Within a scoped mapping a write that fails changes no byte either. -/
theorem failures_harmless (D : Driver σ ι) (s : Session σ) :
    (∀ op x, ¬ op.Fills → x ∈ (s.turn D op).answer.errors →
      Harmless s op x (s.turn D op).after) ∧
    (∀ surface i buffer x, x ∈ (s.turn D (.replace surface i buffer)).answer.errors →
      slotCount ≤ i ∧ (s.handedOver buffer).Alike (s.turn D (.replace surface i buffer)).after) ∧
    (∀ surface i x, x ∈ (s.turn D (.allocate surface i)).answer.errors →
      if i < slotCount then
        ∃ y, s.surfaces.find? surface = some y ∧
          Vacated D s surface i y x (s.turn D (.allocate surface i)).after
      else s.Alike (s.turn D (.allocate surface i)).after) ∧
    ∀ (b : BufferObject) a (w : World σ) data x,
      (b.access D a w (.write data)).1 = .written (.error x) →
        (b.access D a w (.write data)).2 = w := by
  refine ⟨fun op x => failed_harmless, fun surface i buffer x => failed_replace,
    fun surface i x => failed_allocate, fun b a w data x h => ?_⟩
  rcases hq : b.write D data w with ⟨r, w'⟩
  simp only [BufferObject.access, hq] at h ⊢
  obtain rfl := BufferObject.Seen.written.inj h
  exact (BufferObject.write_spared hq).2

end Session
end DisplayBuffers
