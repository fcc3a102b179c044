import DisplayBuffers.Proofs.Contents
import DisplayBuffers.Proofs.MappedLength
import DisplayBuffers.Proofs.SurfaceContents

/-! Whether the rows that a buffer object shows fit its storage. An object has the height that was
asked for and the bytes of the rows that the driver reports, so that they fit with a driver that
allots as much as it is asked for. A cursor is the exception: its storage has one size, whatever the
object's height. -/
namespace DisplayBuffers
variable {σ ι κ : Type} {D : Driver σ ι}

/-- An allocation that has the size a kind of buffer is to have, in pixels and in bytes. -/
structure Allocation.Suffices (a : Allocation) (kind : BufferKind) (width height : UInt32) :
    Prop where
  wide : (kind.dimensions width height).1 ≤ a.width
  high : (kind.dimensions width height).2 ≤ a.height
  long : rowBytes a.stride (kind.dimensions width height).2 ≤ a.length

/-- A driver that allots at least what it is asked for. -/
def Driver.Ample (D : Driver σ ι) : Prop :=
  ∀ key kind width height format x a,
    (D.allocate key kind width height format x).1 = .ok a → a.Suffices kind width height

/-- With dumb buffers it depends on the size the kernel reports; the length is always enough. -/
theorem Dumb.driver_ample {K : Kernel κ ι}
    (hK : ∀ width height k x, (K.createDumb width height bitsPerPixel 0 k).1 = .ok x →
      width ≤ x.width ∧ height ≤ x.height) : (driver K).Ample := by
  intro key kind width height format c a h
  have hl : a.length = rowBytes a.stride (kind.dimensions width height).2 := allocate_length h
  simp only [driver, allocate] at h
  split at h
  · cases h
  · next x c' hc =>
    obtain rfl := Except.ok.inj h
    have hreply : (K.createDumb (kind.dimensions width height).1 (kind.dimensions width height).2
        bitsPerPixel 0 c.kernel).1.mapError IoError.os = .ok x := congrArg Prod.fst hc
    cases hq : (K.createDumb (kind.dimensions width height).1 (kind.dimensions width height).2
      bitsPerPixel 0 c.kernel).1 with
    | error e => simp [hq, Except.mapError] at hreply
    | ok y =>
      obtain rfl : y = x := by simpa [hq, Except.mapError] using hreply
      obtain ⟨hwide, hhigh⟩ := hK _ _ _ _ hq
      exact ⟨hwide, hhigh, hl.ge⟩

theorem BufferKind.height_le_dimensions (usage : Usage) (width height : UInt32) :
    height ≤ ((ofUsage usage).dimensions width height).2 ↔
      (usage.contains .cursor = true → height ≤ 64) := by
  rw [ofUsage]
  cases usage.contains .cursor <;> simp [dimensions, cursorSide]

namespace BufferObject
variable {width height : UInt32} {code : FormatCode} {usage : Usage} {w w' : World σ}
  {b : BufferObject}

theorem stride_of_completed {format : PixelFormat} {A : Answers} {st : Storage} {d : Dmabuf}
    {m : Option Address} (h : Completed D width height format usage w A st d m b w') :
    b.stride = st.stride := by
  rw [h.object]
  rfl

/-- The rows of a created object against the rows of its storage. -/
theorem rows_of_completed {format : PixelFormat} {A : Answers} {st : Storage} {d : Dmabuf}
    {m : Option Address} (h : Completed D width height format usage w A st d m b w') :
    rowBytes b.stride b.height ≤ b.byteSize ↔ st.stride = 0 ∨ height ≤ st.height := by
  rw [h.object]
  exact rowBytes_le_iff st.stride height st.height

/-- The storage of a created object is what the driver allotted. -/
theorem suffices_of_create (hD : D.Ample) (h : create D width height code usage w = (.ok b, w'))
    {st : Storage} {d : Dmabuf} (hb : b.backing = .owned st d) :
    st.toAllocation.Suffices (.ofUsage usage) width height := by
  have hallot {format : PixelFormat} {s : Storage} {w₁ : World σ}
      (ha : w.allocate D (.ofUsage usage) width height format = (.ok s, w₁)) :
      s.toAllocation.Suffices (.ofUsage usage) width height :=
    hD _ _ _ _ _ _ _ (World.allocate_ok ha).2.1
  cases created h with
  | unmapped hf ha he hu =>
    obtain ⟨rfl, _⟩ := Backing.owned.inj hb
    exact hallot ha
  | mapped hf ha he hu hm =>
    obtain ⟨rfl, _⟩ := Backing.owned.inj hb
    exact hallot ha

/-- Accesses within the bytes of a mapped object are let through one after the other. -/
theorem accessAll_accepted {a : Address} (hm : b.mapping = some a) {l : List Access}
    (h : ∀ x ∈ l, x.reach ≤ b.byteSize) (w : World σ) :
    ∀ y ∈ (b.accessAll D a l w).1, y.accepted = true := by
  intro y hy
  have hmap := List.mem_map_of_mem (f := (·.accepted)) hy
  rw [accessAll_within hm] at hmap
  obtain ⟨x, hx, he⟩ := List.mem_map.mp hmap
  rw [← he]
  exact decide_eq_true (h x hx)

theorem withMapping_accepted {l : List Access} {seen : List Seen} {b' : BufferObject}
    (h : ∀ x ∈ l, x.reach ≤ b.byteSize) (hq : b.withMapping D l w = (.ok seen, b', w')) :
    ∀ y ∈ seen, y.accepted = true := by
  rw [withMapping] at hq
  rcases ha : b.acquire D w with ⟨e | a, b₁, w₁⟩ <;> rw [ha] at hq
  · cases hq
  · obtain rfl := acquire_retains ha
    obtain ⟨rfl, _⟩ := hq
    exact accessAll_accepted (b := b.retain a) rfl h w₁

end BufferObject

namespace Session

/-- What storage is asked for: the target of the object that is to have it, and its size and use. -/
structure Request where
  target : Target
  width : UInt32
  height : UInt32
  usage : Usage
  deriving DecidableEq

/-- What an operation asks storage for. Slots are allocated in the size of their surface, and for
drawing besides the uses of the surface. -/
def request? (s : Session σ) : Op ι → Option Request
  | .create name width height _ usage => some ⟨.object name, width, height, usage⟩
  | .createBuffer name width height _ _ =>
    some ⟨.object name, width, height, Usage.scanout.union .rendering⟩
  | .allocate surface i => (s.surfaces.find? surface).map fun x =>
    ⟨.slot surface i, x.width, x.height, x.usage.union .write⟩
  | _ => none

/-- The answers to a request that is fulfilled. -/
def Answer.Fulfils : Answer → Prop
  | .done | .identity (some _) => True
  | _ => False

section
variable {s : Session σ} {op : Op ι} {r : Request}

private theorem made_of_addObject_done {name : String} {made : Except Error BufferObject × World σ}
    (hop : s.step D op = s.onDevice fun s => s.addObject D name made)
    (h : (s.turn D op).answer.Fulfils) : ∃ b w, made = (.ok b, w) ∧
      w.Advances (s.step D op).2.world ∧ (s.step D op).2.object? (.object name) = some b := by
  simp only [turn, hop] at h ⊢
  rw [onDevice] at h ⊢
  split at h
  · next hd =>
    rw [if_pos hd]
    obtain ⟨e | b, w⟩ := made
    · exact h.elim
    · refine ⟨b, w, rfl, ?_, ?_⟩
      · exact (keepObject_changes (D := D) (s.withWorld w) name b).moves.advances
      · rw [object?_addObject]
        exact if_pos rfl
  · exact h.elim

/-- A request is fulfilled by a creation, after which nothing happens to the new object. -/
theorem creation_of_fulfilled (hr : s.request? op = some r)
    (h : (s.turn D op).answer.Fulfils) : ∃ code w b w', s.world.Advances w ∧
      BufferObject.create D r.width r.height code r.usage w = (.ok b, w') ∧
      w'.Advances (s.step D op).2.world ∧ (s.step D op).2.object? r.target = some b := by
  cases op with
  | create name width height code usage =>
    obtain rfl := Option.some.inj hr
    obtain ⟨b, w', hmade, hw, hb⟩ := made_of_addObject_done rfl h
    exact ⟨code, s.world, b, w', .refl _, hmade, hw, hb⟩
  | createBuffer name width height fourcc modifiers =>
    obtain rfl := Option.some.inj hr
    obtain ⟨b, w', hmade, hw, hb⟩ := made_of_addObject_done rfl h
    exact ⟨fourcc.code, s.world, b, w', .refl _, Device.createBuffer_ok hmade, hw, hb⟩
  | allocate surface i =>
    obtain ⟨x, hx, rfl⟩ := Option.map_eq_some_iff.mp hr
    obtain ⟨hanswer, hafter⟩ := step_allocate (D := D) (i := i) hx
    rw [turn, hanswer] at h
    rcases hq : x.allocate D i s.world with ⟨e | id, y, w'⟩ <;> rw [hq] at h hafter
    · exact h.elim
    · have hi := (Surface.allocate_completed hq).1
      rw [x.allocate_of_lt D hi] at hq
      split at hq
      · next b w₁ hc =>
        obtain ⟨_, rfl, rfl⟩ := hq
        refine ⟨_, _, b, w', Surface.clear_advances D x i s.world, hc, ?_, ?_⟩
        · rw [hafter]
          exact .refl _
        · rw [hafter, object?_insert_surface, if_pos rfl, Surface.slot?_withSlot,
            if_pos ⟨rfl, hi⟩]
      · cases hq
  | _ => cases hr

/-- Work in rows through a mapping is not refused. -/
theorem rows_accepted {t : Target} {b : BufferObject} {n : Nat} (hb : s.object? t = some b)
    (hn : n ≤ b.byteSize) :
    (b.isMapped = true → ∀ data : List UInt8, data.length ≤ n →
      (s.step D (.write t data)).1.answer = .done) ∧
    ∀ accesses seen, (∀ x ∈ accesses, BufferObject.Access.reach x ≤ n) →
      (s.step D (.withMapping t accesses)).1.answer = .accesses seen →
        ∀ y ∈ seen, y.accepted = true := by
  refine ⟨fun hm data hd => ?_, fun accesses seen hx h => ?_⟩
  · rw [(answer_write hb D data).1, if_pos hm, if_pos (hd.trans hn)]
  · have hop : (Op.withMapping t accesses : Op ι).target? = some t := rfl
    have hanswer := congrArg Turn.answer (turn_of_target? (D := D) hop hb).1
    simp only [turn, h, Op.work] at hanswer
    rcases hq : b.withMapping D accesses s.world with ⟨e | seen', b', w'⟩ <;>
      rw [hq] at hanswer
    · cases hanswer
    · obtain rfl := Answer.accesses.inj hanswer
      exact BufferObject.withMapping_accepted (fun x hm => (hx x hm).trans hn) hq

end

/-- Whatever storage is asked for with a driver that allots enough, the object has the size that
was asked for, and its rows fit the storage just when the storage has as many, or no bytes to a
row. It has as many unless a cursor is to be higher than 64. Then for as long as the object lives
its rows can be filled through any mapping without being refused, and lie within the storage. -/
theorem rows_fit (hD : D.Ample) (d : σ) (ops : List (Op ι)) (op : Op ι) (r : Request) :
    let s := ((start d).run D ops).2
    let e := s.turn D op
    s.request? op = some r → e.answer.Fulfils →
    ∃ b st f format, e.after.object? r.target = some b ∧ b.width = r.width ∧
      b.height = r.height ∧ b.backing = .owned st f ∧
      .allocate (.ofUsage r.usage) r.width r.height format (.ok st) ∈ e.after.world.events ∧
      b.stride = st.stride ∧
      (rowBytes b.stride b.height ≤ b.byteSize ↔ st.stride = 0 ∨ r.height ≤ st.height) ∧
      ((r.usage.contains .cursor = true → r.height ≤ 64) →
        rowBytes b.stride b.height ≤ b.byteSize ∧ rowBytes b.stride b.height ≤ st.length ∧
        ∀ later t c, (e.after.run D later).2.object? t = some c → c.id = b.id →
          let s' := (e.after.run D later).2
          rowBytes c.stride c.height = rowBytes b.stride b.height ∧
          (∀ a, c.mapping = some a → .map st (.ok a) ∈ s'.world.events) ∧
          (c.isMapped = true → ∀ data : List UInt8, data.length ≤ rowBytes b.stride b.height →
            (s'.step D (.write t data)).1.answer = .done) ∧
          ∀ accesses seen, (∀ x ∈ accesses, x.reach ≤ rowBytes b.stride b.height) →
            (s'.step D (.withMapping t accesses)).1.answer = .accesses seen →
              ∀ y ∈ seen, y.accepted = true) := by
  intro s e hr h
  obtain ⟨code, w, b, w', _, hcreate, hw', hb⟩ := creation_of_fulfilled hr h
  obtain ⟨format, A, st, f, m, _, hc⟩ := BufferObject.create_ok_logged hcreate
  have hobject := hc.object
  have hbacking : b.backing = .owned st f := by rw [hobject]
  have hcall : .allocate (.ofUsage r.usage) r.width r.height format (.ok st) ∈
      e.after.world.events := by
    refine hw'.events.subset ?_
    rw [hc.events]
    exact List.mem_append_right _ hc.allocation
  refine ⟨b, st, f, format, hb, by rw [hobject], by rw [hobject], hbacking, hcall,
    BufferObject.stride_of_completed hc, BufferObject.rows_of_completed hc, fun hlow => ?_⟩
  have hs := BufferObject.suffices_of_create hD hcreate hbacking
  have hle := (BufferKind.height_le_dimensions r.usage r.width r.height).mpr hlow
  have hfit : rowBytes b.stride b.height ≤ b.byteSize :=
    (BufferObject.rows_of_completed hc).mpr (.inr (UInt32.le_trans hle hs.high))
  have hwithin : rowBytes b.stride b.height ≤ st.length := by
    rw [BufferObject.stride_of_completed hc, hobject]
    exact ((rowBytes_le_iff _ _ _).mpr (.inr hle)).trans hs.long
  refine ⟨hfit, hwithin, fun later t c hobj hid => ?_⟩
  have hapart : e.after.Apart := ((apart_start d).run ops).step op
  obtain ⟨rfl, m', r', l', rfl⟩ := hapart.endures hb hobj hid
  obtain ⟨hwrite, haccess⟩ := rows_accepted (D := D) hobj hfit
  refine ⟨rfl, fun a ha => ?_, hwrite, haccess⟩
  have hrun : (e.after.run D later).2 = ((start d).run D (ops ++ op :: later)).2 :=
    (run_append (start d) ops (op :: later)).symm
  have hheld := storage_held hobj hbacking
  rw [hrun] at hheld ⊢
  obtain rfl : m' = some a := ha
  exact knownMapped D d (ops ++ op :: later) st a hheld

end Session

/-- A driver that allots just what it is asked for, with four bytes to a pixel, and never fails. -/
def Driver.exact : Driver Unit Empty where
  allocate _ kind width height _ _ :=
    let (width, height) := kind.dimensions width height
    (.ok ⟨⟨1⟩, width * 4, width, height, rowBytes (width * 4) height⟩, ())
  map storage _ := (.ok (.mapped storage.key), ())
  unmap _ _ _ := (.ok (), ())
  release _ _ := (.ok (), ())
  importDescriptor _ _ := (.ok ⟨1⟩, ())
  exportHandle _ _ _ := (.ok ⟨1⟩, ())
  duplicate _ _ := (.ok (), ())
  receive _ := (⟨1⟩, ())
  outside i _ := nomatch i
  shutdown _ := ()
  shows
    | .mapped key, i, _ => .storage key i
    | .client key, i, _ => .client key i
  warnsOfFailedUnmap := false

theorem Driver.exact_ample : Driver.exact.Ample := by
  intro key kind width height format x a h
  obtain rfl := Except.ok.inj h
  exact ⟨UInt32.le_refl _, UInt32.le_refl _, le_rfl⟩

namespace Session

/-- A flat cursor is filled row by row in one go. -/
theorem flat_cursor_filled :
    Driver.exact.Ample ∧ let s := ((start ()).run Driver.exact
        [.create "a" 300 20 PixelFormat.xrgb8888.code (Usage.cursor.union .write)]).2
      ∀ data : List UInt8, data.length = 5120 →
        (s.step Driver.exact (.write (.object "a") data)).1.answer = .done := by
  refine ⟨Driver.exact_ample, fun data hd => ?_⟩
  obtain ⟨b, st, f, format, hb, -, -, -, -, -, -, hfit⟩ := rows_fit Driver.exact_ample () []
    (.create "a" 300 20 PixelFormat.xrgb8888.code (Usage.cursor.union .write)) _ rfl trivial
  obtain ⟨-, -, hlater⟩ := hfit fun _ => by decide
  obtain rfl := Option.some.inj hb
  exact (hlater [] _ _ rfl rfl).2.2.1 rfl data hd.le

/-- The rows of a cursor that is twice as high as its storage do not fit. -/
theorem tall_cursor_cut_off :
    ¬ ∀ (σ ι : Type) (D : Driver σ ι) (d : σ) (ops : List (Op ι)) (op : Op ι) (r : Request)
      (b : BufferObject), D.Ample →
      let s := ((start d).run D ops).2
      s.request? op = some r → (s.turn D op).answer.Fulfils →
      (s.turn D op).after.object? r.target = some b → rowBytes b.stride b.height ≤ b.byteSize := by
  intro h
  have hfit := h Unit Empty Driver.exact () []
    (.create "a" 64 128 PixelFormat.xrgb8888.code (Usage.cursor.union .write)) _ _
    Driver.exact_ample rfl trivial rfl
  exact absurd hfit (by decide)

end Session
end DisplayBuffers
