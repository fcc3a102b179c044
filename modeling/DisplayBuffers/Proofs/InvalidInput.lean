import DisplayBuffers.Proofs.Attribution

/-! Which requests are refused as faulty. Whether one is can be told from the request and from what
it is about, before the driver is asked, and the driver is not asked where it is. -/
namespace DisplayBuffers
variable {σ ι α : Type} {D : Driver σ ι} {w w' : World σ}

theorem PixelFormat.ofCode?_code (f : PixelFormat) : ofCode? f.code = some f := by
  cases f <;> decide

/-- A request is refused as faulty just where it is, and the driver is not called then. -/
structure Judged (faulty : Prop) (w : World σ) (errors : List Error) (w' : World σ) : Prop where
  invalid : (∃ x ∈ errors, x.isInvalidInput = true) ↔ faulty
  idle : faulty → w.Logs (fun _ => False) [] w'

namespace Judged
variable {faulty : Prop}

theorem fault {x : Error} (hf : faulty) (hx : x.isInvalidInput = true) (h : w'.events = w.events) :
    Judged faulty w [x] w' :=
  ⟨iff_of_true ⟨x, List.mem_singleton_self x, hx⟩ hf, fun _ => .of_same h⟩

theorem sound {errors : List Error} (hf : ¬ faulty)
    (h : ∀ x ∈ errors, x.isInvalidInput = false) : Judged faulty w errors w' := by
  refine ⟨iff_of_false ?_ hf, fun hf' => absurd hf' hf⟩
  rintro ⟨x, hx, hi⟩
  rw [h x hx] at hi
  cases hi

theorem success (hf : ¬ faulty) : Judged faulty w [] w' := .sound hf nofun

theorem driverFault {step : FailedStep} {c : IoError} (hf : ¬ faulty) :
    Judged faulty w [.allocation step c] w' :=
  .sound hf fun x hx => by rw [List.mem_singleton.mp hx]; rfl

theorem congr {faulty' : Prop} {errors : List Error} (h : Judged faulty w errors w')
    (hf : faulty ↔ faulty') : Judged faulty' w errors w' :=
  ⟨h.invalid.trans hf, fun k => h.idle (hf.mpr k)⟩

/-- What comes before and after a request that is in order. -/
theorem before {errors : List Error} {w'' : World σ} (h : Judged faulty w errors w')
    (k : w'.Logs (fun _ => False) [] w'') : Judged faulty w errors w'' :=
  ⟨h.invalid, fun hf => (h.idle hf).before k⟩

end Judged

namespace BufferObject
variable {b : BufferObject}

/-- Nobody told where the bytes are. -/
def Inaccessible (b : BufferObject) : Prop := ∃ d, b.backing = .borrowed d none

theorem acquire_judged (b : BufferObject) (w : World σ) :
    Judged b.Inaccessible w (errorsOf (b.acquire D w).1) (b.acquire D w).2.2 := by
  rcases h : b.acquire D w with ⟨r, b', w'⟩
  have howned {s d} (hb : b.backing = .owned s d) : ¬ b.Inaccessible := by
    rintro ⟨d', hb'⟩
    cases hb.symm.trans hb'
  cases acquired h with
  | again hb hm => exact .success (howned hb)
  | first hb hm hw => exact .success (howned hb)
  | failed hb hm hw => exact .driverFault (howned hb)
  | lent hb =>
    refine .success ?_
    rintro ⟨d', hb'⟩
    cases hb.symm.trans hb'
  | refused hb => exact .fault ⟨_, hb⟩ rfl rfl

theorem acquireRegion_judged (b : BufferObject) (x y width height : UInt32) (w : World σ) :
    Judged (¬ (x = 0 ∧ y = 0 ∧ width = b.width ∧ height = b.height) ∨ b.Inaccessible) w
      (errorsOf (b.acquireRegion D x y width height w).1)
      (b.acquireRegion D x y width height w).2.2 := by
  rw [acquireRegion]
  split
  · next hr => exact (b.acquire_judged w).congr (by simp [hr])
  · next hr => exact .fault (.inl hr) rfl rfl

theorem withMapping_judged (b : BufferObject) (accesses : List Access) (w : World σ) :
    Judged b.Inaccessible w (errorsOf (b.withMapping D accesses w).1)
      (b.withMapping D accesses w).2.2 := by
  have h := b.acquire_judged (D := D) w
  rw [withMapping]
  rcases hq : b.acquire D w with ⟨e | a, b', w'⟩ <;> rw [hq] at h
  · exact h
  · refine .success fun hb => ?_
    obtain ⟨x, hx, _⟩ := h.invalid.mpr hb
    cases hx

theorem write_judged (b : BufferObject) (data : List UInt8) (w : World σ) :
    Judged (b.mapping = none ∨ b.byteSize < data.length) w (errorsOf (b.write D data w).1)
      (b.write D data w).2 := by
  rw [write]
  split
  · next hm => exact .fault (.inl hm) rfl rfl
  · next a hm =>
    split
    · next hl => exact .fault (.inr hl) rfl rfl
    · next hl => exact .success (by simp [hm, Nat.le_of_not_lt hl])

theorem share_judged (b : BufferObject) (w : World σ) :
    Judged (b.handle.isNull = true ∧ b.descriptor? = none) w (errorsOf (b.share D w).1)
      (b.share D w).2 := by
  rcases h : b.share D w with ⟨r, w'⟩
  cases shared h with
  | nothing hn hd => exact .fault ⟨hn, hd⟩ rfl rfl
  | duplicated hn hd hw => exact .success (by simp [hd])
  | notDuplicated hn hd hw => exact .driverFault (by simp [hd])
  | exported hn hw => exact .success (by simp [hn])
  | notExported hn hw => exact .driverFault (by simp [hn])

theorem create_judged (width height : UInt32) (code : FormatCode) (usage : Usage) (w : World σ) :
    Judged (PixelFormat.ofCode? code = none) w
      (errorsOf (create D width height code usage w).1) (create D width height code usage w).2 := by
  rcases h : create D width height code usage w with ⟨r, w'⟩
  cases created h with
  | unsupported hf => exact .fault hf rfl rfl
  | notAllocated hf | notExported hf | notMapped hf => exact .driverFault (by simp [hf])
  | unmapped hf | mapped hf => exact .success (by simp [hf])

end BufferObject

theorem Device.createBuffer_judged (width height : UInt32) (fourcc : Fourcc)
    (modifiers : List Modifier) (w : World σ) :
    Judged (PixelFormat.ofCode? fourcc.code = none ∨
        modifiers ≠ [] ∧ ∀ m ∈ modifiers, m.isTrivial = false) w
      (errorsOf (createBuffer D width height fourcc modifiers w).1)
      (createBuffer D width height fourcc modifiers w).2 := by
  have h := BufferObject.create_judged (D := D) width height fourcc.code
    (Usage.scanout.union .rendering) w
  unfold createBuffer
  split
  · exact h.congr (by simp)
  · next m rest =>
    split
    · next hm =>
      obtain ⟨x, hx, ht⟩ := List.any_eq_true.mp hm
      refine h.congr (or_iff_left ?_).symm
      rintro ⟨_, hall⟩
      exact absurd ht (by simp [hall x hx])
    · next hm =>
      refine .fault (.inr ⟨List.cons_ne_nil _ _, fun x hx => ?_⟩) rfl rfl
      simpa using fun ht => hm (List.any_eq_true.mpr ⟨x, hx, ht⟩)

/-- What a sharing layer or the client tells of a buffer cannot be imported. -/
def ImportSource.Faulty {δ : Type} : ImportSource δ → Prop
  | .external none => True
  | .external (some r) => maxPlanes < r.planes.length
  | .descriptor _ _ _ _ _ => False
  | .planes ds strides _ _ _ modifier =>
    modifier.isTrivial = false ∨ ds.length = 0 ∨ maxPlanes < ds.length ∨
      strides.length ≠ ds.length

theorem BufferObject.importFrom_judged (source : ImportSource Dmabuf) (w : World σ) :
    Judged source.Faulty w (errorsOf (importFrom D source w).1) (importFrom D source w).2 := by
  cases source with
  | external resource =>
    cases resource with
    | none => exact .fault trivial rfl rfl
    | some r =>
      simp only [importFrom, importExternal]
      split
      · next h => exact .fault h rfl rfl
      · next h => exact .success h
  | descriptor d width height stride format =>
    simp only [importFrom]
    split
    · exact .driverFault not_false
    · exact .success not_false
  | planes ds strides width height format modifier =>
    simp only [importFrom, importPlanes]
    split
    · next h => exact .fault (.inl (by simpa using h)) rfl rfl
    next hm =>
    split
    · next h => exact .fault (.inr (h.imp_right .inl)) rfl rfl
    next hc =>
    split
    · next h => exact .fault (.inr (.inr (.inr h))) rfl rfl
    next hs =>
    have hsound : ¬ (ImportSource.planes ds strides width height format modifier).Faulty := by
      rintro (h | h | h | h)
      · exact hm (by simp [h])
      · exact hc (.inl h)
      · exact hc (.inr h)
      · exact hs h
    split
    · exact .success hsound
    · exact .driverFault hsound

namespace Surface

theorem create_judged (width height : UInt32) (code : FormatCode) (usage : Usage) (w : World σ) :
    Judged (PixelFormat.ofCode? code = none) w (errorsOf (create width height code usage)) w := by
  rw [create]
  split
  · next h => exact .fault h rfl rfl
  · next h => exact .success (by simp [h])

theorem replace_judged (x : Surface) (i : Nat) (y : Option SlotBuffer) (w : World σ) :
    Judged (slotCount ≤ i) w (errorsOf (x.replace D i y w).1) (x.replace D i y w).2.2 := by
  by_cases hi : i < slotCount
  · rw [x.replace_ok D hi]
    exact .success (Nat.not_le_of_lt hi)
  · rw [(x.replace_error D hi y w).1]
    simp only [replace, hi, if_false]
    have hfault : Judged (slotCount ≤ i) w [.invalidArgument .slotIndexOutOfRange] w :=
      .fault (Nat.le_of_not_lt hi) rfl rfl
    refine hfault.before ?_
    split
    · exact .close w _
    · exact .refl w

/-- Surfaces have a format that buffers can be allocated with, so that only the index can be at
fault. -/
theorem allocate_judged (x : Surface) (i : Nat) (w : World σ) :
    Judged (slotCount ≤ i) w (errorsOf (x.allocate D i w).1) (x.allocate D i w).2.2 := by
  by_cases hi : i < slotCount
  · have h := BufferObject.create_judged (D := D) x.width x.height x.format.code
      (x.usage.union .write) (x.clear D i w).2
    rw [PixelFormat.ofCode?_code] at h
    refine .sound (Nat.not_le_of_lt hi) fun e he => ?_
    rw [x.allocate_of_lt D hi] at he
    split at he
    · cases he
    · next hq =>
      rw [hq] at h
      obtain rfl := List.mem_singleton.mp he
      by_contra hn
      simpa using h.invalid.mp ⟨e, List.mem_singleton_self e, by simpa using hn⟩
  · simp only [allocate, hi, if_false]
    exact .fault (Nat.le_of_not_lt hi) rfl rfl

theorem setFront_judged (x : Surface) (front : Option Nat) (w : World σ) :
    Judged (∃ i, front = some i ∧ slotCount ≤ i) w (errorsOf (x.setFront front).1) w := by
  rw [setFront]
  cases front with
  | none => exact .success (by simp)
  | some i =>
    by_cases hi : i < slotCount
    · simp only [Option.all_some, hi, decide_true, if_true]
      exact .success (by simp [hi])
    · simp only [Option.all_some, hi, decide_false, Bool.false_eq_true, if_false]
      exact .fault ⟨i, rfl, Nat.le_of_not_lt hi⟩ rfl rfl

end Surface
end DisplayBuffers
