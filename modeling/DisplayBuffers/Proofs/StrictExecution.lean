import DisplayBuffers.Dumb.Driver
import DisplayBuffers.Proofs.MappingState
import DisplayBuffers.Proofs.PlaneImport
import DisplayBuffers.Proofs.Slots
import DisplayBuffers.Proofs.Whereabouts

/-! A strict reading of the operations. Counts and sizes are words; slots, planes, descriptors and
strides are read by index. Where a result is not a word, or where there is nothing at an index, the
operation is stuck and there is no result at all. Apart from this it does what it always does. -/
namespace DisplayBuffers.Strict
open Session (Target Op Answer Outcome)
variable {σ ι κ : Type}

/-- The number of words of 64 bits. -/
def wordCount : Nat := 2 ^ 64

def add? (a b : Nat) : Option Nat := if a + b < wordCount then some (a + b) else none

def sub? (a b : Nat) : Option Nat := if b ≤ a then some (a - b) else none

def mul? (a b : Nat) : Option Nat := if a * b < wordCount then some (a * b) else none

theorem sub?_one {a : Nat} (h : 0 < a) : sub? a 1 = some (a - 1) := if_pos h

/-- The product of two halves of a word is a word. -/
theorem rowBytes_lt (stride rows : UInt32) : rowBytes stride rows < wordCount := by
  have hs := stride.toNat_lt
  have hr := rows.toNat_lt
  calc rowBytes stride rows ≤ (2 ^ 32 - 1) * (2 ^ 32 - 1) :=
        Nat.mul_le_mul (Nat.le_pred_of_lt hs) (Nat.le_pred_of_lt hr)
    _ < wordCount := by decide

theorem mul?_rows (stride rows : UInt32) :
    mul? stride.toNat rows.toNat = some (rowBytes stride rows) :=
  if_pos (rowBytes_lt stride rows)

section Objects
variable (D : Driver σ ι) (b : BufferObject) (w : World σ)

def retain? (a : Address) : Option BufferObject :=
  (add? b.references 1).map fun references => { b with mapping := some a, references }

def acquire? : Option (Except Error Address × BufferObject × World σ) :=
  match b.backing, b.mapping with
  | .owned _ _, some a => (retain? b a).map fun b => (.ok a, b, w)
  | .owned storage _, none =>
    match w.map D storage with
    | (.ok a, w) => (retain? b a).map fun b => (.ok a, b, w)
    | (.error e, w) => some (.error (.allocation .mapStorage e), b, w)
  | .borrowed _ (some a), _ => (retain? b a).map fun b => (.ok a, b, w)
  | .borrowed _ none, _ => some (.error (.invalidArgument .noCpuStorage), b, w)

section
variable {D b w} {a : Address}

theorem retain?_of_lt (h : b.references + 1 < wordCount) (a : Address) :
    retain? b a = some (b.retain a) := by
  rw [retain?, add?, if_pos h]
  rfl

theorem retain?_of_le (h : wordCount ≤ b.references + 1) (a : Address) : retain? b a = none := by
  rw [retain?, add?, if_neg (Nat.not_lt.mpr h)]
  rfl

/-- A reference can be taken for as long as it can be counted. -/
theorem acquire?_of_lt (h : ∀ a, (b.acquire D w).1 = .ok a → b.references + 1 < wordCount) :
    acquire? D b w = some (b.acquire D w) := by
  rcases hq : b.acquire D w with ⟨e | a, b', w'⟩
  · cases BufferObject.acquired hq with
    | failed hb hm hw => simp only [acquire?, hb, hm, hw]
    | refused hb => simp only [acquire?, hb]
  · have hr := retain?_of_lt (h a (congrArg (·.1) hq)) a
    cases BufferObject.acquired hq with
    | again hb hm => simp only [acquire?, hb, hm, hr, Option.map_some]
    | first hb hm hw => simp only [acquire?, hb, hm, hw, hr, Option.map_some]
    | lent hb => simp only [acquire?, hb, hr, Option.map_some]

theorem acquire?_of_le (ha : (b.acquire D w).1 = .ok a) (h : wordCount ≤ b.references + 1) :
    acquire? D b w = none := by
  rcases hq : b.acquire D w with ⟨e | a', b', w'⟩
  · rw [hq] at ha
    cases ha
  · have hr := retain?_of_le h a'
    cases BufferObject.acquired hq with
    | again hb hm => simp only [acquire?, hb, hm, hr, Option.map_none]
    | first hb hm hw => simp only [acquire?, hb, hm, hw, hr, Option.map_none]
    | lent hb => simp only [acquire?, hb, hr, Option.map_none]

end

def acquireRegion? (x y width height : UInt32) :
    Option (Except Error Address × BufferObject × World σ) :=
  if x = 0 ∧ y = 0 ∧ width = b.width ∧ height = b.height then acquire? D b w
  else some (.error (.invalidArgument .partialRegion), b, w)

def release? : Option (BufferObject × World σ) :=
  match b.mapping with
  | none => some (b, w)
  | some a =>
    (sub? b.references 1).map fun left =>
      if left = 0 then
        ({ b with mapping := none, references := left },
          match b.backing with
          | .owned storage _ => w.unmap D storage a
          | .borrowed _ _ => w)
      else ({ b with references := left }, w)

/-- Where there is a mapping there is a reference to give back. -/
theorem release?_of_counted (h : b.Counted) : release? D b w = some (b.release D w) := by
  rw [release?, BufferObject.release]
  cases hm : b.mapping with
  | none => rfl
  | some a => exact congrArg (Option.map _) (sub?_one (h.pos hm))

def withMapping? (accesses : List BufferObject.Access) :
    Option (Except Error (List BufferObject.Seen) × BufferObject × World σ) :=
  (acquire? D b w).bind fun
    | (.error e, b, w) => some (.error e, b, w)
    | (.ok a, b, w) =>
      let (seen, w) := b.accessAll D a accesses w
      (release? D b w).map fun (b, w) => (.ok seen, b, w)

section
variable {D b w} (accesses : List BufferObject.Access)

theorem withMapping?_of_lt (hc : b.Counted)
    (h : ∀ a, (b.acquire D w).1 = .ok a → b.references + 1 < wordCount) :
    withMapping? D b w accesses = some (b.withMapping D accesses w) := by
  rw [withMapping?, acquire?_of_lt h, BufferObject.withMapping]
  rcases hq : b.acquire D w with ⟨e | a, b', w'⟩
  · rfl
  · simp only [Option.bind_some, release?_of_counted D b' _ (hc.acquire_ok hq).1, Option.map_some]

theorem withMapping?_of_le {a : Address} (ha : (b.acquire D w).1 = .ok a)
    (h : wordCount ≤ b.references + 1) : withMapping? D b w accesses = none := by
  rw [withMapping?, acquire?_of_le ha h, Option.bind_none]

end

/-- The handle is that of the plane with index 0. -/
def share? : Option (Except Error Dmabuf × World σ) :=
  b.planes[0]?.map fun p =>
    if p.handle.isNull then
      match b.descriptor? with
      | none => (.error (.invalidArgument .noKernelHandle), w)
      | some d =>
        match w.duplicate D d with
        | (.ok d, w) => (.ok d, w)
        | (.error e, w) => (.error (.allocation .duplicateDescriptor e), w)
    else
      match w.exportHandle D p.handle .closeOnExec with
      | (.ok d, w) => (.ok d, w)
      | (.error e, w) => (.error (.allocation .exportHandle e), w)

theorem share?_of_planes (h : 1 ≤ b.planeCount) : share? D b w = some (b.share D w) := by
  obtain ⟨p, ps, hp⟩ := List.exists_cons_of_length_pos h
  have hhandle : b.handle = p.handle := by simp [BufferObject.handle, hp]
  rw [share?, BufferObject.share, hhandle, hp]
  rfl

end Objects

section Making
variable (D : Driver σ ι) (width height : UInt32)

def create? (code : FormatCode) (usage : Usage) (w : World σ) :
    Option (Except Error BufferObject × World σ) :=
  match PixelFormat.ofCode? code with
  | none => some (.error (.invalidArgument .unsupportedFormat), w)
  | some format =>
    match w.allocate D (.ofUsage usage) width height format with
    | (.error e, w) => some (.error (.allocation .allocateStorage e), w)
    | (.ok storage, w) =>
      match w.hold.exportHandle D storage.handle .closeOnExec with
      | (.error e, w) =>
        some (.error (.allocation .exportHandle e), (w.release D storage).letGo D)
      | (.ok d, w) =>
        (mul? storage.stride.toNat storage.height.toNat).bind fun byteSize =>
          let (id, w) := w.freshId
          let w := w.hold
          let b : BufferObject :=
            { id, width, height, byteSize
              format := format.code
              planes := [⟨storage.handle, storage.stride⟩]
              backing := .owned storage d
              mapping := none
              references := 0
              locked := false }
          if usage.contains .write then
            (acquire? D b w).map fun
              | (.ok _, b, w) => (.ok b, w)
              | (.error e, b, w) => (.error e, b.destroy D w)
          else some (.ok b, w)

theorem create?_eq (code : FormatCode) (usage : Usage) (w : World σ) :
    create? D width height code usage w =
      some (BufferObject.create D width height code usage w) := by
  rw [create?, BufferObject.create]
  cases PixelFormat.ofCode? code with
  | none => rfl
  | some format =>
    dsimp only
    rcases w.allocate D (.ofUsage usage) width height format with ⟨e | storage, w₁⟩
    · rfl
    · dsimp only
      rcases w₁.hold.exportHandle D storage.handle .closeOnExec with ⟨e | d, w₂⟩
      · rfl
      · simp only [mul?_rows, Option.bind_some]
        split
        · rw [acquire?_of_lt fun _ _ => by simp [wordCount]]
          rfl
        · rfl

def createBuffer? (fourcc : Fourcc) (modifiers : List Modifier) (w : World σ) :
    Option (Except Error BufferObject × World σ) :=
  let made := create? D width height fourcc.code (Usage.scanout.union .rendering) w
  match modifiers with
  | [] => made
  | m :: _ =>
    if modifiers.any (·.isTrivial) then made else some (.error (.unsupportedModifier m), w)

theorem createBuffer?_eq (fourcc : Fourcc) (modifiers : List Modifier) (w : World σ) :
    createBuffer? D width height fourcc modifiers w =
      some (Device.createBuffer D width height fourcc modifiers w) := by
  unfold createBuffer? Device.createBuffer
  rw [create?_eq]
  cases modifiers with
  | nil => rfl
  | cons m ms =>
    dsimp only
    split <;> rfl

/-- The stride is that of the plane with index 0. -/
def borrow? (format : FormatCode) (planes : List Plane) (descriptor : Option Dmabuf)
    (address : Option Address) (w : World σ) : Option (BufferObject × World σ) :=
  planes[0]?.bind fun p => (mul? p.stride.toNat height.toNat).map fun byteSize =>
    let (id, w) := w.freshId
    ({ id, width, height, format, planes, byteSize
       backing := .borrowed descriptor address
       mapping := none
       references := 0
       locked := false }, w.hold)

theorem borrow?_of_planes {planes : List Plane} (h : 1 ≤ planes.length) (format : FormatCode)
    (descriptor : Option Dmabuf) (address : Option Address) (w : World σ) :
    borrow? width height format planes descriptor address w =
      some (BufferObject.borrow width height format planes descriptor address w) := by
  obtain ⟨p, ps, rfl⟩ := List.exists_cons_of_length_pos h
  simp only [borrow?, List.getElem?_cons_zero, Option.bind_some, mul?_rows, Option.map_some]
  rfl

/-- Converts so many descriptors from an index on. -/
def convertPlanes? (ds : List Dmabuf) (strides : List UInt32) : Nat → Nat → World σ →
    Option (Except (IoError × List Plane) (List Plane) × World σ)
  | 0, _, w => some (.ok [], w)
  | n + 1, i, w =>
    ds[i]?.bind fun d => strides[i]?.bind fun stride =>
      match w.importDescriptor D d with
      | (.error e, w) => some (.error (e, []), w)
      | (.ok handle, w) => (convertPlanes? ds strides n (i + 1) w).map fun
        | (.ok planes, w) => (.ok (⟨handle, stride⟩ :: planes), w)
        | (.error (e, planes), w) => (.error (e, ⟨handle, stride⟩ :: planes), w)

/-- Reading two lists of one length by index comes to taking their elements in pairs. -/
theorem convertPlanes?_eq (before : List Dmabuf) (before' : List UInt32)
    (hb : before'.length = before.length) {ds : List Dmabuf} {strides : List UInt32}
    (hl : strides.length = ds.length) (w : World σ) :
    convertPlanes? D (before ++ ds) (before' ++ strides) ds.length before.length w =
      some (BufferObject.convertPlanes D (ds.zip strides) w) := by
  induction ds generalizing before before' strides w with
  | nil => rfl
  | cons d ds ih =>
    obtain _ | ⟨stride, strides⟩ := strides
    · cases hl
    have hd : (before ++ d :: ds)[before.length]? = some d := by simp
    have hs : (before' ++ stride :: strides)[before.length]? = some stride := by simp [← hb]
    rw [List.length_cons, convertPlanes?, hd, hs, List.zip_cons_cons, BufferObject.convertPlanes]
    simp only [Option.bind_some]
    rcases w.importDescriptor D d with ⟨e | handle, w'⟩
    · rfl
    · have hrest := ih (before ++ [d]) (before' ++ [stride]) (by simp [hb]) (Nat.succ.inj hl) w'
      simp only [List.append_assoc, List.singleton_append, List.length_append,
        List.length_singleton] at hrest
      dsimp only
      rw [hrest]
      rfl

def importExternal? (resource : Option SharedBuffer) (w : World σ) :
    Option (Except Error BufferObject × World σ) :=
  match resource with
  | none => some (.error (.invalidArgument .notShared), w)
  | some r =>
    if maxPlanes < r.planes.length then some (.error (.invalidArgument .tooManyPlanes), w)
    else
      let planes := if 1 < r.planes.length then r.planes else [⟨r.handle, r.stride⟩]
      (borrow? r.width r.height r.format.canonical planes none none w).map fun (b, w) => (.ok b, w)

def importPlanes? (ds : List Dmabuf) (strides : List UInt32) (format : FormatCode)
    (modifier : Modifier) (w : World σ) : Option (Except Error BufferObject × World σ) :=
  if !modifier.isTrivial then some (.error (.invalidArgument .unsupportedLayout), w)
  else if ds.length = 0 ∨ maxPlanes < ds.length then
    some (.error (.invalidArgument .planeCountOutOfRange), w)
  else if strides.length ≠ ds.length then
    some (.error (.invalidArgument .strideCountMismatch), w)
  else
    (convertPlanes? D ds strides ds.length 0 w).bind fun
      | (.ok planes, w) =>
        (borrow? width height format.canonical planes none none w).map fun (b, w) => (.ok b, w)
      | (.error (e, converted), w) =>
        some (.error (.allocation .importPlane e),
          if converted.isEmpty then w else w.warn (.importAborted (converted.map (·.handle))))

def importFrom? (source : ImportSource Dmabuf) (w : World σ) :
    Option (Except Error BufferObject × World σ) :=
  match source with
  | .external resource => importExternal? resource w
  | .descriptor d width height stride format =>
    match w.importDescriptor D d with
    | (.error e, w) => some (.error (.allocation .importDescriptor e), w)
    | (.ok handle, w) =>
      (borrow? width height format.canonical [⟨handle, stride⟩] none none w).map fun (b, w) =>
        (.ok b, w)
  | .planes ds strides width height format modifier =>
    importPlanes? D width height ds strides format modifier w

theorem importExternal?_eq (resource : Option SharedBuffer) (w : World σ) :
    importExternal? resource w = some (BufferObject.importExternal resource w) := by
  cases resource with
  | none => rfl
  | some r =>
    rw [importExternal?, BufferObject.importExternal]
    split
    · rfl
    · dsimp only
      rw [borrow?_of_planes]
      · rfl
      · split
        · next hn => exact hn.le
        · exact Nat.le_refl 1

/-- The checks of the lengths are what keeps the indices within the lists. -/
theorem importPlanes?_eq (ds : List Dmabuf) (strides : List UInt32) (format : FormatCode)
    (modifier : Modifier) (w : World σ) :
    importPlanes? D width height ds strides format modifier w =
      some (BufferObject.importPlanes D ds strides width height format modifier w) := by
  rw [importPlanes?, BufferObject.importPlanes]
  split
  · rfl
  split
  · rfl
  split
  · rfl
  next hcount hl =>
  have hconvert := convertPlanes?_eq D [] [] rfl (of_not_not hl) w
  rw [List.nil_append, List.nil_append] at hconvert
  rw [List.length_nil] at hconvert
  rw [hconvert, Option.bind_some]
  rcases hp : BufferObject.convertPlanes D (ds.zip strides) w with ⟨⟨e, converted⟩ | planes, w'⟩
  · rfl
  · dsimp only
    rw [borrow?_of_planes]
    · rfl
    · rw [BufferObject.convertPlanes_length (of_not_not hl) hp]
      omega

theorem importFrom?_eq (source : ImportSource Dmabuf) (w : World σ) :
    importFrom? D source w = some (BufferObject.importFrom D source w) := by
  cases source with
  | external resource => exact importExternal?_eq resource w
  | descriptor d width height stride format =>
    rw [importFrom?, BufferObject.importFrom]
    rcases w.importDescriptor D d with ⟨e | handle, w'⟩
    · rfl
    · dsimp only
      rw [borrow?_of_planes]
      · rfl
      · exact Nat.le_refl 1
  | planes ds strides width height format modifier =>
    exact importPlanes?_eq D width height ds strides format modifier w

end Making

section Surfaces
variable (D : Driver σ ι) (x : Surface) (index : Nat)

def clear? (w : World σ) : Option (Surface × World σ) :=
  x.slots[index]?.map fun
    | none => (x, w)
    | some old =>
      let w := if old.locked then w.warn (.replacedLocked index old.id) else w
      (x.withSlot index none, old.destroy D w)

section
variable {index}

theorem getElem?_slots (hi : index < slotCount) : x.slots[index]? = some (x.slot? index) := by
  simp [Surface.slot?, hi]

theorem clear?_of_lt (hi : index < slotCount) (w : World σ) :
    clear? D x index w = some (x.clear D index w) := by
  rw [clear?, getElem?_slots x hi, Surface.clear]
  cases x.slot? index <;> rfl

end

/-- Writes to the slot with an index. -/
def fill? (b : BufferObject) : Option Surface :=
  x.slots[index]?.map fun _ => x.withSlot index (some b)

theorem fill?_of_lt {index : Nat} (hi : index < slotCount) (b : BufferObject) :
    fill? x index b = some (x.withSlot index (some b)) := by
  rw [fill?, getElem?_slots x hi, Option.map_some]

def replace? (buffer : Option SlotBuffer) (w : World σ) :
    Option (Except Error Unit × Surface × World σ) :=
  if index < slotCount then
    (clear? D x index w).bind fun (x, w) =>
      match buffer with
      | none => some (.ok (), x, w)
      | some y =>
        (borrow? x.width x.height x.format.code [⟨.null, y.stride⟩] y.descriptor y.address w).bind
          fun (b, w) => (fill? x index b).map fun x => (.ok (), x, w)
  else
    let w := match buffer.bind (·.descriptor) with
      | some d => w.close d
      | none => w
    some (.error (.invalidArgument .slotIndexOutOfRange), x, w)

def allocate? (w : World σ) : Option (Except Error BufferId × Surface × World σ) :=
  if index < slotCount then
    (clear? D x index w).bind fun (x, w) =>
      (create? D x.width x.height x.format.code (x.usage.union .write) w).bind fun
        | (.ok b, w) => (fill? x index b).map fun x => (.ok b.id, x, w)
        | (.error e, w) => some (.error e, x, w)
  else some (.error (.invalidArgument .slotIndexOutOfRange), x, w)

theorem replace?_eq (buffer : Option SlotBuffer) (w : World σ) :
    replace? D x index buffer w = some (x.replace D index buffer w) := by
  rw [replace?, Surface.replace]
  split
  · next hi =>
    rw [clear?_of_lt D x hi, Option.bind_some]
    cases buffer with
    | none => rfl
    | some y =>
      dsimp only
      rw [borrow?_of_planes]
      · simp only [Option.bind_some, fill?_of_lt _ hi, Option.map_some]
      · exact Nat.le_refl 1
  · rfl

theorem allocate?_eq (w : World σ) : allocate? D x index w = some (x.allocate D index w) := by
  rw [allocate?, Surface.allocate]
  split
  · next hi =>
    simp only [clear?_of_lt D x hi, Option.bind_some, create?_eq]
    generalize BufferObject.create _ _ _ _ _ _ = made
    rcases made with ⟨e | b, w'⟩
    · rfl
    · exact congrArg (Option.map _) (fill?_of_lt _ hi b)
  · rfl

def lockFront? : Option (Option BufferId × Surface) :=
  match x.front with
  | none => some (none, x)
  | some index =>
    x.slots[index]?.map fun
      | none => (none, x)
      | some b => (some b.id, x.withSlot index (some { b with locked := true }))

theorem lockFront?_of_lt (h : ∀ i, x.front = some i → i < slotCount) :
    lockFront? x = some x.lockFront := by
  rw [lockFront?, Surface.lockFront]
  cases hf : x.front with
  | none => rfl
  | some i =>
    dsimp only
    rw [getElem?_slots x (h i hf)]
    cases x.slot? i <;> rfl

end Surfaces

namespace Dumb

/-- The number of bytes mapped is a product of words. -/
def allocate? (K : Dumb.Kernel κ ι) (kind : BufferKind) (width height : UInt32)
    (c : Dumb.Connection κ) : Option (Except IoError Allocation × Dumb.Connection κ) :=
  let (width, height) := kind.dimensions width height
  match c.ask (K.createDumb width height Dumb.bitsPerPixel 0)
      (.createDumb width height Dumb.bitsPerPixel 0) with
  | (.error e, c) => some (.error e, c)
  | (.ok x, c) =>
    (mul? x.pitch.toNat height.toNat).map fun length =>
      (.ok { handle := x.handle, stride := x.pitch, width := x.width, height := x.height, length },
        c)

theorem allocate?_eq (K : Dumb.Kernel κ ι) (kind : BufferKind) (width height : UInt32)
    (c : Dumb.Connection κ) :
    allocate? K kind width height c = some (Dumb.allocate K kind width height c) := by
  rw [allocate?, Dumb.allocate]
  dsimp only
  rcases c.ask _ _ with ⟨e | x, c'⟩
  · rfl
  · dsimp only
    rw [mul?_rows]
    rfl

end Dumb

section Sessions
variable (D : Driver σ ι) (s : Session σ)

def onObject? (target : Target)
    (f : BufferObject → World σ → Option (Answer × BufferObject × World σ)) :
    Option (Outcome × Session σ) :=
  match s.object? target with
  | none => some (s.onObject target fun b w => (.malformed, b, w))
  | some b => (f b s.world).map fun worked => s.onObject target fun _ _ => worked

def onSurface? (name : String) (f : Surface → World σ → Option (Answer × Surface × World σ)) :
    Option (Outcome × Session σ) :=
  match s.surfaces.find? name with
  | none => some s.refuse
  | some x => (f x s.world).map fun worked => s.onSurface name fun _ _ => worked

def onDevice? (f : Session σ → Option (Outcome × Session σ)) : Option (Outcome × Session σ) :=
  if s.device then f s else some s.refuse

def work? (op : Op ι) (b : BufferObject) (w : World σ) :
    Option (Answer × BufferObject × World σ) :=
  match op with
  | .acquire _ => (acquire? D b w).map fun
    | (.ok a, b, w) => (.address a, b, w)
    | (.error e, b, w) => (.failed e, b, w)
  | .acquireRegion _ x y width height => (acquireRegion? D b w x y width height).map fun
    | (.ok a, b, w) => (.address a, b, w)
    | (.error e, b, w) => (.failed e, b, w)
  | .release _ => (release? D b w).map fun (b, w) => (.done, b, w)
  | .withMapping _ accesses => (withMapping? D b w accesses).map fun
    | (.ok seen, b, w) => (.accesses seen, b, w)
    | (.error e, b, w) => (.failed e, b, w)
  | _ => some (op.work D b w)

def sharing? (b : BufferObject) (w : World σ) : Option (Answer × BufferObject × World σ) :=
  (share? D b w).map fun
    | (.ok d, w) => (.dmabuf d, b, w)
    | (.error e, w) => (.failed e, b, w)

def replacing? (index : Nat) (buffer : Option SlotBuffer) (x : Surface) (w : World σ) :
    Option (Answer × Surface × World σ) :=
  (replace? D x index buffer w).map fun (outcome, x, w) => (.ofUnit outcome, x, w)

def locking? (x : Surface) (w : World σ) : Option (Answer × Surface × World σ) :=
  (lockFront? x).map fun (id, x) => (.identity id, x, w)

def step? (op : Op ι) : Option (Outcome × Session σ) :=
  match op with
  | .create name width height format usage => onDevice? s fun s =>
    (create? D width height format usage s.world).map (s.addObject D name)
  | .createBuffer name width height fourcc modifiers => onDevice? s fun s =>
    (createBuffer? D width height fourcc modifiers s.world).map (s.addObject D name)
  | .importFrom name source => onDevice? s fun s =>
    match source.resolve? s.descriptors.find? with
    | none => some s.refuse
    | some source => (importFrom? D source s.world).map (s.addObject D name)
  | .share target name => (onObject? s target (sharing? D)).map fun (outcome, s) =>
    match outcome.answer with
    | .dmabuf d => (outcome, s.keepDescriptor name d)
    | _ => (outcome, s)
  | .replace surface index buffer =>
    match buffer with
    | none => onSurface? s surface (replacing? D index none)
    | some y =>
      match s.surfaces.find? surface, s.slotBuffer? y with
      | some _, some z =>
        onSurface? { s with descriptors := y.descriptor.elim s.descriptors s.descriptors.erase }
          surface (replacing? D index (some z))
      | _, _ => some s.refuse
  | .allocate surface index => onSurface? s surface fun x w => (allocate? D x index w).map fun
    | (.ok id, x, w) => (.identity (some id), x, w)
    | (.error e, x, w) => (.failed e, x, w)
  | .lockFront surface name => (onSurface? s surface locking?).map fun (outcome, s) =>
    match outcome.answer, name with
    | .identity (some id), some name => (outcome, { s with ids := s.ids.insert name id })
    | _, _ => (outcome, s)
  | op =>
    match op.target? with
    | some target => onObject? s target (work? D op)
    | none => some (s.step D op)

end Sessions

def run? (D : Driver σ ι) (s : Session σ) : List (Op ι) → Option (List Outcome × Session σ)
  | [] => some ([], s)
  | op :: ops =>
    (step? D s op).bind fun (outcome, s) =>
      (run? D s ops).map fun (outcomes, s) => (outcome :: outcomes, s)

end DisplayBuffers.Strict
