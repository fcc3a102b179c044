import DisplayBuffers.Device
import DisplayBuffers.Proofs.PlaneImport
import Mathlib.Logic.Equiv.Basic

/-! Ids are only names. When they are permuted, buffer objects and surfaces do the same with the
driver, the bytes and the descriptors as before, and every id in what comes of it is permuted in the
same way. The permutation has to leave alone the ids that have not been given out yet. -/
namespace DisplayBuffers
variable {σ ι : Type} (D : Driver σ ι) (π : Equiv.Perm BufferId)

def Warning.relabel : Warning → Warning
  | .destroyedLocked id => .destroyedLocked (π id)
  | .replacedLocked index id => .replacedLocked index (π id)
  | x => x

def Event.relabel : Event → Event
  | .warn x => .warn (x.relabel π)
  | e => e

/-- The id of the object that a warning is about. -/
def Warning.id? : Warning → Option BufferId
  | .destroyedLocked id | .replacedLocked _ id => some id
  | _ => none

theorem Warning.relabel_eq_self {x : Warning} (h : ∀ id, x.id? = some id → π id = id) :
    x.relabel π = x := by
  cases x with
  | destroyedLocked id | replacedLocked index id => rw [relabel, h id rfl]
  | _ => rfl

/-- Complaints about failed calls name no object. -/
theorem Event.id?_of_complaint {e : Event} {x : Warning} (h : x ∈ e.complaints D) :
    x.id? = none := by
  unfold complaints at h
  split at h
  · split at h
    · rw [List.mem_singleton.mp h]
      rfl
    · cases h
  · rw [List.mem_singleton.mp h]
    rfl
  · cases h

theorem Event.logged_relabel {e : Event} (h : e.relabel π = e) :
    (e.logged D).map (relabel π) = e.logged D := by
  rw [logged, List.map_cons, h, List.map_map]
  refine congrArg _ (List.map_congr_left fun x hx => ?_)
  have hnone := id?_of_complaint D hx
  rw [Function.comp_apply, relabel, Warning.relabel_eq_self π fun id hid => by simp [hnone] at hid]

def BufferObject.relabel (b : BufferObject) : BufferObject := { b with id := π b.id }

def Surface.relabel (x : Surface) : Surface :=
  { x with slots := x.slots.map (Option.map (BufferObject.relabel π)) }

namespace World
variable (w : World σ)

/-- The same world, but for the ids in its log. -/
def relabel : World σ := { w with events := w.events.map (Event.relabel π) }

@[simp] theorem record_relabel (e : Event) :
    (w.relabel π).record (e.relabel π) = (w.record e).relabel π := by
  simp only [record, relabel, List.map_append, List.map_singleton]

/-- An event without an id. -/
theorem record_relabel_of_eq {e : Event} (h : e.relabel π = e) :
    (w.relabel π).record e = (w.record e).relabel π := by
  rw [← record_relabel, h]

theorem warn_relabel (x : Warning) : (w.relabel π).warn (x.relabel π) = (w.warn x).relabel π :=
  w.record_relabel π (.warn x)

theorem close_relabel (d : Dmabuf) : (w.relabel π).close d = (w.close d).relabel π :=
  record_relabel_of_eq π { w with descriptors := w.descriptors.erase d } rfl

theorem outside_relabel (i : ι) : (w.relabel π).outside D i = (w.outside D i).relabel π := rfl

theorem hold_relabel : (w.relabel π).hold = w.hold.relabel π := rfl

theorem letGo_relabel : (w.relabel π).letGo D = (w.letGo D).relabel π := rfl

theorem receive_relabel :
    (w.relabel π).receive D = ((w.receive D).1, (w.receive D).2.relabel π) := rfl

theorem allocate_relabel (kind : BufferKind) (width height : UInt32) (format : PixelFormat) :
    (w.relabel π).allocate D kind width height format =
      ((w.allocate D kind width height format).1,
        (w.allocate D kind width height format).2.relabel π) := by
  simp only [allocate, relabel]
  rcases D.allocate w.allocations kind width height format w.driver with ⟨c | a, driver⟩
  · exact Prod.ext rfl (record_relabel_of_eq π { w with driver } rfl)
  · exact Prod.ext rfl (record_relabel_of_eq π
      { w with driver, allocations := w.allocations + 1 } rfl)

theorem map_relabel (st : Storage) :
    (w.relabel π).map D st = ((w.map D st).1, (w.map D st).2.relabel π) :=
  Prod.ext rfl (record_relabel_of_eq π { w with driver := (D.map st w.driver).2 } rfl)

theorem importDescriptor_relabel (d : Dmabuf) : (w.relabel π).importDescriptor D d =
    ((w.importDescriptor D d).1, (w.importDescriptor D d).2.relabel π) :=
  Prod.ext rfl (record_relabel_of_eq π { w with driver := (D.importDescriptor d w.driver).2 } rfl)

theorem exportHandle_relabel (handle : Handle) (flags : ExportFlags) :
    (w.relabel π).exportHandle D handle flags =
      ((w.exportHandle D handle flags).1, (w.exportHandle D handle flags).2.relabel π) := by
  simp only [exportHandle, relabel]
  rcases D.exportHandle handle flags w.driver with ⟨c | d, driver⟩
  · exact Prod.ext rfl (record_relabel_of_eq π { w with driver } rfl)
  · exact Prod.ext rfl (record_relabel_of_eq π
      { w with driver, descriptors := d :: w.descriptors } rfl)

theorem duplicate_relabel (d : Dmabuf) :
    (w.relabel π).duplicate D d = ((w.duplicate D d).1, (w.duplicate D d).2.relabel π) := by
  simp only [duplicate, relabel]
  rcases D.duplicate d w.driver with ⟨c | _, driver⟩
  · exact Prod.ext rfl (record_relabel_of_eq π { w with driver } rfl)
  · exact Prod.ext rfl (record_relabel_of_eq π
      { w with driver, descriptors := d :: w.descriptors } rfl)

theorem unmap_relabel (st : Storage) (a : Address) :
    (w.relabel π).unmap D st a = (w.unmap D st a).relabel π := by
  rw [unmap_logged, unmap_logged, relabel, relabel]
  simp only [List.map_append]
  rw [Event.logged_relabel D π rfl]

theorem release_relabel (st : Storage) :
    (w.relabel π).release D st = (w.release D st).relabel π := by
  rw [release_logged, release_logged, relabel, relabel]
  simp only [List.map_append]
  rw [Event.logged_relabel D π rfl]

end World

namespace BufferObject
variable (b : BufferObject) (w : World σ)

@[simp] theorem relabel_width : (b.relabel π).width = b.width := rfl
@[simp] theorem relabel_height : (b.relabel π).height = b.height := rfl
@[simp] theorem relabel_byteSize : (b.relabel π).byteSize = b.byteSize := rfl
@[simp] theorem relabel_backing : (b.relabel π).backing = b.backing := rfl
@[simp] theorem relabel_mapping : (b.relabel π).mapping = b.mapping := rfl
@[simp] theorem relabel_references : (b.relabel π).references = b.references := rfl
@[simp] theorem relabel_locked : (b.relabel π).locked = b.locked := rfl
@[simp] theorem relabel_handle : (b.relabel π).handle = b.handle := rfl
@[simp] theorem relabel_descriptor? : (b.relabel π).descriptor? = b.descriptor? := rfl

theorem acquire_relabel : (b.relabel π).acquire D (w.relabel π) =
    ((b.acquire D w).1, (b.acquire D w).2.1.relabel π, (b.acquire D w).2.2.relabel π) := by
  simp only [acquire, relabel_backing, relabel_mapping, World.map_relabel]
  cases b.backing with
  | owned st d =>
    cases b.mapping with
    | some a => rfl
    | none =>
      dsimp only
      rcases w.map D st with ⟨c | a, w'⟩ <;> rfl
  | borrowed d a => cases a <;> rfl

theorem acquireRegion_relabel (x y width height : UInt32) :
    (b.relabel π).acquireRegion D x y width height (w.relabel π) =
      ((b.acquireRegion D x y width height w).1,
        (b.acquireRegion D x y width height w).2.1.relabel π,
        (b.acquireRegion D x y width height w).2.2.relabel π) := by
  simp only [acquireRegion, acquire_relabel, relabel_width, relabel_height]
  split <;> rfl

theorem release_relabel : (b.relabel π).release D (w.relabel π) =
    ((b.release D w).1.relabel π, (b.release D w).2.relabel π) := by
  simp only [release, relabel_mapping, relabel_references, relabel_backing]
  cases b.mapping with
  | none => rfl
  | some a =>
    by_cases hr : b.references - 1 = 0
    · simp only [hr, if_true]
      cases b.backing with
      | owned st d => exact Prod.ext rfl (World.unmap_relabel D π w st a)
      | borrowed d a => rfl
    · simp only [hr, if_false]
      rfl

theorem write_relabel (data : List UInt8) : (b.relabel π).write D data (w.relabel π) =
    ((b.write D data w).1, (b.write D data w).2.relabel π) := by
  simp only [write, relabel_mapping, relabel_byteSize]
  cases b.mapping with
  | none => rfl
  | some a =>
    by_cases h : b.byteSize < data.length
    · simp only [h, if_true]
    · simp only [h, if_false]
      rfl

theorem access_relabel (a : Address) (x : Access) : (b.relabel π).access D a (w.relabel π) x =
    ((b.access D a w x).1, (b.access D a w x).2.relabel π) := by
  cases x with
  | write data => simp only [access, write_relabel]
  | poke offset value =>
    simp only [access, relabel_byteSize]
    by_cases h : offset < b.byteSize
    · simp only [h, if_true]
      rfl
    · simp only [h, if_false]
  | peek offset count =>
    simp only [access, relabel_byteSize]
    by_cases h : offset + count ≤ b.byteSize
    · simp only [h, if_true]
      rfl
    · simp only [h, if_false]
  | inspect => rfl

theorem accessAll_relabel (a : Address) (l : List Access) :
    (b.relabel π).accessAll D a l (w.relabel π) =
      ((b.accessAll D a l w).1, (b.accessAll D a l w).2.relabel π) := by
  induction l generalizing w with
  | nil => rfl
  | cons x l ih => simp only [accessAll, access_relabel, ih]

theorem withMapping_relabel (l : List Access) : (b.relabel π).withMapping D l (w.relabel π) =
    ((b.withMapping D l w).1, (b.withMapping D l w).2.1.relabel π,
      (b.withMapping D l w).2.2.relabel π) := by
  rw [withMapping, withMapping, acquire_relabel]
  rcases b.acquire D w with ⟨c | a, b', w'⟩
  · rfl
  · simp only [accessAll_relabel, release_relabel]

theorem share_relabel : (b.relabel π).share D (w.relabel π) =
    ((b.share D w).1, (b.share D w).2.relabel π) := by
  simp only [share, relabel_handle, relabel_descriptor?, World.duplicate_relabel,
    World.exportHandle_relabel]
  split
  · cases b.descriptor? with
    | none => rfl
    | some d =>
      dsimp only
      rcases w.duplicate D d with ⟨c | d', w'⟩ <;> rfl
  · rcases w.exportHandle D b.handle .closeOnExec with ⟨c | d', w'⟩ <;> rfl

theorem destroy_relabel : (b.relabel π).destroy D (w.relabel π) = (b.destroy D w).relabel π := by
  have hwarn : (if (b.relabel π).locked then (w.relabel π).warn (.destroyedLocked (b.relabel π).id)
      else w.relabel π) =
      (if b.locked then w.warn (.destroyedLocked b.id) else w).relabel π := by
    rw [relabel_locked]
    split
    · exact w.warn_relabel π (.destroyedLocked b.id)
    · rfl
  rw [destroy, destroy, hwarn]
  generalize (if b.locked then w.warn (.destroyedLocked b.id) else w) = w
  simp only [relabel_backing, relabel_mapping]
  cases b.backing with
  | owned st d =>
    cases b.mapping with
    | none => simp only [World.letGo_relabel, World.close_relabel, World.release_relabel]
    | some a =>
      simp only [World.letGo_relabel, World.unmap_relabel, World.close_relabel,
        World.release_relabel]
  | borrowed d a =>
    cases d with
    | none => rfl
    | some d => exact World.close_relabel π (w.letGo D) d

end BufferObject

/-- The ids from a number on, which have not been given out, are left alone. -/
def Fixes (n : Nat) : Prop := ∀ m, n ≤ m → π ⟨m⟩ = ⟨m⟩

variable {π} in
theorem Fixes.mono {m n : Nat} (h : Fixes π m) (hmn : m ≤ n) : Fixes π n :=
  fun k hk => h k (hmn.trans hk)

namespace BufferObject

/-- A new object is kept if it could be mapped. -/
private def keptIfMapped (D : Driver σ ι) :
    Except Error Address × BufferObject × World σ → Except Error BufferObject × World σ
  | (.ok _, b, w) => (.ok b, w)
  | (.error e, b, w) => (.error e, b.destroy D w)

section
variable {π} {w : World σ} (h : Fixes π w.identities)
include h

theorem borrow_relabel (width height : UInt32) (format : FormatCode) (planes : List Plane)
    (d : Option Dmabuf) (a : Option Address) :
    borrow width height format planes d a (w.relabel π) =
      ((borrow width height format planes d a w).1.relabel π,
        (borrow width height format planes d a w).2.relabel π) := by
  have hid : π ⟨w.identities⟩ = ⟨w.identities⟩ := h _ le_rfl
  simp only [borrow, relabel, World.freshId, World.hold, World.relabel, hid]

omit h in
private theorem keptIfMapped_relabel (x : Except Error Address × BufferObject × World σ) :
    keptIfMapped D (x.1, x.2.1.relabel π, x.2.2.relabel π) =
      ((keptIfMapped D x).1.map (relabel π), (keptIfMapped D x).2.relabel π) := by
  obtain ⟨c | a, b, w⟩ := x
  · exact Prod.ext rfl (destroy_relabel D π b w)
  · rfl

theorem create_relabel (width height : UInt32) (code : FormatCode) (usage : Usage) :
    create D width height code usage (w.relabel π) =
      ((create D width height code usage w).1.map (relabel π),
        (create D width height code usage w).2.relabel π) := by
  rw [create, create]
  cases PixelFormat.ofCode? code with
  | none => rfl
  | some format =>
    simp only [World.allocate_relabel]
    rcases ha : w.allocate D (.ofUsage usage) width height format with ⟨c | st, w₁⟩
    · rfl
    simp only [World.hold_relabel, World.exportHandle_relabel]
    rcases he : w₁.hold.exportHandle D st.handle .closeOnExec with ⟨c | d, w₂⟩
    · simp only [World.release_relabel, World.letGo_relabel]
      rfl
    have hid : π ⟨w₂.identities⟩ = ⟨w₂.identities⟩ := by
      obtain ⟨-, -, rfl⟩ := World.allocate_ok ha
      obtain rfl := World.exportHandle_ok he
      exact h _ le_rfl
    have hacquire := acquire_relabel D π (ofStorage ⟨w₂.identities⟩ width height format st d)
      w₂.freshId.2.hold
    have hsame : (ofStorage ⟨w₂.identities⟩ width height format st d).relabel π =
        ofStorage ⟨w₂.identities⟩ width height format st d := by
      rw [relabel]
      exact congrArg (fun id => ofStorage id width height format st d) hid
    rw [hsame] at hacquire
    cases usage.contains .write with
    | false => exact Prod.ext (congrArg Except.ok hsame.symm) rfl
    | true =>
      change keptIfMapped D ((ofStorage ⟨w₂.identities⟩ width height format st d).acquire D
        (w₂.freshId.2.hold.relabel π)) = _
      rw [hacquire]
      exact keptIfMapped_relabel D _

theorem importExternal_relabel (resource : Option SharedBuffer) :
    importExternal resource (w.relabel π) =
      ((importExternal resource w).1.map (relabel π), (importExternal resource w).2.relabel π) := by
  cases resource with
  | none => rfl
  | some r =>
    simp only [importExternal, borrow_relabel h]
    split <;> rfl

omit h in
theorem convertPlanes_relabel (l : List (Dmabuf × UInt32)) (w : World σ) :
    convertPlanes D l (w.relabel π) =
      ((convertPlanes D l w).1, (convertPlanes D l w).2.relabel π) := by
  induction l generalizing w with
  | nil => rfl
  | cons p l ih =>
    obtain ⟨d, stride⟩ := p
    simp only [convertPlanes, World.importDescriptor_relabel]
    rcases w.importDescriptor D d with ⟨c | handle, w₁⟩
    · rfl
    · simp only [ih]
      rcases convertPlanes D l w₁ with ⟨⟨c, planes⟩ | planes, w₂⟩ <;> rfl

theorem importFrom_relabel (source : ImportSource Dmabuf) :
    importFrom D source (w.relabel π) =
      ((importFrom D source w).1.map (relabel π), (importFrom D source w).2.relabel π) := by
  cases source with
  | external resource => exact importExternal_relabel h resource
  | descriptor d width height stride format =>
    simp only [importFrom, World.importDescriptor_relabel]
    rcases hq : w.importDescriptor D d with ⟨c | handle, w₁⟩
    · rfl
    · have h₁ : Fixes π w₁.identities := by
        rw [World.importDescriptor_eq hq]
        exact h
      simp only [borrow_relabel h₁]
      rfl
  | planes ds strides width height format modifier =>
    simp only [importFrom, importPlanes, convertPlanes_relabel]
    split
    · rfl
    split
    · rfl
    split
    · rfl
    next hl =>
    rcases convertPlanes_told D (not_not.mp hl) w with
      ⟨handles, -, hc⟩ | ⟨before, d, rest, handles, c, -, -, hc⟩
    · have h₁ : Fixes π (w.asking D ds).identities := h
      simp only [hc, borrow_relabel h₁]
      rfl
    · simp only [hc]
      refine Prod.ext rfl ?_
      dsimp only
      split
      · rfl
      · exact World.warn_relabel π _ (.importAborted _)

theorem createBuffer_relabel (width height : UInt32) (fourcc : Fourcc)
    (modifiers : List Modifier) :
    Device.createBuffer D width height fourcc modifiers (w.relabel π) =
      ((Device.createBuffer D width height fourcc modifiers w).1.map (relabel π),
        (Device.createBuffer D width height fourcc modifiers w).2.relabel π) := by
  have hcreate := create_relabel D h width height fourcc.code (Usage.scanout.union .rendering)
  unfold Device.createBuffer
  split
  · exact hcreate
  · split
    · exact hcreate
    · rfl

end

end BufferObject

namespace Surface
variable (x : Surface) (w : World σ)

@[simp] theorem relabel_width : (x.relabel π).width = x.width := rfl
@[simp] theorem relabel_height : (x.relabel π).height = x.height := rfl
@[simp] theorem relabel_format : (x.relabel π).format = x.format := rfl
@[simp] theorem relabel_usage : (x.relabel π).usage = x.usage := rfl
@[simp] theorem relabel_front : (x.relabel π).front = x.front := rfl

/-- A new surface has nothing that an id belongs to. -/
theorem relabel_of_create {x : Surface} {width height : UInt32} {code : FormatCode} {usage : Usage}
    (h : create width height code usage = .ok x) : x.relabel π = x := by
  rw [create] at h
  split at h
  · cases h
  · obtain rfl := Except.ok.inj h
    simp [relabel]

theorem slot?_relabel (i : Nat) :
    (x.relabel π).slot? i = (x.slot? i).map (BufferObject.relabel π) := by
  by_cases hi : i < slotCount
  · simp [slot?, relabel, hi]
  · rw [x.slot?_eq_none hi, (x.relabel π).slot?_eq_none hi]
    rfl

theorem withSlot_relabel (i : Nat) (o : Option BufferObject) :
    (x.relabel π).withSlot i (o.map (BufferObject.relabel π)) = (x.withSlot i o).relabel π := by
  rw [withSlot, withSlot, relabel, relabel, Vector.map_setIfInBounds]

theorem clear_relabel (i : Nat) : (x.relabel π).clear D i (w.relabel π) =
    ((x.clear D i w).1.relabel π, (x.clear D i w).2.relabel π) := by
  rw [clear, clear, slot?_relabel]
  cases x.slot? i with
  | none => rfl
  | some old =>
    have hwarn : (if (old.relabel π).locked then
        (w.relabel π).warn (.replacedLocked i (old.relabel π).id) else w.relabel π) =
        (if old.locked then w.warn (.replacedLocked i old.id) else w).relabel π := by
      rw [BufferObject.relabel_locked]
      split
      · exact w.warn_relabel π (.replacedLocked i old.id)
      · rfl
    simp only [Option.map_some, hwarn, BufferObject.destroy_relabel]
    exact Prod.ext (x.withSlot_relabel π i none) rfl

theorem setFront_relabel (front : Option Nat) : (x.relabel π).setFront front =
    ((x.setFront front).1, (x.setFront front).2.relabel π) := by
  rw [setFront, setFront]
  split <;> rfl

theorem lockFront_relabel : (x.relabel π).lockFront =
    (x.lockFront.1.map π, x.lockFront.2.relabel π) := by
  simp only [lockFront, relabel_front, slot?_relabel]
  cases x.front with
  | none => rfl
  | some i =>
    dsimp only
    cases x.slot? i with
    | none => rfl
    | some b => exact Prod.ext rfl (x.withSlot_relabel π i (some { b with locked := true }))

theorem unlock_relabel (id : BufferId) :
    (x.relabel π).unlock (π id) = (x.unlock id).relabel π := by
  rw [unlock, unlock, relabel, relabel]
  simp only [Vector.map_map]
  refine congrArg (fun slots => { x with slots }) (Vector.map_congr_left fun o _ => ?_)
  cases o with
  | none => rfl
  | some b =>
    by_cases hb : b.id = id
    · simp [hb, BufferObject.relabel]
    · simp [hb, BufferObject.relabel]

theorem destroy_relabel : (x.relabel π).destroy D (w.relabel π) = (x.destroy D w).relabel π := by
  have hslots : (x.relabel π).slots.toList =
      x.slots.toList.map (Option.map (BufferObject.relabel π)) := by
    rw [relabel, Vector.toList_map]
  rw [destroy, destroy, hslots, World.letGo_relabel]
  generalize x.slots.toList = l, w.letGo D = w
  induction l generalizing w with
  | nil => rfl
  | cons o l ih =>
    cases o with
    | none => exact ih w
    | some b =>
      rw [List.map_cons, List.foldl_cons, List.foldl_cons, ← ih]
      simp only [Option.map_some, BufferObject.destroy_relabel]

section
variable {π} {w} (h : Fixes π w.identities)
include h

theorem replace_relabel (i : Nat) (y : Option SlotBuffer) :
    (x.relabel π).replace D i y (w.relabel π) =
      ((x.replace D i y w).1, (x.replace D i y w).2.1.relabel π,
        (x.replace D i y w).2.2.relabel π) := by
  by_cases hi : i < slotCount
  · simp only [replace, hi, if_true, clear_relabel]
    cases y with
    | none => rfl
    | some y =>
      have hclear := h.mono (clear_advances D x i w).identities
      simp only [BufferObject.borrow_relabel hclear]
      exact Prod.ext rfl (Prod.ext (withSlot_relabel π _ i (some _)) rfl)
  · simp only [replace, hi, if_false]
    cases y.bind (·.descriptor) with
    | none => rfl
    | some d => exact Prod.ext rfl (Prod.ext rfl (w.close_relabel π d))

theorem allocate_relabel (i : Nat) : (x.relabel π).allocate D i (w.relabel π) =
    ((x.allocate D i w).1.map π, (x.allocate D i w).2.1.relabel π,
      (x.allocate D i w).2.2.relabel π) := by
  by_cases hi : i < slotCount
  · have hclear := h.mono (clear_advances D x i w).identities
    have hcreate := BufferObject.create_relabel D hclear x.width x.height x.format.code
      (x.usage.union .write)
    simp only [allocate_of_lt D _ hi, clear_relabel, relabel_width, relabel_height, relabel_format,
      relabel_usage, hcreate]
    rcases BufferObject.create D x.width x.height x.format.code (x.usage.union .write)
      (x.clear D i w).2 with ⟨e | b, w'⟩
    · exact Prod.ext rfl (Prod.ext (x.withSlot_relabel π i none) rfl)
    · exact Prod.ext rfl (Prod.ext (x.withSlot_relabel π i (some b)) rfl)
  · simp only [allocate, hi, if_false]
    rfl

end

end Surface
end DisplayBuffers
