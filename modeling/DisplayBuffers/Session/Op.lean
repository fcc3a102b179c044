import DisplayBuffers.Device
import DisplayBuffers.Surface

/-! What a client can do, as data. Clients refer to what they hold by names of their choice. -/
namespace DisplayBuffers.Session
open BufferObject (Access Seen)

/-- A buffer object of the client's own, or the one in a slot of a surface. -/
inductive Target where
  | object (name : String)
  | slot (surface : String) (index : Nat)
  deriving DecidableEq, Repr

/-- A buffer for a slot, with the names of its descriptor and of its memory. -/
structure NamedBuffer where
  stride : UInt32
  descriptor : Option String
  memory : Option String
  deriving DecidableEq, Repr

/-- An operation. `ι` is what other parties can do to the driver in between. -/
inductive Op (ι : Type) where
  | outside (i : ι)
  -- descriptors and memory of the client
  | receive (name : String)
  | close (name : String)
  | newMemory (name : String) (length : Nat)
  | readMemory (name : String) (offset count : Nat)
  -- the device
  | deviceName
  | supportsFormat (format : FormatCode) (usage : Usage)
  | layoutPlanes (format : FormatCode) (modifier : Modifier)
  | create (name : String) (width height : UInt32) (format : FormatCode) (usage : Usage)
  | createBuffer (name : String) (width height : UInt32) (fourcc : Fourcc)
      (modifiers : List Modifier)
  | importFrom (name : String) (source : ImportSource String)
  | createSurface (name : String) (width height : UInt32) (format : FormatCode) (usage : Usage)
  | exportHandle (handle : Handle) (flags : ExportFlags) (name : String)
  | importDescriptor (name : String)
  | destroyDevice
  -- buffer objects
  | acquire (target : Target)
  | acquireRegion (target : Target) (x y width height : UInt32)
  | release (target : Target)
  | write (target : Target) (data : List UInt8)
  | withMapping (target : Target) (accesses : List Access)
  | inspect (target : Target)
  | saveId (target : Target) (name : String)
  | plane (target : Target) (index : Nat)
  | share (target : Target) (name : String)
  | destroy (name : String)
  -- surfaces
  | inspectSurface (surface : String)
  | replace (surface : String) (index : Nat) (buffer : Option NamedBuffer)
  | allocate (surface : String) (index : Nat)
  | setFront (surface : String) (front : Option Nat)
  | lockFront (surface : String) (name : Option String)
  | unlock (surface : String) (id : String)
  | destroySurface (surface : String)

/-- What an operation answers. -/
inductive Answer where
  | done
  | failed (e : Error)
  | driverFailed (e : IoError)
  /-- The slot is empty or out of range. -/
  | noSlot
  /-- The operation refers to something that is not there. -/
  | malformed
  | text (s : String)
  | flag (b : Bool)
  | dmabuf (d : Dmabuf)
  | handle (h : Handle)
  | address (a : Address)
  | identity (id : Option BufferId)
  | accesses (seen : List Seen)
  | bytes (shown : Option (List UInt8)) (sum length : Nat)
  | plane (stride : Except Error UInt32) (handle : Except Error Handle)
      (offset : Except Error UInt32)
  deriving DecidableEq

/-- The answer where nothing but success or failure is of interest. -/
def Answer.ofUnit {α : Type} : Except Error α → Answer
  | .ok _ => .done
  | .error e => .failed e

/-- What an operation worked on, as it is afterwards. -/
inductive Subject where
  | nothing
  | object (b : BufferObject)
  | surface (s : Surface)
  deriving DecidableEq

/-- The buffer objects that a subject shows, in order. -/
def Subject.objects : Subject → List BufferObject
  | .nothing => []
  | .object b => [b]
  | .surface s => s.slots.toList.filterMap id

structure Outcome where
  answer : Answer
  subject : Subject
  deriving DecidableEq

end DisplayBuffers.Session
