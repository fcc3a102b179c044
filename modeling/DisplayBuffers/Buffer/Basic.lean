import DisplayBuffers.Error
import DisplayBuffers.World

/-! Buffer objects and what they tell about themselves. -/
namespace DisplayBuffers

structure Plane where
  handle : Handle
  stride : UInt32
  deriving DecidableEq, Repr

/-- At most so many planes make up a buffer. -/
def maxPlanes : Nat := 3

inductive Ownership where
  | owned
  | borrowed
  deriving DecidableEq, Repr

/-- Where the storage of a buffer object comes from. Owned storage was allocated for it and was
exported at once; borrowed storage belongs to somebody else, who may have handed over a descriptor
and may have made its bytes accessible at an address. -/
inductive Backing where
  | owned (storage : Storage) (descriptor : Dmabuf)
  | borrowed (descriptor : Option Dmabuf) (address : Option Address)
  deriving DecidableEq, Repr

structure BufferObject where
  id : BufferId
  width : UInt32
  height : UInt32
  /-- Canonical; that of an imported buffer need not be a registered fourcc. -/
  format : FormatCode
  planes : List Plane
  /-- The number of bytes that the cpu may access. -/
  byteSize : Nat
  backing : Backing
  /-- The address of the mapping, while there is one. -/
  mapping : Option Address
  /-- How many references to the mapping are held. -/
  references : Nat
  /-- Whether the display holds on to the buffer. -/
  locked : Bool
  deriving DecidableEq

/-- The bytes of so many rows, without wrapping around. -/
def rowBytes (stride rows : UInt32) : Nat := stride.toNat * rows.toNat

namespace BufferObject

def fourcc? (b : BufferObject) : Option Fourcc := Fourcc.ofCode? b.format

/-- The layout of every buffer object. -/
def modifier (_ : BufferObject) : Modifier := .invalid

def stride (b : BufferObject) : UInt32 := (b.planes.head?.map (·.stride)).getD 0

def handle (b : BufferObject) : Handle := (b.planes.head?.map (·.handle)).getD .null

def planeCount (b : BufferObject) : Nat := b.planes.length

def plane (b : BufferObject) (index : Nat) : Except Error Plane :=
  match b.planes[index]? with
  | some p => .ok p
  | none => .error (.invalidArgument .planeIndexOutOfRange)

def planeStride (b : BufferObject) (index : Nat) : Except Error UInt32 :=
  (b.plane index).map (·.stride)

def planeHandle (b : BufferObject) (index : Nat) : Except Error Handle :=
  (b.plane index).map (·.handle)

/-- Planes never share storage, so each starts at its beginning. -/
def planeOffset (b : BufferObject) (index : Nat) : Except Error UInt32 :=
  (b.plane index).map fun _ => 0

def ownership (b : BufferObject) : Ownership :=
  match b.backing with
  | .owned _ _ => .owned
  | .borrowed _ _ => .borrowed

/-- The descriptor that the buffer object keeps open, if any. -/
def descriptor? (b : BufferObject) : Option Dmabuf :=
  match b.backing with
  | .owned _ d => some d
  | .borrowed d _ => d

def isMapped (b : BufferObject) : Bool := b.mapping.isSome

end BufferObject
end DisplayBuffers
