import DisplayBuffers.Errno
import DisplayBuffers.Flags
import DisplayBuffers.Format.Fourcc

/-! The interface to a display driver: what it allocates, what it answers, and the calls themselves.
A driver is a value of `Driver σ ι` over any state `σ`; every call may fail. -/
namespace DisplayBuffers

/-- A kernel handle of a buffer. Zero refers to none. -/
structure Handle where
  raw : UInt32
  deriving DecidableEq, Repr

def Handle.null : Handle := ⟨0⟩

instance : Inhabited Handle where
  default := .null

def Handle.isNull (h : Handle) : Bool := h.raw = 0

/-- The shape of an allocation. -/
inductive BufferKind where
  | scanout
  | cursor
  deriving DecidableEq, Repr

namespace BufferKind

def cursorSide : UInt32 := 64

/-- The size to allocate when a width and a height are asked for; a cursor has one size only. -/
def dimensions : BufferKind → UInt32 → UInt32 → UInt32 × UInt32
  | .scanout, width, height => (width, height)
  | .cursor, _, _ => (cursorSide, cursorSide)

def ofUsage (usage : Usage) : BufferKind := if usage.contains .cursor then .cursor else .scanout

end BufferKind

/-- A shared buffer. Open descriptors refer to one; duplicates of a descriptor refer to the same. -/
structure Dmabuf where
  number : Nat
  deriving DecidableEq, Repr

/-- Where bytes are in the address space of the process: behind the start of a mapping, or of memory
that the client brought. -/
inductive Address where
  | mapped (number : Nat)
  | client (key : Nat)
  deriving DecidableEq, Repr

/-- Where a byte is in the machine: in a block of storage, or in memory that the client brought. -/
inductive Cell where
  | storage (block offset : Nat)
  | client (key offset : Nat)
  deriving DecidableEq, Hashable, Repr

/-- A driver's answer to an allocation. The size may differ from the one asked for, and `length` is
the number of bytes that the driver maps. -/
structure Allocation where
  handle : Handle
  stride : UInt32
  width : UInt32
  height : UInt32
  length : Nat
  deriving DecidableEq, Repr

/-- Storage in the hands of its owner. No two successful allocations have the same key. -/
structure Storage extends Allocation where
  key : Nat
  deriving DecidableEq, Repr

/-- The calls to a driver. `allocate` is told the key under which the storage will be referred to;
`duplicate` and `receive` stand for the process's descriptors: a second descriptor of a shared
buffer, and one of a buffer that another process shares. `outside` is what other parties do to the
driver, and `shutdown` is the end of the session with it. `shows` is the address space of the
process as it is in a state: the byte that lies so far behind an address, within what is mapped
there or beyond. -/
structure Driver (σ ι : Type) where
  allocate : Nat → BufferKind → UInt32 → UInt32 → PixelFormat → σ → Except IoError Allocation × σ
  map : Storage → σ → Except IoError Address × σ
  unmap : Storage → Address → σ → Except IoError Unit × σ
  release : Storage → σ → Except IoError Unit × σ
  importDescriptor : Dmabuf → σ → Except IoError Handle × σ
  exportHandle : Handle → ExportFlags → σ → Except IoError Dmabuf × σ
  duplicate : Dmabuf → σ → Except IoError Unit × σ
  receive : σ → Dmabuf × σ
  outside : ι → σ → σ
  shutdown : σ → σ
  shows : Address → Nat → σ → Cell
  /-- Whether the driver warns when it cannot unmap; nothing else tells. -/
  warnsOfFailedUnmap : Bool

end DisplayBuffers
