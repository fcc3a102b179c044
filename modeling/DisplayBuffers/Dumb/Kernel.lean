import DisplayBuffers.Driver

/-! The kernel's side of dumb buffers: the calls on an open display node and on memory mappings of
it. A kernel is a value of `Kernel κ` over any state `κ`; a connection is a kernel, the node as this
process sees it, and a record of all calls. -/
namespace DisplayBuffers.Dumb

/-- The kernel's answer to the creation of a dumb buffer. -/
structure Created where
  handle : Handle
  pitch : UInt32
  width : UInt32
  height : UInt32
  deriving DecidableEq, Repr

structure Kernel (κ ι : Type) where
  /-- The value of the dumb buffer capability. -/
  capability : κ → Except Errno UInt64 × κ
  /-- The name of the kernel's driver. -/
  version : κ → Except Errno String × κ
  createDumb : (width height bitsPerPixel flags : UInt32) → κ → Except Errno Created × κ
  /-- The offset at which a buffer can be mapped through the node. -/
  mapDumb : Handle → κ → Except Errno Nat × κ
  /-- No address is the null address. -/
  mmap : (length protection flags offset : Nat) → κ → Except Errno (Option Address) × κ
  munmap : Address → Nat → κ → Except Errno Unit × κ
  destroyDumb : Handle → κ → Except Errno Unit × κ
  primeToHandle : Dmabuf → κ → Except Errno Handle × κ
  primeFromHandle : Handle → ExportFlags → κ → Except Errno Dmabuf × κ
  duplicate : Dmabuf → κ → Except Errno Unit × κ
  receive : κ → Dmabuf × κ
  outside : ι → κ → κ
  /-- The byte that lies so far behind an address. -/
  shows : Address → Nat → κ → Cell

/-- What a kernel is asked for, with its answer. -/
inductive Call where
  | capability (outcome : Except Errno UInt64)
  | version (outcome : Except Errno String)
  | createDumb (width height bitsPerPixel flags : UInt32) (outcome : Except Errno Created)
  | mapDumb (handle : Handle) (outcome : Except Errno Nat)
  | mmap (length protection flags offset : Nat) (outcome : Except Errno (Option Address))
  | munmap (address : Address) (length : Nat) (outcome : Except Errno Unit)
  | destroyDumb (handle : Handle) (outcome : Except Errno Unit)
  | primeToHandle (dmabuf : Dmabuf) (outcome : Except Errno Handle)
  | primeFromHandle (handle : Handle) (flags : ExportFlags) (outcome : Except Errno Dmabuf)
  | duplicate (dmabuf : Dmabuf) (outcome : Except Errno Unit)
  | closeNode
  deriving DecidableEq

structure Connection (κ : Type) where
  kernel : κ
  nodeOpen : Bool
  calls : List Call

namespace Connection
variable {κ ι α : Type}

/-- One call, recorded with its answer. -/
def ask (c : Connection κ) (f : κ → Except Errno α × κ) (call : Except Errno α → Call) :
    Except IoError α × Connection κ :=
  let (outcome, kernel) := f c.kernel
  (outcome.mapError .os, { c with kernel, calls := c.calls ++ [call outcome] })

def closeNode (c : Connection κ) : Connection κ :=
  { c with nodeOpen := false, calls := c.calls ++ [.closeNode] }

end Connection
end DisplayBuffers.Dumb
