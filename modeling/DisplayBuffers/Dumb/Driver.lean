import DisplayBuffers.Dumb.Kernel
import DisplayBuffers.Error

/-! The driver that serves allocations with dumb buffers of an open display node. -/
namespace DisplayBuffers.Dumb
variable {κ ι : Type}

/-- Both formats that are allocated have 32 bits per pixel. -/
def bitsPerPixel : UInt32 := 32

/-- Mappings are readable and writable. -/
def protection : Nat := 3

/-- Mappings are shared with the device. -/
def mappingFlags : Nat := 1

/-- Opens a session on a node. When that fails the node is closed again. -/
def connect (K : Kernel κ ι) (kernel : κ) : Except Error Unit × Connection κ :=
  let c : Connection κ := { kernel, nodeOpen := true, calls := [] }
  match c.ask K.capability .capability with
  | (.error e, c) => (.error (.allocation .queryCapability e), c.closeNode)
  | (.ok value, c) =>
    if value = 0 then (.error (.allocation .requireCapability .unsupported), c.closeNode)
    else
      let (_, c) := c.ask K.version .version
      (.ok (), c)

/-- The number of bytes mapped is the pitch times the height that was asked for. -/
def allocate (K : Kernel κ ι) (kind : BufferKind) (width height : UInt32) (c : Connection κ) :
    Except IoError Allocation × Connection κ :=
  let (width, height) := kind.dimensions width height
  match c.ask (K.createDumb width height bitsPerPixel 0)
      (.createDumb width height bitsPerPixel 0) with
  | (.error e, c) => (.error e, c)
  | (.ok x, c) =>
    (.ok { handle := x.handle, stride := x.pitch, width := x.width, height := x.height
           length := x.pitch.toNat * height.toNat }, c)

/-- What a mapping comes to. One at the null address is refused, and left as it is. -/
def placed : Except IoError (Option Address) → Except IoError Address
  | .ok (some a) => .ok a
  | .ok none => .error .invalidData
  | .error e => .error e

/-- Asks the kernel for an offset and maps the node there. -/
def map (K : Kernel κ ι) (storage : Storage) (c : Connection κ) :
    Except IoError Address × Connection κ :=
  match c.ask (K.mapDumb storage.handle) (.mapDumb storage.handle) with
  | (.error e, c) => (.error e, c)
  | (.ok offset, c) =>
    let (outcome, c) := c.ask (K.mmap storage.length protection mappingFlags offset)
      (.mmap storage.length protection mappingFlags offset)
    (placed outcome, c)

/-- The null handle is refused without asking the kernel. -/
def exportHandle (K : Kernel κ ι) (handle : Handle) (flags : ExportFlags) (c : Connection κ) :
    Except IoError Dmabuf × Connection κ :=
  if handle.isNull then (.error .invalidParameter, c)
  else c.ask (K.primeFromHandle handle flags) (.primeFromHandle handle flags)

def driver (K : Kernel κ ι) : Driver (Connection κ) ι where
  allocate _ kind width height _ := allocate K kind width height
  map := map K
  unmap storage a c := c.ask (K.munmap a storage.length) (.munmap a storage.length)
  release storage c := c.ask (K.destroyDumb storage.handle) (.destroyDumb storage.handle)
  importDescriptor d c := c.ask (K.primeToHandle d) (.primeToHandle d)
  exportHandle := exportHandle K
  duplicate d c := c.ask (K.duplicate d) (.duplicate d)
  receive c :=
    let (d, kernel) := K.receive c.kernel
    (d, { c with kernel })
  outside i c := { c with kernel := K.outside i c.kernel }
  shutdown c := c.closeNode
  shows a i c := K.shows a i c.kernel
  warnsOfFailedUnmap := true

/-- A one-line description of the device on a node with a descriptor number. -/
def describe (descriptor : Nat) : String :=
  "Device \x7b driver: DrmDumbDriver \x7b fd: DrmFd(BorrowedFd \x7b fd: " ++ toString descriptor ++
    " \x7d) \x7d \x7d"

end DisplayBuffers.Dumb
