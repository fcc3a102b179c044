import DisplayBuffers.Buffer.Mapping

/-! Creation and destruction of buffer objects. Creation is all or nothing: when a later step fails,
what the earlier ones obtained is given back. -/
namespace DisplayBuffers
namespace BufferObject
variable {σ ι : Type}

/-- Gives back all that the buffer object holds: the mapping, the descriptor and then the storage.
What is borrowed stays as it is, apart from the descriptor that was handed over. An object holds the
driver and lets go of it first; owned storage has a hold of its own, until it is released. -/
def destroy (b : BufferObject) (D : Driver σ ι) (w : World σ) : World σ :=
  let w := if b.locked then w.warn (.destroyedLocked b.id) else w
  let w := w.letGo D
  match b.backing with
  | .owned storage d =>
    let w := match b.mapping with
      | some a => w.unmap D storage a
      | none => w
    ((w.close d).release D storage).letGo D
  | .borrowed (some d) _ => w.close d
  | .borrowed none _ => w

/-- Allocates storage, exports it, and maps it at once if the cpu is going to write. The object has
the size that was asked for, its storage the size that the driver reports. -/
def create (D : Driver σ ι) (width height : UInt32) (code : FormatCode) (usage : Usage)
    (w : World σ) : Except Error BufferObject × World σ :=
  match PixelFormat.ofCode? code with
  | none => (.error (.invalidArgument .unsupportedFormat), w)
  | some format =>
    match w.allocate D (.ofUsage usage) width height format with
    | (.error e, w) => (.error (.allocation .allocateStorage e), w)
    | (.ok storage, w) =>
      match w.hold.exportHandle D storage.handle .closeOnExec with
      | (.error e, w) =>
        (.error (.allocation .exportHandle e), (w.release D storage).letGo D)
      | (.ok d, w) =>
        let (id, w) := w.freshId
        let w := w.hold
        let b : BufferObject :=
          { id, width, height
            format := format.code
            planes := [⟨storage.handle, storage.stride⟩]
            byteSize := rowBytes storage.stride storage.height
            backing := .owned storage d
            mapping := none
            references := 0
            locked := false }
        if usage.contains .write then
          match b.acquire D w with
          | (.ok _, b, w) => (.ok b, w)
          | (.error e, b, w) => (.error e, b.destroy D w)
        else (.ok b, w)

/-- An object over storage of somebody else. -/
def borrow (width height : UInt32) (format : FormatCode) (planes : List Plane)
    (descriptor : Option Dmabuf) (address : Option Address) (w : World σ) :
    BufferObject × World σ :=
  let (id, w) := w.freshId
  ({ id, width, height, format, planes
     byteSize := rowBytes ((planes.head?.map (·.stride)).getD 0) height
     backing := .borrowed descriptor address
     mapping := none
     references := 0
     locked := false }, w.hold)

end BufferObject
end DisplayBuffers
