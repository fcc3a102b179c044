import DisplayBuffers.Buffer.Lifetime

/-! Buffers shared with other processes: exporting one, and importing those of others. Imported
buffer objects borrow; nothing is closed or released on their behalf. -/
namespace DisplayBuffers

/-- What a sharing layer tells about a buffer. -/
structure SharedBuffer where
  width : UInt32
  height : UInt32
  format : FormatCode
  stride : UInt32
  handle : Handle
  /-- The planes of a buffer with several; for others the list is of no account. -/
  planes : List Plane
  deriving DecidableEq, Repr

/-- Where an imported buffer comes from, with descriptors of type `δ`. -/
inductive ImportSource (δ : Type) where
  /-- A resource of the sharing layer, resolved if it is a buffer at all. -/
  | external (resource : Option SharedBuffer)
  | descriptor (d : δ) (width height stride : UInt32) (format : FormatCode)
  | planes (ds : List δ) (strides : List UInt32) (width height : UInt32) (format : FormatCode)
      (modifier : Modifier)

namespace ImportSource
variable {δ ε : Type}

/-- Replaces names of descriptors by what they stand for, if all are known. -/
def resolve? (f : δ → Option ε) : ImportSource δ → Option (ImportSource ε)
  | .external r => some (.external r)
  | .descriptor d w h s c => (f d).map fun d => .descriptor d w h s c
  | .planes ds ss w h c m => (ds.mapM f).map fun ds => .planes ds ss w h c m

private def braced (name : String) (fields : List (String × String)) : String :=
  name ++ " \x7b " ++ ", ".intercalate (fields.map fun f => f.1 ++ ": " ++ f.2) ++ " \x7d"

private def bracketed (items : List String) : String := "[" ++ ", ".intercalate items ++ "]"

private def number (n : UInt32) : String := toString n.toNat

/-- A one-line description for logs, with descriptors shown by their number. -/
def describe : ImportSource Nat → String
  | .external _ => "External(..)"
  | .descriptor d w h s c =>
    braced "Fd" [("fd", file d), ("width", number w), ("height", number h), ("stride", number s),
      ("format", number c)]
  | .planes ds ss w h c m =>
    braced "FdModifier" [("fds", bracketed (ds.map file)), ("strides", bracketed (ss.map number)),
      ("width", number w), ("height", number h), ("format", number c), ("modifier", m.name)]
where
  file (d : Nat) : String := braced "BorrowedFd" [("fd", toString d)]

end ImportSource

namespace BufferObject
variable {σ ι : Type}

/-- A new descriptor for the first plane, which belongs to the caller. An object without a kernel
handle duplicates the descriptor that it was given. -/
def share (b : BufferObject) (D : Driver σ ι) (w : World σ) : Except Error Dmabuf × World σ :=
  if b.handle.isNull then
    match b.descriptor? with
    | none => (.error (.invalidArgument .noKernelHandle), w)
    | some d =>
      match w.duplicate D d with
      | (.ok d, w) => (.ok d, w)
      | (.error e, w) => (.error (.allocation .duplicateDescriptor e), w)
  else
    match w.exportHandle D b.handle .closeOnExec with
    | (.ok d, w) => (.ok d, w)
    | (.error e, w) => (.error (.allocation .exportHandle e), w)

def importExternal (resource : Option SharedBuffer) (w : World σ) :
    Except Error BufferObject × World σ :=
  match resource with
  | none => (.error (.invalidArgument .notShared), w)
  | some r =>
    if maxPlanes < r.planes.length then (.error (.invalidArgument .tooManyPlanes), w)
    else
      let planes := if 1 < r.planes.length then r.planes else [⟨r.handle, r.stride⟩]
      let (b, w) := borrow r.width r.height r.format.canonical planes none none w
      (.ok b, w)

/-- Converts descriptors in order. When one fails, the planes before it come with the error. -/
def convertPlanes (D : Driver σ ι) : List (Dmabuf × UInt32) → World σ →
    Except (IoError × List Plane) (List Plane) × World σ
  | [], w => (.ok [], w)
  | (d, stride) :: rest, w =>
    match w.importDescriptor D d with
    | (.error e, w) => (.error (e, []), w)
    | (.ok handle, w) =>
      match convertPlanes D rest w with
      | (.ok planes, w) => (.ok (⟨handle, stride⟩ :: planes), w)
      | (.error (e, planes), w) => (.error (e, ⟨handle, stride⟩ :: planes), w)

def importPlanes (D : Driver σ ι) (ds : List Dmabuf) (strides : List UInt32)
    (width height : UInt32) (format : FormatCode) (modifier : Modifier) (w : World σ) :
    Except Error BufferObject × World σ :=
  if !modifier.isTrivial then (.error (.invalidArgument .unsupportedLayout), w)
  else if ds.length = 0 ∨ maxPlanes < ds.length then
    (.error (.invalidArgument .planeCountOutOfRange), w)
  else if strides.length ≠ ds.length then (.error (.invalidArgument .strideCountMismatch), w)
  else
    match convertPlanes D (ds.zip strides) w with
    | (.ok planes, w) =>
      let (b, w) := borrow width height format.canonical planes none none w
      (.ok b, w)
    | (.error (e, converted), w) =>
      (.error (.allocation .importPlane e),
        if converted.isEmpty then w else w.warn (.importAborted (converted.map (·.handle))))

/-- An object over the storage of a buffer that somebody else shares. The descriptors remain the
caller's. -/
def importFrom (D : Driver σ ι) (source : ImportSource Dmabuf) (w : World σ) :
    Except Error BufferObject × World σ :=
  match source with
  | .external resource => importExternal resource w
  | .descriptor d width height stride format =>
    match w.importDescriptor D d with
    | (.error e, w) => (.error (.allocation .importDescriptor e), w)
    | (.ok handle, w) =>
      let (b, w) := borrow width height format.canonical [⟨handle, stride⟩] none none w
      (.ok b, w)
  | .planes ds strides width height format modifier =>
    importPlanes D ds strides width height format modifier w

end BufferObject
end DisplayBuffers
