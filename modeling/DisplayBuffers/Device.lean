import DisplayBuffers.Buffer.Lifetime

/-! What a device offers besides the buffer objects and surfaces it makes. -/
namespace DisplayBuffers
namespace Device
variable {σ ι : Type}

def name : String := "kms"

/-- Whether buffers of a format can be allocated. The usage makes no difference. -/
def supportsFormat (code : FormatCode) (_ : Usage) : Bool := (PixelFormat.ofCode? code).isSome

/-- Explicit layouts are not supported, so there is no answer to this. -/
def planeCount (_ : FormatCode) (m : Modifier) : Except Error Nat := .error (.unsupportedModifier m)

/-- A buffer object for scanout and rendering in one of several acceptable layouts. An empty list
accepts any. -/
def createBuffer (D : Driver σ ι) (width height : UInt32) (fourcc : Fourcc)
    (modifiers : List Modifier) (w : World σ) : Except Error BufferObject × World σ :=
  match modifiers with
  | [] => create
  | m :: _ => if modifiers.any (·.isTrivial) then create else (.error (.unsupportedModifier m), w)
where
  create := BufferObject.create D width height fourcc.code (Usage.scanout.union .rendering) w

end Device
end DisplayBuffers
