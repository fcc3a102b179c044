import DisplayBuffers.Buffer.Sharing

/-! Double-buffered surfaces. A surface has two slots of one size and format. One of them may be the
front, which holds the last complete frame; the display locks it for as long as it shows it, and the
client draws the next frame in the other. -/
namespace DisplayBuffers

def slotCount : Nat := 2

structure Surface where
  width : UInt32
  height : UInt32
  format : PixelFormat
  usage : Usage
  slots : Vector (Option BufferObject) slotCount
  front : Option Nat
  deriving DecidableEq

/-- A buffer from elsewhere to be put into a slot. The slot takes the descriptor over. -/
structure SlotBuffer where
  stride : UInt32
  descriptor : Option Dmabuf
  address : Option Address
  deriving DecidableEq, Repr

namespace Surface
variable {σ ι : Type}

def create (width height : UInt32) (code : FormatCode) (usage : Usage) : Except Error Surface :=
  match PixelFormat.ofCode? code with
  | none => .error (.invalidArgument .unsupportedFormat)
  | some format => .ok { width, height, format, usage, slots := .replicate _ none, front := none }

def slot? (s : Surface) (index : Nat) : Option BufferObject := s.slots[index]?.join

/-- Puts a buffer object into a slot or leaves it empty; an index out of range changes nothing. -/
def withSlot (s : Surface) (index : Nat) (b : Option BufferObject) : Surface :=
  { s with slots := s.slots.setIfInBounds index b }

/-- Empties a slot and destroys what it held. -/
def clear (s : Surface) (D : Driver σ ι) (index : Nat) (w : World σ) : Surface × World σ :=
  match s.slot? index with
  | none => (s, w)
  | some old =>
    let w := if old.locked then w.warn (.replacedLocked index old.id) else w
    (s.withSlot index none, old.destroy D w)

/-- Replaces what a slot holds by a buffer from elsewhere, or by nothing. -/
def replace (s : Surface) (D : Driver σ ι) (index : Nat) (buffer : Option SlotBuffer)
    (w : World σ) : Except Error Unit × Surface × World σ :=
  if index < slotCount then
    let (s, w) := s.clear D index w
    match buffer with
    | none => (.ok (), s, w)
    | some x =>
      let (b, w) := BufferObject.borrow s.width s.height s.format.code [⟨.null, x.stride⟩]
        x.descriptor x.address w
      (.ok (), s.withSlot index (some b), w)
  else
    let w := match buffer.bind (·.descriptor) with
      | some d => w.close d
      | none => w
    (.error (.invalidArgument .slotIndexOutOfRange), s, w)

/-- Replaces what a slot holds by a new buffer object, mapped for drawing. When it cannot be
created the slot stays empty. -/
def allocate (s : Surface) (D : Driver σ ι) (index : Nat) (w : World σ) :
    Except Error BufferId × Surface × World σ :=
  if index < slotCount then
    let (s, w) := s.clear D index w
    match BufferObject.create D s.width s.height s.format.code (s.usage.union .write) w with
    | (.ok b, w) => (.ok b.id, s.withSlot index (some b), w)
    | (.error e, w) => (.error e, s, w)
  else (.error (.invalidArgument .slotIndexOutOfRange), s, w)

/-- Declares which slot holds the last complete frame. -/
def setFront (s : Surface) (front : Option Nat) : Except Error Unit × Surface :=
  if front.all (· < slotCount) then (.ok (), { s with front })
  else (.error (.invalidArgument .slotIndexOutOfRange), s)

/-- Locks the buffer of the front slot for display, if there is one. -/
def lockFront (s : Surface) : Option BufferId × Surface :=
  match s.front with
  | none => (none, s)
  | some index =>
    match s.slot? index with
    | none => (none, s)
    | some b => (some b.id, s.withSlot index (some { b with locked := true }))

/-- The display is done with a buffer. An id that no slot holds is of no account, and no two slots of
a session hold the same. -/
def unlock (s : Surface) (id : BufferId) : Surface :=
  { s with slots := s.slots.map fun slot =>
      slot.map fun b => if b.id = id then { b with locked := false } else b }

/-- Some slot is empty or holds a buffer that the display does not hold on to. -/
def hasFree (s : Surface) : Bool := s.slots.any fun slot => slot.all fun b => !b.locked

/-- Lets go of the driver, and then destroys what the slots hold, the first slot first. -/
def destroy (s : Surface) (D : Driver σ ι) (w : World σ) : World σ :=
  s.slots.toList.foldl (fun w slot => match slot with
    | some b => b.destroy D w
    | none => w) (w.letGo D)

end Surface
end DisplayBuffers
