import DisplayBuffers.Memory

/-! Everything a buffer object acts on: the driver's state and how many hold it, the bytes, the open
descriptors and the numbers in use. Each call to the driver, each closed descriptor and each warning
becomes an event, in the order in which they happen. -/
namespace DisplayBuffers

/-- Identifies a buffer object for as long as the process runs. -/
structure BufferId where
  number : Nat
  deriving DecidableEq, Repr

inductive Warning where
  | releaseFailed (handle : Handle) (cause : IoError)
  | unmapFailed (handle : Handle) (cause : IoError)
  | destroyedLocked (id : BufferId)
  | replacedLocked (index : Nat) (id : BufferId)
  /-- The handles of the planes that were converted stay with the driver. -/
  | importAborted (orphaned : List Handle)
  deriving DecidableEq, Repr

def Warning.message : Warning → String
  | .releaseFailed _ _ => "failed to release buffer object storage"
  | .unmapFailed _ _ => "failed to unmap dumb buffer"
  | .destroyedLocked _ => "destroying buffer object still locked for display"
  | .replacedLocked _ _ => "replacing buffer still locked for display"
  | .importAborted _ => "multi-plane import aborted"

inductive Event where
  | allocate (kind : BufferKind) (width height : UInt32) (format : PixelFormat)
      (outcome : Except IoError Storage)
  | map (storage : Storage) (outcome : Except IoError Address)
  | unmap (storage : Storage) (address : Address) (outcome : Except IoError Unit)
  | release (storage : Storage) (outcome : Except IoError Unit)
  | importDescriptor (dmabuf : Dmabuf) (outcome : Except IoError Handle)
  | exportHandle (handle : Handle) (flags : ExportFlags) (outcome : Except IoError Dmabuf)
  | duplicate (dmabuf : Dmabuf) (outcome : Except IoError Unit)
  | close (dmabuf : Dmabuf)
  | warn (warning : Warning)
  deriving DecidableEq

def Event.warning? : Event → Option Warning
  | .warn w => some w
  | _ => none

structure World (σ : Type) where
  driver : σ
  memory : Memory
  /-- One entry for each open descriptor. -/
  descriptors : List Dmabuf
  events : List Event
  /-- How many allocations have succeeded; the next storage gets this key. -/
  allocations : Nat
  /-- How many buffer objects have been given an id. -/
  identities : Nat
  /-- How many references to the driver there are. -/
  holders : Nat

namespace World
variable {σ ι : Type}

/-- A driver in one pair of hands. -/
def start (driver : σ) : World σ := ⟨driver, .empty, [], [], 0, 0, 1⟩

def record (w : World σ) (e : Event) : World σ := { w with events := w.events ++ [e] }

def warn (w : World σ) (x : Warning) : World σ := w.record (.warn x)

def freshId (w : World σ) : BufferId × World σ :=
  (⟨w.identities⟩, { w with identities := w.identities + 1 })

def allocate (w : World σ) (D : Driver σ ι) (kind : BufferKind) (width height : UInt32)
    (format : PixelFormat) : Except IoError Storage × World σ :=
  match D.allocate w.allocations kind width height format w.driver with
  | (.ok a, driver) =>
    let storage : Storage := { a with key := w.allocations }
    (.ok storage, { w with driver, allocations := w.allocations + 1 }.record
      (.allocate kind width height format (.ok storage)))
  | (.error e, driver) =>
    (.error e, { w with driver }.record (.allocate kind width height format (.error e)))

def map (w : World σ) (D : Driver σ ι) (storage : Storage) : Except IoError Address × World σ :=
  let (outcome, driver) := D.map storage w.driver
  (outcome, { w with driver }.record (.map storage outcome))

/-- A failure to unmap is at most warned of. -/
def unmap (w : World σ) (D : Driver σ ι) (storage : Storage) (address : Address) : World σ :=
  let (outcome, driver) := D.unmap storage address w.driver
  let w := { w with driver }.record (.unmap storage address outcome)
  match outcome with
  | .ok _ => w
  | .error e => if D.warnsOfFailedUnmap then w.warn (.unmapFailed storage.handle e) else w

/-- A failure to release is warned of. -/
def release (w : World σ) (D : Driver σ ι) (storage : Storage) : World σ :=
  let (outcome, driver) := D.release storage w.driver
  let w := { w with driver }.record (.release storage outcome)
  match outcome with
  | .ok _ => w
  | .error e => w.warn (.releaseFailed storage.handle e)

def importDescriptor (w : World σ) (D : Driver σ ι) (d : Dmabuf) :
    Except IoError Handle × World σ :=
  let (outcome, driver) := D.importDescriptor d w.driver
  (outcome, { w with driver }.record (.importDescriptor d outcome))

/-- The new descriptor is open and belongs to the caller. -/
def exportHandle (w : World σ) (D : Driver σ ι) (handle : Handle) (flags : ExportFlags) :
    Except IoError Dmabuf × World σ :=
  match D.exportHandle handle flags w.driver with
  | (.ok d, driver) =>
    (.ok d, { w with driver, descriptors := d :: w.descriptors }.record
      (.exportHandle handle flags (.ok d)))
  | (.error e, driver) =>
    (.error e, { w with driver }.record (.exportHandle handle flags (.error e)))

/-- A second descriptor of the same shared buffer. -/
def duplicate (w : World σ) (D : Driver σ ι) (d : Dmabuf) : Except IoError Dmabuf × World σ :=
  match D.duplicate d w.driver with
  | (.ok _, driver) =>
    (.ok d, { w with driver, descriptors := d :: w.descriptors }.record (.duplicate d (.ok ())))
  | (.error e, driver) => (.error e, { w with driver }.record (.duplicate d (.error e)))

def close (w : World σ) (d : Dmabuf) : World σ :=
  { w with descriptors := w.descriptors.erase d }.record (.close d)

/-- The bytes behind an address, as the address space is now. -/
def view (w : World σ) (D : Driver σ ι) (a : Address) : Nat → Cell := (D.shows a · w.driver)

/-- A descriptor of a buffer that another process shares. -/
def receive (w : World σ) (D : Driver σ ι) : Dmabuf × World σ :=
  let (d, driver) := D.receive w.driver
  (d, { w with driver, descriptors := d :: w.descriptors })

def outside (w : World σ) (D : Driver σ ι) (i : ι) : World σ :=
  { w with driver := D.outside i w.driver }

/-- One more holds the driver. -/
def hold (w : World σ) : World σ := { w with holders := w.holders + 1 }

/-- One who held the driver lets go of it. The session with the driver ends with the last. -/
def letGo (w : World σ) (D : Driver σ ι) : World σ :=
  { w with
    driver := if w.holders = 1 then D.shutdown w.driver else w.driver
    holders := w.holders - 1 }

end World
end DisplayBuffers
