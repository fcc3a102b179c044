import DisplayBuffers.Driver
import DisplayBuffers.Table

/-! A simulated machine: handles, shared buffers and storage are counted, calls can be made to fail,
and the next allocation can be given other values than the machine would choose. -/
namespace DisplayBuffers.Simulation

/-- A call fails after `skip` more calls, and then so many times, or for ever. -/
structure Fault where
  errno : Errno
  skip : Nat
  times : Option Nat
  deriving DecidableEq, Repr

/-- Values for the next allocation in place of the machine's own. -/
structure Override where
  stride : Option UInt32
  width : Option UInt32
  height : Option UInt32
  handle : Option Handle
  deriving DecidableEq, Repr

def Override.none : Override := ⟨.none, .none, .none, .none⟩

/-- Storage as the machine keeps it. Released storage stays on record. -/
structure StorageRecord where
  key : Nat
  handle : Handle
  length : Nat
  live : Bool
  deriving DecidableEq, Repr

/-- Storage up to this length has bytes behind it. -/
def backedLimit : Nat := 4194304

def StorageRecord.isBacked (r : StorageRecord) : Bool := r.length ≤ backedLimit

/-- What other parties do to the machine. -/
inductive Influence where
  | fault (call : String) (fault : Option Fault)
  | override (values : Override)
  deriving DecidableEq, Repr

structure Machine where
  handles : Nat
  dmabufs : Nat
  /-- In order of allocation. -/
  storages : List StorageRecord
  faults : Table String Fault
  override : Override
  /-- The dumb buffer capability. -/
  capability : UInt64
  driverName : String

/-- What an allocation obtained, before it is put into the words of a driver or a kernel. -/
structure Obtained where
  handle : Handle
  stride : UInt32
  width : UInt32
  height : UInt32
  length : Nat
  deriving DecidableEq, Repr

namespace Machine

def fresh (capability : UInt64) (driverName : String) : Machine where
  handles := 0
  dmabufs := 0
  storages := []
  faults := .empty
  override := .none
  capability := capability
  driverName := driverName

def influence (m : Machine) : Influence → Machine
  | .fault call none => { m with faults := m.faults.erase call }
  | .fault call (some f) => { m with faults := m.faults.insert call f }
  | .override values => { m with override := values }

/-- Counts a call against its fault: the error, if this call is to fail. -/
def check (m : Machine) (call : String) : Option Errno × Machine :=
  match m.faults.find? call with
  | none => (none, m)
  | some f =>
    if 0 < f.skip then
      (none, { m with faults := m.faults.insert call { f with skip := f.skip - 1 } })
    else
      match f.times with
      | none => (some f.errno, m)
      | some 0 => (none, m)
      | some (n + 1) =>
        (some f.errno, { m with faults := m.faults.insert call { f with times := some n } })

/-- A call that either fails or has its effect. -/
def attempt {α : Type} (m : Machine) (call : String)
    (effect : Machine → Except Errno α × Machine) : Except Errno α × Machine :=
  match m.check call with
  | (some e, m) => (.error e, m)
  | (none, m) => effect m

/-- The bytes of a row of pixels, rounded up to a multiple of 64, as a 32-bit word. -/
def rowStride (width : UInt32) : UInt32 := UInt32.ofNat ((width.toNat * 4 + 63) / 64 * 64)

def newHandle (m : Machine) : Handle × Machine :=
  (⟨UInt32.ofNat (m.handles + 1)⟩, { m with handles := m.handles + 1 })

def newDmabuf (m : Machine) : Dmabuf × Machine :=
  (⟨m.dmabufs + 1⟩, { m with dmabufs := m.dmabufs + 1 })

/-- Storage for so many pixels under a key. A handle that is overridden uses up none of the
machine's own, and there are bytes for the larger of the heights asked for and reported. -/
def allocate (m : Machine) (key : Nat) (width height : UInt32) : Obtained × Machine :=
  let o := m.override
  let (handle, m) := match o.handle with
    | some h => (h, m)
    | none => m.newHandle
  let stride := o.stride.getD (rowStride width)
  let reported := o.height.getD height
  let length := stride.toNat * max height.toNat reported.toNat
  ({ handle, stride, width := o.width.getD width, height := reported, length },
    { m with
      override := .none
      storages := m.storages ++ [{ key, handle, length, live := true }] })

/-- Storage is mapped where nothing else will ever be, and stays there. -/
def shows : Address → Nat → Cell
  | .mapped key, offset => .storage key offset
  | .client key, offset => .client key offset

def storage? (m : Machine) (key : Nat) : Option StorageRecord :=
  m.storages.find? fun r => r.key = key

/-- The latest live storage with a handle. -/
def liveStorage? (m : Machine) (handle : Handle) : Option StorageRecord :=
  m.storages.reverse.find? fun r => r.live && r.handle = handle

def retire (m : Machine) (key : Nat) : Machine :=
  { m with storages := m.storages.map fun r => if r.key = key then { r with live := false } else r }

/-- Handles of the storage that has not been released, in order of allocation. -/
def liveHandles (m : Machine) : List Handle := (m.storages.filter (·.live)).map (·.handle)

end Machine
end DisplayBuffers.Simulation
