import DisplayBuffers.Dumb.Driver
import DisplayBuffers.Session.Step
import DisplayBuffers.Simulation.Kernel
import DisplayBuffers.Simulation.MemoryDriver
import DisplayBuffers.Simulation.Report

/-! Sessions on a simulated machine, with a report after each operation. The machine serves as the
driver itself or as the kernel below the dumb buffer driver. -/
namespace DisplayBuffers.Simulation
open Session (Op Outcome Subject)

/-- How a simulated machine takes part in a session. -/
structure Stage (σ : Type) where
  driver : Driver σ Influence
  machine : σ → Machine
  /-- The calls that one world has more than an earlier one. -/
  calls : Legend → (earlier later : World σ) → List CallLine
  nodeOpen : σ → Bool
  description : Option String

namespace Stage

/-- The machine is the driver. -/
def memory : Stage Machine where
  driver := Machine.driver
  machine m := m
  calls l earlier later :=
    (later.events.drop earlier.events.length).filterMap (eventLine? l)
  nodeOpen _ := false
  description := none

/-- The number under which the process knows the display node. -/
def nodeDescriptor : Nat := 500

def kernelLines (l : Legend) (earlier later : Dumb.Connection Machine) : List CallLine :=
  (later.calls.drop earlier.calls.length).filterMap (kernelLine? l)

/-- The machine is the kernel. -/
def dumb : Stage (Dumb.Connection Machine) where
  driver := Dumb.driver Machine.kernel
  machine c := c.kernel
  calls l earlier later := kernelLines l earlier.driver later.driver
  nodeOpen c := c.nodeOpen
  description := some (Dumb.describe nodeDescriptor)

end Stage

/-- A session together with the ids that its reports have shown. -/
structure Rehearsal (σ : Type) where
  session : Session σ
  shown : List BufferId

/-- An operation of the client, or a look behind the scenes. -/
inductive Directive where
  | op (op : Op Influence)
  | readStorage (handle : Handle) (offset count : Nat)
  | describe

namespace Rehearsal
variable {σ : Type}

def start (driver : σ) : Rehearsal σ := ⟨.start driver, []⟩

/-- Ids that are shown for the first time come after those shown before. -/
def note (shown ids : List BufferId) : List BufferId :=
  ids.foldl (fun l id => if id ∈ l then l else l ++ [id]) shown

/-- The ids that an outcome shows. -/
def idsOf (o : Outcome) : List BufferId :=
  o.subject.objects.map (·.id) ++ match o.answer with
    | .identity (some id) => [id]
    | _ => []

def legend (t : Stage σ) (r : Rehearsal σ) : Legend :=
  ⟨r.shown, (t.machine r.session.world.driver).storages, r.session.memories⟩

/-- Open descriptors by number. A machine's shared buffers are numbered from 1. -/
def openDescriptors (t : Stage σ) (w : World σ) : List (Nat × Nat) :=
  let dmabufs := (List.range (t.machine w.driver).dmabufs).map fun n =>
    (n + 1, w.descriptors.count ⟨n + 1⟩)
  (if t.nodeOpen w.driver then [(0, 1)] else []) ++ dmabufs.filter fun d => 0 < d.2

/-- What has happened since an earlier world. -/
def trace (t : Stage σ) (l : Legend) (earlier later : World σ) : Trace where
  calls := t.calls l earlier later
  warnings := (later.events.drop earlier.events.length).filterMap Event.warning?
  descriptors := openDescriptors t later

/-- What the machine knows of the bytes of its latest live storage with a handle. -/
def readStorage (t : Stage σ) (w : World σ) (handle : Handle) (offset count : Nat) : Reply :=
  match (t.machine w.driver).liveStorage? handle with
  | none => .noStorage
  | some r =>
    if r.isBacked then
      .session (Session.readBytes w.memory (.storage r.key) r.length offset count)
    else .unbacked

def step (t : Stage σ) (r : Rehearsal σ) : Directive → Report × Rehearsal σ
  | .op op =>
    let (o, session) := r.session.step t.driver op
    let next : Rehearsal σ := ⟨session, note r.shown (idsOf o)⟩
    let l := next.legend t
    (⟨.session o.answer, o.subject, l, trace t l r.session.world session.world⟩, next)
  | .readStorage handle offset count =>
    let w := r.session.world
    let l := r.legend t
    (⟨readStorage t w handle offset count, .nothing, l, trace t l w w⟩, r)
  | .describe =>
    let w := r.session.world
    let l := r.legend t
    let answer := match t.description with
      | some s => if r.session.device then .text s else .malformed
      | none => .malformed
    (⟨.session answer, .nothing, l, trace t l w w⟩, r)

def run (t : Stage σ) (r : Rehearsal σ) : List Directive → List Report × Rehearsal σ
  | [] => ([], r)
  | d :: ds =>
    let (report, r) := r.step t d
    let (reports, r) := r.run t ds
    (report :: reports, r)

/-- The end of a session: what it does, and the handles of the storage that is left. -/
def finish (t : Stage σ) (r : Rehearsal σ) : Trace × List Handle :=
  let session := r.session.finish t.driver
  let w := session.world
  (trace t (r.legend t) r.session.world w, (t.machine w.driver).liveHandles)

end Rehearsal

/-- The reports of a session and what its end does. -/
structure Transcript where
  reports : List Report
  ending : Trace
  left : List Handle

def rehearse {σ : Type} (t : Stage σ) (driver : σ) (ds : List Directive) : Transcript :=
  let (reports, r) := (Rehearsal.start driver).run t ds
  let (ending, left) := r.finish t
  ⟨reports, ending, left⟩

/-- A session with the machine as the driver. -/
def rehearseMemory (ds : List Directive) : Transcript :=
  rehearse .memory (.fresh 1 "") ds

/-- What opening a session on the dumb buffer driver does, and the session if that succeeds. -/
structure DumbTranscript where
  opening : Except Error Unit
  trace : Trace
  session : Option Transcript

def rehearseDumb (capability : UInt64) (driverName : String) (faults : List (String × Fault))
    (ds : List Directive) : DumbTranscript :=
  let machine := faults.foldl (fun m f => m.influence (.fault f.1 (some f.2)))
    (Machine.fresh capability driverName)
  let (opening, c) := Dumb.connect Machine.kernel machine
  let closed : Dumb.Connection Machine := ⟨machine, false, []⟩
  let l : Legend := ⟨[], [], []⟩
  let opened : Trace :=
    ⟨Stage.kernelLines l closed c, [], Rehearsal.openDescriptors .dumb (.start c)⟩
  match opening with
  | .ok _ => ⟨opening, opened, some (rehearse .dumb c ds)⟩
  | .error _ => ⟨opening, opened, none⟩

end DisplayBuffers.Simulation
