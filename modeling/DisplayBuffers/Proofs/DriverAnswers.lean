import DisplayBuffers.World

/-! Calls with the outcomes that stand in the log, as the driver takes them. A list of calls is
answered if each outcome is the driver's own, in the state that the calls before it leave. -/
namespace DisplayBuffers
variable {σ ι : Type}

/-- Whether a call made storage. -/
def Event.makes : Event → Bool
  | .allocate _ _ _ _ (.ok _) => true
  | _ => false

namespace Driver
variable (D : Driver σ ι)

/-- The driver's state after a call in some state, when so many storages were made before. -/
def after (x : σ) (n : Nat) : Event → σ
  | .allocate kind width height format _ => (D.allocate n kind width height format x).2
  | .map s _ => (D.map s x).2
  | .unmap s a _ => (D.unmap s a x).2
  | .release s _ => (D.release s x).2
  | .importDescriptor d _ => (D.importDescriptor d x).2
  | .exportHandle handle flags _ => (D.exportHandle handle flags x).2
  | .duplicate d _ => (D.duplicate d x).2
  | .close _ | .warn _ => x

/-- The driver answers a call in some state as the log says. New storage has the number of those
made before it for a key. -/
def Gives (x : σ) (n : Nat) : Event → Prop
  | .allocate kind width height format outcome =>
    outcome = (D.allocate n kind width height format x).1.map (Storage.mk · n)
  | .map s outcome => outcome = (D.map s x).1
  | .unmap s a outcome => outcome = (D.unmap s a x).1
  | .release s outcome => outcome = (D.release s x).1
  | .importDescriptor d outcome => outcome = (D.importDescriptor d x).1
  | .exportHandle handle flags outcome => outcome = (D.exportHandle handle flags x).1
  | .duplicate d outcome => outcome = (D.duplicate d x).1
  | .close _ | .warn _ => True

/-- The driver answers calls as the log says, one after the other and with nothing between them,
which takes it from one state to another. -/
def Answered : List Event → σ → Nat → σ → Prop
  | [], x, _, y => y = x
  | e :: l, x, n, y => D.Gives x n e ∧ Answered l (D.after x n e) (if e.makes then n + 1 else n) y

end Driver

namespace World
variable {w w' : World σ} {D : Driver σ ι}

theorem allocate_given {kind : BufferKind} {width height : UInt32} {format : PixelFormat}
    {r : Except IoError Storage} (h : w.allocate D kind width height format = (r, w')) :
    D.Gives w.driver w.allocations (.allocate kind width height format r) := by
  rw [allocate] at h
  split at h
  · next a driver ha =>
    obtain ⟨rfl, -⟩ := Prod.mk.inj h
    simp only [Driver.Gives, ha, Except.map]
  · next e driver ha =>
    obtain ⟨rfl, -⟩ := Prod.mk.inj h
    simp only [Driver.Gives, ha, Except.map]

theorem map_given {s : Storage} {r : Except IoError Address} (h : w.map D s = (r, w')) :
    D.Gives w.driver w.allocations (.map s r) :=
  (Prod.mk.inj h).1.symm

theorem exportHandle_given {handle : Handle} {flags : ExportFlags} {r : Except IoError Dmabuf}
    (h : w.exportHandle D handle flags = (r, w')) :
    D.Gives w.driver w.allocations (.exportHandle handle flags r) := by
  rw [exportHandle] at h
  split at h
  · next d driver hd =>
    obtain ⟨rfl, -⟩ := Prod.mk.inj h
    simp only [Driver.Gives, hd]
  · next e driver hd =>
    obtain ⟨rfl, -⟩ := Prod.mk.inj h
    simp only [Driver.Gives, hd]

theorem duplicate_given {d : Dmabuf} {r : Except IoError Dmabuf}
    (h : w.duplicate D d = (r, w')) :
    D.Gives w.driver w.allocations (.duplicate d (r.map fun _ => ())) := by
  rw [duplicate] at h
  split at h
  · next driver hd =>
    obtain ⟨rfl, -⟩ := Prod.mk.inj h
    simp only [Driver.Gives, hd, Except.map]
  · next e driver hd =>
    obtain ⟨rfl, -⟩ := Prod.mk.inj h
    simp only [Driver.Gives, hd, Except.map]

end World
end DisplayBuffers
