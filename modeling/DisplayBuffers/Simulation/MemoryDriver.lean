import DisplayBuffers.Simulation.Machine

/-! The simulated machine as a driver. Storage is mapped at its own start, and every import makes a
new handle. -/
namespace DisplayBuffers.Simulation
namespace Machine

/-- A machine's answer as that of a driver. -/
def asDriver {α : Type} (r : Except Errno α × Machine) : Except IoError α × Machine :=
  (r.1.mapError .os, r.2)

def driver : Driver Machine Influence where
  allocate key kind width height _ m :=
    asDriver <| m.attempt "allocate" fun m =>
      let (w, h) := kind.dimensions width height
      let (x, m) := m.allocate key w h
      (.ok ⟨x.handle, x.stride, x.width, x.height, x.length⟩, m)
  map storage m :=
    asDriver <| m.attempt "map" fun m =>
      match m.storage? storage.key with
      | some r => (if r.isBacked then .ok (.mapped r.key) else .error .outOfMemory, m)
      | none => (.error .outOfMemory, m)
  unmap _ _ m := asDriver <| m.attempt "unmap" fun m => (.ok (), m)
  release storage m := asDriver <| m.attempt "release" fun m => (.ok (), m.retire storage.key)
  importDescriptor _ m :=
    asDriver <| m.attempt "import" fun m =>
      let (h, m) := m.newHandle
      (.ok h, m)
  exportHandle _ _ m :=
    asDriver <| m.attempt "export" fun m =>
      let (d, m) := m.newDmabuf
      (.ok d, m)
  duplicate _ m := asDriver <| m.attempt "dup" fun m => (.ok (), m)
  receive := newDmabuf
  outside i m := m.influence i
  shutdown m := m
  shows a offset _ := shows a offset
  warnsOfFailedUnmap := false

end Machine
end DisplayBuffers.Simulation
