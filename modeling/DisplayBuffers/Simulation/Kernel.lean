import DisplayBuffers.Dumb.Kernel
import DisplayBuffers.Simulation.Machine

/-! The simulated machine as a kernel. Its node shows each buffer at an offset that tells the
handle. -/
namespace DisplayBuffers.Simulation
namespace Machine

/-- The distance between the offsets of neighbouring handles. -/
def pageSize : Nat := 4096

def kernel : Dumb.Kernel Machine Influence where
  capability m := m.attempt "get_cap" fun m => (.ok m.capability, m)
  version m := m.attempt "version" fun m => (.ok m.driverName, m)
  createDumb width height _ _ m :=
    m.attempt "create_dumb" fun m =>
      let (x, m) := m.allocate m.storages.length width height
      (.ok ⟨x.handle, x.stride, x.width, x.height⟩, m)
  mapDumb handle m := m.attempt "map_dumb" fun m => (.ok (handle.raw.toNat * pageSize), m)
  mmap length _ _ offset m :=
    m.attempt "mmap" fun m =>
      if length = 0 then (.error .invalidArgument, m)
      else
        match m.liveStorage? ⟨UInt32.ofNat (offset / pageSize)⟩ with
        | some r => (if r.isBacked then .ok (some (.mapped r.key)) else .error .outOfMemory, m)
        | none => (.error .outOfMemory, m)
  munmap _ _ m := m.attempt "munmap" fun m => (.ok (), m)
  destroyDumb handle m :=
    m.attempt "destroy_dumb" fun m =>
      match m.liveStorage? handle with
      | some r => (.ok (), m.retire r.key)
      | none => (.ok (), m)
  primeToHandle _ m :=
    m.attempt "prime_fd_to_handle" fun m =>
      let (h, m) := m.newHandle
      (.ok h, m)
  primeFromHandle _ _ m :=
    m.attempt "prime_handle_to_fd" fun m =>
      let (d, m) := m.newDmabuf
      (.ok d, m)
  duplicate _ m := m.attempt "dup" fun m => (.ok (), m)
  receive := newDmabuf
  outside i m := m.influence i
  shows a offset _ := shows a offset

end Machine
end DisplayBuffers.Simulation
