import DisplayBuffers.Proofs.Contents
import DisplayBuffers.Proofs.Descriptors
import DisplayBuffers.Proofs.Outlines

/-! Isolation. An operation changes the one buffer object that it is addressed to, or the slot, and
nothing of the others, although all share a driver and a surface looks a buffer up by its number. -/
namespace DisplayBuffers.Session
variable {σ ι : Type} {D : Driver σ ι}

namespace Op

/-- Whether an operation can change what is at a target: it works on the object there, puts
something else in its place, or locks or unlocks it. -/
inductive Concerns (s : Session σ) (t : Target) : Op ι → Prop
  | used {op} (h : op.target? = some t) : Concerns s t op
  | renewed {op} (h : op.Renews t) : Concerns s t op
  | front {surface name} (h : s.front? surface = some t) : Concerns s t (.lockFront surface name)
  | returned {surface name b} (hb : s.object? t = some b) (ht : t.surface? = some surface)
      (hid : s.ids.find? name = some b.id) : Concerns s t (.unlock surface name)

/-- The surface that an operation is addressed to, or that has the slot it is addressed to. -/
def surface? : Op ι → Option String
  | .acquire t | .acquireRegion t _ _ _ _ | .release t | .write t _ | .withMapping t _ | .inspect t
  | .saveId t _ | .plane t _ | .share t _ => t.surface?
  | .createSurface name _ _ _ _ | .destroySurface name | .inspectSurface name | .replace name _ _
  | .allocate name _ | .setFront name _ | .lockFront name _ | .unlock name _ => some name
  | _ => none

variable {s : Session σ} {op : Op ι} {t u : Target} {surface : String}

end Op

section
variable {s : Session σ} {op : Op ι} {t : Target} {b : BufferObject}

end

/-- No operation closes a descriptor that an object keeps. -/
theorem descriptor_open (D : Driver σ ι) (d : σ) (ops : List (Op ι)) {t : Target}
    {b : BufferObject} {x : Dmabuf} (hb : ((start d).run D ops).2.object? t = some b)
    (hx : b.descriptor? = some x) : x ∈ ((start d).run D ops).2.world.descriptors := by
  have hstart : Accounted 0 ((start d).estate.holdings, (start d).world) := ⟨rfl, rfl⟩
  have hopen := (run_accounted (D := D) ops hstart).holders
  obtain ⟨p, hlive⟩ := live_of_object? hb
  have hheld : Holding.descriptor x ∈ ((start d).run D ops).2.estate.holdings :=
    Estate.mem_holdings hlive (BufferObject.descriptor_mem_holdings hx)
  rw [← Multiset.mem_coe, hopen]
  exact (Multiset.mem_filterMap _ _).mpr ⟨_, hheld, rfl⟩

end DisplayBuffers.Session

namespace DisplayBuffers.Dumb

/-- A kernel that reports twice the rows that it was asked for, and maps buffers of one pixel one
after the other. -/
def Kernel.crowded : Kernel Nat Unit where
  capability n := (.ok 1, n)
  version n := (.ok "crowded", n)
  createDumb width height _ _ n :=
    (.ok ⟨⟨UInt32.ofNat (n + 1)⟩, 4 * width, width, 2 * height⟩, n + 1)
  mapDumb handle n := (.ok handle.raw.toNat, n)
  mmap _ _ _ offset n := (.ok (some (.mapped offset)), n)
  munmap _ _ n := (.ok (), n)
  destroyDumb _ n := (.ok (), n)
  primeToHandle _ n := (.error .outOfMemory, n)
  primeFromHandle handle _ n := (.ok ⟨handle.raw.toNat⟩, n)
  duplicate _ n := (.ok (), n)
  receive n := (⟨0⟩, n)
  outside _ n := n
  shows
    | .mapped k, i, _ => .storage 0 (4 * k + i)
    | .client key, i, _ => .client key i

/-- What is stored beyond a mapping can belong to another object: here the fifth byte of an object
of one row, which is told to have two, is the first of the next. -/
theorem stores_beyond_mapping :
    let D := driver .crowded
    let s := ((Session.start ⟨0, true, []⟩).run D
      [.create "a" 1 1 PixelFormat.xrgb8888.code .write,
        .create "b" 1 1 PixelFormat.xrgb8888.code .write]).2
    let t := s.step D (.write (.object "a") [0, 0, 0, 0, 1])
    t.1.answer = .done ∧
      (s.objects.find? "b").bind (·.mapping) = some (.mapped 2) ∧
      t.2.world.memory.byte (s.world.view D (.mapped 2) 0) ≠
        s.world.memory.byte (s.world.view D (.mapped 2) 0) := by
  intro D s t
  refine ⟨rfl, rfl, ?_⟩
  have ht : t.2.world.memory = Memory.empty.write (.storage 0 <| 4 + ·) [0, 0, 0, 0, 1] := rfl
  have hs : s.world.memory = Memory.empty := rfl
  have hv : Set.InjOn (Cell.storage 0 <| 4 + ·) (Set.Iio 5) := fun i _ j _ h => by simpa using h
  have hb : t.2.world.memory.byte (.storage 0 (4 + 4)) = 1 := by
    rw [ht]
    exact Memory.byte_write hv (by decide) (by decide)
  rw [hs]
  change t.2.world.memory.byte (.storage 0 (4 + 4)) ≠ Memory.empty.byte _
  rw [hb, Memory.empty, Memory.byte, Std.HashMap.getD_empty]
  decide

end DisplayBuffers.Dumb
