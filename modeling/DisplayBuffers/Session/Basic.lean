import DisplayBuffers.Session.Op
import DisplayBuffers.Table

/-! A client's session with a device: what the client holds, by name, and the world it acts on. -/
namespace DisplayBuffers

/-- Memory that the client brings along. -/
structure ClientMemory where
  key : Nat
  length : Nat
  deriving DecidableEq, Repr

def ClientMemory.address (m : ClientMemory) : Address := .client m.key

structure Session (σ : Type) where
  world : World σ
  device : Bool
  objects : Table String BufferObject
  surfaces : Table String Surface
  descriptors : Table String Dmabuf
  /-- The latest first. -/
  memories : List (String × ClientMemory)
  ids : Table String BufferId

namespace Session
variable {σ ι : Type}

/-- A device that holds a driver, and nothing made with it yet. -/
def start (driver : σ) : Session σ where
  world := .start driver
  device := true
  objects := .empty
  surfaces := .empty
  descriptors := .empty
  memories := []
  ids := .empty

def withWorld (s : Session σ) (w : World σ) : Session σ := { s with world := w }

/-- Keeps a descriptor under a name; one that had the name is closed. -/
def keepDescriptor (s : Session σ) (name : String) (d : Dmabuf) : Session σ :=
  let world := match s.descriptors.find? name with
    | some old => s.world.close old
    | none => s.world
  { s with world, descriptors := s.descriptors.insert name d }

/-- Keeps a buffer object under a name; one that had the name is destroyed. -/
def keepObject (D : Driver σ ι) (s : Session σ) (name : String) (b : BufferObject) : Session σ :=
  let world := match s.objects.find? name with
    | some old => old.destroy D s.world
    | none => s.world
  { s with world, objects := s.objects.insert name b }

/-- Keeps a surface under a name; one that had the name is destroyed. -/
def keepSurface (D : Driver σ ι) (s : Session σ) (name : String) (x : Surface) : Session σ :=
  let world := match s.surfaces.find? name with
    | some old => old.destroy D s.world
    | none => s.world
  { s with world, surfaces := s.surfaces.insert name x }

def refuse (s : Session σ) : Outcome × Session σ := (⟨.malformed, .nothing⟩, s)

def reply (s : Session σ) (answer : Answer) : Outcome × Session σ := (⟨answer, .nothing⟩, s)

/-- Works on a buffer object and puts it back. -/
def onObject (s : Session σ) (target : Target)
    (f : BufferObject → World σ → Answer × BufferObject × World σ) : Outcome × Session σ :=
  match target with
  | .object name =>
    match s.objects.find? name with
    | none => s.refuse
    | some b =>
      let (answer, b, world) := f b s.world
      (⟨answer, .object b⟩, { s with world, objects := s.objects.insert name b })
  | .slot surface index =>
    match s.surfaces.find? surface with
    | none => s.refuse
    | some x =>
      match x.slot? index with
      | none => s.reply .noSlot
      | some b =>
        let (answer, b, world) := f b s.world
        (⟨answer, .object b⟩,
          { s with world, surfaces := s.surfaces.insert surface (x.withSlot index (some b)) })

/-- Works on a surface and puts it back. -/
def onSurface (s : Session σ) (name : String)
    (f : Surface → World σ → Answer × Surface × World σ) : Outcome × Session σ :=
  match s.surfaces.find? name with
  | none => s.refuse
  | some x =>
    let (answer, x, world) := f x s.world
    (⟨answer, .surface x⟩, { s with world, surfaces := s.surfaces.insert name x })

/-- Uses the device, unless it was destroyed. -/
def onDevice (s : Session σ) (f : Session σ → Outcome × Session σ) : Outcome × Session σ :=
  if s.device then f s else s.refuse

end Session
end DisplayBuffers
