import DisplayBuffers.Session.Basic

/-! One operation of a session, and runs of operations. -/
namespace DisplayBuffers.Session
variable {σ ι : Type}

/-- Creates or imports a buffer object and keeps it under a name. -/
def addObject (D : Driver σ ι) (s : Session σ) (name : String)
    (made : Except Error BufferObject × World σ) : Outcome × Session σ :=
  match made with
  | (.ok b, w) => (⟨.done, .object b⟩, (s.withWorld w).keepObject D name b)
  | (.error e, w) => (s.withWorld w).reply (.failed e)

/-- Keeps the descriptor that an operation on a buffer object made. -/
def shareObject (D : Driver σ ι) (s : Session σ) (target : Target) (name : String) :
    Outcome × Session σ :=
  let (outcome, s) := s.onObject target fun b w =>
    match b.share D w with
    | (.ok d, w) => (.dmabuf d, b, w)
    | (.error e, w) => (.failed e, b, w)
  match outcome.answer with
  | .dmabuf d => (outcome, s.keepDescriptor name d)
  | _ => (outcome, s)

/-- Remembers the id of a buffer object. -/
def saveId (s : Session σ) (target : Target) (name : String) : Outcome × Session σ :=
  let (outcome, s) := s.onObject target fun b w => (.done, b, w)
  match outcome.subject with
  | .object b => (outcome, { s with ids := s.ids.insert name b.id })
  | _ => (outcome, s)

/-- Locks the front of a surface and remembers the id of the buffer, if there is one. -/
def lockFront (s : Session σ) (surface : String) (name : Option String) : Outcome × Session σ :=
  let (outcome, s) := s.onSurface surface fun x w =>
    let (id, x) := x.lockFront
    (.identity id, x, w)
  match outcome.answer, name with
  | .identity (some id), some name => (outcome, { s with ids := s.ids.insert name id })
  | _, _ => (outcome, s)

/-- The buffer that names stand for, if all are known and there is something to show. -/
def slotBuffer? (s : Session σ) (x : NamedBuffer) : Option SlotBuffer :=
  match x.descriptor, x.memory with
  | none, none => none
  | some d, none => (s.descriptors.find? d).map fun d => ⟨x.stride, some d, none⟩
  | none, some m => (s.memories.lookup m).map fun m => ⟨x.stride, none, some m.address⟩
  | some d, some m =>
    match s.descriptors.find? d, s.memories.lookup m with
    | some d, some m => some ⟨x.stride, some d, some m.address⟩
    | _, _ => none

/-- Puts a buffer into a slot, or nothing. Its descriptor leaves the client's hands in any case. -/
def replace (D : Driver σ ι) (s : Session σ) (surface : String) (index : Nat)
    (buffer : Option NamedBuffer) : Outcome × Session σ :=
  let put (s : Session σ) (buffer : Option SlotBuffer) :=
    s.onSurface surface fun x w =>
      let (outcome, x, w) := x.replace D index buffer w
      (.ofUnit outcome, x, w)
  match s.surfaces.find? surface, buffer with
  | none, _ => s.refuse
  | some _, none => put s none
  | some _, some x =>
    match s.slotBuffer? x with
    | none => s.refuse
    | some b =>
      let descriptors := match x.descriptor with
        | some name => s.descriptors.erase name
        | none => s.descriptors
      put { s with descriptors } (some b)

/-- So many first bytes of a view, as far as a range is within them, and their sum. -/
def readBytes (m : Memory) (view : Nat → Cell) (length offset count : Nat) : Answer :=
  .bytes (if offset + count ≤ length then some (m.read view offset count) else none)
    (m.sum view length) length

/-- One operation. A surface holds the driver from its creation on, as the device does. -/
def step (D : Driver σ ι) (s : Session σ) : Op ι → Outcome × Session σ
  | .outside i => { s with world := s.world.outside D i }.reply .done
  | .receive name =>
    let (d, w) := s.world.receive D
    ((s.withWorld w).keepDescriptor name d).reply (.dmabuf d)
  | .close name =>
    match s.descriptors.find? name with
    | none => s.refuse
    | some d =>
      { s with world := s.world.close d, descriptors := s.descriptors.erase name }.reply .done
  | .newMemory name length =>
    { s with memories := (name, ⟨s.memories.length, length⟩) :: s.memories }.reply .done
  | .readMemory name offset count =>
    match s.memories.lookup name with
    | none => s.refuse
    | some m =>
      s.reply (readBytes s.world.memory (.client m.key) m.length offset count)
  | .deviceName => s.onDevice fun s => s.reply (.text Device.name)
  | .supportsFormat format usage =>
    s.onDevice fun s => s.reply (.flag (Device.supportsFormat format usage))
  | .layoutPlanes format modifier =>
    s.onDevice fun s => s.reply (.ofUnit (Device.planeCount format modifier))
  | .create name width height format usage =>
    s.onDevice fun s => s.addObject D name (BufferObject.create D width height format usage s.world)
  | .createBuffer name width height fourcc modifiers =>
    s.onDevice fun s =>
      s.addObject D name (Device.createBuffer D width height fourcc modifiers s.world)
  | .importFrom name source =>
    s.onDevice fun s =>
      match source.resolve? s.descriptors.find? with
      | none => s.refuse
      | some source => s.addObject D name (BufferObject.importFrom D source s.world)
  | .createSurface name width height format usage =>
    s.onDevice fun s =>
      match Surface.create width height format usage with
      | .error e => s.reply (.failed e)
      | .ok x => (⟨.done, .surface x⟩, (s.withWorld s.world.hold).keepSurface D name x)
  | .exportHandle handle flags name =>
    s.onDevice fun s =>
      match s.world.exportHandle D handle flags with
      | (.ok d, w) => ((s.withWorld w).keepDescriptor name d).reply (.dmabuf d)
      | (.error e, w) => (s.withWorld w).reply (.driverFailed e)
  | .importDescriptor name =>
    s.onDevice fun s =>
      match s.descriptors.find? name with
      | none => s.refuse
      | some d =>
        match s.world.importDescriptor D d with
        | (.ok handle, w) => (s.withWorld w).reply (.handle handle)
        | (.error e, w) => (s.withWorld w).reply (.driverFailed e)
  | .destroyDevice =>
    s.onDevice fun s => { s with device := false, world := s.world.letGo D }.reply .done
  | .acquire target =>
    s.onObject target fun b w =>
      match b.acquire D w with
      | (.ok a, b, w) => (.address a, b, w)
      | (.error e, b, w) => (.failed e, b, w)
  | .acquireRegion target x y width height =>
    s.onObject target fun b w =>
      match b.acquireRegion D x y width height w with
      | (.ok a, b, w) => (.address a, b, w)
      | (.error e, b, w) => (.failed e, b, w)
  | .release target =>
    s.onObject target fun b w =>
      let (b, w) := b.release D w
      (.done, b, w)
  | .write target data =>
    s.onObject target fun b w =>
      let (outcome, w) := b.write D data w
      (.ofUnit outcome, b, w)
  | .withMapping target accesses =>
    s.onObject target fun b w =>
      match b.withMapping D accesses w with
      | (.ok seen, b, w) => (.accesses seen, b, w)
      | (.error e, b, w) => (.failed e, b, w)
  | .inspect target => s.onObject target fun b w => (.done, b, w)
  | .saveId target name => s.saveId target name
  | .plane target index =>
    s.onObject target fun b w =>
      (.plane (b.planeStride index) (b.planeHandle index) (b.planeOffset index), b, w)
  | .share target name => s.shareObject D target name
  | .destroy name =>
    match s.objects.find? name with
    | none => s.refuse
    | some b =>
      { s with world := b.destroy D s.world, objects := s.objects.erase name }.reply .done
  | .inspectSurface surface => s.onSurface surface fun x w => (.done, x, w)
  | .replace surface index buffer => s.replace D surface index buffer
  | .allocate surface index =>
    s.onSurface surface fun x w =>
      match x.allocate D index w with
      | (.ok id, x, w) => (.identity (some id), x, w)
      | (.error e, x, w) => (.failed e, x, w)
  | .setFront surface front =>
    s.onSurface surface fun x w =>
      let (outcome, x) := x.setFront front
      (.ofUnit outcome, x, w)
  | .lockFront surface name => s.lockFront surface name
  | .unlock surface id =>
    match s.ids.find? id with
    | none => s.refuse
    | some id => s.onSurface surface fun x w => (.done, x.unlock id, w)
  | .destroySurface surface =>
    match s.surfaces.find? surface with
    | none => s.refuse
    | some x =>
      { s with world := x.destroy D s.world, surfaces := s.surfaces.erase surface }.reply .done

/-- Operations one after the other, with their outcomes. -/
def run (D : Driver σ ι) (s : Session σ) : List (Op ι) → List Outcome × Session σ
  | [] => ([], s)
  | op :: ops =>
    let (outcome, s) := s.step D op
    let (outcomes, s) := s.run D ops
    (outcome :: outcomes, s)

/-- Inserts a name before the first that is not smaller. -/
def insertName (name : String) : List String → List String
  | [] => [name]
  | x :: xs => if name ≤ x then name :: x :: xs else x :: insertName name xs

def sortNames (names : List String) : List String := names.foldr insertName []

/-- What the end of a session amounts to: the buffer objects go first, then the surfaces, each in
the order of their names, and then the device. -/
def closing (s : Session σ) : List (Op ι) :=
  (sortNames s.objects.keys).map .destroy ++
    (sortNames s.surfaces.keys).map .destroySurface ++
    (if s.device then [.destroyDevice] else [])

def finish (D : Driver σ ι) (s : Session σ) : Session σ := (s.run D s.closing).2

end DisplayBuffers.Session
