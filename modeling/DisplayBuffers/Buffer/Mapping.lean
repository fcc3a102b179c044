import DisplayBuffers.Buffer.Basic

/-! Access to the bytes of a buffer object. Every user acquires a reference and releases it; owned
storage is mapped for the first reference and unmapped after the last. -/
namespace DisplayBuffers
namespace BufferObject
variable {σ ι : Type}

def retain (b : BufferObject) (a : Address) : BufferObject :=
  { b with mapping := some a, references := b.references + 1 }

/-- Takes a reference to the mapping. All references held at one time have the same address. -/
def acquire (b : BufferObject) (D : Driver σ ι) (w : World σ) :
    Except Error Address × BufferObject × World σ :=
  match b.backing, b.mapping with
  | .owned _ _, some a => (.ok a, b.retain a, w)
  | .owned storage _, none =>
    match w.map D storage with
    | (.ok a, w) => (.ok a, b.retain a, w)
    | (.error e, w) => (.error (.allocation .mapStorage e), b, w)
  | .borrowed _ (some a), _ => (.ok a, b.retain a, w)
  | .borrowed _ none, _ => (.error (.invalidArgument .noCpuStorage), b, w)

/-- Acquires for a region. Only the whole buffer can be mapped. -/
def acquireRegion (b : BufferObject) (D : Driver σ ι) (x y width height : UInt32) (w : World σ) :
    Except Error Address × BufferObject × World σ :=
  if x = 0 ∧ y = 0 ∧ width = b.width ∧ height = b.height then b.acquire D w
  else (.error (.invalidArgument .partialRegion), b, w)

/-- Gives a reference back. On an object that is not mapped this does nothing. -/
def release (b : BufferObject) (D : Driver σ ι) (w : World σ) : BufferObject × World σ :=
  match b.mapping with
  | none => (b, w)
  | some a =>
    let left := b.references - 1
    if left = 0 then
      ({ b with mapping := none, references := left },
        match b.backing with
        | .owned storage _ => w.unmap D storage a
        | .borrowed _ _ => w)
    else ({ b with references := left }, w)

/-- Copies data to the address of the mapping. -/
def write (b : BufferObject) (D : Driver σ ι) (data : List UInt8) (w : World σ) :
    Except Error Unit × World σ :=
  match b.mapping with
  | none => (.error .notMapped, w)
  | some a =>
    if b.byteSize < data.length then (.error (.invalidArgument .writeTooLong), w)
    else (.ok (), { w with memory := w.memory.write (w.view D a) data })

/-- What a user of a mapping may do with it. -/
inductive Access where
  | write (data : List UInt8)
  | poke (offset : Nat) (value : UInt8)
  | peek (offset count : Nat)
  | inspect
  deriving DecidableEq, Repr

/-- What an access answers. -/
inductive Seen where
  | written (outcome : Except Error Unit)
  | poked (inRange : Bool)
  | peeked (bytes : Option (List UInt8))
  | inspected (length references : Nat) (address : Address)
  deriving DecidableEq

/-- One access by the holder of a reference to the mapping at an address, which is taken to have
`byteSize` bytes. -/
def access (b : BufferObject) (D : Driver σ ι) (a : Address) (w : World σ) :
    Access → Seen × World σ
  | .write data =>
    let (outcome, w) := b.write D data w
    (.written outcome, w)
  | .poke offset value =>
    if offset < b.byteSize then
      (.poked true, { w with memory := w.memory.poke (w.view D a) offset value })
    else (.poked false, w)
  | .peek offset count =>
    if offset + count ≤ b.byteSize then
      (.peeked (some (w.memory.read (w.view D a) offset count)), w)
    else (.peeked none, w)
  | .inspect => (.inspected b.byteSize b.references a, w)

def accessAll (b : BufferObject) (D : Driver σ ι) (a : Address) :
    List Access → World σ → List Seen × World σ
  | [], w => ([], w)
  | x :: xs, w =>
    let (seen, w) := b.access D a w x
    let (rest, w) := b.accessAll D a xs w
    (seen :: rest, w)

/-- Holds a reference for as long as the accesses take. -/
def withMapping (b : BufferObject) (D : Driver σ ι) (accesses : List Access) (w : World σ) :
    Except Error (List Seen) × BufferObject × World σ :=
  match b.acquire D w with
  | (.error e, b, w) => (.error e, b, w)
  | (.ok a, b, w) =>
    let (seen, w) := b.accessAll D a accesses w
    let (b, w) := b.release D w
    (.ok seen, b, w)

end BufferObject
end DisplayBuffers
