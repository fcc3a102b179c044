import Std.Data.HashMap
import DisplayBuffers.Driver

/-! The bytes of a machine, each in its cell. A byte that was never stored is zero. Bytes one after
the other, as they lie behind an address, are seen through a view, which tells the cell of each. -/
namespace DisplayBuffers

structure Memory where
  cells : Std.HashMap Cell UInt8

namespace Memory

def empty : Memory := ⟨∅⟩

def byte (m : Memory) (c : Cell) : UInt8 := m.cells.getD c 0

def set (m : Memory) (c : Cell) (value : UInt8) : Memory := ⟨m.cells.insert c value⟩

theorem byte_set (m : Memory) (c e : Cell) (value : UInt8) :
    (m.set c value).byte e = if e = c then value else m.byte e := by
  simp only [byte, set, Std.HashMap.getD_insert, beq_iff_eq, @eq_comm _ c e]

/-- Stores data from the start of a view on. -/
def write (m : Memory) (view : Nat → Cell) (data : List UInt8) : Memory :=
  data.zipIdx.foldl (fun m x => m.set (view x.2) x.1) m

def poke (m : Memory) (view : Nat → Cell) (offset : Nat) (value : UInt8) : Memory :=
  m.set (view offset) value

def read (m : Memory) (view : Nat → Cell) (offset count : Nat) : List UInt8 :=
  (List.range count).map fun i => m.byte (view (offset + i))

/-- The sum of the first bytes. -/
def sum (m : Memory) (view : Nat → Cell) (count : Nat) : Nat :=
  count.fold (fun i _ n => n + (m.byte (view i)).toNat) 0

end Memory
end DisplayBuffers
