/-! Flag words: a 32-bit word of which some bits are declared. Undeclared bits are kept as they
come; `truncate` removes them and `known?` refuses them. -/
namespace DisplayBuffers

structure Flag where
  name : String
  bit : UInt32
  deriving DecidableEq, Repr

namespace Flags

def mask (declared : List Flag) : UInt32 := declared.foldr (fun f m => f.bit ||| m) 0

def truncate (declared : List Flag) (bits : UInt32) : UInt32 := bits &&& mask declared

def known? (declared : List Flag) (bits : UInt32) : Option UInt32 :=
  if truncate declared bits = bits then some bits else none

/-- Names of the declared flags that are set, in the order of declaration. -/
def names (declared : List Flag) (bits : UInt32) : List String :=
  (declared.filter fun f => bits &&& f.bit = f.bit).map (·.name)

end Flags

/-- What a client says it will do with a buffer. -/
structure Usage where
  bits : UInt32
  deriving DecidableEq, Repr

namespace Usage

def scanout : Usage := ⟨1⟩
def cursor : Usage := ⟨2⟩
def rendering : Usage := ⟨4⟩
def write : Usage := ⟨8⟩
def linear : Usage := ⟨16⟩

def declared : List Flag :=
  [⟨"SCANOUT", scanout.bits⟩, ⟨"CURSOR", cursor.bits⟩, ⟨"RENDERING", rendering.bits⟩,
    ⟨"WRITE", write.bits⟩, ⟨"LINEAR", linear.bits⟩]

def contains (u v : Usage) : Bool := u.bits &&& v.bits = v.bits

def union (u v : Usage) : Usage := ⟨u.bits ||| v.bits⟩

end Usage

/-- How an exported descriptor is opened. -/
structure ExportFlags where
  bits : UInt32
  deriving DecidableEq, Repr

namespace ExportFlags

/-- The descriptor does not survive the start of another program. -/
def closeOnExec : ExportFlags := ⟨0x80000⟩

/-- The descriptor may be mapped for writing. -/
def readWrite : ExportFlags := ⟨2⟩

def declared : List Flag := [⟨"CLOEXEC", closeOnExec.bits⟩, ⟨"RDWR", readWrite.bits⟩]

end ExportFlags
end DisplayBuffers
