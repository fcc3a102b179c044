import DisplayBuffers.Dumb.Kernel
import DisplayBuffers.Session.Basic
import DisplayBuffers.Simulation.Machine

/-! What a rehearsed session reports: the calls that were made, in one form for drivers and kernels,
and the legend that gives ids and addresses a meaning outside the session. -/
namespace DisplayBuffers.Simulation

/-- What an address is the start of. -/
inductive Place where
  | storage (handle : Handle)
  | memory (name : String)
  deriving DecidableEq, Repr

/-- How to read a report. Ids are numbered in the order in which reports first show them. -/
structure Legend where
  ids : List BufferId
  storages : List StorageRecord
  memories : List (String × ClientMemory)

namespace Legend

def number (l : Legend) (id : BufferId) : Nat := l.ids.idxOf id

def place (l : Legend) : Address → Place
  | .mapped key =>
    .storage (((l.storages.find? fun r => r.key = key).map (·.handle)).getD .null)
  | .client key =>
    .memory (((l.memories.find? fun m => m.2.key = key).map (·.1)).getD "")

end Legend

inductive Argument where
  | number (n : Nat)
  | text (s : String)
  | place (p : Place)
  deriving DecidableEq, Repr

/-- A call with its outcome. -/
structure CallLine where
  name : String
  arguments : List Argument
  outcome : String
  deriving DecidableEq, Repr

def outcomeText {α : Type} : Except IoError α → String
  | .ok _ => "ok"
  | .error (.os e) => "errno " ++ toString e.number
  | .error e => e.message

def kindLabel : BufferKind → String
  | .scanout => "Scanout"
  | .cursor => "Cursor64x64"

private def word (n : UInt32) : Argument := .number n.toNat

private def handle (h : Handle) : Argument := word h.raw

private def dmabuf (d : Dmabuf) : Argument := .number d.number

private def length (n : Nat) : Argument := .text (toString n)

/-- The line for an event, if it is a call. -/
def eventLine? (l : Legend) : Event → Option CallLine
  | .allocate kind w h format r =>
    some ⟨"allocate", [.text (kindLabel kind), word w, word h, word format.code],
      outcomeText r⟩
  | .map s r => some ⟨"map", [handle s.handle], outcomeText r⟩
  | .unmap s a r => some ⟨"unmap", [handle s.handle, .place (l.place a)], outcomeText r⟩
  | .release s r => some ⟨"release", [handle s.handle], outcomeText r⟩
  | .importDescriptor d r => some ⟨"import", [dmabuf d], outcomeText r⟩
  | .exportHandle h f r => some ⟨"export", [handle h, word f.bits], outcomeText r⟩
  | .duplicate d r => some ⟨"dup", [dmabuf d], outcomeText r⟩
  | .close _ | .warn _ => none

/-- The handle behind an address. -/
private def handleAt (l : Legend) (a : Address) : Argument :=
  match l.place a with
  | .storage h => handle h
  | p => .place p

/-- The line for a call to a kernel. Closing the node is not one. -/
def kernelLine? (l : Legend) : Dumb.Call → Option CallLine
  | .capability r => line "get_cap" [.number 1] r
  | .version r => line "version" [] r
  | .createDumb w h bits flags r => line "create_dumb" [word w, word h, word bits, word flags] r
  | .mapDumb h r => line "map_dumb" [handle h] r
  | .mmap n protection flags offset r =>
    line "mmap" [length n, .number protection, .number flags, .number offset] r
  | .munmap a n r => line "munmap" [handleAt l a, length n] r
  | .destroyDumb h r => line "destroy_dumb" [handle h] r
  | .primeToHandle d r => line "prime_fd_to_handle" [dmabuf d] r
  | .primeFromHandle h f r => line "prime_handle_to_fd" [handle h, word f.bits] r
  | .duplicate d r => line "dup" [dmabuf d] r
  | .closeNode => none
where
  line {α : Type} (name : String) (arguments : List Argument) (r : Except Errno α) :
      Option CallLine :=
    some ⟨name, arguments, outcomeText (r.mapError .os)⟩

/-- The calls, the warnings and the open descriptors of a stretch of a session. -/
structure Trace where
  calls : List CallLine
  warnings : List Warning
  /-- For each shared buffer with open descriptors, its number and how many there are. Number 0
  stands for the display node. -/
  descriptors : List (Nat × Nat)

/-- What an operation answers when it may also ask about the machine's storage. -/
inductive Reply where
  | session (answer : Session.Answer)
  | noStorage
  | unbacked
  deriving DecidableEq

structure Report where
  reply : Reply
  subject : Session.Subject
  legend : Legend
  trace : Trace

end DisplayBuffers.Simulation
