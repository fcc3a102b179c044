/-! Errors of the operating system, by number, and the texts they print as. -/
namespace DisplayBuffers

structure Errno where
  number : Nat
  deriving DecidableEq, Repr

namespace Errno

def outOfMemory : Errno := ⟨12⟩
def invalidArgument : Errno := ⟨22⟩

def descriptions : List (Nat × String) :=
  [(1, "Operation not permitted"),
    (2, "No such file or directory"),
    (4, "Interrupted system call"),
    (5, "Input/output error"),
    (9, "Bad file descriptor"),
    (11, "Resource temporarily unavailable"),
    (12, "Cannot allocate memory"),
    (13, "Permission denied"),
    (14, "Bad address"),
    (16, "Device or resource busy"),
    (19, "No such device"),
    (22, "Invalid argument"),
    (23, "Too many open files in system"),
    (24, "Too many open files"),
    (25, "Inappropriate ioctl for device"),
    (28, "No space left on device"),
    (38, "Function not implemented"),
    (95, "Operation not supported"),
    (110, "Connection timed out")]

def message (e : Errno) : String :=
  let number := toString e.number
  let text := (descriptions.lookup e.number).getD ("Unknown error " ++ number)
  text ++ " (os error " ++ number ++ ")"

end Errno

/-- What a driver cannot do with: a parameter of a call, or data that the call came to. -/
inductive Invalid where
  | parameter
  | data
  deriving DecidableEq, Repr

/-- Why a call to a driver fails: the system says so, or the driver itself refuses. -/
inductive IoError where
  | os (errno : Errno)
  | invalidInput {what : Invalid}
  | unsupported
  deriving DecidableEq, Repr

namespace IoError

def invalidParameter : IoError := @invalidInput .parameter

def invalidData : IoError := @invalidInput .data

def errno? : IoError → Option Errno
  | .os e => some e
  | _ => none

def message : IoError → String
  | .os e => e.message
  | @invalidInput .parameter => "invalid input parameter"
  | @invalidInput .data => "invalid data"
  | .unsupported => "unsupported"

end IoError

instance decidableEqExcept {ε α : Type} [DecidableEq ε] [DecidableEq α] :
    DecidableEq (Except ε α)
  | .ok a, .ok b => decidable_of_iff (a = b) (by simp)
  | .error a, .error b => decidable_of_iff (a = b) (by simp)
  | .ok _, .error _ => isFalse (by simp)
  | .error _, .ok _ => isFalse (by simp)

end DisplayBuffers
