import DisplayBuffers.Errno
import DisplayBuffers.Format.Modifier

/-! Errors of the operations on devices, buffer objects and surfaces. An error is either the
request's fault, whatever the driver does, or the driver's. -/
namespace DisplayBuffers

/-- What is wrong with a request. -/
inductive Reason where
  | unsupportedFormat
  | planeIndexOutOfRange
  | noCpuStorage
  | partialRegion
  | writeTooLong
  | noKernelHandle
  | notShared
  | tooManyPlanes
  | unsupportedLayout
  | planeCountOutOfRange
  | strideCountMismatch
  | slotIndexOutOfRange
  | other (text : String)
  deriving DecidableEq, Repr

def Reason.message : Reason → String
  | .unsupportedFormat => "unsupported format"
  | .planeIndexOutOfRange => "plane index out of range"
  | .noCpuStorage => "buffer object has no cpu accessible storage"
  | .partialRegion => "only the full buffer can be mapped"
  | .writeTooLong => "write exceeds buffer size"
  | .noKernelHandle => "buffer object has no kernel handle"
  | .notShared => "resource is not a kms buffer"
  | .tooManyPlanes => "too many planes"
  | .unsupportedLayout => "unsupported layout modifier"
  | .planeCountOutOfRange => "plane count out of range"
  | .strideCountMismatch => "stride count does not match plane count"
  | .slotIndexOutOfRange => "slot index out of range"
  | .other text => text

/-- The step at which a driver fails. -/
inductive FailedStep where
  | allocateStorage
  | exportHandle
  | mapStorage
  | duplicateDescriptor
  | importDescriptor
  | importPlane
  | queryCapability
  | requireCapability
  | other (text : String)
  deriving DecidableEq, Repr

def FailedStep.message : FailedStep → String
  | .allocateStorage => "failed to allocate buffer object"
  | .exportHandle => "failed to export buffer object"
  | .mapStorage => "failed to map buffer object"
  | .duplicateDescriptor => "failed to duplicate buffer descriptor"
  | .importDescriptor => "failed to import buffer descriptor"
  | .importPlane => "failed to import plane descriptor"
  | .queryCapability => "failed to query dumb buffer capability"
  | .requireCapability => "device does not support dumb buffers"
  | .other text => text

inductive Error where
  | invalidArgument (reason : Reason)
  | allocation (step : FailedStep) (cause : IoError)
  | notMapped
  | unsupportedModifier (modifier : Modifier)
  deriving DecidableEq, Repr

namespace Error

/-- The request itself is at fault, so that repeating it cannot help. -/
def isInvalidInput : Error → Bool
  | .allocation _ _ => false
  | _ => true

def message : Error → String
  | .invalidArgument reason => "Invalid argument: " ++ reason.message
  | .allocation step cause =>
    "Kernel driver error: " ++ step.message ++ " (" ++ cause.message ++ ")"
  | .notMapped => "Buffer object is not mapped"
  | .unsupportedModifier m => "Modifier `" ++ m.name ++ "` is not supported"

end Error
end DisplayBuffers
