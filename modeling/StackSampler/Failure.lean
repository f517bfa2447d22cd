import StackSampler.Identity
import StackSampler.Text.Numeral

/-!
# Failures of a capture

Memory of a foreign process may not be readable, a stack may move while it is read, a thread may
not answer.  Each such cause is a value here, with the one sentence that reports it.
-/

namespace StackSampler

/-- A failed read of the observed memory. -/
structure ReadFault where
  address : Address
  length : Nat
  errno : Int
deriving DecidableEq, Repr, Inhabited

namespace ReadFault

/-- The system's number for an address that cannot be read. -/
def badAddress : Int := 14

/-- The system's number for a request that is too large. -/
def tooBig : Int := 7

/-- The system's number for a value that makes no sense where it was found. -/
def invalid : Int := 22

/-- The system's number for a value that exceeds its type. -/
def overflow : Int := 75

/-- The system's number for something the build of the interpreter does not describe. -/
def unsupported : Int := 95

/-- Says which bytes could not be read, and the system's reason. -/
def message (fault : ReadFault) : String :=
  "cannot read " ++ toString fault.length ++ " bytes at " ++
    Text.hexadecimal fault.address.toNat ++ " (errno " ++ toString fault.errno ++ ")"

end ReadFault

/-- Why one capture of one thread failed. -/
inductive CaptureError where
  /-- The frame chain moved while it was walked. -/
  | stale (thread : ThreadId)
  | memory (fault : ReadFault)
  | tooDeep (limit : Nat)
  /-- The thread did not answer the capture signal in time. -/
  | nativeTimeout (thread : ThreadId)
  | signal (thread : ThreadId) (errno : Int)
  | unknownThread (thread : ThreadId)
deriving DecidableEq, Repr, Inhabited

/-- The sentence that reports a failed capture. -/
def CaptureError.message : CaptureError → String
  | .stale thread => "frame chain of thread " ++ toString thread.toNat ++ " changed during capture"
  | .memory fault => "unreadable target memory: " ++ fault.message
  | .tooDeep limit => "stack deeper than " ++ toString limit ++ " frames"
  | .nativeTimeout thread =>
      "native unwinding of thread " ++ toString thread.toNat ++ " timed out"
  | .signal thread errno =>
      "cannot signal thread " ++ toString thread.toNat ++ " (errno " ++ toString errno ++ ")"
  | .unknownThread thread => "thread " ++ toString thread.toNat ++ " is not known to the runtime"

/-- The reason that stands in a stream where a sample is missing. -/
inductive FailureReason where
  | stale
  | memory
  | tooDeep
  | nativeTimeout
  | signal
  | unknownThread
  /-- A reason known by its code alone. -/
  | other (code : UInt8)
deriving DecidableEq, Repr, Inhabited

namespace FailureReason

/-- The code of a reason in a sample stream. -/
def code : FailureReason → UInt8
  | .stale => 1
  | .memory => 2
  | .tooDeep => 3
  | .nativeTimeout => 4
  | .signal => 5
  | .unknownThread => 6
  | .other code => code

/-- The reason with a given code: the named one if there is one. -/
def ofCode : UInt8 → FailureReason
  | 1 => .stale
  | 2 => .memory
  | 3 => .tooDeep
  | 4 => .nativeTimeout
  | 5 => .signal
  | 6 => .unknownThread
  | code => .other code

/-- What a marker says about a failed capture. -/
def ofError : CaptureError → FailureReason
  | .stale _ => .stale
  | .memory _ => .memory
  | .tooDeep _ => .tooDeep
  | .nativeTimeout _ => .nativeTimeout
  | .signal _ _ => .signal
  | .unknownThread _ => .unknownThread

end FailureReason

end StackSampler
