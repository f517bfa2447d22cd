/-!
# Words in a stream

Numbers are stored with their lowest byte first, in a fixed number of bytes.
-/

namespace StackSampler.Stream

/-- The lowest `count` bytes of a number, lowest first. -/
def bytesOf : Nat → Nat → List UInt8
  | 0, _ => []
  | count + 1, value => UInt8.ofNat (value % 256) :: bytesOf count (value / 256)

/-- The number that bytes stand for, lowest byte first. -/
def valueOf : List UInt8 → Nat
  | [] => 0
  | byte :: rest => byte.toNat + 256 * valueOf rest

@[simp]
theorem length_bytesOf (count value : Nat) : (bytesOf count value).length = count := by
  induction count generalizing value with
  | zero => rfl
  | succ count ih => simp [bytesOf, ih]

/-- The four bytes of a 32-bit word. -/
def bytes32 (word : UInt32) : List UInt8 :=
  bytesOf 4 word.toNat

/-- The eight bytes of a 64-bit word. -/
def bytes64 (word : UInt64) : List UInt8 :=
  bytesOf 8 word.toNat

/-- The 32-bit word of (at most) four bytes. -/
def word32 (bytes : List UInt8) : UInt32 :=
  UInt32.ofNat (valueOf bytes)

/-- The 64-bit word of (at most) eight bytes. -/
def word64 (bytes : List UInt8) : UInt64 :=
  UInt64.ofNat (valueOf bytes)

end StackSampler.Stream
