import StackSampler.Failure

/-!
# Checked arithmetic

Addresses and sizes are words of 64 bits.  Pointers are read from memory that nobody vouches for, so
a sum or a product of words may exceed a word.  Every operation is checked: one that exceeds a word
ends the thread that computes instead of wrapping.
-/

namespace StackSampler

/-- An operation on words. -/
inductive WordOperation where
  /-- The address at an offset from a base. -/
  | place (base : Address) (offset : UInt64)
  /-- A sum of sizes. -/
  | sum (left right : UInt64)
  /-- A product of sizes. -/
  | product (left right : UInt64)
deriving DecidableEq, Repr, Inhabited

namespace WordOperation

/-- The exact result. -/
def exact : WordOperation → Nat
  | .place base offset => base.toNat + offset.toNat
  | .sum left right => left.toNat + right.toNat
  | .product left right => left.toNat * right.toNat

/-- The exact result is a word. -/
def Fits (operation : WordOperation) : Prop :=
  operation.exact < UInt64.size

instance (operation : WordOperation) : Decidable operation.Fits :=
  inferInstanceAs (Decidable (_ < _))

/-- The result where it is exact. -/
def result (operation : WordOperation) : UInt64 :=
  UInt64.ofNat operation.exact

/-- The first operand. -/
def operand : WordOperation → UInt64
  | .place base _ => base
  | .sum left _ => left
  | .product left _ => left

end WordOperation

/-- Why a question has no value: the answer is an error, or there is no answer at all. -/
inductive Halt (ε : Type) where
  | failed (error : ε)
  /-- The exact result of an operation is not a word, which ends the thread. -/
  | exceeded (operation : WordOperation)
deriving DecidableEq, Repr

/-- Changes the error of an answer; an operation that exceeded a word stays what it is. -/
def Halt.map {ε δ : Type} (change : ε → δ) : Halt ε → Halt δ
  | .failed error => .failed (change error)
  | .exceeded operation => .exceeded operation

/-- A question on whose way words are computed; `σ` is all that answers depend on. -/
abbrev Query (σ ε α : Type) := ExceptT (Halt ε) (StateM σ) α

namespace Query

variable {σ ε α : Type}

/-- The result of an operation. -/
def computed (operation : WordOperation) : Query σ ε UInt64 :=
  if operation.Fits then pure operation.result else throw (.exceeded operation)

/-- A question on whose way nothing is computed. -/
def answered (query : ExceptT ε (StateM σ) α) : Query σ ε α :=
  ExceptT.adapt Halt.failed query

/-- Gives up with an error. -/
def failed (error : ε) : Query σ ε α :=
  throw (.failed error)

/--
Asks a question for somebody who expects a value or an error.  Where an operation exceeds a word the
thread ends: `exceed` is what becomes of the state, and the error that is given stands for nothing.
-/
def settled (exceed : WordOperation → StateM σ Unit) (error : WordOperation → ε)
    (query : Query σ ε α) : ExceptT ε (StateM σ) α :=
  ExceptT.mk do
    match ← query.run with
    | .ok value => pure (.ok value)
    | .error (.failed error) => pure (.error error)
    | .error (.exceeded operation) => do
        exceed operation
        pure (.error (error operation))

end Query

end StackSampler
