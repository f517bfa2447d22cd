import StackSampler.Subject.Structures

/-!
# Questions that compute words

How questions are composed, and what checked arithmetic adds to them.  An operation whose result is
a word gives just that, and one that exceeds a word has no value, whoever asks.
-/

namespace StackSampler

namespace WordOperation

variable {operation : WordOperation}

theorem result_place (base : Address) (offset : UInt64) :
    (place base offset).result = base + offset := by
  rw [result, exact, UInt64.ofNat_add, UInt64.ofNat_toNat, UInt64.ofNat_toNat]

theorem toNat_result (fits : operation.Fits) : operation.result.toNat = operation.exact := by
  rw [result, UInt64.toNat_ofNat_of_lt' fits]

end WordOperation

namespace Query

variable {σ ε δ α β : Type}

theorem bind_apply (query : ExceptT ε (StateM σ) α) (next : α → ExceptT ε (StateM σ) β)
    (before : σ) :
    (query >>= next).run.run before = match query.run.run before with
      | (.ok value, middle) => (next value).run.run middle
      | (.error error, middle) => (.error error, middle) := by
  show (query >>= next) before = match query before with
    | (.ok value, middle) => next value middle
    | (.error error, middle) => (.error error, middle)
  simp only [Bind.bind, ExceptT.bind, ExceptT.mk, StateT.bind, ExceptT.bindCont]
  rcases query before with ⟨_ | _, _⟩ <;> rfl

theorem adapt_apply (change : ε → δ) (query : ExceptT ε (StateM σ) α) (before : σ) :
    (ExceptT.adapt change query).run.run before =
      ((query.run.run before).1.mapError change, (query.run.run before).2) :=
  rfl

/-- What is decoded from an answer is decoded from what the question comes to. -/
theorem answered_decoded (query : ExceptT ε (StateM σ) α) (decode : α → β) :
    answered (do let found ← query; pure (decode found)) =
      (do let found ← answered query; pure (decode found) : Query σ ε β) := by
  funext before
  have run : (answered (do let found ← query; pure (decode found)) : Query σ ε β).run.run before =
      (do let found ← answered query; pure (decode found) : Query σ ε β).run.run before := by
    rw [answered, adapt_apply, bind_apply, bind_apply, answered, adapt_apply]
    rcases query.run.run before with ⟨_ | _, _⟩ <;> rfl
  exact run

/-! ## Operations -/

theorem computed_of_fits {operation : WordOperation} (fits : operation.Fits) :
    (computed operation : Query σ ε UInt64) = pure operation.result :=
  if_pos fits

theorem computed_place {base : Address} {offset : UInt64}
    (fits : (WordOperation.place base offset).Fits) :
    (computed (.place base offset) : Query σ ε UInt64) = pure (base + offset) := by
  rw [computed_of_fits fits, WordOperation.result_place]

theorem computed_of_not_fits {operation : WordOperation} (exceeds : ¬ operation.Fits) :
    (computed operation : Query σ ε UInt64) = throw (.exceeded operation) :=
  if_neg exceeds

/-! ## Answers for those who expect a value or an error -/

variable {exceed : WordOperation → StateM σ Unit} {error : WordOperation → ε} {query : Query σ ε α}
  {before after : σ}

theorem settled_apply (exceed : WordOperation → StateM σ Unit) (error : WordOperation → ε)
    (query : Query σ ε α) (before : σ) :
    (query.settled exceed error).run.run before = match query.run.run before with
      | (.ok value, after) => (.ok value, after)
      | (.error (.failed fault), after) => (.error fault, after)
      | (.error (.exceeded operation), after) =>
          (.error (error operation), ((exceed operation).run after).2) := by
  show (query.run >>= _).run before = _
  simp only [StateT.run_bind]
  rcases query.run.run before with ⟨(_ | _) | _, _⟩ <;> rfl

/-- Where a question has a value, it is given as it is. -/
theorem settled_eq_ok_iff {value : α} :
    (query.settled exceed error).run.run before = (.ok value, after) ↔
      query.run.run before = (.ok value, after) := by
  rw [settled_apply]
  rcases query.run.run before with ⟨(_ | _) | _, _⟩
  · exact ⟨nofun, nofun⟩
  · exact ⟨nofun, nofun⟩
  · constructor <;> intro same <;> cases same <;> rfl

end Query

/-! ## Fields and the parts of a frame -/

namespace Structures

section

variable {σ α : Type} {read : Address → ReadQuery σ α} {base : Address} {offset : Offset}

/-- A field whose address is a word is read there. -/
theorem field_of_fits (fits : (WordOperation.place base offset).Fits) :
    field read base offset = Query.answered (read (base + offset)) := by
  rw [field, Query.computed_place fits, pure_bind]

/-- A field whose address exceeds a word is not read. -/
theorem field_of_not_fits (exceeds : ¬ (WordOperation.place base offset).Fits) :
    field read base offset = throw (.exceeded (.place base offset)) := by
  rw [field, Query.computed_of_not_fits exceeds]
  rfl

end

variable {σ : Type} (structures : Structures σ) (place : Address)

/-- Whether a fresh entry into the evaluation loop pushed a frame. -/
def entryMark : Query σ ReadFault Bool :=
  match structures.layout.frame.isEntry with
  | some offset => do
      let mark ← field structures.memory.byte place offset
      pure (mark != 0)
  | none => pure true

/-- Whether a frame is the interpreter's own. -/
def shimMark : Query σ ReadFault Bool :=
  match structures.layout.frame.owner with
  | some owner => do
      let mark ← field structures.memory.byte place owner.offset
      pure (mark == owner.shimValue)
  | none => pure false

/-- A frame is read part by part. -/
theorem frame_eq :
    structures.frame place = (do
      let previous ← field structures.memory.word place structures.layout.frame.previous
      let code ← field structures.memory.word place structures.layout.frame.code
      let offset ← structures.instructionOffset place code
      let isEntry ← structures.entryMark place
      let isShim ← structures.shimMark place
      pure ⟨code, offset, present previous, isEntry, isShim⟩) := by
  unfold frame entryMark shimMark
  dsimp only
  cases structures.layout.frame.isEntry <;> cases structures.layout.frame.owner <;>
    simp only [bind_assoc, pure_bind]

end Structures

end StackSampler
