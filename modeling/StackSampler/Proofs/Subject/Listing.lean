import StackSampler.Proofs.Subject.Heads

/-!
# The list of threads

The threads of an interpreter are listed by one walk along a chain of structures, and one of them is
looked up by another walk, which stops where it finds the thread.  The chain may be cyclic, name a
thread twice or lead to memory that cannot be read, so both walks visit a bounded part of it,
`Contents.threadNodes`.

Memory is any answer to any read, so nothing is assumed of the chain; each read of a walk is
recorded.  Where the address of a field exceeds a word there is no read, and no answer at all.  The
main statement is `Contents.threadState_agrees`: what is listed and what is looked up
come from the same nodes.
-/

namespace StackSampler

/-! ## Memory in which reads are recorded -/

/-- One read: where, and how many bytes. -/
structure Access where
  address : Address
  size : Nat
deriving DecidableEq, Repr

/-- The read of a field of a structure, if its address is a word. -/
def Access.field (base : Address) (offset : Offset) (size : Nat) : List Access :=
  if (WordOperation.place base offset).Fits then [⟨base + offset, size⟩] else []

theorem Access.length_field_le (base : Address) (offset : Offset) (size : Nat) :
    (Access.field base offset size).length ≤ 1 := by
  unfold Access.field
  split <;> simp

/-- What memory answers to a read of so many bytes at an address. -/
abbrev Contents := Address → Nat → Except ReadFault (List UInt8)

/-- Whatever was read before, the question reads this and has this result. -/
def Takes {ε α : Type} (query : ExceptT ε (StateM (List Access)) α) (result : Except ε α)
    (accesses : List Access) : Prop :=
  ∀ earlier, query.run.run earlier = (result, earlier ++ accesses)

section

variable {ε δ α β : Type}

theorem takes_pure (value : α) :
    Takes (pure value : ExceptT ε (StateM (List Access)) α) (.ok value) [] :=
  fun earlier => congrArg (Prod.mk _) (List.append_nil earlier).symm

theorem takes_throw (error : ε) :
    Takes (throw error : ExceptT ε (StateM (List Access)) α) (.error error) [] :=
  fun earlier => congrArg (Prod.mk _) (List.append_nil earlier).symm

variable {query : ExceptT ε (StateM (List Access)) α}
  {next : α → ExceptT ε (StateM (List Access)) β} {accesses others : List Access}

theorem Takes.bind {value : α} {result : Except ε β} (takes : Takes query (.ok value) accesses)
    (rest : Takes (next value) result others) :
    Takes (query >>= next) result (accesses ++ others) :=
  fun earlier => by
    rw [Query.bind_apply, takes earlier, ← List.append_assoc]
    exact rest _

theorem Takes.bind_error {error : ε} (takes : Takes query (.error error) accesses) :
    Takes (query >>= next) (.error error) accesses :=
  fun earlier => by rw [Query.bind_apply, takes earlier]

theorem Takes.map {result : Except ε α} (takes : Takes query result accesses) (change : α → β) :
    Takes (change <$> query) (result.map change) accesses := by
  rw [map_eq_pure_bind]
  cases result with
  | error error => exact takes.bind_error
  | ok value => exact (List.append_nil accesses) ▸ takes.bind (takes_pure (change value))

theorem Takes.adapt {result : Except ε α} (takes : Takes query result accesses) (change : ε → δ) :
    Takes (ExceptT.adapt change query) (result.mapError change) accesses := by
  intro earlier
  show ((query earlier).1.mapError change, (query earlier).2) = _
  rw [show query earlier = (result, earlier ++ accesses) from takes earlier]

end

namespace Layout

/-- What is read of the instruction of a frame. -/
def Instruction.access (layout : Layout.Instruction) (frame : Address) : List Access :=
  match layout with
  | .index offset _ => Access.field frame offset 4
  | .pointer offset _ => Access.field frame offset 8

/-- What a walk along the list of threads reads of one node. -/
def Thread.tour (layout : Layout.Thread) (node : Address) : List Access :=
  Access.field node layout.threadId 8 ++ Access.field node layout.next 8

end Layout

namespace Contents

variable (contents : Contents) (layout : Layout) (origin : Address)

/-- Reads memory in which nothing happens, and records each read. -/
def reader : MemoryReader (List Access) where
  read address size := fun earlier => (contents address size, earlier ++ [⟨address, size⟩])
  exceed _ := pure ()

/-- The structures of an interpreter in memory. -/
def structures : Structures (List Access) :=
  ⟨contents.reader, layout, origin⟩

/-- What reading a field comes to. -/
def answer (base : Address) (field : Offset) (size : Nat) :
    Except (Halt ReadFault) (List UInt8) :=
  if (WordOperation.place base field).Fits then (contents (base + field) size).mapError .failed
  else .error (.exceeded (.place base field))

/-- What reading the instruction of a frame comes to. -/
def instruction (layout : Layout.Instruction) (frame : Address) :
    Except (Halt ReadFault) (List UInt8) :=
  match layout with
  | .index offset _ => contents.answer frame offset 4
  | .pointer offset _ => contents.answer frame offset 8

/-- The word in a field. -/
def word (base : Address) (field : Offset) : Except (Halt ReadFault) UInt64 :=
  (contents.answer base field 8).map Stream.word64

/-- A field that is decoded from so many bytes takes one read, or none. -/
theorem takes_field {α : Type} (base : Address) (field : Offset) (size : Nat)
    (decode : List UInt8 → α) :
    Takes
      (Structures.field (fun address => do
        let bytes ← contents.reader.read address size
        pure (decode bytes)) base field)
      ((contents.answer base field size).map decode) (Access.field base field size) := by
  unfold answer Access.field
  by_cases fits : (WordOperation.place base field).Fits
  · rw [Structures.field_of_fits fits, if_pos fits, if_pos fits, Query.answered_decoded]
    have read : Takes (contents.reader.read (base + field) size) (contents (base + field) size)
        [⟨base + field, size⟩] := fun _ => rfl
    rw [← map_eq_pure_bind]
    exact (read.adapt Halt.failed).map decode
  · rw [Structures.field_of_not_fits fits, if_neg fits, if_neg fits]
    exact takes_throw _

theorem takes_word (base : Address) (field : Offset) :
    Takes (Structures.field contents.reader.word base field) (contents.word base field)
      (Access.field base field 8) :=
  contents.takes_field base field 8 Stream.word64

theorem takes_int32 (base : Address) (field : Offset) :
    Takes (Structures.field contents.reader.int32 base field)
      ((contents.answer base field 4).map fun bytes => (Stream.word32 bytes).toInt32)
      (Access.field base field 4) :=
  contents.takes_field base field 4 fun bytes => (Stream.word32 bytes).toInt32

theorem answer_of_map {base : Address} {field : Offset} {size : Nat} {α : Type}
    {decode : List UInt8 → α} {halt : Halt ReadFault}
    (failed : (contents.answer base field size).map decode = .error halt) :
    contents.answer base field size = .error halt := by
  cases given : contents.answer base field size with
  | error other =>
      rw [given] at failed
      cases failed
      rfl
  | ok bytes =>
      rw [given] at failed
      cases failed

/-! ## The nodes of the list -/

/--
The nodes of a chain from one on, of which at most so many are visited.  The chain ends at null, and
at a node whose link cannot be read.
-/
def nodesFrom (link : Address → Except (Halt ReadFault) Address) : Nat → Address → List Address
  | 0, _ => []
  | room + 1, current =>
      if current = 0 then []
      else current :: match link current with
        | .ok next => nodesFrom link room next
        | .error _ => []

theorem length_nodesFrom_le (link : Address → Except (Halt ReadFault) Address) (room : Nat)
    (current : Address) : (nodesFrom link room current).length ≤ room := by
  induction room generalizing current with
  | zero => exact Nat.le_refl 0
  | succ room induction =>
      rw [nodesFrom]
      split
      · exact Nat.zero_le _
      · refine Nat.succ_le_succ ?_
        cases link current with
        | error fault => exact Nat.zero_le _
        | ok next => exact induction next

/-- The thread that follows a node. -/
def link (node : Address) : Except (Halt ReadFault) Address :=
  contents.word node layout.thread.next

theorem takes_link (node : Address) :
    Takes (Structures.field contents.reader.word node layout.thread.next)
      (contents.link layout node) (Access.field node layout.thread.next 8) :=
  contents.takes_word node layout.thread.next

/-- The nodes of the list of threads, as far as the list is walked. -/
def threadNodes : List Address :=
  match contents.word origin layout.interpreter.threadsHead with
  | .ok first => nodesFrom (contents.link layout) Structures.threadLimit first
  | .error _ => []

theorem length_threadNodes_le :
    (contents.threadNodes layout origin).length ≤ Structures.threadLimit := by
  unfold threadNodes
  split
  · exact length_nodesFrom_le _ _ _
  · exact Nat.zero_le _

/-- A node belongs to the thread of an identity. -/
def bears (id : ThreadId) (node : Address) : Bool :=
  contents.word node layout.thread.threadId = .ok id

/-- A node can be walked over, and belongs to the thread of an identity. -/
structure Bears (node : Address) (id : ThreadId) : Prop where
  named : contents.word node layout.thread.threadId = .ok id
  linked : ∃ next, contents.link layout node = .ok next

variable {contents layout}

theorem find?_eq_none_iff {nodes : List Address} {ids : List ThreadId}
    (named : List.Forall₂ (contents.Bears layout) nodes ids) (id : ThreadId) :
    nodes.find? (contents.bears layout id) = none ↔ id ∉ ids := by
  induction named with
  | nil => simp
  | @cons node other _ _ first _ induction =>
      rw [List.find?_cons, bears, first.named]
      by_cases same : id = other
      · simp [same]
      · simp [Ne.symm same, same, induction]

variable (contents layout)

/-! ## Walking over the nodes -/

/-- How a walk over at most so many nodes goes on from one, and the nodes that it may visit. -/
inductive Walked : Nat → Address → List Address → Prop where
  | spent {current : Address} : Walked 0 current []
  | ended {room : Nat} : Walked (room + 1) 0 []
  | unnamed {room : Nat} {current : Address} {halt : Halt ReadFault} (present : current ≠ 0)
      (named : contents.word current layout.thread.threadId = .error halt)
      (nodes : List Address) : Walked (room + 1) current (current :: nodes)
  | cut {room : Nat} {current : Address} {id : ThreadId} {halt : Halt ReadFault}
      (present : current ≠ 0) (named : contents.word current layout.thread.threadId = .ok id)
      (linked : contents.link layout current = .error halt) : Walked (room + 1) current [current]
  | further {room : Nat} {current next : Address} {id : ThreadId} {nodes : List Address}
      (present : current ≠ 0) (named : contents.word current layout.thread.threadId = .ok id)
      (linked : contents.link layout current = .ok next) (walked : Walked room next nodes) :
      Walked (room + 1) current (current :: nodes)

theorem walked_nodesFrom (room : Nat) (current : Address) :
    contents.Walked layout room current (nodesFrom (contents.link layout) room current) := by
  induction room generalizing current with
  | zero => exact .spent
  | succ room induction =>
      rw [nodesFrom]
      by_cases null : current = 0
      · rw [if_pos null, null]
        exact .ended
      rw [if_neg null]
      rcases named : contents.word current layout.thread.threadId with halt | id
      · exact .unnamed null named _
      rcases linked : contents.link layout current with halt | next
      · exact .cut null named linked
      · exact .further null named linked (induction next)

variable {contents layout} {room : Nat} {current : Address} {nodes : List Address}

/-- A walk that stops at the identity of a node has read the beginning of what it may read. -/
theorem named_prefix (layout : Layout.Thread) (node : Address) (nodes : List Address) :
    Access.field node layout.threadId 8 <+: (node :: nodes).flatMap layout.tour := by
  rw [List.flatMap_cons, Layout.Thread.tour, List.append_assoc]
  exact List.prefix_append _ _

/-- A walk that goes on behind a node has read all of the node. -/
theorem linked_prefix {layout : Layout.Thread} (node : Address) {nodes : List Address}
    {accesses : List Access} (within : accesses <+: nodes.flatMap layout.tour) :
    Access.field node layout.threadId 8 ++ (Access.field node layout.next 8 ++ accesses) <+:
      (node :: nodes).flatMap layout.tour := by
  rw [← List.append_assoc, List.flatMap_cons]
  exact (List.prefix_append_right_inj _).mpr within

/-- Listing reads no more than the nodes, and what it lists is what they bear. -/
theorem Walked.takes_threadsFrom (walked : contents.Walked layout room current nodes) :
    ∃ listed accesses,
      Takes ((contents.structures layout origin).threadsFrom room current) listed accesses ∧
      accesses <+: nodes.flatMap layout.thread.tour ∧
      ∀ ids, listed = .ok ids → List.Forall₂ (contents.Bears layout) nodes ids := by
  induction walked with
  | spent =>
      exact ⟨_, _, takes_pure [], List.prefix_rfl, by rintro _ ⟨⟩; exact .nil⟩
  | ended =>
      rw [Structures.threadsFrom, if_pos rfl]
      exact ⟨_, _, takes_pure [], List.prefix_rfl, by rintro _ ⟨⟩; exact .nil⟩
  | @unnamed _ current _ present named nodes =>
      rw [Structures.threadsFrom, if_neg present]
      have readId := named ▸ contents.takes_word current layout.thread.threadId
      exact ⟨_, _, readId.bind_error, named_prefix _ current nodes, by rintro _ ⟨⟩⟩
  | @cut _ current _ _ present named linked =>
      rw [Structures.threadsFrom, if_neg present]
      have readId := named ▸ contents.takes_word current layout.thread.threadId
      have readNext := linked ▸ contents.takes_link layout current
      exact ⟨_, _, readId.bind readNext.bind_error, ⟨_, rfl⟩, by rintro _ ⟨⟩⟩
  | @further _ current next id nodes present named linked _ induction =>
      rw [Structures.threadsFrom, if_neg present]
      have readId := named ▸ contents.takes_word current layout.thread.threadId
      have readNext := linked ▸ contents.takes_link layout current
      rcases induction with ⟨listed, accesses, took, within, bear⟩
      have upTo := linked_prefix current within
      cases listed with
      | error fault =>
          exact ⟨_, _, readId.bind (readNext.bind took.bind_error), upTo, by rintro _ ⟨⟩⟩
      | ok others =>
          refine ⟨_, _, readId.bind (readNext.bind (took.bind (takes_pure (id :: others)))), ?_, ?_⟩
          · rw [List.append_nil]
            exact upTo
          · rintro _ ⟨⟩
            exact .cons ⟨named, next, linked⟩ (bear others rfl)

/-- A search ends at a node that bears the identity, whatever comes after it. -/
theorem takes_findSeat_here {id : ThreadId} (present : current ≠ 0)
    (named : contents.word current layout.thread.threadId = .ok id) (room : Nat) :
    Takes ((contents.structures layout origin).findSeat id (room + 1) current) (.ok (some current))
      (Access.field current layout.thread.threadId 8) := by
  rw [Structures.findSeat, if_neg present]
  have readId := named ▸ contents.takes_word current layout.thread.threadId
  rw [← List.append_nil (Access.field current layout.thread.threadId 8)]
  refine readId.bind ?_
  rw [if_pos rfl]
  exact takes_pure _

/-- A search goes on from a node that bears another identity. -/
theorem takes_findSeat_past {id other : ThreadId} (present : current ≠ 0)
    (named : contents.word current layout.thread.threadId = .ok other) (differ : other ≠ id)
    (room : Nat) {result : Except (Halt ReadFault) (Option Address)} {accesses : List Access}
    (rest : Takes (do
      let next ← Structures.field contents.reader.word current layout.thread.next
      (contents.structures layout origin).findSeat id room next) result accesses) :
    Takes ((contents.structures layout origin).findSeat id (room + 1) current) result
      (Access.field current layout.thread.threadId 8 ++ accesses) := by
  rw [Structures.findSeat, if_neg present]
  have readId := named ▸ contents.takes_word current layout.thread.threadId
  refine readId.bind ?_
  rw [if_neg differ]
  exact rest

/-- A search reads no more than the nodes.  It finds the first of them that bears the identity. -/
theorem Walked.takes_findSeat (walked : contents.Walked layout room current nodes) (id : ThreadId) :
    ∃ found accesses,
      Takes ((contents.structures layout origin).findSeat id room current) found accesses ∧
      accesses <+: nodes.flatMap layout.thread.tour ∧
      ∀ ids, List.Forall₂ (contents.Bears layout) nodes ids →
        found = .ok (nodes.find? (contents.bears layout id)) := by
  induction walked with
  | spent =>
      exact ⟨_, _, takes_pure none, List.prefix_rfl, fun _ _ => rfl⟩
  | ended =>
      rw [Structures.findSeat, if_pos rfl]
      exact ⟨_, _, takes_pure none, List.prefix_rfl, fun _ _ => rfl⟩
  | @unnamed _ current _ present named nodes =>
      rw [Structures.findSeat, if_neg present]
      have readId := named ▸ contents.takes_word current layout.thread.threadId
      refine ⟨_, _, readId.bind_error, named_prefix _ current nodes, ?_⟩
      rintro _ (_ | ⟨bears, _⟩)
      cases named.symm.trans bears.named
  | @cut room current other fault present named linked =>
      by_cases same : other = id
      -- A search that ends here does not read the link, at which listing fails.
      · subst same
        refine ⟨_, _, takes_findSeat_here origin present named room, named_prefix _ current _, ?_⟩
        simp [bears, named]
      · have readNext := linked ▸ contents.takes_link layout current
        have past := takes_findSeat_past origin present named same room readNext.bind_error
        refine ⟨_, _, past, ⟨_, rfl⟩, ?_⟩
        rintro _ (_ | ⟨bears, _⟩)
        rcases bears.linked with ⟨next, goesOn⟩
        cases linked.symm.trans goesOn
  | @further room current next other nodes present named linked _ induction =>
      by_cases same : other = id
      · subst same
        refine ⟨_, _, takes_findSeat_here origin present named room, named_prefix _ current _, ?_⟩
        simp [bears, named]
      · have readNext := linked ▸ contents.takes_link layout current
        rcases induction with ⟨found, accesses, took, within, finds⟩
        have upTo := linked_prefix current within
        have past := takes_findSeat_past origin present named same room (readNext.bind took)
        refine ⟨_, _, past, upTo, ?_⟩
        rintro _ (_ | ⟨_, others⟩)
        rw [finds _ others, List.find?_cons_of_neg]
        simpa [bears, named] using same

variable (contents layout)

/-- What walks along the whole list read: where it begins, and then its nodes. -/
def threadsTour : List Access :=
  Access.field origin layout.interpreter.threadsHead 8 ++
    (contents.threadNodes layout origin).flatMap layout.thread.tour

/-- The list can be read, up to its end or to the limit, and its nodes bear these identities. -/
structure Lists (ids : List ThreadId) : Prop where
  begins : ∃ first, contents.word origin layout.interpreter.threadsHead = .ok first
  bear : List.Forall₂ (contents.Bears layout) (contents.threadNodes layout origin) ids

/-- The nodes begin where the list does. -/
theorem threadNodes_of_head {first : Address}
    (isHead : contents.word origin layout.interpreter.threadsHead = .ok first) :
    contents.threadNodes layout origin =
      nodesFrom (contents.link layout) Structures.threadLimit first := by
  rw [threadNodes, isHead]

/-- A question along the list reads where it begins, and then no more than the nodes. -/
theorem takes_fromHead {α : Type} {walk : Address → Query (List Access) ReadFault α}
    {right : Except (Halt ReadFault) α → Prop}
    (unread : ∀ halt, contents.word origin layout.interpreter.threadsHead = .error halt →
      right (.error halt))
    (walks : ∀ first, contents.word origin layout.interpreter.threadsHead = .ok first →
      ∃ result accesses, Takes (walk first) result accesses ∧
        accesses <+: (contents.threadNodes layout origin).flatMap layout.thread.tour ∧
        right result) :
    ∃ result accesses,
      Takes (Structures.field contents.reader.word origin layout.interpreter.threadsHead >>= walk)
        result accesses ∧
      accesses <+: contents.threadsTour layout origin ∧ right result := by
  have begins := contents.takes_word origin layout.interpreter.threadsHead
  rcases isHead : contents.word origin layout.interpreter.threadsHead with halt | first <;>
    rw [isHead] at begins
  · exact ⟨_, _, begins.bind_error, ⟨_, rfl⟩, unread halt isHead⟩
  · rcases walks first isHead with ⟨result, accesses, took, within, isRight⟩
    exact ⟨result, _, begins.bind took, (List.prefix_append_right_inj _).mpr within, isRight⟩

/-- Listing reads no more than the list, and what it lists is what the nodes bear. -/
theorem takes_threadIds :
    ∃ listed accesses,
      Takes (contents.structures layout origin).threadIds listed accesses ∧
      accesses <+: contents.threadsTour layout origin ∧
      ∀ ids, listed = .ok ids → contents.Lists layout origin ids := by
  refine contents.takes_fromHead layout origin (fun _ _ _ same => nomatch same)
    fun first isHead => ?_
  have walked := contents.walked_nodesFrom layout Structures.threadLimit first
  rw [← contents.threadNodes_of_head layout origin isHead] at walked
  rcases walked.takes_threadsFrom origin with ⟨listed, accesses, took, within, bear⟩
  exact ⟨listed, accesses, took, within, fun ids isListed => ⟨⟨first, isHead⟩, bear ids isListed⟩⟩

/-- A search reads no more than the list.  Where the list can be read it finds the first node. -/
theorem takes_seat? (id : ThreadId) :
    ∃ found accesses,
      Takes ((contents.structures layout origin).seat? id) found accesses ∧
      accesses <+: contents.threadsTour layout origin ∧
      ∀ ids, contents.Lists layout origin ids →
        found = .ok ((contents.threadNodes layout origin).find? (contents.bears layout id)) := by
  refine contents.takes_fromHead layout origin ?_ fun first isHead => ?_
  · rintro halt unread _ ⟨⟨first, readable⟩, _⟩
    cases unread.symm.trans readable
  · have walked := contents.walked_nodesFrom layout Structures.threadLimit first
    rw [← contents.threadNodes_of_head layout origin isHead] at walked
    rcases walked.takes_findSeat origin id with ⟨found, accesses, took, within, finds⟩
    exact ⟨found, accesses, took, within, fun ids lists => finds ids lists.bear⟩

/-! ## Heads -/

/-- Why there is no head of a thread: something of it cannot be read, or lies behind all words. -/
inductive HeadFault (seat : Address) : Halt ReadFault → Prop where
  | frame {halt : Halt ReadFault}
      (failed : contents.answer seat layout.thread.frame 8 = .error halt) : HeadFault seat halt
  | counter {offset : Offset} {halt : Halt ReadFault}
      (counted : layout.thread.generation = some offset)
      (failed : contents.answer seat offset 8 = .error halt) : HeadFault seat halt
  | instruction {top : Address} {halt : Halt ReadFault}
      (uncounted : layout.thread.generation = none)
      (isTop : contents.word seat layout.thread.frame = .ok top) (present : top ≠ 0)
      (failed : contents.instruction layout.frame.instruction top = .error halt) :
      HeadFault seat halt

theorem takes_rawInstruction (frame : Address) :
    ∃ instruction,
      Takes ((contents.structures layout origin).rawInstruction frame) instruction
        (layout.frame.instruction.access frame) ∧
      ∀ halt, instruction = .error halt →
        contents.instruction layout.frame.instruction frame = .error halt := by
  unfold Structures.rawInstruction Layout.Instruction.access instruction structures
  dsimp only
  cases layout.frame.instruction with
  | index offset unit =>
      have isIndex := (contents.takes_int32 frame offset).map fun index => index.toInt64.toUInt64
      rw [map_eq_pure_bind] at isIndex
      refine ⟨_, isIndex, fun halt failed => ?_⟩
      cases given : contents.answer frame offset 4 with
      | error other =>
          rw [given] at failed
          exact given.trans (congrArg _ (Except.error.inj failed))
      | ok bytes =>
          rw [given] at failed
          cases failed
  | pointer offset codeStart =>
      exact ⟨_, contents.takes_word frame offset, fun _ => contents.answer_of_map⟩

theorem length_access_le (frame : Address) :
    (layout.frame.instruction.access frame).length ≤ 1 := by
  cases layout.frame.instruction with
  | index offset unit => exact Access.length_field_le frame offset 4
  | pointer offset codeStart => exact Access.length_field_le frame offset 8

/-- A generation takes at most one read, of the counter or of the instruction of the top frame. -/
theorem takes_generation {seat top : Address}
    (isTop : contents.word seat layout.thread.frame = .ok top) :
    ∃ generation accesses,
      Takes ((contents.structures layout origin).generation seat top) generation accesses ∧
      accesses.length ≤ 1 ∧
      ∀ halt, generation = .error halt → contents.HeadFault layout seat halt := by
  unfold Structures.generation structures
  dsimp only
  rcases counter : layout.thread.generation with _ | offset
  · dsimp only
    by_cases null : top = 0
    · rw [if_pos null]
      exact ⟨_, _, takes_pure 0, Nat.zero_le 1, by rintro _ ⟨⟩⟩
    · rw [if_neg null]
      have few := length_access_le layout top
      rcases contents.takes_rawInstruction layout origin top with ⟨instruction, took, unread⟩
      cases instruction with
      | error halt =>
          refine ⟨_, _, took.bind_error, few, ?_⟩
          rintro _ ⟨⟩
          exact .instruction counter isTop null (unread halt rfl)
      | ok instruction =>
          refine ⟨_, _, took.bind (takes_pure _), ?_, by rintro _ ⟨⟩⟩
          rw [List.append_nil]
          exact few
  · exact ⟨_, _, contents.takes_word seat offset, Access.length_field_le seat offset 8,
      fun _ failed => .counter counter (contents.answer_of_map failed)⟩

/-- The head of a thread is its innermost frame, unless something of it cannot be read. -/
theorem takes_head (seat : Address) :
    ∃ head accesses,
      Takes ((contents.structures layout origin).head seat) head accesses ∧ accesses.length ≤ 2 ∧
      ((∃ top generation, contents.word seat layout.thread.frame = .ok top ∧
          head = .ok ⟨Structures.present top, generation⟩) ∨
        ∃ halt, contents.HeadFault layout seat halt ∧ head = .error halt) := by
  have readTop := contents.takes_word seat layout.thread.frame
  have one := Access.length_field_le seat layout.thread.frame 8
  rcases isTop : contents.word seat layout.thread.frame with halt | top <;> rw [isTop] at readTop
  · exact ⟨_, _, readTop.bind_error, Nat.le_succ_of_le one,
      .inr ⟨halt, .frame (contents.answer_of_map isTop), rfl⟩⟩
  rcases contents.takes_generation layout origin isTop with
    ⟨generation, accesses, took, few, unread⟩
  have both : (Access.field seat layout.thread.frame 8 ++ accesses).length ≤ 2 := by
    rw [List.length_append]
    exact Nat.add_le_add one few
  cases generation with
  | error halt =>
      exact ⟨_, _, readTop.bind took.bind_error, both, .inr ⟨halt, unread halt rfl, rfl⟩⟩
  | ok generation =>
      refine ⟨_, _, readTop.bind (took.bind (takes_pure _)), ?_, .inl ⟨top, generation, rfl, rfl⟩⟩
      rw [List.append_nil]
      exact both

/-! ## The state of a thread -/

/-- What looking up a thread gives, once it is known which node is the first of its identity. -/
inductive LooksUp (id : ThreadId) :
    Option Address → Except (Halt CaptureError) ThreadState → Prop where
  | unknown : LooksUp id none (.error (.failed (.unknownThread id)))
  | found {seat top : Address} (generation : UInt64)
      (isTop : contents.word seat layout.thread.frame = .ok top) :
      LooksUp id (some seat) (.ok ⟨Structures.present top, generation⟩)
  | unread {seat : Address} {halt : Halt ReadFault} (failed : contents.HeadFault layout seat halt) :
      LooksUp id (some seat) (.error (halt.map .memory))

/-- The answer about a thread whose seat, and the head there, were looked up with this result. -/
def answered (id : ThreadId) :
    Except (Halt ReadFault) (Option ThreadState) → Except (Halt CaptureError) ThreadState
  | .ok (some state) => .ok state
  | .ok none => .error (.failed (.unknownThread id))
  | .error halt => .error (halt.map .memory)

theorem takes_answered {id : ThreadId} {result : Except (Halt ReadFault) (Option ThreadState)}
    {accesses : List Access}
    (looked : Takes (do
      match ← (contents.structures layout origin).seat? id with
      | some seat => some <$> (contents.structures layout origin).head seat
      | none => pure none) result accesses) :
    Takes ((contents.structures layout origin).threadState id) (answered id result) accesses := by
  rw [Structures.threadState, Structures.found_eq, ← List.append_nil accesses]
  have begun := looked.adapt (Halt.map CaptureError.memory)
  rcases result with halt | _ | state
  · rw [List.append_nil]
    exact begun.bind_error
  · exact begun.bind (takes_throw _)
  · exact begun.bind (takes_pure state)

/-- Looking a thread up reads no more than the list and one head. -/
theorem takes_threadState (id : ThreadId) :
    ∃ state walk more,
      Takes ((contents.structures layout origin).threadState id) state (walk ++ more) ∧
      walk <+: contents.threadsTour layout origin ∧ more.length ≤ 2 ∧
      ∀ ids, contents.Lists layout origin ids → LooksUp contents layout id
        ((contents.threadNodes layout origin).find? (contents.bears layout id)) state := by
  rcases contents.takes_seat? layout origin id with ⟨found, walk, took, within, finds⟩
  rcases found with halt | _ | seat
  · refine ⟨.error (halt.map .memory), walk, [], ?_, within, Nat.zero_le 2,
      fun ids lists => nomatch finds ids lists⟩
    rw [List.append_nil]
    exact contents.takes_answered layout origin took.bind_error
  · refine ⟨_, walk, [], contents.takes_answered layout origin (took.bind (takes_pure none)),
      within, Nat.zero_le 2, fun ids lists => ?_⟩
    rw [← Except.ok.inj (finds ids lists)]
    exact .unknown
  · rcases contents.takes_head layout origin seat with ⟨head, more, headed, few, outcome⟩
    refine ⟨_, walk, more, contents.takes_answered layout origin (took.bind (headed.map some)),
      within, few, fun ids lists => ?_⟩
    rw [← Except.ok.inj (finds ids lists)]
    rcases outcome with ⟨top, generation, isTop, rfl⟩ | ⟨halt, failed, rfl⟩
    · exact .found generation isTop
    · exact .unread failed

/--
Listing the threads, and looking one up, visit at most 4096 nodes of any list.  If the list can be
read, a thread is unknown exactly if it is not listed, and otherwise what is found is the innermost
frame of the first node that bears its identity, unless that node or the instruction of the frame
cannot be read, or a field of one of them has an address that exceeds a word.
-/
theorem threadState_agrees :
    (contents.threadNodes layout origin).length ≤ 4096 ∧
    ∃ listed accesses,
      Takes (contents.structures layout origin).threadIds listed accesses ∧
      accesses <+: contents.threadsTour layout origin ∧
      ∀ id, ∃ state walk more,
        Takes ((contents.structures layout origin).threadState id) state (walk ++ more) ∧
        walk <+: contents.threadsTour layout origin ∧ more.length ≤ 2 ∧
        ∀ ids, listed = .ok ids →
          (state = .error (.failed (.unknownThread id)) ↔ id ∉ ids) ∧
          (id ∈ ids → ∃ seat,
            (contents.threadNodes layout origin).find? (contents.bears layout id) = some seat ∧
            ((∃ top generation, contents.word seat layout.thread.frame = .ok top ∧
                state = .ok ⟨Structures.present top, generation⟩) ∨
              ∃ halt, contents.HeadFault layout seat halt ∧
                state = .error (halt.map .memory))) := by
  refine ⟨contents.length_threadNodes_le layout origin, ?_⟩
  rcases contents.takes_threadIds layout origin with ⟨listed, accesses, took, within, lists⟩
  refine ⟨listed, accesses, took, within, fun id => ?_⟩
  rcases contents.takes_threadState layout origin id with
    ⟨state, walk, more, looked, along, few, looksUp⟩
  refine ⟨state, walk, more, looked, along, few, fun ids isListed => ?_⟩
  have unlisted := find?_eq_none_iff (lists ids isListed).bear id
  have outcome := looksUp ids (lists ids isListed)
  generalize (contents.threadNodes layout origin).find? (contents.bears layout id) = first
    at unlisted outcome
  cases outcome with
  | unknown =>
      have missing := unlisted.mp rfl
      exact ⟨⟨fun _ => missing, fun _ => rfl⟩, fun member => absurd member missing⟩
  | found generation isTop =>
      have member : ¬ id ∉ ids := fun missing => Option.some_ne_none _ (unlisted.mpr missing)
      exact ⟨⟨nofun, fun missing => absurd missing member⟩,
        fun _ => ⟨_, rfl, .inl ⟨_, generation, isTop, rfl⟩⟩⟩
  | @unread _ halt failed =>
      have member : ¬ id ∉ ids := fun missing => Option.some_ne_none _ (unlisted.mpr missing)
      exact ⟨⟨fun same => (by cases halt <;> cases same), fun missing => absurd missing member⟩,
        fun _ => ⟨_, rfl, .inr ⟨_, failed, rfl⟩⟩⟩

end Contents

end StackSampler
