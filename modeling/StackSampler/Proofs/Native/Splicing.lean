import Mathlib.Data.List.SplitBy
import StackSampler.Native.Splice

/-!
# Nothing is lost in a splice

A native stack and an interpreted one may disagree in any way: there may be more frames of the
evaluation loop than segments or fewer, and no entry frame at all.  Splicing still keeps every frame
of both, except for the frames of the evaluation loop, and keeps their order.

The interpreted frames are cut into segments, each up to and including an entry frame.  The main
statement is `splice_keeps_and_places`: the frames are shuffled and not lost, and each segment
stands where its frame of the evaluation loop stood.
-/

namespace StackSampler.Native

/-! ## Shuffled lists -/

/-- Two lists are shuffled into a third one; the elements of each keep their order. -/
inductive Shuffled {α : Type} : List α → List α → List α → Prop where
  | nil : Shuffled [] [] []
  | left {head : α} {one other merged : List α} (tail : Shuffled one other merged) :
      Shuffled (head :: one) other (head :: merged)
  | right {head : α} {one other merged : List α} (tail : Shuffled one other merged) :
      Shuffled one (head :: other) (head :: merged)

section

variable {α : Type} {one other merged : List α}

theorem shuffled_left (list : List α) : Shuffled list [] list := by
  induction list with
  | nil => exact .nil
  | cons head tail induction => exact .left induction

theorem Shuffled.append_left (front : List α) (behind : Shuffled one other merged) :
    Shuffled (front ++ one) other (front ++ merged) := by
  induction front with
  | nil => exact behind
  | cons head tail induction => exact .left induction

theorem Shuffled.mem (shuffled : Shuffled one other merged) {element : α}
    (member : element ∈ merged) : element ∈ one ∨ element ∈ other := by
  induction shuffled with
  | nil => cases member
  | left _ induction =>
      rcases List.mem_cons.mp member with rfl | behind
      · exact .inl List.mem_cons_self
      · exact (induction behind).imp_left (List.mem_cons_of_mem _)
  | right _ induction =>
      rcases List.mem_cons.mp member with rfl | behind
      · exact .inr List.mem_cons_self
      · exact (induction behind).imp_right (List.mem_cons_of_mem _)

end

/-! ## Frames of the evaluation loop -/

/-- A variant of a symbol is the symbol, or the symbol with a dot and anything behind it. -/
theorem isVariantOf_iff {symbol name : String} :
    isVariantOf symbol name = true ↔ name = symbol ∨ ∃ clone, name = symbol ++ "." ++ clone := by
  have reads : isVariantOf symbol name = true ↔
      Text.behind? symbol.toList name.toList = some [] ∨
        ∃ clone, Text.behind? symbol.toList name.toList = some ('.' :: clone) := by
    unfold isVariantOf
    rcases Text.behind? symbol.toList name.toList with _ | _ | ⟨c, clone⟩ <;> simp
  simp only [reads, Text.behind?_eq_some_iff, List.append_nil, String.toList_inj]
  refine or_congr_right ⟨?_, ?_⟩
  · rintro ⟨clone, isName⟩
    exact ⟨.ofList clone, String.toList_inj.mp (by simp [isName])⟩
  · rintro ⟨clone, rfl⟩
    exact ⟨clone.toList, by simp⟩

/--
A frame of the evaluation loop is a native one, and its name is one of the symbols, or one of them
with a dot and anything behind it.
-/
theorem isEvalLoop_iff {symbols : List String} {frame : Frame} :
    isEvalLoop symbols frame = true ↔
      frame.kind = .native ∧ ∃ symbol ∈ symbols,
        frame.name = symbol ∨ ∃ clone, frame.name = symbol ++ "." ++ clone := by
  rw [isEvalLoop, Bool.and_eq_true, List.any_eq_true, beq_iff_eq]
  simp only [isVariantOf_iff]

/-! ## Segments -/

/-- The interpreted frames, cut behind each entry frame. -/
def segments (interpreted : List WalkedFrame) : List (List WalkedFrame) :=
  interpreted.splitBy fun inner _ => !inner.isEntry

variable {interpreted : List WalkedFrame}

/-- Among frames without an entry frame there is no place to cut. -/
theorem isChain_of_no_entry (inside : ∀ walked ∈ interpreted, walked.isEntry = false) :
    interpreted.IsChain fun inner _ => !inner.isEntry := by
  induction interpreted with
  | nil => exact .nil
  | cons head tail induction =>
      have others := induction fun walked member => inside walked (List.mem_cons_of_mem _ member)
      refine others.cons fun next _ => ?_
      simp [inside head List.mem_cons_self]

theorem segments_of_no_entry (inside : ∀ walked ∈ interpreted, walked.isEntry = false)
    (nonempty : interpreted ≠ []) : segments interpreted = [interpreted] :=
  List.splitBy_of_isChain nonempty (isChain_of_no_entry inside)

/-- The frames up to the first entry frame are one segment, and what follows is cut anew. -/
theorem segments_append {front : List WalkedFrame} {entry : WalkedFrame}
    (inside : ∀ walked ∈ front, walked.isEntry = false) (isEntry : entry.isEntry = true)
    (behind : List WalkedFrame) :
    segments (front ++ entry :: behind) = (front ++ [entry]) :: segments behind := by
  have chain : (front ++ [entry]).IsChain fun inner _ => !inner.isEntry := by
    refine List.isChain_append.mpr ⟨isChain_of_no_entry inside, .singleton entry, ?_⟩
    intro last isLast next _
    simp [inside last (List.mem_of_mem_getLast? isLast)]
  rw [List.append_cons, segments, List.splitBy_append (by simp [isEntry]),
    List.splitBy_of_isChain (by simp) chain]
  rfl

theorem segment_of_no_entry (inside : ∀ walked ∈ interpreted, walked.isEntry = false) :
    segment interpreted = (interpreted.map (·.frame), []) := by
  induction interpreted with
  | nil => rfl
  | cons head tail induction =>
      have others := induction fun walked member => inside walked (List.mem_cons_of_mem _ member)
      simp [segment, inside head List.mem_cons_self, others]

theorem segment_append {front : List WalkedFrame} {entry : WalkedFrame}
    (inside : ∀ walked ∈ front, walked.isEntry = false) (isEntry : entry.isEntry = true)
    (behind : List WalkedFrame) :
    segment (front ++ entry :: behind) = ((front ++ [entry]).map (·.frame), behind) := by
  induction front with
  | nil => simp [segment, isEntry]
  | cons head tail induction =>
      have others := induction fun walked member => inside walked (List.mem_cons_of_mem _ member)
      simp [segment, inside head List.mem_cons_self, others]

/-- Interpreted frames that have an entry frame have a first one. -/
theorem eq_append_entry_or_no_entry (interpreted : List WalkedFrame) :
    (∀ walked ∈ interpreted, walked.isEntry = false) ∨
      ∃ front entry behind, interpreted = front ++ entry :: behind ∧
        (∀ walked ∈ front, walked.isEntry = false) ∧ entry.isEntry = true := by
  cases first : interpreted.find? (·.isEntry) with
  | none => exact .inl fun walked member => by simpa using List.find?_eq_none.mp first walked member
  | some entry =>
      rcases List.find?_eq_some_iff_append.mp first with ⟨isEntry, front, behind, rfl, inside⟩
      have within (walked : WalkedFrame) (member : walked ∈ front) : walked.isEntry = false := by
        simpa using inside walked member
      exact .inr ⟨front, entry, behind, rfl, within, isEntry⟩

/-- A frame of the evaluation loop takes the first segment and leaves the others. -/
theorem segment_eq (interpreted : List WalkedFrame) :
    ∃ behind, segment interpreted = (((segments interpreted).headD []).map (·.frame), behind) ∧
      interpreted = (segments interpreted).headD [] ++ behind ∧
        segments behind = (segments interpreted).tail := by
  rcases eq_append_entry_or_no_entry interpreted with
    inside | ⟨front, entry, behind, rfl, inside, isEntry⟩
  · refine ⟨[], ?_⟩
    rw [segment_of_no_entry inside]
    by_cases empty : interpreted = []
    · subst empty
      exact ⟨rfl, rfl, rfl⟩
    · rw [segments_of_no_entry inside empty]
      exact ⟨rfl, (List.append_nil _).symm, rfl⟩
  · refine ⟨behind, ?_⟩
    rw [segment_append inside isEntry, segments_append inside isEntry]
    exact ⟨rfl, List.append_cons _ _ _, rfl⟩

/-! ## Splicing -/

variable {symbols : List String} {frame : Frame} {native : List Frame}

theorem splice_cons_loop (isLoop : isEvalLoop symbols frame = true) (native : List Frame)
    (interpreted : List WalkedFrame) :
    splice symbols (frame :: native) interpreted =
      (segment interpreted).1 ++ splice symbols native (segment interpreted).2 := by
  rw [splice, if_pos isLoop]

theorem splice_cons_other (isOther : isEvalLoop symbols frame = false) (native : List Frame)
    (interpreted : List WalkedFrame) :
    splice symbols (frame :: native) interpreted = frame :: splice symbols native interpreted := by
  rw [splice, if_neg (by simp [isOther])]

/-- The interpreted frames and the native ones that are not of the evaluation loop are shuffled. -/
theorem splice_shuffled (symbols : List String) (native : List Frame)
    (interpreted : List WalkedFrame) :
    Shuffled (interpreted.map (·.frame)) (native.filter (!isEvalLoop symbols ·))
      (splice symbols native interpreted) := by
  induction native generalizing interpreted with
  | nil => exact shuffled_left _
  | cons frame rest induction =>
      cases isLoop : isEvalLoop symbols frame with
      | false =>
          rw [splice_cons_other isLoop, List.filter_cons_of_pos (by simp [isLoop])]
          exact .right (induction interpreted)
      | true =>
          rcases segment_eq interpreted with ⟨behind, taken, whole, -⟩
          rw [splice_cons_loop isLoop, taken, List.filter_cons_of_neg (by simp [isLoop])]
          have parts := congrArg (List.map (·.frame)) whole
          rw [List.map_append] at parts
          rw [parts]
          exact (induction behind).append_left _

/-- What stands at the place of a native frame: itself, or the segment of a loop frame, which is
the one with as many segments before it as there are loop frames before. -/
def standsFor (symbols : List String) (native : List Frame) (cuts : List (List WalkedFrame))
    (place : Nat) (frame : Frame) : List Frame :=
  if isEvalLoop symbols frame then
    (cuts.getD ((native.take place).countP (isEvalLoop symbols)) []).map (·.frame)
  else [frame]

/-- Each native frame is replaced by what stands for it, and the segments left over stand at the
end. -/
theorem splice_eq (symbols : List String) (native : List Frame) (interpreted : List WalkedFrame) :
    splice symbols native interpreted =
      (native.mapIdx (standsFor symbols native (segments interpreted))).flatten ++
        ((segments interpreted).drop (native.countP (isEvalLoop symbols))).flatten.map
          (·.frame) := by
  induction native generalizing interpreted with
  | nil => simp [splice, segments]
  | cons frame rest induction =>
      rw [List.mapIdx_cons, List.flatten_cons]
      cases isLoop : isEvalLoop symbols frame with
      | false =>
          have shifted : (fun place => standsFor symbols (frame :: rest) (segments interpreted)
              (place + 1)) = standsFor symbols rest (segments interpreted) := by
            funext place other
            simp [standsFor, isLoop]
          rw [splice_cons_other isLoop, induction, shifted]
          simp [standsFor, isLoop]
      | true =>
          rcases segment_eq interpreted with ⟨behind, taken, -, cut⟩
          have shifted : (fun place => standsFor symbols (frame :: rest) (segments interpreted)
              (place + 1)) = standsFor symbols rest (segments behind) := by
            funext place other
            simp [standsFor, isLoop, cut]
          rw [splice_cons_loop isLoop, taken, induction, shifted]
          simp [standsFor, isLoop, cut, List.head?_eq_getElem?]

/-- A frame of the evaluation loop that is still there was among the interpreted frames. -/
theorem exists_of_isEvalLoop_mem_splice (member : frame ∈ splice symbols native interpreted)
    (isLoop : isEvalLoop symbols frame = true) : ∃ walked ∈ interpreted, walked.frame = frame := by
  rcases (splice_shuffled symbols native interpreted).mem member with inner | outer
  · exact List.mem_map.mp inner
  · simp [List.mem_filter, isLoop] at outer

/--
A splice keeps all interpreted frames and all native frames that are not of the evaluation loop,
each in their order, and nothing else; no frame of the evaluation loop is left.  The segment of the
interpreted frames with some number stands where the loop frame with this number stood, nothing
stands there once the segments are used up, and the segments left over stand at the end.
-/
theorem splice_keeps_and_places (symbols : List String) (native : List Frame)
    (interpreted : List WalkedFrame) :
    Shuffled (interpreted.map (·.frame)) (native.filter (!isEvalLoop symbols ·))
        (splice symbols native interpreted) ∧
      ((∀ walked ∈ interpreted, walked.frame.kind = .interpreted) →
        ∀ frame ∈ splice symbols native interpreted, isEvalLoop symbols frame = false) ∧
      splice symbols native interpreted =
        (native.mapIdx (standsFor symbols native (segments interpreted))).flatten ++
          ((segments interpreted).drop (native.countP (isEvalLoop symbols))).flatten.map
            (·.frame) := by
  refine ⟨splice_shuffled symbols native interpreted, ?_, splice_eq symbols native interpreted⟩
  intro kinds frame member
  cases isLoop : isEvalLoop symbols frame with
  | false => rfl
  | true =>
      rcases exists_of_isEvalLoop_mem_splice member isLoop with ⟨walked, isWalked, rfl⟩
      have isNative := (isEvalLoop_iff.mp isLoop).1
      rw [kinds walked isWalked] at isNative
      cases isNative

/-- A native stack with two frames of the loop, one of them of a clone of its symbol. -/
def callbackStack : List Frame :=
  [ .native "compress" "zlib.c" 10, .native "_PyEval_EvalFrameDefault" "" 0,
    .native "call_callback" "ext.c" 5, .native "_PyEval_EvalFrameDefault.cold" "" 0,
    .native "main" "" 0 ]

/-- An interpreted stack of three segments. -/
def threeSegments : List WalkedFrame :=
  [ ⟨0, .interpreted "chunk" "app.py" 1, false⟩, ⟨0, .interpreted "handler" "app.py" 2, true⟩,
    ⟨0, .interpreted "dispatch" "app.py" 3, true⟩, ⟨0, .interpreted "boot" "app.py" 4, false⟩ ]

theorem splice_keeps_and_places_threeSegments :
    (∀ walked ∈ threeSegments, walked.frame.kind = .interpreted) ∧
      ∀ frame ∈ splice defaultEvalSymbols callbackStack threeSegments,
        isEvalLoop defaultEvalSymbols frame = false := by
  have kinds : ∀ walked ∈ threeSegments, walked.frame.kind = .interpreted := by decide
  exact ⟨kinds, (splice_keeps_and_places defaultEvalSymbols callbackStack threeSegments).2.1 kinds⟩

example : (splice defaultEvalSymbols callbackStack threeSegments).map (·.name) =
    ["compress", "chunk", "handler", "call_callback", "dispatch", "main", "boot"] := by
  decide +kernel

end StackSampler.Native
