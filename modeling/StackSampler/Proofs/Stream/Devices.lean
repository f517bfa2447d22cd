import StackSampler.Proofs.Stream.Items

/-!
# Streams read from a device

A device hands its bytes over in pieces of any size, interrupts reads, and may fail.  None of this
can be told from what a reader gives: each step over a device does what it does over the same bytes
in memory, up to the place where the device fails, and there it reports the failure instead of an
end of the bytes.

The main statement is `calls_device_eq_memory`, for every device and any number of calls.
-/

namespace StackSampler.Stream

/-! ## What a device holds -/

namespace Device

/-- The bytes that can be read before the device fails, or all of them. -/
def readable : Device → List UInt8
  | [] => []
  | .piece bytes :: rest => bytes ++ readable rest
  | .interruption :: rest => readable rest
  | .failure :: _ => []

/-- Whether reads fail from some place on. -/
def fails : Device → Bool
  | [] => false
  | .piece _ :: rest => fails rest
  | .interruption :: rest => fails rest
  | .failure :: _ => true

theorem length_readable_le (device : Device) : device.readable.length ≤ device.left := by
  induction device with
  | nil => exact Nat.le_refl 0
  | cons delivery rest induction =>
      cases delivery with
      | piece bytes =>
          rw [readable, left, List.length_append]
          exact Nat.add_le_add_left induction _
      | interruption => exact induction
      | failure => exact Nat.zero_le _

/-- A device that hands over exactly these bytes, in any pieces and with any interruptions. -/
def Delivers (device : Device) (bytes : List UInt8) : Prop :=
  device.readable = bytes ∧ device.fails = false

/-- A device that hands over exactly these bytes in this way, and fails where they end. -/
def FailsAfter (device : Device) (bytes : List UInt8) : Prop :=
  device.readable = bytes ∧ device.fails = true

theorem append_of_lasting {first : Device} (lasts : first.fails = false) (second : Device) :
    readable (first ++ second) = first.readable ++ second.readable ∧
      fails (first ++ second) = second.fails := by
  induction first with
  | nil => exact ⟨rfl, rfl⟩
  | cons delivery rest induction =>
      cases delivery with
      | piece bytes =>
          rcases induction lasts with ⟨bytesOf, failing⟩
          exact ⟨(congrArg (bytes ++ ·) bytesOf).trans (List.append_assoc _ _ _).symm, failing⟩
      | interruption => exact induction lasts
      | failure => cases lasts

theorem Delivers.append {first second : Device} {bytes more : List UInt8}
    (delivers : first.Delivers bytes) (later : second.Delivers more) :
    Delivers (first ++ second) (bytes ++ more) := by
  rcases append_of_lasting delivers.2 second with ⟨readable, fails⟩
  constructor
  · rw [readable, delivers.1, later.1]
  · rw [fails, later.2]

theorem pieces_delivers (size : Nat) (bytes : List UInt8) : (pieces size bytes).Delivers bytes := by
  fun_induction pieces size bytes with
  | case1 => exact ⟨rfl, rfl⟩
  | case2 bytes nonempty induction =>
      refine ⟨?_, induction.2⟩
      rw [readable, induction.1, List.take_append_drop]

/-- Interruptions lose no bytes: what has not been handed over yet is still to come. -/
theorem cuts_deliver (size : Nat) (cuts : List Nat) (readable : List UInt8) :
    let cut := cuts.foldl
      (fun ((device, rest, position) : Device × List UInt8 × Nat) cut =>
        (device ++ pieces size (rest.take (cut - position)) ++ [Delivery.interruption],
          rest.drop (cut - position), max cut position))
      (([] : Device), readable, 0)
    ∃ bytes, Delivers cut.1 bytes ∧ bytes ++ cut.2.1 = readable := by
  refine List.foldlRecOn (motive := fun state : Device × List UInt8 × Nat =>
    ∃ bytes, Delivers state.1 bytes ∧ bytes ++ state.2.1 = readable) cuts _
    ⟨[], ⟨rfl, rfl⟩, rfl⟩ ?_
  rintro ⟨device, rest, position⟩ ⟨bytes, delivers, whole⟩ cut _
  have interrupted : Delivers [.interruption] [] := ⟨rfl, rfl⟩
  refine ⟨bytes ++ rest.take (cut - position) ++ [],
    (delivers.append (pieces_delivers size _)).append interrupted, ?_⟩
  rw [List.append_nil, List.append_assoc, List.take_append_drop, whole]

/-- However small the pieces are and wherever reads are interrupted, the bytes are delivered. -/
theorem ofBytes_delivers (size : Nat) (interruptions : List Nat) (bytes : List UInt8) :
    (ofBytes size interruptions none bytes).Delivers bytes := by
  unfold ofBytes
  dsimp only
  have cut := cuts_deliver size
    ((interruptions.filter (· ≤ bytes.length)).mergeSort) bytes
  rcases ran : List.foldl _ _ _ with ⟨device, rest, position⟩
  rw [ran] at cut
  rcases cut with ⟨front, delivers, whole⟩
  rw [List.append_nil, ← whole]
  exact delivers.append (pieces_delivers size rest)

theorem ofBytes_failsAfter (size : Nat) (interruptions : List Nat) {position : Nat}
    (bytes : List UInt8) (inside : position ≤ bytes.length) :
    (ofBytes size interruptions (some position) bytes).FailsAfter (bytes.take position) := by
  unfold ofBytes
  dsimp only
  have cut := cuts_deliver size
    ((interruptions.filter (· ≤ (bytes.take position).length)).mergeSort) (bytes.take position)
  rcases ran : List.foldl _ _ _ with ⟨device, rest, last⟩
  rw [ran] at cut
  rcases cut with ⟨front, delivers, whole⟩
  have all := delivers.append (pieces_delivers size rest)
  rcases append_of_lasting all.2 [.failure] with ⟨readable, fails⟩
  rw [if_pos inside]
  constructor
  · rw [readable, all.1, whole]
    exact List.append_nil _
  · exact fails

end Device

/-- What is reported where the bytes end: the failure, if that is what ends them. -/
def endedBy (fails : Bool) : StreamError → StreamError
  | .unexpectedEnd => if fails then .device else .unexpectedEnd
  | error => error

theorem exactly_memory_of_le {count : Nat} {bytes : List UInt8} (enough : count ≤ bytes.length) :
    Source.memory.exactly count bytes = (.ok (bytes.take count), bytes.drop count) := by
  simp only [Source.memory, List.length_take_of_le enough, if_true]

theorem exactly_memory_of_lt {count : Nat} {bytes : List UInt8} (short : bytes.length < count) :
    Source.memory.exactly count bytes = (.error .unexpectedEnd, []) := by
  have different : (bytes.take count).length ≠ count := by
    rw [List.length_take]
    omega
  simp only [Source.memory, if_neg different]

/-- Taking more bytes than a first piece holds takes the piece and the rest of them behind it. -/
theorem exactly_memory_append {count : Nat} {bytes rest : List UInt8}
    (short : bytes.length < count) :
    Source.memory.exactly count (bytes ++ rest) =
      ((Source.memory.exactly (count - bytes.length) rest).1.map (bytes ++ ·),
        (Source.memory.exactly (count - bytes.length) rest).2) := by
  by_cases enough : count - bytes.length ≤ rest.length
  · rw [exactly_memory_of_le enough, exactly_memory_of_le (by rw [List.length_append]; omega),
      List.take_append, List.take_of_length_le (Nat.le_of_lt short),
      List.drop_append, List.drop_of_length_le (Nat.le_of_lt short)]
    rfl
  · have less : rest.length < count - bytes.length := Nat.lt_of_not_le enough
    rw [exactly_memory_of_lt less, exactly_memory_of_lt (by rw [List.length_append]; omega)]
    rfl

theorem mapError_map {ε ε' α β : Type} (change : ε → ε') (use : α → β)
    (result : Except ε α) :
    (result.map use).mapError change = (result.mapError change).map use := by
  cases result <;> rfl

/-- Bytes are taken from a device as they are taken from memory, and leave what they leave there. -/
theorem exactly_device (count : Nat) (device : Device) :
    (device.exactly count).1 =
        (Source.memory.exactly count device.readable).1.mapError (endedBy device.fails) ∧
      (device.exactly count).2.readable = (Source.memory.exactly count device.readable).2 ∧
      (device.exactly count).2.fails = device.fails := by
  fun_induction Device.exactly count device with
  | case1 device =>
      rw [exactly_memory_of_le (Nat.zero_le _)]
      exact ⟨rfl, rfl, rfl⟩
  | case2 count =>
      rw [Device.readable, exactly_memory_of_lt (Nat.succ_pos count)]
      exact ⟨rfl, rfl, rfl⟩
  | case3 count rest induction => exact induction
  | case4 count rest =>
      rw [Device.readable, exactly_memory_of_lt (Nat.succ_pos count)]
      exact ⟨rfl, rfl, rfl⟩
  | case5 count bytes rest taken whole =>
      have enough : count + 1 ≤ bytes.length := by
        rw [List.length_take] at whole
        omega
      rw [Device.readable, exactly_memory_of_le (by rw [List.length_append]; omega),
        List.take_append_of_le_length enough, List.drop_append_of_le_length enough]
      exact ⟨rfl, rfl, rfl⟩
  | case6 count bytes rest taken part more after ran induction
  | case7 count bytes rest taken part error after ran induction =>
      have short : bytes.length < count + 1 := by
        rw [List.length_take] at part
        omega
      rw [ran] at induction
      rcases induction with ⟨same, left, fails⟩
      rw [Device.readable, exactly_memory_append short]
      refine ⟨?_, left, fails⟩
      rw [mapError_map, Device.fails, ← same]
      rfl

/-- The next byte of a device is the next one in memory; a failure stands for the end. -/
theorem next_device (device : Device) :
    (device.next).1 = (if device.fails ∧ device.readable = [] then .error .device
        else (Source.memory.next device.readable).1) ∧
      (device.next).2.readable = (Source.memory.next device.readable).2 ∧
      (device.next).2.fails = device.fails := by
  fun_induction Device.next device with
  | case1 => exact ⟨rfl, rfl, rfl⟩
  | case2 rest induction => exact induction
  | case3 rest => exact ⟨rfl, rfl, rfl⟩
  | case4 rest induction => exact induction
  | case5 byte rest =>
      refine ⟨?_, rfl, rfl⟩
      rw [if_neg (fun both => List.cons_ne_nil _ _ both.2)]
      rfl
  | case6 byte more rest nonempty =>
      refine ⟨?_, rfl, rfl⟩
      rw [if_neg (fun both => List.cons_ne_nil _ _ both.2)]
      rfl

/-! ## Steps over a device -/

/-- A reader of a device and one of the bytes that can be read from it. -/
structure Alike (fails : Bool) (reader : Reader Device) (shadow : Reader (List UInt8)) : Prop where
  readable : reader.source.readable = shadow.source
  fails : reader.source.fails = fails
  texts : reader.texts = shadow.texts
  frames : reader.frames = shadow.frames

namespace Reading

/--
A step over a device gives what it gives in memory, up to what is reported where the bytes end, and
puts no bytes back.
-/
def Follows {α : Type} (fails : Bool) (step : Reading Device α) (shadow : Reading (List UInt8) α) :
    Prop :=
  ∀ (reader : Reader Device) (memory : Reader (List UInt8)), Alike fails reader memory →
    (step reader).1 = (shadow memory).1.mapError (endedBy fails) ∧
      Alike fails (step reader).2 (shadow memory).2 ∧
      (shadow memory).2.source.length ≤ memory.source.length

section

variable {fails : Bool} {α β : Type} {step : Reading Device α} {shadow : Reading (List UInt8) α}
  {next : α → Reading Device β} {shadowNext : α → Reading (List UInt8) β}

theorem follows_pure (value : α) : Follows fails (pure value) (pure value) :=
  fun _ _ alike => ⟨rfl, alike, Nat.le_refl _⟩

theorem follows_refuse (cause : Malformed) :
    Follows fails (refuse cause : Reading Device α) (refuse cause) :=
  fun _ _ alike => ⟨rfl, alike, Nat.le_refl _⟩

theorem follows_orRefuse (cause : Malformed) (value? : Option α) :
    Follows fails (orRefuse cause value? : Reading Device α) (orRefuse cause value?) := by
  cases value? with
  | none => exact follows_refuse cause
  | some value => exact follows_pure value

theorem Follows.of_runs (follows : Follows fails step shadow) {reader after : Reader Device}
    {memory later : Reader (List UInt8)} {result expected : Except StreamError α}
    (alike : Alike fails reader memory) (ran : step reader = (result, after))
    (shadowRan : shadow memory = (expected, later)) :
    result = expected.mapError (endedBy fails) ∧ Alike fails after later ∧
      later.source.length ≤ memory.source.length := by
  have both := follows reader memory alike
  rw [ran, shadowRan] at both
  exact both

theorem Follows.bind (first : Follows fails step shadow)
    (later : ∀ value, Follows fails (next value) (shadowNext value)) :
    Follows fails (step >>= next) (shadow >>= shadowNext) := by
  intro reader memory alike
  rcases ran : step reader with ⟨result, middle⟩
  rcases shadowRan : shadow memory with ⟨expected, halfway⟩
  rcases first.of_runs alike ran shadowRan with ⟨same, alike, shorter⟩
  cases expected with
  | error error =>
      cases same
      rw [bind_of_error ran, bind_of_error shadowRan]
      exact ⟨rfl, alike, shorter⟩
  | ok value =>
      cases same
      rw [bind_of_ok ran, bind_of_ok shadowRan]
      rcases later value middle halfway alike with ⟨same, alike, still⟩
      exact ⟨same, alike, Nat.le_trans still shorter⟩

theorem Follows.map (follows : Follows fails step shadow) (change : α → β) :
    Follows fails (change <$> step) (change <$> shadow) := by
  rw [← bind_pure_comp, ← bind_pure_comp]
  exact follows.bind fun value => follows_pure (change value)

end

variable {fails : Bool}

theorem length_exactly_le (count : Nat) (bytes : List UInt8) :
    (Source.memory.exactly count bytes).2.length ≤ bytes.length := by
  by_cases enough : count ≤ bytes.length
  · rw [exactly_memory_of_le enough, List.length_drop]
    exact Nat.sub_le _ _
  · rw [exactly_memory_of_lt (Nat.lt_of_not_le enough)]
    exact Nat.zero_le _

theorem follows_bytes (count : Nat) :
    Follows fails (bytes .device count) (bytes .memory count) := by
  intro reader memory alike
  rcases exactly_device count reader.source with ⟨same, left, failing⟩
  rw [alike.readable, alike.fails] at same
  rw [alike.readable] at left
  rw [alike.fails] at failing
  exact ⟨same, ⟨left, failing, alike.texts, alike.frames⟩, length_exactly_le count memory.source⟩

theorem follows_byte : Follows fails (byte .device) (byte .memory) :=
  (follows_bytes 1).bind fun _ => follows_pure _

theorem follows_half : Follows fails (half .device) (half .memory) :=
  (follows_bytes 4).map _

theorem follows_word : Follows fails (word .device) (word .memory) :=
  (follows_bytes 8).map _

theorem follows_text (number : UInt32) : Follows fails (text number) (text number) := by
  intro reader memory alike
  have shadow : text number memory =
      orRefuse (.undefinedText number) reader.texts[number]? memory := by
    rw [alike.texts]
    rfl
  rw [shadow]
  exact follows_orRefuse (.undefinedText number) reader.texts[number]? reader memory alike

theorem follows_frame (number : UInt32) : Follows fails (frame number) (frame number) := by
  intro reader memory alike
  have shadow : frame number memory =
      orRefuse (.undefinedFrame number) reader.frames[number]? memory := by
    rw [alike.frames]
    rfl
  rw [shadow]
  exact follows_orRefuse (.undefinedFrame number) reader.frames[number]? reader memory alike

theorem follows_defineText (number : UInt32) (value : String) :
    Follows fails
      (modify fun reader => { reader with texts := reader.texts.insert number value })
      (modify fun reader => { reader with texts := reader.texts.insert number value }) := by
  intro reader memory alike
  refine ⟨rfl, ⟨alike.readable, alike.fails, ?_, alike.frames⟩, Nat.le_refl _⟩
  exact congrArg (·.insert number value) alike.texts

theorem follows_defineFrame (number : UInt32) (value : Frame) :
    Follows fails
      (modify fun reader => { reader with frames := reader.frames.insert number value })
      (modify fun reader => { reader with frames := reader.frames.insert number value }) := by
  intro reader memory alike
  refine ⟨rfl, ⟨alike.readable, alike.fails, alike.texts, ?_⟩, Nat.le_refl _⟩
  exact congrArg (·.insert number value) alike.frames

/-! ## Items over a device -/

theorem follows_header : Follows fails (header .device) (header .memory) :=
  follows_byte.bind fun _ => (follows_orRefuse _ _).bind fun _ => follows_word.bind fun _ =>
    follows_half.bind fun _ => follows_word.bind fun _ => follows_pure _

theorem follows_textDefinition :
    Follows fails (textDefinition .device) (textDefinition .memory) :=
  follows_half.bind fun number => follows_half.bind fun length =>
    (follows_bytes length.toNat).bind fun _ => (follows_orRefuse _ _).bind fun value =>
      follows_defineText number value

theorem follows_frameDefinition :
    Follows fails (frameDefinition .device) (frameDefinition .memory) :=
  follows_half.bind fun number => follows_half.bind fun _ => follows_half.bind fun _ =>
    (follows_text _).bind fun _ => (follows_text _).bind fun _ => follows_half.bind fun _ =>
      follows_byte.bind fun _ => (follows_orRefuse _ _).bind fun _ =>
        follows_defineFrame number _

theorem follows_threadName : Follows fails (threadName .device) (threadName .memory) :=
  follows_word.bind fun _ => follows_half.bind fun _ => (follows_text _).bind fun _ =>
    follows_pure _

theorem follows_metric : Follows fails (metric .device) (metric .memory) := by
  refine follows_byte.bind fun tag => ?_
  split
  · exact follows_word.bind fun _ => follows_pure _
  split
  · exact follows_word.bind fun _ => follows_pure _
  split
  · exact follows_word.bind fun _ => follows_word.bind fun _ => follows_pure _
  split
  · exact follows_word.bind fun _ => follows_word.bind fun _ => follows_pure _
  · exact follows_refuse _

theorem follows_frames (count : Nat) :
    Follows fails (frames .device count) (frames .memory count) := by
  induction count with
  | zero => exact follows_pure []
  | succ count induction =>
      exact follows_half.bind fun number => (follows_frame number).bind fun _ =>
        induction.bind fun _ => follows_pure _

theorem follows_sample : Follows fails (sample .device) (sample .memory) := by
  refine follows_word.bind fun thread => follows_byte.bind fun mark => ?_
  have behindTask (task : Option TaskId) :
      Follows fails
        (do
          let metric ← metric .device
          let count ← half .device
          let frames ← frames .device count.toNat
          pure (Record.sample ⟨thread, task, metric, frames⟩))
        (do
          let metric ← metric .memory
          let count ← half .memory
          let frames ← frames .memory count.toNat
          pure (Record.sample ⟨thread, task, metric, frames⟩)) :=
    follows_metric.bind fun _ => follows_half.bind fun count =>
      (follows_frames count.toNat).bind fun _ => follows_pure _
  split
  · exact (follows_pure none).bind behindTask
  · exact (follows_word.map some).bind behindTask

theorem follows_marker : Follows fails (marker .device) (marker .memory) :=
  follows_word.bind fun _ => follows_byte.bind fun _ => follows_pure _

theorem follows_item (code : UInt8) : Follows fails (item .device code) (item .memory code) := by
  unfold item
  split
  · exact follows_header.map some
  split
  · exact follows_textDefinition.bind fun _ => follows_pure none
  split
  · exact follows_frameDefinition.bind fun _ => follows_pure none
  split
  · exact follows_threadName.map some
  split
  · exact follows_sample.map some
  split
  · exact follows_marker.map some
  · exact follows_refuse _

/-! ## Records over a device -/

variable {reader : Reader Device} {memory : Reader (List UInt8)}

theorem nextByte_memory_of_ended (ended : memory.source = []) :
    nextByte .memory memory = (.ok none, memory) := by
  rcases memory with ⟨source, texts, frames⟩
  cases ended
  rfl

theorem nextByte_of_ended (alike : Alike fails reader memory) (ended : memory.source = []) :
    ∃ after, nextByte .device reader = (if fails then .error .device else .ok none, after) ∧
      Alike fails after memory := by
  rcases next_device reader.source with ⟨found, left, failing⟩
  rw [alike.readable, alike.fails, ended] at found
  rw [alike.readable, ended] at left
  refine ⟨{ reader with source := reader.source.next.2 }, Prod.ext (found.trans ?_) rfl, ?_⟩
  · cases fails <;> rfl
  · exact ⟨left.trans ended.symm, failing.trans alike.fails, alike.texts, alike.frames⟩

theorem nextByte_of_cons (alike : Alike fails reader memory) {code : UInt8} {rest : List UInt8}
    (goesOn : memory.source = code :: rest) :
    ∃ after, nextByte .device reader = (.ok (some code), after) ∧
      Alike fails after { memory with source := rest } := by
  rcases next_device reader.source with ⟨found, left, failing⟩
  rw [alike.readable, goesOn, if_neg (fun both => List.cons_ne_nil _ _ both.2)] at found
  rw [alike.readable, goesOn] at left
  exact ⟨{ reader with source := reader.source.next.2 }, Prod.ext found rfl,
    left, failing.trans alike.fails, alike.texts, alike.frames⟩

/-- What a call of a reader gives: a failure of the device stands for any end of its bytes. -/
def endingIn (fails : Bool) :
    Except StreamError (Option Record) → Except StreamError (Option Record)
  | .ok none => if fails then .error .device else .ok none
  | .ok (some record) => .ok (some record)
  | .error error => .error (endedBy fails error)

/--
The search for the next record finds over a device what it finds in memory.  As each item takes its
code at least, it does not matter how many items it may go through, if there are enough.
-/
theorem recordWithin_device (alike : Alike fails reader memory) {room shadowRoom : Nat}
    (enough : memory.source.length < room) (alsoEnough : memory.source.length < shadowRoom) :
    (recordWithin .device room reader).1 =
        endingIn fails (recordWithin .memory shadowRoom memory).1 ∧
      Alike fails (recordWithin .device room reader).2
        (recordWithin .memory shadowRoom memory).2 := by
  induction room generalizing reader memory shadowRoom with
  | zero => exact absurd enough (Nat.not_lt_zero _)
  | succ room induction =>
      obtain ⟨shadowRoom, rfl⟩ := Nat.exists_eq_add_one_of_ne_zero (Nat.ne_zero_of_lt alsoEnough)
      rw [recordWithin, recordWithin]
      cases bytes : memory.source with
      | nil =>
          rcases nextByte_of_ended alike bytes with ⟨after, ran, alike⟩
          rw [bind_of_ok (nextByte_memory_of_ended bytes)]
          cases fails with
          | false =>
              rw [bind_of_ok ran]
              exact ⟨rfl, alike⟩
          | true =>
              rw [bind_of_error ran]
              exact ⟨rfl, alike⟩
      | cons code rest =>
          rcases nextByte_of_cons alike bytes with ⟨after, ran, alike⟩
          have begun : nextByte .memory memory =
              (.ok (some code), { memory with source := rest }) := by
            simp only [nextByte, Source.memory, bytes]
          rw [bytes, List.length_cons] at enough alsoEnough
          rw [bind_of_ok ran, bind_of_ok begun]
          dsimp only
          rcases itemRan : item .device code after with ⟨result, later⟩
          rcases shadowRan : item .memory code { memory with source := rest } with
            ⟨expected, laterShadow⟩
          rcases (follows_item code).of_runs alike itemRan shadowRan with ⟨same, alike, shorter⟩
          rcases expected with error | _ | record
          · cases same
            rw [bind_of_error itemRan, bind_of_error shadowRan]
            exact ⟨rfl, alike⟩
          · cases same
            rw [bind_of_ok itemRan, bind_of_ok shadowRan]
            have left : laterShadow.source.length ≤ rest.length := shorter
            apply induction alike
            · omega
            · omega
          · cases same
            rw [bind_of_ok itemRan, bind_of_ok shadowRan]
            exact ⟨rfl, alike⟩

/-- The check of a preamble. -/
theorem follows_opening :
    Follows fails
      (do
        let start ← bytes .device 8
        if start != magic then refuse .notAStream
        let found ← half .device
        if found != version then refuse (.unsupportedVersion found))
      (do
        let start ← bytes .memory 8
        if start != magic then refuse .notAStream
        let found ← half .memory
        if found != version then refuse (.unsupportedVersion found)) := by
  refine (follows_bytes 8).bind fun start => ?_
  have ofVersion : Follows fails
      (do
        let found ← half .device
        if found != version then refuse (.unsupportedVersion found))
      (do
        let found ← half .memory
        if found != version then refuse (.unsupportedVersion found)) := by
    refine follows_half.bind fun found => ?_
    split
    · exact follows_refuse _
    · exact follows_pure _
  split
  · exact (follows_refuse _).bind fun _ => ofVersion
  · exact ofVersion

end Reading

/-! ## Calls of a reader -/

namespace Reader

variable {σ : Type}

/-- What a call of a reader gives: a record, the end of the stream, or an error. -/
abbrev Answer := Except StreamError (Option Record)

/-- What `count` calls of a reader give.  Calls go on behind an end and behind an error. -/
def calls (supply : Source σ) : Nat → Reader σ → List Answer
  | 0, _ => []
  | count + 1, reader =>
      (reader.next supply).1 :: calls supply count (reader.next supply).2

/-- What opening a stream gives, and `count` calls of its reader if it could be opened. -/
def opened (supply : Source σ) (count : Nat) (source : σ) : Except StreamError (List Answer) :=
  match Reader.start supply source with
  | (.error error, _) => .error error
  | (.ok (), reader) => .ok (calls supply count reader)

theorem start_device (device : Device) :
    (start .device device).1 =
        (start .memory device.readable).1.mapError (endedBy device.fails) ∧
      Alike device.fails (start .device device).2 (start .memory device.readable).2 := by
  have alike : Alike device.fails ({ source := device } : Reader Device)
      { source := device.readable } := ⟨rfl, rfl, rfl, rfl⟩
  rcases Reading.follows_opening _ _ alike with ⟨same, alike, _⟩
  exact ⟨same, alike⟩

theorem next_alike {fails : Bool} {reader : Reader Device} {memory : Reader (List UInt8)}
    (alike : Alike fails reader memory) :
    (reader.next .device).1 = Reading.endingIn fails (memory.next .memory).1 ∧
      Alike fails (reader.next .device).2 (memory.next .memory).2 := by
  apply Reading.recordWithin_device alike
  · rw [← alike.readable]
    exact Nat.lt_succ_of_le reader.source.length_readable_le
  · exact Nat.lt_succ_self _

theorem calls_device {fails : Bool} {reader : Reader Device} {memory : Reader (List UInt8)}
    (alike : Alike fails reader memory) (count : Nat) :
    calls .device count reader = (calls .memory count memory).map (Reading.endingIn fails) := by
  induction count generalizing reader memory with
  | zero => rfl
  | succ count induction =>
      rcases next_alike alike with ⟨same, alike⟩
      rw [calls, calls, List.map_cons, same, induction alike]

theorem endingIn_false (answer : Answer) : Reading.endingIn false answer = answer := by
  rcases answer with error | _ | record
  · cases error <;> rfl
  · rfl
  · rfl

/-- Opening a device and calling its reader gives what it gives in memory, up to the ending. -/
theorem opened_device (device : Device) (count : Nat) :
    opened .device count device =
      ((opened .memory count device.readable).mapError (endedBy device.fails)).map
        (List.map (Reading.endingIn device.fails)) := by
  rcases ran : start .device device with ⟨result, reader⟩
  rcases shadowRan : start .memory device.readable with ⟨expected, memory⟩
  have both := start_device device
  rw [ran, shadowRan] at both
  rcases both with ⟨same, alike⟩
  rw [opened, opened, ran, shadowRan]
  cases expected with
  | error error =>
      cases same
      rfl
  | ok value =>
      cases same
      exact congrArg Except.ok (calls_device alike count)

/--
A device that hands over all of some bytes, in whatever pieces and with whatever interruptions,
cannot be told from these bytes in memory: opening the stream and any number of calls give the same.
If it fails behind the first `position` of them, all is as with these alone, but that the failure is
reported instead of each end of the stream and each unexpected end.
-/
theorem opened_device_eq_memory (bytes : List UInt8) (count : Nat) :
    (∀ device : Device, device.Delivers bytes →
      opened .device count device = opened .memory count bytes) ∧
    ∀ (position : Nat) (device : Device), device.FailsAfter (bytes.take position) →
      opened .device count device =
        ((opened .memory count (bytes.take position)).mapError (endedBy true)).map
          (List.map (Reading.endingIn true)) := by
  constructor
  · rintro device ⟨readable, lasts⟩
    rw [opened_device, readable, lasts]
    have sameAnswers : List.map (Reading.endingIn false) = id := by
      funext answers
      rw [funext endingIn_false]
      exact List.map_id answers
    rw [sameAnswers]
    rcases opened .memory count bytes with error | answers
    · cases error <;> rfl
    · rfl
  · rintro position device ⟨readable, failing⟩
    rw [opened_device, readable, failing]

/-- A marker, a byte that is no code, and the beginning of a text definition. -/
def frayedStream : List UInt8 :=
  preamble ++ [markerCode, 8, 0, 0, 0, 0, 0, 0, 0, 3] ++ [0xFF] ++ [textCode, 1, 0]

/-- The frayed stream in pieces of two bytes, and the first bytes of it before a failure. -/
theorem opened_device_eq_memory_frayed :
    (Device.ofBytes 1 [0, 9, 13] none frayedStream).Delivers frayedStream ∧
      (Device.ofBytes 1 [13] (some 14) frayedStream).FailsAfter (frayedStream.take 14) ∧
      opened .device 4 (Device.ofBytes 1 [0, 9, 13] none frayedStream) =
        opened .memory 4 frayedStream ∧
      opened .device 4 (Device.ofBytes 1 [13] (some 14) frayedStream) =
        ((opened .memory 4 (frayedStream.take 14)).mapError (endedBy true)).map
          (List.map (Reading.endingIn true)) := by
  have inside : 14 ≤ frayedStream.length := by decide
  have delivers := Device.ofBytes_delivers 1 [0, 9, 13] frayedStream
  have failsAfter := Device.ofBytes_failsAfter 1 [13] frayedStream inside
  exact ⟨delivers, failsAfter, (opened_device_eq_memory frayedStream 4).1 _ delivers,
    (opened_device_eq_memory frayedStream 4).2 14 _ failsAfter⟩

/-- Malformed bytes do not end the calls, and where the device fails no end is reported. -/
example :
    opened .memory 4 frayedStream =
        .ok [.ok (some (.marker ⟨8, .tooDeep⟩)), .error (.malformed (.unknownCode 0xFF)),
          .error .unexpectedEnd, .ok none] ∧
      opened .device 2 (Device.ofBytes 1 [13] (some 14) frayedStream) =
        .ok [.error .device, .error .device] := by
  decide +kernel

end Reader

end StackSampler.Stream
