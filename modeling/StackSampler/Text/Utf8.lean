/-!
# UTF-8

Texts as lists of bytes.  Reading is strict where a stream has to be well formed, and lenient where
text is taken from a foreign process: there each maximal ill-formed run that starts a character
becomes one replacement character.
-/

namespace StackSampler.Text

/-- The UTF-8 bytes of a text. -/
def utf8 (text : String) : List UInt8 :=
  text.toUTF8.data.toList

/-- The text whose UTF-8 form is `bytes`, if they are well formed. -/
def ofUtf8? (bytes : List UInt8) : Option String :=
  String.fromUTF8? ⟨bytes.toArray⟩

/-- Reading what was written gives the text back. -/
@[simp]
theorem ofUtf8?_utf8 (text : String) : ofUtf8? (utf8 text) = some text := by
  have same : (⟨text.toUTF8.data.toList.toArray⟩ : ByteArray) = text.toUTF8 := by
    simp
  rw [ofUtf8?, utf8, same]
  simp only [String.fromUTF8?, String.toUTF8_eq_toByteArray, dif_pos text.isValidUTF8]
  rfl

/-- No two texts have the same bytes. -/
@[simp]
theorem utf8_inj {first second : String} : utf8 first = utf8 second ↔ first = second := by
  refine ⟨fun same => ?_, fun same => same ▸ rfl⟩
  have read := ofUtf8?_utf8 first
  rw [same, ofUtf8?_utf8] at read
  exact (Option.some.inj read).symm

@[simp]
theorem utf8_eq_nil_iff {text : String} : utf8 text = [] ↔ text = "" := by
  rw [show [] = utf8 "" from rfl, utf8_inj]

@[simp]
theorem utf8_append (first second : String) :
    utf8 (first ++ second) = utf8 first ++ utf8 second := by
  simp [utf8]

/-- Stands for bytes that are not UTF-8. -/
def replacement : Char := '\uFFFD'

/-- Whether `byte` may continue a character. -/
def isContinuation (byte : UInt8) : Bool :=
  0x80 ≤ byte && byte ≤ 0xBF

/--
The bytes allowed right after the first byte of a longer character.  The bounds exclude overlong
forms, surrogates and code points above `0x10FFFF`.
-/
def secondByteRange (first : UInt8) : UInt8 × UInt8 :=
  if first == 0xE0 then (0xA0, 0xBF)
  else if first == 0xED then (0x80, 0x9F)
  else if first == 0xF0 then (0x90, 0xBF)
  else if first == 0xF4 then (0x80, 0x8F)
  else (0x80, 0xBF)

/-- Number of bytes that a first byte announces after itself; `none` if it starts no character. -/
def continuationCount (first : UInt8) : Option Nat :=
  if first < 0x80 then some 0
  else if 0xC2 ≤ first && first ≤ 0xDF then some 1
  else if 0xE0 ≤ first && first ≤ 0xEF then some 2
  else if 0xF0 ≤ first && first ≤ 0xF4 then some 3
  else none

/-- How many of the next bytes, at most `count`, continue the character begun by `first`. -/
def continuedBy (first : UInt8) (count : Nat) (rest : List UInt8) : Nat :=
  match count, rest with
  | 0, _ => 0
  | _ + 1, [] => 0
  | count + 1, second :: others =>
      let (low, high) := secondByteRange first
      if low ≤ second && second ≤ high then
        1 + ((others.take count).takeWhile isContinuation).length
      else 0

/-- The code point of a well-formed character. -/
def codePoint (first : UInt8) (continuation : List UInt8) : Nat :=
  let start := match continuation.length with
    | 0 => first.toNat
    | 1 => first.toNat % 32
    | 2 => first.toNat % 16
    | _ => first.toNat % 8
  continuation.foldl (fun value byte => value * 64 + byte.toNat % 64) start

/-- The first character of `first :: rest`, or a replacement, and the number of bytes it takes. -/
def lenientChar (first : UInt8) (rest : List UInt8) : Char × Nat :=
  match continuationCount first with
  | none => (replacement, 1)
  | some count =>
      let found := continuedBy first count rest
      if found = count then (Char.ofNat (codePoint first (rest.take count)), count + 1)
      else (replacement, found + 1)

/-- Characters of `bytes`, of which at most `fuel` are read. -/
def lenientChars : Nat → List UInt8 → List Char
  | 0, _ => []
  | _ + 1, [] => []
  | fuel + 1, first :: rest =>
      let (c, taken) := lenientChar first rest
      c :: lenientChars fuel (rest.drop (taken - 1))

/-- The text of `bytes`, with a replacement character for each maximal ill-formed run. -/
def ofUtf8Lenient (bytes : List UInt8) : String :=
  match ofUtf8? bytes with
  | some text => text
  | none => String.ofList (lenientChars bytes.length bytes)

/-- Reading leniently what was written gives the text back. -/
@[simp]
theorem ofUtf8Lenient_utf8 (text : String) : ofUtf8Lenient (utf8 text) = text := by
  rw [ofUtf8Lenient, ofUtf8?_utf8]

end StackSampler.Text
