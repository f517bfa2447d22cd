import StackSampler.Attach.ExitStatus
import StackSampler.Session.Failure
import StackSampler.Text.Numeral

/-!
# A stand-in for launched programs

This is no part of the profiler.  A controller launches commands, and to run one in a scene there
has to be something that ends as the launched program would.  No result is about this module: what
is proved of controllers holds whatever a launched program does.

There are programs that only succeed or fail, and one that runs scripts of simple commands joined by
`;`, `&&` and `||`.  Words are quoted and refer to the environment in the usual ways.  Commands of a
script are tests, exits and signals to the script itself; any other command is not found.
-/

namespace StackSampler.Simulation.Shell

/-! ## Scripts -/

/-- A piece of a word. -/
inductive Piece where
  | text (content : List Char)
  /-- The value of a variable; unless it is quoted, blanks in it separate words. -/
  | value (name : List Char) (quoted : Bool)
deriving DecidableEq, Repr

/-- A word or what stands between commands. -/
inductive Token where
  | word (pieces : List Piece)
  | semicolon
  | andThen
  | orElse
  /-- Something that scripts do not have. -/
  | unknown
deriving DecidableEq, Repr

/-- What the next character of a script belongs to. -/
inductive LexerMode where
  | plain
  | quoted
  /-- Between single quotes. -/
  | verbatim
  | escaped (quoted : Bool)
  | dollar (quoted : Bool)
  | name (given : List Char) (quoted : Bool)
  | braced (given : List Char) (quoted : Bool)
  /-- After the first character of an operator. -/
  | operator (first : Char)
deriving DecidableEq, Repr

/-- A script read so far. -/
structure Lexer where
  tokens : List Token := []
  /-- The pieces of the word that is being read. -/
  word : Option (List Piece) := none
  mode : LexerMode := .plain
deriving DecidableEq, Repr

namespace Lexer

/-- Adds a piece to the word. -/
def addPiece (lexer : Lexer) (piece : Piece) : Lexer :=
  { lexer with word := some (lexer.word.getD [] ++ [piece]) }

/-- Adds a character to the word. -/
def addChar (lexer : Lexer) (c : Char) : Lexer :=
  lexer.addPiece (.text [c])

/-- Starts a word, which may stay empty. -/
def begin (lexer : Lexer) (mode : LexerMode) : Lexer :=
  { lexer.addPiece (.text []) with mode := mode }

/-- Ends the word. -/
def endWord (lexer : Lexer) : Lexer :=
  match lexer.word with
  | none => lexer
  | some pieces => { lexer with tokens := lexer.tokens ++ [.word pieces], word := none }

/-- Ends the word and adds what follows it. -/
def add (lexer : Lexer) (token : Token) : Lexer :=
  let lexer := lexer.endWord
  { lexer with tokens := lexer.tokens ++ [token] }

/-- Whether a character may stand in the name of a variable. -/
def isNameChar (c : Char) : Bool :=
  c.isAlphanum || c == '_'

/-- Reads a character outside quotes. -/
def plain (lexer : Lexer) (c : Char) : Lexer :=
  if c == ' ' || c == '\t' then lexer.endWord
  else if c == '\n' || c == ';' then lexer.add .semicolon
  else if c == '&' || c == '|' then { lexer.endWord with mode := .operator c }
  else if c == '\'' then lexer.begin .verbatim
  else if c == '\"' then lexer.begin .quoted
  else if c == '\\' then { lexer with mode := .escaped false }
  else if c == '$' then { lexer with mode := .dollar false }
  else if ['(', ')', '<', '>', '\x60'].contains c || (c == '#' && lexer.word.isNone) then
    lexer.add .unknown
  else lexer.addChar c

/-- Reads a character between double quotes. -/
def inQuotes (lexer : Lexer) (c : Char) : Lexer :=
  if c == '\"' then { lexer with mode := .plain }
  else if c == '\\' then { lexer with mode := .escaped true }
  else if c == '$' then { lexer with mode := .dollar true }
  else lexer.addChar c

/-- Goes back to ordinary reading. -/
def resume (lexer : Lexer) (quoted : Bool) : Lexer :=
  { lexer with mode := if quoted then .quoted else .plain }

/-- Reads a character in ordinary reading. -/
def ordinary (lexer : Lexer) (quoted : Bool) (c : Char) : Lexer :=
  if quoted then (lexer.resume true).inQuotes c else (lexer.resume false).plain c

/-- Reads a character. -/
def step (lexer : Lexer) (c : Char) : Lexer :=
  match lexer.mode with
  | .plain => lexer.plain c
  | .quoted => lexer.inQuotes c
  | .verbatim => if c == '\'' then { lexer with mode := .plain } else lexer.addChar c
  | .escaped quoted =>
      let lexer := lexer.resume quoted
      if quoted && !(['$', '\x60', '\"', '\\'].contains c) then (lexer.addChar '\\').addChar c
      else lexer.addChar c
  | .dollar quoted =>
      if c == '\x7b' then { lexer with mode := .braced [] quoted }
      else if c.isAlpha || c == '_' then { lexer with mode := .name [c] quoted }
      else if c == '?' || c == '$' || c.isDigit then
        (lexer.resume quoted).addPiece (.value [c] quoted)
      else (lexer.addChar '$').ordinary quoted c
  | .name given quoted =>
      if isNameChar c then { lexer with mode := .name (given ++ [c]) quoted }
      else (lexer.addPiece (.value given quoted)).ordinary quoted c
  | .braced given quoted =>
      if c == '\x7d' then (lexer.resume quoted).addPiece (.value given quoted)
      else { lexer with mode := .braced (given ++ [c]) quoted }
  | .operator first =>
      let lexer := lexer.resume false
      if c == first then lexer.add (if first == '&' then .andThen else .orElse)
      else (lexer.add .unknown).plain c

/-- The tokens of what was read. -/
def finish (lexer : Lexer) : List Token :=
  match lexer.mode with
  | .plain => lexer.endWord.tokens
  | .name given quoted => (lexer.addPiece (.value given quoted)).endWord.tokens
  | .dollar _ => (lexer.addChar '$').endWord.tokens
  | _ => (lexer.add .unknown).tokens

/-- The tokens of a script. -/
def tokens? (script : String) : Option (List Token) :=
  let tokens := (script.toList.foldl step {}).finish
  if tokens.contains .unknown then none else some tokens

end Lexer

/-- When a command of a script is run. -/
inductive Condition where
  | always
  | afterSuccess
  | afterFailure
deriving DecidableEq, Repr

/-- A command of a script. -/
structure Command where
  condition : Condition
  words : List (List Piece)
deriving DecidableEq, Repr

/-- Splits tokens into commands. -/
def commands (condition : Condition) (words : List (List Piece)) : List Token → List Command
  | [] => [⟨condition, words⟩]
  | .word pieces :: rest => commands condition (words ++ [pieces]) rest
  | .andThen :: rest => ⟨condition, words⟩ :: commands .afterSuccess [] rest
  | .orElse :: rest => ⟨condition, words⟩ :: commands .afterFailure [] rest
  | _ :: rest => ⟨condition, words⟩ :: commands .always [] rest

/-- Looks up variables. -/
abbrev Lookup := String → Option String

/-- The fields that the pieces of a word come to: those that are complete, and the last one. -/
structure Fields where
  complete : List String := []
  last : Option (List Char) := none

namespace Fields

/-- Adds characters to the last field. -/
def append (fields : Fields) (content : List Char) : Fields :=
  { fields with last := some (fields.last.getD [] ++ content) }

/-- All fields. -/
def toList (fields : Fields) : List String :=
  fields.complete ++ (fields.last.map String.ofList).toList

/-- Adds a character that separates fields if it is blank. -/
def split (fields : Fields) (c : Char) : Fields :=
  if c == ' ' || c == '\t' || c == '\n' then { complete := fields.toList }
  else fields.append [c]

/-- Adds a piece of a word. -/
def add (lookup : Lookup) (fields : Fields) : Piece → Fields
  | .text content => fields.append content
  | .value name quoted =>
      let value := ((lookup (String.ofList name)).getD "").toList
      if quoted then fields.append value else value.foldl split fields

end Fields

/-- The fields of a word. -/
def expand (lookup : Lookup) (pieces : List Piece) : List String :=
  (pieces.foldl (Fields.add lookup) {}).toList

/-- The status of a command that was used wrongly. -/
def misuse : Nat := 2

/-- The status of a condition. -/
def status (holds : Bool) : Nat :=
  if holds then 0 else 1

/-- The status of a comparison of two numbers. -/
def compareNumbers (left right : String) (holds : Int → Int → Bool) : Nat :=
  match left.toInt?, right.toInt? with
  | some left, some right => status (holds left right)
  | _, _ => misuse

/-- The status of a test. -/
def test : List String → Nat
  | [] => 1
  | ["!", operand] => status operand.isEmpty
  | [operand] => status (!operand.isEmpty)
  | ["-n", operand] => status (!operand.isEmpty)
  | ["-z", operand] => status operand.isEmpty
  | ["!", "-n", operand] => status operand.isEmpty
  | ["!", "-z", operand] => status (!operand.isEmpty)
  | [left, "=", right] => status (left == right)
  | [left, "!=", right] => status (left != right)
  | [left, "-eq", right] => compareNumbers left right (· == ·)
  | [left, "-ne", right] => compareNumbers left right (· != ·)
  | [left, "-lt", right] => compareNumbers left right (· < ·)
  | [left, "-le", right] => compareNumbers left right (· ≤ ·)
  | [left, "-gt", right] => compareNumbers left right (· > ·)
  | [left, "-ge", right] => compareNumbers left right (· ≥ ·)
  | ["!", left, "=", right] => status (left != right)
  | ["!", left, "!=", right] => status (left == right)
  | _ => misuse

/-- What a command does to the script that runs it. -/
inductive Effect where
  /-- The script goes on with this status. -/
  | goesOn (status : Nat)
  | ends (status : ExitStatus)
deriving DecidableEq, Repr

/-- The signal that a word names. -/
def signalOf? (word : String) : Option Nat :=
  match word.toNat? with
  | some number => some number
  | none =>
      (ExitStatus.signalNames.find? fun (_, name) => name == word || name == "SIG" ++ word).map (·.1)

/-- What a command does, given its words, the script's own name for itself, and the last status. -/
def perform (self : String) (last : Nat) : List String → Effect
  | [] => .goesOn last
  | "exit" :: [] => .ends (.exited last)
  | "exit" :: code :: _ =>
      match code.toNat? with
      | some code => .ends (.exited (code % 256))
      | none => .ends (.exited misuse)
  | "test" :: operands => .goesOn (test operands)
  | "[" :: operands =>
      .goesOn (if operands.getLast? == some "]" then test operands.dropLast else misuse)
  | ["kill", target] => if target == self then .ends (.killed 15) else .goesOn 1
  | ["kill", signal, target] =>
      match signalOf? (signal.drop 1).copy with
      | some signal => if target == self then .ends (.killed signal) else .goesOn 1
      | none => .goesOn misuse
  | word :: _ =>
      if ["true", ":", "echo", "printf", "sleep"].contains word then .goesOn 0
      else if word == "false" then .goesOn 1
      else .goesOn 127

/-- Negates the status of a command. -/
def Effect.negated : Effect → Effect
  | .goesOn last => .goesOn (status (last != 0))
  | effect => effect

/-- What a command does that may be negated. -/
def performNegatable (self : String) (last : Nat) : List String → Effect
  | "!" :: words => (perform self last words).negated
  | words => perform self last words

/-- Whether a command is run after the one before has ended with this status. -/
def Condition.holds (last : Nat) : Condition → Bool
  | .always => true
  | .afterSuccess => last == 0
  | .afterFailure => last != 0

/-- The script's name for itself. -/
def selfName : String := "1"

/-- The variables of a script. -/
def scriptLookup (lookup : Lookup) (last : Nat) (name : String) : Option String :=
  if name == "?" then some (toString last)
  else if name == "$" then some selfName
  else lookup name

/-- Runs commands one after the other. -/
def runCommands (lookup : Lookup) (last : Nat) : List Command → ExitStatus
  | [] => .exited last
  | command :: rest =>
      if command.condition.holds last then
        let words := command.words.flatMap (expand (scriptLookup lookup last))
        match performNegatable selfName last words with
        | .goesOn last => runCommands lookup last rest
        | .ends status => status
      else runCommands lookup last rest

/-- Runs a script in an environment. -/
def runScript (lookup : Lookup) (script : String) : ExitStatus :=
  match Lexer.tokens? script with
  | some tokens => runCommands lookup 0 (commands .always [] tokens)
  | none => .exited misuse

/-! ## Programs -/

/-- The folders in which programs are looked for. -/
def programFolders : List String := ["/bin/", "/usr/bin/"]

/-- The name of a program that is given by its path or by its name alone. -/
def programName (given : String) : String :=
  match programFolders.find? fun folder => given.startsWith folder with
  | some folder => (given.drop folder.length).copy
  | none => given

/-- Paths at which there is something that cannot be started. -/
def unrunnable : List String := ["/", ".", "..", "/tmp", "/etc/passwd", "/dev/null"]

/-- What the system says of something that cannot be started. -/
def permissionDenied : String := "Permission denied (os error 13)"

/-- Whether a word is a span of time: a number, perhaps with a fraction and a unit. -/
def isDuration (word : String) : Bool :=
  let (whole, rest) := word.toList.span Char.isDigit
  let (places, unit) := match rest with
    | '.' :: rest => rest.span Char.isDigit
    | _ => ([], rest)
  !(whole.isEmpty && places.isEmpty) && [[], ['s'], ['m'], ['h'], ['d']].contains unit

/-- How a program ends that is started with these arguments. -/
def runProgram (lookup : Lookup) (given : String) (arguments : List String) :
    Except String ExitStatus :=
  let name := programName given
  if name == "sh" then
    match arguments with
    | "-c" :: script :: _ => .ok (runScript lookup script)
    | [] => .ok (.exited 0)
    | _ => .ok (.exited misuse)
  else if ["true", "echo"].contains name then .ok (.exited 0)
  else if name == "sleep" then
    .ok (.exited (status (!arguments.isEmpty && arguments.all isDuration)))
  else if name == "false" then .ok (.exited 1)
  else if name == "test" then .ok (.exited (test arguments))
  else if unrunnable.contains given then .error permissionDenied
  else .error noSuchFile

/-- The words and the variables of a command, which may hold no zero character. -/
def hasZero (command : List String) (extra : List (String × String)) : Bool :=
  command.any (·.contains '\x00') ||
    extra.any fun (name, value) => name.contains '\x00' || value.contains '\x00'

/-- Starts a command with more variables in its environment, and waits for its end. -/
def run (command : List String) (extra : List (String × String)) :
    Except String ExitStatus :=
  if hasZero command extra then .error "nul byte found in provided data"
  else
    match command with
    | [] => .error noSuchFile
    | program :: arguments => runProgram (extra.lookup ·) program arguments

end StackSampler.Simulation.Shell
