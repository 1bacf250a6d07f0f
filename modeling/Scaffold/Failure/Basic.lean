/-
  Everything that can go wrong.

  A failure is an error with a code, perhaps caused by another failure, or one of the causes that
  have no code of their own. `Failure.report?` writes a failure with its chain of causes; it is
  defined when the wording of every cause is fixed.
-/
import Scaffold.Contract.Escape
import Scaffold.Failure.Code
import Scaffold.Failure.Issue
import Scaffold.Json.Inline

namespace Scaffold

/-- Why an operation on a file failed. -/
inductive FileProblem where
  | notFound
  | taken
  | notDirectory
  | isDirectory
  | nameTooLong
  deriving DecidableEq

namespace FileProblem

/-- The number of a problem with a file. -/
def number : FileProblem → Nat
  | notFound => 2
  | taken => 17
  | notDirectory => 20
  | isDirectory => 21
  | nameTooLong => 36

/-- A problem with a file in words. -/
def text : FileProblem → String
  | notFound => "No such file or directory"
  | taken => "File exists"
  | notDirectory => "Not a directory"
  | isDirectory => "Is a directory"
  | nameTooLong => "File name too long"

end FileProblem

/-- Why a template cannot be rendered. -/
inductive TemplateFault where
  /-- The source of a template is malformed at a line. -/
  | malformed (line : Nat)
  /-- A template is well formed but refers to what does not exist, or holds something that may not
      stand where it does, at a line. -/
  | refused (line : Nat)
  /-- A value that is not there was used. -/
  | undefined (message : String)
  /-- No template has the name that was asked for. -/
  | notFound
  /-- A value of the wrong kind was used. -/
  | wrongType
  /-- A value of the right kind but out of range was used. -/
  | wrongValue (message : String)
  | divisionByZero
  /-- An index or a position lies outside a sequence. -/
  | wrongIndex
  /-- A key is not in a mapping. -/
  | wrongKey
  /-- A value has no such attribute. -/
  | wrongAttribute
  /-- A number is too large to compute with. -/
  | tooLarge
  /-- Rendering came to a point that the source only makes a mistake of when it is reached. -/
  | late
  /-- Templates include, extend or call each other without end. -/
  | endless
  deriving DecidableEq

/-- The kinds of errors that callers of the error functions raise. -/
inductive PlainKind where
  | value
  | key
  | runtime
  | type
  | system
  deriving DecidableEq

/-- An error that a caller raised. -/
structure PlainError where
  kind : PlainKind
  message : String
  deriving DecidableEq

namespace PlainError

/-- The text of an error: a missing key is quoted. -/
def text (e : PlainError) : String :=
  match e.kind with
  | .key => Text.quotedString e.message
  | _ => e.message

end PlainError

/-- A failure. -/
inductive Failure where
  /-- An error with a code, and its cause. -/
  | coded (error : CodedError) (cause : Option Failure)
  /-- An operation on a file failed. -/
  | file (problem : FileProblem) (path : String)
  /-- A path holds the character with number zero. -/
  | nulInPath
  /-- Bytes are no UTF-8. -/
  | undecodable (fault : Utf8.Fault)
  /-- A text with surrogates has no UTF-8. -/
  | unencodable
  /-- A specification with surrogates has no JSON text. -/
  | unwritable
  /-- An escape has no value. -/
  | escape (fault : Contract.EscapeFault)
  /-- A type has no part to take its name from. -/
  | shapeless
  /-- Structured input is wrong. -/
  | invalid (issues : List Issue)
  /-- A template cannot be rendered. -/
  | template (fault : TemplateFault)
  /-- A caller raised an error. -/
  | plain (error : PlainError)
  /-- A step needs what no step before it has made. -/
  | absent

namespace Failure

/-- The failure with a number in an area. -/
def ofArea (a : Area) (n : Int) (message : String) (details : List (String × Json))
    (cause : Option Failure) : Failure :=
  .coded (.ofArea a n message details) cause

/-- The bytes of an ill-formed sequence in words. -/
def spanText (codec : String) (start count : Nat) (first : UInt8) (reason : String) : String :=
  "'" ++ codec ++ "' codec can't decode " ++
    (if count == 1 then
      "byte 0x" ++ String.ofList (Text.hexDigits 2 first.toNat) ++ " in position " ++
        String.ofList (Number.digits start)
    else
      "bytes in position " ++ String.ofList (Number.digits start) ++ "-" ++
        String.ofList (Number.digits (start + count - 1))) ++ ": " ++ reason

/-- Why bytes are no UTF-8, in words. -/
def reasonText : Utf8.Reason → String
  | .invalidStart => "invalid start byte"
  | .invalidContinuation => "invalid continuation byte"
  | .unexpectedEnd => "unexpected end of data"

/-- The text of a cause without a code, where it is fixed. -/
def text? : Failure → Option String
  | coded e _ => some e.line
  | file problem path =>
    some ("[Errno " ++ String.ofList (Number.digits problem.number) ++ "] " ++ problem.text ++
      ": " ++ Text.quotedString path)
  | nulInPath => some "embedded null byte"
  | undecodable f => some (spanText "utf-8" f.start f.count f.byte (reasonText f.reason))
  | escape .outOfRange => some "chr() arg not in range(0x110000)"
  | escape .tooLarge => none
  | escape (.incomplete start count gap) =>
    some (spanText "unicodeescape" start count 92 gap.text)
  | template (.undefined message) => some message
  | template (.wrongValue message) => some message
  | plain e =>
    match e.kind with
    | .value | .runtime | .system => some e.text
    | .key | .type => none
  | unencodable | unwritable | shapeless | invalid _ | template _ | absent => none

/-- The lines that details add to a report. -/
def detailLines (details : List (String × Json)) : String :=
  String.join (details.map fun d => "\n  " ++ d.1 ++ ": " ++ d.2.inline)

/-- An error with a code in a report, its cause apart. -/
def headline (e : CodedError) : String :=
  "ERROR " ++ e.line ++
    match e.details with
    | some (d :: ds) => "\n\nDetails:" ++ detailLines (d :: ds)
    | _ => ""

/-- What stands between an error and its cause in a report. -/
def causeMark : String := "\n\nCaused by: "

/-- The report of a failure and its causes, where the text of each is fixed. -/
def report? : Failure → Option String
  | coded e none => some (headline e)
  | coded e (some cause) => (report? cause).map fun r => headline e ++ causeMark ++ r
  | f => (text? f).map ("ERROR: " ++ ·)

/-- Give a failure without a code the code for the unexpected, with the step it occurred in. -/
def guarded (a : Area) (step : String) : Failure → Failure
  | coded e cause => coded e cause
  | f => ofArea a 999 "An unexpected error occurred" [("function", .str step)] (some f)

end Failure

/-- What a step returns, every failure with a code. -/
def guardStep {α : Type} (a : Area) (step : String) : Except Failure α → Except Failure α
  | .ok x => .ok x
  | .error f => .error (f.guarded a step)

end Scaffold
