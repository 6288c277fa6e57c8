/-
  Report options from named variables.

  Two variables matter, `<U>_LOG_DIAGNOSTICS` and
  `<U>_MAX_REPORTED_DIAGNOSTICS`, where `<U>` is a chosen word in upper case.
  A variable that is not set, or whose bytes are no text, keeps its default; a
  variable that cannot be read refuses the options, the first one first.
-/
import Injection.Collection.NameMap
import Injection.Report.Options
import Injection.Text.Blank
import Injection.Text.UpperCase

namespace Injection

/-- Variables by name, each with its bytes. -/
abbrev Environment := NameMap ByteArray

/-- The text of a variable, if it is set and its bytes are UTF-8. -/
def Environment.text? (environment : Environment) (name : String) : Option String :=
  (NameMap.get? environment name).bind String.fromUTF8?

/-! ## Values of variables -/

/-- The characters of a value that count: those between the surrounding blanks. -/
def valueChars (value : String) : List Char := Text.trimBlanks value.toList

/-- Reads a flag, without regard to the case of ASCII letters. -/
def readFlag (value : String) : Option Bool :=
  match String.ofList ((valueChars value).map Char.toLower) with
  | "true" | "1" | "yes" | "on" => some true
  | "false" | "0" | "no" | "off" => some false
  | _ => none

/-- The number that decimal digits denote, if there are digits only, at least one, and the number
    fits into 64 bits. -/
def readDigits (cs : List Char) : Option Nat :=
  if cs.isEmpty || !cs.all Char.isDigit then none
  else
    let n := cs.foldl (fun n c => 10 * n + (c.toNat - '0'.toNat)) 0
    if n < Nat.pow 2 64 then some n else none

/-- Reads a count: digits, perhaps after a plus sign. -/
def readCount (value : String) : Option Nat :=
  match valueChars value with
  | '+' :: digits => readDigits digits
  | digits => readDigits digits

/-! ## Options -/

/-- A variable whose value cannot be read, and what it should have been. -/
structure InvalidVariable where
  name : String
  value : String
  expected : String

/-- The text of a refusal.  It shows the value with its surrounding blanks. -/
def InvalidVariable.message (invalid : InvalidVariable) : String :=
  "invalid value '" ++ invalid.value ++ "' for " ++ invalid.name ++ ": expected "
    ++ invalid.expected

/-- Reads a variable; nothing if it is not set. -/
def Environment.read {α : Type} (environment : Environment) (name : String)
    (reader : String → Option α) (expected : String) : Except InvalidVariable (Option α) :=
  match environment.text? name with
  | none => .ok none
  | some value =>
    match reader value with
    | some a => .ok (some a)
    | none => .error ⟨name, value, expected⟩

namespace ReportOptions

/-- The word before the variables' names when none is chosen. -/
def standardWord : String := "SABER_DI"

/-- The options that an environment gives, its variables' names starting with `word`. -/
def ofEnvironment (word : String) (environment : Environment) :
    Except InvalidVariable ReportOptions := do
  let word := Text.upperCase word
  let log ← environment.read (word ++ "_LOG_DIAGNOSTICS") readFlag "a boolean"
  let limit ← environment.read (word ++ "_MAX_REPORTED_DIAGNOSTICS") readCount
    "a non-negative integer"
  return ⟨log.getD default.logProblems, limit <|> default.limit⟩

end ReportOptions

end Injection
