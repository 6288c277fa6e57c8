/-
  Report options from a JSON document.

  The document is an object with two members that matter, or an array of their
  values in order.  What is missing keeps its default; an unknown member is
  passed over, however often it stands there, a known one may stand there once.
-/
import Injection.Report.Environment
import Injection.Text.Json

namespace Injection

open Text (Json)

/-- What a document says of the options so far. -/
structure Settings where
  log : Option Bool
  limit : Option (Option Nat)

namespace Settings

def none : Settings := ⟨.none, .none⟩

/-- A flag is a truth value. -/
def flag? : Json → Option Bool
  | .bool b => some b
  | _ => .none

/-- A limit is absent or a number with digits only that fits into 64 bits. -/
def limit? : Json → Option (Option Nat)
  | .null => some .none
  | .number literal => (readDigits literal).map some
  | _ => .none

/-- Takes one member of an object into account. -/
def addMember (settings : Settings) (member : Option String × Json) : Option Settings := do
  match ← member.1 with
  | "log_diagnostics" =>
    if settings.log.isSome then failure
    return { settings with log := some (← flag? member.2) }
  | "max_reported_diagnostics" =>
    if settings.limit.isSome then failure
    return { settings with limit := some (← limit? member.2) }
  | _ => return settings

def ofJson : Json → Option Settings
  | .object members => members.foldlM addMember .none
  | .array [] => some .none
  | .array [log] => do return ⟨some (← flag? log), .none⟩
  | .array [log, limit] => do return ⟨some (← flag? log), some (← limit? limit)⟩
  | _ => Option.none

/-- The options, where nothing is said the default. -/
def options (settings : Settings) : ReportOptions :=
  ⟨settings.log.getD ReportOptions.default.logProblems,
    settings.limit.getD ReportOptions.default.limit⟩

end Settings

/-- The options that a document gives, if it is well formed. -/
def ReportOptions.ofDocument (document : String) : Option ReportOptions :=
  (Json.parse document).bind fun value => (Settings.ofJson value).map Settings.options

end Injection
