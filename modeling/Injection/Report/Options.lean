/-
  How a run reports the problems it finds.
-/

namespace Injection

/-- The options of a report.  They shape what is listed, never what is found. -/
structure ReportOptions where
  /-- Whether every problem is reported as an event. -/
  logProblems : Bool
  /-- How many problems a rejection lists at most. -/
  limit : Option Nat

/-- Every problem is reported as an event and listed. -/
def ReportOptions.default : ReportOptions := ⟨true, none⟩

end Injection
