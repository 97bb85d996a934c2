import PrivateLog.Severity

/-!
# Settings

Two switches that all calls share: the least severity that is logged, and whether private values are shown.
-/

namespace PrivateLog

/-- The switches. At first every severity is logged and private values are withheld. -/
structure Settings where
  least : Severity := .debug
  reveal : Bool := false
  deriving DecidableEq, Repr

namespace Settings

/-- Whether a call of some severity is carried out. -/
def isEnabled (settings : Settings) (severity : Severity) : Bool :=
  severity.atLeast settings.least

/-- A severity is enabled exactly if its rank reaches that of the least one. -/
theorem isEnabled_iff {settings : Settings} {severity : Severity} :
    settings.isEnabled severity = true ↔ settings.least.rank ≤ severity.rank :=
  Severity.atLeast_iff

/-- The most serious messages are always logged. -/
theorem isEnabled_fault (settings : Settings) : settings.isEnabled .fault = true := by
  cases h : settings.least <;> simp [isEnabled, Severity.atLeast, h, Severity.rank]

end Settings

end PrivateLog
