/-!
# Severities

How serious a message is, from least to most. `atLeast_iff` says that the order is that of the ranks.
-/

namespace PrivateLog

/-- The five degrees of seriousness, least first. -/
inductive Severity where
  | debug
  | info
  | notice
  | error
  | fault
  deriving DecidableEq, Repr, Inhabited

namespace Severity

/-- All severities, least first. -/
def all : List Severity :=
  [.debug, .info, .notice, .error, .fault]

/-- The severity of a record that names none. -/
def standard : Severity := .notice

/-- The place in the order. -/
def rank : Severity → Nat
  | .debug => 0
  | .info => 1
  | .notice => 2
  | .error => 3
  | .fault => 4

/-- The word that a record begins with. -/
def label : Severity → String
  | .debug => "DEBUG"
  | .info => "INFO"
  | .notice => "NOTICE"
  | .error => "ERROR"
  | .fault => "FAULT"

/-- The name of the severity in source text. -/
def name : Severity → String
  | .debug => "Debug"
  | .info => "Info"
  | .notice => "Notice"
  | .error => "Error"
  | .fault => "Fault"

/-- Whether a severity reaches another. -/
def atLeast (severity least : Severity) : Bool :=
  least.rank ≤ severity.rank

/-- The more serious of two. -/
def max (a b : Severity) : Severity :=
  if a.atLeast b then a else b

/-- A severity reaches another exactly if its rank does. -/
theorem atLeast_iff {severity least : Severity} : severity.atLeast least = true ↔ least.rank ≤ severity.rank := by
  simp [atLeast]

/-- Different severities have different ranks. -/
theorem rank_injective {a b : Severity} (h : a.rank = b.rank) : a = b := by
  cases a <;> cases b <;> first | rfl | cases h

end Severity

end PrivateLog
