/-
# Reports

A program prints texts, each with a line end behind it, and ends well or with an error.  A text may
hold line ends of its own, for there are names that hold some.
-/
import HardwareCounters.Error

namespace HardwareCounters

/-- What a program has printed and how it ended. -/
structure Report where
  printed : List Text := []
  result : Except Error Unit := .ok ()

def Report.lines (report : Report) : List Text := report.printed.flatMap Text.lines

def Report.failed (e : Error) : Report := { result := .error e }

/-- The text `<name> -> <event>`. -/
def arrowLine (name event : Text) : Text := name ++ " -> ".toList ++ event

end HardwareCounters
