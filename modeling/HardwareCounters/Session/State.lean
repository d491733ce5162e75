/-
# The states of a session

A session goes from closed through parsed, opened and running to stopped, and from any of them back
to closed.  Each operation that depends on the state names itself when it is refused.
-/
import HardwareCounters.Text.Basic

namespace HardwareCounters

/-- Where a session stands. -/
inductive SessionState where
  /-- No counters are open. -/
  | closed
  /-- Events are resolved but no counters are open. -/
  | parsed
  /-- Counters are open but not counting. -/
  | opened
  /-- Counters are counting. -/
  | running
  /-- Counters are stopped and their values read. -/
  | stopped
  deriving DecidableEq, Repr

def SessionState.name : SessionState → String
  | .closed => "Closed"
  | .parsed => "Parsed"
  | .opened => "Opened"
  | .running => "Running"
  | .stopped => "Stopped"

/-- The operations of a session that are allowed in some states only. -/
inductive SessionOperation where
  | parse
  | open
  | start
  | stop
  deriving DecidableEq, Repr

def SessionOperation.name : SessionOperation → String
  | .parse => "parse"
  | .open => "open"
  | .start => "start"
  | .stop => "stop"

/-- The states in which an operation is allowed. -/
def SessionOperation.allowedIn : SessionOperation → List SessionState
  | .parse => [.closed, .parsed]
  | .open => [.parsed, .closed]
  | .start => [.opened, .stopped]
  | .stop => [.running]

end HardwareCounters
