/-
# What can go wrong

Every operation that fails names its cause.  The causes are data; their wording is in the functions
named `message`, and which of them concern a single event is said by `Error.isResolveError`.
-/
import HardwareCounters.Session.State
import HardwareCounters.Term.Basic

namespace HardwareCounters

/-- A text as a part of a message. -/
abbrev shown (t : Text) : String := String.ofList t

/-! ## 1. Causes from outside -/

/-- Why a file could not be read, or a counter not in full. -/
inductive IoError where
  | notFound
  | isDirectory
  | notDirectory
  | nameTooLong
  | nulInPath
  | notUtf8
  | shortRead (bytes : Nat)
  deriving DecidableEq, Repr

def IoError.message : IoError → String
  | .notFound => "No such file or directory (os error 2)"
  | .isDirectory => "Is a directory (os error 21)"
  | .notDirectory => "Not a directory (os error 20)"
  | .nameTooLong => "File name too long (os error 36)"
  | .nulInPath => "file name contained an unexpected NUL byte"
  | .notUtf8 => "stream did not contain valid UTF-8"
  | .shortRead bytes =>
    "short counter read of " ++ shown (Numeral.decimal bytes) ++ " bytes"

/-- The ways in which a system call can fail. -/
inductive Errno where
  | eacces
  | eperm
  | enoent
  | emfile
  | enodev
  | ebusy
  | einval
  deriving DecidableEq, Repr

def Errno.message : Errno → String
  | .eacces => "EACCES: Permission denied"
  | .eperm => "EPERM: Operation not permitted"
  | .enoent => "ENOENT: No such file or directory"
  | .emfile => "EMFILE: Too many open files"
  | .enodev => "ENODEV: No such device"
  | .ebusy => "EBUSY: Device or resource busy"
  | .einval => "EINVAL: Invalid argument"

/-! ## 2. Causes inside texts and files -/

inductive FormatFault where
  | missingColon
  | malformedRange
  | misplacedSeparator
  | bitTooLarge
  | unknownWord
  deriving DecidableEq, Repr

def FormatFault.message : FormatFault → String
  | .missingColon => "missing ':'"
  | .malformedRange => "expected <bit> or <hi>-<lo>"
  | .misplacedSeparator => "'=' range separator outside config2"
  | .bitTooLarge => "bit index beyond 63"
  | .unknownWord => "unknown configuration word"

inductive LoadFault where
  | unreadable (cause : IoError)
  | notRecords
  | badRecord (cause : NumberError)
  deriving DecidableEq, Repr

/-- The description of a malformed number, as an error. -/
def NumberError.report (e : NumberError) : String := "Parse Error - " ++ e.message

def LoadFault.message : LoadFault → String
  | .unreadable cause => cause.message
  | .notRecords => "JSON"
  | .badRecord cause => cause.report

/-- Why there is no catalog for a processor. -/
inductive MissingCatalog where
  | noSource
  | noFile (processor kind : Text)
  | unknownProcessor
  deriving DecidableEq, Repr

def MissingCatalog.message : MissingCatalog → String
  | .noSource => "no catalog source"
  | .noFile processor kind => shown processor ++ " (" ++ shown kind ++ ")"
  | .unknownProcessor => "incomplete processor description in cpuinfo"

/-! ## 3. Errors -/

/-- The error of an operation. -/
inductive Error where
  | io (cause : IoError)
  /-- The environment variable with the search path is not set. -/
  | environment
  /-- A search pattern is malformed. -/
  | pattern
  /-- A pattern for paths is malformed. -/
  | pathPattern
  /-- A directory could not be searched for paths. -/
  | pathSearch
  | number (cause : NumberError)
  /-- A text is neither an event descriptor nor a list of terms. -/
  | notInGrammar
  | system (cause : Errno)
  | catalogLoad (path : Text) (cause : LoadFault)
  | catalogNotFound (cause : MissingCatalog)
  | eventNotFound (name : Text)
  | unknownPmu (name : Text)
  /-- No PMU directory carries the type id. -/
  | unknownPmuType (id : Nat)
  | badTerm (term : Term) (cause : NumberError)
  | badFormat (format : Text) (cause : FormatFault)
  | unknownTerm (directory : Text) (term : Term)
  /-- A counter could not be opened; `reason` is the wording of the error that says why. -/
  | openFailed (event : Text) (cpu : Nat) (reason : String)
  | emptyEventList
  | invalidState (operation : SessionOperation) (state : SessionState)
  | notCapable
  /-- A counter was opened on a processor for which its event has no slot. -/
  | noSlot (cpu : Nat)
  /-- A list of processors names more of them than any list can hold. -/
  | noRoom
  /-- No number is left above that of the last processor. -/
  | noCount
  deriving DecidableEq, Repr

namespace Error

/-- The wording of an error: its kind, and the cause behind it. -/
def message : Error → String
  | .io cause => "IO Error - " ++ cause.message
  | .environment => "Env Error - environment variable not found"
  | .pattern => "Regex Error - malformed pattern"
  | .pathPattern => "Glob Error - malformed pattern"
  | .pathSearch => "Glob Error - unreadable directory"
  | .number cause => cause.report
  | .notInGrammar => "Event syntax error - not an event"
  | .system cause => "System Error - " ++ cause.message
  | .catalogLoad path cause =>
    "Cannot load event catalog " ++ shown path ++ " - " ++ cause.message
  | .catalogNotFound cause => "No event catalog found for " ++ cause.message
  | .eventNotFound name => "(" ++ shown name ++ ") not found in event list"
  | .unknownPmu name => "Unknown PMU " ++ shown name
  | .unknownPmuType id => "Unknown PMU type " ++ shown (Numeral.decimal id)
  | .badTerm term cause =>
    "Cannot parse term " ++ shown term.text ++ " - " ++ cause.message
  | .badFormat format cause =>
    "Cannot parse kernel format " ++ shown format ++ " - " ++ cause.message
  | .unknownTerm directory term =>
    "Cannot parse qualifier " ++ shown term.text ++ " for PMU " ++ shown directory
  | .openFailed event cpu reason =>
    "perf open failed for " ++ shown event ++ " on CPU " ++ shown (Numeral.decimal cpu) ++
      " - " ++ reason
  | .emptyEventList => "event list is empty"
  | .invalidState operation state =>
    "Cannot " ++ operation.name ++ " a session in state " ++ state.name
  | .notCapable => "Not allowed by kernel"
  | .noSlot cpu => "no slot for CPU " ++ shown (Numeral.decimal cpu)
  | .noRoom => "capacity overflow"
  | .noCount => "attempt to add with overflow"

/-- The error concerns one event name or descriptor and says nothing about the others. -/
def isResolveError : Error → Bool
  | .eventNotFound _ | .unknownPmu _ | .unknownPmuType _ | .badTerm _ _ | .badFormat _ _
  | .unknownTerm _ _ | .notInGrammar => true
  | _ => false

/-- The program stops at the error: no operation returns it, and nothing of what would follow is
done. -/
def isFatal : Error → Bool
  | .noSlot _ | .noRoom | .noCount => true
  | _ => false

end Error

end HardwareCounters
