/-
# Listing events

The program that lists all events of a machine: those of the catalog, possibly restricted to the
names in which a pattern occurs, those that the kernel publishes, and the generic ones.
-/
import HardwareCounters.Program.Report
import HardwareCounters.Resolver

namespace HardwareCounters

namespace Listing

/-- The lines for the events of a catalog. -/
def catalogLines (catalog : Catalog) : Option Text → Except Error (List Text)
  | none => .ok (catalog.walk.map fun (key, descriptor) => arrowLine key descriptor)
  | some pattern =>
    (catalog.findByName pattern).map fun events =>
      events.map fun event => arrowLine event.name event.descriptor

def kernelLines (events : List KernelEvent) : List Text :=
  events.map fun event => arrowLine event.name event.event

def genericLines : List Text := GenericEvent.names.map fun name => name ++ " [generic]".toList

/-- Lists the events of a machine.  The first argument is a pattern.  The events of the catalog are
printed before those of the kernel are searched for. -/
def run (glob : Glob) (s : Sysfs) (arguments : List Text) (searchPath? : Option Text) : Report :=
  match CatalogSource.ofSearchPath s.files searchPath? with
  | .error e => .failed e
  | .ok source =>
    match (Catalog.ofSource source).load s.files with
    | (.error e, _) => .failed e
    | (.ok _, catalog) =>
      match catalogLines catalog arguments.head? with
      | .error e => .failed e
      | .ok lines =>
        match s.kernelEvents glob with
        | .error e => { printed := lines, result := .error e }
        | .ok events => { printed := lines ++ kernelLines events ++ genericLines }

end Listing

end HardwareCounters
