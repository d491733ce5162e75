import HardwareCounters.Association
import HardwareCounters.Attribute
import HardwareCounters.Bitfield
import HardwareCounters.Catalog.Basic
import HardwareCounters.Catalog.Event
import HardwareCounters.Catalog.Record
import HardwareCounters.Catalog.Source
import HardwareCounters.Counter.Backend
import HardwareCounters.Counter.Basic
import HardwareCounters.Counter.Script
import HardwareCounters.CpuId
import HardwareCounters.CpuList
import HardwareCounters.Descriptor
import HardwareCounters.Error
import HardwareCounters.FileTree
import HardwareCounters.GenericEvent
import HardwareCounters.Glob
import HardwareCounters.Kernel.Attribute
import HardwareCounters.Kernel.Backend
import HardwareCounters.Kernel.Interface
import HardwareCounters.Kernel.Script
import HardwareCounters.Main
import HardwareCounters.Numeral
import HardwareCounters.Pattern.Basic
import HardwareCounters.Pattern.CharClass
import HardwareCounters.Pattern.Footprint
import HardwareCounters.Pattern.Reader
import HardwareCounters.Pattern.Scan
import HardwareCounters.Pattern.Token
import HardwareCounters.Program.Listing
import HardwareCounters.Program.Report
import HardwareCounters.Program.Stat
import HardwareCounters.Proofs.Bitfield.Language
import HardwareCounters.Proofs.Bitfield.Packing
import HardwareCounters.Proofs.Bitfield.RangeOrder
import HardwareCounters.Proofs.Bitfield.Reading
import HardwareCounters.Proofs.Bitfield.Shifting
import HardwareCounters.Proofs.Catalog.Decoding
import HardwareCounters.Proofs.Catalog.Encoding
import HardwareCounters.Proofs.Catalog.Listings
import HardwareCounters.Proofs.Catalog.Loading
import HardwareCounters.Proofs.Catalog.Made
import HardwareCounters.Proofs.Catalog.Replacement
import HardwareCounters.Proofs.Counter.Scaling
import HardwareCounters.Proofs.CpuId.Description
import HardwareCounters.Proofs.CpuId.Naming
import HardwareCounters.Proofs.CpuList.Language
import HardwareCounters.Proofs.Descriptor.Aliases
import HardwareCounters.Proofs.Descriptor.Described
import HardwareCounters.Proofs.Descriptor.Failing
import HardwareCounters.Proofs.Descriptor.Fields
import HardwareCounters.Proofs.Descriptor.Forms
import HardwareCounters.Proofs.Descriptor.Language
import HardwareCounters.Proofs.Descriptor.Placement
import HardwareCounters.Proofs.Descriptor.Qualifiers
import HardwareCounters.Proofs.Descriptor.Sampling
import HardwareCounters.Proofs.Descriptor.Spelling
import HardwareCounters.Proofs.FileTree.Reading
import HardwareCounters.Proofs.FileTree.Search
import HardwareCounters.Proofs.Kernel.Flags
import HardwareCounters.Proofs.Kernel.History
import HardwareCounters.Proofs.Kernel.Readback
import HardwareCounters.Proofs.Numeral.Language
import HardwareCounters.Proofs.Numeral.Notation
import HardwareCounters.Proofs.Numeral.Value
import HardwareCounters.Proofs.Pattern.Classes
import HardwareCounters.Proofs.Pattern.MatchSet
import HardwareCounters.Proofs.Pattern.Scanning
import HardwareCounters.Proofs.Program.Listing
import HardwareCounters.Proofs.Program.Stat
import HardwareCounters.Proofs.Resolver.FixedEvents
import HardwareCounters.Proofs.Resolver.LazyLoading
import HardwareCounters.Proofs.Resolver.Record
import HardwareCounters.Proofs.Resolver.Repetition
import HardwareCounters.Proofs.Resolver.UncheckedNumbers
import HardwareCounters.Proofs.Session.BlankNames
import HardwareCounters.Proofs.Session.CallLog
import HardwareCounters.Proofs.Session.Closing
import HardwareCounters.Proofs.Session.Command
import HardwareCounters.Proofs.Session.Discipline
import HardwareCounters.Proofs.Session.Events
import HardwareCounters.Proofs.Session.Grouping
import HardwareCounters.Proofs.Session.Interruption
import HardwareCounters.Proofs.Session.Ledger
import HardwareCounters.Proofs.Session.MissingSlot
import HardwareCounters.Proofs.Session.Occupancy
import HardwareCounters.Proofs.Session.OpenPattern
import HardwareCounters.Proofs.Session.Opening
import HardwareCounters.Proofs.Session.Parsing
import HardwareCounters.Proofs.Session.Preserved
import HardwareCounters.Proofs.Session.Readings
import HardwareCounters.Proofs.Session.Refusal
import HardwareCounters.Proofs.Session.Renaming
import HardwareCounters.Proofs.Session.Reopening
import HardwareCounters.Proofs.Session.Slots
import HardwareCounters.Proofs.Session.UncorePmu
import HardwareCounters.Proofs.Sysfs.CpuCount
import HardwareCounters.Proofs.Sysfs.Files
import HardwareCounters.Proofs.Sysfs.Found
import HardwareCounters.Proofs.Term.Applying
import HardwareCounters.Proofs.Term.ClosedForm
import HardwareCounters.Proofs.Term.Expansion
import HardwareCounters.Proofs.Term.Failing
import HardwareCounters.Proofs.Term.Language
import HardwareCounters.Proofs.Term.Listing
import HardwareCounters.Proofs.Text.Casing
import HardwareCounters.Proofs.Text.CodeRanges
import HardwareCounters.Proofs.Text.Grammar
import HardwareCounters.Proofs.Text.Joining
import HardwareCounters.Proofs.Text.Order
import HardwareCounters.Proofs.Text.Runs
import HardwareCounters.Proofs.Text.Trimming
import HardwareCounters.Resolver
import HardwareCounters.Session.Basic
import HardwareCounters.Session.Expression
import HardwareCounters.Session.Open
import HardwareCounters.Session.Report
import HardwareCounters.Session.Run
import HardwareCounters.Session.State
import HardwareCounters.Sysfs.Basic
import HardwareCounters.Term.Apply
import HardwareCounters.Term.Basic
import HardwareCounters.Text.Basic
import HardwareCounters.Text.Blank
import HardwareCounters.Text.ByteForm
import HardwareCounters.Text.CaseTable
import HardwareCounters.Text.CasedTable
import HardwareCounters.Text.CodeRange
import HardwareCounters.Text.DecimalDigit
import HardwareCounters.Text.FixedPoint
import HardwareCounters.Text.Lowercase
import HardwareCounters.Text.Quoted
import HardwareCounters.Text.UnprintableTable
