/-
# Catalog events

A record of a catalog file describes an event in a dozen fields.  Read as a catalog event it has a
name, a list of terms that encodes it, the PMU that counts it, and two descriptions.

* `CatalogEvent.ofRecord?` reads a record; without a name it is skipped;
* `CatalogEvent.key` is the name under which an event is looked up.
-/
import HardwareCounters.Catalog.Record
import HardwareCounters.Sysfs.Basic
import HardwareCounters.Text.Lowercase

namespace HardwareCounters

structure CatalogEvent where
  /-- The name as written in the catalog. -/
  name : Text := []
  /-- The terms that encode the event. -/
  encoded : Text := []
  /-- A summary of the event. -/
  summary : Text := []
  /-- A longer description of the event. -/
  description : Text := []
  /-- The PMU that counts the event. -/
  pmu : Text := []
  deriving DecidableEq, Repr

namespace CatalogEvent

/-- The name without regard to case. -/
def key (event : CatalogEvent) : Text := Text.lowercase event.name

/-- The event spelled out as an event of its PMU. -/
def descriptor (event : CatalogEvent) : Text := pmuEvent event.pmu event.encoded

/-! ## 1. The encoding -/

/-- The values that say that a field is not used.  They are compared as texts: a zero spelled in
another way, such as `00`, is a value. -/
def unusedValues : List Text :=
  [[], "0".toList, "0x0".toList, "0x00".toList, "na".toList]

def used? (record : Record) (field : String) : Option Text :=
  (record.field? field).filter (· ∉ unusedValues)

/-- The number of the first alternative of a field, or 0 without the field.  Events that can be
counted in several ways list their codes between commas. -/
def code (record : Record) (field : String) : Except NumberError Word :=
  match record.field? field with
  | none => .ok 0
  | some value => Numeral.readWord (Text.upTo ',' value)

def selectorShift : Nat := 21

/-- The code of the event.  An extended event has a selector besides its event code, which the
kernel expects from bit 21 on. -/
def eventCode (record : Record) : Except NumberError Word := do
  let event ← code record "EventCode"
  let selector ← code record "ExtSel"
  return event ||| (selector <<< selectorShift)

/-- The term `event=` with its code, which is written even where it is 0. -/
def eventTerm (code : Word) : Text :=
  "event=".toList ++ if code = 0 then ['0'] else Numeral.hex code.toNat

def filterTerms (record : Record) : Text :=
  match (record.field? "Filter").filter (· ≠ "na".toList) with
  | none => []
  | some terms => ',' :: terms

/-- The term for the value of a model-specific register, by the first alternative of its index.
Other registers have no term, and their value is left out. -/
def registerTerm? (index : Text) : Option Text :=
  let first := Text.lowercase (Text.trim (Text.upTo ',' index))
  if first = "0x3f6".toList then some "ldlat".toList
  else if first = "0x1a6".toList ∨ first = "0x1a7".toList then some "offcore_rsp".toList
  else if first = "0x3f7".toList then some "frontend".toList
  else none

def valueTerm (key value : Text) : Text := ',' :: key ++ '=' :: value

def registerTerms (record : Record) : Text :=
  match (record.field? "MSRIndex").bind registerTerm?, record.field? "MSRValue" with
  | some key, some value => valueTerm key value
  | _, _ => []

/-- The fields that become terms, and the keys of these, in the order in which the terms are
written.  The values are copied as texts: whether they are numbers shows only when the event is
resolved. -/
def plainTerms : List (String × String) :=
  [("AnyThread", "any"), ("EdgeDetect", "edge"), ("Invert", "inv"), ("CounterMask", "cmask"),
    ("SampleAfterValue", "period"), ("UMask", "umask")]

def plainTerm (record : Record) (field key : String) : Text :=
  match used? record field with
  | none => []
  | some value => valueTerm key.toList value

/-- The terms that encode the event with that code. -/
def encoding (record : Record) (code : Word) : Text :=
  eventTerm code ++ filterTerms record ++ registerTerms record ++
    plainTerms.flatMap fun (field, key) => plainTerm record field key

/-! ## 2. Descriptions and PMU -/

def errata (record : Record) : Text :=
  match (record.field? "Errata").filter (· ≠ "null".toList) with
  | none => []
  | some errata => ". Spec Update: ".toList ++ errata

/-- Whether the event reports addresses.  Catalogs spell the field in two ways. -/
def addressNote (record : Record) : Text :=
  let field? := (record.field? "DataLA").or (record.field? "Data_LA")
  if (field?.filter (· ∉ unusedValues)).isSome then ". Supports address when precise".toList else []

def preciseNote (record : Record) : Text :=
  match used? record "PEBS" with
  | none => []
  | some value => if value = ['2'] then "(Must be precise)".toList else "(Precise event)".toList

/-- The brief description without full stops at its end, and the notes, which bring their own. -/
def summaryOf (record : Record) : Text :=
  Text.dropEndWhile (· == '.') ((record.field? "BriefDescription").getD []) ++ errata record ++
    addressNote record ++ preciseNote record

/-- The units whose PMU is not named like them. -/
def unitAliases : List (Text × Text) :=
  [("CBO".toList, "cbox".toList), ("QPI LL".toList, "qpi".toList), ("SBO".toList, "sbox".toList),
    ("IMPH-U".toList, "cbox".toList), ("NCU".toList, "cbox".toList)]

def pmuOfUnit (unit : Text) : Text := (unitAliases.lookup unit).getD (Text.lowercase unit)

def coreMark : Text := "cpu".toList

/-- The PMU that counts the event of a record.  A record without a unit is one of the cores. -/
def pmuOf (record : Record) : Text := ((record.field? "Unit").map pmuOfUnit).getD coreMark

/-! ## 3. Records -/

/-- The event of a record.  A record without a name has none; its numbers are not looked at. -/
def ofRecord? (record : Record) : Except NumberError (Option CatalogEvent) :=
  match record.field? "EventName" with
  | none => .ok none
  | some name =>
    (eventCode record).map fun code =>
      some {
        name
        encoded := encoding record code
        summary := summaryOf record
        description := (record.field? "PublicDescription").getD []
        pmu := pmuOf record }

end CatalogEvent

end HardwareCounters
