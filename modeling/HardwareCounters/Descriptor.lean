/-
# Event descriptors

An event is described by a raw code, as in `r412e`, or by a PMU and terms, as in
`cpu/event=0x2e,umask=0x41/`.  Qualifiers may follow after a colon.

* `parse?` reads the two forms; no text has both;
* `resolve` turns a descriptor into an attribute.
-/
import HardwareCounters.Term.Apply

namespace HardwareCounters

/-- What an event descriptor says. -/
inductive Descriptor where
  | raw (code qualifiers : Text)
  | pmu (name terms qualifiers : Text)
  deriving DecidableEq, Repr

namespace Descriptor

/-! ## 1. The two forms -/

def isHexDigit (c : Char) : Bool := (Numeral.digitValue? 16 c).isSome

/-- The text that a `0x` or `0X` announces, or the whole text.  A mark with nothing behind it is
still a mark: there is no way back to reading its `0` as a digit. -/
def dropHexMark : Text → Text
  | '0' :: 'x' :: rest => rest
  | '0' :: 'X' :: rest => rest
  | t => t

/-- The qualifiers that a descriptor ends with: nothing, or all that follows a colon. -/
def qualifiers? : Text → Option Text
  | [] => some []
  | ':' :: letters => some letters
  | _ => none

def raw? : Text → Option Descriptor
  | 'r' :: rest =>
    let digits := dropHexMark rest
    let code := digits.takeWhile isHexDigit
    if code = [] then none
    else (qualifiers? (digits.dropWhile isHexDigit)).map (raw code)
  | _ => none

/-- The character may stand in the name of a PMU and in a list of terms, where slashes and colons
end them. -/
def isPlain (c : Char) : Bool := c != '/' && c != ':'

def dropSlash : Text → Text
  | '/' :: rest => rest
  | t => t

/-- Reads the name of a PMU, terms and qualifiers.  A slash may precede the name and may follow the
terms. -/
def pmu? (t : Text) : Option Descriptor :=
  let t := dropSlash t
  let name := t.takeWhile isPlain
  match name, t.dropWhile isPlain with
  | [], _ => none
  | _, '/' :: rest =>
    (qualifiers? (dropSlash (rest.dropWhile isPlain))).map (pmu name (rest.takeWhile isPlain))
  | _, _ => none

def parse? (t : Text) : Option Descriptor :=
  match raw? t with
  | some descriptor => some descriptor
  | none => pmu? t

/-! ## 2. Attributes -/

/-- The attribute that a descriptor stands for.  Qualifiers are applied last, to what the terms have
set. -/
def toAttribute (s : Sysfs) : Descriptor → Except Error Attribute
  | .raw code qualifiers =>
    match Numeral.readUnsigned 16 Numeral.limit64 code with
    | .error e => .error (.number e)
    | .ok n => .ok ({ Attribute.raw with config := BitVec.ofNat 64 n }.applyQualifiers qualifiers)
  | .pmu name terms qualifiers =>
    match s.pmuType? name with
    | none => .error (.unknownPmu name)
    | some (id, directory) =>
      match Term.apply s directory terms { Attribute.raw with pmuType := id } with
      | (.error e, _) => .error e
      | (.ok (), attr) => .ok (attr.applyQualifiers qualifiers)

def resolve (s : Sysfs) (t : Text) : Except Error Attribute :=
  match parse? t with
  | none => .error .notInGrammar
  | some descriptor => descriptor.toAttribute s

end Descriptor

/-! ## 3. Attributes as descriptors -/

/-- The term `<key>=<value>` with the value in hexadecimal digits. -/
def hexTerm (key : String) (value : Word) : Text := key.toList ++ '=' :: Numeral.hex value.toNat

/-- The term of a configuration after a comma.  One that is 0 is left out: it is so anyway. -/
def optionalHexTerm (key : String) (value : Word) : Text :=
  if value = 0 then [] else ',' :: hexTerm key value

def labelTerm (label? : Option Text) : Text :=
  match label? with
  | none => []
  | some label => if label = [] then [] else ',' :: Term.labelKey ++ '=' :: label

/-- Writes an attribute as an event of the PMU with its type id. -/
def Attribute.describe (attr : Attribute) (glob : Glob) (s : Sysfs) (label? : Option Text) :
    Except Error Text :=
  match s.pmuName? glob attr.pmuType with
  | .error e => .error e
  | .ok none => .error (.unknownPmuType attr.pmuType.toNat)
  | .ok (some pmu) =>
    .ok (pmuEvent pmu (hexTerm "config" attr.config ++ optionalHexTerm "config1" attr.config1 ++
      optionalHexTerm "config2" attr.config2 ++ labelTerm label?))

end HardwareCounters
