/-
# Event expressions

An expression lists event names between semicolons.  A brace before a name starts a group that the
event leads, and a brace after a name ends one.  Parsing resolves every name; one that cannot be
resolved refuses the whole expression and leaves the session as it was.

* `Session.parse` gives the parsed session, and the resolver with the catalog that was loaded on
  the way.
-/
import HardwareCounters.Resolver
import HardwareCounters.Session.Basic

namespace HardwareCounters

/-! ## 1. Names and groups -/

/-- A name of an expression and its place in a group. -/
structure EventToken where
  name : Text
  leader : Bool
  endsGroup : Bool
  deriving DecidableEq, Repr

namespace EventToken

/-- The text after an opening brace, and whether there is one. -/
def splitOpening : Text → Text × Bool
  | '{' :: rest => (Text.trim rest, true)
  | t => (t, false)

def splitClosing (t : Text) : Text × Bool :=
  match Text.dropLast? '}' t with
  | some rest => (Text.trim rest, true)
  | none => (t, false)

def ofPart (part : Text) : EventToken :=
  let (rest, leader) := splitOpening part
  let (name, endsGroup) := splitClosing rest
  { name, leader, endsGroup }

/-- The names of an expression.  Blank parts are skipped. -/
def ofExpression (t : Text) : List EventToken :=
  (((Text.splitOn ';' t).map Text.trim).filter (· ≠ [])).map ofPart

end EventToken

/-! ## 2. Resolving -/

variable {η : Type}

def EventToken.event (token : EventToken) (attr : Attribute) (uncore : Bool) : SessionEvent η :=
  { name := token.name, attr, leader := token.leader, endsGroup := token.endsGroup, uncore }

/-- The events of the names, in order, up to the first that cannot be resolved. -/
def Resolver.resolveTokens (resolver : Resolver) :
    List EventToken → Except Error (List (SessionEvent η)) × Resolver
  | [] => (.ok [], resolver)
  | token :: tokens =>
    match resolver.resolve token.name with
    | (.error e, resolver) => (.error e, resolver)
    | (.ok attr, resolver) =>
      match resolver.isUncore token.name with
      | .error e => (.error e, resolver)
      | .ok uncore =>
        match resolver.resolveTokens tokens with
        | (.error e, resolver) => (.error e, resolver)
        | (.ok events, resolver) => (.ok (token.event attr uncore :: events), resolver)

/-- Resolves an expression.  Only a session without counters may be given another one. -/
def Session.parse (session : Session η) (expression : Text) (resolver : Resolver) :
    Except Error Unit × Session η × Resolver :=
  match session.refusal? .parse with
  | some e => (.error e, session, resolver)
  | none =>
    match Resolver.resolveTokens resolver (EventToken.ofExpression expression) with
    | (.error e, resolver) => (.error e, session, resolver)
    | (.ok [], resolver) => (.error .emptyEventList, session, resolver)
    | (.ok events, resolver) => (.ok (), { session with events, state := .parsed }, resolver)

end HardwareCounters
