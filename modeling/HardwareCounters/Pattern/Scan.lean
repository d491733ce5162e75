/-
# Scanning for a pattern

A text is scanned once, from left to right.  A mark at a class of the pattern says that some match
in progress has just taken a character there.  With each character the marks move on: to the classes
that can come next and take that character.  A match has been found as soon as a mark has nothing
left to take.

* `Scan.advance` moves the marks over a character;
* `Scan.ofPattern` is the scan before the first character, and `Scan.finds` runs it.
-/
import HardwareCounters.Pattern.Basic

namespace HardwareCounters

/-! ## 1. Spots -/

/-- Where in a text a scan stands: `alone` is the only spot of the empty text. -/
inductive Spot where
  | start
  | middle
  | finish
  | alone
  deriving DecidableEq, Repr

/-- The spot between the characters before it and those after it. -/
def Spot.between (nothingBefore nothingAfter : Bool) : Spot :=
  match nothingBefore, nothingAfter with
  | true, true => .alone
  | true, false => .start
  | false, true => .finish
  | false, false => .middle

/-- A set of spots. -/
structure Spots where
  start : Bool
  middle : Bool
  finish : Bool
  alone : Bool
  deriving DecidableEq, Repr

namespace Spots

/-- Every spot. -/
def all : Spots := ⟨true, true, true, true⟩

/-- No spot. -/
def none : Spots := ⟨false, false, false, false⟩

/-- The spots with nothing before them. -/
def atStart : Spots := ⟨true, false, false, true⟩

/-- The spots with nothing after them. -/
def atFinish : Spots := ⟨false, false, true, true⟩

/-- The set holds the spot. -/
def holds (spots : Spots) : Spot → Bool
  | .start => spots.start
  | .middle => spots.middle
  | .finish => spots.finish
  | .alone => spots.alone

/-- The spots of both sets. -/
def inter (a b : Spots) : Spots :=
  ⟨a.start && b.start, a.middle && b.middle, a.finish && b.finish, a.alone && b.alone⟩

/-- The spots of either set. -/
def union (a b : Spots) : Spots :=
  ⟨a.start || b.start, a.middle || b.middle, a.finish || b.finish, a.alone || b.alone⟩

@[simp] theorem holds_all (spot : Spot) : all.holds spot = true := by cases spot <;> rfl

@[simp] theorem holds_none (spot : Spot) : none.holds spot = false := by cases spot <;> rfl

@[simp] theorem holds_inter (a b : Spots) (spot : Spot) :
    (a.inter b).holds spot = (a.holds spot && b.holds spot) := by
  cases spot <;> rfl

@[simp] theorem holds_union (a b : Spots) (spot : Spot) :
    (a.union b).holds spot = (a.holds spot || b.holds spot) := by
  cases spot <;> rfl

end Spots

/-! ## 2. Marked patterns -/

/-- What is known about the part of a pattern without looking into it. -/
structure Outlook where
  /-- Where the part can be passed without a character. -/
  passable : Spots
  /-- Where a mark inside has nothing left to take in the part. -/
  complete : Spots
  /-- There is a mark inside. -/
  marked : Bool
  deriving DecidableEq, Repr

namespace Outlook

/-- The outlook of one part after another. -/
def inTurn (a b : Outlook) : Outlook :=
  ⟨a.passable.inter b.passable, b.complete.union (a.complete.inter b.passable), a.marked || b.marked⟩

/-- The outlook of one part or another. -/
def either (a b : Outlook) : Outlook :=
  ⟨a.passable.union b.passable, a.complete.union b.complete, a.marked || b.marked⟩

/-- The outlook of a part any number of times. -/
def repeated (a : Outlook) : Outlook := ⟨.all, a.complete, a.marked⟩

end Outlook

/-- A pattern with marks at the classes that have just taken a character. -/
inductive Scan where
  /-- A part that takes no character and can be passed at some spots. -/
  | pass (spots : Spots)
  | char (ranges : List Text.CodeRange) (mark : Bool)
  | seq (outlook : Outlook) (first second : Scan)
  | alt (outlook : Outlook) (first second : Scan)
  | star (outlook : Outlook) (body : Scan)

namespace Scan

/-- What is known about a part. -/
def outlook : Scan → Outlook
  | .pass spots => ⟨spots, .none, false⟩
  | .char _ mark => ⟨.none, if mark then .all else .none, mark⟩
  | .seq outlook _ _ => outlook
  | .alt outlook _ _ => outlook
  | .star outlook _ => outlook

@[simp] theorem outlook_pass (spots : Spots) : (pass spots).outlook = ⟨spots, .none, false⟩ := rfl

@[simp] theorem outlook_char (ranges : List Text.CodeRange) (mark : Bool) :
    (char ranges mark).outlook = ⟨.none, if mark then .all else .none, mark⟩ := rfl

@[simp] theorem outlook_seq (stored : Outlook) (first second : Scan) :
    (seq stored first second).outlook = stored := rfl

@[simp] theorem outlook_alt (stored : Outlook) (first second : Scan) :
    (alt stored first second).outlook = stored := rfl

@[simp] theorem outlook_star (stored : Outlook) (body : Scan) :
    (star stored body).outlook = stored := rfl

/-- One part after another. -/
def followedBy : Scan → Scan → Scan
  | .pass spots, .pass more => .pass (spots.inter more)
  | first, second => .seq (first.outlook.inTurn second.outlook) first second

/-- One part or another. -/
def orElse : Scan → Scan → Scan
  | .pass spots, .pass more => .pass (spots.union more)
  | first, second => .alt (first.outlook.either second.outlook) first second

/-- A part any number of times. -/
def anyTimes : Scan → Scan
  | .pass _ => .pass .all
  | body => .star body.outlook.repeated body

/-- A part so many times.  Equal halves are one and the same value. -/
def times (part : Scan) (n : Nat) : Scan :=
  if n = 0 then .pass .all
  else if n = 1 then part
  else
    let half := times part (n / 2)
    if n % 2 = 0 then half.followedBy half else (half.followedBy half).followedBy part
termination_by n

/-- A part at most `n` times and `rest` inside the last of them. -/
def nested (part : Scan) : Nat → Scan → Scan
  | 0, rest => rest
  | n + 1, rest => nested part n ((Scan.pass .all).orElse (part.followedBy rest))

/-- A part at most `n` times.  If each time takes a character, later times are put inside earlier
ones: then a match in progress needs a mark in one of them only. -/
def atMost (part : Scan) (n : Nat) : Scan :=
  if part.outlook.passable = .none then part.nested n (.pass .all)
  else ((Scan.pass .all).orElse part).times n

/-- The scan for a pattern before the first character. -/
def ofPattern : Pattern → Scan
  | .empty => .pass .all
  | .char charClass => .char charClass.ranges false
  | .start => .pass .atStart
  | .finish => .pass .atFinish
  | .group body => ofPattern body
  | .seq first second => (ofPattern first).followedBy (ofPattern second)
  | .alt first second => (ofPattern first).orElse (ofPattern second)
  | .repeated body least more? =>
    let part := ofPattern body
    (part.times least).followedBy
      (match more? with
        | none => part.anyTimes
        | some more => part.atMost more)

/-! ## 3. Moving on -/

/-- Moves the marks of a part over a character that stands behind a spot.  `entering` says that a
match arrives at the part at that spot. -/
def advance (spot : Spot) (c : Char) (entering : Bool) : Scan → Scan
  | .pass spots => .pass spots
  | .char ranges mark =>
    if entering || mark then .char ranges (entering && Text.inRanges ranges c)
    else .char ranges mark
  | .seq outlook first second =>
    if entering || outlook.marked then
      let leaving :=
        (entering && first.outlook.passable.holds spot) || first.outlook.complete.holds spot
      (advance spot c entering first).followedBy (advance spot c leaving second)
    else .seq outlook first second
  | .alt outlook first second =>
    if entering || outlook.marked then
      (advance spot c entering first).orElse (advance spot c entering second)
    else .alt outlook first second
  | .star outlook body =>
    if entering || outlook.marked then
      (advance spot c (entering || outlook.complete.holds spot) body).anyTimes
    else .star outlook body

/-- A match starts at some spot of the text from here on, or is in progress, and can be
completed. -/
def findsFrom (nothingBefore : Bool) : Scan → Text → Bool
  | scan, [] =>
    let spot := Spot.between nothingBefore true
    scan.outlook.passable.holds spot || scan.outlook.complete.holds spot
  | scan, c :: rest =>
    let spot := Spot.between nothingBefore false
    scan.outlook.passable.holds spot || scan.outlook.complete.holds spot ||
      findsFrom false (scan.advance spot c true) rest

/-- A match is found in the text. -/
def finds (scan : Scan) (t : Text) : Bool := findsFrom true scan t

end Scan

end HardwareCounters
