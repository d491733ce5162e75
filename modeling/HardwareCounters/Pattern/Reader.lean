/-
# Reading patterns

The tokens of a pattern are read from left to right.  What has been read of the group that is open
stands in a frame: the alternatives that are complete, and the items of the last one.  A repetition
belongs to the item before it; without such an item it is refused.

* `Pattern.ofTokens?` reads one token after another;
* `Pattern.parse?`: a pattern is refused also where it is too large or nested too deeply.
-/
import HardwareCounters.Pattern.Footprint
import HardwareCounters.Pattern.Token

namespace HardwareCounters

namespace Pattern

/-- A group that has been read in part, the latest item and the latest alternative first. -/
structure Frame where
  alternatives : List Pattern := []
  items : List Pattern := []

def Frame.close (frame : Frame) : Pattern :=
  alternation frame.alternatives.reverse (sequence frame.items.reverse)

def Frame.push (frame : Frame) (pattern : Pattern) : Frame :=
  { frame with items := pattern :: frame.items }

/-- The frame after a bar. -/
def Frame.bar (frame : Frame) : Frame :=
  { alternatives := sequence frame.items.reverse :: frame.alternatives }

/-- Reads tokens into the open group `frame`, around which the groups `outer` are open. -/
def ofTokens? (frame : Frame) (outer : List Frame) : List PatternToken → Option Pattern
  | [] =>
    match outer with
    | [] => some frame.close
    | _ => none
  | .atom pattern :: tokens => ofTokens? (frame.push pattern) outer tokens
  | .repetition least more? :: tokens =>
    match frame.items with
    | [] => none
    | item :: items =>
      ofTokens? { frame with items := .repeated item least more? :: items } outer tokens
  | .bar :: tokens => ofTokens? frame.bar outer tokens
  | .opening :: tokens => ofTokens? {} (frame :: outer) tokens
  | .closing :: tokens =>
    match outer with
    | [] => none
    | next :: outer => ofTokens? (next.push (.group frame.close)) outer tokens

/-- The pattern that a text spells, if it is acceptable. -/
def parse? (t : Text) : Option Pattern :=
  match (PatternToken.readAll? t).bind (ofTokens? {} []) with
  | none => none
  | some pattern => if pattern.isAcceptable then some pattern else none

end Pattern

end HardwareCounters
