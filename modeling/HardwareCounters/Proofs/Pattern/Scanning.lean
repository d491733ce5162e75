/-
# Scanning finds what a pattern matches

A scan never goes back.  Each of its parts stands for two things: the matches of the part, which do not
change, and the texts that complete a match in progress, which depend on the marks.  Reading a character
takes it from the front of these texts and lets matches begin with it; this is the step, and a scan finds
a match because every match is taken apart by such steps.

* `Scan.matched` and `Scan.completes`: what a part matches, and what completes the matches in progress;
* `Scan.Exact`: the outlook that a part stores is that of its parts;
* `Scan.advance_spec` is the step over a character; `Scan.findsFrom_iff` is the run;
* `Pattern.finds_iff`: a scan finds something in a text if and only if the pattern occurs there.
-/
import HardwareCounters.Pattern.Scan
import HardwareCounters.Proofs.Pattern.MatchSet

namespace HardwareCounters

open MatchSet

namespace Scan

/-! ## 1. What a scan stands for -/

/-- What a part matches, whatever its marks are. -/
def matched : Scan → MatchSet
  | .pass spots => .nothing fun before after => spots.holds (.between before after) = true
  | .char ranges _ => .one fun c => Text.inRanges ranges c = true
  | .seq _ first second => first.matched.inTurn second.matched
  | .alt _ first second => first.matched.either second.matched
  | .star _ body => body.matched.anyTimes

/-- The texts that complete a match in progress, which has taken some character already, with whether
nothing stands after them. -/
def completes : Scan → Text → Bool → Prop
  | .pass _, _, _ => False
  | .char _ mark, t, _ => mark = true ∧ t = []
  | .seq _ first second, t, after =>
    (∃ u v, u ++ v = t ∧ first.completes u (after && v.isEmpty) ∧ second.matched false v after) ∨
      second.completes t after
  | .alt _ first second, t, after => first.completes t after ∨ second.completes t after
  | .star _ body, t, after =>
    ∃ u v, u ++ v = t ∧ body.completes u (after && v.isEmpty) ∧ body.matched.anyTimes false v after

/-- The stored outlooks are those of the parts. -/
def Exact : Scan → Prop
  | .pass _ | .char _ _ => True
  | .seq stored first second =>
    first.Exact ∧ second.Exact ∧ stored = first.outlook.inTurn second.outlook
  | .alt stored first second =>
    first.Exact ∧ second.Exact ∧ stored = first.outlook.either second.outlook
  | .star stored body => body.Exact ∧ stored = body.outlook.repeated

variable {scan first second body part rest : Scan} {before after : Bool} {t : Text}

/-! ## 2. Outlooks -/

/-- Where a part can be passed is where it matches nothing. -/
theorem passable_iff (h : scan.Exact) :
    scan.outlook.passable.holds (.between before after) = true ↔ scan.matched before [] after := by
  induction scan generalizing before after with
  | pass spots => simp [matched, nothing]
  | char ranges mark => simp [matched, one]
  | seq stored first second ihfirst ihsecond =>
    obtain ⟨hfirst, hsecond, rfl⟩ := h
    simp only [outlook_seq, Outlook.inTurn, Spots.holds_inter, Bool.and_eq_true, ihfirst hfirst,
      ihsecond hsecond, matched, inTurn, exists_append_eq_nil, List.isEmpty_nil, Bool.and_true]
  | alt stored first second ihfirst ihsecond =>
    obtain ⟨hfirst, hsecond, rfl⟩ := h
    simp only [outlook_alt, Outlook.either, Spots.holds_union, Bool.or_eq_true, ihfirst hfirst,
      ihsecond hsecond, matched, either]
  | star stored body ih =>
    obtain ⟨-, rfl⟩ := h
    simp only [outlook_star, Outlook.repeated, Spots.holds_all, matched, anyTimes_nil]

/-- Without a mark no match is in progress. -/
theorem unmarked (h : scan.Exact) (hmarked : scan.outlook.marked = false) :
    (∀ spot, scan.outlook.complete.holds spot = false) ∧ ∀ t after, ¬ scan.completes t after := by
  induction scan with
  | pass spots => simp [completes]
  | char ranges mark =>
    obtain rfl : mark = false := hmarked
    simp [completes]
  | seq stored first second ihfirst ihsecond =>
    obtain ⟨hfirst, hsecond, rfl⟩ := h
    simp only [outlook_seq, Outlook.inTurn, Bool.or_eq_false_iff] at hmarked
    obtain ⟨hspots, hnone⟩ := ihfirst hfirst hmarked.1
    obtain ⟨hspots', hnone'⟩ := ihsecond hsecond hmarked.2
    simp [Outlook.inTurn, Spots.holds_union, Spots.holds_inter, completes, hspots, hspots',
      hnone, hnone']
  | alt stored first second ihfirst ihsecond =>
    obtain ⟨hfirst, hsecond, rfl⟩ := h
    simp only [outlook_alt, Outlook.either, Bool.or_eq_false_iff] at hmarked
    obtain ⟨hspots, hnone⟩ := ihfirst hfirst hmarked.1
    obtain ⟨hspots', hnone'⟩ := ihsecond hsecond hmarked.2
    simp [Outlook.either, Spots.holds_union, completes, hspots, hspots', hnone, hnone']
  | star stored body ih =>
    obtain ⟨hbody, rfl⟩ := h
    obtain ⟨hspots, hnone⟩ := ih hbody hmarked
    simp [Outlook.repeated, completes, hspots, hnone]

/-- A match in progress is complete where nothing is missing. -/
theorem complete_iff (h : scan.Exact) :
    scan.outlook.complete.holds (.between false after) = true ↔ scan.completes [] after := by
  induction scan generalizing after with
  | pass spots => simp [completes]
  | char ranges mark => cases mark <;> simp [completes]
  | seq stored first second ihfirst ihsecond =>
    obtain ⟨hfirst, hsecond, rfl⟩ := h
    simp only [outlook_seq, Outlook.inTurn, Spots.holds_union, Spots.holds_inter, Bool.or_eq_true,
      Bool.and_eq_true, ihfirst hfirst, ihsecond hsecond, passable_iff hsecond, completes,
      exists_append_eq_nil, List.isEmpty_nil, Bool.and_true]
    exact or_comm
  | alt stored first second ihfirst ihsecond =>
    obtain ⟨hfirst, hsecond, rfl⟩ := h
    simp only [outlook_alt, Outlook.either, Spots.holds_union, Bool.or_eq_true, ihfirst hfirst,
      ihsecond hsecond, completes]
  | star stored body ih =>
    obtain ⟨hbody, rfl⟩ := h
    simp only [outlook_star, Outlook.repeated, ih hbody, completes, exists_append_eq_nil,
      List.isEmpty_nil, Bool.and_true, anyTimes_nil, and_true]

/-! ## 3. Putting parts together

Parts that take no character are put together as one such part; that changes nothing. -/

theorem matched_followedBy (first second : Scan) :
    (first.followedBy second).matched = first.matched.inTurn second.matched := by
  unfold followedBy
  split
  · rename_i spots more
    refine MatchSet.ext fun before t after => ?_
    simp only [matched, nothing, Spots.holds_inter, Bool.and_eq_true, inTurn]
    constructor
    · rintro ⟨rfl, hspots, hmore⟩
      exact ⟨[], [], rfl, ⟨rfl, by simpa using hspots⟩, rfl, by simpa using hmore⟩
    · rintro ⟨u, v, rfl, ⟨rfl, hspots⟩, rfl, hmore⟩
      exact ⟨rfl, by simpa using hspots, by simpa using hmore⟩
  · rfl

theorem completes_followedBy :
    (first.followedBy second).completes t after ↔
      (∃ u v, u ++ v = t ∧ first.completes u (after && v.isEmpty) ∧ second.matched false v after) ∨
        second.completes t after := by
  unfold followedBy
  split
  · simp [completes]
  · rfl

theorem matched_orElse (first second : Scan) :
    (first.orElse second).matched = first.matched.either second.matched := by
  unfold orElse
  split
  · refine MatchSet.ext fun before t after => ?_
    simp only [matched, nothing, Spots.holds_union, Bool.or_eq_true, either, ← and_or_left]
  · rfl

theorem completes_orElse :
    (first.orElse second).completes t after ↔ first.completes t after ∨ second.completes t after := by
  unfold orElse
  split
  · simp [completes]
  · rfl

theorem matched_anyTimes (body : Scan) : body.anyTimes.matched = body.matched.anyTimes := by
  unfold anyTimes
  split
  · refine MatchSet.ext fun before t after => ⟨?_, ?_⟩
    · rintro ⟨rfl, -⟩
      exact anyTimes_nil _ _ _
    · intro h
      cases t with
      | nil => exact ⟨rfl, Spots.holds_all _⟩
      | cons c t =>
        obtain ⟨u, v, -, hu, -⟩ := anyTimes_cons.mp h
        cases hu.1
  · rfl

theorem completes_anyTimes :
    body.anyTimes.completes t after ↔
      ∃ u v, u ++ v = t ∧ body.completes u (after && v.isEmpty) ∧
        body.matched.anyTimes false v after := by
  unfold anyTimes
  split
  · simp [completes]
  · rfl

theorem exact_followedBy (hfirst : first.Exact) (hsecond : second.Exact) :
    (first.followedBy second).Exact := by
  unfold followedBy
  split
  · trivial
  · exact ⟨hfirst, hsecond, rfl⟩

theorem exact_orElse (hfirst : first.Exact) (hsecond : second.Exact) :
    (first.orElse second).Exact := by
  unfold orElse
  split
  · trivial
  · exact ⟨hfirst, hsecond, rfl⟩

theorem exact_anyTimes (hbody : body.Exact) : body.anyTimes.Exact := by
  unfold anyTimes
  split
  · trivial
  · exact ⟨hbody, rfl⟩

/-! ## 4. The step -/

/-- What reading a character makes of a part: the texts that complete a match are those that did so with
the character in front of them, and those with which a match that enters goes on. -/
structure Advanced (before : Bool) (c : Char) (entering : Bool) (scan next : Scan) : Prop where
  exact : next.Exact
  matched_eq : next.matched = scan.matched
  completes_iff : ∀ t after, next.completes t after ↔
    (entering = true ∧ scan.matched before (c :: t) after) ∨ scan.completes (c :: t) after

/-- At the start of a text nothing is marked. -/
def FitsAt (before : Bool) (scan : Scan) : Prop := before = true → scan.outlook.marked = false

theorem before_eq_false (h : scan.Exact) (hfits : scan.FitsAt before)
    (hcompletes : scan.completes t after) : before = false := by
  rw [← Bool.not_eq_true]
  exact fun hbefore => (unmarked h (hfits hbefore)).2 t after hcompletes

/-- Where a match in progress is complete, at any spot at which the part can be. -/
theorem complete_between_iff (h : scan.Exact) (hfits : scan.FitsAt before) :
    scan.outlook.complete.holds (.between before after) = true ↔ scan.completes [] after := by
  cases before with
  | false => exact complete_iff h
  | true =>
    obtain ⟨hspots, hnone⟩ := unmarked h (hfits rfl)
    simp [hspots, hnone]

/-- Where nothing enters and nothing is in progress, nothing moves. -/
theorem advanced_of_not {c : Char} {entering : Bool} (h : scan.Exact)
    (hidle : ¬ (entering || scan.outlook.marked) = true) : Advanced before c entering scan scan := by
  simp only [Bool.or_eq_true, not_or, Bool.not_eq_true] at hidle
  obtain ⟨rfl, hmarked⟩ := hidle
  exact ⟨h, rfl, fun t after => by simp [(unmarked h hmarked).2]⟩

theorem Advanced.followedBy {stored : Outlook} {c : Char} {entering leaving : Bool}
    {first' second' : Scan} (hfirst : Advanced before c entering first first')
    (hsecond : Advanced before c leaving second second')
    (hleaving : leaving = true ↔
      (entering = true ∧ first.matched before [] false) ∨ first.completes [] false)
    (hin : first.completes [] false → before = false) :
    Advanced before c entering (.seq stored first second) (first'.followedBy second') := by
  refine ⟨exact_followedBy hfirst.exact hsecond.exact, ?_, fun t after => ?_⟩
  · rw [matched_followedBy, hfirst.matched_eq, hsecond.matched_eq, matched]
  · -- A match in progress leaves the first part only behind a character.
    have hbehind : first.completes [] false ∧ second.matched false (c :: t) after ↔
        first.completes [] false ∧ second.matched before (c :: t) after :=
      and_congr_right fun h => by rw [hin h]
    rw [completes_followedBy, hsecond.completes_iff, hleaving, hsecond.matched_eq, matched,
      inTurn_cons, completes, exists_append_eq_cons, List.isEmpty_cons, Bool.and_false, hbehind]
    simp only [hfirst.completes_iff, or_and_right, and_or_left, exists_or, and_assoc]
    grind

theorem Advanced.orElse {stored : Outlook} {c : Char} {entering : Bool} {first' second' : Scan}
    (hfirst : Advanced before c entering first first')
    (hsecond : Advanced before c entering second second') :
    Advanced before c entering (.alt stored first second) (first'.orElse second') := by
  refine ⟨exact_orElse hfirst.exact hsecond.exact, ?_, fun t after => ?_⟩
  · rw [matched_orElse, hfirst.matched_eq, hsecond.matched_eq, matched]
  · rw [completes_orElse, hfirst.completes_iff, hsecond.completes_iff, matched, completes, either,
      and_or_left]
    exact or_or_or_comm

theorem Advanced.anyTimes {stored : Outlook} {c : Char} {entering again : Bool} {body' : Scan}
    (hbody : Advanced before c again body body')
    (hagain : again = true ↔ entering = true ∨ body.completes [] false)
    (hin : body.completes [] false → before = false) :
    Advanced before c entering (.star stored body) body'.anyTimes := by
  refine ⟨exact_anyTimes hbody.exact, ?_, fun t after => ?_⟩
  · rw [matched_anyTimes, hbody.matched_eq, matched]
  · have hbehind : body.completes [] false ∧ body.matched.anyTimes false (c :: t) after ↔
        body.completes [] false ∧ body.matched.anyTimes before (c :: t) after :=
      and_congr_right fun h => by rw [hin h]
    rw [completes_anyTimes, hbody.matched_eq, matched, completes, exists_append_eq_cons,
      List.isEmpty_cons, Bool.and_false, hbehind, anyTimes_cons]
    simp only [hbody.completes_iff, hagain, or_and_right, and_or_left, exists_or, and_assoc]
    grind

/-- **The step.**  Reading a character moves a part on. -/
theorem advance_spec (h : scan.Exact) (hfits : scan.FitsAt before) (c : Char) (entering : Bool) :
    Advanced before c entering scan (scan.advance (.between before false) c entering) := by
  induction scan generalizing entering with
  | pass spots => exact ⟨trivial, rfl, fun t after => by simp [advance, completes, matched, nothing]⟩
  | char ranges mark =>
    rw [advance]
    split
    · refine ⟨trivial, rfl, fun t after => ?_⟩
      simp only [completes, Bool.and_eq_true, matched, one]
      constructor
      · rintro ⟨⟨hentering, hc⟩, rfl⟩
        exact Or.inl ⟨hentering, c, hc, rfl⟩
      · rintro (⟨hentering, d, hd, heq⟩ | ⟨-, heq⟩)
        · obtain ⟨rfl, rfl⟩ := List.cons.inj heq
          exact ⟨⟨hentering, hd⟩, rfl⟩
        · cases heq
    · exact advanced_of_not trivial ‹_›
  | seq stored first second ihfirst ihsecond =>
    obtain ⟨hfirst, hsecond, rfl⟩ := id h
    have hboth : first.FitsAt before ∧ second.FitsAt before := by
      simpa [FitsAt, Outlook.inTurn, imp_and] using hfits
    rw [advance]
    split
    · refine (ihfirst hfirst hboth.1 entering).followedBy (ihsecond hsecond hboth.2 _) ?_
        (before_eq_false hfirst hboth.1)
      rw [Bool.or_eq_true, Bool.and_eq_true, passable_iff hfirst, complete_between_iff hfirst hboth.1]
    · exact advanced_of_not h ‹_›
  | alt stored first second ihfirst ihsecond =>
    obtain ⟨hfirst, hsecond, rfl⟩ := id h
    have hboth : first.FitsAt before ∧ second.FitsAt before := by
      simpa [FitsAt, Outlook.either, imp_and] using hfits
    rw [advance]
    split
    · exact (ihfirst hfirst hboth.1 entering).orElse (ihsecond hsecond hboth.2 entering)
    · exact advanced_of_not h ‹_›
  | star stored body ih =>
    obtain ⟨hbody, rfl⟩ := id h
    rw [advance]
    split
    · refine (ih hbody hfits _).anyTimes ?_ (before_eq_false hbody hfits)
      rw [Bool.or_eq_true, Outlook.repeated, complete_between_iff hbody hfits]
    · exact advanced_of_not h ‹_›

/-! ## 5. The run -/

/-- **The run.**  From a spot on, something is found if a match lies in the rest of the text, or if the
rest starts with what completes a match in progress. -/
theorem findsFrom_iff (h : scan.Exact) (hfits : scan.FitsAt before) :
    scan.findsFrom before t = true ↔
      (∃ front back, front ++ back = t ∧
        ∃ u v, u ++ v = back ∧ scan.matched (before && front.isEmpty) u v.isEmpty) ∨
      ∃ u v, u ++ v = t ∧ scan.completes u v.isEmpty := by
  induction t generalizing scan before with
  | nil =>
    simp only [findsFrom, Bool.or_eq_true, passable_iff h, complete_between_iff h hfits,
      exists_append_eq_nil, List.isEmpty_nil, Bool.and_true]
  | cons c t ih =>
    have hstep := advance_spec h hfits c true
    have hnext : FitsAt false (scan.advance (.between before false) c true) :=
      fun hfalse => nomatch hfalse
    rw [findsFrom, Bool.or_eq_true, Bool.or_eq_true, passable_iff h, complete_between_iff h hfits,
      ih hstep.exact hnext, hstep.matched_eq]
    simp only [hstep.completes_iff, exists_append_eq_cons, List.isEmpty_nil, List.isEmpty_cons,
      Bool.and_true, Bool.and_false, Bool.false_and, and_or_left, exists_or, true_and]
    grind

/-! ## 6. The scan for a pattern -/

/-- The scan has no marks, and matches just that. -/
structure StandsFor (scan : Scan) (set : MatchSet) : Prop where
  exact : scan.Exact
  unmarked : scan.outlook.marked = false
  matched_eq : scan.matched = set

namespace StandsFor

variable {set other : MatchSet}

theorem pass {spots : Spots} {p : Bool → Bool → Prop}
    (h : ∀ before after, spots.holds (.between before after) = true ↔ p before after) :
    StandsFor (.pass spots) (.nothing p) :=
  ⟨trivial, rfl, MatchSet.ext fun before _ after => and_congr_right fun _ => h before after⟩

theorem unit : StandsFor (.pass .all) .unit := pass fun _ _ => by simp

theorem char (charClass : CharClass) :
    StandsFor (.char charClass.ranges false) (.one charClass.Takes) := by
  refine ⟨trivial, rfl, ?_⟩
  rw [matched]
  exact congrArg one (funext fun c => propext (charClass.inRanges_iff c))

theorem followedBy (hfirst : first.StandsFor set) (hsecond : second.StandsFor other) :
    (first.followedBy second).StandsFor (set.inTurn other) := by
  refine ⟨exact_followedBy hfirst.exact hsecond.exact, ?_, ?_⟩
  · unfold Scan.followedBy
    split
    · rfl
    · simp [Outlook.inTurn, hfirst.unmarked, hsecond.unmarked]
  · rw [matched_followedBy, hfirst.matched_eq, hsecond.matched_eq]

theorem orElse (hfirst : first.StandsFor set) (hsecond : second.StandsFor other) :
    (first.orElse second).StandsFor (set.either other) := by
  refine ⟨exact_orElse hfirst.exact hsecond.exact, ?_, ?_⟩
  · unfold Scan.orElse
    split
    · rfl
    · simp [Outlook.either, hfirst.unmarked, hsecond.unmarked]
  · rw [matched_orElse, hfirst.matched_eq, hsecond.matched_eq]

theorem anyTimes (hbody : body.StandsFor set) : body.anyTimes.StandsFor set.anyTimes := by
  refine ⟨exact_anyTimes hbody.exact, ?_, by rw [matched_anyTimes, hbody.matched_eq]⟩
  unfold Scan.anyTimes
  split
  · rfl
  · exact hbody.unmarked

/-- Halving the count gives the same row. -/
theorem times (hpart : part.StandsFor set) (n : Nat) : (part.times n).StandsFor (set.times n) := by
  induction n using Nat.strongRecOn with
  | ind n ih =>
    rw [Scan.times]
    split
    · rename_i hzero
      rw [hzero]
      exact unit
    · split
      · rename_i hone
        rw [hone, times_one]
        exact hpart
      · have hhalf := ih (n / 2) (by omega)
        have hdouble := hhalf.followedBy hhalf
        rw [← times_add] at hdouble
        split
        · rwa [show n / 2 + n / 2 = n by omega] at hdouble
        · have hall := hdouble.followedBy hpart
          rwa [← times_succ, show n / 2 + n / 2 + 1 = n by omega] at hall

/-- Each time that is put around the rest may be left out with all that is inside it. -/
theorem nested (hpart : part.StandsFor set) (n : Nat) {m : Nat}
    (hrest : rest.StandsFor (set.upTo m)) : (part.nested n rest).StandsFor (set.upTo (n + m)) := by
  induction n generalizing rest m with
  | zero => rwa [Nat.zero_add]
  | succ n ih =>
    have hmore := unit.orElse (hpart.followedBy hrest)
    rw [← upTo_succ] at hmore
    rw [Nat.add_right_comm, Nat.add_assoc]
    exact ih hmore

theorem atMost (hpart : part.StandsFor set) (n : Nat) : (part.atMost n).StandsFor (set.upTo n) := by
  rw [Scan.atMost]
  split
  · exact hpart.nested n ((upTo_zero set).symm ▸ unit)
  · rw [← times_unit_either]
    exact (unit.orElse hpart).times n

end StandsFor

/-- **The scan for a pattern** stands for what the pattern matches. -/
theorem standsFor_ofPattern (pattern : Pattern) : (ofPattern pattern).StandsFor pattern.matched := by
  induction pattern with
  | empty => exact .unit
  | char charClass => exact .char charClass
  | start => exact .pass (by decide)
  | finish => exact .pass (by decide)
  | group body ih => exact ih
  | seq first second ihfirst ihsecond => exact ihfirst.followedBy ihsecond
  | alt first second ihfirst ihsecond => exact ihfirst.orElse ihsecond
  | repeated body least more? ih =>
    cases more? with
    | none =>
      rw [Pattern.matched, ← times_inTurn_anyTimes]
      exact (ih.times least).followedBy ih.anyTimes
    | some more =>
      rw [Pattern.matched, ← times_inTurn_upTo]
      exact (ih.times least).followedBy (ih.atMost more)

end Scan

/-- **A scan finds what a pattern matches**, and nothing else. -/
theorem Pattern.finds_iff (pattern : Pattern) (t : Text) :
    (Scan.ofPattern pattern).finds t = true ↔ pattern.OccursIn t := by
  have hscan := Scan.standsFor_ofPattern pattern
  have hnone := (Scan.unmarked hscan.exact hscan.unmarked).2
  rw [Scan.finds, Scan.findsFrom_iff hscan.exact fun _ => hscan.unmarked, hscan.matched_eq]
  simp only [Bool.true_and, hnone, and_false, exists_false, or_false, OccursIn, List.append_assoc]
  constructor
  · rintro ⟨front, _, rfl, found, back, rfl, h⟩
    exact ⟨front, found, back, rfl, h⟩
  · rintro ⟨front, found, back, rfl, h⟩
    exact ⟨front, found ++ back, rfl, found, back, rfl, h⟩

end HardwareCounters
