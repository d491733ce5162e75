/-
# An expression is parsed name by name

An expression is cut at semicolons, and each part is trimmed and loses its braces, with blanks
trimmed in between.  Whatever blanks are written, and however many blank parts, the names and their
groups come out as they were meant.  Each name is then resolved by a resolver that has resolved the
names before it; this leaves no trace, so that each name might as well be resolved on its own.  It is
then found out whether its event is counted once, and there the program may stop at a name that has been
resolved: the list of processors of its PMU may be one for which there is no room.

* `EventToken.spelling` is how a name may be written, `Spelled` how a list of names may be, and
  `ofExpression_joinWith` reads that list again.
* `Resolver.eventOf` is the event of a name on its own, which `Accepts` and `Rejects` say there is or is
  not; `resolveTokens_cons` takes the names of an expression one by one.
* `parse_name_by_name` puts these together, and says that two expressions with a semicolon between
  them are parsed one after the other.
* `crowdedName_not_parsed` is a name that is resolved and stops the program.
-/
import HardwareCounters.Proofs.CpuList.Language
import HardwareCounters.Proofs.Resolver.Repetition
import HardwareCounters.Proofs.Session.Command
import HardwareCounters.Proofs.Text.Trimming

namespace HardwareCounters

/-! ## 1. How a name may be written -/

/-- Blanks around a name and its braces. -/
structure Gaps where
  front : Text := []
  /-- Between an opening brace and the name. -/
  opening : Text := []
  /-- Between the name and a closing brace. -/
  closing : Text := []
  back : Text := []

/-- The gaps hold nothing but blanks. -/
structure Gaps.Blank (gaps : Gaps) : Prop where
  front : Text.AllBlank gaps.front
  opening : Text.AllBlank gaps.opening
  closing : Text.AllBlank gaps.closing
  back : Text.AllBlank gaps.back

namespace EventToken

/-- The name can be told from braces, blanks and semicolons around it. -/
structure Plain (token : EventToken) : Prop where
  ne_nil : token.name ≠ []
  trimmed : Text.trim token.name = token.name
  noSeparator : ';' ∉ token.name
  noOpening : token.name.head? ≠ some '{'
  noClosing : token.name.getLast? ≠ some '}'

/-- What is written in front of the name. -/
def opening (token : EventToken) (gap : Text) : Text := if token.leader then '{' :: gap else []

/-- What is written behind the name. -/
def closing (token : EventToken) (gap : Text) : Text := if token.endsGroup then gap ++ ['}'] else []

/-- A part of an expression for the name, with blanks in the gaps. -/
def spelling (token : EventToken) (gaps : Gaps) : Text :=
  gaps.front ++ (token.opening gaps.opening ++ (token.name ++ token.closing gaps.closing)) ++
    gaps.back

/-- The parts of an expression spell the names, in order, with blank parts anywhere. -/
inductive Spelled : List Text → List EventToken → Prop
  | nil : Spelled [] []
  | blank {part : Text} {parts : List Text} {tokens : List EventToken} (h : Text.AllBlank part)
      (rest : Spelled parts tokens) : Spelled (part :: parts) tokens
  | name {token : EventToken} {gaps : Gaps} {parts : List Text} {tokens : List EventToken}
      (hplain : token.Plain) (hgaps : gaps.Blank) (rest : Spelled parts tokens) :
      Spelled (token.spelling gaps :: parts) (token :: tokens)

/-! ## 2. Reading it again -/

variable {token : EventToken} {gap : Text}

theorem Plain.head?_append (h : token.Plain) (t : Text) :
    (token.name ++ t).head? = token.name.head? := by
  obtain ⟨c, rest, hname⟩ := List.exists_cons_of_ne_nil h.ne_nil
  rw [hname]
  rfl

/-- A name with what is behind it has no blanks at its ends. -/
theorem Plain.trim_name_closing (h : token.Plain) :
    Text.trim (token.name ++ token.closing gap) = token.name ++ token.closing gap := by
  obtain ⟨hhead, hlast⟩ := Text.trim_eq_self_iff.mp h.trimmed
  rw [Text.trim_eq_self_iff, h.head?_append, closing]
  refine ⟨hhead, ?_⟩
  cases token.endsGroup with
  | false => simpa using hlast
  | true =>
    have hbrace : Text.isBlank '}' = false := by decide
    rw [if_pos rfl, ← List.append_assoc, List.getLast?_concat, Option.map_some, hbrace]
    simp

/-- Braces are told from the name, and blanks between them are trimmed away. -/
theorem Plain.splitOpening_eq (h : token.Plain) {back : Text} (hgap : Text.AllBlank gap) :
    splitOpening (token.opening gap ++ (token.name ++ token.closing back)) =
      (token.name ++ token.closing back, token.leader) := by
  rw [opening]
  cases token.leader with
  | true =>
    have htrim := Text.trim_surround hgap Text.allBlank_nil (token.name ++ token.closing back)
    rw [List.append_nil, h.trim_name_closing] at htrim
    rw [if_pos rfl, List.cons_append, splitOpening, htrim]
  | false =>
    have hhead := h.noOpening
    rw [← h.head?_append (token.closing back)] at hhead
    rw [if_neg (by simp), List.nil_append, splitOpening.eq_2]
    intro rest heq
    rw [heq] at hhead
    exact hhead rfl

theorem Plain.splitClosing_eq (h : token.Plain) (hgap : Text.AllBlank gap) :
    splitClosing (token.name ++ token.closing gap) = (token.name, token.endsGroup) := by
  rw [closing]
  cases token.endsGroup with
  | true =>
    have htrim := Text.trim_surround Text.allBlank_nil hgap token.name
    rw [List.nil_append, h.trimmed] at htrim
    rw [if_pos rfl, ← List.append_assoc, splitClosing, Text.dropLast?, List.getLast?_concat,
      if_pos rfl, List.dropLast_concat]
    simp only [htrim]
  | false =>
    rw [if_neg (by simp), List.append_nil, splitClosing, Text.dropLast?, if_neg h.noClosing]

/-- **One name.**  A part of an expression for a name is read as that name. -/
theorem Plain.ofPart_trim_spelling (h : token.Plain) {gaps : Gaps} (hgaps : gaps.Blank) :
    Text.trim (token.spelling gaps) ≠ [] ∧ ofPart (Text.trim (token.spelling gaps)) = token := by
  have htrim : Text.trim (token.spelling gaps) =
      token.opening gaps.opening ++ (token.name ++ token.closing gaps.closing) := by
    rw [spelling, Text.trim_surround hgaps.front hgaps.back, Text.trim_eq_self_iff]
    have hclosing : Text.trim (token.name ++ token.closing gaps.closing) =
        token.name ++ token.closing gaps.closing := h.trim_name_closing
    obtain ⟨hhead, hlast⟩ := Text.trim_eq_self_iff.mp hclosing
    refine ⟨?_, ?_⟩
    · rw [opening]
      cases token.leader with
      | true =>
        have hbrace : Text.isBlank '{' = false := by decide
        simp [hbrace]
      | false => simpa using hhead
    · rwa [List.getLast?_append, Option.or_of_isSome (by simp [h.ne_nil])]
  refine ⟨by rw [htrim]; simp [h.ne_nil], ?_⟩
  rw [htrim, ofPart, h.splitOpening_eq hgaps.opening]
  simp only [h.splitClosing_eq hgaps.closing]

theorem not_mem_of_allBlank {t : Text} (h : Text.AllBlank t) : ';' ∉ t := by
  intro hmem
  have hblank := h ';' hmem
  revert hblank
  decide

theorem Plain.not_mem_spelling (h : token.Plain) {gaps : Gaps} (hgaps : gaps.Blank) :
    ';' ∉ token.spelling gaps := by
  have hopening : ';' ∉ token.opening gaps.opening := by
    rw [opening]
    split
    · simpa using not_mem_of_allBlank hgaps.opening
    · simp
  have hclosing : ';' ∉ token.closing gaps.closing := by
    rw [closing]
    split
    · simpa using not_mem_of_allBlank hgaps.closing
    · simp
  simp only [spelling, List.mem_append, not_or]
  exact ⟨⟨not_mem_of_allBlank hgaps.front, hopening, h.noSeparator, hclosing⟩,
    not_mem_of_allBlank hgaps.back⟩

namespace Spelled

variable {parts : List Text} {tokens : List EventToken}

theorem not_mem (h : Spelled parts tokens) : ∀ part ∈ parts, ';' ∉ part := by
  induction h with
  | nil => simp
  | blank hblank _ ih => exact List.forall_mem_cons.mpr ⟨not_mem_of_allBlank hblank, ih⟩
  | name hplain hgaps _ ih => exact List.forall_mem_cons.mpr ⟨hplain.not_mem_spelling hgaps, ih⟩

theorem map_ofPart (h : Spelled parts tokens) :
    ((parts.map Text.trim).filter (· ≠ [])).map ofPart = tokens := by
  induction h with
  | nil => rfl
  | blank hblank _ ih =>
    rw [List.map_cons, Text.trim_eq_nil hblank]
    exact ih
  | name hplain hgaps _ ih =>
    obtain ⟨hne, heq⟩ := hplain.ofPart_trim_spelling hgaps
    rw [List.map_cons, List.filter_cons_of_pos (by simpa using hne), List.map_cons, heq, ih]

end Spelled

/-- **A list of names.**  Whatever blanks are written, an expression is read as the names that it
spells. -/
theorem ofExpression_joinWith {parts : List Text} {tokens : List EventToken}
    (h : Spelled parts tokens) : ofExpression (Text.joinWith [';'] parts) = tokens := by
  cases parts with
  | nil =>
    cases h
    rfl
  | cons part parts =>
    rw [ofExpression, Text.splitOn_joinWith (by simp) h.not_mem, h.map_ofPart]

theorem ofExpression_append (first second : Text) :
    ofExpression (first ++ ';' :: second) = ofExpression first ++ ofExpression second := by
  rw [ofExpression, Text.splitOn_append, List.map_append, List.filter_append, List.map_append]
  rfl

end EventToken

/-! ## 3. Resolving names on their own -/

variable {η : Type}

namespace Resolver

/-- The event of a name that is resolved on its own. -/
def eventOf (resolver : Resolver) (token : EventToken) : Except Error (SessionEvent η) :=
  match resolver.resolve token.name with
  | (result, after) =>
    result.bind fun attr => (after.isUncore token.name).map fun uncore => token.event attr uncore

/-- The name can be resolved, and it can be told whether its event is counted once. -/
def Accepts (resolver : Resolver) (name : Text) : Prop :=
  (∃ attr, (resolver.resolve name).1 = .ok attr) ∧ ∃ uncore, resolver.loaded.isUncore name = .ok uncore

/-- The name cannot be resolved, or it cannot be told whether its event is counted once. -/
inductive Rejects (resolver : Resolver) (name : Text) (e : Error) : Prop
  | unresolved (h : (resolver.resolve name).1 = .error e)
  | unjudged {attr : Attribute} (hresolve : (resolver.resolve name).1 = .ok attr)
      (h : resolver.loaded.isUncore name = .error e)

/-- The names of an expression get the events that they get after the catalog has been loaded. -/
theorem resolveTokens_loaded (resolver : Resolver) (tokens : List EventToken) :
    (resolver.loaded.resolveTokens tokens : Except Error (List (SessionEvent η)) × Resolver).1 =
      (resolver.resolveTokens tokens).1 := by
  cases tokens with
  | nil => rfl
  | cons token tokens => rw [resolveTokens, resolveTokens, resolve, loaded_loaded, resolve]

/-- **Names are resolved on their own.**  The names before one make no difference to its event. -/
theorem resolveTokens_cons (resolver : Resolver) (token : EventToken) (tokens : List EventToken) :
    (resolver.resolveTokens (token :: tokens)).1 =
      (resolver.eventOf token).bind fun event : SessionEvent η =>
        (resolver.resolveTokens tokens).1.map fun events => event :: events := by
  rcases hresolve : resolver.resolve token.name with ⟨e | attr, after⟩
  · simp only [resolveTokens, eventOf, hresolve]
    rfl
  · have hafter : after = resolver.loaded := (congrArg Prod.snd hresolve).symm
    have hrest := resolver.resolveTokens_loaded (η := η) tokens
    rw [← hafter] at hrest
    simp only [resolveTokens, eventOf, hresolve, ← hrest]
    cases after.isUncore token.name with
    | error e => rfl
    | ok uncore =>
      rcases (after.resolveTokens tokens : Except Error (List (SessionEvent η)) × Resolver) with
        ⟨e | events, last⟩
      · rfl
      · rfl

/-- Two lists of names are resolved one after the other. -/
theorem resolveTokens_append (resolver : Resolver) (tokens more : List EventToken) :
    (resolver.resolveTokens (tokens ++ more)).1 =
      (resolver.resolveTokens tokens).1.bind fun events : List (SessionEvent η) =>
        (resolver.resolveTokens more).1.map fun others => events ++ others := by
  induction tokens with
  | nil =>
    rw [List.nil_append, resolveTokens]
    cases (resolver.resolveTokens more : Except Error (List (SessionEvent η)) × Resolver).1 <;> rfl
  | cons token tokens ih =>
    rw [List.cons_append, resolveTokens_cons, resolveTokens_cons, ih]
    cases (resolver.eventOf token : Except Error (SessionEvent η)) with
    | error e => rfl
    | ok event =>
      cases (resolver.resolveTokens tokens : Except Error (List (SessionEvent η)) × Resolver).1 with
      | error e => rfl
      | ok events =>
        cases (resolver.resolveTokens more : Except Error (List (SessionEvent η)) × Resolver).1 <;>
          rfl

/-- The event of a name has its attribute and its flag. -/
theorem eventOf_eq_ok_iff {resolver : Resolver} {token : EventToken} {event : SessionEvent η} :
    resolver.eventOf token = .ok event ↔ ∃ attr uncore, (resolver.resolve token.name).1 = .ok attr ∧
      resolver.loaded.isUncore token.name = .ok uncore ∧ event = token.event attr uncore := by
  have hafter : (resolver.resolve token.name).2 = resolver.loaded := rfl
  rw [eventOf, ← hafter]
  rcases resolver.resolve token.name with ⟨e | attr, after⟩
  · simp [Except.bind]
  · cases hjudged : after.isUncore token.name with
    | error e => simp [Except.bind, Except.map, hjudged]
    | ok uncore => simp [Except.bind, Except.map, hjudged, eq_comm]

theorem exists_eventOf_iff {resolver : Resolver} {token : EventToken} :
    (∃ event : SessionEvent η, resolver.eventOf token = .ok event) ↔ resolver.Accepts token.name := by
  simp only [eventOf_eq_ok_iff, Accepts]
  constructor
  · rintro ⟨_, attr, uncore, hresolve, huncore, -⟩
    exact ⟨⟨attr, hresolve⟩, uncore, huncore⟩
  · rintro ⟨⟨attr, hresolve⟩, uncore, huncore⟩
    exact ⟨_, attr, uncore, hresolve, huncore, rfl⟩

theorem eventOf_eq_error_iff {resolver : Resolver} {token : EventToken} {e : Error} :
    (resolver.eventOf token : Except Error (SessionEvent η)) = .error e ↔
      resolver.Rejects token.name e := by
  have hafter : (resolver.resolve token.name).2 = resolver.loaded := rfl
  have hiff : resolver.Rejects token.name e ↔ (resolver.resolve token.name).1 = .error e ∨
      ((∃ attr, (resolver.resolve token.name).1 = .ok attr) ∧
        resolver.loaded.isUncore token.name = .error e) := by
    constructor
    · rintro (h | ⟨hresolve, h⟩)
      · exact Or.inl h
      · exact Or.inr ⟨⟨_, hresolve⟩, h⟩
    · rintro (h | ⟨⟨_, hresolve⟩, h⟩)
      · exact .unresolved h
      · exact .unjudged hresolve h
  rw [hiff, eventOf, ← hafter]
  rcases resolver.resolve token.name with ⟨e | attr, after⟩
  · simp [Except.bind]
  · cases hjudged : after.isUncore token.name with
    | error e => simp [Except.bind, Except.map, hjudged]
    | ok uncore => simp [Except.bind, Except.map, hjudged]

/-- Names that are all accepted get their events, in order. -/
theorem exists_resolveTokens (resolver : Resolver) {tokens : List EventToken}
    (h : ∀ token ∈ tokens, resolver.Accepts token.name) :
    ∃ events : List (SessionEvent η), (resolver.resolveTokens tokens).1 = .ok events ∧
      events.map .ok = tokens.map resolver.eventOf := by
  induction tokens with
  | nil => exact ⟨[], rfl, rfl⟩
  | cons token tokens ih =>
    obtain ⟨hfirst, hrest⟩ := List.forall_mem_cons.mp h
    obtain ⟨event, hevent⟩ := exists_eventOf_iff (η := η).mpr hfirst
    obtain ⟨events, hevents, hmap⟩ := ih hrest
    refine ⟨event :: events, ?_, ?_⟩
    · rw [resolveTokens_cons, hevent, hevents]
      rfl
    · rw [List.map_cons, List.map_cons, hmap, hevent]

/-- The first name that is rejected is the one whose error is reported. -/
theorem resolveTokens_of_first (resolver : Resolver) {before : List EventToken}
    (hbefore : ∀ other ∈ before, resolver.Accepts other.name) {token : EventToken} {e : Error}
    (h : resolver.Rejects token.name e) (after : List EventToken) :
    (resolver.resolveTokens (before ++ token :: after) :
      Except Error (List (SessionEvent η)) × Resolver).1 = .error e := by
  obtain ⟨events, hevents, -⟩ := resolver.exists_resolveTokens (η := η) hbefore
  rw [resolveTokens_append, hevents, resolveTokens_cons, eventOf_eq_error_iff.mpr h]
  rfl

/-- If not all names are accepted there is a first that is not. -/
theorem exists_first_error (resolver : Resolver) {tokens : List EventToken}
    (h : ¬ ∀ token ∈ tokens, resolver.Accepts token.name) :
    ∃ before token after e, tokens = before ++ token :: after ∧
      (∀ other ∈ before, resolver.Accepts other.name) ∧ resolver.Rejects token.name e := by
  induction tokens with
  | nil => exact absurd (fun _ h => nomatch h) h
  | cons token tokens ih =>
    cases hevent : (resolver.eventOf token : Except Error (SessionEvent Nat)) with
    | error e =>
      exact ⟨[], token, tokens, e, rfl, fun _ h => (nomatch h), eventOf_eq_error_iff.mp hevent⟩
    | ok event =>
      have hfirst : resolver.Accepts token.name := exists_eventOf_iff.mp ⟨event, hevent⟩
      have hrest : ¬ ∀ other ∈ tokens, resolver.Accepts other.name :=
        fun hall => h (List.forall_mem_cons.mpr ⟨hfirst, hall⟩)
      obtain ⟨before, other, after, e, rfl, hbefore, he⟩ := ih hrest
      exact ⟨token :: before, other, after, e, rfl, List.forall_mem_cons.mpr ⟨hfirst, hbefore⟩, he⟩

end Resolver

/-! ## 4. Parsing -/

namespace Session

variable {session : Session η} {expression : Text} {resolver : Resolver}

theorem parse_of_events (h : session.refusal? .parse = none) {events : List (SessionEvent η)}
    (hevents : (resolver.resolveTokens (EventToken.ofExpression expression)).1 = .ok events)
    (hne : events ≠ []) :
    ∃ after, session.parse expression resolver =
      (.ok (), { session with events, state := .parsed }, after) := by
  obtain ⟨event, others, rfl⟩ := List.exists_cons_of_ne_nil hne
  rw [parse, h]
  rcases hresolve : resolver.resolveTokens (EventToken.ofExpression expression) with ⟨result, after⟩
  rw [hresolve] at hevents
  cases hevents
  exact ⟨after, rfl⟩

theorem parse_of_nil (h : session.refusal? .parse = none)
    (hnil : EventToken.ofExpression expression = []) :
    session.parse expression resolver = (.error .emptyEventList, session, resolver) := by
  rw [parse, h, hnil]
  rfl

theorem parse_of_error (h : session.refusal? .parse = none) {e : Error}
    (he : (resolver.resolveTokens (EventToken.ofExpression expression) :
      Except Error (List (SessionEvent η)) × Resolver).1 = .error e) :
    ∃ after, session.parse expression resolver = (.error e, session, after) := by
  rw [parse, h]
  rcases hresolve : (resolver.resolveTokens (EventToken.ofExpression expression) :
    Except Error (List (SessionEvent η)) × Resolver) with ⟨result, after⟩
  rw [hresolve] at he
  cases he
  exact ⟨after, rfl⟩

/-- A session that has been parsed has events, and they are what the names resolve to. -/
theorem exists_events_of_parse {parsed : Session η} {after : Resolver}
    (h : session.parse expression resolver = (.ok (), parsed, after)) :
    session.refusal? .parse = none ∧ ∃ events, events ≠ [] ∧
      (resolver.resolveTokens (EventToken.ofExpression expression)).1 = .ok events ∧
      parsed = { session with events, state := .parsed } := by
  rw [parse] at h
  split at h
  · cases h
  · rename_i hallowed
    split at h
    · cases h
    · cases h
    · rename_i events _ hne hevents
      cases h
      exact ⟨hallowed, events, hne, by rw [hevents], rfl⟩

end Session

/-- What parsing an expression that spells these names gives. -/
structure ParsedByName (resolver : Resolver) (session : Session η) (tokens : List EventToken)
    (result : Except Error Unit) (parsed : Session η) : Prop where
  /-- Parsing succeeds if there are names and each of them is accepted on its own. -/
  ok_iff : result = .ok () ↔
    tokens ≠ [] ∧ ∀ token ∈ tokens, resolver.Accepts token.name
  /-- The session then has an event for each name, in order, as the name has on its own. -/
  events : result = .ok () → ∃ events, parsed = { session with events, state := .parsed } ∧
    events.map .ok = tokens.map resolver.eventOf
  /-- Otherwise the error is that of the first name that is rejected. -/
  error : ∀ before token after e, tokens = before ++ token :: after →
    (∀ other ∈ before, resolver.Accepts other.name) → resolver.Rejects token.name e →
    result = .error e
  error_of_nil : tokens = [] → result = .error .emptyEventList

theorem parsedByName (resolver : Resolver) {session : Session η}
    (h : session.refusal? .parse = none) (expression : Text) :
    ParsedByName resolver session (EventToken.ofExpression expression)
      (session.parse expression resolver).1 (session.parse expression resolver).2.1 := by
  generalize htokens : EventToken.ofExpression expression = tokens
  have herror : ∀ before token after e, tokens = before ++ token :: after →
      (∀ other ∈ before, resolver.Accepts other.name) → resolver.Rejects token.name e →
      (session.parse expression resolver).1 = .error e := by
    intro before token after e hsplit hbefore he
    have hresolve := resolver.resolveTokens_of_first (η := η) hbefore he after
    rw [← hsplit, ← htokens] at hresolve
    obtain ⟨last, hparse⟩ := Session.parse_of_error h hresolve
    rw [hparse]
  have hnil : tokens = [] → (session.parse expression resolver).1 = .error .emptyEventList := by
    intro hempty
    rw [Session.parse_of_nil h (htokens.trans hempty)]
  have hok : tokens ≠ [] →
      (∀ token ∈ tokens, resolver.Accepts token.name) → ∃ events after, session.parse expression resolver =
        (.ok (), { session with events, state := .parsed }, after) ∧
        events.map .ok = tokens.map resolver.eventOf := by
    intro hne hall
    obtain ⟨events, hevents, hmap⟩ := resolver.exists_resolveTokens (η := η) hall
    have hsome : events ≠ [] := by
      rintro rfl
      exact hne (List.map_eq_nil_iff.mp hmap.symm)
    rw [← htokens] at hevents
    obtain ⟨after, hparse⟩ := Session.parse_of_events h hevents hsome
    exact ⟨events, after, hparse, hmap⟩
  have hiff : (session.parse expression resolver).1 = .ok () ↔
      tokens ≠ [] ∧ ∀ token ∈ tokens, resolver.Accepts token.name := by
    constructor
    · intro hresult
      refine ⟨fun hempty => ?_, ?_⟩
      · rw [hnil hempty] at hresult
        cases hresult
      · by_contra hnot
        obtain ⟨before, token, after, e, hsplit, hbefore, he⟩ := resolver.exists_first_error hnot
        rw [herror before token after e hsplit hbefore he] at hresult
        cases hresult
    · rintro ⟨hne, hall⟩
      obtain ⟨events, after, hparse, -⟩ := hok hne hall
      rw [hparse]
  refine ⟨hiff, fun hresult => ?_, herror, hnil⟩
  obtain ⟨hne, hall⟩ := hiff.mp hresult
  obtain ⟨events, after, hparse, hmap⟩ := hok hne hall
  exact ⟨events, by rw [hparse], hmap⟩

/-- Two expressions with a semicolon between them are parsed one after the other. -/
theorem Session.parse_append {session first second : Session η} {expression other : Text}
    {resolver r s : Resolver} (h : session.parse expression resolver = (.ok (), first, r))
    (hother : session.parse other resolver = (.ok (), second, s)) :
    ∃ after, session.parse (expression ++ ';' :: other) resolver =
      (.ok (), { session with events := first.events ++ second.events, state := .parsed },
        after) := by
  obtain ⟨hallowed, events, hne, hevents, rfl⟩ := exists_events_of_parse h
  obtain ⟨-, others, -, hothers, rfl⟩ := exists_events_of_parse hother
  refine parse_of_events hallowed ?_ (by simp [hne])
  rw [EventToken.ofExpression_append, Resolver.resolveTokens_append, hevents, hothers]
  rfl

/-- **An expression is parsed name by name.**  Take any list of names that can be told from braces,
blanks and semicolons, and write it with any blanks around names and braces and with any blank
parts.  A closed or parsed session parses this if and only if there are names and each of them can
be resolved on its own, and for each it can be told whether its event is counted once; it then has the
events that the names have on their own, in order.  Otherwise the first name of which this does not hold
is reported.  That it cannot be told means that there is no room for the processors of a PMU.  Two
expressions with a semicolon between them give the events of the first and then those of the second. -/
theorem parse_name_by_name (resolver : Resolver) {session : Session η}
    (hstate : session.state = .closed ∨ session.state = .parsed) {parts : List Text}
    {tokens : List EventToken} (hspelled : EventToken.Spelled parts tokens) :
    ParsedByName resolver session tokens
      (session.parse (Text.joinWith [';'] parts) resolver).1
      (session.parse (Text.joinWith [';'] parts) resolver).2.1 ∧
    (∀ name e, resolver.loaded.isUncore name = .error e → e = .noRoom) ∧
    ∀ expression other first second r s,
      session.parse expression resolver = (.ok (), first, r) →
      session.parse other resolver = (.ok (), second, s) →
      ∃ after, session.parse (expression ++ ';' :: other) resolver =
        (.ok (), { session with events := first.events ++ second.events, state := .parsed },
          after) := by
  have hallowed : session.refusal? .parse = none := by
    rw [refusal?_eq_none_iff]
    simpa [SessionOperation.allowedIn] using hstate
  refine ⟨?_, fun _ _ h => Sysfs.eq_noRoom_of_isUncore h,
    fun _ _ _ _ _ _ hfirst hsecond => Session.parse_append hfirst hsecond⟩
  have hparsed := parsedByName resolver hallowed (Text.joinWith [';'] parts)
  rwa [EventToken.ofExpression_joinWith hspelled] at hparsed

namespace Example

/-- The names of a group of two events and of an event on its own. -/
def groupNames : List EventToken :=
  [⟨"r1".toList, true, false⟩, ⟨"r2".toList, false, true⟩, ⟨"r3".toList, false, false⟩]

/-- The same names with blanks around them, and with a blank part. -/
def spacedParts : List Text :=
  [" \x7b r1".toList, " ".toList, "r2 \x7d ".toList, "r3".toList]

theorem spelled_spacedParts : EventToken.Spelled spacedParts groupNames := by
  have hnil : Text.AllBlank [] := fun _ h => nomatch h
  have hblank : Text.AllBlank " ".toList := by
    intro c hc
    obtain rfl := List.mem_singleton.mp hc
    rfl
  have hfirst : EventToken.Plain ⟨"r1".toList, true, false⟩ :=
    ⟨by decide, rfl, by decide, by decide, by decide⟩
  have hsecond : EventToken.Plain ⟨"r2".toList, false, true⟩ :=
    ⟨by decide, rfl, by decide, by decide, by decide⟩
  have hthird : EventToken.Plain ⟨"r3".toList, false, false⟩ :=
    ⟨by decide, rfl, by decide, by decide, by decide⟩
  exact @EventToken.Spelled.name _ ⟨" ".toList, " ".toList, [], []⟩ _ _ hfirst
    ⟨hblank, hblank, hnil, hnil⟩
    (.blank hblank
      (@EventToken.Spelled.name _ ⟨[], [], " ".toList, " ".toList⟩ _ _ hsecond
        ⟨hnil, hnil, hblank, hblank⟩
        (@EventToken.Spelled.name _ ⟨[], [], [], []⟩ _ _ hthird ⟨hnil, hnil, hnil, hnil⟩ .nil)))

/-- A resolver without any files. -/
def bareResolver : Resolver := ⟨⟨[], {}⟩, {}⟩

/-- A new session on one processor. -/
def newSession : Session Nat := { cpuCount := 1 }

end Example

open Example in
theorem parse_name_by_name_spacedParts :
    (newSession.state = .closed ∧ EventToken.Spelled spacedParts groupNames ∧
      (newSession.parse (Text.joinWith [';'] spacedParts) bareResolver).1 = .ok ()) ∧
    ParsedByName bareResolver newSession groupNames
      (newSession.parse (Text.joinWith [';'] spacedParts) bareResolver).1
      (newSession.parse (Text.joinWith [';'] spacedParts) bareResolver).2.1 :=
  ⟨⟨rfl, spelled_spacedParts, rfl⟩,
    (@parse_name_by_name _ bareResolver newSession (Or.inl rfl) _ _ spelled_spacedParts).1⟩

namespace Example

/-- A resolver with an event of a PMU whose list of processors is crowded. -/
def crowdedResolver : Resolver :=
  ⟨boxSysfs crowdedRange,
    Catalog.insert {} { name := "u".toList, encoded := "config=1".toList, pmu := "box".toList }⟩

/-- The name of that event. -/
def crowdedName : EventToken := ⟨"u".toList, false, false⟩

end Example

open Example in
/-- A name that is resolved, but stops the program when it is the whole of an expression. -/
theorem crowdedName_not_parsed :
    newSession.state = .closed ∧ EventToken.Spelled [crowdedName.name] [crowdedName] ∧
      (crowdedResolver.resolve crowdedName.name).1 =
        .ok { Attribute.raw with pmuType := 7, config := 1 } ∧
      (newSession.parse crowdedName.name crowdedResolver).1 = .error .noRoom := by
  have hnil : Text.AllBlank [] := fun _ h => nomatch h
  have hplain : crowdedName.Plain := ⟨by decide, rfl, by decide, by decide, by decide⟩
  exact ⟨rfl, @EventToken.Spelled.name _ ⟨[], [], [], []⟩ _ _ hplain ⟨hnil, hnil, hnil, hnil⟩ .nil,
    by decide +kernel, by decide +kernel⟩

end HardwareCounters
