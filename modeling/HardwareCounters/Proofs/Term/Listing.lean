/-
# Lists of terms

Terms can be written between commas and are read again as they were, apart from blanks around their
values.  Most terms assign a number to a key; these are read whatever notation their numbers are
written in.

* `Term.parseTrimmed?_of_parts` is the law of the reader for texts without blanks at their ends, and
  `Term.parseList?_of_keys` for those in which every part has a key;
* `Term.parseList?_listing` is the round trip of terms that are `Spelled`;
* `Assignment.parseList?_listing` is the round trip of assignments of numbers.
-/
import HardwareCounters.Proofs.Numeral.Notation
import HardwareCounters.Proofs.Text.Joining
import HardwareCounters.Term.Basic
import Mathlib.Data.List.Basic

namespace HardwareCounters

namespace Term

/-! ## 1. The reader of lists -/

theorem isTerm_of_key_ne_nil {part : Text} (h : (ofPart part).key ≠ []) : isTerm part = true := by
  cases part with
  | nil => exact absurd rfl h
  | cons c rest =>
    rw [isTerm, bne_iff_ne]
    rintro rfl
    exact h rfl

theorem dropFinalComma_eq_self {t : Text} (h : t.getLast? ≠ some ',') : dropFinalComma t = t := by
  rw [dropFinalComma, Text.dropLast?, if_neg h, Option.getD_none]

/-- **The reader of lists.**  A text whose parts are terms is read part by part. -/
theorem parseTrimmed?_of_parts {t : Text} (h : ∀ part ∈ Text.splitOn ',' t, isTerm part = true) :
    parseTrimmed? t = some ((Text.splitOn ',' t).map ofPart) := by
  have hne : [] ∉ Text.splitOn ',' t := by
    intro hmem
    cases h [] hmem
  have hlast : t.getLast? ≠ some ',' := by
    intro hcomma
    obtain ⟨front, rfl⟩ := List.getLast?_eq_some_iff.mp hcomma
    rw [Text.splitOn_append] at hne
    exact hne (List.mem_append_right _ List.mem_cons_self)
  rw [parseTrimmed?, if_neg, dropFinalComma_eq_self hlast]
  · exact if_pos (List.all_eq_true.mpr h)
  · rintro (rfl | rfl)
    · exact hne List.mem_cons_self
    · exact hlast rfl

/-- A text with terms that does not end with a comma was read part by part. -/
theorem parts_of_parseTrimmed? {t : Text} {terms : List Term} (h : parseTrimmed? t = some terms)
    (hne : terms ≠ []) (hlast : t.getLast? ≠ some ',') :
    (∀ part ∈ Text.splitOn ',' t, isTerm part = true) ∧
      terms = (Text.splitOn ',' t).map ofPart := by
  rw [parseTrimmed?, dropFinalComma_eq_self hlast] at h
  split at h
  · cases h
    exact absurd rfl hne
  · simp only at h
    split at h
    · rename_i hall
      exact ⟨List.all_eq_true.mp hall, (Option.some.inj h).symm⟩
    · cases h

/-- The comma at the end of a list stands before a part without characters. -/
theorem mem_splitOn_dropFinalComma {t part : Text} (hne : part ≠ []) :
    part ∈ Text.splitOn ',' (dropFinalComma t) ↔ part ∈ Text.splitOn ',' t := by
  by_cases hlast : t.getLast? = some ','
  · obtain ⟨front, rfl⟩ := List.getLast?_eq_some_iff.mp hlast
    have hdrop : dropFinalComma (front ++ [',']) = front := by
      simp [dropFinalComma, Text.dropLast?]
    rw [hdrop, Text.splitOn_append, List.mem_append]
    simp [Text.splitOn, hne]
  · rw [dropFinalComma_eq_self hlast]

/-- **The terms of a list** are those of its parts, apart from a part without characters behind the
last comma. -/
theorem mem_iff_of_parseTrimmed? {t : Text} {terms : List Term} (h : parseTrimmed? t = some terms)
    {term : Term} : term ∈ terms ↔ ∃ part ∈ Text.splitOn ',' t, part ≠ [] ∧ term = ofPart part := by
  rw [parseTrimmed?] at h
  split at h
  · rename_i hempty
    cases h
    rcases hempty with rfl | rfl <;> simp [Text.splitOn]
  · simp only at h
    split at h
    · rename_i hall
      cases h
      have hparts : ∀ part ∈ Text.splitOn ',' (dropFinalComma t), part ≠ [] := by
        rintro part hpart rfl
        cases List.all_eq_true.mp hall [] hpart
      rw [List.mem_map]
      constructor
      · rintro ⟨part, hpart, rfl⟩
        have hne := hparts part hpart
        exact ⟨part, (mem_splitOn_dropFinalComma hne).mp hpart, hne, rfl⟩
      · rintro ⟨part, hpart, hne, rfl⟩
        exact ⟨part, (mem_splitOn_dropFinalComma hne).mpr hpart, rfl⟩
    · cases h

/-! ## 2. Blanks around a list -/

/-- Blanks around a part of a list are not seen. -/
theorem ofPart_surround {front back : Text} (hfront : Text.AllBlank front)
    (hback : Text.AllBlank back) (part : Text) : ofPart (front ++ part ++ back) = ofPart part := by
  have hequals : ∀ {blanks : Text}, Text.AllBlank blanks → '=' ∉ blanks :=
    fun h => h.not_mem (by decide)
  by_cases hmem : '=' ∈ part
  · obtain ⟨key, value, rfl, hkey⟩ := List.eq_append_cons_of_mem hmem
    have hlonger : '=' ∉ front ++ key := by simp [hequals hfront, hkey]
    have hsplit : front ++ (key ++ '=' :: value) ++ back =
        (front ++ key) ++ '=' :: (value ++ back) := by simp
    have hkeyTrim : Text.trim (front ++ key) = Text.trim key := by
      simpa using Text.trim_surround hfront Text.allBlank_nil key
    have hvalueTrim : Text.trim (value ++ back) = Text.trim value :=
      Text.trim_surround Text.allBlank_nil hback value
    simp only [ofPart, hsplit, Text.cut?_append _ hlonger, Text.cut?_append _ hkey, hkeyTrim,
      hvalueTrim]
  · have hlonger : '=' ∉ front ++ part ++ back := by
      simp [hequals hfront, hequals hback, hmem]
    simp only [ofPart, Text.cut?_eq_none hmem, Text.cut?_eq_none hlonger,
      Text.trim_surround hfront hback]

/-- Blanks around a list are not seen in its parts. -/
theorem map_ofPart_splitOn_trim (t : Text) :
    (Text.splitOn ',' (Text.trim t)).map ofPart = (Text.splitOn ',' t).map ofPart :=
  Text.map_splitOn_trim (by decide) ofPart_surround t

/-- A list with terms that does not end with a comma was read part by part. -/
theorem parts_of_parseList? {t : Text} {terms : List Term} (h : parseList? t = some terms)
    (hne : terms ≠ []) (hlast : (Text.trim t).getLast? ≠ some ',') :
    terms = (Text.splitOn ',' t).map ofPart := by
  rw [← map_ofPart_splitOn_trim]
  exact (parts_of_parseTrimmed? h hne hlast).2

/-- A text in which every part has a key is read part by part. -/
theorem parseList?_of_keys {t : Text} (h : ∀ part ∈ Text.splitOn ',' t, (ofPart part).key ≠ []) :
    parseList? t = some ((Text.splitOn ',' t).map ofPart) := by
  rw [parseList?, parseTrimmed?_of_parts, map_ofPart_splitOn_trim]
  intro part hpart
  have hmem : ofPart part ∈ (Text.splitOn ',' t).map ofPart := by
    rw [← map_ofPart_splitOn_trim]
    exact List.mem_map_of_mem hpart
  obtain ⟨other, hother, hsame⟩ := List.mem_map.mp hmem
  exact isTerm_of_key_ne_nil (hsame ▸ h other hother)

/-! ## 3. Terms that can be written -/

/-- Terms between commas. -/
def listing (terms : List Term) : Text := Text.joinWith [','] (terms.map text)

/-- The term without the blanks around its value. -/
def trimmed (term : Term) : Term := { term with value? := term.value?.map Text.trim }

/-- The key can be told from the value and from the blanks around it, and the whole term from its
neighbours in a list. -/
structure Spelled (term : Term) : Prop where
  key_ne_nil : term.key ≠ []
  trim_key : Text.trim term.key = term.key
  equals_not_mem_key : '=' ∉ term.key
  comma_not_mem_key : ',' ∉ term.key
  comma_not_mem_value : ∀ value ∈ term.value?, ',' ∉ value

variable {term : Term} {terms : List Term}

theorem Spelled.comma_not_mem_text (h : term.Spelled) : ',' ∉ term.text := by
  have hkey := h.comma_not_mem_key
  have hvalue := h.comma_not_mem_value
  rw [text]
  split
  · exact hkey
  · rename_i value heq
    simp [hkey, hvalue value heq]

/-- A term is read from its text. -/
theorem Spelled.ofPart_text (h : term.Spelled) : ofPart term.text = term.trimmed := by
  obtain ⟨key, value?⟩ := term
  have htrim : Text.trim key = key := h.trim_key
  cases value? with
  | none =>
    have hcut : Text.cut? '=' key = none := Text.cut?_eq_none h.equals_not_mem_key
    simp [ofPart, text, trimmed, hcut, htrim]
  | some value =>
    have hcut : Text.cut? '=' (key ++ '=' :: value) = some (key, value) :=
      Text.cut?_append value h.equals_not_mem_key
    simp [ofPart, text, trimmed, hcut, htrim]

/-! ## 4. The round trip -/

/-- The parts of a list of terms are their texts. -/
theorem flatMap_splitOn_text (h : ∀ term ∈ terms, term.Spelled) :
    (terms.map text).flatMap (Text.splitOn ',') = terms.map text := by
  refine Text.flatMap_splitOn_of_not_mem ?_
  intro part hpart
  obtain ⟨term, hterm, rfl⟩ := List.mem_map.mp hpart
  exact (h term hterm).comma_not_mem_text

theorem key_ofPart_text_ne_nil (h : ∀ term ∈ terms, term.Spelled) :
    ∀ part ∈ terms.map text, (ofPart part).key ≠ [] := by
  intro part hpart
  obtain ⟨term, hterm, rfl⟩ := List.mem_map.mp hpart
  rw [(h term hterm).ofPart_text]
  exact (h term hterm).key_ne_nil

theorem map_ofPart_text (h : ∀ term ∈ terms, term.Spelled) :
    (terms.map text).map ofPart = terms.map trimmed := by
  rw [List.map_map]
  exact List.map_congr_left fun term hterm => (h term hterm).ofPart_text

/-- **The round trip.**  Terms that are listed are read as they were. -/
theorem parseList?_listing (h : ∀ term ∈ terms, term.Spelled) :
    parseList? (listing terms) = some (terms.map trimmed) := by
  rcases eq_or_ne terms [] with rfl | hne
  · rfl
  · have hparts : Text.splitOn ',' (listing terms) = terms.map text := by
      rw [listing, Text.splitOn_joinWith_eq_flatMap _ (by simpa using hne), flatMap_splitOn_text h]
    rw [parseList?_of_keys, hparts, map_ofPart_text h]
    rw [hparts]
    exact key_ofPart_text_ne_nil h

end Term

/-! ## 5. Assignments of numbers -/

/-- A key and the text and value of the number that is assigned to it. -/
structure Assignment where
  key : Text
  written : Text
  value : Word

namespace Assignment

/-- The assignment as it is written in a list. -/
def text (a : Assignment) : Text := a.key ++ '=' :: a.written

/-- The assignment as a term. -/
def term (a : Assignment) : Term := ⟨a.key, some (Text.trim a.written)⟩

/-- The assignment as a term whose number still has the blanks around it. -/
def writtenTerm (a : Assignment) : Term := ⟨a.key, some a.written⟩

/-- Assignments between commas. -/
def listing (assignments : List Assignment) : Text :=
  Text.joinWith [','] (assignments.map text)

/-- The key can be told from the rest of a list and of a descriptor, and the number is accepted. -/
structure Proper (a : Assignment) : Prop where
  key_ne_nil : a.key ≠ []
  trim_key : Text.trim a.key = a.key
  key_plain : ∀ c ∈ [',', '=', '/', ':'], c ∉ a.key
  readWord_written : Numeral.readWord a.written = .ok a.value

variable {a : Assignment} {assignments : List Assignment}

/-- Neither commas nor slashes nor colons are in an assignment. -/
theorem Proper.not_mem_text (h : a.Proper) {c : Char} (hc : c ∈ [',', '/', ':']) : c ∉ a.text := by
  have hall : ∀ c ∈ [',', '/', ':'], c ∈ [',', '=', '/', ':'] ∧ c ≠ '=' := by simp
  obtain ⟨hmem, hequals⟩ := hall c hc
  have hwritten := Numeral.separator_not_mem_of_readWord hc h.readWord_written
  simp [text, h.key_plain c hmem, hequals, hwritten]

theorem Proper.spelled (h : a.Proper) : a.writtenTerm.Spelled where
  key_ne_nil := h.key_ne_nil
  trim_key := h.trim_key
  equals_not_mem_key := h.key_plain '=' (by decide)
  comma_not_mem_key := h.key_plain ',' (by decide)
  comma_not_mem_value := by
    intro value hvalue
    cases hvalue
    exact Numeral.separator_not_mem_of_readWord (by decide) h.readWord_written

/-- A term that was read stands for the number that was written. -/
theorem Proper.number_term (h : a.Proper) : a.term.number = .ok a.value :=
  (Numeral.readWord_trim a.written).trans h.readWord_written

/-- **The round trip of assignments.**  They are read as they were listed. -/
theorem parseList?_listing (h : ∀ a ∈ assignments, a.Proper) :
    Term.parseList? (listing assignments) = some (assignments.map term) := by
  have hlisting : listing assignments = Term.listing (assignments.map writtenTerm) := by
    rw [listing, Term.listing, List.map_map]
    rfl
  have hspelled : ∀ t ∈ assignments.map writtenTerm, t.Spelled := by
    intro t ht
    obtain ⟨a, ha, rfl⟩ := List.mem_map.mp ht
    exact (h a ha).spelled
  rw [hlisting, Term.parseList?_listing hspelled, List.map_map]
  rfl

end Assignment

end HardwareCounters
