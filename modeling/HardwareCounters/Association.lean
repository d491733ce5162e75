/-
# Association lists

A finite map is a list of keys and values in which a written key stands first and only once.

* `get?_put`: what is found after a key has been written;
* `mem_of_get?`: what is found stands in the list;
* `keys_nodup_put`: writing repeats no key.
-/

namespace HardwareCounters

namespace Association

variable {α β : Type} [DecidableEq α]

/-- The value of a key. -/
def get? (entries : List (α × β)) (key : α) : Option β := entries.lookup key

/-- The list with a value for a key, instead of the one it had. -/
def put (entries : List (α × β)) (key : α) (value : β) : List (α × β) :=
  (key, value) :: entries.filter fun entry => entry.1 ≠ key

theorem get?_filter_ne {key other : α} (h : other ≠ key) (entries : List (α × β)) :
    get? (entries.filter fun entry => entry.1 ≠ key) other = get? entries other := by
  induction entries with
  | nil => rfl
  | cons entry entries ih =>
    obtain ⟨k, value⟩ := entry
    simp only [get?] at ih ⊢
    by_cases hk : k = key
    · subst hk
      have hb : (other == k) = false := by simpa using h
      simpa [List.lookup_cons, hb] using ih
    · simp only [List.filter_cons, hk, ne_eq, not_false_eq_true, decide_true, if_true,
        List.lookup_cons]
      rw [ih]

theorem get?_put (entries : List (α × β)) (key other : α) (value : β) :
    get? (put entries key value) other =
      if other = key then some value else get? entries other := by
  by_cases h : other = key
  · simp [get?, put, h]
  · have hb : (other == key) = false := by simpa using h
    rw [if_neg h, ← get?_filter_ne h entries]
    simp [get?, put, List.lookup_cons, hb]

theorem mem_of_get? {entries : List (α × β)} {key : α} {value : β}
    (h : get? entries key = some value) : (key, value) ∈ entries := by
  obtain ⟨before, after, rfl, -⟩ := List.lookup_eq_some_iff.mp h
  simp

theorem keys_nodup_put {entries : List (α × β)} (h : (entries.map Prod.fst).Nodup) (key : α)
    (value : β) : ((put entries key value).map Prod.fst).Nodup := by
  simp only [put, List.map_cons, List.nodup_cons]
  refine ⟨?_, (List.filter_sublist.map Prod.fst).nodup h⟩
  simp

end Association

end HardwareCounters
