/-
# Texts in order

What a program lists from a table it sorts, and the list must not show in which order the table was
gone through.  It does not if the items are sorted by a text in which no two of them agree.

* `le_trans`, `le_antisymm` and `le_total`: texts are totally ordered.
* `Listed`: a list has the given items, each once and strictly in order; `Listed.unique` says that
  there is only one such list.
* `OrdersBy.listed`: sorting gives this list, by any comparison that looks at the texts first.
-/
import HardwareCounters.Text.Basic

namespace HardwareCounters

namespace Text

/-! ## 1. The order of texts -/

theorem cons_le_cons {a b : Char} {as bs : Text} :
    le (a :: as) (b :: bs) = true ↔ a.toNat < b.toNat ∨ a = b ∧ le as bs = true := by
  rw [le, Bool.or_eq_true, Bool.and_eq_true, beq_iff_eq, decide_eq_true_iff]
  exact Iff.rfl

theorem le_trans {s t u : Text} (hst : le s t = true) (htu : le t u = true) : le s u = true := by
  induction s generalizing t u with
  | nil => rfl
  | cons a as ih =>
    match t, u with
    | [], _ => cases hst
    | _ :: _, [] => cases htu
    | b :: bs, c :: cs =>
      rw [cons_le_cons] at hst htu ⊢
      rcases hst with hab | ⟨rfl, hst⟩
      · left
        rcases htu with hbc | ⟨rfl, -⟩
        · exact Nat.lt_trans hab hbc
        · exact hab
      · rcases htu with hbc | ⟨rfl, htu⟩
        · exact Or.inl hbc
        · exact Or.inr ⟨rfl, ih hst htu⟩

theorem le_antisymm {s t : Text} (hst : le s t = true) (hts : le t s = true) : s = t := by
  induction s generalizing t with
  | nil =>
    cases t with
    | nil => rfl
    | cons b bs => cases hts
  | cons a as ih =>
    cases t with
    | nil => cases hst
    | cons b bs =>
      rw [cons_le_cons] at hst hts
      rcases hst with hab | ⟨rfl, hst⟩
      · rcases hts with hba | ⟨rfl, -⟩
        · exact absurd hab (Nat.lt_asymm hba)
        · exact absurd hab (Nat.lt_irrefl _)
      · rcases hts with hlt | ⟨-, hts⟩
        · exact absurd hlt (Nat.lt_irrefl _)
        · rw [ih hst hts]

theorem le_total (s t : Text) : le s t = true ∨ le t s = true := by
  induction s generalizing t with
  | nil => exact Or.inl rfl
  | cons a as ih =>
    cases t with
    | nil => exact Or.inr rfl
    | cons b bs =>
      rw [cons_le_cons, cons_le_cons]
      rcases Nat.lt_trichotomy a.toNat b.toNat with hab | heq | hba
      · exact Or.inl (Or.inl hab)
      · obtain rfl : a = b := Char.toNat_inj.mp heq
        rcases ih bs with h | h
        · exact Or.inl (Or.inr ⟨rfl, h⟩)
        · exact Or.inr (Or.inr ⟨rfl, h⟩)
      · exact Or.inr (Or.inl hba)

theorem le_refl (t : Text) : le t t = true := or_self_iff.mp (le_total t t)

/-- A text stands strictly before another one. -/
def Before (s t : Text) : Prop := le s t = true ∧ s ≠ t

instance (s t : Text) : Decidable (Before s t) :=
  inferInstanceAs (Decidable (le s t = true ∧ s ≠ t))

theorem Before.asymm {s t : Text} (hst : s.Before t) (hts : t.Before s) : False :=
  hst.2 (le_antisymm hst.1 hts.1)

theorem before_trichotomy (s t : Text) : s.Before t ∨ s = t ∨ t.Before s := by
  by_cases heq : s = t
  · exact Or.inr (Or.inl heq)
  · rcases le_total s t with h | h
    · exact Or.inl ⟨h, heq⟩
    · exact Or.inr (Or.inr ⟨h, Ne.symm heq⟩)

theorem Before.trans {s t u : Text} (hst : s.Before t) (htu : t.Before u) : s.Before u := by
  refine ⟨le_trans hst.1 htu.1, ?_⟩
  rintro rfl
  exact hst.asymm htu

/-! ## 2. Lists in order -/

variable {α : Type} {key : α → Text} {items items' list list' : List α}

/-- A list of the items, each as often as it is given, with their keys strictly in order. -/
structure Listed (key : α → Text) (items list : List α) : Prop where
  perm : list.Perm items
  ordered : (list.map key).Pairwise Before

/-- **There is one list in order.**  In which order the items are given makes no difference. -/
theorem Listed.unique (h : Listed key items list) (h' : Listed key items' list')
    (hitems : items'.Perm items) : list' = list := by
  have hperm : list'.Perm list := h'.perm.trans (hitems.trans h.perm.symm)
  refine List.Perm.eq_of_pairwise ?_ (List.pairwise_map.mp h'.ordered)
    (List.pairwise_map.mp h.ordered) hperm
  intro a b _ _ hab hba
  exact (hab.asymm hba).elim

/-- A comparison of items that looks at their keys first. -/
structure OrdersBy (key : α → Text) (order : α → α → Bool) : Prop where
  trans : ∀ a b c, order a b = true → order b c = true → order a c = true
  total : ∀ a b, (order a b || order b a) = true
  key_le : ∀ {a b}, order a b = true → le (key a) (key b) = true

/-- Texts may be compared alone. -/
theorem ordersBy_key (key : α → Text) : OrdersBy key fun a b => le (key a) (key b) where
  trans _ _ _ := le_trans
  total a b := Bool.or_eq_true_iff.mpr (le_total (key a) (key b))
  key_le h := h

/-- **Sorting lists the items in order**, if no two of them have the same key. -/
theorem OrdersBy.listed {order : α → α → Bool} (h : OrdersBy key order)
    (hkeys : (items.map key).Nodup) : Listed key items (items.mergeSort order) := by
  have hperm := List.mergeSort_perm items order
  have hle := (List.pairwise_mergeSort h.trans h.total items).imp h.key_le
  have hne : ((items.mergeSort order).map key).Nodup := (hperm.map key).nodup_iff.mpr hkeys
  exact ⟨hperm, (List.pairwise_map.mpr hle).and hne⟩

end Text

end HardwareCounters
