import PaperBoxing.Lib.Tables

/-! # Sums over the rows of a table

The rows of a table as a finite set, so that what an aggregate ranges over can be split.

* `rows_filter`: the rows a filter keeps;
* `total_eq_sum_rows`, `size_eq_card`, `newest_eq_sup`: the aggregates of a table over its rows. -/

namespace PaperBoxing.Lib.Tables

open Std

variable {K V : Type} [Ord K] [TransOrd K]

theorem toList_nodup (t : Table K V) : t.toList.Nodup := by
  have hkeys : (t.toList.map Prod.fst).Nodup := by
    rw [ExtTreeMap.map_fst_toList_eq_keys]
    exact ExtTreeMap.nodup_keys
  exact List.Pairwise.of_map Prod.fst (fun _ _ hne he => hne (congrArg Prod.fst he)) hkeys

variable [DecidableEq K] [DecidableEq V]

/-- **The rows of a table.** -/
def rows (t : Table K V) : Finset (K × V) := t.toList.toFinset

@[simp] theorem mem_rows [LawfulEqOrd K] {t : Table K V} {r : K × V} : r ∈ rows t ↔ t[r.1]? = some r.2 := by
  rw [rows, List.mem_toFinset]
  exact mem_toList

theorem rows_filter [LawfulEqOrd K] (t : Table K V) (p : K → Bool) :
    rows (t.filter fun k _ => p k) = (rows t).filter fun r => p r.1 = true := by
  ext ⟨k, v⟩
  rw [mem_rows, Finset.mem_filter, mem_rows, get_filter_key]
  split_ifs with h
  · simp [h]
  · simp [h]

theorem total_eq_sum_rows (f : K → V → ℕ) (t : Table K V) :
    total f t = ∑ r ∈ rows t, f r.1 r.2 := by
  rw [total, rows, List.sum_toFinset _ (toList_nodup t)]

theorem size_eq_card (t : Table K V) : t.size = (rows t).card := by
  rw [rows, List.toFinset_card_of_nodup (toList_nodup t), ExtTreeMap.length_toList]

/-- The greatest of a list of numbers, `⊥` when there is none. -/
theorem max?_eq_sup {A : Type} [DecidableEq A] (f : A → ℕ) (l : List A) :
    ((l.map f).max? : WithBot ℕ) = l.toFinset.sup fun a => (f a : WithBot ℕ) := by
  induction l with
  | nil => rfl
  | cons a l ih =>
    rw [List.toFinset_cons, Finset.sup_insert, ← ih, List.map_cons, List.max?_cons]
    rcases (l.map f).max? with _ | m
    · change ((f a : ℕ) : WithBot ℕ) = ((f a : ℕ) : WithBot ℕ) ⊔ ⊥
      rw [sup_bot_eq]
    · exact WithBot.coe_max (f a) m

theorem newest_eq_sup (f : K × V → ℕ) (t : Table K V) :
    ((t.toList.map f).max? : WithBot ℕ) = (rows t).sup fun r => (f r : WithBot ℕ) := by
  rw [rows, max?_eq_sup]

end PaperBoxing.Lib.Tables
