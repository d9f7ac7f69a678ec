import Mathlib

/-! # Tables: finite maps with ordered keys

`Table K V` is the standard library's extensional tree map: two tables with the same rows are equal,
and the rows are listed in the order of their keys. The lemmas here state its look-ups with `=` in
place of `compare`, and its sums.

* `get_insert`, `get_erase`, `get_filter`, `get_map`: what a look-up sees after each operation;
* `find_eq_some`: what a search by another column finds;
* `get_rekey`: what it sees when rows are moved to other keys;
* `rows_congr`, `selected_congr`, `total_congr`: lists and sums over two tables agree when their rows agree
  key by key;
* `total_eq_sum`: a sum over a table is a sum over any list of its rows. -/

namespace PaperBoxing.Lib.Tables

open Std

/-- **A table**: at most one value under each key. -/
abbrev Table (K V : Type) [Ord K] : Type := ExtTreeMap K V compare

variable {K V U : Type} [Ord K] [TransOrd K]

@[simp] theorem get_empty (a : K) : (∅ : Table K V)[a]? = none := ExtTreeMap.getElem?_empty

@[simp] theorem get_insert_self (t : Table K V) (k : K) (v : V) : (t.insert k v)[k]? = some v :=
  ExtTreeMap.getElem?_insert_self

@[simp] theorem get_erase_self (t : Table K V) (k : K) : (t.erase k)[k]? = none :=
  ExtTreeMap.getElem?_erase_self

section LawfulEq
variable [LawfulEqOrd K]

theorem get_insert [DecidableEq K] (t : Table K V) (k a : K) (v : V) :
    (t.insert k v)[a]? = if a = k then some v else t[a]? := by
  rw [ExtTreeMap.getElem?_insert]
  exact if_congr (compare_eq_iff_eq.trans eq_comm) rfl rfl

theorem get_insert_of_ne {t : Table K V} {k a : K} {v : V} (h : a ≠ k) :
    (t.insert k v)[a]? = t[a]? := by
  classical
  rw [get_insert, if_neg h]

theorem get_erase [DecidableEq K] (t : Table K V) (k a : K) :
    (t.erase k)[a]? = if a = k then none else t[a]? := by
  rw [ExtTreeMap.getElem?_erase]
  exact if_congr (compare_eq_iff_eq.trans eq_comm) rfl rfl

theorem get_erase_of_ne {t : Table K V} {k a : K} (h : a ≠ k) : (t.erase k)[a]? = t[a]? := by
  classical
  rw [get_erase, if_neg h]

theorem get_filter (t : Table K V) (f : K → V → Bool) (a : K) :
    (t.filter f)[a]? = t[a]?.filter (f a) := ExtTreeMap.getElem?_filter'

theorem get_map (t : Table K V) (f : K → V → U) (a : K) : (t.map f)[a]? = t[a]?.map (f a) :=
  ExtTreeMap.getElem?_map

/-- A look-up in the rows whose keys pass a test. -/
theorem get_filter_key (t : Table K V) (p : K → Bool) (a : K) :
    (t.filter fun k _ => p k)[a]? = if p a = true then t[a]? else none := by
  rw [get_filter]
  rcases t[a]? with _ | v <;> cases p a <;> simp

theorem isEmpty_iff_get {t : Table K V} : t.isEmpty = true ↔ ∀ a : K, t[a]? = none := by
  rw [ExtTreeMap.isEmpty_iff]
  constructor
  · rintro rfl a
    exact get_empty a
  · exact fun h => ExtTreeMap.ext_getElem? fun a => (h a).trans (get_empty a).symm

/-- A table with a row is not empty. -/
theorem size_pos {t : Table K V} {a : K} {v : V} (h : t[a]? = some v) : 0 < t.size := by
  by_contra h0
  have hempty : t.isEmpty = true := by
    rw [ExtTreeMap.isEmpty_eq_size_beq_zero, beq_iff_eq]
    omega
  rw [isEmpty_iff_get.1 hempty a] at h
  cases h

/-- **Two tables with the same rows are equal.** -/
theorem ext {t t' : Table K V} (h : ∀ a : K, t[a]? = t'[a]?) : t = t' := ExtTreeMap.ext_getElem? h

theorem mem_toList {t : Table K V} {a : K} {v : V} : (a, v) ∈ t.toList ↔ t[a]? = some v :=
  ExtTreeMap.mem_toList_iff_getElem?_eq_some

theorem mem_keys {t : Table K V} {a : K} : a ∈ t.keys ↔ ∃ v, t[a]? = some v := by
  rw [ExtTreeMap.mem_keys, ExtTreeMap.mem_iff_isSome_getElem?, Option.isSome_iff_exists]

theorem insert_of_some {t : Table K V} {k : K} {v : V} (h : t[k]? = some v) : t.insert k v = t := by
  classical
  refine ext fun a => ?_
  rw [get_insert]
  split_ifs with hk
  · rw [hk, h]
  · rfl

/-! ### Searches -/

/-- **A search finds the row that satisfies the test**, when at most one does. -/
theorem find_eq_some {t : Table K V} {p : K × V → Bool}
    (hp : ∀ (k k' : K) (v v' : V), t[k]? = some v → t[k']? = some v' → p (k, v) = true →
      p (k', v') = true → k = k') {k : K} {v : V} :
    t.toList.find? p = some (k, v) ↔ t[k]? = some v ∧ p (k, v) = true := by
  constructor
  · intro h
    exact ⟨mem_toList.1 (List.mem_of_find?_eq_some h), List.find?_some h⟩
  · rintro ⟨hv, hpv⟩
    rcases hf : t.toList.find? p with _ | ⟨k', v'⟩
    · exact absurd hpv (List.find?_eq_none.1 hf _ (mem_toList.2 hv))
    · have hv' := mem_toList.1 (List.mem_of_find?_eq_some hf)
      obtain rfl := hp k k' v v' hv hv' hpv (List.find?_some hf)
      rw [hv] at hv'
      rw [Option.some.inj hv']

theorem find_eq_none {t : Table K V} {p : K × V → Bool} :
    t.toList.find? p = none ↔ ∀ (k : K) (v : V), t[k]? = some v → p (k, v) = false := by
  rw [List.find?_eq_none]
  constructor
  · exact fun h k v hv => Bool.not_eq_true _ ▸ h (k, v) (mem_toList.2 hv)
  · rintro h ⟨k, v⟩ hm
    rw [h k v (mem_toList.1 hm)]
    exact Bool.false_ne_true

/-! ### Moving rows to other keys -/

/-- The table of a list of rows. -/
def ofRows (rows : List (K × V)) : Table K V := rows.foldr (fun r t => t.insert r.1 r.2) ∅

theorem get_ofRows : ∀ {rows : List (K × V)},
    (∀ k v v', (k, v) ∈ rows → (k, v') ∈ rows → v = v') → ∀ {k : K} {v : V},
      (ofRows rows)[k]? = some v ↔ (k, v) ∈ rows
  | [], _, k, v => by simp [ofRows]
  | (k', v') :: rows, h, k, v => by
    classical
    have ih : (ofRows rows)[k]? = some v ↔ (k, v) ∈ rows := get_ofRows fun k v v' h1 h2 =>
      h k v v' (List.mem_cons_of_mem _ h1) (List.mem_cons_of_mem _ h2)
    rw [ofRows, List.foldr_cons, get_insert]
    split_ifs with hk
    · subst hk
      constructor
      · rintro ⟨⟩
        exact List.mem_cons_self
      · intro hm
        rw [h k v v' hm List.mem_cons_self]
    · rw [List.mem_cons, Prod.mk.injEq]
      exact ih.trans (by simp [hk])

/-- The rows of a table under other keys; a row without a new key is dropped. -/
def rekey (f : K → Option K) (t : Table K V) : Table K V :=
  ofRows (t.toList.filterMap fun r => (f r.1).map fun k => (k, r.2))

/-- **Moved rows are found under their new keys**, when no two rows share one. -/
theorem get_rekey {f : K → Option K} (hf : ∀ k k' a, f k = some a → f k' = some a → k = k')
    (t : Table K V) {a : K} {v : V} :
    (rekey f t)[a]? = some v ↔ ∃ k, f k = some a ∧ t[k]? = some v := by
  have hmem : ∀ a v, (a, v) ∈ t.toList.filterMap (fun r => (f r.1).map fun k => (k, r.2)) ↔
      ∃ k, f k = some a ∧ t[k]? = some v := by
    intro a v
    simp only [List.mem_filterMap, Option.map_eq_some_iff, Prod.mk.injEq, Prod.exists, mem_toList]
    constructor
    · rintro ⟨k, v', hv, k', hk, rfl, rfl⟩
      exact ⟨k, hk, hv⟩
    · rintro ⟨k, hk, hv⟩
      exact ⟨k, v, hv, a, hk, rfl, rfl⟩
  rw [rekey, get_ofRows _, hmem]
  intro k v v' h1 h2
  obtain ⟨k1, hk1, hv1⟩ := (hmem _ _).1 h1
  obtain ⟨k2, hk2, hv2⟩ := (hmem _ _).1 h2
  rw [hf k1 k2 k hk1 hk2, hv2] at hv1
  exact (Option.some.inj hv1).symm

end LawfulEq

/-! ### Rows and sums -/

/-- **Lists of rows agree when the rows agree key by key.** -/
theorem rows_congr {A : Type} [LawfulEqOrd K] {t : Table K V} {t' : Table K U} {f : K → V → A}
    {g : K → U → A} (h : ∀ a : K, t[a]?.map (f a) = t'[a]?.map (g a)) :
    t.toList.map (fun r => f r.1 r.2) = t'.toList.map fun r => g r.1 r.2 := by
  have heq : t.map f = t'.map g := ext fun a => by rw [get_map, get_map, h]
  have hrows : (t.map f).toList.map Prod.snd = (t'.map g).toList.map Prod.snd := by rw [heq]
  rw [ExtTreeMap.toList_map, ExtTreeMap.toList_map, List.map_map, List.map_map] at hrows
  exact hrows

/-- **Lists of selected rows agree when what is selected agrees key by key.** -/
theorem selected_congr {A : Type} [LawfulEqOrd K] {t : Table K V} {t' : Table K U} {f : K → V → Option A}
    {g : K → U → Option A} (h : ∀ a : K, (t[a]?.bind (f a)) = t'[a]?.bind (g a)) :
    t.toList.filterMap (fun r => f r.1 r.2) = t'.toList.filterMap fun r => g r.1 r.2 := by
  have heq : t.filterMap f = t'.filterMap g := ext fun a => by
    rw [ExtTreeMap.getElem?_filterMap', ExtTreeMap.getElem?_filterMap', h]
  have hrows : (t.filterMap f).toList.map Prod.snd = (t'.filterMap g).toList.map Prod.snd := by rw [heq]
  rw [ExtTreeMap.toList_filterMap, ExtTreeMap.toList_filterMap, List.map_filterMap,
    List.map_filterMap] at hrows
  simpa only [Option.map_map, Function.comp_def, Option.map_id'] using hrows

/-- The sum of a measure over the rows. -/
def total (f : K → V → ℕ) (t : Table K V) : ℕ := (t.toList.map fun r => f r.1 r.2).sum

/-- **Sums agree when the summands agree key by key.** -/
theorem total_congr [LawfulEqOrd K] {t : Table K V} {t' : Table K U} {f : K → V → ℕ} {g : K → U → ℕ}
    (h : ∀ a : K, t[a]?.map (f a) = t'[a]?.map (g a)) : total f t = total g t' :=
  congrArg List.sum (rows_congr h)

/-- **The rows of a table** are those of any list of them with no key twice. -/
theorem perm_toList [LawfulEqOrd K] {t : Table K V} {l : List (K × V)} (hl : (l.map Prod.fst).Nodup)
    (h : ∀ a v, (a, v) ∈ l ↔ t[a]? = some v) : t.toList.Perm l := by
  have hkeys : (t.toList.map Prod.fst).Nodup := by
    rw [ExtTreeMap.map_fst_toList_eq_keys]
    exact ExtTreeMap.nodup_keys
  have hnodup : ∀ {l : List (K × V)}, (l.map Prod.fst).Nodup → l.Nodup := fun h =>
    List.Pairwise.of_map Prod.fst (fun _ _ hne he => hne (congrArg Prod.fst he)) h
  refine (List.perm_ext_iff_of_nodup (hnodup hkeys) (hnodup hl)).2 ?_
  rintro ⟨a, v⟩
  rw [mem_toList, h]

/-- The sum of a measure is that of any list of its values with no key twice. -/
theorem total_eq_sum [LawfulEqOrd K] {t : Table K V} {f : K → V → ℕ} {l : List (K × ℕ)}
    (hl : (l.map Prod.fst).Nodup) (h : ∀ a n, (a, n) ∈ l ↔ t[a]?.map (f a) = some n) :
    t.size = l.length ∧ total f t = (l.map Prod.snd).sum := by
  have hperm : (t.map f).toList.Perm l := perm_toList hl fun a n => by rw [h, get_map]
  rw [ExtTreeMap.toList_map] at hperm
  constructor
  · rw [← hperm.length_eq, List.length_map, ExtTreeMap.length_toList]
  · rw [← (hperm.map Prod.snd).sum_nat, List.map_map]
    rfl

theorem size_eq_total (t : Table K V) : t.size = total (fun _ _ => 1) t := by
  rw [total, List.map_const', List.sum_replicate_nat, ExtTreeMap.length_toList, Nat.mul_one]

end PaperBoxing.Lib.Tables
