import Mathlib.Data.List.Nodup
import Mathlib.Data.List.Sort
import Mathlib.Order.Defs.LinearOrder

/-!
# Stable sorting by a key, and its first entries

`sortBy key l` is `l` sorted by `key`, entries of one key in their order.

* `head_sortBy` — the sort begins with an entry of the lowest key.
* `sortBy_of_sorted`, `sortBy_of_descending` — a list in order is its own sort, one strictly out of
  order is the reverse of it.
* `sorted_of_descending` — a list in the opposite order whose ends do not differ is in order too.
* `take_keys_of_sorted`, `take_keys_of_descending` — the first `k` keys of a list given in either
  direction are those of the `n ≥ k` entries at its better end.
-/

set_option autoImplicit false

namespace KeySort

variable {α κ : Type*} [LinearOrder κ] (key : α → κ)

/-- The stable sort by `key`, lowest key first. -/
def sortBy (l : List α) : List α := l.mergeSort fun a b => decide (key a ≤ key b)

theorem sortBy_perm (l : List α) : (sortBy key l).Perm l := List.mergeSort_perm l _

@[simp] theorem length_sortBy (l : List α) : (sortBy key l).length = l.length :=
  (sortBy_perm key l).length_eq

theorem sortBy_pairwise (l : List α) : (sortBy key l).Pairwise fun a b => key a ≤ key b := by
  have h : (sortBy key l).Pairwise fun a b => decide (key a ≤ key b) = true := by
    refine List.pairwise_mergeSort ?_ ?_ l
    · intro a b c hab hbc
      exact decide_eq_true ((of_decide_eq_true hab).trans (of_decide_eq_true hbc))
    · intro a b
      simpa using le_total (key a) (key b)
  exact h.imp of_decide_eq_true

variable {key}

/-- The first entry of the sort has the lowest key. -/
theorem head_sortBy {l : List α} {a : α} (h : (sortBy key l).head? = some a) :
    a ∈ l ∧ ∀ b ∈ l, key a ≤ key b := by
  obtain ⟨rest, hsort⟩ := List.head?_eq_some_iff.mp h
  have hmem : ∀ b, b ∈ l ↔ b ∈ a :: rest := fun b => by rw [← hsort, (sortBy_perm key l).mem_iff]
  have hsorted := hsort ▸ sortBy_pairwise key l
  refine ⟨(hmem a).mpr List.mem_cons_self, fun b hb => ?_⟩
  rcases List.mem_cons.mp ((hmem b).mp hb) with rfl | hrest
  · exact le_rfl
  · exact List.rel_of_pairwise_cons hsorted hrest

theorem sortBy_of_sorted {l : List α} (h : l.Pairwise fun a b => key a ≤ key b) : sortBy key l = l :=
  List.mergeSort_of_pairwise (h.imp fun hab => by simpa using hab)

/-- Entries of a strictly descending list are told apart by their keys. -/
theorem eq_of_key_eq {l : List α} (h : l.Pairwise fun a b => key b < key a) {a b : α} (ha : a ∈ l)
    (hb : b ∈ l) (hkey : key a = key b) : a = b := by
  have hnodup : (l.map key).Nodup := List.pairwise_map.mpr (h.imp fun hlt => hlt.ne')
  exact List.inj_on_of_nodup_map hnodup ha hb hkey

theorem sortBy_of_descending {l : List α} (h : l.Pairwise fun a b => key b < key a) :
    sortBy key l = l.reverse := by
  have hperm : (sortBy key l).Perm l.reverse := (sortBy_perm key l).trans (List.reverse_perm l).symm
  refine hperm.eq_of_pairwise ?_ (sortBy_pairwise key l) (List.pairwise_reverse.mpr (h.imp le_of_lt))
  intro a b ha hb hab hba
  rw [(sortBy_perm key l).mem_iff] at ha
  rw [List.mem_reverse] at hb
  exact eq_of_key_eq h ha hb (le_antisymm hab hba)

/-- The first entry of a list in order has a key no higher than the last. -/
theorem head_le_getLast {l : List α} (h : l.Pairwise fun a b => key a ≤ key b) {first last : α}
    (hfirst : l.head? = some first) (hlast : l.getLast? = some last) : key first ≤ key last := by
  obtain ⟨rest, rfl⟩ := List.head?_eq_some_iff.mp hfirst
  rcases List.mem_cons.mp (List.mem_of_getLast? hlast) with rfl | hmem
  · exact le_rfl
  · exact List.rel_of_pairwise_cons h hmem

/-- A descending list whose last key is no lower than its first is in order too. -/
theorem sorted_of_descending {l : List α} (h : l.Pairwise fun a b => key b ≤ key a)
    (hends : ∀ last ∈ l.getLast?, ∀ first ∈ l.head?, key first ≤ key last) :
    l.Pairwise fun a b => key a ≤ key b := by
  cases l with
  | nil => exact .nil
  | cons first rest =>
    have hfirst : ∀ a ∈ first :: rest, key a ≤ key first := by
      intro a ha
      rcases List.mem_cons.mp ha with rfl | hmem
      · exact le_rfl
      · exact List.rel_of_pairwise_cons h hmem
    obtain ⟨front, last, hsplit⟩ := (first :: rest).eq_nil_or_concat.resolve_left (List.cons_ne_nil _ _)
    have hlast : ∀ b ∈ first :: rest, key last ≤ key b := by
      intro b hb
      rw [hsplit, List.concat_eq_append] at hb h
      rcases List.mem_append.mp hb with hmem | hmem
      · exact (List.pairwise_append.mp h).2.2 b hmem last List.mem_cons_self
      · rw [List.mem_singleton.mp hmem]
    have hle : key first ≤ key last := hends last (by rw [hsplit]; simp) first rfl
    exact List.pairwise_of_forall_mem_list fun a ha b hb => (hfirst a ha).trans (hle.trans (hlast b hb))

/-- The keys of the sort are the sorted keys. -/
theorem map_sortBy (l : List α) : (sortBy key l).map key = sortBy id (l.map key) :=
  List.map_mergeSort fun _ _ _ _ => rfl

theorem sortBy_id_of_descending {l : List κ} (h : l.Pairwise fun a b => b ≤ a) :
    sortBy id l = l.reverse := by
  have hperm : (sortBy id l).Perm l.reverse := (sortBy_perm id l).trans (List.reverse_perm l).symm
  exact hperm.eq_of_pairwise (fun a b _ _ => le_antisymm) (sortBy_pairwise id l)
    (List.pairwise_reverse.mpr h)

/-- A list in order has its first keys in its first entries. -/
theorem take_keys_of_sorted {l : List α} (h : l.Pairwise fun a b => key a ≤ key b) {k n : Nat}
    (hk : k ≤ n) :
    ((sortBy key (l.take n)).take k).map key = ((sortBy key l).take k).map key := by
  have htake : (l.take n).Pairwise fun a b => key a ≤ key b := h.sublist (List.take_sublist n l)
  rw [sortBy_of_sorted h, sortBy_of_sorted htake, List.take_take, Nat.min_eq_left hk]

/-- A list in the opposite order has them in its last. -/
theorem take_keys_of_descending {l : List α} (h : l.Pairwise fun a b => key b ≤ key a) {k n : Nat}
    (hk : k ≤ n) :
    ((sortBy key (l.drop (l.length - n))).take k).map key = ((sortBy key l).take k).map key := by
  have hkeys : (l.map key).Pairwise fun a b => b ≤ a := List.pairwise_map.mpr h
  have hlast : ((l.drop (l.length - n)).map key).Pairwise fun a b => b ≤ a :=
    hkeys.sublist ((List.drop_sublist _ l).map key)
  rw [List.map_take, List.map_take, map_sortBy, map_sortBy, sortBy_id_of_descending hkeys,
    sortBy_id_of_descending hlast, List.map_drop, ← List.length_map key, ← List.take_reverse, List.take_take,
    Nat.min_eq_left hk]

end KeySort
