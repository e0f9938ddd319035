import Mathlib.Data.List.Basic
import Mathlib.Data.List.Nodup
import Mathlib.Data.List.TakeWhile

/-!
# Loops whose visits write their own place

A loop visits indices one after the other; a visit turns the state into the next one and may emit
something.  If a visit leaves what is stored at every other index alone (`Local`) and no index comes
twice, the loop can be read index by index:

* `get_before` — an index is visited as the loop found it.
* `get_after`, `emissions_at` — what is stored and emitted at an index is what its visit did.
* `after_counted` — what every visit preserves, counted by the visits, the loop preserves.
* `after_of_visited` — the same from the visit of one index on.
-/

set_option autoImplicit false

namespace Visits

variable {σ ι δ α : Type*} (visit : σ → ι → σ × Option δ)

/-- The state after visiting the indices in turn. -/
def after : σ → List ι → σ
  | s, [] => s
  | s, i :: is => after (visit s i).1 is

/-- What the visits emit, each with its index. -/
def emissions : σ → List ι → List (ι × δ)
  | _, [] => []
  | s, i :: is => (visit s i).2.toList.map (i, ·) ++ emissions (visit s i).1 is

/-- A visit leaves what is stored at the other indices alone. -/
def Local (get : σ → ι → α) : Prop := ∀ s i j, j ≠ i → get (visit s i).1 j = get s j

theorem after_append (s : σ) (is js : List ι) :
    after visit s (is ++ js) = after visit (after visit s is) js := by
  induction is generalizing s with
  | nil => rfl
  | cons i is ih => exact ih _

variable {visit}

/-- What every visit preserves, the loop preserves; the count is the number of visits. -/
theorem after_counted {I : Nat → σ → Prop} (is : List ι)
    (hvisit : ∀ n s, ∀ i ∈ is, I n s → I (n + 1) (visit s i).1) {n : Nat} {s : σ} (hs : I n s) :
    I (n + is.length) (after visit s is) := by
  induction is generalizing n s with
  | nil => exact hs
  | cons i is ih =>
    have := ih (fun n s j hj => hvisit n s j (List.mem_cons_of_mem i hj)) (hvisit n s i List.mem_cons_self hs)
    rwa [Nat.add_right_comm] at this

theorem after_invariant {I : σ → Prop} (is : List ι) (hvisit : ∀ s, ∀ i ∈ is, I s → I (visit s i).1)
    {s : σ} (hs : I s) : I (after visit s is) :=
  after_counted (I := fun _ => I) is (fun _ => hvisit) (n := 0) hs

theorem emissions_append (s : σ) (is js : List ι) :
    emissions visit s (is ++ js) = emissions visit s is ++ emissions visit (after visit s is) js := by
  induction is generalizing s with
  | nil => rfl
  | cons i is ih => simp only [List.cons_append, emissions, after, ih, List.append_assoc]

/-- An index emits at its own turn. -/
theorem emissions_indices (s : σ) (is : List ι) : ((emissions visit s is).map Prod.fst).Sublist is := by
  induction is generalizing s with
  | nil => exact .slnil
  | cons i is ih =>
    rw [emissions, List.map_append]
    cases (visit s i).2 with
    | none => exact (ih _).cons i
    | some d => exact (ih _).cons_cons i

section Places

variable {get : σ → ι → α}

theorem get_after_of_not_mem (hlocal : Local visit get) {is : List ι} {i : ι} (hi : i ∉ is) (s : σ) :
    get (after visit s is) i = get s i := by
  induction is generalizing s with
  | nil => rfl
  | cons j is ih =>
    obtain ⟨hne, hrest⟩ := not_or.mp (mt List.mem_cons.mpr hi)
    exact (ih hrest _).trans (hlocal s j i hne)

theorem emissions_of_not_mem [DecidableEq ι] {is : List ι} {i : ι} (hi : i ∉ is) (s : σ) :
    (emissions visit s is).filter (fun e => decide (e.1 = i)) = [] := by
  induction is generalizing s with
  | nil => rfl
  | cons j is ih =>
    obtain ⟨hne, hrest⟩ := not_or.mp (mt List.mem_cons.mpr hi)
    rw [emissions, List.filter_append, ih hrest]
    cases (visit s j).2 with
    | none => rfl
    | some d => simp [Ne.symm hne]

variable [DecidableEq ι]

/-- The state in which an index is visited. -/
def before (visit : σ → ι → σ × Option δ) (s : σ) (is : List ι) (i : ι) : σ :=
  after visit s (is.takeWhile fun j => decide (j ≠ i))

theorem not_mem_earlier (is : List ι) (i : ι) : i ∉ is.takeWhile fun j => decide (j ≠ i) := by
  intro hmem
  have := List.mem_takeWhile_imp hmem
  simp at this

theorem before_invariant {I : σ → Prop} (is : List ι) (hvisit : ∀ s, ∀ i ∈ is, I s → I (visit s i).1)
    {s : σ} (hs : I s) (i : ι) : I (before visit s is i) :=
  after_invariant _ (fun s j hj => hvisit s j ((List.takeWhile_subset _) hj)) hs

theorem get_before (hlocal : Local visit get) (s : σ) (is : List ι) (i : ι) :
    get (before visit s is i) i = get s i :=
  get_after_of_not_mem hlocal (not_mem_earlier is i) s

/-- A loop over indices without repetition splits at each of them. -/
theorem split_at {is : List ι} {i : ι} (hnodup : is.Nodup) (hi : i ∈ is) :
    ∃ js, is = is.takeWhile (fun j => decide (j ≠ i)) ++ i :: js ∧ i ∉ js := by
  induction is with
  | nil => cases hi
  | cons j is ih =>
    obtain ⟨hj, hrest⟩ := List.nodup_cons.mp hnodup
    by_cases hji : j = i
    · subst hji
      exact ⟨is, by simp, hj⟩
    · obtain ⟨js, hsplit, hnot⟩ := ih hrest ((List.mem_cons.mp hi).resolve_left (Ne.symm hji))
      refine ⟨js, ?_, hnot⟩
      rw [List.takeWhile_cons_of_pos (by simpa using hji), List.cons_append, ← hsplit]

/-- What holds once an index has been visited, and is preserved by the visits of the others, holds after
    the loop. -/
theorem after_of_visited {I : σ → Prop} {is : List ι} {i : ι} (hnodup : is.Nodup) (hi : i ∈ is)
    (hvisit : ∀ s j, j ≠ i → I s → I (visit s j).1) {s : σ}
    (hs : I (visit (before visit s is i) i).1) : I (after visit s is) := by
  obtain ⟨js, hsplit, hnot⟩ := split_at hnodup hi
  have hrun : after visit s is = after visit (visit (before visit s is i) i).1 js := by
    conv_lhs => rw [hsplit]
    rw [after_append]
    rfl
  rw [hrun]
  exact after_invariant js (fun s' j hj => hvisit s' j fun heq => hnot (heq ▸ hj)) hs

/-- What is stored at an index is what its visit leaves there. -/
theorem get_after (hlocal : Local visit get) {is : List ι} {i : ι} (hnodup : is.Nodup) (hi : i ∈ is)
    (s : σ) :
    get (after visit s is) i = get (visit (before visit s is i) i).1 i :=
  after_of_visited (I := fun s' => get s' i = get (visit (before visit s is i) i).1 i) hnodup hi
    (fun s' j hj h => (hlocal s' j i hj.symm).trans h) rfl

/-- What is emitted at an index is what its visit emits. -/
theorem emissions_at {is : List ι} {i : ι} (hnodup : is.Nodup) (hi : i ∈ is) (s : σ) :
    (emissions visit s is).filter (fun e => decide (e.1 = i)) =
      (visit (before visit s is i) i).2.toList.map (i, ·) := by
  obtain ⟨js, hsplit, hnot⟩ := split_at hnodup hi
  have hrun : emissions visit s is = emissions visit s (is.takeWhile fun j => decide (j ≠ i)) ++
      ((visit (before visit s is i) i).2.toList.map (i, ·) ++
        emissions visit (visit (before visit s is i) i).1 js) := by
    conv_lhs => rw [hsplit]
    rw [emissions_append]
    rfl
  rw [hrun, List.filter_append, List.filter_append, emissions_of_not_mem (not_mem_earlier is i),
    emissions_of_not_mem hnot, List.nil_append, List.append_nil]
  cases (visit (before visit s is i) i).2 with
  | none => rfl
  | some d => simp

end Places

end Visits
