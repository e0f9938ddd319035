import Mathlib.Algebra.BigOperators.Group.List.Basic
import Mathlib.Algebra.Order.BigOperators.Group.Finset

/-!
# Growing ledgers that are read late

A source only grows.  A poller asks for its value, is answered with the value of some instant in
between and publishes the answer later, one reading after the other; a version counts the
publications.

* `Lags` — the published reading and the one in hand are earlier values of the source.
* `Awaits` — what holds of the source from now on holds of the second publication from now on,
  since only the reading in hand can be older; and of the first one, if the reading in hand
  satisfies it or is not taken yet.
* `sum_le_of_charged` — a sum over entries with distinct keys is at most the sum of what the
  entries are charged to.
-/

set_option autoImplicit false

namespace Ledger

variable {α : Type*}

/-- Between two polls, asked and not answered, or answered and not published. -/
inductive Poller (α : Type*) where
  | idle
  | querying
  | sampled (a : α)

/-- The reading in hand, if there is one, satisfies `P`. -/
def Poller.InHand (poller : Poller α) (P : α → Prop) : Prop :=
  match poller with
  | .sampled a => P a
  | .idle | .querying => True

instance (poller : Poller α) (P : α → Prop) [DecidablePred P] : Decidable (poller.InHand P) :=
  match poller with
  | .sampled a => inferInstanceAs (Decidable (P a))
  | .idle | .querying => .isTrue trivial

/-! ## Earlier values -/

/-- The published reading and the one in hand are values the source has grown through. -/
structure Lags [Preorder α] (source published : α) (poller : Poller α) : Prop where
  le_source : published ≤ source
  inHand : poller.InHand fun a => published ≤ a ∧ a ≤ source

namespace Lags

variable [Preorder α] {source source' published a : α} {poller poller' : Poller α}

theorem start (a : α) : Lags a a .idle := ⟨le_rfl, trivial⟩

theorem grow (h : Lags source published poller) (hle : source ≤ source') :
    Lags source' published poller := by
  refine ⟨h.le_source.trans hle, ?_⟩
  have hhand := h.inHand
  cases poller with
  | sampled a => exact ⟨hhand.1, hhand.2.trans hle⟩
  | idle | querying => trivial

/-- Asking again, or giving a poll up, leaves no reading in hand. -/
theorem drop (h : Lags source published poller) (hp : ∀ P, poller'.InHand P) :
    Lags source published poller' := ⟨h.le_source, hp _⟩

theorem sample (h : Lags source published poller) : Lags source published (.sampled source) :=
  ⟨h.le_source, h.le_source, le_rfl⟩

theorem publish (h : Lags source published (.sampled a)) : Lags source a .idle :=
  ⟨h.inHand.2, trivial⟩

end Lags

/-! ## The second publication -/

/-- With `version` publications made, the one numbered `required` will satisfy `P` if the source
    satisfies it from now on. -/
def Awaits (P : α → Prop) (required version : Nat) (poller : Poller α) : Prop :=
  version + 2 ≤ required ∨ version + 1 ≤ required ∧ poller.InHand P

instance (P : α → Prop) [DecidablePred P] (required version : Nat) (poller : Poller α) :
    Decidable (Awaits P required version poller) := inferInstanceAs (Decidable (_ ∨ _))

namespace Awaits

variable {P : α → Prop} {required required' version : Nat} {poller poller' : Poller α} {a : α}

theorem lt (h : Awaits P required version poller) : version < required := by
  rcases h with h | ⟨h, _⟩ <;> omega

theorem mono (h : Awaits P required version poller) (hle : required ≤ required') :
    Awaits P required' version poller := by
  rcases h with h | ⟨h, hhand⟩
  · exact Or.inl (h.trans hle)
  · exact Or.inr ⟨h.trans hle, hhand⟩

theorem drop (h : Awaits P required version poller) (hp : ∀ Q, poller'.InHand Q) :
    Awaits P required version poller' := by
  rcases h with h | ⟨h, _⟩
  · exact Or.inl h
  · exact Or.inr ⟨h, hp P⟩

/-- A reading taken now satisfies what the source satisfies. -/
theorem sample (h : Awaits P required version poller) (ha : P a) :
    Awaits P required version (.sampled a) := by
  rcases h with h | ⟨h, _⟩
  · exact Or.inl h
  · exact Or.inr ⟨h, ha⟩

/-- A publication brings the awaited reading, or the next one does. -/
theorem publish (h : Awaits P required version (.sampled a)) :
    P a ∨ Awaits P required (version + 1) .idle := by
  rcases h with h | ⟨_, hhand⟩
  · exact Or.inr (Or.inr ⟨h, trivial⟩)
  · exact Or.inl hhand

end Awaits

/-! ## Charging -/

/-- Each entry is at most zero or is charged to a place of `S` that its key owns and that is
    large enough; no two entries share a key, so no place is charged twice. -/
theorem sum_le_of_charged {ι κ M : Type*} [AddCommMonoid M] [PartialOrder M] [IsOrderedAddMonoid M]
    [DecidableEq ι] {key : α → κ} (owner : ι → Option κ) {f : α → M} {g : ι → M}
    (hg : ∀ i, 0 ≤ g i) {entries : List α} (hkeys : (entries.map key).Nodup) {S : Finset ι}
    (h : ∀ a ∈ entries, f a ≤ 0 ∨ ∃ i ∈ S, owner i = some (key a) ∧ f a ≤ g i) :
    (entries.map f).sum ≤ ∑ i ∈ S, g i := by
  induction entries generalizing S with
  | nil => exact Finset.sum_nonneg fun i _ => hg i
  | cons a entries ih =>
    rw [List.map_cons, List.nodup_cons] at hkeys
    rw [List.map_cons, List.sum_cons]
    rcases h a List.mem_cons_self with hzero | ⟨i, hi, howner, hle⟩
    · have hrest := ih hkeys.2 fun b hb => h b (List.mem_cons_of_mem a hb)
      calc f a + (entries.map f).sum ≤ 0 + ∑ i ∈ S, g i := add_le_add hzero hrest
        _ = ∑ i ∈ S, g i := zero_add _
    · -- the place of `a` is not available to the other entries
      have hrest := ih hkeys.2 (S := S.erase i) fun b hb => by
        rcases h b (List.mem_cons_of_mem a hb) with hzero | ⟨j, hj, hother, hle⟩
        · exact Or.inl hzero
        · refine Or.inr ⟨j, Finset.mem_erase.mpr ⟨?_, hj⟩, hother, hle⟩
          rintro rfl
          have hkey : key a = key b := Option.some.inj (howner.symm.trans hother)
          exact hkeys.1 (hkey ▸ List.mem_map_of_mem hb)
      calc f a + (entries.map f).sum ≤ g i + ∑ j ∈ S.erase i, g j := add_le_add hle hrest
        _ = ∑ j ∈ S, g j := Finset.add_sum_erase S g hi

end Ledger
