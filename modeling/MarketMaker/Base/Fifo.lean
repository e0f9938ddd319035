import MarketMaker.Base.Run

/-!
# First in, first out

A queue inside a state machine: some events take its oldest entry, the others append.

* `exec_drop` — after no more pops than there were entries, the entries left are the later ones.
* `exec_popped` — the entry at position `i` is the one the pop after `i` others finds in front.
* `exec_head`, `popped_or_left` — a pop that early finds no other, and what is not popped is left.
-/

set_option autoImplicit false

namespace Fifo

open Runs

variable {σ ε α : Type*} {step : σ → ε → Option σ} {queue : σ → List α} {pops : ε → Bool}

/-- The queue moves by pops at the front and additions at the back only. -/
structure Discipline (step : σ → ε → Option σ) (queue : σ → List α) (pops : ε → Bool) : Prop where
  pop : ∀ s e s', step s e = some s' → pops e = true → queue s' = (queue s).tail
  push : ∀ s e s', step s e = some s' → pops e = false → ∃ added, queue s' = queue s ++ added

theorem Discipline.exec_drop (h : Discipline step queue pops) {s s' : σ} {es : List ε}
    (hrun : exec step s es = some s') (hle : es.countP pops ≤ (queue s).length) :
    ∃ added, queue s' = (queue s).drop (es.countP pops) ++ added := by
  induction es generalizing s with
  | nil =>
    obtain rfl : s = s' := Option.some.inj hrun
    exact ⟨[], by simp⟩
  | cons e es ih =>
    obtain ⟨t, hstep, hrest⟩ := exec_cons_some hrun
    rw [List.countP_cons] at hle ⊢
    cases hpop : pops e with
    | true =>
      have htail := h.pop s e t hstep hpop
      rw [hpop, if_pos rfl] at hle
      rw [if_pos rfl]
      obtain ⟨added, hadded⟩ := ih hrest (by rw [htail, List.length_tail]; omega)
      refine ⟨added, ?_⟩
      rw [hadded, htail, List.drop_tail]
    | false =>
      obtain ⟨new, hnew⟩ := h.push s e t hstep hpop
      rw [hpop] at hle
      simp only [Bool.false_eq_true, if_false, Nat.add_zero] at hle ⊢
      obtain ⟨added, hadded⟩ := ih hrest (by rw [hnew, List.length_append]; omega)
      refine ⟨new ++ added, ?_⟩
      rw [hadded, hnew, List.drop_append_of_le_length hle, List.append_assoc]

/-- Every entry has its turn. -/
theorem Discipline.exec_popped (h : Discipline step queue pops) {s s' : σ} {es : List ε} {i : Nat}
    {x : α} (hrun : exec step s es = some s') (hx : (queue s)[i]? = some x)
    (hi : i < es.countP pops) :
    ∃ before e after t, es = before ++ e :: after ∧ exec step s before = some t ∧ pops e = true ∧
      (queue t).head? = some x := by
  induction es generalizing s i with
  | nil => cases hi
  | cons e es ih =>
    obtain ⟨t, hstep, hrest⟩ := exec_cons_some hrun
    have later : ∀ {j}, (queue t)[j]? = some x → j < es.countP pops →
        ∃ before e' after u, e :: es = before ++ e' :: after ∧ exec step s before = some u ∧
          pops e' = true ∧ (queue u).head? = some x := by
      intro j hj hlt
      obtain ⟨before, e', after, u, rfl, hbefore, hpop, hhead⟩ := ih hrest hj hlt
      exact ⟨e :: before, e', after, u, rfl, by rw [exec_cons, hstep]; exact hbefore, hpop, hhead⟩
    rw [List.countP_cons] at hi
    cases hpop : pops e with
    | true =>
      rw [hpop, if_pos rfl] at hi
      cases i with
      | zero => exact ⟨[], e, es, s, rfl, rfl, hpop, by rw [List.head?_eq_getElem?, hx]⟩
      | succ i =>
        refine later (j := i) ?_ (by omega)
        rw [h.pop s e t hstep hpop, List.getElem?_tail, hx]
    | false =>
      obtain ⟨added, hadded⟩ := h.push s e t hstep hpop
      rw [hpop] at hi
      simp only [Bool.false_eq_true, if_false, Nat.add_zero] at hi
      refine later (j := i) ?_ hi
      rw [hadded, List.getElem?_append_left (List.getElem?_eq_some_iff.mp hx).1, hx]

/-- After fewer pops than there were entries, the one at that position is in front. -/
theorem Discipline.exec_head (h : Discipline step queue pops) {s t : σ} {before : List ε}
    (hbefore : exec step s before = some t) (hlt : before.countP pops < (queue s).length) :
    (queue t).head? = (queue s)[before.countP pops]? := by
  obtain ⟨added, hadded⟩ := h.exec_drop hbefore (Nat.le_of_lt hlt)
  rw [hadded, List.head?_append, List.head?_drop, List.getElem?_eq_getElem hlt, Option.some_or]

/-- An entry is popped by the end of a run, or still in the queue. -/
theorem Discipline.popped_or_left (h : Discipline step queue pops) {s s' : σ} {es : List ε} {x : α}
    (hrun : exec step s es = some s') (hx : x ∈ queue s) :
    (∃ before e after t, es = before ++ e :: after ∧ exec step s before = some t ∧ pops e = true ∧
      (queue t).head? = some x) ∨ x ∈ queue s' := by
  obtain ⟨i, hi⟩ := List.mem_iff_getElem?.mp hx
  rcases Nat.lt_or_ge i (es.countP pops) with hpopped | hleft
  · exact .inl (h.exec_popped hrun hi hpopped)
  · have hlt : i < (queue s).length := (List.getElem?_eq_some_iff.mp hi).1
    obtain ⟨added, hadded⟩ := h.exec_drop hrun (by omega)
    refine .inr (hadded ▸ List.mem_append_left added (List.mem_iff_getElem?.mpr ⟨i - es.countP pops, ?_⟩))
    rw [List.getElem?_drop, Nat.add_sub_cancel' hleft, hi]

end Fifo
