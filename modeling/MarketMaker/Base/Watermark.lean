import Mathlib.Data.List.Basic

/-!
# Watermarks

A guard admits or rejects what it is offered and remembers one summary of what it has admitted.  The
admitted list is in order if the summary stays above everything admitted before it
(`admitted_pairwise`).
-/

set_option autoImplicit false

namespace Watermark

variable {σ ε : Type*} {accept : σ → ε → Option σ}

/-- What the guard admits; a rejected offer leaves its state. -/
def admitted (accept : σ → ε → Option σ) : σ → List ε → List ε
  | _, [] => []
  | s, e :: es =>
    match accept s e with
    | none => admitted accept s es
    | some s' => e :: admitted accept s' es

/-- Every admitted offer meets a condition in the state it is admitted in. -/
def Meets (accept : σ → ε → Option σ) (Ok : σ → ε → Prop) : σ → List ε → Prop
  | _, [] => True
  | s, e :: es =>
    match accept s e with
    | none => Meets accept Ok s es
    | some s' => Ok s e ∧ Meets accept Ok s' es

/-- What was below the summary is below all that is admitted from here on. -/
theorem admitted_above {Ok : σ → ε → Prop} {Below : σ → ε → Prop} {R : ε → ε → Prop}
    (hstep : ∀ s e s', Ok s e → accept s e = some s' → ∀ x, Below s x → R x e ∧ Below s' x)
    {s : σ} {x : ε} {es : List ε} (hx : Below s x) (hok : Meets accept Ok s es) :
    ∀ e ∈ admitted accept s es, R x e := by
  induction es generalizing s with
  | nil =>
    intro e he
    cases he
  | cons e es ih =>
    unfold admitted
    unfold Meets at hok
    cases hs : accept s e with
    | none =>
      rw [hs] at hok
      exact ih hx hok
    | some s' =>
      rw [hs] at hok
      obtain ⟨hR, hx'⟩ := hstep s e s' hok.1 hs x hx
      intro e' he'
      rcases List.mem_cons.mp he' with rfl | he'
      · exact hR
      · exact ih hx' hok.2 e' he'

/-- **Watermark rule.** -/
theorem admitted_pairwise {Ok : σ → ε → Prop} (Below : σ → ε → Prop) {R : ε → ε → Prop}
    (hself : ∀ s e s', accept s e = some s' → Below s' e)
    (hstep : ∀ s e s', Ok s e → accept s e = some s' → ∀ x, Below s x → R x e ∧ Below s' x)
    {s : σ} {es : List ε} (hok : Meets accept Ok s es) : (admitted accept s es).Pairwise R := by
  induction es generalizing s with
  | nil => exact .nil
  | cons e es ih =>
    unfold admitted
    unfold Meets at hok
    cases hs : accept s e with
    | none =>
      rw [hs] at hok
      exact ih hok
    | some s' =>
      rw [hs] at hok
      exact .cons (admitted_above hstep (hself s e s' hs) hok.2) (ih hok.2)

end Watermark
