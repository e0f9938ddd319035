import MarketMaker.Base.Watermark
import MarketMaker.App.State

/-!
# Accepted depth

What `DepthState::accept` lets through between two resets, when books may come with or without a
sequence and with or without an exchange time.

* `accept_below_iff` — the stored triple stays above the earlier books exactly if the new book keeps
  the fields that are stored.
* `accepted_never_regresses` — then no accepted book is older than an earlier one.
* `accepted_regresses` — one book without a sequence lets an old book through.
-/

set_option autoImplicit false

namespace MarketMaker

open Watermark

/-- A book and the clock it is offered at. -/
abbrev DepthOffer := DepthSnapshot × Int

namespace DepthState

/-- The guard over a list of offers. -/
def offer (maxAge : Int) (d : DepthState) (o : DepthOffer) : Option DepthState := d.accept o.1 o.2 maxAge

/-- The books accepted from the last reset on. -/
def accepted (maxAge : Int) (offers : List DepthOffer) : List DepthOffer :=
  admitted (offer maxAge) {} offers

/-- In order: sequences that are there increase, times that are there and receive times do not
    decrease. -/
def InOrder (o o' : DepthOffer) : Prop :=
  (o.1.sequence ≠ 0 → o'.1.sequence ≠ 0 → o.1.sequence < o'.1.sequence) ∧
  (o.1.timestampNs ≠ 0 → o'.1.timestampNs ≠ 0 → o.1.timestampNs ≤ o'.1.timestampNs) ∧
  o.1.receivedAtNs ≤ o'.1.receivedAtNs

/-- The book has a sequence if one is stored, and a time if one is stored; a negative time counts as
    absent in the guard. -/
def KeepsFields (d : DepthState) (o : DepthOffer) : Prop :=
  (0 < d.sequence → 0 < o.1.sequence) ∧ (0 < d.serverTime → 0 < o.1.timestampNs) ∧ 0 ≤ o.1.timestampNs

instance (d : DepthState) (o : DepthOffer) : Decidable (KeepsFields d o) :=
  inferInstanceAs (Decidable (_ ∧ _ ∧ _))

/-- The stored triple is at or above the book. -/
def Below (d : DepthState) (o : DepthOffer) : Prop :=
  o.1.sequence ≤ d.sequence ∧ o.1.timestampNs ≤ d.serverTime ∧ o.1.receivedAtNs ≤ d.receivedAt

/-- What acceptance says, and what is stored. -/
theorem offer_some {maxAge : Int} {d d' : DepthState} {o : DepthOffer} (h : d.offer maxAge o = some d') :
    d.receivedAt ≤ o.1.receivedAtNs ∧ (0 < d.sequence → 0 < o.1.sequence → d.sequence < o.1.sequence) ∧
      (0 < d.serverTime → 0 < o.1.timestampNs → d.serverTime ≤ o.1.timestampNs) ∧
      d' = ⟨o.1.receivedAtNs, o.1.sequence, o.1.timestampNs, false⟩ := by
  unfold offer accept at h
  split at h
  · cases h
  · next hguard =>
    push Not at hguard
    obtain ⟨_, _, _, hreceived, _, hsequence, htime, _⟩ := hguard
    cases h
    exact ⟨hreceived, hsequence, htime, rfl⟩

/-- A book that keeps the stored fields is after everything below the stored triple, and the new
    triple is above that. -/
theorem accept_below {maxAge : Int} {d d' : DepthState} {o : DepthOffer} (hkeeps : KeepsFields d o)
    (h : d.offer maxAge o = some d') (x : DepthOffer) (hx : Below d x) : InOrder x o ∧ Below d' x := by
  obtain ⟨hreceived, hsequence, htime, rfl⟩ := offer_some h
  obtain ⟨hkeepsSequence, hkeepsTime, hnonneg⟩ := hkeeps
  obtain ⟨hxSequence, hxTime, hxReceived⟩ := hx
  constructor
  · refine ⟨fun hx₀ ho₀ => ?_, fun hx₀ ho₀ => ?_, by omega⟩
    · have := hsequence (by omega) (by omega)
      omega
    · by_cases hstored : 0 < d.serverTime
      · have := htime hstored (by omega)
        omega
      · omega
  · dsimp only [Below]
    refine ⟨?_, ?_, by omega⟩
    · by_cases hstored : 0 < d.sequence
      · have := hsequence hstored (hkeepsSequence hstored)
        omega
      · omega
    · by_cases hstored : 0 < d.serverTime
      · have := htime hstored (hkeepsTime hstored)
        omega
      · omega

/-- **The stored triple stays above the earlier books** exactly if the accepted book keeps the stored
    fields. -/
theorem accept_below_iff {maxAge : Int} {d d' : DepthState} {o : DepthOffer} (hd : 0 ≤ d.serverTime)
    (h : d.offer maxAge o = some d') : (∀ x, Below d x → Below d' x) ↔ KeepsFields d o := by
  constructor
  · intro hbelow
    obtain ⟨_, _, _, rfl⟩ := offer_some h
    -- a book with the stored triple itself is below it
    obtain ⟨hsequence, htime, _⟩ := hbelow
      ({ o.1 with receivedAtNs := d.receivedAt, sequence := d.sequence, timestampNs := d.serverTime }, 0)
      ⟨Nat.le_refl _, Int.le_refl _, Int.le_refl _⟩
    dsimp only at hsequence htime
    exact ⟨by omega, by omega, by omega⟩
  · exact fun hkeeps x hx => (accept_below hkeeps h x hx).2

/-- **Accepted depth never regresses**, if every accepted book keeps the fields of the book accepted
    before it. -/
theorem accepted_never_regresses (maxAge : Int) (offers : List DepthOffer)
    (h : Meets (offer maxAge) KeepsFields {} offers) : (accepted maxAge offers).Pairwise InOrder := by
  have hself : ∀ d o d', offer maxAge d o = some d' → Below d' o := by
    intro d o d' haccept
    obtain ⟨_, _, _, rfl⟩ := offer_some haccept
    exact ⟨Nat.le_refl _, Int.le_refl _, Int.le_refl _⟩
  have hstep : ∀ d o d', KeepsFields d o → offer maxAge d o = some d' →
      ∀ x, Below d x → InOrder x o ∧ Below d' x := by
    intro d o d' hkeeps haccept
    exact accept_below hkeeps haccept
  exact admitted_pairwise Below hself hstep h

/-- A book of the feed, received when it is offered. -/
def offerAt (now : Int) (sequence : Nat) (timestampNs : Int) : DepthOffer :=
  ({ symbol := "BTC-USD", receivedAtNs := now, sequence := sequence, timestampNs := timestampNs,
     validates := true }, now)

/-- Two books and a duplicate between them. -/
theorem accepted_never_regresses_duplicate :
    (accepted 5000000000 [offerAt 1 5 10, offerAt 2 5 10, offerAt 3 6 20]).Pairwise InOrder ∧
    accepted 5000000000 [offerAt 1 5 10, offerAt 2 5 10, offerAt 3 6 20] = [offerAt 1 5 10, offerAt 3 6 20] := by
  refine ⟨accepted_never_regresses _ _ ⟨by decide, ?_⟩, rfl⟩
  exact ⟨by decide, trivial⟩

/-- Sequence 5, a book without a sequence, sequence 3. -/
theorem accepted_regresses :
    ¬ ∀ maxAge offers, (accepted maxAge offers).Pairwise InOrder := by
  intro h
  have hthree := h 5000000000 [offerAt 1 5 10, offerAt 2 0 20, offerAt 3 3 20]
  have hall : accepted 5000000000 [offerAt 1 5 10, offerAt 2 0 20, offerAt 3 3 20]
      = [offerAt 1 5 10, offerAt 2 0 20, offerAt 3 3 20] := rfl
  rw [hall] at hthree
  have hpair := List.rel_of_pairwise_cons hthree (show offerAt 3 3 20 ∈ _ by simp)
  exact absurd (hpair.1 (by decide) (by decide)) (by decide)

end DepthState

end MarketMaker
