import MarketMaker.Strategy.Sampling

/-!
# When the strategy is ready

What `update` does to the counters and timestamps readiness is read from, for any snapshot at all:
out of order, invalid, after a gap, on a grid whose times wrap.

* `Continuous` — what is on record since the last reset is one chain without a gap, and the
  readiness is that of the record; `Continuous.update` keeps it.
* `Continuous.ready` — a strategy that is valid for trading has a record long enough.
-/

set_option autoImplicit false

namespace MarketMaker

open Word64

namespace ObiStrategy

variable (sqrt : ℚ → ℚ)

/-- The state is one of the strategy's own: since the last reset it has taken in a chain of
    snapshots without a gap, and sampled what it counts. -/
structure Continuous (s : ObiStrategy) : Prop where
  tallied : ∃ changes imbalances, Tallied sqrt changes imbalances s
  held : s.heldObservation = s.record.observations.getLast?.map (·.value)
  last : ∀ o ∈ s.record.observations.getLast?, s.lastObservationNs = o.time
  chained : s.record.observations.IsChain fun o p => o.time ≤ p.time ∧ p.time - o.time < s.maxGapNs
  warmed : s.warmedUp = true → MIN_SAMPLES_FOR_QUOTE ≤ s.totalSamples

variable {sqrt}

theorem continuous_resetState (s : ObiStrategy) : Continuous sqrt s.resetState :=
  ⟨⟨_, _, tallied_resetState sqrt s⟩, rfl, fun _ h => absurd h (by simp [resetState]), by simp [resetState],
    fun h => absurd h (by simp [resetState])⟩

theorem continuous_new (config : StrategyConfig) (requiredHistoryMinutes depthStaleSecs : Nat) :
    Continuous sqrt (new config requiredHistoryMinutes depthStaleSecs) :=
  ⟨⟨_, _, ⟨rfl, rfl, rfl, rfl, rfl, rfl, rfl⟩⟩, rfl, fun _ h => absurd h (by simp [new]), by simp [new],
    fun h => absurd h (by simp [new])⟩

theorem Continuous.setPosition {s : ObiStrategy} (h : Continuous sqrt s) (position : ℚ) :
    Continuous sqrt (s.setPosition position) := by
  obtain ⟨changes, imbalances, htallied⟩ := h.tallied
  exact { h with tallied := ⟨changes, imbalances, { htallied with }⟩ }

variable (sqrt) in
/-- What sampling leaves as it is. -/
structure Advanced (s t : ObiStrategy) : Prop where
  tallied : ∀ changes imbalances, Tallied sqrt changes imbalances s → Tallied sqrt changes imbalances t
  observations : t.record.observations = s.record.observations
  maxGap : t.maxGapNs = s.maxGapNs
  required : t.requiredHistoryNs = s.requiredHistoryNs
  warmedUp : t.warmedUp = s.warmedUp
  total : s.totalSamples ≤ t.totalSamples

namespace Advanced

theorem refl (s : ObiStrategy) : Advanced sqrt s s :=
  ⟨fun _ _ h => h, rfl, rfl, rfl, rfl, le_rfl⟩

theorem trans {s t u : ObiStrategy} (h : Advanced sqrt s t) (h' : Advanced sqrt t u) :
    Advanced sqrt s u where
  tallied := fun _ _ hs => h'.tallied _ _ (h.tallied _ _ hs)
  observations := h'.observations.trans h.observations
  maxGap := h'.maxGap.trans h.maxGap
  required := h'.required.trans h.required
  warmedUp := h'.warmedUp.trans h.warmedUp
  total := h.total.trans h'.total

theorem sample (s : ObiStrategy) (time : Int) (mid imbalance : ℚ) :
    Advanced sqrt s (s.sample sqrt time mid imbalance) := by
  refine ⟨fun _ _ h => h.sample time mid imbalance, ?_, ?_, ?_, ?_, ?_⟩ <;>
    unfold ObiStrategy.sample <;> cases s.prevMidPrice <;> simp

theorem sampleNext (s : ObiStrategy) (mid imbalance : ℚ) :
    Advanced sqrt s (s.sampleNext sqrt mid imbalance) := by
  have h : Advanced sqrt s (s.sample sqrt s.nextSampleNs mid imbalance) := sample s _ mid imbalance
  exact { h with tallied := fun _ _ hs => { h.tallied _ _ hs with } }

theorem catchUp {timestamp : Int} {mid imbalance : ℚ} (rounds : Nat) {s t : ObiStrategy}
    (h : catchUp sqrt timestamp mid imbalance rounds s = some t) : Advanced sqrt s t := by
  induction rounds generalizing s with
  | zero => cases h
  | succ rounds ih =>
    unfold ObiStrategy.catchUp at h
    split at h
    · exact (sampleNext s mid imbalance).trans (ih h)
    · cases h
      exact refl _

theorem advance {s t : ObiStrategy} {timestamp : Int} {mid imbalance : ℚ}
    (h : s.advance sqrt timestamp mid imbalance = some t) : Advanced sqrt s t := by
  unfold ObiStrategy.advance at h
  split at h
  · obtain ⟨u, hu, ht⟩ := Option.map_eq_some_iff.mp h
    have hcatch := catchUp (size + 1) hu
    split at ht
    · rw [← ht]
      exact hcatch.trans (sampleNext u mid imbalance)
    · rw [← ht]
      exact hcatch
  · cases h
    have hsample : Advanced sqrt s (s.sample sqrt timestamp mid imbalance) := sample s timestamp mid imbalance
    exact { hsample with tallied := fun _ _ hs => { hsample.tallied _ _ hs with } }

end Advanced

variable (sqrt) in
/-- What an observation does to the record: after a gap it starts it anew. -/
structure Observed (s t : ObiStrategy) (o : Sample) : Prop where
  continuous : Continuous sqrt t
  observations : t.record.observations = (if s.gapReached o.time then [] else s.record.observations) ++ [o]
  maxGap : t.maxGapNs = s.maxGapNs
  required : t.requiredHistoryNs = s.requiredHistoryNs

theorem Continuous.observe {s t : ObiStrategy} (h : Continuous sqrt s) {timestamp : Int}
    {mid imbalance : ℚ} (hle : s.lastObservationNs ≤ timestamp)
    (ht : s.observe sqrt timestamp mid imbalance = some t) :
    Observed sqrt s t ⟨timestamp, (mid, imbalance)⟩ := by
  obtain ⟨u, hu, rfl⟩ := Option.map_eq_some_iff.mp ht
  -- The state the sampling starts from, and what it has on record.
  obtain ⟨r, hr, hcontinuous, hmaxGap, hrequired, hobservations, hchain⟩ : ∃ r,
      (if s.gapReached timestamp then s.resetState else s) = r ∧ Continuous sqrt r ∧
      r.maxGapNs = s.maxGapNs ∧ r.requiredHistoryNs = s.requiredHistoryNs ∧
      r.record.observations = (if s.gapReached timestamp then [] else s.record.observations) ∧
      ∀ o ∈ r.record.observations.getLast?, o.time ≤ timestamp ∧ timestamp - o.time < s.maxGapNs := by
    by_cases hgap : s.gapReached timestamp = true
    · rw [if_pos hgap, if_pos hgap]
      exact ⟨_, rfl, continuous_resetState s, rfl, rfl, rfl, fun o ho => by simp [resetState] at ho⟩
    · rw [if_neg hgap, if_neg hgap]
      refine ⟨_, rfl, h, rfl, rfl, rfl, fun o ho => ?_⟩
      have hlast := h.last o ho
      have hheld : s.heldObservation.isSome = true := by
        rw [h.held, Option.mem_def.mp ho]
        rfl
      simp only [gapReached, hheld, Bool.true_and, decide_eq_true_eq, not_le] at hgap
      omega
  rw [hr] at hu
  have hadvanced := Advanced.advance hu
  obtain ⟨changes, imbalances, htallied⟩ := hcontinuous.tallied
  refine ⟨⟨⟨changes, imbalances, { hadvanced.tallied _ _ htallied with }⟩, ?_, fun o ho => ?_, ?_, fun hwarmed => ?_⟩,
    ?_, ?_, ?_⟩
  · simp [hold]
  · simp only [hold, List.getLast?_concat, Option.mem_def, Option.some.injEq] at ho
    rw [← ho]
    rfl
  · show (u.record.observations ++ [_]).IsChain _
    rw [hadvanced.observations]
    refine List.isChain_append.mpr ⟨?_, List.isChain_singleton _, fun o ho p hp => ?_⟩
    · refine hcontinuous.chained.imp fun _ _ hop => ⟨hop.1, ?_⟩
      show _ < u.maxGapNs
      rw [hadvanced.maxGap]
      exact hop.2
    · simp only [List.head?_cons, Option.mem_def, Option.some.injEq] at hp
      rw [← hp]
      obtain ⟨hle, hlt⟩ := hchain o ho
      refine ⟨hle, ?_⟩
      show timestamp - o.time < u.maxGapNs
      rw [hadvanced.maxGap, hmaxGap]
      exact hlt
  · exact (hcontinuous.warmed (hadvanced.warmedUp ▸ hwarmed)).trans hadvanced.total
  · show u.record.observations ++ [_] = _
    rw [hadvanced.observations, hobservations]
  · exact hadvanced.maxGap.trans hmaxGap
  · exact hadvanced.required.trans hrequired

/-- A requote marks a state warmed up only with enough samples, and its quote says whether the
    state is ready. -/
theorem Continuous.requote {s : ObiStrategy} (h : Continuous sqrt s) (r : Readings)
    (b : OrderbookSnapshot) (mid imbalance : ℚ) :
    Continuous sqrt (s.requote sqrt r b mid imbalance).1 ∧
      ∀ quote, (s.requote sqrt r b mid imbalance).2 = some quote →
        MIN_SAMPLES_FOR_QUOTE ≤ s.totalSamples ∧
        quote.validForTrading = (s.requote sqrt r b mid imbalance).1.isValidForTrading := by
  obtain ⟨changes, imbalances, htallied⟩ := h.tallied
  unfold ObiStrategy.requote
  dsimp only
  split
  · exact ⟨h, nofun⟩
  · split
    · exact ⟨{ h with tallied := ⟨changes, imbalances, { htallied with }⟩ }, nofun⟩
    · rename_i hsamples
      refine ⟨{ h with
        tallied := ⟨changes, imbalances, { htallied with }⟩
        warmed := fun _ => Nat.le_of_not_lt hsamples }, fun quote hquote => ⟨Nat.le_of_not_lt hsamples, ?_⟩⟩
      unfold calculateQuote at hquote
      split at hquote
      · dsimp only at hquote
        split at hquote
        · cases hquote
        · cases hquote
          rfl
      · cases hquote

/-- The snapshot as far as `update` takes it in. -/
def taken (s : ObiStrategy) (b : OrderbookSnapshot) : List Sample :=
  if b.validate && decide (s.lastObservationNs ≤ b.receivedAtNs) then [s.observation b] else []

/-- What `update` does: nothing, or an observation and a requote. -/
theorem update_cases {s t : ObiStrategy} {r : Readings} {b : OrderbookSnapshot} {quote : Option Quote}
    (h : s.update sqrt r b = some (t, quote)) :
    (t = s ∧ quote = none ∧ s.taken b = []) ∨ ∃ u, s.taken b = [s.observation b] ∧
      s.lastObservationNs ≤ b.receivedAtNs ∧
      s.observe sqrt b.receivedAtNs (s.observation b).value.1 (s.observation b).value.2 = some u ∧
      u.requote sqrt r b (s.observation b).value.1 (s.observation b).value.2 = (t, quote) := by
  unfold update at h
  split at h
  · rename_i hignored
    cases h
    refine Or.inl ⟨rfl, rfl, if_neg ?_⟩
    simp only [Bool.and_eq_true, decide_eq_true_eq, not_and, not_le]
    intro hvalid
    rw [hvalid] at hignored
    simpa using hignored
  · rename_i htaken
    simp only [Bool.not_eq_true', not_or, Bool.not_eq_false, not_lt] at htaken
    obtain ⟨mid, hmid⟩ := OrderbookSnapshot.exists_midPrice htaken.1
    simp only [hmid] at h
    obtain ⟨u, hu, hrequote⟩ := Option.map_eq_some_iff.mp h
    have hobserved : s.observation b = ⟨b.receivedAtNs, (mid, s.calculateImbalance b mid)⟩ := by
      simp [observation, hmid]
    refine Or.inr ⟨u, ?_, htaken.2, ?_, ?_⟩
    · simp [taken, htaken.1, htaken.2]
    · rw [hobserved]
      exact hu
    · rw [hobserved]
      exact hrequote

theorem Continuous.update {s t : ObiStrategy} (h : Continuous sqrt s) {r : Readings}
    {b : OrderbookSnapshot} {quote : Option Quote} (ht : s.update sqrt r b = some (t, quote)) :
    Continuous sqrt t ∧ t.maxGapNs = s.maxGapNs ∧ t.requiredHistoryNs = s.requiredHistoryNs ∧
      t.record.observations <:+ s.record.observations ++ s.taken b ∧
      ∀ q, quote = some q → q.validForTrading = t.isValidForTrading := by
  rcases update_cases ht with ⟨rfl, rfl, htaken⟩ | ⟨u, htaken, hle, hu, hrequote⟩
  · refine ⟨h, rfl, rfl, ?_, nofun⟩
    rw [htaken, List.append_nil]
  · have hobserved := h.observe hle hu
    obtain ⟨hcontinuous, hquote⟩ := hobserved.continuous.requote r b (s.observation b).value.1
      (s.observation b).value.2
    obtain ⟨_, _, _, _, hsame⟩ := requote_fst sqrt u r b (s.observation b).value.1 (s.observation b).value.2
    rw [hrequote] at hcontinuous hquote hsame
    dsimp only at hsame
    refine ⟨hcontinuous, ?_, ?_, ?_, fun q hq => (hquote q hq).2⟩
    · rw [hsame]
      exact hobserved.maxGap
    · rw [hsame]
      exact hobserved.required
    · rw [hsame, htaken]
      show u.record.observations <:+ _
      rw [hobserved.observations]
      split
      · exact List.suffix_append _ _
      · exact List.suffix_refl _

/-- Straight after a reset no quote is made. -/
theorem update_resetState_quote {s t : ObiStrategy} {position : ℚ} {r : Readings} {b : OrderbookSnapshot}
    {quote : Option Quote} (h : (s.resetState.setPosition position).update sqrt r b = some (t, quote)) :
    quote = none := by
  rcases update_cases h with ⟨_, rfl, _⟩ | ⟨u, _, _, hu, hrequote⟩
  · rfl
  · have htotal : u.totalSamples = 0 := by
      cases hu
      rfl
    have hquote : (u.requote sqrt r b ((s.resetState.setPosition position).observation b).value.1
        ((s.resetState.setPosition position).observation b).value.2).2 = none := by
      unfold requote
      dsimp only
      split
      · rfl
      · rw [if_pos]
        rw [htotal]
        decide
    rw [hrequote] at hquote
    exact hquote

/-- **Ready means warmed up.**  The record of a strategy that is valid for trading has enough
    increments, and its samples span the required history. -/
theorem Continuous.ready {s : ObiStrategy} (h : Continuous sqrt s)
    (hready : s.isValidForTrading = true) (hrequired : 0 < s.requiredHistoryNs) :
    MIN_SAMPLES_FOR_QUOTE ≤ (increments s.record.samples).length ∧
      ∃ first last, s.record.samples.head? = some first ∧ s.record.samples.getLast? = some last ∧
        (s.requiredHistoryNs : Int) ≤ last.time - first.time := by
  obtain ⟨changes, imbalances, htallied⟩ := h.tallied
  unfold isValidForTrading at hready
  split at hready
  · cases hready
  · rename_i hwarmed
    simp only [Bool.not_eq_true', Bool.not_eq_false, decide_eq_true_eq] at hwarmed hready
    have htotal := h.warmed hwarmed
    rw [htallied.total] at htotal
    refine ⟨by rw [length_increments]; exact htotal, ?_⟩
    unfold historyDurationNs at hready
    rw [htallied.first, htallied.latest] at hready
    cases hfirst : s.record.samples.head? with
    | none =>
      rw [hfirst] at hready
      exact absurd hready (by simp; omega)
    | some first =>
      obtain ⟨last, hlast⟩ : ∃ last, s.record.samples.getLast? = some last := by
        cases hsamples : s.record.samples with
        | nil => rw [hsamples] at hfirst; cases hfirst
        | cons x xs => exact ⟨_, List.getLast?_eq_some_getLast (by simp)⟩
      rw [hfirst, hlast] at hready
      refine ⟨first, last, rfl, hlast, ?_⟩
      simp only [Option.map_some, Option.getD_some] at hready
      split at hready <;> omega

end ObiStrategy

end MarketMaker
