import MarketMaker.Base.Run
import MarketMaker.Strategy.Obi

/-!
# Fixed-grid sampling

What `update` samples, against its reference: one sample for each grid time up to the last
message, showing the message stamped exactly at it or else the last one before it.

* `Tallied` — the statistics are those of the samples pushed since the last reset.
* `Sampled` — after a message, the samples are those of the messages so far.
* `sampling_equals_reference` — this for a whole feed, and what follows from it.
-/

set_option autoImplicit false

namespace MarketMaker

open Word64 SampleHold

namespace ObiStrategy

/-- The differences of neighbouring mid prices. -/
def increments : List Sample → List ℚ
  | x :: y :: xs => (y.value.1 - x.value.1) :: increments (y :: xs)
  | _ => []

theorem increments_append (xs : List Sample) (x y : Sample) :
    increments (xs ++ [x, y]) = increments (xs ++ [x]) ++ [y.value.1 - x.value.1] := by
  induction xs with
  | nil => rfl
  | cons z zs ih =>
    cases zs with
    | nil => rfl
    | cons w ws =>
      simp only [List.cons_append] at ih
      simp only [List.cons_append, increments, ih]

theorem length_increments (xs : List Sample) : (increments xs).length = xs.length - 1 := by
  induction xs with
  | nil => rfl
  | cons x xs ih =>
    cases xs with
    | nil => rfl
    | cons y ys => simpa [increments] using ih

variable (sqrt : ℚ → ℚ)

/-- Statistics after a list of values. -/
def pushAll (stats : RollingStats ℚ) (values : List ℚ) : RollingStats ℚ :=
  values.foldl (fun stats value => stats.push sqrt (some value)) stats

theorem pushAll_append (stats : RollingStats ℚ) (values : List ℚ) (value : ℚ) :
    pushAll sqrt stats (values ++ [value]) = (pushAll sqrt stats values).push sqrt (some value) := by
  simp [pushAll]

/-! ### The statistics -/

/-- The statistics and counters are those of the samples on record, from the given start. -/
structure Tallied (changes imbalances : RollingStats ℚ) (s : ObiStrategy) : Prop where
  changes_eq : s.midPriceChgStats = pushAll sqrt changes (increments s.record.samples)
  imbalances_eq : s.imbalanceStats = pushAll sqrt imbalances (s.record.samples.map (·.value.2))
  previous : s.prevMidPrice = s.record.samples.getLast?.map (·.value.1)
  first : s.firstTimestampNs = s.record.samples.head?.map (·.time)
  latest : s.latestTimestampNs = (s.record.samples.getLast?.map (·.time)).getD 0
  steps : s.stepCount = s.record.samples.length
  total : s.totalSamples = s.record.samples.length - 1

/-- A reset leaves nothing to tally. -/
theorem tallied_resetState (s : ObiStrategy) :
    Tallied sqrt s.midPriceChgStats.clear s.imbalanceStats.clear s.resetState :=
  ⟨rfl, rfl, rfl, rfl, rfl, rfl, rfl⟩

variable {sqrt}

theorem Tallied.sample {changes imbalances : RollingStats ℚ} {s : ObiStrategy}
    (h : Tallied sqrt changes imbalances s) (time : Int) (mid imbalance : ℚ) :
    Tallied sqrt changes imbalances (s.sample sqrt time mid imbalance) := by
  rcases List.eq_nil_or_concat s.record.samples with hnil | ⟨xs, x, hlast⟩
  · have hprev : s.prevMidPrice = none := by rw [h.previous, hnil]; rfl
    have hfirst : s.firstTimestampNs = none := by rw [h.first, hnil]; rfl
    have hsteps := h.steps
    have htotal := h.total
    have hchanges := h.changes_eq
    have himbalances := h.imbalances_eq
    rw [hnil] at hsteps htotal hchanges himbalances
    constructor <;> simp [ObiStrategy.sample, hprev, hfirst, hnil, hsteps, htotal, hchanges,
      himbalances, increments, pushAll]
  · rw [List.concat_eq_append] at hlast
    have hprev : s.prevMidPrice = some x.value.1 := by rw [h.previous, hlast]; simp
    refine ⟨?_, ?_, ?_, ?_, ?_, ?_, ?_⟩ <;> simp only [ObiStrategy.sample, hprev]
    · rw [h.changes_eq, hlast, List.append_assoc, List.singleton_append, increments_append,
        pushAll_append]
    · rw [h.imbalances_eq, List.map_append, List.map_singleton, pushAll_append]
    · simp
    · rw [h.first, hlast]
      cases xs <;> simp
    · simp
    · rw [h.steps, List.length_append, List.length_singleton]
    · rw [h.total, hlast]
      simp

/-! ### One message -/

section

variable (s : ObiStrategy) (time : Int) (mid imbalance : ℚ)

@[simp] theorem sample_config : (s.sample sqrt time mid imbalance).config = s.config := by
  unfold sample
  cases s.prevMidPrice <;> rfl

@[simp] theorem sample_maxGapNs : (s.sample sqrt time mid imbalance).maxGapNs = s.maxGapNs := by
  unfold sample
  cases s.prevMidPrice <;> rfl

@[simp] theorem sample_heldObservation :
    (s.sample sqrt time mid imbalance).heldObservation = s.heldObservation := by
  unfold sample
  cases s.prevMidPrice <;> rfl

@[simp] theorem sample_samples :
    (s.sample sqrt time mid imbalance).record.samples = s.record.samples ++ [⟨time, (mid, imbalance)⟩] := by
  unfold sample
  cases s.prevMidPrice <;> rfl

end

variable (sqrt)

/-- What `update` takes in of a valid snapshot. -/
def observation (s : ObiStrategy) (b : OrderbookSnapshot) : Sample :=
  let mid := (b.midPrice.bind id).getD 0
  ⟨b.receivedAtNs, (mid, s.calculateImbalance b mid)⟩

theorem observation_congr {s t : ObiStrategy} (h : s.config = t.config) (b : OrderbookSnapshot) :
    s.observation b = t.observation b := by
  simp only [observation, calculateImbalance, h]

/-- The state after one message. -/
def feedStep (s : ObiStrategy) (e : Readings × OrderbookSnapshot) : Option ObiStrategy :=
  (s.update sqrt e.1 e.2).map (·.1)

/-- A requote is not an observation. -/
theorem requote_fst (s : ObiStrategy) (r : Readings) (b : OrderbookSnapshot) (mid imbalance : ℚ) :
    ∃ update warmed volatility alpha, (s.requote sqrt r b mid imbalance).1 =
      { s with lastUpdateStep := update, warmedUp := warmed, volatility := volatility, alpha := alpha } := by
  unfold requote
  dsimp only
  split
  · exact ⟨_, _, _, _, rfl⟩
  · split
    · exact ⟨_, _, _, _, rfl⟩
    · exact ⟨_, _, _, _, rfl⟩

/-- A valid snapshot that is not older than the last one is observed. -/
theorem feedStep_of_valid {s : ObiStrategy} {e : Readings × OrderbookSnapshot}
    (hvalid : e.2.validate = true) (hle : s.lastObservationNs ≤ e.2.receivedAtNs) :
    ∃ g : ObiStrategy → ObiStrategy, (∀ t, ∃ update warmed volatility alpha, g t =
        { t with lastUpdateStep := update, warmedUp := warmed, volatility := volatility, alpha := alpha }) ∧
      s.feedStep sqrt e = (s.observe sqrt e.2.receivedAtNs (s.observation e.2).value.1
        (s.observation e.2).value.2).map g := by
  obtain ⟨mid, hmid⟩ := OrderbookSnapshot.exists_midPrice hvalid
  have hobserved : s.observation e.2 = ⟨e.2.receivedAtNs, (mid, s.calculateImbalance e.2 mid)⟩ := by
    simp [observation, hmid]
  refine ⟨fun t => (t.requote sqrt e.1 e.2 mid (s.calculateImbalance e.2 mid)).1,
    fun t => requote_fst sqrt t e.1 e.2 mid _, ?_⟩
  have hcond : ¬ ((!e.2.validate) = true ∨ e.2.receivedAtNs < s.lastObservationNs) := by
    rw [hvalid]
    simp only [Bool.not_true, Bool.false_eq_true, false_or]
    omega
  unfold feedStep update
  rw [if_neg hcond, hobserved]
  simp only [hmid, Option.map_map]
  rfl

/-- The catch-up loop, for a property its rounds keep: they bring the next grid time up to the
    message, and past it by less than a step. -/
theorem catchUp_spec {P : ObiStrategy → Prop} {timestamp step : Int} {mid imbalance : ℚ}
    (hround : ∀ s, P s → s.nextSampleNs < timestamp → P (s.sampleNext sqrt mid imbalance) ∧
      (s.sampleNext sqrt mid imbalance).nextSampleNs = s.nextSampleNs + step)
    (rounds : Nat) {s : ObiStrategy} (hs : P s) (hle : s.nextSampleNs ≤ timestamp + step)
    (hrounds : timestamp - s.nextSampleNs ≤ rounds * step) :
    ∃ t, catchUp sqrt timestamp mid imbalance (rounds + 1) s = some t ∧ P t ∧
      timestamp ≤ t.nextSampleNs ∧ t.nextSampleNs ≤ timestamp + step := by
  induction rounds generalizing s with
  | zero =>
    have hge : ¬ s.nextSampleNs < timestamp := by
      simp only [Nat.cast_zero, zero_mul] at hrounds
      omega
    unfold catchUp
    rw [if_neg hge]
    exact ⟨s, rfl, hs, by omega, hle⟩
  | succ rounds ih =>
    unfold catchUp
    split
    next hlt =>
      obtain ⟨hP, hnext⟩ := hround s hs hlt
      refine ih hP (by omega) ?_
      rw [hnext]
      push_cast at hrounds
      linarith
    next hge => exact ⟨s, rfl, hs, by omega, hle⟩

/-! ### A feed -/

/-- A feed of valid snapshots, received in order and without a gap; their times leave room for a
    step below `2 ^ 63`, and are not before the clock's zero, which a reset takes for the last
    observation (`DepthState::accept` lets only positive ones through). -/
structure Steady (s : ObiStrategy) (feed : List (Readings × OrderbookSnapshot)) : Prop where
  step_pos : 0 < s.config.stepNs
  valid : ∀ e ∈ feed, e.2.validate = true
  received : ∀ e ∈ feed, 0 ≤ e.2.receivedAtNs
  fits : ∀ e ∈ feed, e.2.receivedAtNs + s.config.stepNs < 9223372036854775808
  chained : feed.IsChain fun e e' =>
    e.2.receivedAtNs ≤ e'.2.receivedAtNs ∧ e'.2.receivedAtNs - e.2.receivedAtNs < s.maxGapNs

/-- After the messages `os` and last of all `o`, the first stamped `first`: the samples are those of
    the messages, and the next one is due after `o`, within a step. -/
structure Sampled (start : ObiStrategy) (first : Int) (os : List Sample) (o : Sample) (s : ObiStrategy) :
    Prop where
  config : s.config = start.config
  maxGap : s.maxGapNs = start.maxGapNs
  tallied : Tallied sqrt start.midPriceChgStats.clear start.imbalanceStats.clear s
  held : s.heldObservation = some o.value
  last : s.lastObservationNs = o.time
  ordered : ∀ p ∈ os ++ [o], p.time ≤ o.time
  head : (os ++ [o]).head?.map (·.time) = some first
  samples : Samples first start.config.stepNs (os ++ [o]) s.nextSampleNs s.record.samples
  next_gt : o.time < s.nextSampleNs
  next_le : s.nextSampleNs ≤ o.time + start.config.stepNs

variable {sqrt}

/-- A requote keeps what is known of the samples. -/
theorem Sampled.requote {start s t : ObiStrategy} {first : Int} {os : List Sample} {o : Sample}
    (h : Sampled sqrt start first os o s) (ht : ∃ update warmed volatility alpha, t =
      { s with lastUpdateStep := update, warmedUp := warmed, volatility := volatility, alpha := alpha }) :
    Sampled sqrt start first os o t := by
  obtain ⟨update, warmed, volatility, alpha, rfl⟩ := ht
  exact { h with tallied := { h.tallied with } }

/-- A sample on the grid, of what the messages show there. -/
theorem sampleNext_spec {start s : ObiStrategy} {first : Int} {os : List Sample} {mid imbalance : ℚ}
    (hconfig : s.config = start.config)
    (hsamples : Samples first start.config.stepNs os s.nextSampleNs s.record.samples)
    (htallied : Tallied sqrt start.midPriceChgStats.clear start.imbalanceStats.clear s)
    (hlow : 0 ≤ s.nextSampleNs) (hfits : s.nextSampleNs + start.config.stepNs < 9223372036854775808)
    (hvalue : valueAt os s.nextSampleNs = some (mid, imbalance)) :
    (s.sampleNext sqrt mid imbalance).nextSampleNs = s.nextSampleNs + start.config.stepNs ∧
      Samples first start.config.stepNs os (s.sampleNext sqrt mid imbalance).nextSampleNs
        (s.sampleNext sqrt mid imbalance).record.samples ∧
      Tallied sqrt start.midPriceChgStats.clear start.imbalanceStats.clear (s.sampleNext sqrt mid imbalance) := by
  have hstep : s.step = start.config.stepNs := by
    rw [step, hconfig]
    exact asI64_of_lt (by omega)
  have hnext : (s.sampleNext sqrt mid imbalance).nextSampleNs = s.nextSampleNs + start.config.stepNs := by
    rw [sampleNext, hstep]
    exact wrapI64_of_mem (by omega) hfits
  refine ⟨hnext, ?_, ?_⟩
  · rw [hnext]
    simp only [sampleNext, sample_samples]
    exact hsamples.push hvalue
  · exact { htallied.sample s.nextSampleNs mid imbalance with }

variable (sqrt) in
/-- The first message after a reset starts the grid. -/
theorem sampled_first {start : ObiStrategy} {e : Readings × OrderbookSnapshot}
    (hvalid : e.2.validate = true) (hreceived : 0 ≤ e.2.receivedAtNs) (hpos : 0 < start.config.stepNs)
    (hfits : e.2.receivedAtNs + start.config.stepNs < 9223372036854775808) :
    ∃ s, start.resetState.feedStep sqrt e = some s ∧
      Sampled sqrt start e.2.receivedAtNs [] (start.observation e.2) s ∧
      s.record.samples = [start.observation e.2] := by
  obtain ⟨g, hg, hfeed⟩ := feedStep_of_valid (s := start.resetState) sqrt hvalid hreceived
  rw [observation_congr (show start.resetState.config = start.config from rfl)] at hfeed
  generalize ho : start.observation e.2 = o at hfeed ⊢
  have htime : o.time = e.2.receivedAtNs := by rw [← ho]; rfl
  obtain ⟨t, hobserve, hsampled, hone⟩ : ∃ t, start.resetState.observe sqrt e.2.receivedAtNs o.value.1 o.value.2 =
      some t ∧ Sampled sqrt start e.2.receivedAtNs [] o t ∧ t.record.samples = [o] := by
    have hstep : start.resetState.step = start.config.stepNs := by
      show asI64 start.config.stepNs = _
      exact asI64_of_lt (by omega)
    refine ⟨_, rfl, ?_, ?_⟩
    · have hnext : wrapI64 (e.2.receivedAtNs + start.resetState.step) =
          e.2.receivedAtNs + start.config.stepNs := by
        rw [hstep]
        exact wrapI64_of_mem (by omega) hfits
      have hvalue : valueAt [o] e.2.receivedAtNs = some o.value := by
        rw [← htime]
        exact valueAt_append_self (fun p hp => absurd hp List.not_mem_nil)
      have hnil : Samples e.2.receivedAtNs start.config.stepNs [o] e.2.receivedAtNs [] := Samples.nil [o]
      have hsamples := hnil.push hvalue
      constructor
      · rfl
      · rfl
      · exact { (tallied_resetState sqrt start).sample e.2.receivedAtNs o.value.1 o.value.2 with }
      · rfl
      · exact htime.symm
      · simp
      · simp [htime]
      · exact hnext ▸ hsamples
      · show o.time < wrapI64 (e.2.receivedAtNs + start.resetState.step)
        omega
      · show wrapI64 (e.2.receivedAtNs + start.resetState.step) ≤ _
        omega
    · show [(⟨e.2.receivedAtNs, (o.value.1, o.value.2)⟩ : Sample)] = [o]
      rw [← htime]
  rw [hobserve] at hfeed
  obtain ⟨_, _, _, _, hgt⟩ := hg t
  refine ⟨g t, hfeed, hsampled.requote (hg t), ?_⟩
  rw [hgt]
  exact hone

variable (sqrt) in
/-- What holds of the samples while a message is taken in: they show the messages before it. -/
structure Catching (start : ObiStrategy) (first : Int) (os : List Sample) (o : Sample) (timestamp : Int)
    (s : ObiStrategy) : Prop where
  config : s.config = start.config
  maxGap : s.maxGapNs = start.maxGapNs
  tallied : Tallied sqrt start.midPriceChgStats.clear start.imbalanceStats.clear s
  ordered : ∀ p ∈ os ++ [o], p.time ≤ o.time
  samples : Samples first start.config.stepNs (os ++ [o]) s.nextSampleNs s.record.samples
  next_gt : o.time < s.nextSampleNs
  earlier : ∀ x ∈ s.record.samples, x.time < timestamp ∨ x.time = o.time

section

variable {start s : ObiStrategy} {first timestamp : Int} {os : List Sample} {o : Sample}

theorem Sampled.catching (h : Sampled sqrt start first os o s) (hpos : 0 < start.config.stepNs)
    (hle : o.time ≤ timestamp) : Catching sqrt start first os o timestamp s := by
  refine ⟨h.config, h.maxGap, h.tallied, h.ordered, h.samples, h.next_gt, fun x hx => ?_⟩
  have hxle := h.samples.time_le (by omega) hx
  have := h.next_le
  omega

/-- A round of the catch-up loop samples what is held. -/
theorem Catching.round (h : Catching sqrt start first os o timestamp s) (hreceived : 0 ≤ o.time)
    (hfits : timestamp + start.config.stepNs < 9223372036854775808) (hlt : s.nextSampleNs < timestamp) :
    Catching sqrt start first os o timestamp (s.sampleNext sqrt o.value.1 o.value.2) ∧
      (s.sampleNext sqrt o.value.1 o.value.2).nextSampleNs = s.nextSampleNs + start.config.stepNs := by
  have hnext_gt := h.next_gt
  -- Every message is stamped before the grid time, so the last one is shown.
  have hvalue : valueAt (os ++ [o]) s.nextSampleNs = some (o.value.1, o.value.2) := by
    rw [valueAt_of_lt fun q hq => lt_of_le_of_lt (h.ordered q hq) hnext_gt]
    simp
  obtain ⟨hnext, hsamples, htallied⟩ :=
    sampleNext_spec h.config h.samples h.tallied (by omega) (by omega) hvalue
  refine ⟨⟨?_, ?_, htallied, h.ordered, hsamples, by omega, fun x hx => ?_⟩, hnext⟩
  · simp only [sampleNext, sample_config]
    exact h.config
  · simp only [sampleNext, sample_maxGapNs]
    exact h.maxGap
  · simp only [sampleNext, sample_samples, List.mem_append, List.mem_singleton] at hx
    rcases hx with hx | rfl
    · exact h.earlier x hx
    · exact Or.inl hlt

/-- The arriving message is sampled itself if it is stamped at the next grid time, and held. -/
theorem Catching.arrive {p : Sample} (h : Catching sqrt start first os o p.time s)
    (hreceived : 0 ≤ o.time) (hfits : p.time + start.config.stepNs < 9223372036854775808)
    (hle : o.time ≤ p.time) (hpos : 0 < start.config.stepNs) (hge : p.time ≤ s.nextSampleNs)
    (hclose : s.nextSampleNs ≤ p.time + start.config.stepNs)
    (hhead : (os ++ [o]).head?.map (·.time) = some first) :
    Sampled sqrt start first (os ++ [o]) p
      ((if s.nextSampleNs = p.time then s.sampleNext sqrt p.value.1 p.value.2 else s).hold p.time p.value.1
        p.value.2) := by
  have hnext_gt := h.next_gt
  have hordered : ∀ q ∈ (os ++ [o]) ++ [p], q.time ≤ p.time := by
    intro q hq
    rcases List.mem_append.mp hq with hq | hq
    · exact (h.ordered q hq).trans hle
    · rw [List.mem_singleton] at hq
      rw [hq]
  have hhead : ((os ++ [o]) ++ [p]).head?.map (·.time) = some first := by
    rw [← hhead]
    cases os <;> rfl
  have hsamples : Samples first start.config.stepNs ((os ++ [o]) ++ [p]) s.nextSampleNs s.record.samples :=
    h.samples.append fun x hx => (h.earlier x hx).imp id fun heq => ⟨o, by simp, heq.symm⟩
  by_cases heq : s.nextSampleNs = p.time
  · rw [if_pos heq]
    have hvalue : valueAt ((os ++ [o]) ++ [p]) s.nextSampleNs = some (p.value.1, p.value.2) := by
      rw [heq]
      exact valueAt_append_self fun q hq => by have := h.ordered q hq; omega
    obtain ⟨hnext, hsampled, htallied⟩ :=
      sampleNext_spec h.config hsamples h.tallied (by omega) (by omega) hvalue
    refine ⟨?_, ?_, { htallied with }, rfl, rfl, hordered, hhead, hsampled, ?_, ?_⟩
    · simp only [hold, sampleNext, sample_config]
      exact h.config
    · simp only [hold, sampleNext, sample_maxGapNs]
      exact h.maxGap
    · show p.time < (s.sampleNext sqrt p.value.1 p.value.2).nextSampleNs
      omega
    · show (s.sampleNext sqrt p.value.1 p.value.2).nextSampleNs ≤ _
      omega
  · rw [if_neg heq]
    refine ⟨h.config, h.maxGap, { h.tallied with }, rfl, rfl, hordered, hhead, hsamples, ?_, hclose⟩
    show p.time < s.nextSampleNs
    omega

end

/-- A step is at least one, so `2 ^ 64` of them pass every `i64`. -/
theorem le_size_mul {d : Int} {step : Nat} (hd : d < 9223372036854775808) (hstep : 0 < step) :
    d ≤ (size : Nat) * (step : Int) := by
  have hone : (1 : Int) ≤ step := by exact_mod_cast hstep
  calc d ≤ (size : Nat) * 1 := by unfold size; omega
    _ ≤ (size : Nat) * (step : Int) := Int.mul_le_mul_of_nonneg_left hone (by positivity)

/-- The next message continues the grid. -/
theorem sampled_step {start s : ObiStrategy} {first : Int} {os : List Sample} {o : Sample}
    {e : Readings × OrderbookSnapshot} (h : Sampled sqrt start first os o s)
    (hvalid : e.2.validate = true) (hreceived : 0 ≤ o.time) (hpos : 0 < start.config.stepNs)
    (hfits : e.2.receivedAtNs + start.config.stepNs < 9223372036854775808)
    (hle : o.time ≤ e.2.receivedAtNs) (hgap : e.2.receivedAtNs - o.time < start.maxGapNs) :
    ∃ t, s.feedStep sqrt e = some t ∧ Sampled sqrt start first (os ++ [o]) (start.observation e.2) t := by
  obtain ⟨g, hg, hfeed⟩ := feedStep_of_valid sqrt (s := s) hvalid (by rw [h.last]; exact hle)
  rw [observation_congr h.config, show e.2.receivedAtNs = (start.observation e.2).time from rfl] at hfeed
  generalize hp : start.observation e.2 = p at hfeed ⊢
  have htime : p.time = e.2.receivedAtNs := by rw [← hp]; rfl
  rw [← htime] at hfits hle hgap
  have hreached : s.gapReached p.time = false := by
    rw [gapReached, h.held, h.last, h.maxGap]
    simpa using hgap
  have hnext_gt := h.next_gt
  have hnext_le := h.next_le
  obtain ⟨t, hcatch, ht, hge, hclose⟩ := catchUp_spec sqrt
    (fun _ ht hlt => ht.round hreceived hfits hlt) size (h.catching hpos hle) (by omega)
    (le_size_mul (by omega) hpos)
  have hobserve : s.observe sqrt p.time p.value.1 p.value.2 = some
      ((if t.nextSampleNs = p.time then t.sampleNext sqrt p.value.1 p.value.2 else t).hold p.time p.value.1
        p.value.2) := by
    simp only [observe, advance, hreached, Bool.false_eq_true, if_false, h.held, hcatch, Option.map_some]
  rw [hobserve] at hfeed
  exact ⟨_, hfeed, Sampled.requote (ht.arrive hreceived hfits hle hpos hge hclose h.head) (hg _)⟩

/-! ### Whole feeds -/

namespace Steady

variable {s : ObiStrategy} {pre post feed : List (Readings × OrderbookSnapshot)}
  {e : Readings × OrderbookSnapshot}

theorem left (h : Steady s (pre ++ post)) : Steady s pre where
  step_pos := h.step_pos
  valid := fun e he => h.valid e (List.mem_append_left _ he)
  received := fun e he => h.received e (List.mem_append_left _ he)
  fits := fun e he => h.fits e (List.mem_append_left _ he)
  chained := h.chained.left_of_append

/-- The messages are observed in the order of their times. -/
theorem ordered (h : Steady s feed) : Ordered (feed.map fun e => s.observation e.2) := by
  have hchain : (feed.map fun e => s.observation e.2).IsChain fun o p => o.time ≤ p.time := by
    rw [List.isChain_map]
    exact h.chained.imp fun _ _ hle => hle.1
  have htrans : Trans (fun o p : Sample => o.time ≤ p.time) (fun o p : Sample => o.time ≤ p.time)
      (fun o p : Sample => o.time ≤ p.time) := ⟨fun h h' => le_trans h h'⟩
  exact List.isChain_iff_pairwise.mp hchain

end Steady

/-- How long before a message the one before it was received; nothing for a first message. -/
def messageGap (pre : List (Readings × OrderbookSnapshot)) (e : Readings × OrderbookSnapshot) : Int :=
  e.2.receivedAtNs - (pre.getLast?.map (·.2.receivedAtNs)).getD e.2.receivedAtNs

variable (sqrt)

/-- Where a feed leads from a reset. -/
inductive After (start : ObiStrategy) : List (Readings × OrderbookSnapshot) → ObiStrategy → Prop
  | reset : After start [] start.resetState
  | message {pre : List (Readings × OrderbookSnapshot)} {e : Readings × OrderbookSnapshot} {first : Int}
      {s : ObiStrategy} :
      Sampled sqrt start first (pre.map fun e => start.observation e.2) (start.observation e.2) s →
      After start (pre ++ [e]) s

variable {sqrt}

/-- One more message of a steady feed, and how many samples it can bring. -/
theorem After.step {start s : ObiStrategy} {feed : List (Readings × OrderbookSnapshot)}
    {e : Readings × OrderbookSnapshot} (h : After sqrt start feed s)
    (hsteady : Steady start (feed ++ [e])) :
    ∃ t, s.feedStep sqrt e = some t ∧ After sqrt start (feed ++ [e]) t ∧
      (t.record.samples.length : Int) ≤
        s.record.samples.length + messageGap feed e / start.config.stepNs + 1 := by
  have hvalid := hsteady.valid e (by simp)
  have hfits := hsteady.fits e (by simp)
  have hpos := hsteady.step_pos
  cases h with
  | reset =>
    obtain ⟨t, hfeed, hsampled, hone⟩ := sampled_first sqrt hvalid (hsteady.received e (by simp)) hpos hfits
    have hafter : After sqrt start ([] ++ [e]) t := .message hsampled
    refine ⟨t, hfeed, hafter, ?_⟩
    rw [hone]
    simp [messageGap, resetState]
  | @message pre e' first _ hsampled =>
    have hchained := hsteady.chained
    rw [List.append_assoc, List.singleton_append] at hchained
    obtain ⟨hle, hgap⟩ := List.isChain_pair.mp hchained.right_of_append
    obtain ⟨t, hfeed, ht⟩ := sampled_step hsampled hvalid (hsteady.received e' (by simp)) hpos hfits hle hgap
    refine ⟨t, hfeed, .message (by rw [List.map_append]; exact ht), ?_⟩
    have hmessage : messageGap (pre ++ [e']) e = e.2.receivedAtNs - e'.2.receivedAtNs := by
      simp [messageGap]
    have hnext := hsampled.samples.next_eq
    have hnext' := ht.samples.next_eq
    have hnext_gt : e'.2.receivedAtNs < s.nextSampleNs := hsampled.next_gt
    have hnext_le : t.nextSampleNs ≤ e.2.receivedAtNs + start.config.stepNs := ht.next_le
    -- All but one of the new samples are a whole step before the message.
    have hsteps : ((t.record.samples.length : Int) - s.record.samples.length - 1) * start.config.stepNs ≤
        e.2.receivedAtNs - e'.2.receivedAtNs := by
      rw [hnext] at hnext_gt
      rw [hnext'] at hnext_le
      linarith
    have := (Int.le_ediv_iff_mul_le (by exact_mod_cast hpos)).mpr hsteps
    rw [hmessage]
    omega

variable (sqrt) in
/-- A steady feed is taken in to its end. -/
theorem after_of_steady {start : ObiStrategy} {feed : List (Readings × OrderbookSnapshot)}
    (hsteady : Steady start feed) :
    ∃ s, Runs.exec (feedStep sqrt) start.resetState feed = some s ∧ After sqrt start feed s := by
  induction feed using List.reverseRecOn with
  | nil => exact ⟨_, rfl, .reset⟩
  | append_singleton feed e ih =>
    obtain ⟨s, hexec, hs⟩ := ih hsteady.left
    obtain ⟨t, hfeed, ht, _⟩ := hs.step hsteady
    refine ⟨t, ?_, ht⟩
    rw [Runs.exec_append, hexec, Option.bind_some, Runs.exec_singleton]
    exact hfeed

variable (sqrt)

/-- The samples and statistics of a state are those of a feed from a reset. -/
structure FollowsGrid (start : ObiStrategy) (feed : List (Readings × OrderbookSnapshot))
    (s : ObiStrategy) :
    Prop where
  times : s.record.samples.map (·.time) = grid start.config.stepNs (feed.map fun e => start.observation e.2)
  values : ∀ x ∈ s.record.samples, valueAt (feed.map fun e => start.observation e.2) x.time = some x.value
  changes : s.midPriceChgStats = pushAll sqrt start.midPriceChgStats.clear (increments s.record.samples)
  imbalances : s.imbalanceStats = pushAll sqrt start.imbalanceStats.clear (s.record.samples.map (·.value.2))

/-- Not a grid time of the feed. -/
def OffGrid (start : ObiStrategy) (feed : List (Readings × OrderbookSnapshot)) (time : Int) : Prop :=
  ∀ e ∈ feed.head?, ∀ k : Nat, time ≠ e.2.receivedAtNs + k * start.config.stepNs

variable {sqrt}

theorem After.followsGrid {start s : ObiStrategy} {feed : List (Readings × OrderbookSnapshot)}
    (h : After sqrt start feed s) (hsteady : Steady start feed) : FollowsGrid sqrt start feed s := by
  cases h with
  | reset =>
    exact ⟨rfl, fun x hx => absurd hx List.not_mem_nil, (tallied_resetState sqrt start).changes_eq,
      (tallied_resetState sqrt start).imbalances_eq⟩
  | @message pre e first _ hsampled =>
    have hmap : (pre ++ [e]).map (fun e => start.observation e.2) =
        pre.map (fun e => start.observation e.2) ++ [start.observation e.2] := by simp
    obtain ⟨f, hf, hfirst⟩ := Option.map_eq_some_iff.mp hsampled.head
    refine ⟨?_, by rw [hmap]; exact hsampled.samples.shown, hsampled.tallied.changes_eq,
      hsampled.tallied.imbalances_eq⟩
    rw [hmap]
    refine hsampled.samples.times_eq_grid (by exact_mod_cast hsteady.step_pos) hf hfirst
      List.getLast?_concat ?_ hsampled.next_gt hsampled.next_le
    rw [← hfirst]
    exact hsampled.ordered f (List.mem_of_head? hf)

/-- Every sample is on the grid. -/
theorem FollowsGrid.not_offGrid {start s : ObiStrategy} {feed : List (Readings × OrderbookSnapshot)}
    (h : FollowsGrid sqrt start feed s) (hsteady : Steady start feed) {x : Sample}
    (hx : x ∈ s.record.samples) : ¬ OffGrid start feed x.time := by
  have hmem : x.time ∈ grid start.config.stepNs (feed.map fun e => start.observation e.2) := by
    rw [← h.times]
    exact List.mem_map_of_mem hx
  cases feed with
  | nil => simp [grid] at hmem
  | cons e feed =>
    obtain ⟨l, hl⟩ : ∃ l, ((e :: feed).map fun e => start.observation e.2).getLast? = some l :=
      ⟨_, List.getLast?_eq_some_getLast (by simp)⟩
    have hle : e.2.receivedAtNs ≤ l.time := by
      have hordered := hsteady.ordered
      have hl := List.mem_of_getLast? hl
      rw [List.map_cons, List.mem_cons] at hl
      rcases hl with rfl | hl
      · exact le_refl _
      · exact (List.pairwise_cons.mp hordered).1 l hl
    obtain ⟨k, hk, _⟩ := (mem_grid (f := start.observation e.2) (by exact_mod_cast hsteady.step_pos) rfl hl hle).mp
      hmem
    exact fun hoff => hoff e rfl k hk

/-- After a gap the arriving message finds what a reset leaves. -/
theorem feedStep_of_gap {s : ObiStrategy} {e : Readings × OrderbookSnapshot}
    (hvalid : e.2.validate = true) (hheld : s.heldObservation.isSome = true)
    (hgap : s.maxGapNs ≤ e.2.receivedAtNs - s.lastObservationNs)
    (hle : s.lastObservationNs ≤ e.2.receivedAtNs) (hreceived : 0 ≤ e.2.receivedAtNs) :
    s.feedStep sqrt e = s.resetState.feedStep sqrt e := by
  have hreached : s.gapReached e.2.receivedAtNs = true := by
    rw [gapReached, hheld]
    simpa using hgap
  have hnot : ¬ e.2.receivedAtNs < s.lastObservationNs := by omega
  have hnot' : ¬ e.2.receivedAtNs < s.resetState.lastObservationNs := by
    show ¬ e.2.receivedAtNs < 0
    omega
  have hobserve : ∀ mid imbalance, s.observe sqrt e.2.receivedAtNs mid imbalance =
      s.resetState.observe sqrt e.2.receivedAtNs mid imbalance := by
    intro mid imbalance
    simp only [observe, hreached, if_true]
    rfl
  obtain ⟨mid, hmid⟩ := OrderbookSnapshot.exists_midPrice hvalid
  simp only [feedStep, update, hvalid, hnot, hnot', hmid, hobserve]
  rfl

/-- Messages that repeat what is held, off the grid, lengthen the samples at most. -/
theorem FollowsGrid.prefix_of_redundant {start s t : ObiStrategy}
    {feed padded : List (Readings × OrderbookSnapshot)} (hs : FollowsGrid sqrt start feed s)
    (ht : FollowsGrid sqrt start padded t) (hsteady : Steady start feed) (hpadded : Steady start padded)
    (hredundant : Redundant (OffGrid start feed) (feed.map fun e => start.observation e.2)
      (padded.map fun e => start.observation e.2)) : s.record.samples <+: t.record.samples := by
  refine prefix_of_shows ?_ hs.values ht.values fun x hx =>
    hredundant.valueAt_eq hpadded.ordered (hs.not_offGrid hsteady hx)
  rw [hs.times, ht.times]
  exact hredundant.grid_prefix (by exact_mod_cast hsteady.step_pos) hpadded.ordered

/-- **Fixed-grid sampling equals its reference.**  A steady feed is taken in to its end, and then:
    one sample for each grid time up to the last message, of what the messages show there, the
    statistics being those of the samples; each message brings at most as many samples as steps went
    by since the one before it, and one; messages that repeat what is held, off the grid, change
    neither samples nor statistics, unless they are the ones to arrive after a further grid time; and
    a message after a gap starts over. -/
theorem sampling_equals_reference (sqrt : ℚ → ℚ) (start : ObiStrategy)
    (feed : List (Readings × OrderbookSnapshot)) (hsteady : Steady start feed) :
    ∃ s, Runs.exec (feedStep sqrt) start.resetState feed = some s ∧ FollowsGrid sqrt start feed s ∧
      (∀ pre e post t, feed = pre ++ e :: post → Runs.exec (feedStep sqrt) start.resetState pre = some t →
        ∃ t', t.feedStep sqrt e = some t' ∧ (t'.record.samples.length : Int) ≤
          t.record.samples.length + messageGap pre e / start.config.stepNs + 1) ∧
      (∀ padded, Steady start padded → Redundant (OffGrid start feed)
          (feed.map fun e => start.observation e.2) (padded.map fun e => start.observation e.2) →
        ∃ t, Runs.exec (feedStep sqrt) start.resetState padded = some t ∧
          s.record.samples <+: t.record.samples ∧
          (grid start.config.stepNs (padded.map fun e => start.observation e.2) =
              grid start.config.stepNs (feed.map fun e => start.observation e.2) →
            t.record.samples = s.record.samples ∧ t.midPriceChgStats = s.midPriceChgStats ∧
              t.imbalanceStats = s.imbalanceStats)) ∧
      ∀ last e later, feed.getLast? = some last → last.2.receivedAtNs ≤ e.2.receivedAtNs →
        start.maxGapNs ≤ e.2.receivedAtNs - last.2.receivedAtNs → Steady start (e :: later) →
        ∃ t, Runs.exec (feedStep sqrt) start.resetState (feed ++ e :: later) = some t ∧
          FollowsGrid sqrt s (e :: later) t := by
  obtain ⟨s, hexec, hs⟩ := after_of_steady sqrt hsteady
  have hfollows := hs.followsGrid hsteady
  refine ⟨s, hexec, hfollows, ?_, ?_, ?_⟩
  · rintro pre e post t rfl ht
    have hpre : Steady start (pre ++ [e]) := by
      have hsplit : Steady start ((pre ++ [e]) ++ post) := by
        rwa [List.append_assoc, List.singleton_append]
      exact hsplit.left
    obtain ⟨t₀, hexec₀, hafter⟩ := after_of_steady sqrt hpre.left
    cases hexec₀.symm.trans ht
    obtain ⟨t', hstep, _, hcount⟩ := hafter.step hpre
    exact ⟨t', hstep, hcount⟩
  · intro padded hpadded hredundant
    obtain ⟨t, hexec', ht⟩ := after_of_steady sqrt hpadded
    have hfollows' := ht.followsGrid hpadded
    have hbegins := hfollows.prefix_of_redundant hfollows' hsteady hpadded hredundant
    refine ⟨t, hexec', hbegins, fun hgrid => ?_⟩
    have hlength : s.record.samples.length = t.record.samples.length := by
      have := congrArg List.length (hfollows'.times.trans (hgrid.trans hfollows.times.symm))
      simpa using this.symm
    have hsamples : t.record.samples = s.record.samples := (hbegins.eq_of_length hlength).symm
    refine ⟨hsamples, ?_, ?_⟩
    · rw [hfollows'.changes, hfollows.changes, hsamples]
    · rw [hfollows'.imbalances, hfollows.imbalances, hsamples]
  · intro last e later hlast hle hgap hlater
    cases hs with
    | reset => cases hlast
    | @message pre e' first _ hsampled =>
      rw [List.getLast?_concat] at hlast
      cases hlast
      have hlater' : Steady s (e :: later) := by
        refine ⟨?_, hlater.valid, hlater.received, ?_, ?_⟩
        · rw [hsampled.config]
          exact hlater.step_pos
        · rw [hsampled.config]
          exact hlater.fits
        · rw [hsampled.maxGap]
          exact hlater.chained
      obtain ⟨t, hexec', ht⟩ := after_of_steady sqrt hlater'
      refine ⟨t, ?_, ht.followsGrid hlater'⟩
      have hlastObservation : s.lastObservationNs = last.2.receivedAtNs := hsampled.last
      have hrestart : s.feedStep sqrt e = s.resetState.feedStep sqrt e :=
        feedStep_of_gap (hlater.valid e (by simp)) (by rw [hsampled.held]; rfl)
          (by rw [hsampled.maxGap, hlastObservation]; exact hgap) (by rw [hlastObservation]; exact hle)
          (hlater.received e (by simp))
      rw [Runs.exec_append, hexec, Option.bind_some, Runs.exec_cons, hrestart, ← Runs.exec_cons]
      exact hexec'

/-- A snapshot of one level a side, around 100. -/
def flatBook (receivedAtNs : Int) : OrderbookSnapshot where
  symbol := "BTC-USD"
  timestampNs := receivedAtNs
  receivedAtNs := receivedAtNs
  sequence := 0
  bids := [⟨some (9999 / 100), some 1⟩]
  asks := [⟨some (10001 / 100), some 1⟩]

/-- Three messages: the second within a step of the first, the third two steps later. -/
def threeMessages : List (Readings × OrderbookSnapshot) :=
  [(⟨none, none, none, 0⟩, flatBook 1), (⟨none, none, none, 0⟩, flatBook 20000001),
    (⟨none, none, none, 0⟩, flatBook 230000001)]

theorem sampling_equals_reference_threeMessages :
    ∃ s, Runs.exec (feedStep id) (new .default 10 5).resetState threeMessages = some s ∧
      FollowsGrid id (new .default 10 5) threeMessages s := by
  obtain ⟨s, hexec, hfollows, _⟩ := sampling_equals_reference id (new .default 10 5) threeMessages {
    step_pos := by decide
    valid := by decide +kernel
    received := by decide
    fits := by decide
    chained := by decide }
  exact ⟨s, hexec, hfollows⟩

end ObiStrategy

end MarketMaker
