import MarketMaker.Strategy.Sampling
import MarketMaker.Strategy.WindowStatistics

/-!
# What a quote is priced off

`update` keeps two rolling statistics and reads the volatility and the alpha off them.  Put together,
the sampling and the statistics make them functions of what the messages show at the grid times.

* `referenceVolatility`, `referenceAlpha` — the two, from the grid values alone.
* `FollowsGrid.signal` — the statistics of a state that follows the grid.
* `quote_priced_off_grid` — every quote of a steady feed is priced off the reference.
-/

set_option autoImplicit false

namespace MarketMaker

open Word64 SampleHold

namespace ObiStrategy

/-! ## The reference -/

/-- What a feed shows at each grid time up to its last message: a mid price and an imbalance. -/
def gridValues (start : ObiStrategy) (feed : List (Readings × OrderbookSnapshot)) : List (ℚ × ℚ) :=
  let messages := feed.map fun e => start.observation e.2
  (grid start.config.stepNs messages).filterMap (valueAt messages)

/-- The differences of neighbours. -/
def differences (values : List ℚ) : List ℚ := List.zipWith (· - ·) values.tail values

/-- The standard deviation of the last changes of the mid price, for a second. -/
def referenceVolatility (sqrt : ℚ → ℚ) (start : ObiStrategy) (feed : List (Readings × OrderbookSnapshot)) : ℚ :=
  let changes := differences ((gridValues start feed).map (·.1))
  sqrt (Population.variance (changes.rtake start.midPriceChgStats.window.capacity)) * start.config.volScale sqrt

/-- How many standard deviations an imbalance is from the mean of the last ones. -/
def referenceZscore (sqrt : ℚ → ℚ) (start : ObiStrategy) (feed : List (Readings × OrderbookSnapshot))
    (imbalance : ℚ) : ℚ :=
  let window := ((gridValues start feed).map (·.2)).rtake start.imbalanceStats.window.capacity
  let std := if window.length < 2 then 0 else sqrt (Population.variance window)
  if std < 1 / 10000000000 then 0 else (imbalance - Population.mean window) / std

/-- Binance's alpha if it is configured, warmed up and fresh, and else the last imbalance's score. -/
def referenceAlpha (sqrt : ℚ → ℚ) (start : ObiStrategy) (feed : List (Readings × OrderbookSnapshot))
    (r : Readings) (imbalance : ℚ) : ℚ :=
  match if start.useBinanceAlpha then r.binance else none with
  | some binance =>
    if binance.isWarmedUp && !binance.isStale r.nowMs start.config.binanceStaleMs then binance.alpha
    else referenceZscore sqrt start feed imbalance
  | none => referenceZscore sqrt start feed imbalance

/-! ## The samples are the grid values -/

theorem increments_eq (xs : List Sample) : increments xs = differences (xs.map (·.value.1)) := by
  induction xs with
  | nil => rfl
  | cons x xs ih =>
    cases xs with
    | nil => rfl
    | cons y ys =>
      rw [increments, ih]
      rfl

variable {sqrt : ℚ → ℚ} {start s : ObiStrategy} {feed : List (Readings × OrderbookSnapshot)}

theorem FollowsGrid.samples_values (h : FollowsGrid sqrt start feed s) :
    s.record.samples.map (·.value) = gridValues start feed := by
  have hshown : ∀ x ∈ s.record.samples,
      valueAt (feed.map fun e => start.observation e.2) x.time = some x.value := h.values
  unfold gridValues
  dsimp only
  rw [← h.times, List.filterMap_map, ← List.filterMap_eq_map]
  exact List.filterMap_congr fun x hx => (hshown x hx).symm

/-! ## The statistics of the samples -/

theorem pushAll_capacity (sqrt : ℚ → ℚ) (stats : RollingStats ℚ) (values : List ℚ) :
    (pushAll sqrt stats values).window.capacity = stats.window.capacity := by
  induction values using List.reverseRecOn with
  | nil => rfl
  | append_singleton values value ih => rw [pushAll_append, RollingStats.push_capacity, ih]

/-- Pushed one after the other after a `clear`, the values are followed. -/
theorem follows_pushAll (sqrt : ℚ → ℚ) (stats : RollingStats ℚ) {values : List ℚ} (hlength : values.length < size) :
    RollingStats.Follows sqrt (pushAll sqrt stats.clear values) values := by
  induction values using List.reverseRecOn with
  | nil => exact RollingStats.follows_clear stats
  | append_singleton values value ih =>
    rw [List.length_append, List.length_singleton] at hlength
    rw [pushAll_append]
    exact (ih (Nat.lt_of_succ_lt hlength)).push hlength value

/-- The grid of a steady feed has fewer than `2 ^ 63` times. -/
theorem After.length_lt (h : After sqrt start feed s) (hsteady : Steady start feed) :
    s.record.samples.length < size := by
  cases h with
  | reset => exact Nat.two_pow_pos 64
  | @message pre e first _ hsampled =>
    have hlast : e ∈ pre ++ [e] := by simp
    have hreceived := hsteady.received e hlast
    have hfits := hsteady.fits e hlast
    have hnext := hsampled.samples.next_eq
    have hbound : s.nextSampleNs ≤ e.2.receivedAtNs + start.config.stepNs := hsampled.next_le
    have hfirst : 0 ≤ first := by
      obtain ⟨f, hf, rfl⟩ := Option.map_eq_some_iff.mp hsampled.head
      have hmem : f ∈ (pre ++ [e]).map fun e => start.observation e.2 := by
        rw [List.map_append]
        exact List.mem_of_head? hf
      obtain ⟨e', he', rfl⟩ := List.mem_map.mp hmem
      exact hsteady.received e' he'
    have hpos : (1 : Int) ≤ start.config.stepNs := by exact_mod_cast hsteady.step_pos
    have hle : (s.record.samples.length : Int) ≤ s.record.samples.length * start.config.stepNs :=
      le_mul_of_one_le_right (by positivity) hpos
    unfold size
    omega

theorem After.totalSamples (h : After sqrt start feed s) : s.totalSamples = s.record.samples.length - 1 := by
  cases h with
  | reset => rfl
  | message hsampled => exact hsampled.tallied.total

/-- **The statistics of a state that follows the grid are those of the grid values.** -/
theorem FollowsGrid.signal (h : FollowsGrid sqrt start feed s) (hlength : s.record.samples.length < size) :
    s.midPriceChgStats.std sqrt * start.config.volScale sqrt = referenceVolatility sqrt start feed ∧
      ∀ imbalance, s.imbalanceStats.zscore imbalance = referenceZscore sqrt start feed imbalance := by
  have hvalues := h.samples_values
  constructor
  · have hmids : s.record.samples.map (·.value.1) = (gridValues start feed).map (·.1) := by
      rw [← hvalues, List.map_map]
      rfl
    have hchanges : (increments s.record.samples).length < size := by
      rw [length_increments]
      omega
    have hfollows := follows_pushAll sqrt start.midPriceChgStats hchanges
    have hcapacity := pushAll_capacity sqrt start.midPriceChgStats.clear (increments s.record.samples)
    rw [← h.changes] at hfollows hcapacity
    unfold RollingStats.std referenceVolatility
    rw [hfollows.variance, hcapacity, increments_eq, hmids]
    rfl
  · intro imbalance
    have himbalances : s.record.samples.map (·.value.2) = (gridValues start feed).map (·.2) := by
      rw [← hvalues, List.map_map]
      rfl
    have hcount : (s.record.samples.map (·.value.2)).length < size := by
      rw [List.length_map]
      exact hlength
    have hfollows := follows_pushAll sqrt start.imbalanceStats hcount
    have hcapacity := pushAll_capacity sqrt start.imbalanceStats.clear
      (s.record.samples.map (·.value.2))
    rw [← h.imbalances] at hfollows hcapacity
    have hwindow := hfollows.window.length_eq
    unfold RollingStats.zscore referenceZscore
    dsimp only
    rw [hfollows.cachedStd, hfollows.cachedMean, ← hwindow, hcapacity, himbalances]
    rfl

/-! ## Quotes -/

/-- What no message changes. -/
def settings (s : ObiStrategy) : StrategyConfig × Bool := (s.config, s.useBinanceAlpha)

theorem sample_settings (s : ObiStrategy) (time : Int) (mid imbalance : ℚ) :
    (s.sample sqrt time mid imbalance).settings = s.settings := by
  unfold sample settings
  cases s.prevMidPrice <;> rfl

theorem catchUp_settings {timestamp : Int} {mid imbalance : ℚ} (rounds : Nat) {s t : ObiStrategy}
    (h : catchUp sqrt timestamp mid imbalance rounds s = some t) : t.settings = s.settings := by
  induction rounds generalizing s with
  | zero => cases h
  | succ rounds ih =>
    unfold catchUp at h
    split at h
    · exact (ih h).trans (sample_settings s _ mid imbalance)
    · cases h
      rfl

theorem advance_settings {s t : ObiStrategy} {timestamp : Int} {mid imbalance : ℚ}
    (h : s.advance sqrt timestamp mid imbalance = some t) : t.settings = s.settings := by
  unfold advance at h
  split at h
  · obtain ⟨u, hu, rfl⟩ := Option.map_eq_some_iff.mp h
    have hcatch := catchUp_settings (size + 1) hu
    split
    · exact (sample_settings u _ mid imbalance).trans hcatch
    · exact hcatch
  · cases h
    exact sample_settings s timestamp mid imbalance

theorem observe_settings {s t : ObiStrategy} {timestamp : Int} {mid imbalance : ℚ}
    (h : s.observe sqrt timestamp mid imbalance = some t) : t.settings = s.settings := by
  unfold observe at h
  obtain ⟨u, hadvance, rfl⟩ := Option.map_eq_some_iff.mp h
  have hu : u.settings = _ := advance_settings hadvance
  refine hu.trans ?_
  split <;> rfl

theorem feedStep_settings {s t : ObiStrategy} {e : Readings × OrderbookSnapshot}
    (h : s.feedStep sqrt e = some t) : t.settings = s.settings := by
  obtain ⟨⟨t', quote⟩, hupdate, rfl⟩ := Option.map_eq_some_iff.mp h
  unfold update at hupdate
  split at hupdate
  · cases hupdate
    rfl
  · split at hupdate
    · obtain ⟨u, hobserve, hrequote⟩ := Option.map_eq_some_iff.mp hupdate
      obtain ⟨_, _, _, _, heq⟩ := requote_fst sqrt u e.1 e.2 _ _
      rw [hrequote] at heq
      rw [heq]
      exact (observe_settings hobserve : u.settings = s.settings)
    · cases hupdate
      rfl

/-- A call of `update` that quotes. -/
structure Quotes (sqrt : ℚ → ℚ) (s : ObiStrategy) (r : Readings) (b : OrderbookSnapshot) (quote : Quote) :
    Prop where
  enough : MIN_SAMPLES_FOR_QUOTE ≤ s.totalSamples
  volatility : s.volatility = s.midPriceChgStats.std sqrt * s.config.volScale sqrt
  alpha : s.alpha = s.currentAlpha r (s.observation b).value.2
  quote : s.calculateQuote r b (s.observation b).value.1 = some quote

theorem update_quotes {s s' : ObiStrategy} {r : Readings} {b : OrderbookSnapshot} {quote : Quote}
    (h : s.update sqrt r b = some (s', some quote)) : Quotes sqrt s' r b quote := by
  unfold update at h
  split at h
  · cases h
  · split at h
    · rename_i mid hmid
      obtain ⟨t, hobserve, hrequote⟩ := Option.map_eq_some_iff.mp h
      have hobserved : ∀ u : ObiStrategy, u.config = s.config →
          (u.observation b).value = (mid, s.calculateImbalance b mid) := by
        intro u hu
        simp [observation, hmid, calculateImbalance, hu]
      have hconfig : t.config = s.config := congrArg Prod.fst (observe_settings hobserve)
      unfold requote at hrequote
      split at hrequote
      · cases hrequote
      · dsimp only at hrequote
        split at hrequote
        · cases hrequote
        · rename_i henough
          obtain ⟨hs', hquote⟩ := Prod.ext_iff.mp hrequote
          dsimp only at hs' hquote
          subst hs'
          refine ⟨Nat.not_lt.mp henough, rfl, ?_, ?_⟩
          · exact (congrArg (fun v : ℚ × ℚ => currentAlpha _ r v.2) (hobserved _ hconfig)).symm
          · exact (congrArg (fun v : ℚ × ℚ => calculateQuote _ r b v.1) (hobserved _ hconfig)).trans hquote
    · cases h

/-- A quote priced off a reference: enough grid values, and the volatility and the alpha they give. -/
structure PricedOff (sqrt : ℚ → ℚ) (start : ObiStrategy) (feed : List (Readings × OrderbookSnapshot))
    (e : Readings × OrderbookSnapshot) (s : ObiStrategy) (quote : Quote) : Prop where
  enough : MIN_SAMPLES_FOR_QUOTE < (gridValues start (feed ++ [e])).length
  volatility : s.volatility = referenceVolatility sqrt start (feed ++ [e])
  alpha : s.alpha = referenceAlpha sqrt start (feed ++ [e]) e.1 (start.observation e.2).value.2
  quote : s.calculateQuote e.1 e.2 (start.observation e.2).value.1 = some quote

/-- **Every quote of a steady feed is priced off the grid values.**  Whatever the messages in between,
    the volatility is the standard deviation of the last mid price changes from one grid time to the
    next, and StandX's alpha the score of the arriving imbalance among the last ones at grid times. -/
theorem quote_priced_off_grid (sqrt : ℚ → ℚ) (start : ObiStrategy) (feed : List (Readings × OrderbookSnapshot))
    (e : Readings × OrderbookSnapshot) (t s : ObiStrategy) (quote : Quote) (hsteady : Steady start (feed ++ [e]))
    (ht : Runs.exec (feedStep sqrt) start.resetState feed = some t)
    (h : t.update sqrt e.1 e.2 = some (s, some quote)) : PricedOff sqrt start feed e s quote := by
  have hfeed : t.feedStep sqrt e = some s := by
    unfold feedStep
    rw [h]
    rfl
  have hexec : Runs.exec (feedStep sqrt) start.resetState (feed ++ [e]) = some s := by
    rw [Runs.exec_append, ht, Option.bind_some, Runs.exec_singleton, hfeed]
  obtain ⟨s', hexec', hafter⟩ := after_of_steady sqrt hsteady
  cases hexec'.symm.trans hexec
  have hkeeps : ∀ (u : ObiStrategy) (e : Readings × OrderbookSnapshot) (u' : ObiStrategy),
      u.settings = start.settings → feedStep sqrt u e = some u' → u'.settings = start.settings :=
    fun _ _ _ hu hstep => (feedStep_settings hstep).trans hu
  have hreset : start.resetState.settings = start.settings := rfl
  have hsettings := Runs.exec_invariant (fun u : ObiStrategy => u.settings = start.settings) hkeeps hreset hexec
  have hconfig : s.config = start.config := congrArg Prod.fst hsettings
  have hbinance : s.useBinanceAlpha = start.useBinanceAlpha := congrArg Prod.snd hsettings
  have hfollows := hafter.followsGrid hsteady
  obtain ⟨hvolatility, hzscore⟩ := hfollows.signal (hafter.length_lt hsteady)
  have hquotes := update_quotes h
  have hobserved := observation_congr hconfig e.2
  refine ⟨?_, ?_, ?_, ?_⟩
  · have henough := hquotes.enough
    have htotal := hafter.totalSamples
    have hlength := congrArg List.length hfollows.samples_values
    rw [List.length_map] at hlength
    unfold MIN_SAMPLES_FOR_QUOTE at *
    omega
  · rw [hquotes.volatility, hconfig]
    exact hvolatility
  · rw [hquotes.alpha, hobserved]
    unfold currentAlpha
    rw [hbinance, hconfig, hzscore]
    rfl
  · rw [← hobserved]
    exact hquotes.quote

/-- A hundred steps of a quarter of a second, quoting StandX's alpha. -/
def hundredSteps : ObiStrategy :=
  .new { StrategyConfig.default with
    stepNs := 250000000, windowSteps := 100, alphaSource := "standx", windowSteps_pos := by decide } 0 5

/-- `f64::sqrt` of zero, one and four. -/
def sqrtSmall (x : ℚ) : ℚ := if x = 4 then 2 else x

/-- A message a step: the mid price goes up and down by one, and the bids grow and shrink by two. -/
def swing (n : Nat) : Readings × OrderbookSnapshot :=
  let up : ℚ := (n % 2 : Nat)
  (⟨some (1 / 100, 1 / 1000), some ((SharedEquity.new 1 10 1).setEquity (some 1000) 1), none, 0⟩, {
    symbol := "BTC-USD"
    timestampNs := 0
    receivedAtNs := 250000000 * n + 1
    sequence := 0
    bids := [⟨some (9999 + up), some (1 + 2 * up)⟩]
    asks := [⟨some (10001 + up), some 1⟩] })

/-- After a hundred swings the volatility is two for a second, and the low imbalance scores -1. -/
theorem quote_priced_off_grid_swings :
    ∃ t s quote, Runs.exec (feedStep sqrtSmall) hundredSteps.resetState ((List.range 100).map swing) = some t ∧
      t.update sqrtSmall (swing 100).1 (swing 100).2 = some (s, some quote) ∧
      PricedOff sqrtSmall hundredSteps ((List.range 100).map swing) (swing 100) s quote ∧
      s.volatility = 2 ∧ s.alpha = -1 := by
  have hrun : (Runs.exec (feedStep sqrtSmall) hundredSteps.resetState ((List.range 100).map swing)).any (fun t =>
      (t.update sqrtSmall (swing 100).1 (swing 100).2).any fun r =>
        r.2.isSome && decide (r.1.volatility = 2 ∧ r.1.alpha = -1)) = true := by
    decide +kernel
  obtain ⟨t, hexec, hupdate⟩ := (Option.any_eq_true _ _).mp hrun
  obtain ⟨⟨s, quote⟩, hs, hcheck⟩ := (Option.any_eq_true _ _).mp hupdate
  simp only [Bool.and_eq_true, decide_eq_true_eq] at hcheck
  obtain ⟨hquote, hvolatility, halpha⟩ := hcheck
  obtain ⟨quote, rfl⟩ := Option.isSome_iff_exists.mp hquote
  have hsteady : Steady hundredSteps ((List.range 100).map swing ++ [swing 100]) := {
    step_pos := by decide
    valid := by decide +kernel
    received := by decide +kernel
    fits := by decide +kernel
    chained := by decide +kernel }
  exact ⟨t, s, quote, hexec, hs, quote_priced_off_grid sqrtSmall hundredSteps _ (swing 100) t s quote hsteady hexec hs,
    hvolatility, halpha⟩

end ObiStrategy

end MarketMaker
