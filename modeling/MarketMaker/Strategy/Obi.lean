import Mathlib.Data.Rat.Floor
import MarketMaker.Base.SampleHold
import MarketMaker.Strategy.Rolling
import MarketMaker.Strategy.Snapshot

/-!
# `ObiStrategy`

The order book imbalance strategy of `strategy/obi.rs`.  What it reads through an `Arc` or from
the wall clock (symbol info, equity, Binance alpha, `now`) is an argument, `Readings`; `sqrt` stands
for `f64::sqrt`.  Times are `i64` and wrap in the grid loop; the counters of samples do not.

Beside the state the strategy keeps a `Record`: the observations it has taken in and the samples it
has pushed since the last `reset_state`.  Nothing reads it.
-/

set_option autoImplicit false

namespace MarketMaker

open Word64

/-- `StrategyConfig`, the fields the strategy reads. -/
structure StrategyConfig where
  tickSize : ℚ
  stepNs : Nat
  windowSteps : Nat
  updateIntervalSteps : Nat
  volToHalfSpread : ℚ
  halfSpread : ℚ
  halfSpreadBps : ℚ
  minHalfSpreadBps : ℚ
  skew : ℚ
  c1 : ℚ
  c1Ticks : ℚ
  lookingDepth : ℚ
  maxOrderQtyDollar : Option ℚ
  lotSize : ℚ
  orderLevels : Nat
  spreadLevelMultiplier : ℚ
  alphaSource : String
  binanceStaleMs : Nat
  windowSteps_pos : 0 < windowSteps

namespace StrategyConfig

/-- `StrategyConfig::default`. -/
def default : StrategyConfig where
  tickSize := 1 / 100
  stepNs := 100000000
  windowSteps := 6000
  updateIntervalSteps := 1
  volToHalfSpread := 4 / 5
  halfSpread := 0
  halfSpreadBps := 0
  minHalfSpreadBps := 2
  skew := 1
  c1 := 0
  c1Ticks := 160
  lookingDepth := 1 / 40
  maxOrderQtyDollar := none
  lotSize := 1 / 1000
  orderLevels := 1
  spreadLevelMultiplier := 3 / 2
  alphaSource := "binance"
  binanceStaleMs := 5000
  windowSteps_pos := by decide

/-- `c1`. -/
def c1Price (c : StrategyConfig) (tickSize : ℚ) : ℚ := if 0 < c.c1 then c.c1 else c.c1Ticks * tickSize

/-- `vol_scale`. -/
def volScale (sqrt : ℚ → ℚ) (c : StrategyConfig) : ℚ := sqrt (1000000000 / c.stepNs)

end StrategyConfig

/-- `SharedAlpha` of the Binance feed. -/
structure SharedAlpha where
  alpha : ℚ
  lastUpdateMs : Nat
  sampleCount : Nat

namespace SharedAlpha

/-- `SharedAlpha::is_warmed_up`. -/
def isWarmedUp (a : SharedAlpha) : Bool := decide (150 ≤ a.sampleCount)

/-- `SharedAlpha::is_stale`. -/
def isStale (a : SharedAlpha) (nowMs thresholdMs : Nat) : Bool :=
  decide (thresholdMs < nowMs - a.lastUpdateMs)

end SharedAlpha

/-- What the strategy reads of the other tasks: tick and lot size of the symbol info, the equity,
    the Binance alpha and the wall clock. -/
structure Readings where
  symbolInfo : Option (ℚ × ℚ)
  equity : Option SharedEquity
  binance : Option SharedAlpha
  nowMs : Nat

/-- A mid price and an imbalance with a time: an observation, or a sample on the grid. -/
abbrev Sample := SampleHold.Stamped (ℚ × ℚ)

/-- The observations taken in and the samples pushed since the last reset, oldest first. -/
structure Record where
  observations : List Sample
  samples : List Sample
  deriving DecidableEq

structure ObiStrategy where
  config : StrategyConfig
  useBinanceAlpha : Bool
  midPriceChgStats : RollingStats ℚ
  imbalanceStats : RollingStats ℚ
  prevMidPrice : Option ℚ
  position : ℚ
  stepCount : Nat
  lastUpdateStep : Nat
  volatility : ℚ
  alpha : ℚ
  warmedUp : Bool
  firstTimestampNs : Option Int
  latestTimestampNs : Int
  requiredHistoryNs : Nat
  totalSamples : Nat
  heldObservation : Option (ℚ × ℚ)
  nextSampleNs : Int
  lastObservationNs : Int
  maxGapNs : Int
  record : Record

/-- `MIN_SAMPLES_FOR_QUOTE`. -/
def MIN_SAMPLES_FOR_QUOTE : Nat := 100

/-- `f64::MAX`. -/
def f64Max : ℚ := 2 ^ 1024 - 2 ^ 971

namespace ObiStrategy

/-- `ObiStrategy::new`.  The two durations are products of machine integers. -/
def new (config : StrategyConfig) (requiredHistoryMinutes depthStaleSecs : Nat) : ObiStrategy where
  config := config
  useBinanceAlpha := config.alphaSource == "binance"
  midPriceChgStats := .new config.windowSteps config.windowSteps_pos
  imbalanceStats := .new config.windowSteps config.windowSteps_pos
  prevMidPrice := none
  position := 0
  stepCount := 0
  lastUpdateStep := 0
  volatility := 0
  alpha := 0
  warmedUp := false
  firstTimestampNs := none
  latestTimestampNs := 0
  requiredHistoryNs := requiredHistoryMinutes * 60 * 1000000000 % size
  totalSamples := 0
  heldObservation := none
  nextSampleNs := 0
  lastObservationNs := 0
  maxGapNs := asI64 (depthStaleSecs * 1000000000)
  record := ⟨[], []⟩

/-- `reset_state`. -/
def resetState (s : ObiStrategy) : ObiStrategy :=
  { s with
    midPriceChgStats := s.midPriceChgStats.clear
    imbalanceStats := s.imbalanceStats.clear
    prevMidPrice := none
    heldObservation := none
    nextSampleNs := 0
    lastObservationNs := 0
    stepCount := 0
    lastUpdateStep := 0
    volatility := 0
    alpha := 0
    warmedUp := false
    firstTimestampNs := none
    latestTimestampNs := 0
    totalSamples := 0
    record := ⟨[], []⟩ }

/-- `set_position`. -/
def setPosition (s : ObiStrategy) (position : ℚ) : ObiStrategy := { s with position := position }

/-- `tick_size`. -/
def tickSize (s : ObiStrategy) (r : Readings) : ℚ := (r.symbolInfo.map (·.1)).getD s.config.tickSize

/-- `lot_size`. -/
def lotSize (s : ObiStrategy) (r : Readings) : ℚ := (r.symbolInfo.map (·.2)).getD s.config.lotSize

/-- `history_duration_ns`. -/
def historyDurationNs (s : ObiStrategy) : Nat :=
  match s.firstTimestampNs with
  | some first => if first < s.latestTimestampNs then (s.latestTimestampNs - first).toNat else 0
  | none => 0

/-- `is_valid_for_trading`. -/
def isValidForTrading (s : ObiStrategy) : Bool :=
  if !s.warmedUp then false else decide (s.requiredHistoryNs ≤ s.historyDurationNs)

/-- `step_ns as i64`. -/
def step (s : ObiStrategy) : Int := asI64 s.config.stepNs

/-- `calculate_imbalance`, on a snapshot that validates. -/
def calculateImbalance (s : ObiStrategy) (b : OrderbookSnapshot) (mid : ℚ) : ℚ :=
  let lower := mid * (1 - s.config.lookingDepth)
  let upper := mid * (1 + s.config.lookingDepth)
  ((b.bids.takeWhile fun l => decide (lower ≤ l.price.getD 0)).map fun l => l.quantity.getD 0).sum -
    ((b.asks.takeWhile fun l => decide (l.price.getD 0 ≤ upper)).map fun l => l.quantity.getD 0).sum

section

variable (sqrt : ℚ → ℚ)

/-- `sample`. -/
def sample (s : ObiStrategy) (timeNs : Int) (mid imbalance : ℚ) : ObiStrategy :=
  let s := { s with
    firstTimestampNs := some (s.firstTimestampNs.getD timeNs)
    latestTimestampNs := timeNs }
  let s := match s.prevMidPrice with
    | some previous => { s with
        midPriceChgStats := s.midPriceChgStats.push sqrt (some (mid - previous))
        totalSamples := s.totalSamples + 1 }
    | none => s
  { s with
    prevMidPrice := some mid
    imbalanceStats := s.imbalanceStats.push sqrt (some imbalance)
    stepCount := s.stepCount + 1
    record := { s.record with samples := s.record.samples ++ [⟨timeNs, (mid, imbalance)⟩] } }

/-- `self.next_sample_ns += self.config.step_ns as i64` after a sample. -/
def sampleNext (s : ObiStrategy) (mid imbalance : ℚ) : ObiStrategy :=
  { s.sample sqrt s.nextSampleNs mid imbalance with nextSampleNs := wrapI64 (s.nextSampleNs + s.step) }

/-- `while self.next_sample_ns < timestamp`, with the number of rounds it may take. -/
def catchUp (timestamp : Int) (mid imbalance : ℚ) : Nat → ObiStrategy → Option ObiStrategy
  | 0, _ => none
  | rounds + 1, s =>
    if s.nextSampleNs < timestamp then catchUp timestamp mid imbalance rounds (s.sampleNext sqrt mid imbalance)
    else some s

/-- The sampling of `update`, once an observation is taken in.  In `2 ^ 64` rounds the loop has
    come back to a time it has been at: then it never ends, and the answer is `none`. -/
def advance (s : ObiStrategy) (timestamp : Int) (mid imbalance : ℚ) : Option ObiStrategy :=
  match s.heldObservation with
  | some (heldMid, heldImbalance) =>
    (catchUp sqrt timestamp heldMid heldImbalance (size + 1) s).map fun s =>
      if s.nextSampleNs = timestamp then s.sampleNext sqrt mid imbalance else s
  | none => some { s.sample sqrt timestamp mid imbalance with nextSampleNs := wrapI64 (timestamp + s.step) }

/-- `timestamp - self.last_observation_ns >= self.max_gap_ns`, with an observation to compare to. -/
def gapReached (s : ObiStrategy) (timestamp : Int) : Bool :=
  s.heldObservation.isSome && decide (s.maxGapNs ≤ timestamp - s.lastObservationNs)

/-- `self.held_observation = Some(..)` and `self.last_observation_ns = timestamp`. -/
def hold (s : ObiStrategy) (timestamp : Int) (mid imbalance : ℚ) : ObiStrategy :=
  { s with
    heldObservation := some (mid, imbalance)
    lastObservationNs := timestamp
    record := { s.record with observations := s.record.observations ++ [⟨timestamp, (mid, imbalance)⟩] } }

/-- The first part of `update`: reset after a gap, sample, and hold the observation. -/
def observe (s : ObiStrategy) (timestamp : Int) (mid imbalance : ℚ) : Option ObiStrategy :=
  let s := if s.gapReached timestamp then s.resetState else s
  (s.advance sqrt timestamp mid imbalance).map fun s => s.hold timestamp mid imbalance

end

/-- The base half-spread in ticks of `calculate_quote`. -/
def baseHalfSpreadTick (s : ObiStrategy) (tickSize mid : ℚ) : ℚ :=
  if 0 < s.config.volToHalfSpread ∧ 0 < s.volatility then s.volatility * s.config.volToHalfSpread / tickSize
  else if 0 < s.config.halfSpreadBps then mid * (s.config.halfSpreadBps / 10000) / tickSize
  else if 0 < s.config.halfSpread then s.config.halfSpread / tickSize
  else 1

/-- `multipliers[level]`. -/
def multiplier (s : ObiStrategy) (level : Nat) : ℚ :=
  if level = 0 then 1 else s.config.spreadLevelMultiplier

/-- The bid of one level: the raw price, clamped to the book, kept away from the mid, and snapped
    down to a tick. -/
def bidPrice (s : ObiStrategy) (tickSize mid bestBid fair halfSpreadTick clampedPosition : ℚ)
    (level : Nat) : ℚ :=
  let halfSpread := halfSpreadTick * s.multiplier level
  let depthTick := max (halfSpread * (1 + s.config.skew * clampedPosition)) 0
  let clamped := min (fair - depthTick * tickSize) bestBid
  let floored :=
    if 0 < s.config.minHalfSpreadBps then
      let minBid := mid * (1 - s.config.minHalfSpreadBps * s.multiplier level / 10000)
      if minBid < clamped then minBid else clamped
    else clamped
  ⌊floored / tickSize⌋ * tickSize

/-- The ask of one level. -/
def askPrice (s : ObiStrategy) (tickSize mid bestAsk fair halfSpreadTick clampedPosition : ℚ)
    (level : Nat) : ℚ :=
  let halfSpread := halfSpreadTick * s.multiplier level
  let depthTick := max (halfSpread * (1 - s.config.skew * clampedPosition)) 0
  let clamped := max (fair + depthTick * tickSize) bestAsk
  let floored :=
    if 0 < s.config.minHalfSpreadBps then
      let minAsk := mid * (1 + s.config.minHalfSpreadBps * s.multiplier level / 10000)
      if clamped < minAsk then minAsk else clamped
    else clamped
  ⌈floored / tickSize⌉ * tickSize

/-- The dollars per order: nothing before the equity is known. -/
def orderQtyDollar (s : ObiStrategy) (r : Readings) : ℚ :=
  let dollar := ((r.equity.filter (·.isInitialized)).map (·.orderQtyDollar)).getD 0
  match s.config.maxOrderQtyDollar with
  | some cap => min dollar cap
  | none => dollar

/-- `calculate_quote`. -/
def calculateQuote (s : ObiStrategy) (r : Readings) (b : OrderbookSnapshot) (mid : ℚ) : Option Quote :=
  match b.bestBidPrice, b.bestAskPrice with
  | some (some bestBid), some (some bestAsk) =>
    let tickSize := s.tickSize r
    let halfSpreadTick := s.baseHalfSpreadTick tickSize mid
    let fair := mid + s.config.c1Price tickSize * s.alpha
    let maxPositionDollar := ((r.equity.map (·.maxPositionDollar)).filter (0 < ·)).getD f64Max
    let clampedPosition := max (min (s.position * mid / maxPositionDollar) 1) (-1)
    let numLevels := min s.config.orderLevels MAX_ORDER_LEVELS
    let dollar := s.orderQtyDollar r
    if dollar ≤ 0 then none
    else some {
      bidPrices := fun level => some (if level.val < numLevels then
        s.bidPrice tickSize mid bestBid fair halfSpreadTick clampedPosition level else 0)
      askPrices := fun level => some (if level.val < numLevels then
        s.askPrice tickSize mid bestAsk fair halfSpreadTick clampedPosition level else 0)
      numLevels := numLevels
      quantity := some (⌊dollar / mid / s.lotSize r⌋ * s.lotSize r)
      midPrice := some mid
      validForTrading := s.isValidForTrading }
  | _, _ => none

/-- The alpha of `update`: Binance's if it is configured, warmed up and fresh. -/
def currentAlpha (s : ObiStrategy) (r : Readings) (imbalance : ℚ) : ℚ :=
  match if s.useBinanceAlpha then r.binance else none with
  | some binance =>
    if binance.isWarmedUp && !binance.isStale r.nowMs s.config.binanceStaleMs then binance.alpha
    else s.imbalanceStats.zscore imbalance
  | none => s.imbalanceStats.zscore imbalance

/-- The second part of `update`: the update interval, the warm-up and the quote. -/
def requote (sqrt : ℚ → ℚ) (s : ObiStrategy) (r : Readings) (b : OrderbookSnapshot) (mid imbalance : ℚ) :
    ObiStrategy × Option Quote :=
  if s.stepCount - s.lastUpdateStep < s.config.updateIntervalSteps then (s, none)
  else
    let s := { s with lastUpdateStep := s.stepCount }
    if s.totalSamples < MIN_SAMPLES_FOR_QUOTE then (s, none)
    else
      let s := { s with
        warmedUp := true
        volatility := s.midPriceChgStats.std sqrt * s.config.volScale sqrt
        alpha := s.currentAlpha r imbalance }
      (s, s.calculateQuote r b mid)

/-- `update`; `none` if it does not return. -/
def update (sqrt : ℚ → ℚ) (s : ObiStrategy) (r : Readings) (b : OrderbookSnapshot) :
    Option (ObiStrategy × Option Quote) :=
  if !b.validate ∨ b.receivedAtNs < s.lastObservationNs then some (s, none)
  else
    match b.midPrice with
    | some (some mid) =>
      let imbalance := s.calculateImbalance b mid
      (s.observe sqrt b.receivedAtNs mid imbalance).map fun s => s.requote sqrt r b mid imbalance
    | _ => some (s, none)

end ObiStrategy

end MarketMaker
