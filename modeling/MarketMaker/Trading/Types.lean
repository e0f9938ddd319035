import Mathlib.Algebra.Order.Ring.Rat
import Mathlib.Data.Fintype.Prod
import Mathlib.Tactic.NormNum
import MarketMaker.Base.Flags
import MarketMaker.Base.Word64

/-!
# Orders, pauses and shared readings

The data types of `src/trading/order_manager.rs`, with the shared cells it reads:
`ExecutionState` (pause bits, shutdown flag, generation), `SharedPosition` (`position.rs`) and
`SharedEquity` (`equity.rs`).

Finite `f64` values are exact rationals.  A value the code tests with `is_finite` is an `F64`,
`none` standing for NaN and the infinities; where the code cannot hold a non-finite value (a
position is published only after `poll_position` has checked it) the type is `ℚ` itself.
`u64` atomics keep their wrap-around (`Word64`); timestamps are integers.
-/

set_option autoImplicit false

namespace MarketMaker

open Word64

/-- An `f64` that may be non-finite. -/
abbrev F64 := Option ℚ

/-- `MAX_ORDER_LEVELS`. -/
abbrev MAX_ORDER_LEVELS : Nat := 2

instance : NeZero MAX_ORDER_LEVELS := ⟨by decide⟩

/-- An index into `bid_orders` or `ask_orders`. -/
abbrev Level := Fin MAX_ORDER_LEVELS

inductive Side where
  | buy
  | sell
  deriving DecidableEq, Repr

instance : Fintype Side := ⟨{.buy, .sell}, fun s => by cases s <;> simp⟩

/-- `let sign = if side == Side::Buy { 1.0 } else { -1.0 }`. -/
def Side.sign : Side → ℚ
  | .buy => 1
  | .sell => -1

/-- One of the four order slots: `bid_orders[level]` or `ask_orders[level]`. -/
abbrev Slot := Side × Level

/-- The slots in the order of the lookups: level by level, bid before ask. -/
def slotsByLevel : List Slot := [(.buy, 0), (.sell, 0), (.buy, 1), (.sell, 1)]

/-- The slots side by side: `bid_orders.iter().chain(ask_orders.iter())`. -/
def slotsBySide : List Slot := [(.buy, 0), (.buy, 1), (.sell, 0), (.sell, 1)]

theorem mem_slotsByLevel (i : Slot) : i ∈ slotsByLevel := by
  revert i; decide

theorem mem_slotsBySide (i : Slot) : i ∈ slotsBySide := by
  revert i; decide

inductive OrderState where
  | pending
  | live
  | canceling
  deriving DecidableEq, Repr

/-- `LiveOrder`; `order_id` is an `i64`. -/
structure LiveOrder where
  clOrdId : String
  orderId : Option Int
  side : Side
  level : Level
  price : ℚ
  quantity : ℚ
  state : OrderState
  sentAtNs : Int
  cancelFailCount : Nat
  deriving DecidableEq

namespace LiveOrder

/-- `order.quantity * order.price.max(mid)`: what the order reserves. -/
def exposure (o : LiveOrder) (mid : ℚ) : ℚ := o.quantity * max o.price mid

/-- `set_order_canceling`: the timeout clock restarts with the cancel. -/
def beginCancel (o : LiveOrder) (now : Int) : LiveOrder :=
  { o with state := .canceling, sentAtNs := now }

/-- What `on_order_accepted` does to its order: `0` is the sentinel for "no exchange id yet",
    and a cancel in flight keeps the order `Canceling`. -/
def accept (o : LiveOrder) (orderId : Int) : LiveOrder :=
  { o with
    orderId := if orderId ≠ 0 then some orderId else o.orderId
    state := if o.state = .pending then .live else o.state }

/-- What `on_cancel_failed` does to its order: back to `Live`, unless the failures are too many. -/
def failCancel (o : LiveOrder) (failClosed : Bool) : LiveOrder :=
  { o with
    cancelFailCount := o.cancelFailCount + 1
    state := if failClosed then o.state else .live }

end LiveOrder

/-- `OrderDecision`. -/
inductive OrderDecision where
  | noAction
  | send (side : Side) (level : Level) (price qty : ℚ) (clOrdId : String)
  | cancel (clOrdId : String)
  | cancelAndReplace (cancelId : String) (level : Level) (newPrice qty : ℚ)
  deriving DecidableEq

/-- The decision is a `Send`. -/
def OrderDecision.isSend : OrderDecision → Bool
  | .send .. => true
  | _ => false

/-- The client id a decision asks to cancel. -/
def OrderDecision.cancelOf : OrderDecision → Option String
  | .cancel clOrdId | .cancelAndReplace clOrdId _ _ _ => some clOrdId
  | _ => none

/-- The client id of a `Send`. -/
def OrderDecision.sendOf : OrderDecision → Option String
  | .send _ _ _ _ clOrdId => some clOrdId
  | _ => none

structure OrderManagerStats where
  ordersSent : Nat := 0
  ordersAccepted : Nat := 0
  ordersCanceled : Nat := 0
  rejections : Nat := 0
  reprices : Nat := 0
  timeouts : Nat := 0
  deriving DecidableEq

/-- `OrderManagerConfig`.  `Config::validate` and the symbol-info checks of `main` admit only
    positive lot sizes and one or two levels. -/
structure OrderManagerConfig where
  symbol : String
  repriceThresholdBps : ℚ
  pendingTimeoutNs : Nat
  maxLiveAgeNs : Nat
  tickSize : ℚ
  lotSize : ℚ
  minOrderQty : ℚ
  minOrderQtyDollar : ℚ
  circuitBreakerRejections : Nat
  numLevels : Nat
  absoluteMaxPositionDollar : Option ℚ
  positionLimitFromStart : Bool
  maxOrderQtyDollar : Option ℚ
  lotSize_pos : 0 < lotSize
  numLevels_le : numLevels ≤ MAX_ORDER_LEVELS
  deriving DecidableEq

/-- `OrderManagerConfig::default`. -/
def OrderManagerConfig.default : OrderManagerConfig where
  symbol := "TEST-USD"
  repriceThresholdBps := 1
  pendingTimeoutNs := 5000000000
  maxLiveAgeNs := 60000000000
  tickSize := 1 / 100
  lotSize := 1 / 1000
  minOrderQty := 1 / 1000
  minOrderQtyDollar := 10
  circuitBreakerRejections := 5
  numLevels := 1
  absoluteMaxPositionDollar := none
  positionLimitFromStart := false
  maxOrderQtyDollar := none
  lotSize_pos := by norm_num
  numLevels_le := by decide

/-- The fields of `strategy::Quote` that order management reads. -/
structure Quote where
  bidPrices : Level → F64
  askPrices : Level → F64
  numLevels : Nat
  quantity : F64
  midPrice : F64
  validForTrading : Bool

/-- `if side == Side::Buy { quote.bid_prices[level] } else { quote.ask_prices[level] }`. -/
def Quote.price (q : Quote) : Slot → F64
  | (.buy, level) => q.bidPrices level
  | (.sell, level) => q.askPrices level

/-- A valid quote with the same price at every level, quoting one level. -/
def Quote.oneLevel (bid ask : F64) (quantity mid : ℚ) : Quote :=
  ⟨fun _ => bid, fun _ => ask, 1, some quantity, some mid, true⟩

/-- `OrderEvent` of the order socket, without the connection details that are only logged. -/
inductive OrderEvent where
  | connected
  | authenticated
  | orderAccepted (clOrdId : String) (orderId : Int)
  | orderSubmissionAcknowledged
  | orderRejected (clOrdId reason : String)
  | orderFilled (orderId : Int) (clOrdId status : Option String) (fillQty fillPrice : String)
  | orderCanceled (orderId : Int) (clOrdId : Option String)
  | cancelSubmissionAcknowledged
  | cancelFailed (orderId : Int) (reason : String)
  | disconnected (reason : String)
  | reconnecting
  | maxRetriesExceeded
  | error (message : String)
  | ambiguousResponse (requestId : Option String) (code : Option Int) (reason : String)
  deriving DecidableEq

/-! ## Pause reasons -/

inductive PauseReason where
  | orderWebSocket
  | circuitBreaker
  | safety
  | marketData
  | riskData
  | reconciliation
  deriving DecidableEq, Repr

/-- `reason as u8`. -/
def PauseReason.bits : PauseReason → BitVec 8
  | .orderWebSocket => 1
  | .circuitBreaker => 2
  | .safety => 4
  | .marketData => 8
  | .riskData => 16
  | .reconciliation => 32

theorem PauseReason.bits_ne_zero (r : PauseReason) : r.bits ≠ 0#8 := by
  cases r <;> decide

theorem PauseReason.bits_separate {r r' : PauseReason} (h : r ≠ r') :
    Flags.Separate r.bits r'.bits := by
  unfold Flags.Separate
  cases r <;> cases r' <;> first | exact absurd rfl h | rfl

/-- `ExecutionState`, shared by the manager (writer) and the order executor (reader). -/
structure ExecutionState where
  pauseReasons : BitVec 8
  shutdown : Bool
  generation : Nat
  deriving DecidableEq

namespace ExecutionState

/-- `ExecutionState::default`. -/
def default : ExecutionState := ⟨0#8, false, 0⟩

/-- `ExecutionState::permits`, the three loads taken at one instant. -/
def permits (s : ExecutionState) (generation : Nat) : Bool :=
  !s.shutdown && s.pauseReasons == 0#8 && generation == s.generation

def hasPauseReason (s : ExecutionState) (r : PauseReason) : Bool :=
  Flags.test s.pauseReasons r.bits

/-- `pause_reasons.fetch_or(reason as u8)`. -/
def fetchOrPause (s : ExecutionState) (r : PauseReason) : ExecutionState :=
  { s with pauseReasons := Flags.set s.pauseReasons r.bits }

/-- `generation.fetch_add(1)`. -/
def bumpGeneration (s : ExecutionState) : ExecutionState :=
  { s with generation := wrappingAdd s.generation 1 }

/-- `OrderManager::set_pause_reason`: a reason that was clear also bumps the generation. -/
def setPauseReason (s : ExecutionState) (r : PauseReason) : ExecutionState :=
  if s.hasPauseReason r then s.fetchOrPause r else (s.fetchOrPause r).bumpGeneration

/-- `OrderManager::clear_pause_reason`. -/
def clearPauseReason (s : ExecutionState) (r : PauseReason) : ExecutionState :=
  { s with pauseReasons := Flags.clear s.pauseReasons r.bits }

/-- `OrderManager::shutdown`: the flag, then the generation. -/
def beginShutdown (s : ExecutionState) : ExecutionState :=
  { s with shutdown := true }.bumpGeneration

@[simp] theorem setPauseReason_pauseReasons (s : ExecutionState) (r : PauseReason) :
    (s.setPauseReason r).pauseReasons = Flags.set s.pauseReasons r.bits := by
  unfold setPauseReason
  split <;> rfl

@[simp] theorem setPauseReason_shutdown (s : ExecutionState) (r : PauseReason) :
    (s.setPauseReason r).shutdown = s.shutdown := by
  unfold setPauseReason
  split <;> rfl

@[simp] theorem clearPauseReason_shutdown (s : ExecutionState) (r : PauseReason) :
    (s.clearPauseReason r).shutdown = s.shutdown := rfl

@[simp] theorem clearPauseReason_generation (s : ExecutionState) (r : PauseReason) :
    (s.clearPauseReason r).generation = s.generation := rfl

@[simp] theorem hasPauseReason_set_self (s : ExecutionState) (r : PauseReason) :
    (s.setPauseReason r).hasPauseReason r = true := by
  simp [hasPauseReason, Flags.test_set_self _ r.bits_ne_zero]

theorem hasPauseReason_set_of_ne (s : ExecutionState) {r r' : PauseReason} (h : r ≠ r') :
    (s.setPauseReason r).hasPauseReason r' = s.hasPauseReason r' := by
  simp [hasPauseReason, Flags.test_set_of_separate _ (PauseReason.bits_separate h)]

/-- Setting a reason never clears one. -/
theorem hasPauseReason_set_of_has {s : ExecutionState} {r' : PauseReason}
    (h : s.hasPauseReason r' = true) (r : PauseReason) :
    (s.setPauseReason r).hasPauseReason r' = true := by
  unfold hasPauseReason at *
  rw [setPauseReason_pauseReasons]
  exact Flags.test_set_of_test _ h

@[simp] theorem hasPauseReason_clear_self (s : ExecutionState) (r : PauseReason) :
    (s.clearPauseReason r).hasPauseReason r = false := by
  simp [hasPauseReason, clearPauseReason]

theorem hasPauseReason_clear_of_ne (s : ExecutionState) {r r' : PauseReason} (h : r ≠ r') :
    (s.clearPauseReason r).hasPauseReason r' = s.hasPauseReason r' := by
  simp [hasPauseReason, clearPauseReason,
    Flags.test_clear_of_separate _ (PauseReason.bits_separate h)]

/-- A set reason makes the pause word nonzero. -/
theorem pauseReasons_ne_zero {s : ExecutionState} {r : PauseReason}
    (h : s.hasPauseReason r = true) : s.pauseReasons ≠ 0#8 :=
  Flags.ne_zero_of_test h

/-- The executor may go on: no reason is set and the shutdown has not begun. -/
def Open (s : ExecutionState) : Prop := s.shutdown = false ∧ s.pauseReasons = 0#8

theorem Open.no_reason {s : ExecutionState} (h : s.Open) (r : PauseReason) :
    s.hasPauseReason r = false := by
  simp [hasPauseReason, h.2]

theorem permits_iff (s : ExecutionState) (generation : Nat) :
    s.permits generation = true ↔ s.Open ∧ generation = s.generation := by
  simp [permits, Open]

/-- The generation has not gone back, and has moved on if `s` was open and `s'` is not. -/
structure Advances (s s' : ExecutionState) : Prop where
  generation_le : s.generation ≤ s'.generation
  closing : s.Open → ¬ s'.Open → s.generation < s'.generation

theorem Advances.refl (s : ExecutionState) : Advances s s := ⟨le_rfl, fun h h' => absurd h h'⟩

theorem Advances.trans {s s' s'' : ExecutionState} (h : Advances s s') (h' : Advances s' s'') :
    Advances s s'' := by
  refine ⟨h.generation_le.trans h'.generation_le, fun hopen hclosed => ?_⟩
  by_cases hmid : s'.Open
  · exact lt_of_le_of_lt h.generation_le (h'.closing hmid hclosed)
  · exact lt_of_lt_of_le (h.closing hopen hmid) h'.generation_le

theorem bumpGeneration_generation {s : ExecutionState} (h : s.generation + 1 ≤ maxValue) :
    s.bumpGeneration.generation = s.generation + 1 :=
  wrappingAdd_of_lt (by unfold maxValue at h; unfold size; omega)

theorem setPauseReason_generation_le (s : ExecutionState) (r : PauseReason) :
    (s.setPauseReason r).generation ≤ s.generation + 1 := by
  unfold setPauseReason
  split
  · exact Nat.le_succ _
  · exact wrappingAdd_le _ _

theorem advances_setPauseReason {s : ExecutionState} (h : s.generation + 1 ≤ maxValue) (r : PauseReason) :
    Advances s (s.setPauseReason r) := by
  unfold setPauseReason
  split
  · rename_i hset
    exact ⟨le_rfl, fun hopen => absurd hopen.2 (pauseReasons_ne_zero hset)⟩
  · have hbumped : (s.fetchOrPause r).bumpGeneration.generation = s.generation + 1 :=
      bumpGeneration_generation h
    exact ⟨by omega, fun _ _ => by omega⟩

theorem advances_clearPauseReason (s : ExecutionState) (r : PauseReason) :
    Advances s (s.clearPauseReason r) := by
  refine ⟨le_rfl, fun hopen hclosed => absurd ⟨hopen.1, ?_⟩ hclosed⟩
  show Flags.clear s.pauseReasons r.bits = 0#8
  rw [hopen.2, Flags.clear, BitVec.zero_and]

theorem advances_beginShutdown {s : ExecutionState} (h : s.generation + 1 ≤ maxValue) :
    Advances s s.beginShutdown := by
  have hbumped : s.beginShutdown.generation = s.generation + 1 := bumpGeneration_generation h
  exact ⟨by omega, fun _ _ => by omega⟩

end ExecutionState

/-! ## Shared readings -/

/-- `SharedPosition`: the last published position, its publication time (Unix milliseconds,
    `0` before the first) and the publication count. -/
structure SharedPosition where
  position : ℚ
  lastUpdateMs : Nat
  updateVersion : Nat
  deriving DecidableEq

namespace SharedPosition

/-- `SharedPosition::new`. -/
def new : SharedPosition := ⟨0, 0, 0⟩

/-- `SharedPosition::set`. -/
def set (p : SharedPosition) (position : ℚ) (nowMs : Nat) : SharedPosition :=
  ⟨position, nowMs, wrappingAdd p.updateVersion 1⟩

/-- `SharedPosition::age_ms`. -/
def ageMs (p : SharedPosition) (nowMs : Nat) : Nat :=
  if p.lastUpdateMs = 0 then maxValue else nowMs - p.lastUpdateMs

/-- `SharedPosition::is_stale`. -/
def isStale (p : SharedPosition) (nowMs thresholdMs : Nat) : Bool :=
  decide (thresholdMs < p.ageMs nowMs)

end SharedPosition

/-- `SharedEquity`; `order_levels`, `min_order_qty_dollar` and `leverage` are fixed at
    construction. -/
structure SharedEquity where
  equity : ℚ
  orderQtyDollar : ℚ
  maxPositionDollar : ℚ
  orderLevels : Nat
  minOrderQtyDollar : ℚ
  leverage : ℚ
  lastUpdateMs : Nat
  deriving DecidableEq

namespace SharedEquity

/-- `MAX_POSITION_SAFETY_MARGIN`. -/
def MAX_POSITION_SAFETY_MARGIN : ℚ := 1 / 10

/-- `SharedEquity::new`. -/
def new (orderLevels : Nat) (minOrderQtyDollar leverage : ℚ) : SharedEquity :=
  ⟨0, 0, 0, orderLevels, minOrderQtyDollar, leverage, 0⟩

/-- `SharedEquity::set_equity`. -/
def setEquity (e : SharedEquity) (equity : F64) (nowMs : Nat) : SharedEquity :=
  let zeroed := { e with equity := 0, orderQtyDollar := 0, maxPositionDollar := 0, lastUpdateMs := nowMs }
  match equity with
  | none => zeroed
  | some equity =>
    if equity ≤ 0 then zeroed else
    let effective := equity * e.leverage
    let rawQty := effective / 5 * (9 / 10) / e.orderLevels
    let qty := max rawQty e.minOrderQtyDollar
    let orderReserve := qty * e.orderLevels
    let maxPos := max ((effective - orderReserve) * (1 - MAX_POSITION_SAFETY_MARGIN)) 0
    { e with equity := equity, orderQtyDollar := qty, maxPositionDollar := maxPos, lastUpdateMs := nowMs }

/-- `SharedEquity::is_initialized`. -/
def isInitialized (e : SharedEquity) : Bool := decide (0 < e.equity)

/-- `SharedEquity::age_ms`. -/
def ageMs (e : SharedEquity) (nowMs : Nat) : Nat :=
  if e.lastUpdateMs = 0 then maxValue else nowMs - e.lastUpdateMs

end SharedEquity

end MarketMaker
