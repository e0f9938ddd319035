import Mathlib.Algebra.BigOperators.Group.Finset.Basic
import Mathlib.Data.Rat.Floor
import MarketMaker.Base.Grid
import MarketMaker.Base.Text
import MarketMaker.Trading.Types

/-!
# `OrderManager`

The order manager of `src/trading/order_manager.rs`: client ids, the quote path, the event
handlers, the pause reasons and the two recovery gates.  The two slot arrays are one function
`orders : Slot → Option LiveOrder`; a method that mutates returns the new manager with its
result.  What the source reads through an `Arc` or from the wall clock (the shared position,
the equity-derived limit, `now`) is an argument.  Logging is left out.
-/

set_option autoImplicit false

namespace MarketMaker

open Word64

structure OrderManager where
  config : OrderManagerConfig
  orders : Slot → Option LiveOrder
  clOrdIdCounter : Nat
  sessionPrefix : String
  retiredGeneration : Nat
  stats : OrderManagerStats
  execution : ExecutionState
  lastTimeoutCheckNs : Int
  consecutiveRejections : Nat
  circuitBreakerTriggeredAtMs : Nat
  safetyPauseTriggeredAtMs : Nat
  lastOrderSentAtMs : Nat
  positionBaseline : Option ℚ
  resumeAfterPositionVersion : Option Nat
  deriving DecidableEq

namespace OrderManager

/-- `OrderManager::new`; `nowMs` is `chrono::Utc::now().timestamp_millis()`. -/
def new (config : OrderManagerConfig) (nowMs : Int) : OrderManager where
  config := config
  orders := fun _ => none
  clOrdIdCounter := 1
  sessionPrefix := "mm_" ++ config.symbol ++ "_" ++ toString nowMs
  retiredGeneration := 0
  stats := {}
  execution := .default
  lastTimeoutCheckNs := 0
  consecutiveRejections := 0
  circuitBreakerTriggeredAtMs := 0
  safetyPauseTriggeredAtMs := 0
  lastOrderSentAtMs := 0
  positionBaseline := none
  resumeAfterPositionVersion := none

/-! ## Client ids -/

/-- The id `generate_cl_ord_id` formats: `mm_<symbol>_<timestamp>_<level>_<generation>_<seq>`. -/
def formatClOrdId (sessionPrefix : String) (level : Level) (generation seq : Nat) : String :=
  sessionPrefix ++ "_" ++ toString level.val ++ "_" ++ toString generation ++ "_" ++ toString seq

/-- `generate_cl_ord_id`. -/
def generateClOrdId (m : OrderManager) (level : Level) : String × OrderManager :=
  (formatClOrdId m.sessionPrefix level m.execution.generation m.clOrdIdCounter,
   { m with clOrdIdCounter := wrappingAdd m.clOrdIdCounter 1 })

/-- `is_retired_client_id`. -/
def isRetiredClientId (m : OrderManager) (id : String) : Bool :=
  match Text.stripLeading (m.sessionPrefix ++ "_").toList id.toList with
  | none => false
  | some suffix =>
    match (suffix.splitOn '_')[1]?.bind Text.parseU64 with
    | none => false
    | some generation => decide (generation < m.retiredGeneration)

/-- `extract_symbol_from_cl_ord_id`. -/
def extractSymbolFromClOrdId (clOrdId : String) : Option String :=
  match Text.stripLeading "mm_".toList clOrdId.toList with
  | none => none
  | some rest => if '_' ∈ rest then some (String.ofList (rest.takeWhile (· ≠ '_'))) else none

/-! ## Slots -/

/-- The first slot, level by level and bid before ask, whose order satisfies `p`. -/
def findSlot (m : OrderManager) (p : LiveOrder → Bool) : Option Slot :=
  slotsByLevel.find? fun i => (m.orders i).any p

/-- `find_order`. -/
def findOrder (m : OrderManager) (clOrdId : String) : Option LiveOrder :=
  (m.findSlot fun o => o.clOrdId == clOrdId).bind m.orders

/-- `has_tracked_order`. -/
def hasTrackedOrder (m : OrderManager) (clOrdId : String) : Bool := (m.findOrder clOrdId).isSome

def setSlot (m : OrderManager) (i : Slot) (o : Option LiveOrder) : OrderManager :=
  { m with orders := Function.update m.orders i o }

@[simp] theorem setSlot_orders (m : OrderManager) (i : Slot) (o : Option LiveOrder) :
    (m.setSlot i o).orders = Function.update m.orders i o := rfl

/-- Update the order in a slot, if there is one. -/
def modifySlot (m : OrderManager) (i : Slot) (f : LiveOrder → LiveOrder) : OrderManager :=
  m.setSlot i ((m.orders i).map f)

/-- Empty the first slot whose order satisfies `p`: `clear_order_by_cl_ord_id` and
    `clear_order_by_exchange_id` are its two instances. -/
def clearFirst (m : OrderManager) (p : LiveOrder → Bool) : OrderManager :=
  match m.findSlot p with
  | some i => m.setSlot i none
  | none => m

/-- `clearFirst` touches the slots only. -/
theorem clearFirst_eq (m : OrderManager) (p : LiveOrder → Bool) :
    m.clearFirst p = { m with orders := (m.clearFirst p).orders } := by
  unfold clearFirst
  split <;> rfl

@[simp] theorem clearFirst_config (m : OrderManager) (p : LiveOrder → Bool) :
    (m.clearFirst p).config = m.config := by rw [clearFirst_eq]

@[simp] theorem clearFirst_clOrdIdCounter (m : OrderManager) (p : LiveOrder → Bool) :
    (m.clearFirst p).clOrdIdCounter = m.clOrdIdCounter := by rw [clearFirst_eq]

@[simp] theorem clearFirst_retiredGeneration (m : OrderManager) (p : LiveOrder → Bool) :
    (m.clearFirst p).retiredGeneration = m.retiredGeneration := by rw [clearFirst_eq]

@[simp] theorem clearFirst_sessionPrefix (m : OrderManager) (p : LiveOrder → Bool) :
    (m.clearFirst p).sessionPrefix = m.sessionPrefix := by rw [clearFirst_eq]

@[simp] theorem clearFirst_execution (m : OrderManager) (p : LiveOrder → Bool) :
    (m.clearFirst p).execution = m.execution := by rw [clearFirst_eq]

@[simp] theorem clearFirst_stats (m : OrderManager) (p : LiveOrder → Bool) :
    (m.clearFirst p).stats = m.stats := by rw [clearFirst_eq]

@[simp] theorem clearFirst_resumeAfterPositionVersion (m : OrderManager) (p : LiveOrder → Bool) :
    (m.clearFirst p).resumeAfterPositionVersion = m.resumeAfterPositionVersion := by
  rw [clearFirst_eq]

/-- `clear_order_by_cl_ord_id`. -/
def clearOrderByClOrdId (m : OrderManager) (clOrdId : String) : OrderManager :=
  m.clearFirst fun o => o.clOrdId == clOrdId

/-- `clear_order_by_exchange_id`. -/
def clearOrderByExchangeId (m : OrderManager) (orderId : Int) : OrderManager :=
  m.clearFirst fun o => o.orderId == some orderId

/-- `clear_all_orders`. -/
def clearAllOrders (m : OrderManager) : OrderManager := { m with orders := fun _ => none }

/-- `get_all_live_order_ids`. -/
def getAllLiveOrderIds (m : OrderManager) : List String :=
  slotsByLevel.filterMap fun i => (m.orders i).map (·.clOrdId)

/-- `set_order_pending`. -/
def setOrderPending (m : OrderManager) (i : Slot) (clOrdId : String) (price quantity : ℚ)
    (sentAtNs : Int) : OrderManager :=
  m.setSlot i (some ⟨clOrdId, none, i.1, i.2, price, quantity, .pending, sentAtNs, 0⟩)

/-- `set_order_canceling`. -/
def setOrderCanceling (m : OrderManager) (i : Slot) (now : Int) : OrderManager :=
  m.modifySlot i (·.beginCancel now)

/-! ## Pauses -/

/-- `set_pause_reason`. -/
def setPauseReason (m : OrderManager) (r : PauseReason) : OrderManager :=
  { m with execution := m.execution.setPauseReason r }

/-- `clear_pause_reason`. -/
def clearPauseReason (m : OrderManager) (r : PauseReason) : OrderManager :=
  { m with execution := m.execution.clearPauseReason r }

/-- `has_pause_reason`. -/
def hasPauseReason (m : OrderManager) (r : PauseReason) : Bool := m.execution.hasPauseReason r

/-- `pause`. -/
def pause (m : OrderManager) : OrderManager := m.setPauseReason .orderWebSocket

/-- `resume`. -/
def resume (m : OrderManager) : OrderManager := m.clearPauseReason .orderWebSocket

/-- `shutdown`. -/
def shutdown (m : OrderManager) : OrderManager := { m with execution := m.execution.beginShutdown }

/-- `begin_reconciliation`. -/
def beginReconciliation (m : OrderManager) : OrderManager := m.setPauseReason .reconciliation

/-- `trigger_safety_pause`. -/
def triggerSafetyPause (m : OrderManager) (nowMs : Nat) : OrderManager :=
  { m.setPauseReason .safety with safetyPauseTriggeredAtMs := nowMs }

/-- `initialize_position_baseline`. -/
def initializePositionBaseline (m : OrderManager) (position : SharedPosition) : OrderManager :=
  if m.positionBaseline.isNone then { m with positionBaseline := some position.position } else m

/-- The version a fill seen now waits for: two more publications. -/
def requiredVersion (position : SharedPosition) : Nat := saturatingAdd position.updateVersion 2

/-- `require_position_refresh_after_fill`. -/
def requirePositionRefreshAfterFill (m : OrderManager) (position : SharedPosition) : OrderManager :=
  let required := requiredVersion position
  let resumeAfter :=
    match m.resumeAfterPositionVersion with
    | some current => max current required
    | none => required
  { m with resumeAfterPositionVersion := some resumeAfter }.setPauseReason .riskData

/-- `position_refresh_after_fill_complete`. -/
def positionRefreshAfterFillComplete (m : OrderManager) (position : SharedPosition) :
    Bool × OrderManager :=
  match m.resumeAfterPositionVersion with
  | none => (true, m)
  | some required =>
    if position.updateVersion < required then (false, m)
    else (true, { m with resumeAfterPositionVersion := none })

/-- `finish_reconciliation`. -/
def finishReconciliation (m : OrderManager) : OrderManager :=
  let m := { m with retiredGeneration := m.execution.generation }
  let m := m.clearAllOrders
  let m := { m with
    safetyPauseTriggeredAtMs := 0
    circuitBreakerTriggeredAtMs := 0
    consecutiveRejections := 0 }
  ((m.clearPauseReason .safety).clearPauseReason .circuitBreaker).clearPauseReason .reconciliation

/-- `cooldown_elapsed`: the answer and the timer it leaves, `0` once the answer was yes. -/
def cooldownElapsed (triggeredAtMs recoverySecs nowMs : Nat) : Bool × Nat :=
  if recoverySecs = 0 ∨ triggeredAtMs = 0 then (false, triggeredAtMs)
  else if nowMs - triggeredAtMs < saturatingMul recoverySecs 1000 then (false, triggeredAtMs)
  else (true, 0)

/-- `check_circuit_breaker_recovery`. -/
def checkCircuitBreakerRecovery (m : OrderManager) (recoverySecs nowMs : Nat) : Bool × OrderManager :=
  if m.hasPauseReason .circuitBreaker then
    let (elapsed, timer) := cooldownElapsed m.circuitBreakerTriggeredAtMs recoverySecs nowMs
    (elapsed, { m with circuitBreakerTriggeredAtMs := timer })
  else (false, m)

/-- `check_safety_pause_recovery`. -/
def checkSafetyPauseRecovery (m : OrderManager) (recoverySecs nowMs : Nat) : Bool × OrderManager :=
  if m.hasPauseReason .safety then
    let (elapsed, timer) := cooldownElapsed m.safetyPauseTriggeredAtMs recoverySecs nowMs
    (elapsed, { m with safetyPauseTriggeredAtMs := timer })
  else (false, m)

/-- `reset_circuit_breaker`. -/
def resetCircuitBreaker (m : OrderManager) : OrderManager :=
  { m with consecutiveRejections := 0, circuitBreakerTriggeredAtMs := 0 }.clearPauseReason .circuitBreaker

/-! ## Quotes -/

/-- What a slot reserves at a mid price; an empty slot reserves nothing. -/
def slotExposure (m : OrderManager) (mid : ℚ) (i : Slot) : ℚ :=
  (m.orders i).elim 0 (·.exposure mid)

/-- The exposure reserved by all orders of a side. -/
def sideExposure (m : OrderManager) (side : Side) (mid : ℚ) : ℚ :=
  ∑ level : Level, m.slotExposure mid (side, level)

/-- `reserved`: the exposure of the other levels of a side. -/
def reservedElsewhere (m : OrderManager) (i : Slot) (mid : ℚ) : ℚ :=
  ∑ level ∈ Finset.univ.erase i.2, m.slotExposure mid (i.1, level)

/-- The baseline the optional cap is measured from; `none` until the first fresh position when
    the cap is relative. -/
def limitBaseline (m : OrderManager) : Option ℚ :=
  if m.config.positionLimitFromStart then m.positionBaseline else some 0

/-- `headroom` of a side. -/
def headroom (m : OrderManager) (side : Side) (position limit baseline mid : ℚ) : ℚ :=
  let headroom := limit - side.sign * position * mid
  match m.config.absoluteMaxPositionDollar with
  | some cap => min headroom (cap - side.sign * (position - baseline) * mid)
  | none => headroom

/-- The quantity permitted at a level: the quote's, cut to the budget and the per-order cap,
    floored to lots, and zero below either minimum. -/
def permittedQty (c : OrderManagerConfig) (budget price mid quantity : ℚ) : ℚ :=
  let qty := min quantity (budget / max price mid)
  let qty := match c.maxOrderQtyDollar with
    | some cap => min qty (cap / price)
    | none => qty
  let qty := Grid.floorTo c.lotSize qty
  if qty < c.minOrderQty ∨ qty * price < c.minOrderQtyDollar then 0 else qty

/-- `exceeds`: an order larger than its budget or the per-order cap. -/
def exceeds (c : OrderManagerConfig) (o : LiveOrder) (budget mid : ℚ) : Bool :=
  decide (budget + 1 / 1000000000 < o.exposure mid) ||
    c.maxOrderQtyDollar.any fun cap => decide (cap + 1 / 1000000000 < o.quantity * o.price)

/-- `should_reprice`. -/
def shouldReprice (c : OrderManagerConfig) (oldPrice newPrice : ℚ) : Bool :=
  if oldPrice ≤ 0 then true
  else decide (c.repriceThresholdBps ≤ |(newPrice - oldPrice) / oldPrice| * 10000)

/-- A live order that `process_side_level` replaces: price moved, too old, or resized. -/
def needsReplacement (c : OrderManagerConfig) (o : LiveOrder) (newPrice qty : ℚ) (now : Int) : Bool :=
  shouldReprice c o.price newPrice ||
    (decide (0 < c.maxLiveAgeNs) && decide (asI64 c.maxLiveAgeNs < now - o.sentAtNs)) ||
    decide (c.lotSize * (1 / 2) ≤ |o.quantity - qty|)

/-- The `None` branch of `process_side_level`: a new order in an empty slot. -/
def placeOrder (m : OrderManager) (i : Slot) (newPrice qty : ℚ) (now : Int) :
    OrderManager × OrderDecision :=
  let (clOrdId, m) := m.generateClOrdId i.2
  let m := m.setOrderPending i clOrdId newPrice qty now
  ({ m with
     stats := { m.stats with ordersSent := m.stats.ordersSent + 1 }
     lastOrderSentAtMs := (max now 0).toNat / 1000000 },
   .send i.1 i.2 newPrice qty clOrdId)

/-- The last branch of `process_side_level`: cancel a live order to replace it. -/
def repriceOrder (m : OrderManager) (i : Slot) (now : Int) : OrderManager :=
  let m := m.setOrderCanceling i now
  { m with stats := { m.stats with reprices := m.stats.reprices + 1 } }

/-- `process_side_level`. -/
def processSideLevel (m : OrderManager) (i : Slot) (newPrice qty : ℚ) (now : Int) :
    OrderManager × Option OrderDecision :=
  match m.orders i with
  | none =>
    let (m, send) := m.placeOrder i newPrice qty now
    (m, some send)
  | some o =>
    match o.state with
    | .pending => (m, none)
    | .canceling => (m, none)
    | .live =>
      if needsReplacement m.config o newPrice qty now then
        (m.repriceOrder i now, some (.cancelAndReplace o.clOrdId i.2 newPrice qty))
      else (m, none)

/-- The part of a quote that passed the checks of `on_quote_into`. -/
structure QuoteTerms where
  prices : Slot → F64
  quantity : ℚ
  mid : ℚ
  position : ℚ
  limit : ℚ
  baseline : ℚ

/-- The budget at a slot: the side's headroom less what its other levels reserve. -/
def budget (m : OrderManager) (t : QuoteTerms) (i : Slot) : ℚ :=
  max (m.headroom i.1 t.position t.limit t.baseline t.mid - m.reservedElsewhere i t.mid) 0

/-- One iteration of the level loop of `on_quote_into`. -/
def quoteLevel (m : OrderManager) (t : QuoteTerms) (now : Int) (i : Slot) :
    OrderManager × Option OrderDecision :=
  match t.prices i with
  | none => (m, none)
  | some price =>
    if price ≤ 0 then (m, none) else
    let budget := m.budget t i
    let qty := permittedQty m.config budget price t.mid t.quantity
    match m.orders i with
    | some o =>
      if (exceeds m.config o budget t.mid || qty == 0) && o.state != .canceling then
        (m.setOrderCanceling i now, some (.cancel o.clOrdId))
      else if 0 < qty then m.processSideLevel i price qty now
      else (m, none)
    | none => if 0 < qty then m.processSideLevel i price qty now else (m, none)

/-- Run a slot action over a list of slots, collecting its decisions. -/
def sweep (f : OrderManager → Slot → OrderManager × Option OrderDecision) :
    OrderManager → List Slot → OrderManager × List OrderDecision
  | m, [] => (m, [])
  | m, i :: is =>
    let r := f m i
    let rest := sweep f r.1 is
    (rest.1, r.2.toList ++ rest.2)

/-- `cancel_exposure` at one slot. -/
def cancelSlot (now : Int) (m : OrderManager) (i : Slot) : OrderManager × Option OrderDecision :=
  match m.orders i with
  | some o => if o.state != .canceling then (m.setOrderCanceling i now, some (.cancel o.clOrdId)) else (m, none)
  | none => (m, none)

/-- `cancel_exposure`. -/
def cancelExposure (m : OrderManager) (now : Int) : OrderManager × List OrderDecision :=
  sweep (cancelSlot now) m slotsBySide

/-- The slots the two loops of `on_quote_into` visit. -/
def quotedSlots (m : OrderManager) (quote : Quote) : List Slot :=
  [Side.buy, Side.sell].flatMap fun side =>
    ((List.finRange MAX_ORDER_LEVELS).take (min m.config.numLevels quote.numLevels)).map (side, ·)

/-- `on_quote_into`.  The position is finite by its type, the limit by the formula that
    computes it. -/
def onQuoteInto (m : OrderManager) (position limit : ℚ) (quote : Quote) (now : Int) :
    OrderManager × List OrderDecision :=
  if m.execution.shutdown || m.execution.pauseReasons != 0#8 then (m, [])
  else if !quote.validForTrading then (m, [])
  else match quote.midPrice, quote.quantity with
    | some mid, some quantity =>
      if mid ≤ 0 ∨ quantity ≤ 0 then (m, [])
      else if limit ≤ 0 then (m.setPauseReason .riskData).cancelExposure now
      else match m.limitBaseline with
        | none => (m, [])
        | some baseline =>
          sweep (fun m => m.quoteLevel ⟨quote.price, quantity, mid, position, limit, baseline⟩ now) m
            (m.quotedSlots quote)
    | _, _ => (m, [])

/-! ## Timeouts -/

/-- `check_timeouts`: a late slot is kept until verified cleanup, but reconciliation starts. -/
def checkTimeouts (m : OrderManager) (now : Int) : OrderManager × List OrderDecision :=
  let decisions := slotsBySide.filterMap fun i =>
    (m.orders i).bind fun o =>
      if o.state ≠ .live ∧ asI64 m.config.pendingTimeoutNs < now - o.sentAtNs
      then some (.cancel o.clOrdId) else none
  if decisions.isEmpty then (m, decisions)
  else
    ({ m with stats := { m.stats with timeouts := m.stats.timeouts + decisions.length } }.beginReconciliation,
     decisions)

/-- `TIMEOUT_CHECK_INTERVAL_NS`. -/
def TIMEOUT_CHECK_INTERVAL_NS : Int := 1000000000

/-- `check_pending_timeouts`: at most one check per interval. -/
def checkPendingTimeouts (m : OrderManager) (now : Int) : OrderManager × List OrderDecision :=
  if now - m.lastTimeoutCheckNs < TIMEOUT_CHECK_INTERVAL_NS then (m, [])
  else { m with lastTimeoutCheckNs := now }.checkTimeouts now

/-! ## Order events -/

/-- `on_order_accepted`. -/
def onOrderAccepted (m : OrderManager) (clOrdId : String) (orderId : Int) : Bool × OrderManager :=
  match m.findSlot fun o => o.clOrdId == clOrdId with
  | none => (false, m)
  | some i =>
    if orderId ≠ 0 ∧ ((m.orders i).bind (·.orderId)).any (fun bound => bound != 0 && bound != orderId) then
      (false, m)
    else if orderId ≠ 0 ∧ slotsBySide.any (fun j => (m.orders j).any fun o =>
        o.orderId == some orderId && o.clOrdId != clOrdId) then
      (false, m)
    else
      let confirmed := (m.orders i).any fun o => o.state == .pending
      let m := { m with consecutiveRejections := 0 }.modifySlot i (·.accept orderId)
      (true, if confirmed then
        { m with stats := { m.stats with ordersAccepted := m.stats.ordersAccepted + 1 } } else m)

/-- Count a rejection. -/
def countRejection (m : OrderManager) : OrderManager :=
  { m with
    stats := { m.stats with rejections := m.stats.rejections + 1 }
    consecutiveRejections := wrappingAdd32 m.consecutiveRejections 1 }

/-- Enough consecutive rejections to trip the breaker; a threshold of `0` disables it. -/
def breakerDue (m : OrderManager) : Prop :=
  0 < m.config.circuitBreakerRejections ∧ m.config.circuitBreakerRejections ≤ m.consecutiveRejections

instance (m : OrderManager) : Decidable m.breakerDue := inferInstanceAs (Decidable (_ ∧ _))

/-- Pause and start the cooldown. -/
def tripCircuitBreaker (m : OrderManager) (nowMs : Nat) : OrderManager :=
  { m.setPauseReason .circuitBreaker with circuitBreakerTriggeredAtMs := nowMs }

/-- `on_order_rejected`. -/
def onOrderRejected (m : OrderManager) (clOrdId : String) (nowMs : Nat) : OrderManager :=
  let m := (m.clearOrderByClOrdId clOrdId).countRejection
  if m.breakerDue then m.tripCircuitBreaker nowMs else m

/-- Count a confirmed cancel. -/
def countCanceled (m : OrderManager) : OrderManager :=
  { m with stats := { m.stats with ordersCanceled := m.stats.ordersCanceled + 1 } }

/-- `on_order_canceled`. -/
def onOrderCanceled (m : OrderManager) (orderId : Int) : Bool × OrderManager :=
  match m.findSlot fun o => o.orderId == some orderId with
  | some _ => (true, (m.clearOrderByExchangeId orderId).countCanceled)
  | none => (false, m)

/-- `on_order_canceled_by_cl_ord_id`. -/
def onOrderCanceledByClOrdId (m : OrderManager) (clOrdId : String) : Bool × OrderManager :=
  match m.findSlot fun o => o.clOrdId == clOrdId with
  | some _ => (true, (m.clearOrderByClOrdId clOrdId).countCanceled)
  | none => (false, m)

/-- The identity test of `on_order_fill`: either id matches. -/
def fillMatches (orderId : Int) (clOrdId : Option String) (o : LiveOrder) : Bool :=
  (orderId != 0 && o.orderId == some orderId) || clOrdId == some o.clOrdId

/-- `on_order_fill`: a full fill frees the slot, a partial one keeps it; both wait for two
    position publications. -/
def onOrderFill (m : OrderManager) (position : SharedPosition) (orderId : Int)
    (clOrdId : Option String) (fullyFilled : Bool) : Bool × OrderManager :=
  match m.findSlot (fillMatches orderId clOrdId) with
  | none => (false, m)
  | some i =>
    let m := m.requirePositionRefreshAfterFill position
    (true, if fullyFilled then m.setSlot i none else m)

/-- `MAX_CANCEL_FAILURES`. -/
def MAX_CANCEL_FAILURES : Nat := 3

/-- `on_cancel_failed`. -/
def onCancelFailed (m : OrderManager) (orderId : Int) : OrderManager :=
  let canceling := fun o : LiveOrder => o.orderId == some orderId && o.state == .canceling
  match slotsBySide.find? fun i => (m.orders i).any canceling with
  | none => m
  | some i =>
    let failClosed := (m.orders i).any fun o => decide (MAX_CANCEL_FAILURES ≤ o.cancelFailCount + 1)
    let m := m.modifySlot i (·.failCancel failClosed)
    if failClosed then (m.setPauseReason .safety).setPauseReason .reconciliation else m

/-- `on_dispatch_failed`. -/
def onDispatchFailed (m : OrderManager) : OrderDecision → OrderManager
  | .send _ _ _ _ clOrdId => m.clearOrderByClOrdId clOrdId
  | .cancel clOrdId | .cancelAndReplace clOrdId _ _ _ =>
    { m with orders := fun i => (m.orders i).map fun o =>
        if o.clOrdId = clOrdId then { o with state := .live } else o }
  | .noAction => m

/-- `set_precision`. -/
def setPrecision (m : OrderManager) (tick lot minQty : ℚ) (hlot : 0 < lot) : OrderManager :=
  { m with
    config := { m.config with
      tickSize := tick
      lotSize := lot
      minOrderQty := minQty
      lotSize_pos := hlot } }

/-! ## REST observations -/

/-- `first_missing_rest_order`. -/
def firstMissingRestOrder (m : OrderManager) (observedOrderIds : List Int) : Option (String × Int) :=
  slotsByLevel.findSome? fun i => (m.orders i).bind fun o => o.orderId.bind fun orderId =>
    if orderId ∈ observedOrderIds then none else some (o.clOrdId, orderId)

/-- `first_stale_unconfirmed_rest_order`. -/
def firstStaleUnconfirmedRestOrder (m : OrderManager) (observedClOrdIds : List String)
    (observedAtNs graceNs : Int) : Option String :=
  slotsByLevel.findSome? fun i => (m.orders i).bind fun o =>
    if o.orderId = none ∧ o.clOrdId ∉ observedClOrdIds ∧ graceNs < observedAtNs - o.sentAtNs
    then some o.clOrdId else none

end OrderManager

end MarketMaker
