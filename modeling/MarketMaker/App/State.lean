import MarketMaker.Trading.OrderManager

/-!
# `App`

The application of `src/main.rs`: the order managers, the shared readings they are checked
against, the account reconciliation and the arms of the main loop.  The hash maps keyed by symbol
are functions read on `config.symbols`, for which `App::new` fills all of them; a loop over a map
is a loop over `config.symbols`.

The other tasks appear as arguments: what `ObiStrategy::update` returned for a depth message, how
often `try_send` reached the executor, the clocks.  The two channels `App` writes to are lists.
Logging, statistics and the order book store are left out.
-/

set_option autoImplicit false

namespace MarketMaker

open Word64

/-- The configuration `App` reads. -/
structure AppConfig where
  symbols : List String
  orderEnabled : Bool
  positionStaleThresholdSecs : Nat
  pnlStaleThresholdSecs : Nat
  circuitBreakerRecoverySecs : Nat
  safetyPauseRecoverySecs : Nat
  depthStaleTimeoutSecs : Nat

/-- The defaults of `config.rs`, for the one symbol live trading supports. -/
def AppConfig.default : AppConfig where
  symbols := ["BTC-USD"]
  orderEnabled := true
  positionStaleThresholdSecs := 10
  pnlStaleThresholdSecs := 120
  circuitBreakerRecoverySecs := 300
  safetyPauseRecoverySecs := 30
  depthStaleTimeoutSecs := 5

/-- The clocks at one instant: system time since the epoch and `monotonic_time_ns()`. -/
structure Clocks where
  unixNs : Nat
  monotonicNs : Int
  deriving DecidableEq

/-- Unix milliseconds. -/
def Clocks.unixMs (t : Clocks) : Nat := t.unixNs / 1000000

structure ReconciliationRequest where
  generation : Nat
  reason : String
  deriving DecidableEq

structure ReconciliationResult where
  generation : Nat
  reason : String
  attempts : Nat
  deriving DecidableEq

/-- An entry of the order channel: `(symbol, generation, decision)`. -/
structure QueuedDecision where
  symbol : String
  generation : Nat
  decision : OrderDecision
  deriving DecidableEq

/-! ## Depth -/

/-- What the depth watchdog reads of an `OrderbookSnapshot`; `validates` is the answer of its
    `validate`. -/
structure DepthSnapshot where
  symbol : String
  receivedAtNs : Int
  sequence : Nat
  timestampNs : Int
  validates : Bool

structure DepthState where
  receivedAt : Int := 0
  sequence : Nat := 0
  serverTime : Int := 0
  stale : Bool := false
  deriving DecidableEq

/-- `DepthState::accept`: the new state, or `none` for a rejected snapshot. -/
def DepthState.accept (d : DepthState) (book : DepthSnapshot) (now maxAge : Int) : Option DepthState :=
  if !book.validates ∨ book.receivedAtNs ≤ 0 ∨ maxAge ≤ now - book.receivedAtNs
      ∨ book.receivedAtNs < d.receivedAt
      ∨ (book.sequence = 0 ∧ book.timestampNs = 0)
      ∨ (0 < d.sequence ∧ 0 < book.sequence ∧ book.sequence ≤ d.sequence)
      ∨ (0 < d.serverTime ∧ 0 < book.timestampNs ∧ book.timestampNs < d.serverTime)
      ∨ (book.sequence = 0 ∧ book.timestampNs ≤ d.serverTime) then none
  else some ⟨book.receivedAtNs, book.sequence, book.timestampNs, false⟩

/-! ## The application -/

structure App where
  config : AppConfig
  managers : String → OrderManager
  positions : String → SharedPosition
  sharedEquity : SharedEquity
  orderTx : Option (List QueuedDecision)
  reconciliationTx : Option (List ReconciliationRequest)
  reconciliationGeneration : Nat
  depth : String → DepthState
  depthConnectedAt : Int
  reconciliationPending : Bool
  reconciledAtNs : Int

namespace App

/-- `App::new`, with the manager configuration it assembles for each symbol; the channels are
    attached by `main` before the loop starts. -/
def new (config : AppConfig) (managerConfig : String → OrderManagerConfig) (equity : SharedEquity)
    (startMs : Int) : App where
  config := config
  managers symbol :=
    let m := OrderManager.new (managerConfig symbol) startMs
    if config.orderEnabled then
      ((m.setPauseReason .orderWebSocket).setPauseReason .marketData).setPauseReason .riskData
    else m
  positions _ := .new
  sharedEquity := equity
  orderTx := if config.orderEnabled then some [] else none
  reconciliationTx := if config.orderEnabled then some [] else none
  reconciliationGeneration := 0
  depth _ := {}
  depthConnectedAt := 0
  reconciliationPending := false
  reconciledAtNs := 0

/-- `order_managers.get_mut(symbol)` is `Some`. -/
def hasManager (app : App) (symbol : String) : Bool := app.config.symbols.contains symbol

/-- Update the manager of one symbol. -/
def modifyManager (app : App) (symbol : String) (f : OrderManager → OrderManager) : App :=
  { app with managers := Function.update app.managers symbol (f (app.managers symbol)) }

/-- `for manager in order_managers.values_mut()`. -/
def mapManagers (app : App) (f : OrderManager → OrderManager) : App :=
  { app with managers := fun symbol => f (app.managers symbol) }

/-- `manager.require_position_refresh_after_fill()` for every manager. -/
def requireAllPositionRefreshes (app : App) : App :=
  { app with managers := fun symbol =>
      (app.managers symbol).requirePositionRefreshAfterFill (app.positions symbol) }

/-- Visit the managers until one answers `true`: `if ... { break; }`. -/
def updateFirst (f : String → OrderManager → Bool × OrderManager) : List String → App → Bool × App
  | [], app => (false, app)
  | symbol :: symbols, app =>
    let r := f symbol (app.managers symbol)
    let app := { app with managers := Function.update app.managers symbol r.2 }
    if r.1 then (true, app) else updateFirst f symbols app

/-! ### Reconciliation -/

/-- What `begin_account_reconciliation` does to a manager: a manager that is not reconciling
    already also waits for two position publications. -/
def enterReconciliation (m : OrderManager) (position : SharedPosition) : OrderManager :=
  if m.hasPauseReason .reconciliation then m.beginReconciliation
  else (m.requirePositionRefreshAfterFill position).beginReconciliation

/-- `begin_account_reconciliation`. -/
def beginAccountReconciliation (app : App) (reason : String) : App :=
  if app.reconciliationPending || !app.config.orderEnabled then app
  else
    let generation := wrappingAdd app.reconciliationGeneration 1
    { app with
      reconciliationPending := true
      managers := fun symbol => enterReconciliation (app.managers symbol) (app.positions symbol)
      reconciliationGeneration := generation
      reconciliationTx := app.reconciliationTx.map (· ++ [⟨generation, reason⟩]) }

/-- `finish_account_reconciliation`. -/
def finishAccountReconciliation (app : App) (now : Clocks) : App :=
  { app with
    reconciliationPending := false
    reconciledAtNs := now.unixNs
    managers := fun symbol =>
      ((app.managers symbol).requirePositionRefreshAfterFill (app.positions symbol)).finishReconciliation }

/-- The reconciliation result arm. -/
def onReconciliationResult (app : App) (result : ReconciliationResult) (now : Clocks) : App :=
  if result.generation = app.reconciliationGeneration then app.finishAccountReconciliation now else app

/-! ### Risk data -/

def equityFresh (app : App) (now : Clocks) : Bool :=
  app.sharedEquity.isInitialized && decide (0 < app.sharedEquity.maxPositionDollar) &&
    decide (app.sharedEquity.ageMs now.unixMs ≤ saturatingMul app.config.pnlStaleThresholdSecs 1000)

def positionFresh (app : App) (symbol : String) (now : Clocks) : Bool :=
  !(app.positions symbol).isStale now.unixMs (saturatingMul app.config.positionStaleThresholdSecs 1000)

def sourcesFresh (app : App) (symbol : String) (now : Clocks) : Bool :=
  app.equityFresh now && app.positionFresh symbol now

/-- The loop body of `update_risk_pauses`: whether fresh data became stale, and the manager. -/
def refreshRiskPause (m : OrderManager) (position : SharedPosition) (sourcesFresh : Bool) :
    Bool × OrderManager :=
  let (fillPositionCurrent, m) := m.positionRefreshAfterFillComplete position
  let wasStale := m.hasPauseReason .riskData
  if sourcesFresh && fillPositionCurrent then
    (false, (m.initializePositionBaseline position).clearPauseReason .riskData)
  else
    let m := m.setPauseReason .riskData
    if !sourcesFresh && !wasStale then (true, m.beginReconciliation) else (false, m)

/-- `update_risk_pauses`. -/
def updateRiskPauses (app : App) (now : Clocks) : Bool × App :=
  if !app.config.orderEnabled then (false, app)
  else
    let refresh := fun symbol =>
      refreshRiskPause (app.managers symbol) (app.positions symbol) (app.sourcesFresh symbol now)
    (app.config.symbols.any fun symbol => (refresh symbol).1,
     { app with managers := fun symbol => (refresh symbol).2 })

/-- The periodic check of the risk data. -/
def checkRiskData (app : App) (now : Clocks) : App :=
  let (becameStale, app) := app.updateRiskPauses now
  if becameStale then app.beginAccountReconciliation "position or equity data became stale" else app

/-! ### Dispatch -/

/-- Send decisions to the executor one by one; `reaches` answers `try_send`.  A decision that does
    not get through is rolled back with `onFailure`. -/
def dispatch (symbol : String) (onFailure : OrderManager → OrderDecision → OrderManager) :
    (Nat → Bool) → OrderManager → List OrderDecision → OrderManager × List QueuedDecision × Bool
  | _, m, [] => (m, [], false)
  | reaches, m, d :: ds =>
    if reaches 0 then
      let r := dispatch symbol onFailure (fun n => reaches (n + 1)) m ds
      (r.1, ⟨symbol, m.execution.generation, d⟩ :: r.2.1, r.2.2)
    else
      let r := dispatch symbol onFailure (fun n => reaches (n + 1)) (onFailure m d) ds
      (r.1, r.2.1, true)

/-- Dispatch a manager's decisions through the channel, if there is one. -/
def dispatchAll (app : App) (symbol : String) (m : OrderManager) (ds : List OrderDecision)
    (reaches : Nat → Bool) (onFailure : OrderManager → OrderDecision → OrderManager) (now : Clocks) :
    Bool × App :=
  match app.orderTx with
  | some queue =>
    let (m, queued, failed) := dispatch symbol onFailure reaches m ds
    (failed, { app with
      managers := Function.update app.managers symbol m
      orderTx := some (queue ++ queued) })
  | none =>
    if ds.isEmpty then (false, { app with managers := Function.update app.managers symbol m })
    else
      let m := (ds.foldl OrderManager.onDispatchFailed m).triggerSafetyPause now.unixMs
      (true, { app with managers := Function.update app.managers symbol m })

/-! ### Market data -/

/-- The quote part of `process_message`. -/
def processQuote (app : App) (symbol : String) (quote : Quote) (reaches : Nat → Bool) (now : Clocks) :
    App :=
  if app.config.orderEnabled && quote.validForTrading && quote.midPrice.any (fun mid => decide (0 < mid))
      && app.hasManager symbol then
    let m := (app.managers symbol).clearPauseReason .marketData
    let (m, decisions) := m.onQuoteInto (app.positions symbol).position
      app.sharedEquity.maxPositionDollar quote now.unixNs
    let (failed, app) := app.dispatchAll symbol m decisions reaches OrderManager.onDispatchFailed now
    if failed then
      (app.mapManagers (·.triggerSafetyPause now.unixMs)).beginAccountReconciliation
        "order decision could not reach executor"
    else app
  else app

/-- `depth_stale_timeout_secs as i64 * 1_000_000_000`. -/
def depthThresholdNs (app : App) : Int := asI64 (app.config.depthStaleTimeoutSecs * 1000000000)

/-- `process_message` for a depth book; `quote` is what the strategy makes of it. -/
def processDepthBook (app : App) (book : DepthSnapshot) (quote : Option Quote) (reaches : Nat → Bool)
    (now : Clocks) : App :=
  if app.config.symbols.contains book.symbol then
    match (app.depth book.symbol).accept book now.monotonicNs app.depthThresholdNs with
    | none => app
    | some depth =>
      let app := { app with depth := Function.update app.depth book.symbol depth }
      match quote with
      | none => app
      | some quote => app.processQuote book.symbol quote reaches now
  else app

/-- `WsEvent`; the messages that change nothing here are one case. -/
inductive WsEvent where
  | connected
  | disconnected
  | depthBook (book : DepthSnapshot) (quote : Option Quote) (reaches : Nat → Bool)
  | other

/-- `process_event`. -/
def processEvent (app : App) (event : WsEvent) (now : Clocks) : Bool × App :=
  match event with
  | .connected => (false, { app with depthConnectedAt := now.monotonicNs, depth := fun _ => {} })
  | .disconnected =>
    (true, { app with depthConnectedAt := 0, depth := fun _ => {} }.mapManagers fun m =>
      (m.setPauseReason .marketData).beginReconciliation)
  | .depthBook book quote reaches => (false, app.processDepthBook book quote reaches now)
  | .other => (false, app)

/-- The depth of a symbol has been silent for the threshold and is not marked yet. -/
def depthExpired (app : App) (now : Clocks) (symbol : String) : Bool :=
  let depth := app.depth symbol
  let last := if 0 < depth.receivedAt then depth.receivedAt else app.depthConnectedAt
  decide (0 < last) && decide (app.depthThresholdNs ≤ now.monotonicNs - last) && !depth.stale

/-- `check_depth_stale`; the answer only reconnects the market data socket. -/
def checkDepthStale (app : App) (now : Clocks) : App :=
  let marked := { app with
    depth := fun symbol =>
      if app.depthExpired now symbol then { app.depth symbol with stale := true } else app.depth symbol
    managers := fun symbol =>
      if app.depthExpired now symbol then (app.managers symbol).setPauseReason .marketData
      else app.managers symbol }
  if app.config.symbols.any (app.depthExpired now) then
    marked.beginAccountReconciliation "valid depth became stale"
  else marked

/-- Its first part: what has expired is marked and paused. -/
def markDepthStale (app : App) (now : Clocks) : App :=
  { app with
    depth := fun symbol =>
      if app.depthExpired now symbol then { app.depth symbol with stale := true } else app.depth symbol
    managers := fun symbol =>
      if app.depthExpired now symbol then (app.managers symbol).setPauseReason .marketData
      else app.managers symbol }

theorem checkDepthStale_eq (app : App) (now : Clocks) :
    app.checkDepthStale now =
      if app.config.symbols.any (app.depthExpired now) then
        (app.markDepthStale now).beginAccountReconciliation "valid depth became stale"
      else app.markDepthStale now := rfl

/-- The market data arm. -/
def onMarketEvent (app : App) (event : WsEvent) (now : Clocks) : App :=
  let (disconnected, app) := (app.checkDepthStale now).processEvent event now
  if disconnected then app.beginAccountReconciliation "market data disconnected; warm-up reset" else app

/-! ### Order events -/

/-- `manager.is_retired_client_id(cl_ord_id)` for the manager the id names. -/
def isRetired (app : App) (clOrdId : String) : Bool :=
  match OrderManager.extractSymbolFromClOrdId clOrdId with
  | some symbol => app.hasManager symbol && (app.managers symbol).isRetiredClientId clOrdId
  | none => false

/-- `OrderEvent::OrderAccepted`. -/
def onAccepted (app : App) (clOrdId : String) (orderId : Int) : App :=
  match OrderManager.extractSymbolFromClOrdId clOrdId with
  | some symbol =>
    if app.hasManager symbol then
      let (matched, m) := (app.managers symbol).onOrderAccepted clOrdId orderId
      let app := { app with managers := Function.update app.managers symbol m }
      if matched then app
      else app.beginAccountReconciliation ("accepted order could not be correlated: " ++ clOrdId)
    else app.beginAccountReconciliation ("accepted order could not be correlated: " ++ clOrdId)
  | none => app.beginAccountReconciliation ("accepted order had invalid client ID: " ++ clOrdId)

/-- `OrderEvent::OrderRejected`. -/
def onRejected (app : App) (clOrdId : String) (now : Clocks) : App :=
  match OrderManager.extractSymbolFromClOrdId clOrdId with
  | some symbol =>
    if app.hasManager symbol then app.modifyManager symbol (·.onOrderRejected clOrdId now.unixMs) else app
  | none => app

/-- `on_order_fill` on the manager of a symbol. -/
def fillManager (app : App) (orderId : Int) (clOrdId : Option String) (fullyFilled : Bool)
    (symbol : String) (m : OrderManager) : Bool × OrderManager :=
  m.onOrderFill (app.positions symbol) orderId clOrdId fullyFilled

/-- Match a fill on the manager its client id names. -/
def fillNamed (app : App) (orderId : Int) (clOrdId : Option String) (fullyFilled : Bool) : Bool × App :=
  match clOrdId.bind OrderManager.extractSymbolFromClOrdId with
  | some symbol =>
    if app.hasManager symbol then
      updateFirst (app.fillManager orderId clOrdId fullyFilled) [symbol] app
    else (false, app)
  | none => (false, app)

/-- Match a fill: first the manager its client id names, then all of them. -/
def matchFill (app : App) (orderId : Int) (clOrdId : Option String) (fullyFilled : Bool) : Bool × App :=
  let named := app.fillNamed orderId clOrdId fullyFilled
  if named.1 then named
  else updateFirst (app.fillManager orderId clOrdId fullyFilled) app.config.symbols named.2

/-- What the status of a fill says: filled, partially filled, or neither. -/
inductive FillStatus where
  | full
  | partiallyFilled
  | ambiguous
  deriving DecidableEq

/-- The `status` strings the fill arm knows. -/
def fillStatus (status : Option String) : FillStatus :=
  let normalized := status.getD ""
  if normalized = "filled" then .full
  else if normalized = "partial" ∨ normalized = "partially_filled" ∨ normalized = "partially-filled" then
    .partiallyFilled
  else .ambiguous

/-- `fill_qty.parse::<f64>().unwrap_or(0.0)` is finite and positive. -/
def validFillQty (fillQty : String) : Bool :=
  ((Text.parseF64 fillQty).getD (some 0)).any fun q => decide (0 < q)

/-- `OrderEvent::OrderFilled`. -/
def onFilled (app : App) (orderId : Int) (clOrdId status : Option String) (fillQty : String) : App :=
  if !validFillQty fillQty then
    app.requireAllPositionRefreshes.beginAccountReconciliation "fill response had an invalid quantity"
  else
    match fillStatus status with
    | .ambiguous =>
      app.requireAllPositionRefreshes.beginAccountReconciliation
        "fill response lacked an unambiguous status"
    | known =>
      let (matched, app) := app.matchFill orderId clOrdId (known == .full)
      if !matched then
        app.requireAllPositionRefreshes.beginAccountReconciliation
          "fill could not be matched to a tracked order"
      else if known = .partiallyFilled then
        app.beginAccountReconciliation "partial fill requires verified remainder cleanup"
      else app

/-- A cancel confirmation on the manager its client id names. -/
def cancelNamed (app : App) (clOrdId : Option String) : Bool × App :=
  match clOrdId with
  | some id =>
    match OrderManager.extractSymbolFromClOrdId id with
    | some symbol =>
      if app.hasManager symbol then
        updateFirst (fun _ m => m.onOrderCanceledByClOrdId id) [symbol] app
      else (false, app)
    | none => (false, app)
  | none => (false, app)

/-- `OrderEvent::OrderCanceled`: first by client id, then by exchange id on every manager. -/
def onCanceled (app : App) (orderId : Int) (clOrdId : Option String) : App :=
  let named := app.cancelNamed clOrdId
  if named.1 then named.2
  else (updateFirst (fun _ m => m.onOrderCanceled orderId) app.config.symbols named.2).2

/-- `OrderEvent::CancelFailed`. -/
def onCancelFailed (app : App) (orderId : Int) : App :=
  let app := app.mapManagers (·.onCancelFailed orderId)
  if orderId = 0 ∨ app.config.symbols.any (fun s => (app.managers s).hasPauseReason .reconciliation) then
    app.beginAccountReconciliation "cancel rejection requires verified account reconciliation"
  else app

/-- The order event arm. -/
def onOrderEvent (app : App) (event : OrderEvent) (now : Clocks) : App :=
  match event with
  | .orderAccepted clOrdId orderId => if app.isRetired clOrdId then app else app.onAccepted clOrdId orderId
  | .orderRejected clOrdId _ => if app.isRetired clOrdId then app else app.onRejected clOrdId now
  | .orderFilled orderId clOrdId status fillQty _ => app.onFilled orderId clOrdId status fillQty
  | .orderCanceled orderId clOrdId => app.onCanceled orderId clOrdId
  | .cancelSubmissionAcknowledged =>
    app.beginAccountReconciliation "cancel submission acknowledged without identity"
  | .cancelFailed orderId _ => app.onCancelFailed orderId
  | .authenticated => app.mapManagers (·.resume)
  | .disconnected _ => (app.mapManagers (·.pause)).beginAccountReconciliation "order WebSocket disconnected"
  | .ambiguousResponse _ _ reason => app.beginAccountReconciliation reason
  | .connected | .orderSubmissionAcknowledged | .reconnecting | .maxRetriesExceeded | .error _ => app

/-- The executor fault arm. -/
def onExecutorFault (app : App) (fault : String) (now : Clocks) : App :=
  (app.mapManagers (·.triggerSafetyPause now.unixMs)).beginAccountReconciliation fault

/-! ### REST snapshots -/

/-- `ObservedOpenOrder`. -/
structure ObservedOpenOrder where
  orderId : Int
  clOrdId : Option String
  fillQty : Option String
  deriving DecidableEq

structure OpenOrdersSnapshot where
  symbol : String
  orders : List ObservedOpenOrder
  observedAtNs : Int

/-- `REST_CONFIRMATION_GRACE_NS`. -/
def REST_CONFIRMATION_GRACE_NS : Int := 9000000000

/-- The errors of `apply_open_orders_snapshot`. -/
inductive RestFault where
  | noManager (symbol : String)
  | missing (clOrdId : String) (orderId : Int) (symbol : String)
  | unconfirmed (clOrdId symbol : String)
  | omittedClientId (orderId : Int) (symbol : String)
  | invalidFill (orderId : Int) (symbol fillQty : String)
  | unsafeFill (orderId : Int) (symbol fillQty : String)
  | partialFill (fillQty : String) (orderId : Int) (clOrdId symbol : String)
  | conflict (orderId : Int) (clOrdId symbol : String)
  deriving DecidableEq

/-- The `Display` text of a `ParseFloatError`. -/
def parseFloatError (s : String) : String :=
  if s = "" then "cannot parse float from empty string" else "invalid float literal"

/-- The error text. -/
def RestFault.message : RestFault → String
  | .noManager symbol => "no order manager for REST symbol " ++ symbol
  | .missing clOrdId orderId symbol => "REST no longer reports tracked order " ++ toString orderId ++
      " (" ++ clOrdId ++ ") for " ++ symbol ++ "; possible fill"
  | .unconfirmed clOrdId symbol => "REST did not confirm accepted order " ++ clOrdId ++ " for " ++
      symbol ++ " within 9s; possible fill or rejection"
  | .omittedClientId orderId symbol => "REST open order " ++ toString orderId ++ " for " ++ symbol ++
      " omitted its client ID"
  | .invalidFill orderId symbol fillQty => "REST open order " ++ toString orderId ++ " for " ++ symbol ++
      " has invalid fill quantity " ++ fillQty.quote ++ ": " ++ parseFloatError fillQty
  | .unsafeFill orderId symbol fillQty => "REST open order " ++ toString orderId ++ " for " ++ symbol ++
      " has unsafe fill quantity " ++ fillQty.quote
  | .partialFill fillQty orderId clOrdId symbol => "REST detected partial fill " ++ fillQty ++
      " on order " ++ toString orderId ++ " (" ++ clOrdId ++ ") for " ++ symbol
  | .conflict orderId clOrdId symbol => "REST found untracked or conflicting order " ++
      toString orderId ++ " (" ++ clOrdId ++ ") for " ++ symbol

/-- The fill check of one observed order. -/
def fillFault (symbol clOrdId : String) (o : ObservedOpenOrder) : Option RestFault :=
  o.fillQty.bind fun fillQty =>
    match Text.parseF64 fillQty with
    | none => some (.invalidFill o.orderId symbol fillQty)
    | some none => some (.unsafeFill o.orderId symbol fillQty)
    | some (some q) =>
      if q < 0 then some (.unsafeFill o.orderId symbol fillQty)
      else if 0 < q then some (.partialFill fillQty o.orderId clOrdId symbol)
      else none

/-- The loop over the observed orders: the manager, and the number confirmed or the first fault. -/
def confirmOrders (symbol : String) (position : SharedPosition) :
    OrderManager → Nat → List ObservedOpenOrder → OrderManager × Except RestFault Nat
  | m, confirmed, [] => (m, .ok confirmed)
  | m, confirmed, o :: os =>
    match o.clOrdId with
    | none => (m, .error (.omittedClientId o.orderId symbol))
    | some clOrdId =>
      if !m.hasTrackedOrder clOrdId then confirmOrders symbol position m confirmed os
      else
        match fillFault symbol clOrdId o with
        | some fault => (m.requirePositionRefreshAfterFill position, .error fault)
        | none =>
          let (accepted, m) := m.onOrderAccepted clOrdId o.orderId
          if accepted then confirmOrders symbol position m (confirmed + 1) os
          else (m, .error (.conflict o.orderId clOrdId symbol))

/-- `apply_open_orders_snapshot` on the manager of the symbol. -/
def applySnapshot (m : OrderManager) (position : SharedPosition) (snapshot : OpenOrdersSnapshot) :
    OrderManager × Except RestFault Nat :=
  if m.hasPauseReason .reconciliation then (m, .ok 0)
  else
    match m.firstMissingRestOrder (snapshot.orders.map (·.orderId)) with
    | some (clOrdId, orderId) =>
      (m.requirePositionRefreshAfterFill position, .error (.missing clOrdId orderId snapshot.symbol))
    | none =>
      match m.firstStaleUnconfirmedRestOrder (snapshot.orders.filterMap (·.clOrdId))
          snapshot.observedAtNs REST_CONFIRMATION_GRACE_NS with
      | some clOrdId =>
        (m.requirePositionRefreshAfterFill position, .error (.unconfirmed clOrdId snapshot.symbol))
      | none => confirmOrders snapshot.symbol position m 0 snapshot.orders

/-- `apply_open_orders_snapshot`. -/
def applyOpenOrdersSnapshot (app : App) (snapshot : OpenOrdersSnapshot) : App × Except RestFault Nat :=
  if snapshot.observedAtNs ≤ app.reconciledAtNs then (app, .ok 0)
  else if app.hasManager snapshot.symbol then
    let (m, r) := applySnapshot (app.managers snapshot.symbol) (app.positions snapshot.symbol) snapshot
    ({ app with managers := Function.update app.managers snapshot.symbol m }, r)
  else (app, .error (.noManager snapshot.symbol))

/-- One snapshot of the periodic tick: a fault starts reconciliation. -/
def onOpenOrdersSnapshot (app : App) (snapshot : OpenOrdersSnapshot) : App :=
  match app.applyOpenOrdersSnapshot snapshot with
  | (app, .ok _) => app
  | (app, .error fault) => app.beginAccountReconciliation fault.message

/-! ### Periodic checks -/

structure ClearOrdersSignal where
  symbol : String
  reason : String
  pauseTrading : Bool

/-- One signal of the open-order checker. -/
def onClearOrdersSignal (app : App) (signal : ClearOrdersSignal) (now : Clocks) : App :=
  let managerHasOrders := app.hasManager signal.symbol &&
    !(app.managers signal.symbol).getAllLiveOrderIds.isEmpty
  if signal.reason.startsWith "0 orders" && !managerHasOrders then app
  else
    let app := if app.hasManager signal.symbol && signal.pauseTrading then
        app.modifyManager signal.symbol (·.triggerSafetyPause now.unixMs)
      else app
    app.beginAccountReconciliation
      ("open-order checker for " ++ signal.symbol ++ ": " ++ signal.reason)

/-- A timeout cancel that does not reach the executor also pauses for safety. -/
def onTimeoutDispatchFailed (now : Clocks) (m : OrderManager) (d : OrderDecision) : OrderManager :=
  (m.onDispatchFailed d).triggerSafetyPause now.unixMs

/-- The loop of `check_order_timeouts`: did any order time out, did any dispatch fail. -/
def timeoutLoop (reaches : String → Nat → Bool) (now : Clocks) : List String → App → Bool × Bool × App
  | [], app => (false, false, app)
  | symbol :: symbols, app =>
    let (m, decisions) := (app.managers symbol).checkTimeouts now.unixNs
    let (failed, app) := app.dispatchAll symbol m decisions (reaches symbol) (onTimeoutDispatchFailed now) now
    let (timedOut, failed', app) := timeoutLoop reaches now symbols app
    (!decisions.isEmpty || timedOut, failed || failed', app)

/-- `check_order_timeouts`. -/
def checkOrderTimeouts (app : App) (reaches : String → Nat → Bool) (now : Clocks) : App :=
  if !app.config.orderEnabled || app.reconciliationPending then app
  else
    let (timedOut, failed, app) := timeoutLoop reaches now app.config.symbols app
    if failed then app.beginAccountReconciliation "timeout cancel could not reach executor"
    else if timedOut then app.beginAccountReconciliation "order or cancel response timed out"
    else app

/-- Both recovery checks of a manager, the breaker's first. -/
def checkRecovery (c : AppConfig) (m : OrderManager) (now : Clocks) : Bool × OrderManager :=
  let (breaker, m) := m.checkCircuitBreakerRecovery c.circuitBreakerRecoverySecs now.unixMs
  let (safety, m) := m.checkSafetyPauseRecovery c.safetyPauseRecoverySecs now.unixMs
  (breaker || safety, m)

/-- `check_pause_recovery`. -/
def checkPauseRecovery (app : App) (now : Clocks) : App :=
  if !app.config.orderEnabled then app
  else
    let due := app.config.symbols.any fun symbol => (checkRecovery app.config (app.managers symbol) now).1
    let app := app.mapManagers fun m => (checkRecovery app.config m now).2
    if due then app.beginAccountReconciliation "pause cooldown elapsed" else app

/-- The forced reconnect of the proactive token refresh. -/
def onTokenRefresh (app : App) : App :=
  (app.mapManagers (·.pause)).beginAccountReconciliation "JWT refresh reconnect"

structure TickSizeChangedSignal where
  symbol : String
  newTickSize : ℚ
  newLotSize : ℚ
  minOrderQty : ℚ
  newLotSize_pos : 0 < newLotSize

/-- The tick size arm. -/
def onTickSizeChanged (app : App) (signal : TickSizeChangedSignal) : App :=
  let app := app.beginAccountReconciliation ("tick/lot size changed for " ++ signal.symbol)
  if app.hasManager signal.symbol then
    app.modifyManager signal.symbol fun m =>
      (m.setPrecision signal.newTickSize signal.newLotSize signal.minOrderQty
        signal.newLotSize_pos).setPauseReason .marketData
  else app

/-! ### The main loop -/

/-- The arms of the main loop, the periodic one in its parts, and the publications of the
    position poller and the wallet tracker. -/
inductive Event where
  | market (event : WsEvent)
  | reconciliationResult (result : ReconciliationResult)
  | executorFault (fault : String)
  | order (event : OrderEvent)
  | tickSizeChanged (signal : TickSizeChangedSignal)
  | checkDepthStale
  | checkRiskData
  | openOrdersSnapshot (snapshot : OpenOrdersSnapshot)
  | clearOrdersSignal (signal : ClearOrdersSignal)
  | checkOrderTimeouts (reaches : String → Nat → Bool)
  | tokenRefresh
  | checkPauseRecovery
  | publishPosition (symbol : String) (position : ℚ)
  | publishEquity (equity : F64)

/-- Take one event. -/
def handle (app : App) (now : Clocks) : Event → App
  | .market event => app.onMarketEvent event now
  | .reconciliationResult result => app.onReconciliationResult result now
  | .executorFault fault => app.onExecutorFault fault now
  | .order event => app.onOrderEvent event now
  | .tickSizeChanged signal => app.onTickSizeChanged signal
  | .checkDepthStale => app.checkDepthStale now
  | .checkRiskData => app.checkRiskData now
  | .openOrdersSnapshot snapshot => app.onOpenOrdersSnapshot snapshot
  | .clearOrdersSignal signal => app.onClearOrdersSignal signal now
  | .checkOrderTimeouts reaches => app.checkOrderTimeouts reaches now
  | .tokenRefresh => app.onTokenRefresh
  | .checkPauseRecovery => app.checkPauseRecovery now
  | .publishPosition symbol position =>
    let shared := (app.positions symbol).set position now.unixMs
    { app with positions := Function.update app.positions symbol shared }
  | .publishEquity equity =>
    { app with sharedEquity := app.sharedEquity.setEquity equity now.unixMs }

/-- The main loop as a step function: every event may come at any time. -/
def step (app : App) (e : Clocks × Event) : Option App := some (app.handle e.1 e.2)

/-! ### A first run -/

/-- The application at the start of live trading, with the default configuration. -/
def live : App :=
  .new .default (fun symbol => { OrderManagerConfig.default with symbol := symbol }) (.new 1 10 1) 0

/-- The clocks at a full second. -/
def atSecond (n : Nat) : Clocks := ⟨n * 1000000000, n * 1000000000⟩

/-- A depth message with that sequence number, quoting one level around 100. -/
def depthQuote (n : Nat) : Clocks × Event :=
  (atSecond n, .market (.depthBook ⟨"BTC-USD", n * 1000000000, n, 0, true⟩
    (some (.oneLevel (some 99) (some 101) 1 100)) fun _ => true))

/-- Position and equity are published, the order socket authenticates, the data are checked and
    the first quote is sent. -/
def firstOrders : List (Clocks × Event) :=
  [(atSecond 1, .publishPosition "BTC-USD" 0), (atSecond 1, .publishEquity (some 1000)),
   (atSecond 1, .order .authenticated), (atSecond 1, .checkRiskData), depthQuote 1]

/-- The application after a list of events. -/
def after (app : App) (es : List (Clocks × Event)) : App := es.foldl (fun app e => app.handle e.1 e.2) app

/-- The application once the first bid and ask are sent. -/
def quoting : App := live.after firstOrders

end App

end MarketMaker
