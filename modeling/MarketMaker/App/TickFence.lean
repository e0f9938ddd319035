import MarketMaker.Base.Run
import MarketMaker.Strategy.Obi
import MarketMaker.Trading.Headroom
import MarketMaker.App.WarmUp

/-!
# The tick size fence

The main loop may change the tick and the lot size while the executor turns decisions into orders.
The executor reads both sizes after it has taken a decision from the channel and before the two
permission checks of `place_order`, each of them an atomic of its own.

## Protocol

* An arm of the main loop is the list of atomic actions it still has to do (`todo`); a `fetch_or`
  that sets its reason puts the `fetch_add` on the generation next.
* The arms are the ones that touch the pause bits, the sizes or the channel.  `work` stands for what
  an arm does to the manager besides: it changes neither its configuration nor its execution state.
* The executor's steps are its loads, the write, and giving up.  The two checks are `permits`, load
  by load.

A decision carries what it was computed with, and when it was dispatched; no step reads these.

## Results

* `drains_tickSizeChanged` — with nothing in between, the arm is `onTickSizeChanged`.
* `Inv.step` — what every step preserves.
* `written_with_its_precision` — every order is written with the sizes it was computed with.
-/

set_option autoImplicit false

namespace MarketMaker

open Word64 Runs

open App (TickSizeChangedSignal)

/-- `SharedSymbolInfo`, without the fields for display. -/
structure SharedSymbolInfo where
  tickSize : ℚ
  lotSize : ℚ
  minOrderQty : ℚ
  deriving DecidableEq

/-- `try_update`, on values that are valid: the poller has checked them. -/
def SharedSymbolInfo.tryUpdate (info : SharedSymbolInfo) (signal : TickSizeChangedSignal) :
    SharedSymbolInfo :=
  { info with
    minOrderQty := signal.minOrderQty
    tickSize := signal.newTickSize
    lotSize := signal.newLotSize }

/-- A tick size and a lot size. -/
structure Precision where
  tickSize : ℚ
  lotSize : ℚ
  deriving DecidableEq

def SharedSymbolInfo.precision (info : SharedSymbolInfo) : Precision := ⟨info.tickSize, info.lotSize⟩

/-- The precision the manager was given last. -/
def OrderManager.precision (m : OrderManager) : Precision := ⟨m.config.tickSize, m.config.lotSize⟩

/-- One atomic action of the main loop. -/
inductive Action where
  | fetchOr (r : PauseReason)
  | bump
  | fetchAnd (r : PauseReason)
  | storeShutdown
  /-- `require_position_refresh_after_fill` before its pause. -/
  | awaitPositions (position : SharedPosition)
  /-- `finish_reconciliation` before its clears. -/
  | settle
  | storeMinOrderQty (qty : ℚ)
  | storeTickSize (tick : ℚ)
  | storeLotSize (lot : ℚ)
  | setPrecision (signal : TickSizeChangedSignal)
  | resetStrategy
  /-- `try_send`, with the sizes the quote and the permitted quantity were computed with. -/
  | dispatch (decision : OrderDecision) (quoted permitted : Precision)

/-- A decision in the channel. -/
structure Tagged where
  decision : OrderDecision
  generation : Nat
  quoted : Precision
  permitted : Precision
  dispatchedAt : Nat
  deriving DecidableEq

/-- The loads of `permits`, in order. -/
inductive Load where
  | shutdown
  | pauseReasons
  | generation
  deriving DecidableEq

/-- Where the executor stands with a Send. -/
inductive SendState where
  | idle
  /-- Before `tick_size()`. -/
  | received (x : Tagged)
  /-- Before `lot_size()`. -/
  | tickRead (x : Tagged) (tick : ℚ)
  /-- In the first or the second `permits`, before a load. -/
  | checking (x : Tagged) (read : Precision) (second : Bool) (load : Load)
  /-- Both checks have passed; before the write. -/
  | writing (x : Tagged) (read : Precision) (checkedAt : Nat)
  deriving DecidableEq

/-- An order on the socket: its decision, the sizes it was formatted with, and the number of bumps
    at its second check. -/
structure Written where
  decision : Tagged
  formatted : Precision
  checkedAt : Nat
  deriving DecidableEq

/-- The main loop, the shared symbol info, the channel and the executor.  `bumps` counts the
    `fetch_add`s on the generation. -/
structure TickFence where
  manager : OrderManager
  strategy : ObiStrategy
  reconciliationPending : Bool
  todo : List Action
  info : SharedSymbolInfo
  channel : List Tagged
  executor : SendState
  bumps : Nat
  written : List Written

namespace TickFence

/-- The arms of the main loop. -/
inductive Arm where
  | pause (r : PauseReason)
  | unpause (r : PauseReason)
  | shutdown
  | work (m : OrderManager)
  | beginReconciliation (position : SharedPosition)
  | finishReconciliation (position : SharedPosition)
  | depthBook (book : OrderbookSnapshot) (position : ℚ) (equity : SharedEquity) (binance : Option SharedAlpha)
      (now : Clocks)
  | tickSizeChanged (signal : TickSizeChangedSignal) (position : SharedPosition)

inductive Event where
  | arm (a : Arm)
  /-- The next action of the main loop; `reaches` answers `try_send`. -/
  | main (reaches : Bool)
  | receive
  | loadTickSize
  | loadLotSize
  | load
  /-- Not connected, no signer, no writer, or a failed write. -/
  | fail
  | write

/-- The application at the start of live trading. -/
def new (info : SharedSymbolInfo) (config : OrderManagerConfig) (hlot : 0 < info.lotSize)
    (strategy : ObiStrategy) (startMs : Int) : TickFence where
  manager :=
    let config := { config with
      tickSize := info.tickSize
      lotSize := info.lotSize
      minOrderQty := info.minOrderQty
      lotSize_pos := hlot }
    (((OrderManager.new config startMs).setPauseReason .orderWebSocket).setPauseReason
      .marketData).setPauseReason .riskData
  strategy := strategy
  reconciliationPending := false
  todo := []
  info := info
  channel := []
  executor := .idle
  bumps := 3
  written := []

def execution (s : TickFence) : ExecutionState := s.manager.execution

def setExecution (s : TickFence) (e : ExecutionState) : TickFence :=
  { s with manager := { s.manager with execution := e } }

/-! ### The main loop -/

/-- `begin_account_reconciliation`. -/
def beginActions (s : TickFence) (position : SharedPosition) : List Action :=
  if s.reconciliationPending then []
  else if s.manager.hasPauseReason .reconciliation then [.fetchOr .reconciliation]
  else [.awaitPositions position, .fetchOr .riskData, .fetchOr .reconciliation]

/-- The tick size arm after `begin_account_reconciliation`: `try_update`, `set_precision`,
    `reset_strategy` and the pause. -/
def tickActions (signal : TickSizeChangedSignal) : List Action :=
  [.storeMinOrderQty signal.minOrderQty, .storeTickSize signal.newTickSize, .storeLotSize signal.newLotSize,
   .setPrecision signal, .resetStrategy, .fetchOr .marketData]

/-- `process_quote`: the market data pause ends, and `on_quote_into` decides.  If it finds an invalid
    limit it sets `RiskData`. -/
def quote (s : TickFence) (position limit : ℚ) (quote : Quote) (now : Clocks) : TickFence :=
  let m := s.manager.clearPauseReason .marketData
  let r := m.onQuoteInto position limit quote now.unixNs
  { s with
    manager := { r.1 with execution := m.execution }
    todo := (if r.1.hasPauseReason .riskData && !m.hasPauseReason .riskData then [.fetchOr .riskData] else []) ++
      r.2.map fun d => .dispatch d s.info.precision m.precision }

/-- An accepted depth message: the strategy reads the shared symbol info. -/
def depthBook (sqrt : ℚ → ℚ) (s : TickFence) (book : OrderbookSnapshot) (position : ℚ)
    (equity : SharedEquity) (binance : Option SharedAlpha) (now : Clocks) : Option TickFence :=
  let readings := ⟨some (s.info.tickSize, s.info.lotSize), some equity, binance, now.unixMs⟩
  ((s.strategy.setPosition position).update sqrt readings book).map fun (strategy, quote) =>
    let s := { s with strategy := strategy }
    match quote with
    | none => s
    | some quote =>
      if quote.validForTrading && quote.midPrice.any (fun mid => decide (0 < mid)) then
        s.quote position equity.maxPositionDollar quote now
      else s

/-- Enter an arm. -/
def start (sqrt : ℚ → ℚ) (s : TickFence) : Arm → Option TickFence
  | .pause r => some { s with todo := [.fetchOr r] }
  -- only the end of a reconciliation clears its reason
  | .unpause r => if r = .reconciliation then none else some { s with todo := [.fetchAnd r] }
  | .shutdown => some { s with todo := [.storeShutdown, .bump] }
  | .work m => some { s with manager := { m with config := s.manager.config, execution := s.execution } }
  | .beginReconciliation position =>
    some { s with reconciliationPending := true, todo := s.beginActions position }
  | .finishReconciliation position =>
    some { s with
      reconciliationPending := false
      todo := [.awaitPositions position, .fetchOr .riskData, .settle, .fetchAnd .safety,
        .fetchAnd .circuitBreaker, .fetchAnd .reconciliation] }
  | .depthBook book position equity binance now => s.depthBook sqrt book position equity binance now
  | .tickSizeChanged signal position =>
    some { s with
      reconciliationPending := true
      todo := s.beginActions position ++ tickActions signal }

/-- Do one action, with the others still to do. -/
def perform (s : TickFence) (reaches : Bool) (rest : List Action) : Action → TickFence
  | .fetchOr r =>
    { s.setExecution (s.execution.fetchOrPause r) with
      todo := if s.execution.hasPauseReason r then rest else .bump :: rest }
  | .bump => { s.setExecution s.execution.bumpGeneration with todo := rest, bumps := s.bumps + 1 }
  | .fetchAnd r => { s.setExecution (s.execution.clearPauseReason r) with todo := rest }
  | .storeShutdown => { s.setExecution { s.execution with shutdown := true } with todo := rest }
  | .awaitPositions position =>
    { s with
      manager := { s.manager.requirePositionRefreshAfterFill position with execution := s.execution }
      todo := rest }
  | .settle =>
    { s with manager := { s.manager.finishReconciliation with execution := s.execution }, todo := rest }
  | .storeMinOrderQty qty => { s with info := { s.info with minOrderQty := qty }, todo := rest }
  | .storeTickSize tick => { s with info := { s.info with tickSize := tick }, todo := rest }
  | .storeLotSize lot => { s with info := { s.info with lotSize := lot }, todo := rest }
  | .setPrecision signal =>
    { s with
      manager := s.manager.setPrecision signal.newTickSize signal.newLotSize signal.minOrderQty
        signal.newLotSize_pos
      todo := rest }
  | .resetStrategy => { s with strategy := s.strategy.resetState, todo := rest }
  | .dispatch d quoted permitted =>
    if reaches then
      { s with
        channel := s.channel ++ [⟨d, s.execution.generation, quoted, permitted, s.bumps⟩]
        todo := rest }
    else { s with manager := s.manager.onDispatchFailed d, todo := rest }

/-! ### The executor -/

/-- The next load of a check: the executor goes on, or the check has failed. -/
def check (s : TickFence) (x : Tagged) (read : Precision) (second : Bool) : Load → SendState
  | .shutdown => if s.execution.shutdown then .idle else .checking x read second .pauseReasons
  | .pauseReasons =>
    if s.execution.pauseReasons = 0#8 then .checking x read second .generation else .idle
  | .generation =>
    if x.generation = s.execution.generation then
      if second then .writing x read s.bumps else .checking x read true .shutdown
    else .idle

def step (sqrt : ℚ → ℚ) (s : TickFence) : Event → Option TickFence
  | .arm a => if s.todo.isEmpty then s.start sqrt a else none
  | .main reaches =>
    match s.todo with
    | a :: rest => some (s.perform reaches rest a)
    | [] => none
  | .receive =>
    match s.executor, s.channel with
    -- a Cancel is sent without a check
    | .idle, x :: rest =>
      some { s with channel := rest, executor := if x.decision.isSend then .received x else .idle }
    | _, _ => none
  | .loadTickSize =>
    match s.executor with
    | .received x => some { s with executor := .tickRead x s.info.tickSize }
    | _ => none
  | .loadLotSize =>
    match s.executor with
    | .tickRead x tick => some { s with executor := .checking x ⟨tick, s.info.lotSize⟩ false .shutdown }
    | _ => none
  | .load =>
    match s.executor with
    | .checking x read second load => some { s with executor := s.check x read second load }
    | _ => none
  | .fail => some { s with executor := .idle }
  | .write =>
    match s.executor with
    | .writing x read checkedAt =>
      some { s with executor := .idle, written := ⟨x, read, checkedAt⟩ :: s.written }
    | _ => none

/-! ## The arms, undisturbed -/

section Undisturbed

variable (sqrt : ℚ → ℚ)

/-- The main loop gets from one state to the other with nothing in between, every `try_send`
    succeeding. -/
def Drains (s s' : TickFence) : Prop :=
  ∃ n, exec (step sqrt) s (List.replicate n (.main true)) = some s'

variable {sqrt} {s s' s'' : TickFence}

theorem Drains.trans (h : Drains sqrt s s') (h' : Drains sqrt s' s'') : Drains sqrt s s'' := by
  obtain ⟨n, hn⟩ := h
  obtain ⟨n', hn'⟩ := h'
  refine ⟨n + n', ?_⟩
  rw [← List.replicate_append_replicate, exec_append, hn, Option.bind_some, hn']

theorem drains_perform {a : Action} {rest : List Action} (htodo : s.todo = a :: rest) :
    Drains sqrt s (s.perform true rest a) := by
  refine ⟨1, ?_⟩
  show exec (step sqrt) s [.main true] = _
  rw [exec_singleton]
  simp only [step, htodo]

/-- `set_pause_reason`. -/
theorem drains_setPauseReason {r : PauseReason} {rest : List Action}
    (htodo : s.todo = .fetchOr r :: rest) :
    ∃ bumps, Drains sqrt s { s with manager := s.manager.setPauseReason r, todo := rest, bumps := bumps } := by
  have hfirst : Drains sqrt s _ := drains_perform htodo
  by_cases hset : s.execution.hasPauseReason r = true
  · have hmanager : s.manager.setPauseReason r = { s.manager with execution := s.execution.fetchOrPause r } :=
      congrArg (fun e => { s.manager with execution := e }) (if_pos hset)
    have heq : s.perform true rest (.fetchOr r) =
        { s.setExecution (s.execution.fetchOrPause r) with todo := rest } :=
      congrArg (fun todo => { s.setExecution (s.execution.fetchOrPause r) with todo := todo }) (if_pos hset)
    refine ⟨s.bumps, ?_⟩
    rw [heq] at hfirst
    rw [hmanager]
    exact hfirst
  · have hmanager : s.manager.setPauseReason r
        = { s.manager with execution := (s.execution.fetchOrPause r).bumpGeneration } :=
      congrArg (fun e => { s.manager with execution := e }) (if_neg hset)
    have htodo' : (s.perform true rest (.fetchOr r)).todo = .bump :: rest := if_neg hset
    refine ⟨s.bumps + 1, hfirst.trans ?_⟩
    rw [hmanager]
    exact drains_perform htodo'

/-- `require_position_refresh_after_fill` is the wait and its pause. -/
theorem drains_enterReconciliation {position : SharedPosition} {rest : List Action}
    (htodo : s.todo = .awaitPositions position :: .fetchOr .riskData :: .fetchOr .reconciliation :: rest) :
    ∃ bumps, Drains sqrt s { s with
      manager := (s.manager.requirePositionRefreshAfterFill position).beginReconciliation
      todo := rest
      bumps := bumps } := by
  have hwait : Drains sqrt s { s with
      manager := { s.manager.requirePositionRefreshAfterFill position with execution := s.execution }
      todo := .fetchOr .riskData :: .fetchOr .reconciliation :: rest } := drains_perform htodo
  obtain ⟨b₁, hrisk⟩ : ∃ b, Drains sqrt { s with
      manager := { s.manager.requirePositionRefreshAfterFill position with execution := s.execution }
      todo := .fetchOr .riskData :: .fetchOr .reconciliation :: rest } { s with
      manager := s.manager.requirePositionRefreshAfterFill position
      todo := .fetchOr .reconciliation :: rest
      bumps := b } := drains_setPauseReason rfl
  obtain ⟨b₂, hbegin⟩ : ∃ b, Drains sqrt { s with
      manager := s.manager.requirePositionRefreshAfterFill position
      todo := .fetchOr .reconciliation :: rest
      bumps := b₁ } { s with
      manager := (s.manager.requirePositionRefreshAfterFill position).beginReconciliation
      todo := rest
      bumps := b } := drains_setPauseReason rfl
  exact ⟨b₂, hwait.trans (hrisk.trans hbegin)⟩

/-- What `begin_account_reconciliation` makes of the manager. -/
def afterBegin (s : TickFence) (position : SharedPosition) : OrderManager :=
  if s.reconciliationPending then s.manager else App.enterReconciliation s.manager position

theorem drains_begin {t : TickFence} {position : SharedPosition} {rest : List Action}
    (hmanager : t.manager = s.manager) (htodo : t.todo = s.beginActions position ++ rest) :
    ∃ bumps, Drains sqrt t { t with manager := s.afterBegin position, todo := rest, bumps := bumps } := by
  unfold beginActions at htodo
  unfold afterBegin App.enterReconciliation
  split at htodo
  · next hpending =>
    refine ⟨t.bumps, 0, ?_⟩
    rw [if_pos hpending, ← hmanager, ← show t.todo = rest from htodo]
    rfl
  · next hpending =>
    rw [if_neg hpending, ← hmanager]
    rw [← hmanager] at htodo
    split at htodo
    · next hset =>
      rw [if_pos hset]
      exact drains_setPauseReason htodo
    · next hset =>
      rw [if_neg hset]
      exact drains_enterReconciliation htodo

/-- **The tick size arm with nothing in between** is `try_update` and `onTickSizeChanged`. -/
theorem drains_tickSizeChanged (hready : s.todo = []) (signal : TickSizeChangedSignal) (app : App)
    (hlive : app.config.orderEnabled = true) (hsymbol : app.hasManager signal.symbol = true)
    (hpending : app.reconciliationPending = s.reconciliationPending)
    (hmanager : app.managers signal.symbol = s.manager) :
    ∃ t s', s.step sqrt (.arm (.tickSizeChanged signal (app.positions signal.symbol))) = some t ∧
      Drains sqrt t s' ∧ s'.todo = [] ∧ s'.info = s.info.tryUpdate signal ∧
      s'.strategy = s.strategy.resetState ∧
      s'.manager = (app.onTickSizeChanged signal).managers signal.symbol ∧
      s'.reconciliationPending = (app.onTickSizeChanged signal).reconciliationPending := by
  -- what the arm computes in one go
  have hbegun : ∀ reason, ((app.beginAccountReconciliation reason).managers signal.symbol
        = s.afterBegin (app.positions signal.symbol)) ∧
      (app.beginAccountReconciliation reason).reconciliationPending = true ∧
      (app.beginAccountReconciliation reason).hasManager signal.symbol = true := by
    intro reason
    unfold App.beginAccountReconciliation afterBegin
    rw [hpending, hlive, Bool.not_true, Bool.or_false, ← hmanager]
    split
    · next hset => exact ⟨rfl, hpending.trans hset, hsymbol⟩
    · exact ⟨rfl, rfl, hsymbol⟩
  obtain ⟨hbegin, hnow, hstill⟩ := hbegun ("tick/lot size changed for " ++ signal.symbol)
  have harm : (app.onTickSizeChanged signal).managers signal.symbol
        = ((s.afterBegin (app.positions signal.symbol)).setPrecision signal.newTickSize signal.newLotSize
            signal.minOrderQty signal.newLotSize_pos).setPauseReason .marketData ∧
      (app.onTickSizeChanged signal).reconciliationPending = true := by
    unfold App.onTickSizeChanged App.modifyManager
    rw [if_pos hstill, hbegin]
    exact ⟨Function.update_self _ _ _, hnow⟩
  -- and what it computes action by action
  let t := { s with
    reconciliationPending := true
    todo := s.beginActions (app.positions signal.symbol) ++ tickActions signal }
  obtain ⟨b, hfirst⟩ : ∃ b, Drains sqrt t
      { t with manager := s.afterBegin (app.positions signal.symbol), todo := tickActions signal, bumps := b } :=
    drains_begin rfl rfl
  have hstores : Drains sqrt
      { t with manager := s.afterBegin (app.positions signal.symbol), todo := tickActions signal, bumps := b }
      { t with
        manager := (s.afterBegin (app.positions signal.symbol)).setPrecision signal.newTickSize signal.newLotSize
          signal.minOrderQty signal.newLotSize_pos
        strategy := s.strategy.resetState
        info := s.info.tryUpdate signal
        todo := [.fetchOr .marketData]
        bumps := b } := ⟨5, rfl⟩
  obtain ⟨b', hpause⟩ : ∃ b', Drains sqrt
      { t with
        manager := (s.afterBegin (app.positions signal.symbol)).setPrecision signal.newTickSize signal.newLotSize
          signal.minOrderQty signal.newLotSize_pos
        strategy := s.strategy.resetState
        info := s.info.tryUpdate signal
        todo := [.fetchOr .marketData]
        bumps := b }
      { t with
        manager := ((s.afterBegin (app.positions signal.symbol)).setPrecision signal.newTickSize signal.newLotSize
          signal.minOrderQty signal.newLotSize_pos).setPauseReason .marketData
        strategy := s.strategy.resetState
        info := s.info.tryUpdate signal
        todo := []
        bumps := b' } := drains_setPauseReason rfl
  refine ⟨t, _, ?_, hfirst.trans (hstores.trans hpause), rfl, rfl, rfl, harm.1.symm, harm.2.symm⟩
  simp only [step, hready, List.isEmpty_nil, if_true]
  rfl

end Undisturbed

/-! ## What holds in every state -/

/-- No pause reason is set. -/
def Unpaused (s : TickFence) : Prop := s.execution.pauseReasons = 0#8

/-- The Send is in the channel, or the executor is on its way to the write with it. -/
def Holds (s : TickFence) (x : Tagged) : Prop :=
  (x ∈ s.channel ∧ x.decision.isSend = true) ∨
    match s.executor with
    | .received y | .tickRead y _ | .checking y _ _ _ => x = y
    | _ => False

/-- The generation has not been bumped since the dispatch. -/
def Fresh (s : TickFence) (x : Tagged) : Prop := x.dispatchedAt = s.bumps

/-- What the executor has read is, for a fresh Send, still there. -/
def ReadsCurrent (s : TickFence) : Prop :=
  match s.executor with
  | .tickRead x tick => s.Fresh x → tick = s.info.tickSize
  | .checking x read _ _ => s.Fresh x → read = s.info.precision
  | _ => True

/-- The order is formatted with what its decision was computed with, unless the generation has gone
    round in between. -/
def Matches (x : Tagged) (read : Precision) (checkedAt : Nat) : Prop :=
  checkedAt < x.dispatchedAt + size → read = x.quoted ∧ read = x.permitted

end TickFence

namespace Action

/-- What is left of the shared precision after the action. -/
def onInfo (p : Precision) : Action → Precision
  | .storeTickSize tick => { p with tickSize := tick }
  | .storeLotSize lot => { p with lotSize := lot }
  | _ => p

/-- What is left of the manager's precision after the action. -/
def onManager (p : Precision) : Action → Precision
  | .setPrecision signal => ⟨signal.newTickSize, signal.newLotSize⟩
  | _ => p

/-- The action changes a precision. -/
def isStore : Action → Bool
  | .storeTickSize _ | .storeLotSize _ | .setPrecision _ => true
  | _ => false

def isDispatch : Action → Bool
  | .dispatch .. => true
  | _ => false

/-- The action touches neither the execution state nor a precision. -/
def isPlain : Action → Bool
  | .awaitPositions _ | .settle | .storeMinOrderQty _ | .resetStrategy | .dispatch .. => true
  | _ => false

/-- Every store comes after a pause that is still on: one there already, or a `fetch_or` before it. -/
def Guarded (paused : Prop) : List Action → Prop
  | [] => True
  | .fetchOr _ :: rest => Guarded True rest
  | .fetchAnd _ :: rest => Guarded False rest
  | a :: rest => (a.isStore = true → paused) ∧ Guarded paused rest

theorem Guarded.mono {paused paused' : Prop} (h : paused → paused') {todo : List Action}
    (hg : Guarded paused todo) : Guarded paused' todo := by
  induction todo with
  | nil => trivial
  | cons a rest ih =>
    cases a with
    | fetchOr | fetchAnd => exact hg
    | _ => exact ⟨fun hs => h (hg.1 hs), ih hg.2⟩

theorem foldl_of_no_store {todo : List Action} (h : ∀ a ∈ todo, a.isStore = false) (p : Precision) :
    todo.foldl onInfo p = p ∧ todo.foldl onManager p = p := by
  induction todo with
  | nil => exact ⟨rfl, rfl⟩
  | cons a rest ih =>
    have ha := h a List.mem_cons_self
    have hrest := ih fun b hb => h b (List.mem_cons_of_mem _ hb)
    cases a <;> first | exact hrest | cases ha

theorem guarded_of_no_store {todo : List Action} (h : ∀ a ∈ todo, a.isStore = false) (paused : Prop) :
    Guarded paused todo := by
  induction todo generalizing paused with
  | nil => trivial
  | cons a rest ih =>
    have ha := h a List.mem_cons_self
    have hrest := ih fun b hb => h b (List.mem_cons_of_mem _ hb)
    cases a <;> first
      | exact hrest _
      | exact ⟨fun hs => absurd (ha.symm.trans hs) Bool.false_ne_true, hrest _⟩

/-- What follows a `fetch_or` is guarded by it. -/
theorem guarded_append_fetchOr {pre rest : List Action} (hpre : ∀ a ∈ pre, a.isStore = false)
    (r : PauseReason) (h : Guarded True rest) (paused : Prop) :
    Guarded paused (pre ++ .fetchOr r :: rest) := by
  induction pre generalizing paused with
  | nil => exact h
  | cons a pre ih =>
    have ha := hpre a List.mem_cons_self
    have hrest := ih fun b hb => hpre b (List.mem_cons_of_mem _ hb)
    cases a <;> first
      | exact hrest _
      | exact ⟨fun hs => absurd (ha.symm.trans hs) Bool.false_ne_true, hrest _⟩

end Action

namespace TickFence

structure Inv (s : TickFence) : Prop where
  tag : s.execution.generation = s.bumps % size
  agree : s.todo.foldl Action.onInfo s.info.precision = s.todo.foldl Action.onManager s.manager.precision
  pending : s.reconciliationPending = true →
    s.execution.hasPauseReason .reconciliation = true ∨ .fetchOr .reconciliation ∈ s.todo
  clearing : .fetchAnd .reconciliation ∈ s.todo → s.reconciliationPending = false
  guarded : Action.Guarded (¬ s.Unpaused) s.todo
  sending : ∀ d quoted permitted, .dispatch d quoted permitted ∈ s.todo → d.isSend = true →
    (∀ a ∈ s.todo, a.isDispatch = true) ∧ s.Unpaused ∧ quoted = s.info.precision ∧ permitted = quoted
  tagged : ∀ x, s.Holds x → x.dispatchedAt ≤ s.bumps ∧ x.generation = x.dispatchedAt % size ∧
    x.permitted = x.quoted
  fresh : ∀ x, s.Holds x → s.Fresh x → x.quoted = s.info.precision ∧
    (s.Unpaused ∨ ∃ rest, s.todo = .bump :: rest)
  reads : s.ReadsCurrent
  writing : ∀ x read checkedAt, s.executor = .writing x read checkedAt → Matches x read checkedAt
  written : ∀ w ∈ s.written, Matches w.decision w.formatted w.checkedAt

variable {s s' : TickFence}

theorem inv_new (info : SharedSymbolInfo) (config : OrderManagerConfig) (hlot : 0 < info.lotSize)
    (strategy : ObiStrategy) (startMs : Int) : Inv (new info config hlot strategy startMs) where
  tag := by
    unfold execution new OrderManager.setPauseReason
    dsimp only [OrderManager.new]
    decide
  agree := rfl
  pending h := by cases h
  clearing h := by cases h
  guarded := trivial
  sending _ _ _ h := by cases h
  tagged x h := by rcases h with ⟨h, _⟩ | h <;> cases h
  fresh x h := by rcases h with ⟨h, _⟩ | h <;> cases h
  reads := trivial
  writing _ _ _ h := by cases h
  written w h := by cases h

/-! ### The executor -/

/-- A step of the executor that holds no other Send and reads what is there. -/
theorem Inv.executor (h : Inv s) (executor : SendState) (channel : List Tagged)
    (hholds : ∀ x, Holds { s with executor := executor, channel := channel } x → s.Holds x)
    (hreads : ReadsCurrent { s with executor := executor, channel := channel })
    (hwriting : ∀ x read checkedAt, executor = .writing x read checkedAt → Matches x read checkedAt) :
    Inv { s with executor := executor, channel := channel } :=
  { h with
    tagged := fun x hx => h.tagged x (hholds x hx)
    fresh := fun x hx => h.fresh x (hholds x hx)
    reads := hreads
    writing := hwriting }

theorem Inv.receive {x : Tagged} {rest : List Tagged} (h : Inv s) (hchannel : s.channel = x :: rest) :
    Inv { s with channel := rest, executor := if x.decision.isSend then .received x else .idle } := by
  have hrest : ∀ y ∈ rest, y ∈ s.channel := fun y hy => hchannel ▸ List.mem_cons_of_mem _ hy
  by_cases hsend : x.decision.isSend = true
  · rw [if_pos hsend]
    refine h.executor _ rest (fun y hy => ?_) trivial (fun _ _ _ heq => by cases heq)
    rcases hy with ⟨hy, hy'⟩ | rfl
    · exact Or.inl ⟨hrest y hy, hy'⟩
    · exact Or.inl ⟨hchannel ▸ List.mem_cons_self, hsend⟩
  · rw [if_neg hsend]
    refine h.executor _ rest (fun y hy => ?_) trivial (fun _ _ _ heq => by cases heq)
    rcases hy with ⟨hy, hy'⟩ | hy
    · exact Or.inl ⟨hrest y hy, hy'⟩
    · cases hy

theorem Inv.loadTickSize {x : Tagged} (h : Inv s) (hx : s.executor = .received x) :
    Inv { s with executor := .tickRead x s.info.tickSize } := by
  refine h.executor _ s.channel (fun y hy => ?_) (fun _ => rfl) (fun _ _ _ heq => by cases heq)
  rcases hy with hy | rfl
  · exact Or.inl hy
  · exact Or.inr (by rw [hx])

theorem Inv.loadLotSize {x : Tagged} {tick : ℚ} (h : Inv s) (hx : s.executor = .tickRead x tick) :
    Inv { s with executor := .checking x ⟨tick, s.info.lotSize⟩ false .shutdown } := by
  have htick := h.reads
  rw [ReadsCurrent, hx] at htick
  refine h.executor _ s.channel (fun y hy => ?_) (fun hfresh => ?_) (fun _ _ _ heq => by cases heq)
  · rcases hy with hy | rfl
    · exact Or.inl hy
    · exact Or.inr (by rw [hx])
  · rw [htick hfresh]
    rfl

theorem Inv.idle (h : Inv s) : Inv { s with executor := .idle } := by
  refine h.executor _ s.channel (fun y hy => ?_) trivial (fun _ _ _ heq => by cases heq)
  rcases hy with hy | hy
  · exact Or.inl hy
  · cases hy

/-- A load of a check: the last of the second check compares the generation, and a Send that passes
    it less than a round of the generation after its dispatch is fresh. -/
theorem Inv.load {x : Tagged} {read : Precision} {second : Bool} {load : Load} (h : Inv s)
    (hx : s.executor = .checking x read second load) :
    Inv { s with executor := s.check x read second load } := by
  have hread := h.reads
  rw [ReadsCurrent, hx] at hread
  have hheld : s.Holds x := Or.inr (by rw [hx])
  have hon : ∀ second' load', Inv { s with executor := .checking x read second' load' } := by
    intro second' load'
    refine h.executor _ s.channel (fun y hy => ?_) hread (fun _ _ _ heq => by cases heq)
    rcases hy with hy | rfl
    · exact Or.inl hy
    · exact hheld
  cases load with
  | shutdown | pauseReasons =>
    simp only [check]
    split
    all_goals first | exact h.idle | exact hon _ _
  | generation =>
    simp only [check]
    split
    · next hgeneration =>
      split
      · refine h.executor _ s.channel (fun y hy => ?_) trivial (fun y read' c heq hc => ?_)
        · rcases hy with hy | hy
          · exact Or.inl hy
          · cases hy
        · cases heq
          obtain ⟨hle, htag, hsame⟩ := h.tagged x hheld
          have hfresh : s.Fresh x := by
            have hmod : x.dispatchedAt % size = s.bumps % size := by rw [← htag, hgeneration, h.tag]
            unfold Fresh size at *
            omega
          have hquoted : read = x.quoted := (hread hfresh).trans (h.fresh x hheld hfresh).1.symm
          exact ⟨hquoted, hquoted.trans hsame.symm⟩
      · exact hon _ _
    · exact h.idle

theorem Inv.write {x : Tagged} {read : Precision} {checkedAt : Nat} (h : Inv s)
    (hx : s.executor = .writing x read checkedAt) :
    Inv { s with executor := .idle, written := ⟨x, read, checkedAt⟩ :: s.written } := by
  refine { h.idle with written := fun w hw => ?_ }
  rcases List.mem_cons.mp hw with rfl | hw
  · exact h.writing x read checkedAt hx
  · exact h.written w hw

/-! ### The main loop -/

/-- A fresh Send can only be around while no reason is set, or while the bump is next. -/
theorem Inv.fresh_unpaused {a : Action} {rest : List Action} {x : Tagged} (h : Inv s)
    (htodo : s.todo = a :: rest) (ha : a ≠ .bump) (hx : s.Holds x) (hfresh : s.Fresh x) :
    s.Unpaused := by
  rcases (h.fresh x hx hfresh).2 with hclear | ⟨_, hbump⟩
  · exact hclear
  · rw [htodo] at hbump
    exact absurd (List.cons.inj hbump).1 ha

/-- Before an action other than a dispatch no Send is waiting to be dispatched. -/
theorem Inv.no_sending {a : Action} {rest : List Action} {d : OrderDecision}
    {quoted permitted : Precision} (h : Inv s) (htodo : s.todo = a :: rest)
    (ha : a.isDispatch = false) (hmem : .dispatch d quoted permitted ∈ rest) (hsend : d.isSend = true) :
    False := by
  have hall := (h.sending d quoted permitted (htodo ▸ List.mem_cons_of_mem _ hmem) hsend).1
  have hhead := hall a (htodo ▸ List.mem_cons_self)
  rw [ha] at hhead
  cases hhead

/-- What the executor reads for is held. -/
theorem readsCurrent_of_stale (h : ∀ x, s.Holds x → ¬ s.Fresh x) : s.ReadsCurrent := by
  unfold ReadsCurrent
  split
  · next x _ heq => exact fun hfresh => absurd hfresh (h x (Or.inr (by rw [heq])))
  · next x _ _ _ heq => exact fun hfresh => absurd hfresh (h x (Or.inr (by rw [heq])))
  · trivial

theorem Inv.plain {a : Action} {rest : List Action} {m : OrderManager} {strategy : ObiStrategy}
    (h : Inv s) (htodo : s.todo = a :: rest) (ha : a.isPlain = true)
    (hexecution : m.execution = s.execution) (hprecision : m.precision = s.manager.precision) :
    Inv { s with manager := m, strategy := strategy, todo := rest } := by
  have hunpaused : Unpaused { s with manager := m, strategy := strategy, todo := rest } ↔ s.Unpaused := by
    show m.execution.pauseReasons = 0#8 ↔ s.execution.pauseReasons = 0#8
    rw [hexecution]
  have hagree := h.agree
  have hguarded := h.guarded
  rw [htodo] at hagree hguarded
  refine { h with tag := ?_, agree := ?_, pending := fun hpending => ?_, clearing := fun hmem => ?_,
                  guarded := ?_, sending := fun d quoted permitted hmem hsend => ?_, fresh := fun x hx hfresh => ?_ }
  · show m.execution.generation = _
    rw [hexecution]
    exact h.tag
  · show rest.foldl _ s.info.precision = rest.foldl _ m.precision
    rw [hprecision]
    cases a <;> first | exact hagree | cases ha
  · rcases h.pending hpending with hset | hmem
    · exact Or.inl (by show m.execution.hasPauseReason _ = true; rw [hexecution]; exact hset)
    · rw [htodo] at hmem
      rcases List.mem_cons.mp hmem with rfl | hmem
      · cases ha
      · exact Or.inr hmem
  · exact h.clearing (htodo ▸ List.mem_cons_of_mem _ hmem)
  · rw [hunpaused]
    cases a <;> first | exact hguarded.2 | cases ha
  · obtain ⟨hall, hclear, hquoted⟩ := h.sending d quoted permitted (htodo ▸ List.mem_cons_of_mem _ hmem) hsend
    exact ⟨fun b hb => hall b (htodo ▸ List.mem_cons_of_mem _ hb), hunpaused.mpr hclear, hquoted⟩
  · refine ⟨(h.fresh x hx hfresh).1, Or.inl (hunpaused.mpr (h.fresh_unpaused htodo ?_ hx hfresh))⟩
    rintro rfl
    cases ha

theorem Inv.fetchOr {r : PauseReason} {rest : List Action} (h : Inv s)
    (htodo : s.todo = .fetchOr r :: rest) (reaches : Bool) :
    Inv (s.perform reaches rest (.fetchOr r)) := by
  have hself : (s.execution.fetchOrPause r).hasPauseReason r = true := Flags.test_set_self _ r.bits_ne_zero
  have hagree := h.agree
  have hguarded := h.guarded
  rw [htodo] at hagree hguarded
  have hpaused : ¬ Unpaused (s.perform reaches rest (.fetchOr r)) :=
    ExecutionState.pauseReasons_ne_zero (s := s.execution.fetchOrPause r) hself
  refine { h with tag := h.tag, agree := ?_, pending := fun hpending => ?_, clearing := fun hmem => ?_,
                  guarded := ?_, sending := fun d quoted permitted hmem hsend => ?_, fresh := fun x hx hfresh => ?_ }
  all_goals dsimp only [perform]
  · split <;> exact hagree
  · rcases h.pending hpending with hset | hmem
    · exact Or.inl (Flags.test_set_of_test _ hset)
    · rw [htodo] at hmem
      rcases List.mem_cons.mp hmem with heq | hmem
      · cases heq
        exact Or.inl hself
      · refine Or.inr ?_
        split
        · exact hmem
        · exact List.mem_cons_of_mem _ hmem
  · refine h.clearing ?_
    rw [htodo]
    dsimp only [perform] at hmem
    split at hmem
    · exact List.mem_cons_of_mem _ hmem
    · exact List.mem_cons_of_mem _ ((List.mem_cons.mp hmem).resolve_left nofun)
  · have hrest : Action.Guarded (¬ Unpaused (s.perform reaches rest (.fetchOr r))) rest :=
      Action.Guarded.mono (fun _ => hpaused) hguarded
    split
    · exact hrest
    · exact ⟨nofun, hrest⟩
  · dsimp only [perform] at hmem
    split at hmem
    · exact (h.no_sending htodo rfl hmem hsend).elim
    · exact (h.no_sending htodo rfl ((List.mem_cons.mp hmem).resolve_left nofun) hsend).elim
  · have hclear := h.fresh_unpaused htodo nofun hx hfresh
    have hnone : s.execution.hasPauseReason r = false := by
      unfold ExecutionState.hasPauseReason
      rw [show s.execution.pauseReasons = 0#8 from hclear, Flags.test_zero]
    refine ⟨(h.fresh x hx hfresh).1, Or.inr ⟨rest, ?_⟩⟩
    rw [hnone]
    rfl

theorem Inv.bump {rest : List Action} (h : Inv s) (htodo : s.todo = .bump :: rest) (reaches : Bool) :
    Inv (s.perform reaches rest .bump) := by
  have hagree := h.agree
  have hguarded := h.guarded
  rw [htodo] at hagree hguarded
  have hstale : ∀ x, s.Holds x → x.dispatchedAt ≠ s.bumps + 1 := by
    intro x hx
    have := (h.tagged x hx).1
    omega
  refine { h with tag := ?_, agree := hagree, pending := fun hpending => ?_, clearing := fun hmem => ?_,
                  guarded := hguarded.2, sending := fun d quoted permitted hmem hsend => ?_,
                  tagged := fun x hx => ?_, fresh := fun x hx hfresh => absurd hfresh (hstale x hx),
                  reads := readsCurrent_of_stale hstale }
  · show wrappingAdd s.execution.generation 1 = (s.bumps + 1) % size
    rw [h.tag, wrappingAdd, Nat.mod_add_mod]
  · rcases h.pending hpending with hset | hmem
    · exact Or.inl hset
    · rw [htodo] at hmem
      exact Or.inr ((List.mem_cons.mp hmem).resolve_left (by simp))
  · exact h.clearing (htodo ▸ List.mem_cons_of_mem _ hmem)
  · exact (h.no_sending htodo rfl hmem hsend).elim
  · obtain ⟨hle, hrest⟩ := h.tagged x hx
    exact ⟨Nat.le_succ_of_le hle, hrest⟩

theorem Inv.fetchAnd {r : PauseReason} {rest : List Action} (h : Inv s)
    (htodo : s.todo = .fetchAnd r :: rest) (reaches : Bool) :
    Inv (s.perform reaches rest (.fetchAnd r)) := by
  have hagree := h.agree
  have hguarded := h.guarded
  rw [htodo] at hagree hguarded
  refine { h with tag := h.tag, agree := hagree, pending := fun hpending => ?_, clearing := fun hmem => ?_,
                  guarded := hguarded.mono False.elim, sending := fun d quoted permitted hmem hsend => ?_,
                  fresh := fun x hx hfresh => ?_ }
  · have hne : r ≠ .reconciliation := by
      rintro rfl
      have hidle := h.clearing (htodo ▸ List.mem_cons_self)
      exact absurd (hidle.symm.trans hpending) (by decide)
    rcases h.pending hpending with hset | hmem
    · exact Or.inl ((ExecutionState.hasPauseReason_clear_of_ne _ hne).trans hset)
    · rw [htodo] at hmem
      exact Or.inr ((List.mem_cons.mp hmem).resolve_left nofun)
  · exact h.clearing (htodo ▸ List.mem_cons_of_mem _ hmem)
  · exact (h.no_sending htodo rfl hmem hsend).elim
  · have hclear : s.execution.pauseReasons = 0#8 := h.fresh_unpaused htodo nofun hx hfresh
    refine ⟨(h.fresh x hx hfresh).1, Or.inl ?_⟩
    show Flags.clear s.execution.pauseReasons r.bits = 0#8
    rw [hclear]
    simp [Flags.clear]

theorem Inv.storeShutdown {rest : List Action} (h : Inv s) (htodo : s.todo = .storeShutdown :: rest)
    (reaches : Bool) : Inv (s.perform reaches rest .storeShutdown) := by
  have hagree := h.agree
  have hguarded := h.guarded
  rw [htodo] at hagree hguarded
  refine { h with tag := h.tag, agree := hagree, pending := fun hpending => ?_, clearing := fun hmem => ?_,
                  guarded := hguarded.2, sending := fun d quoted permitted hmem hsend => ?_,
                  fresh := fun x hx hfresh => ?_ }
  · rcases h.pending hpending with hset | hmem
    · exact Or.inl hset
    · rw [htodo] at hmem
      exact Or.inr ((List.mem_cons.mp hmem).resolve_left nofun)
  · exact h.clearing (htodo ▸ List.mem_cons_of_mem _ hmem)
  · exact (h.no_sending htodo rfl hmem hsend).elim
  · exact ⟨(h.fresh x hx hfresh).1, Or.inl (h.fresh_unpaused htodo nofun hx hfresh)⟩

/-- A store: its guard says that a pause is on, so no Send is fresh. -/
theorem Inv.store {a : Action} {rest : List Action} {m : OrderManager} {info : SharedSymbolInfo}
    (h : Inv s) (htodo : s.todo = a :: rest) (ha : a.isStore = true)
    (hexecution : m.execution = s.execution)
    (hinfo : info.precision = Action.onInfo s.info.precision a)
    (hmanager : m.precision = Action.onManager s.manager.precision a) :
    Inv { s with manager := m, info := info, todo := rest } := by
  have hagree := h.agree
  have hguarded := h.guarded
  rw [htodo] at hagree hguarded
  have hplain : a ≠ .bump ∧ a.isDispatch = false ∧ a ≠ .fetchOr .reconciliation := by
    cases a <;> simp [Action.isStore, Action.isDispatch] at ha ⊢
  have hpaused : ¬ s.Unpaused ∧ Action.Guarded (¬ s.Unpaused) rest := by
    cases a <;> first | exact ⟨hguarded.1 rfl, hguarded.2⟩ | cases ha
  have hstale : ∀ x, s.Holds x → ¬ s.Fresh x :=
    fun x hx hfresh => hpaused.1 (h.fresh_unpaused htodo hplain.1 hx hfresh)
  refine { h with tag := ?_, agree := ?_, pending := fun hpending => ?_, clearing := fun hmem => ?_,
                  guarded := ?_, sending := fun d quoted permitted hmem hsend => ?_,
                  fresh := fun x hx hfresh => absurd hfresh (hstale x hx), reads := readsCurrent_of_stale hstale }
  · show m.execution.generation = _
    rw [hexecution]
    exact h.tag
  · show rest.foldl _ info.precision = rest.foldl _ m.precision
    rw [hinfo, hmanager]
    exact hagree
  · rcases h.pending hpending with hset | hmem
    · exact Or.inl (by show m.execution.hasPauseReason _ = true; rw [hexecution]; exact hset)
    · rw [htodo] at hmem
      exact Or.inr ((List.mem_cons.mp hmem).resolve_left (Ne.symm hplain.2.2))
  · exact h.clearing (htodo ▸ List.mem_cons_of_mem _ hmem)
  · have hsame : Unpaused { s with manager := m, info := info, todo := rest } = s.Unpaused := by
      show (m.execution.pauseReasons = 0#8) = (s.execution.pauseReasons = 0#8)
      rw [hexecution]
    rw [hsame]
    exact hpaused.2
  · exact (h.no_sending htodo hplain.2.1 hmem hsend).elim

theorem onDispatchFailed_precision (m : OrderManager) (d : OrderDecision) :
    (m.onDispatchFailed d).precision = m.precision := by
  cases d with
  | send side level price qty clOrdId =>
    unfold OrderManager.precision OrderManager.onDispatchFailed OrderManager.clearOrderByClOrdId
    rw [OrderManager.clearFirst_config]
  | cancel | cancelAndReplace | noAction => rfl

theorem onDispatchFailed_execution (m : OrderManager) (d : OrderDecision) :
    (m.onDispatchFailed d).execution = m.execution := by
  cases d with
  | send side level price qty clOrdId => simp [OrderManager.onDispatchFailed, OrderManager.clearOrderByClOrdId]
  | cancel | cancelAndReplace | noAction => rfl

theorem Inv.dispatch {d : OrderDecision} {quoted permitted : Precision} {rest : List Action} (h : Inv s)
    (htodo : s.todo = .dispatch d quoted permitted :: rest) (reaches : Bool) :
    Inv (s.perform reaches rest (.dispatch d quoted permitted)) := by
  cases reaches with
  | true =>
    have hpopped : Inv { s with todo := rest } := h.plain htodo rfl rfl rfl
    have hholds : ∀ x, Holds { s with
        channel := s.channel ++ [⟨d, s.execution.generation, quoted, permitted, s.bumps⟩], todo := rest } x →
        s.Holds x ∨ x = ⟨d, s.execution.generation, quoted, permitted, s.bumps⟩ ∧ d.isSend = true := by
      rintro x (⟨hmem, hsend⟩ | hx)
      · rcases List.mem_append.mp hmem with hmem | hmem
        · exact Or.inl (Or.inl ⟨hmem, hsend⟩)
        · obtain rfl := List.mem_singleton.mp hmem
          exact Or.inr ⟨rfl, hsend⟩
      · exact Or.inl (Or.inr hx)
    show Inv { s with
      channel := s.channel ++ [⟨d, s.execution.generation, quoted, permitted, s.bumps⟩], todo := rest }
    refine { hpopped with tagged := fun x hx => ?_, fresh := fun x hx hfresh => ?_ }
    · rcases hholds x hx with hx | ⟨rfl, hsend⟩
      · exact h.tagged x hx
      · obtain ⟨_, _, _, hpermitted⟩ := h.sending d quoted permitted (htodo ▸ List.mem_cons_self) hsend
        exact ⟨Nat.le_refl _, h.tag, hpermitted⟩
    · rcases hholds x hx with hx | ⟨rfl, hsend⟩
      · exact hpopped.fresh x hx hfresh
      · obtain ⟨_, hclear, hquoted, _⟩ := h.sending d quoted permitted (htodo ▸ List.mem_cons_self) hsend
        exact ⟨hquoted, Or.inl hclear⟩
  | false => exact h.plain htodo rfl (onDispatchFailed_execution _ _) (onDispatchFailed_precision _ _)

theorem Inv.main {a : Action} {rest : List Action} (h : Inv s) (htodo : s.todo = a :: rest)
    (reaches : Bool) :
    Inv (s.perform reaches rest a) := by
  cases a with
  | fetchOr r => exact h.fetchOr htodo reaches
  | bump => exact h.bump htodo reaches
  | fetchAnd r => exact h.fetchAnd htodo reaches
  | storeShutdown => exact h.storeShutdown htodo reaches
  | awaitPositions position => exact h.plain htodo rfl rfl rfl
  | settle => exact h.plain htodo rfl rfl rfl
  | storeMinOrderQty qty =>
    have hpopped : Inv { s with todo := rest } := h.plain htodo rfl rfl rfl
    exact { hpopped with }
  | storeTickSize tick => exact h.store htodo rfl rfl rfl rfl
  | storeLotSize lot => exact h.store htodo rfl rfl rfl rfl
  | setPrecision signal => exact h.store htodo rfl rfl rfl rfl
  | resetStrategy => exact h.plain htodo rfl rfl rfl
  | dispatch d quoted permitted => exact h.dispatch htodo reaches

/-- An arm that dispatches nothing. -/
theorem Inv.enter {reconciliationPending : Bool} {todo : List Action} (h : Inv s) (htodo : s.todo = [])
    (hagree : todo.foldl Action.onInfo s.info.precision = todo.foldl Action.onManager s.info.precision)
    (hpending : reconciliationPending = true →
      s.execution.hasPauseReason .reconciliation = true ∨ .fetchOr .reconciliation ∈ todo)
    (hclearing : .fetchAnd .reconciliation ∈ todo → reconciliationPending = false)
    (hguarded : Action.Guarded (¬ s.Unpaused) todo) (hnone : ∀ a ∈ todo, a.isDispatch = false) :
    Inv { s with reconciliationPending := reconciliationPending, todo := todo } := by
  have hsame : s.info.precision = s.manager.precision := by
    have := h.agree
    rwa [htodo] at this
  refine { h with agree := ?_, pending := hpending, clearing := hclearing, guarded := hguarded,
                  sending := fun d quoted permitted hmem _ => ?_, fresh := fun x hx hfresh => ?_ }
  · show todo.foldl _ s.info.precision = todo.foldl _ s.manager.precision
    rw [← hsame]
    exact hagree
  · cases hnone _ hmem
  · obtain ⟨hquoted, hclear | ⟨_, hbump⟩⟩ := h.fresh x hx hfresh
    · exact ⟨hquoted, Or.inl hclear⟩
    · rw [htodo] at hbump
      cases hbump

/-- An arm that neither dispatches nor stores a size. -/
theorem Inv.enter_plain {reconciliationPending : Bool} {todo : List Action} (h : Inv s)
    (htodo : s.todo = [])
    (hpending : reconciliationPending = true →
      s.execution.hasPauseReason .reconciliation = true ∨ .fetchOr .reconciliation ∈ todo)
    (hclearing : .fetchAnd .reconciliation ∈ todo → reconciliationPending = false)
    (hplain : ∀ a ∈ todo, a.isStore = false ∧ a.isDispatch = false) :
    Inv { s with reconciliationPending := reconciliationPending, todo := todo } := by
  have hstore : ∀ a ∈ todo, a.isStore = false := fun a ha => (hplain a ha).1
  obtain ⟨hinfo, hmanager⟩ := Action.foldl_of_no_store hstore s.info.precision
  exact h.enter htodo (hinfo.trans hmanager.symm) hpending hclearing
    (Action.guarded_of_no_store hstore _) fun a ha => (hplain a ha).2

/-- Between arms a pending reconciliation holds its pause. -/
theorem Inv.pending_set (h : Inv s) (htodo : s.todo = []) (hpending : s.reconciliationPending = true) :
    s.execution.hasPauseReason .reconciliation = true := by
  rcases h.pending hpending with hset | hmem
  · exact hset
  · rw [htodo] at hmem
    cases hmem

theorem mem_beginActions {s : TickFence} {position : SharedPosition} {a : Action}
    (ha : a ∈ s.beginActions position) :
    a.isStore = false ∧ a.isDispatch = false ∧ a ≠ .fetchAnd .reconciliation := by
  unfold beginActions at ha
  split at ha
  · cases ha
  · split at ha <;> simp only [List.mem_cons, List.not_mem_nil, or_false] at ha
    · subst ha
      exact ⟨rfl, rfl, nofun⟩
    · rcases ha with rfl | rfl | rfl <;> exact ⟨rfl, rfl, nofun⟩

/-- `begin_account_reconciliation` has set the pause, or ends with setting it. -/
theorem beginActions_cases (s : TickFence) (position : SharedPosition) :
    (s.reconciliationPending = true ∧ s.beginActions position = []) ∨
    ∃ waiting, s.beginActions position = waiting ++ [.fetchOr .reconciliation] := by
  unfold beginActions
  split
  · next hpending => exact Or.inl ⟨hpending, rfl⟩
  · split
    · exact Or.inr ⟨[], rfl⟩
    · exact Or.inr ⟨[.awaitPositions position, .fetchOr .riskData], rfl⟩

/-- Once the reconciliation has begun, its pause is on or about to come on. -/
theorem Inv.begun (h : Inv s) (htodo : s.todo = []) (position : SharedPosition) :
    s.execution.hasPauseReason .reconciliation = true ∨ .fetchOr .reconciliation ∈ s.beginActions position := by
  rcases s.beginActions_cases position with ⟨hpending, _⟩ | ⟨waiting, heq⟩
  · exact Or.inl (h.pending_set htodo hpending)
  · exact Or.inr (by simp [heq])

theorem Inv.beginReconciliation (h : Inv s) (htodo : s.todo = []) (position : SharedPosition) :
    Inv { s with reconciliationPending := true, todo := s.beginActions position } :=
  h.enter_plain htodo (fun _ => h.begun htodo position)
    (fun hmem => absurd rfl (mem_beginActions hmem).2.2)
    fun _ ha => ⟨(mem_beginActions ha).1, (mem_beginActions ha).2.1⟩

theorem tickActions_guarded {paused : Prop} (h : paused) (signal : TickSizeChangedSignal) :
    Action.Guarded paused (tickActions signal) :=
  ⟨fun _ => h, fun _ => h, fun _ => h, fun _ => h, fun _ => h, trivial⟩

theorem Inv.tickSizeChanged (h : Inv s) (htodo : s.todo = []) (signal : TickSizeChangedSignal)
    (position : SharedPosition) :
    Inv { s with reconciliationPending := true, todo := s.beginActions position ++ tickActions signal } := by
  have hnone : ∀ a ∈ tickActions signal, a.isDispatch = false ∧ a ≠ .fetchAnd .reconciliation := by
    intro a ha
    simp only [tickActions, List.mem_cons, List.not_mem_nil, or_false] at ha
    rcases ha with rfl | rfl | rfl | rfl | rfl | rfl <;> exact ⟨rfl, nofun⟩
  have hstore : ∀ a ∈ s.beginActions position, a.isStore = false := fun a ha => (mem_beginActions ha).1
  obtain ⟨hinfo, hmanager⟩ := Action.foldl_of_no_store hstore s.info.precision
  refine h.enter htodo ?_ (fun _ => ?_) (fun hmem => ?_) ?_ (fun a ha => ?_)
  · rw [List.foldl_append, List.foldl_append, hinfo, hmanager]
    rfl
  · exact (h.begun htodo position).imp_right fun hmem => List.mem_append.mpr (Or.inl hmem)
  · rcases List.mem_append.mp hmem with hmem | hmem
    · exact absurd rfl (mem_beginActions hmem).2.2
    · exact absurd rfl (hnone _ hmem).2
  · rcases s.beginActions_cases position with ⟨hpending, hnil⟩ | ⟨waiting, heq⟩
    · -- a reconciliation is pending: its pause is already on
      rw [hnil]
      exact tickActions_guarded (ExecutionState.pauseReasons_ne_zero (h.pending_set htodo hpending)) signal
    · rw [heq, List.append_assoc]
      refine Action.guarded_append_fetchOr (fun a ha => hstore a ?_) _ (tickActions_guarded trivial signal) _
      rw [heq]
      exact List.mem_append.mpr (Or.inl ha)
  · rcases List.mem_append.mp ha with ha | ha
    · exact (mem_beginActions ha).2.1
    · exact (hnone a ha).1

theorem onQuoteInto_config (m : OrderManager) (position limit : ℚ) (quote : Quote) (now : Int) :
    (m.onQuoteInto position limit quote now).1.config = m.config := by
  refine OrderManager.onQuoteInto_rule (I := fun m' _ => m'.config = m.config) rfl rfl ?_
  intro m' ds t i r hI hr
  cases hr <;> exact hI

/-- A quote that sends is made unpaused and leaves the pause state alone. -/
theorem onQuoteInto_sends {m : OrderManager} {position limit : ℚ} {quote : Quote} {now : Int}
    {d : OrderDecision} (hd : d ∈ (m.onQuoteInto position limit quote now).2)
    (hsend : d.isSend = true) :
    (m.onQuoteInto position limit quote now).1.execution = m.execution ∧ m.execution.pauseReasons = 0#8 := by
  constructor
  · rcases m.onQuoteInto_execution position limit quote now with hsame | ⟨_, _, hnone⟩
    · exact hsame
    · exact absurd (hnone d hd) (by rw [hsend]; decide)
  · by_contra hpaused
    rw [OrderManager.onQuoteInto_paused fun h => hpaused h.2] at hd
    cases hd

/-- A quote: what it sends is computed with the sizes that are there. -/
theorem Inv.quote (h : Inv s) (htodo : s.todo = []) (position limit : ℚ) (quote : Quote) (now : Clocks) :
    Inv (s.quote position limit quote now) := by
  have hsame : s.info.precision = s.manager.precision := by
    have := h.agree
    rwa [htodo] at this
  let m := s.manager.clearPauseReason .marketData
  let r := m.onQuoteInto position limit quote now.unixNs
  have hprecision : OrderManager.precision { r.1 with execution := m.execution } = s.manager.precision := by
    show (⟨r.1.config.tickSize, r.1.config.lotSize⟩ : Precision) = _
    rw [onQuoteInto_config]
    rfl
  have hclear : s.Unpaused → m.execution.pauseReasons = 0#8 := by
    intro hpauses
    show Flags.clear s.execution.pauseReasons _ = 0#8
    rw [show s.execution.pauseReasons = 0#8 from hpauses]
    simp [Flags.clear]
  have hmem : ∀ a ∈ (s.quote position limit quote now).todo,
      a = .fetchOr .riskData ∨ ∃ d ∈ r.2, a = .dispatch d s.info.precision s.manager.precision := by
    intro a ha
    rcases List.mem_append.mp ha with ha | ha
    · split at ha
      · exact Or.inl (List.mem_singleton.mp ha)
      · cases ha
    · obtain ⟨d, hd, rfl⟩ := List.mem_map.mp ha
      exact Or.inr ⟨d, hd, rfl⟩
  have hstore : ∀ a ∈ (s.quote position limit quote now).todo, a.isStore = false := by
    intro a ha
    rcases hmem a ha with rfl | ⟨d, _, rfl⟩ <;> rfl
  obtain ⟨hinfo, hmanager⟩ := Action.foldl_of_no_store hstore s.info.precision
  refine { h with tag := h.tag, agree := ?_, pending := fun hpending => ?_, clearing := fun hfetch => ?_,
                  guarded := Action.guarded_of_no_store hstore _,
                  sending := fun d quoted permitted hd hsend => ?_, fresh := fun x hx hfresh => ?_ }
  · show List.foldl _ s.info.precision _ =
      List.foldl _ (OrderManager.precision { r.1 with execution := m.execution }) _
    rw [hprecision, ← hsame, hinfo, hmanager]
  · refine Or.inl ((ExecutionState.hasPauseReason_clear_of_ne s.execution ?_).trans (h.pending_set htodo hpending))
    decide
  · rcases hmem _ hfetch with heq | ⟨_, _, heq⟩ <;> cases heq
  · rcases hmem _ hd with heq | ⟨d', hd', heq⟩
    · cases heq
    · cases heq
      obtain ⟨hexecution, hpauses⟩ := onQuoteInto_sends hd' hsend
      refine ⟨fun a ha => ?_, hpauses, rfl, hsame.symm⟩
      -- with a Send among the decisions `RiskData` is not set
      have hrisk : r.1.hasPauseReason .riskData = m.hasPauseReason .riskData := by
        show r.1.execution.hasPauseReason _ = _
        rw [hexecution]
        rfl
      rcases List.mem_append.mp ha with ha | ha
      · rw [hrisk, Bool.and_not_self] at ha
        cases ha
      · obtain ⟨_, _, rfl⟩ := List.mem_map.mp ha
        rfl
  · obtain ⟨hquoted, hpauses | ⟨_, hbump⟩⟩ := h.fresh x hx hfresh
    · exact ⟨hquoted, Or.inl (hclear hpauses)⟩
    · rw [htodo] at hbump
      cases hbump

theorem Inv.start {sqrt : ℚ → ℚ} {a : Arm} (h : Inv s) (htodo : s.todo = [])
    (hs : s.start sqrt a = some s') :
    Inv s' := by
  have hpending : ∀ todo : List Action, s.reconciliationPending = true →
      s.execution.hasPauseReason .reconciliation = true ∨ .fetchOr .reconciliation ∈ todo :=
    fun _ hpending => Or.inl (h.pending_set htodo hpending)
  cases a with
  | pause r =>
    cases hs
    refine h.enter_plain htodo (hpending _) (fun hmem => ?_) (fun a ha => ?_)
    · simp at hmem
    · obtain rfl := List.mem_singleton.mp ha
      exact ⟨rfl, rfl⟩
  | unpause r =>
    simp only [TickFence.start] at hs
    split at hs
    · cases hs
    · next hne =>
      cases hs
      refine h.enter_plain htodo (hpending _) (fun hmem => ?_) (fun a ha => ?_)
      · exact absurd (by simpa using hmem) (Ne.symm hne)
      · obtain rfl := List.mem_singleton.mp ha
        exact ⟨rfl, rfl⟩
  | shutdown =>
    cases hs
    refine h.enter_plain htodo (hpending _) (fun hmem => ?_) (fun a ha => ?_)
    · simp at hmem
    · simp only [List.mem_cons, List.not_mem_nil, or_false] at ha
      rcases ha with rfl | rfl <;> exact ⟨rfl, rfl⟩
  | work m =>
    cases hs
    exact { h with }
  | beginReconciliation position =>
    cases hs
    exact h.beginReconciliation htodo position
  | finishReconciliation position =>
    cases hs
    refine h.enter_plain htodo nofun (fun _ => rfl) (fun a ha => ?_)
    simp only [List.mem_cons, List.not_mem_nil, or_false] at ha
    rcases ha with rfl | rfl | rfl | rfl | rfl | rfl <;> exact ⟨rfl, rfl⟩
  | depthBook book position equity binance now =>
    simp only [TickFence.start, depthBook, Option.map_eq_some_iff] at hs
    obtain ⟨⟨strategy, quote⟩, _, rfl⟩ := hs
    have hfed : Inv { s with strategy := strategy } := { h with }
    dsimp only
    split
    · exact hfed
    · split
      · exact hfed.quote htodo position _ _ now
      · exact hfed
  | tickSizeChanged signal position =>
    cases hs
    exact h.tickSizeChanged htodo signal position

/-- **One step.** -/
theorem Inv.step {sqrt : ℚ → ℚ} {e : Event} (h : Inv s) (hs : s.step sqrt e = some s') : Inv s' := by
  cases e with
  | arm a =>
    simp only [TickFence.step] at hs
    split at hs
    · next hempty => exact h.start (List.isEmpty_iff.mp hempty) hs
    · cases hs
  | main reaches =>
    simp only [TickFence.step] at hs
    split at hs
    · next a rest htodo =>
      cases hs
      exact h.main htodo reaches
    · cases hs
  | receive =>
    simp only [TickFence.step] at hs
    split at hs
    · next x rest _ hchannel =>
      cases hs
      exact h.receive hchannel
    · cases hs
  | loadTickSize =>
    simp only [TickFence.step] at hs
    split at hs
    · next x hx =>
      cases hs
      exact h.loadTickSize hx
    · cases hs
  | loadLotSize =>
    simp only [TickFence.step] at hs
    split at hs
    · next x tick hx =>
      cases hs
      exact h.loadLotSize hx
    · cases hs
  | load =>
    simp only [TickFence.step] at hs
    split at hs
    · next x read second load hx =>
      cases hs
      exact h.load hx
    · cases hs
  | fail =>
    cases hs
    exact h.idle
  | write =>
    simp only [TickFence.step] at hs
    split at hs
    · next x read checkedAt hx =>
      cases hs
      exact h.write hx
    · cases hs

/-- **The order is written with the sizes it was computed with.**  Over every interleaving, an order
    on the socket was formatted with the tick and the lot size its quote was computed with, which are
    the manager's of its permitted quantity too, if fewer than `2 ^ 64` bumps came between its
    dispatch and its second check. -/
theorem written_with_its_precision (sqrt : ℚ → ℚ) (info : SharedSymbolInfo) (config : OrderManagerConfig)
    (hlot : 0 < info.lotSize) (strategy : ObiStrategy) (startMs : Int) (es : List Event) (s : TickFence)
    (h : exec (step sqrt) (new info config hlot strategy startMs) es = some s) :
    ∀ w ∈ s.written, w.checkedAt < w.decision.dispatchedAt + 2 ^ 64 →
      w.formatted = w.decision.quoted ∧ w.formatted = w.decision.permitted :=
  (exec_invariant Inv (fun _ _ _ hinv hs => hinv.step hs) (inv_new info config hlot strategy startMs) h).written

/-! ## Around the fence -/

/-- From the channel to the socket: the loads of the sizes, the six loads of the checks, the write. -/
def sendEvents : List Event :=
  [.receive, .loadTickSize, .loadLotSize, .load, .load, .load, .load, .load, .load, .write]

/-- A Send that is permitted when it is taken out is written with the sizes that are there. -/
theorem exec_sendEvents {sqrt : ℚ → ℚ} {x : Tagged} {rest : List Tagged} (hidle : s.executor = .idle)
    (hchannel : s.channel = x :: rest) (hsend : x.decision.isSend = true)
    (hpermits : s.execution.permits x.generation = true) :
    exec (step sqrt) s sendEvents = some { s with
      channel := rest, executor := .idle, written := ⟨x, s.info.precision, s.bumps⟩ :: s.written } := by
  obtain ⟨⟨hup, hclear⟩, hgeneration⟩ := (ExecutionState.permits_iff _ _).mp hpermits
  have hreceive : s.step sqrt .receive = some { s with channel := rest, executor := .received x } := by
    simp only [step, hidle, hchannel, hsend, if_true]
  let at' (e : SendState) : TickFence := { s with channel := rest, executor := e }
  have hload : ∀ second load, (at' (.checking x s.info.precision second load)).step sqrt .load
      = some (at' (s.check x s.info.precision second load)) := fun _ _ => rfl
  have hcheck : ∀ second, exec (step sqrt) (at' (.checking x s.info.precision second .shutdown)) [.load, .load, .load]
      = some (at' (if second then .writing x s.info.precision s.bumps
          else .checking x s.info.precision true .shutdown)) := by
    intro second
    have hshutdown : s.check x s.info.precision second .shutdown
        = .checking x s.info.precision second .pauseReasons := if_neg (by rw [hup]; decide)
    have hpauses : s.check x s.info.precision second .pauseReasons
        = .checking x s.info.precision second .generation := if_pos hclear
    have hlast : s.check x s.info.precision second .generation
        = if second then .writing x s.info.precision s.bumps else .checking x s.info.precision true .shutdown :=
      if_pos hgeneration
    rw [exec_cons, hload, Option.bind_some, hshutdown, exec_cons, hload, Option.bind_some, hpauses, exec_cons,
      hload, Option.bind_some, hlast, exec_nil]
  have hread : exec (step sqrt) s [.receive, .loadTickSize, .loadLotSize]
      = some (at' (.checking x s.info.precision false .shutdown)) := by
    rw [exec_cons, hreceive]
    rfl
  calc exec (step sqrt) s sendEvents
      = exec (step sqrt) s ([.receive, .loadTickSize, .loadLotSize] ++ ([.load, .load, .load] ++
          ([.load, .load, .load] ++ [.write]))) := rfl
    _ = exec (step sqrt) (at' (.writing x s.info.precision s.bumps)) [.write] := by
        rw [exec_append, hread, Option.bind_some, exec_append, hcheck, Option.bind_some,
          if_neg Bool.false_ne_true, exec_append, hcheck, Option.bind_some, if_pos rfl]
    _ = _ := rfl

/-- The state with the generation bumped `n` times more and no reason set. -/
def bumped (s : TickFence) (n : Nat) : TickFence :=
  { s.setExecution ⟨0#8, s.execution.shutdown, (s.execution.generation + n) % size⟩ with bumps := s.bumps + n }

/-- A pause and its end. -/
def pauseAndClear : List Event := [.arm (.pause .riskData), .main true, .main true, .arm (.unpause .riskData), .main true]

theorem exec_pauseAndClear {sqrt : ℚ → ℚ} (htodo : s.todo = []) (n : Nat) :
    exec (step sqrt) (s.bumped n) pauseAndClear = some (s.bumped (n + 1)) := by
  have hbump : wrappingAdd ((s.manager.execution.generation + n) % size) 1
      = (s.manager.execution.generation + (n + 1)) % size := by
    rw [wrappingAdd, Nat.mod_add_mod, Nat.add_assoc]
  have hflags : Flags.clear (Flags.set 0#8 PauseReason.riskData.bits) PauseReason.riskData.bits = 0#8 := by
    decide
  have hne : PauseReason.riskData ≠ .reconciliation := by decide
  simp only [pauseAndClear, exec_cons, exec_nil, step, start, perform, bumped, setExecution, execution, htodo,
    List.isEmpty_nil, if_true, Option.bind_some, ExecutionState.fetchOrPause, ExecutionState.bumpGeneration,
    ExecutionState.clearPauseReason, ExecutionState.hasPauseReason, Flags.test_zero, Bool.false_eq_true, if_false,
    if_neg hne, hflags]
  rw [hbump]
  rfl

/-- Ticks and lots of a hundredth and a thousandth, and the strategy of a flat market. -/
def started : TickFence :=
  new ⟨1 / 100, 1 / 1000, 1 / 1000⟩ .default (by norm_num) (.new Trader.fourASecond 1 5) 0

/-- A message of the flat market. -/
def flatBook (n : Nat) : Event :=
  .arm (.depthBook {
    symbol := "BTC-USD"
    timestampNs := 0
    receivedAtNs := (4 * n + 1) * 1000000000
    sequence := n + 1
    bids := [⟨some (9999 / 100), some 1⟩]
    asks := [⟨some (10001 / 100), some 1⟩] } 0 ((SharedEquity.new 1 10 1).setEquity (some 1000) 1000) none
    (App.atSecond (4 * n + 1)))

/-- The order socket and the risk data are there, and after a minute a bid and an ask are dispatched. -/
def firstQuote : List Event :=
  [.arm (.unpause .orderWebSocket), .main true, .arm (.unpause .riskData), .main true] ++
    (List.range 16).map flatBook ++ [.main true, .main true]

/-- The bid goes out with the sizes it was computed with. -/
theorem written_with_its_precision_firstBid :
    ∃ s w, exec (step Trader.sqrtFlat) started (firstQuote ++ sendEvents) = some s ∧ w ∈ s.written ∧
      w.decision.decision.isSend = true ∧ w.formatted = w.decision.quoted ∧
      w.formatted = w.decision.permitted := by
  have hrun : (exec (step Trader.sqrtFlat) started (firstQuote ++ sendEvents)).any (fun s =>
      s.written.any fun w => w.decision.decision.isSend && decide (w.checkedAt < w.decision.dispatchedAt + 2 ^ 64))
      = true := by
    decide +kernel
  obtain ⟨s, hexec, hany⟩ := (Option.any_eq_true _ _).mp hrun
  obtain ⟨w, hw, hcheck⟩ := List.any_eq_true.mp hany
  simp only [Bool.and_eq_true, decide_eq_true_eq] at hcheck
  have hsame := written_with_its_precision Trader.sqrtFlat ⟨1 / 100, 1 / 1000, 1 / 1000⟩ .default (by norm_num)
    (.new Trader.fourASecond 1 5) 0 (firstQuote ++ sendEvents) s hexec w hw hcheck.2
  exact ⟨s, w, hexec, hw, hcheck.1, hsame⟩

/-- Ticks of a tenth. -/
def coarserTicks : TickSizeChangedSignal where
  symbol := "BTC-USD"
  newTickSize := 1 / 10
  newLotSize := 1 / 1000
  minOrderQty := 1 / 1000
  newLotSize_pos := OrderManagerConfig.default.lotSize_pos

/-- The tick size arm, the end of the reconciliation, and the end of the other two pauses. -/
def tickChange : List Event :=
  [.arm (.tickSizeChanged coarserTicks .new)] ++ List.replicate 12 (.main true) ++
    [.arm (.finishReconciliation .new)] ++ List.replicate 6 (.main true) ++
    [.arm (.unpause .marketData), .main true, .arm (.unpause .riskData), .main true]

/-- **The generation can go round.**  A bid is dispatched, the tick size changes, and `2 ^ 64` bumps
    after the dispatch the executor takes the bid out and writes it with the new tick size. -/
theorem written_with_another_precision :
    ∃ es s w, exec (step Trader.sqrtFlat) started es = some s ∧ w ∈ s.written ∧
      w.formatted ≠ w.decision.quoted := by
  have hrun : (exec (step Trader.sqrtFlat) started (firstQuote ++ tickChange)).any (fun s =>
      s.todo.isEmpty && decide (s.execution = ⟨0#8, false, 6⟩) && decide (s.executor = .idle) &&
        s.channel.head?.any fun x => x.decision.isSend && decide (x.generation = 3) &&
          decide (s.info.precision ≠ x.quoted)) = true := by
    decide +kernel
  obtain ⟨s, hexec, hcheck⟩ := (Option.any_eq_true _ _).mp hrun
  simp only [Bool.and_eq_true, decide_eq_true_eq, List.isEmpty_iff] at hcheck
  obtain ⟨⟨⟨htodo, hexecution⟩, hidle⟩, hhead⟩ := hcheck
  obtain ⟨x, hx, hcheck⟩ := (Option.any_eq_true _ _).mp hhead
  simp only [Bool.and_eq_true, decide_eq_true_eq] at hcheck
  obtain ⟨⟨hsend, hgeneration⟩, hother⟩ := hcheck
  obtain ⟨rest, hchannel⟩ := List.head?_eq_some_iff.mp hx
  -- the generation is at 6, and comes back to 3
  have hzero : s.bumped 0 = s := by
    have hsame : (⟨0#8, s.execution.shutdown, (s.execution.generation + 0) % size⟩ : ExecutionState) = s.execution := by
      rw [hexecution]
      rfl
    unfold bumped
    rw [hsame]
    rfl
  have hround : exec (step Trader.sqrtFlat) s (List.replicate (size - 3) pauseAndClear).flatten
      = some (s.bumped (size - 3)) := by
    have hblock : ∀ n, exec (step Trader.sqrtFlat) (s.bumped n) pauseAndClear = some (s.bumped (n + 1)) :=
      fun n => exec_pauseAndClear htodo n
    have := exec_replicate hblock (size - 3) 0
    rwa [hzero, Nat.zero_add] at this
  have hpermits : (s.bumped (size - 3)).execution.permits x.generation = true := by
    show (ExecutionState.mk 0#8 s.execution.shutdown ((s.execution.generation + (size - 3)) % size)).permits _ = true
    rw [hexecution, hgeneration]
    decide
  have hsent : exec (step Trader.sqrtFlat) (s.bumped (size - 3)) sendEvents = some _ :=
    exec_sendEvents hidle hchannel hsend hpermits
  have hall : exec (step Trader.sqrtFlat) started
        (firstQuote ++ tickChange ++ ((List.replicate (size - 3) pauseAndClear).flatten ++ sendEvents))
      = exec (step Trader.sqrtFlat) (s.bumped (size - 3)) sendEvents := by
    rw [exec_append, hexec, Option.bind_some, exec_append, hround, Option.bind_some]
  exact ⟨_, _, _, hall.trans hsent, List.mem_cons_self, hother⟩

end TickFence

end MarketMaker
