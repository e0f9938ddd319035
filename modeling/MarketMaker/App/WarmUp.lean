import MarketMaker.App.Queue
import MarketMaker.Strategy.Readiness

/-!
# Trading waits for the warm-up

`App` together with its strategies.  A depth message that the watchdog accepts is fed to the
strategy of its symbol, whose quote goes to the manager; a disconnect, an outage of the depth and a
tick or lot change reset strategies and set `MarketData`.

* `handle_marketData`, `handle_queue` — only a quote that is valid for trading clears `MarketData`
  or queues a `Send`.
* `Trader.warm_up_before_trading` — and then its strategy has been fed without a gap, for long
  enough, since the last reset.
* `Trader.history_wraps` — the required history is a product of machine integers.
-/

set_option autoImplicit false

namespace MarketMaker

open Word64 SampleHold

/-! ## What only a quote does -/

namespace App

open OrderManager (Operation Calls)

variable {app : App} {now : Clocks}

/-- The event carries a quote for the symbol that is valid for trading. -/
def Event.QuotesFor (symbol : String) (e : Event) : Prop :=
  ∃ book quote reaches, e = .market (.depthBook book (some quote) reaches) ∧ book.symbol = symbol ∧
    quote.validForTrading = true

/-- Outside the market data arm nothing clears `MarketData`. -/
theorem calls_keep_marketData (now : Clocks) {e : Event} {m m' : OrderManager}
    (he : ∀ event, e ≠ .market event) (h : Calls (Allowed now e) m m')
    (hm : m.hasPauseReason .marketData = true) :
    m'.hasPauseReason .marketData = true := by
  refine h.preserves (fun m => m.hasPauseReason .marketData = true) (fun m op hop hm => ?_) hm
  refine OrderManager.apply_keeps_reason (fun hclears => ?_) hm
  cases op with
  | clearPauseReason r =>
    cases hclears
    obtain ⟨event, hevent⟩ := hop
    exact he event hevent
  | finishReconciliation => rcases hclears with h | h | h <;> cases h
  | resetCircuitBreaker => exact hop
  | _ => exact hclears

theorem moves_keep_marketData (now : Clocks) {app' : App} {symbol : String}
    (h : Moves (Allowed now .tokenRefresh) app app')
    (hm : (app.managers symbol).hasPauseReason .marketData = true) :
    (app'.managers symbol).hasPauseReason .marketData = true :=
  calls_keep_marketData now (fun _ h => by cases h) (h.managers symbol) hm

/-- A quote clears `MarketData` for its own symbol, if it is valid for trading. -/
theorem processQuote_marketData {symbol s : String} {quote : Quote} {reaches : Nat → Bool}
    (hquote : ¬ (s = symbol ∧ quote.validForTrading = true))
    (hm : (app.managers s).hasPauseReason .marketData = true) :
    ((app.processQuote symbol quote reaches now).managers s).hasPauseReason .marketData = true := by
  unfold processQuote
  split
  next hvalid =>
    simp only [Bool.and_eq_true] at hvalid
    have hs : s ≠ symbol := fun hs => hquote ⟨hs, hvalid.1.1.2⟩
    dsimp only
    split
    · refine moves_keep_marketData now ((mapManagers_moves _ fun _ => triggerSafetyPause_calls _ _).trans
        (beginAccountReconciliation_moves _ _)) ?_
      rw [dispatchAll_managers_of_ne _ hs]
      exact hm
    · rw [dispatchAll_managers_of_ne _ hs]
      exact hm
  next => exact hm

theorem processDepthBook_marketData {book : DepthSnapshot} {quote : Option Quote} {reaches : Nat → Bool}
    {symbol : String} (hquote : ¬ (book.symbol = symbol ∧ ∃ q, quote = some q ∧ q.validForTrading = true))
    (hm : (app.managers symbol).hasPauseReason .marketData = true) :
    ((app.processDepthBook book quote reaches now).managers symbol).hasPauseReason .marketData = true := by
  unfold processDepthBook
  split
  · split
    · exact hm
    · dsimp only
      split
      · exact hm
      · rename_i q
        exact processQuote_marketData (fun h => hquote ⟨h.1.symm, q, rfl, h.2⟩) hm
  · exact hm

/-- The market data arm keeps `MarketData` once the watchdog has had its look. -/
theorem onMarketEvent_marketData {event : WsEvent} {symbol : String}
    (he : ¬ (Event.market event).QuotesFor symbol)
    (hchecked : ((app.checkDepthStale now).managers symbol).hasPauseReason .marketData = true) :
    ((app.onMarketEvent event now).managers symbol).hasPauseReason .marketData = true := by
  have hprocessed : (((app.checkDepthStale now).processEvent event now).2.managers symbol).hasPauseReason
      .marketData = true := by
    cases event with
    | depthBook book quote reaches =>
      refine processDepthBook_marketData (fun h => he ?_) hchecked
      obtain ⟨hsymbol, q, rfl, hvalid⟩ := h
      exact ⟨book, q, reaches, rfl, hsymbol, hvalid⟩
    | disconnected =>
      exact calls_keep_marketData now (e := .tokenRefresh) (fun _ h => by cases h)
        ((setPauseReason_calls _ (by decide)).trans (setPauseReason_calls _ (by decide))) hchecked
    | connected | other => exact hchecked
  unfold onMarketEvent
  dsimp only
  split
  · exact moves_keep_marketData now (beginAccountReconciliation_moves (t := now) _ _) hprocessed
  · exact hprocessed

/-- **Only a quote that is valid for trading clears `MarketData`.** -/
theorem handle_marketData {e : Event} {symbol : String} (he : ¬ e.QuotesFor symbol)
    (hm : (app.managers symbol).hasPauseReason .marketData = true) :
    ((app.handle now e).managers symbol).hasPauseReason .marketData = true := by
  cases e with
  | market event =>
    exact onMarketEvent_marketData he (moves_keep_marketData now (checkDepthStale_moves (t := now) app) hm)
  | _ => exact calls_keep_marketData now (fun _ h => by cases h) (handle_calls app now _ symbol) hm

theorem setPauseReason_marketData (m : OrderManager) :
    (m.setPauseReason .marketData).hasPauseReason .marketData = true := m.execution.hasPauseReason_set_self _

/-- An outage of a symbol's depth sets `MarketData` on its manager. -/
theorem checkDepthStale_marketData {symbol : String} (h : app.depthExpired now symbol = true) :
    ((app.checkDepthStale now).managers symbol).hasPauseReason .marketData = true := by
  have hmarked : ((app.markDepthStale now).managers symbol).hasPauseReason .marketData = true := by
    unfold markDepthStale
    dsimp only
    rw [if_pos h]
    exact setPauseReason_marketData _
  rw [checkDepthStale_eq]
  split
  · exact moves_keep_marketData now (beginAccountReconciliation_moves (t := now) _ _) hmarked
  · exact hmarked

/-- A disconnect sets it on every manager. -/
theorem onDisconnected_marketData (symbol : String) :
    ((app.onMarketEvent .disconnected now).managers symbol).hasPauseReason .marketData = true := by
  refine moves_keep_marketData now (beginAccountReconciliation_moves (t := now) _ _) ?_
  have hset := setPauseReason_marketData ((app.checkDepthStale now).managers symbol)
  have hkeeps : ¬ Operation.Clears (.setPauseReason .reconciliation) .marketData := fun h => h
  exact OrderManager.apply_keeps_reason hkeeps hset

/-- A tick or lot change sets it on the manager of its symbol. -/
theorem onTickSizeChanged_marketData {signal : TickSizeChangedSignal}
    (h : app.hasManager signal.symbol = true) :
    ((app.onTickSizeChanged signal).managers signal.symbol).hasPauseReason .marketData = true := by
  have hmanager : (app.beginAccountReconciliation ("tick/lot size changed for " ++ signal.symbol)).hasManager
      signal.symbol = true := by
    unfold hasManager
    rw [(beginAccountReconciliation_moves (t := ⟨0, 0⟩) (e := .tokenRefresh) app _).config]
    exact h
  unfold onTickSizeChanged
  dsimp only
  rw [if_pos hmanager]
  simp only [modifyManager, Function.update_self]
  exact setPauseReason_marketData _

theorem processDepthBook_queue (app : App) (book : DepthSnapshot) (quote : Option Quote)
    (reaches : Nat → Bool) (now : Clocks) :
    ∃ new, Queues app (app.processDepthBook book quote reaches now) new ∧
      ∀ q ∈ new, ∃ quote', quote = some quote' ∧ q.symbol = book.symbol ∧ quote'.validForTrading = true := by
  have hnone : ∃ new, Queues app app new ∧ ∀ q ∈ new, ∃ quote', quote = some quote' ∧
      q.symbol = book.symbol ∧ quote'.validForTrading = true :=
    ⟨[], .none rfl, fun q hq => absurd hq List.not_mem_nil⟩
  unfold processDepthBook
  split
  · split
    · exact hnone
    · rename_i depth _
      cases quote with
      | none => exact hnone
      | some quote =>
        obtain ⟨new, hnew, hq⟩ := processQuote_queue
          { app with depth := Function.update app.depth book.symbol depth } book.symbol quote reaches now
        exact ⟨new, hnew, fun q hmem => ⟨quote, rfl, hq q hmem⟩⟩
  · exact hnone

/-- **Only a quote that is valid for trading queues a `Send`,** and for its own symbol. -/
theorem handle_queue (app : App) (now : Clocks) (e : Event) :
    ∃ new, Queues app (app.handle now e) new ∧ ∀ q ∈ new, q.decision.isSend = true → e.QuotesFor q.symbol := by
  cases e with
  | market event =>
    have hchecked : Queues app (app.checkDepthStale now) [] := .none (app.checkDepthStale_orderTx now)
    have hprocessed : ∃ new, Queues (app.checkDepthStale now)
        ((app.checkDepthStale now).processEvent event now).2 new ∧
        ∀ q ∈ new, q.decision.isSend = true → (Event.market event).QuotesFor q.symbol := by
      cases event with
      | depthBook book quote reaches =>
        obtain ⟨new, hnew, hq⟩ := processDepthBook_queue (app.checkDepthStale now) book quote reaches now
        refine ⟨new, hnew, fun q hmem _ => ?_⟩
        obtain ⟨quote, rfl, hsymbol, hvalid⟩ := hq q hmem
        exact ⟨book, quote, reaches, rfl, hsymbol.symm, hvalid⟩
      | connected | disconnected | other => exact ⟨[], .none rfl, fun q hq => absurd hq List.not_mem_nil⟩
    obtain ⟨new, hnew, hq⟩ := hprocessed
    refine ⟨new, ?_, hq⟩
    have htotal : Queues app ((app.checkDepthStale now).processEvent event now).2 new := hchecked.trans hnew
    simp only [handle, onMarketEvent]
    split
    · rw [Queues, beginAccountReconciliation_orderTx]
      exact htotal
    · exact htotal
  | checkOrderTimeouts reaches =>
    obtain ⟨new, hnew, hcancels⟩ := checkOrderTimeouts_queue app reaches now
    exact ⟨new, hnew, fun q hq hsend => absurd hsend (by rw [hcancels q hq]; decide)⟩
  | _ => exact ⟨[], .none (handle_orderTx app now (fun h => h)), fun q hq => absurd hq List.not_mem_nil⟩

end App

/-! ## The application with its strategies -/

/-- The part of a snapshot the watchdog reads. -/
def OrderbookSnapshot.toDepth (b : OrderbookSnapshot) : DepthSnapshot :=
  ⟨b.symbol, b.receivedAtNs, b.sequence, b.timestampNs, b.validate⟩

/-- `App` with its `strategies`.  `fed` lists, for each symbol, what its strategy has taken in since
    the last disconnect, depth outage or tick change that concerned it; nothing reads it. -/
structure Trader where
  app : App
  strategies : String → ObiStrategy
  fed : String → List Sample

namespace Trader

/-- `App::new`. -/
def new (config : AppConfig) (strategy : StrategyConfig) (historyMinutes : Nat)
    (managerConfig : String → OrderManagerConfig) (equity : SharedEquity) (startMs : Int) : Trader where
  app := .new config managerConfig equity startMs
  strategies _ := .new strategy historyMinutes config.depthStaleTimeoutSecs
  fed _ := []

/-- The events of `App`; a depth message comes with its snapshot, and with the symbol info and the
    Binance alpha its strategy will read. -/
inductive Event where
  | app (event : App.Event)
  | depthBook (book : OrderbookSnapshot) (symbolInfo : Option (ℚ × ℚ)) (binance : Option SharedAlpha)
      (reaches : Nat → Bool)

/-- `strategy.reset()` for some symbols. -/
def resetWhere (t : Trader) (p : String → Bool) : Trader :=
  { t with
    strategies := fun symbol => if p symbol then (t.strategies symbol).resetState else t.strategies symbol
    fed := fun symbol => if p symbol then [] else t.fed symbol }

/-- The symbols whose strategy an event resets before anything else: all on a disconnect, those
    whose depth is found to be stale, the one whose tick or lot size changed. -/
def fences (t : Trader) (now : Clocks) : Event → String → Bool
  | .app (.market .disconnected), _ => true
  | .app (.market _), symbol | .app .checkDepthStale, symbol | .depthBook .., symbol =>
    t.app.depthExpired now symbol
  | .app (.tickSizeChanged signal), symbol => signal.symbol == symbol
  | .app _, _ => false

/-- `depth.accept(..)` on the snapshot's symbol, after `check_depth_stale`. -/
def accepts (t : Trader) (now : Clocks) (book : OrderbookSnapshot) : Bool :=
  t.app.config.symbols.contains book.symbol &&
    (((t.app.checkDepthStale now).depth book.symbol).accept book.toDepth now.monotonicNs
      t.app.depthThresholdNs).isSome

/-- The strategy with the current position. -/
def positioned (t : Trader) (symbol : String) : ObiStrategy :=
  (t.strategies symbol).setPosition (t.app.positions symbol).position

/-- `strategy.update(&snapshot)`. -/
def feedStrategy (sqrt : ℚ → ℚ) (t : Trader) (now : Clocks) (book : OrderbookSnapshot)
    (symbolInfo : Option (ℚ × ℚ)) (binance : Option SharedAlpha) : Option (ObiStrategy × Option Quote) :=
  (t.positioned book.symbol).update sqrt ⟨symbolInfo, some t.app.sharedEquity, binance, now.unixMs⟩ book

/-- Take one event; `none` if a strategy never returns, or for a quote from nowhere. -/
def handle (sqrt : ℚ → ℚ) (t : Trader) (now : Clocks) : Event → Option Trader
  | .app (.market (.depthBook ..)) => none
  | .app event =>
    some { t.resetWhere (t.fences now (.app event)) with app := t.app.handle now event }
  | .depthBook book symbolInfo binance reaches =>
    let t := t.resetWhere (t.fences now (.depthBook book symbolInfo binance reaches))
    let processed := fun quote => t.app.handle now (.market (.depthBook book.toDepth quote reaches))
    if t.accepts now book then
      (t.feedStrategy sqrt now book symbolInfo binance).map fun (strategy, quote) =>
        { app := processed quote
          strategies := Function.update t.strategies book.symbol strategy
          fed := Function.update t.fed book.symbol
            (t.fed book.symbol ++ (t.strategies book.symbol).taken book) }
    else some { t with app := processed none }

/-- The main loop as a step function. -/
def step (sqrt : ℚ → ℚ) (t : Trader) (e : Clocks × Event) : Option Trader := t.handle sqrt e.1 e.2

/-! ### What holds of every strategy -/

variable {sqrt : ℚ → ℚ}

variable (sqrt) in
/-- Every strategy is continuous, has the configured durations, and its record is the end of what it
    was fed. -/
structure Inv (config : AppConfig) (historyMinutes : Nat) (t : Trader) : Prop where
  config_eq : t.app.config = config
  continuous : ∀ symbol, (t.strategies symbol).Continuous sqrt
  required : ∀ symbol, (t.strategies symbol).requiredHistoryNs = historyMinutes * 60 * 1000000000 % size
  maxGap : ∀ symbol, (t.strategies symbol).maxGapNs = asI64 (config.depthStaleTimeoutSecs * 1000000000)
  since : ∀ symbol, (t.strategies symbol).record.observations <:+ t.fed symbol

theorem inv_new (config : AppConfig) (strategy : StrategyConfig) (historyMinutes : Nat)
    (managerConfig : String → OrderManagerConfig) (equity : SharedEquity) (startMs : Int) :
    Inv sqrt config historyMinutes (new config strategy historyMinutes managerConfig equity startMs) :=
  ⟨rfl, fun _ => ObiStrategy.continuous_new .., fun _ => rfl, fun _ => rfl, fun _ => List.suffix_refl _⟩

variable {config : AppConfig} {historyMinutes : Nat} {t t' : Trader}

theorem Inv.resetWhere (h : Inv sqrt config historyMinutes t) (p : String → Bool) :
    Inv sqrt config historyMinutes (t.resetWhere p) := by
  refine ⟨h.config_eq, fun symbol => ?_, fun symbol => ?_, fun symbol => ?_, fun symbol => ?_⟩ <;>
    simp only [Trader.resetWhere] <;> split
  · exact ObiStrategy.continuous_resetState _
  · exact h.continuous symbol
  · exact h.required symbol
  · exact h.required symbol
  · exact h.maxGap symbol
  · exact h.maxGap symbol
  · exact List.suffix_refl _
  · exact h.since symbol

/-- The strategies have no part in what the application does with an event. -/
theorem Inv.withApp (h : Inv sqrt config historyMinutes t) {app : App}
    (happ : app.config = t.app.config) :
    Inv sqrt config historyMinutes { t with app := app } :=
  ⟨happ.trans h.config_eq, h.continuous, h.required, h.maxGap, h.since⟩

/-- A depth message with a quote: what it is fed to, and what comes of it. -/
structure Quoted (sqrt : ℚ → ℚ) (t : Trader) (e : Clocks × Event) (t' : Trader) (symbol : String)
    (quote : Option Quote) : Prop where
  updated : ∃ book symbolInfo binance reaches, e.2 = .depthBook book symbolInfo binance reaches ∧
    book.symbol = symbol ∧
    ((t.resetWhere (t.fences e.1 e.2)).feedStrategy sqrt e.1 book symbolInfo binance) =
      some (t'.strategies symbol, quote)

/-- What a step does: the strategies it concerns are reset, and then a snapshot may be fed to one of
    them.  The application sees the event with the quote, if there is one. -/
inductive StepCases (sqrt : ℚ → ℚ) (t : Trader) (e : Clocks × Event) (t' : Trader) : Prop
  | app (event : App.Event) : e.2 = .app event → (∀ symbol, ¬ event.QuotesFor symbol) →
      t' = { t.resetWhere (t.fences e.1 e.2) with app := t.app.handle e.1 event } → StepCases sqrt t e t'
  | ignored (book : OrderbookSnapshot) (symbolInfo : Option (ℚ × ℚ)) (binance : Option SharedAlpha)
      (reaches : Nat → Bool) : e.2 = .depthBook book symbolInfo binance reaches →
      t' = { t.resetWhere (t.fences e.1 e.2) with
        app := t.app.handle e.1 (.market (.depthBook book.toDepth none reaches)) } → StepCases sqrt t e t'
  | fed (book : OrderbookSnapshot) (symbolInfo : Option (ℚ × ℚ)) (binance : Option SharedAlpha)
      (reaches : Nat → Bool) (strategy : ObiStrategy) (quote : Option Quote) :
      e.2 = .depthBook book symbolInfo binance reaches →
      (t.resetWhere (t.fences e.1 e.2)).feedStrategy sqrt e.1 book symbolInfo binance = some (strategy, quote) →
      t' = {
        app := t.app.handle e.1 (.market (.depthBook book.toDepth quote reaches))
        strategies := Function.update (t.resetWhere (t.fences e.1 e.2)).strategies book.symbol strategy
        fed := Function.update (t.resetWhere (t.fences e.1 e.2)).fed book.symbol
          ((t.resetWhere (t.fences e.1 e.2)).fed book.symbol ++
            ((t.resetWhere (t.fences e.1 e.2)).strategies book.symbol).taken book) } →
      StepCases sqrt t e t'

theorem step_cases {e : Clocks × Event} (h : step sqrt t e = some t') : StepCases sqrt t e t' := by
  obtain ⟨now, event⟩ := e
  cases event with
  | app event =>
    unfold step handle at h
    split at h
    · cases h
    · rename_i hnot heq
      cases heq
      cases h
      refine .app event rfl (fun symbol hquotes => ?_) rfl
      obtain ⟨book, quote, reaches, hevent, _⟩ := hquotes
      exact hnot book (some quote) reaches (by rw [hevent])
    · rename_i heq
      cases heq
  | depthBook book symbolInfo binance reaches =>
    simp only [step, handle] at h
    split at h
    · obtain ⟨⟨strategy, quote⟩, hfeed, rfl⟩ := Option.map_eq_some_iff.mp h
      exact .fed book symbolInfo binance reaches strategy quote rfl hfeed rfl
    · cases h
      exact .ignored book symbolInfo binance reaches rfl rfl

theorem Inv.step {e : Clocks × Event} (h : Inv sqrt config historyMinutes t)
    (hstep : step sqrt t e = some t') :
    Inv sqrt config historyMinutes t' := by
  have hreset := h.resetWhere (t.fences e.1 e.2)
  rcases step_cases hstep with ⟨event, _, _, rfl⟩ | ⟨book, symbolInfo, binance, reaches, _, rfl⟩ |
    ⟨book, symbolInfo, binance, reaches, strategy, quote, _, hfeed, rfl⟩
  · exact hreset.withApp (App.handle_config ..)
  · exact hreset.withApp (App.handle_config ..)
  · obtain ⟨hcontinuous, hmaxGap, hrequired, hsuffix, _⟩ :=
      ((hreset.continuous book.symbol).setPosition _).update hfeed
    refine ⟨(App.handle_config ..).trans h.config_eq, fun symbol => ?_, fun symbol => ?_, fun symbol => ?_,
      fun symbol => ?_⟩ <;> dsimp only <;> by_cases hs : symbol = book.symbol
    · rw [hs, Function.update_self]
      exact hcontinuous
    · rw [Function.update_of_ne hs]
      exact hreset.continuous symbol
    · rw [hs, Function.update_self]
      exact hrequired.trans (hreset.required book.symbol)
    · rw [Function.update_of_ne hs]
      exact hreset.required symbol
    · rw [hs, Function.update_self]
      exact hmaxGap.trans (hreset.maxGap book.symbol)
    · rw [Function.update_of_ne hs]
      exact hreset.maxGap symbol
    · rw [hs, Function.update_self, Function.update_self]
      obtain ⟨older, hfed⟩ := hreset.since book.symbol
      refine hsuffix.trans ⟨older, ?_⟩
      rw [← hfed]
      exact (List.append_assoc ..).symm
    · rw [Function.update_of_ne hs, Function.update_of_ne hs]
      exact hreset.since symbol

/-! ### Trading waits for the warm-up -/

/-- The step puts a `Send` for the symbol on the order queue. -/
def Sends (t t' : Trader) (symbol : String) : Prop :=
  ∃ old new q, t.app.orderTx = some old ∧ t'.app.orderTx = some (old ++ new) ∧ q ∈ new ∧ q.symbol = symbol ∧
    q.decision.isSend = true

/-- The step clears `MarketData` on the symbol's manager. -/
def Clears (t t' : Trader) (symbol : String) : Prop :=
  (t.app.managers symbol).hasPauseReason .marketData = true ∧
    (t'.app.managers symbol).hasPauseReason .marketData = false

/-- The symbol's strategy has been fed without a gap since it was last reset, for long enough and
    with enough increments. -/
structure WarmedUp (historyMinutes depthStaleSecs : Nat) (t : Trader) (symbol : String) : Prop where
  since : (t.strategies symbol).record.observations <:+ t.fed symbol
  unbroken : (t.strategies symbol).record.observations.IsChain fun o p : Sample =>
    o.time ≤ p.time ∧ p.time - o.time < ((depthStaleSecs * 1000000000 : Nat) : Int)
  spans : ∃ first last, (t.strategies symbol).record.samples.head? = some first ∧
    (t.strategies symbol).record.samples.getLast? = some last ∧
    ((historyMinutes * 60 * 1000000000 : Nat) : Int) ≤ last.time - first.time
  increments : 100 ≤ (ObiStrategy.increments (t.strategies symbol).record.samples).length

/-- The application only sees a quote that its strategy made. -/
theorem quoted_of_quotesFor {e : Clocks × Event} {symbol : String}
    (hstep : Trader.step sqrt t e = some t')
    (hquotes : ∀ event, t'.app = t.app.handle e.1 event → event.QuotesFor symbol) :
    ∃ quote, Quoted sqrt t e t' symbol (some quote) ∧ quote.validForTrading = true := by
  rcases step_cases hstep with ⟨event, _, hnot, rfl⟩ | ⟨book, symbolInfo, binance, reaches, _, rfl⟩ |
    ⟨book, symbolInfo, binance, reaches, strategy, quote, he, hfeed, rfl⟩
  · exact absurd (hquotes event rfl) (hnot symbol)
  · obtain ⟨_, _, _, hevent, _⟩ := hquotes (.market (.depthBook book.toDepth none reaches)) rfl
    cases hevent
  · obtain ⟨_, quote', _, hevent, hsymbol, hvalid⟩ :=
      hquotes (.market (.depthBook book.toDepth quote reaches)) rfl
    cases hevent
    refine ⟨quote', ⟨book, symbolInfo, binance, reaches, he, hsymbol, ?_⟩, hvalid⟩
    have hself : Function.update (t.resetWhere (t.fences e.1 e.2)).strategies book.symbol strategy symbol =
        strategy := by
      rw [← hsymbol]
      exact Function.update_self ..
    dsimp only
    rw [hfeed, hself]

/-- A quote that is valid for trading comes from a strategy that is warmed up. -/
theorem Inv.warmedUp {e : Clocks × Event} {symbol : String} {quote : Quote}
    (h : Inv sqrt config historyMinutes t) (hstep : Trader.step sqrt t e = some t')
    (hpos : 0 < historyMinutes) (hexact : historyMinutes * 60 * 1000000000 < size)
    (hquoted : Quoted sqrt t e t' symbol (some quote)) (hvalid : quote.validForTrading = true) :
    WarmedUp historyMinutes config.depthStaleTimeoutSecs t' symbol := by
  have h' := h.step hstep
  obtain ⟨book, symbolInfo, binance, reaches, _, rfl, hfeed⟩ := hquoted.updated
  have hready : (t'.strategies book.symbol).isValidForTrading = true := by
    obtain ⟨_, _, _, _, hquote⟩ :=
      (((h.resetWhere (t.fences e.1 e.2)).continuous book.symbol).setPosition _).update hfeed
    rw [← hquote quote rfl, hvalid]
  have hrequired : (t'.strategies book.symbol).requiredHistoryNs = historyMinutes * 60 * 1000000000 := by
    rw [h'.required, Nat.mod_eq_of_lt hexact]
  obtain ⟨hincrements, first, last, hfirst, hlast, hspan⟩ :=
    (h'.continuous book.symbol).ready hready (by omega)
  refine ⟨h'.since book.symbol, ?_, ⟨first, last, hfirst, hlast, ?_⟩, hincrements⟩
  · refine (h'.continuous book.symbol).chained.imp fun _ _ hop => ⟨hop.1, lt_of_lt_of_le hop.2 ?_⟩
    rw [h'.maxGap]
    exact asI64_le _
  · rw [hrequired] at hspan
    exact hspan

/-- Only a depth message with a quote that is valid for trading leads to a `Send`. -/
theorem quoted_of_sends {e : Clocks × Event} {symbol : String} (hstep : Trader.step sqrt t e = some t')
    (hsends : Sends t t' symbol) :
    ∃ quote, Quoted sqrt t e t' symbol (some quote) ∧ quote.validForTrading = true := by
  refine quoted_of_quotesFor hstep fun event hevent => ?_
  obtain ⟨old, new, q, hold, hnew, hq, hsymbol, hsend⟩ := hsends
  obtain ⟨new', hqueues, hquotes⟩ := App.handle_queue t.app e.1 event
  rw [App.Queues, ← hevent, hnew, hold, Option.map_some, Option.some.injEq, List.append_cancel_left_eq]
    at hqueues
  rw [← hsymbol]
  exact hquotes q (hqueues ▸ hq) hsend

/-- Nor does anything else clear `MarketData`. -/
theorem quoted_of_clears {e : Clocks × Event} {symbol : String} (hstep : Trader.step sqrt t e = some t')
    (hclears : Clears t t' symbol) :
    ∃ quote, Quoted sqrt t e t' symbol (some quote) ∧ quote.validForTrading = true := by
  refine quoted_of_quotesFor hstep fun event hevent => by_contra fun hnot => ?_
  have hkept : (t'.app.managers symbol).hasPauseReason .marketData = true := by
    rw [hevent]
    exact App.handle_marketData hnot hclears.1
  rw [hclears.2] at hkept
  cases hkept

/-- An event that resets the strategy of a symbol leaves `MarketData` set. -/
theorem fences_marketData {e : Clocks × Event} {symbol : String} (hstep : Trader.step sqrt t e = some t')
    (hfences : t.fences e.1 e.2 symbol = true) (hmanager : t.app.hasManager symbol = true) :
    (t'.app.managers symbol).hasPauseReason .marketData = true := by
  rcases step_cases hstep with ⟨event, he, hnot, rfl⟩ | ⟨book, symbolInfo, binance, reaches, he, rfl⟩ |
    ⟨book, symbolInfo, binance, reaches, strategy, quote, he, hfeed, rfl⟩
  · rw [he] at hfences
    cases event with
    | market event =>
      cases event with
      | disconnected =>
        show ((t.app.onMarketEvent .disconnected e.1).managers symbol).hasPauseReason .marketData = true
        exact App.onDisconnected_marketData symbol
      | depthBook | connected | other =>
        have hexpired : t.app.depthExpired e.1 symbol = true := hfences
        have hkept := App.onMarketEvent_marketData (hnot symbol) (App.checkDepthStale_marketData hexpired)
        exact hkept
    | checkDepthStale =>
      show ((t.app.checkDepthStale e.1).managers symbol).hasPauseReason .marketData = true
      exact App.checkDepthStale_marketData hfences
    | tickSizeChanged signal =>
      show ((t.app.onTickSizeChanged signal).managers symbol).hasPauseReason .marketData = true
      rw [← eq_of_beq hfences] at hmanager ⊢
      exact App.onTickSizeChanged_marketData hmanager
    | _ => cases hfences
  · have hexpired : t.app.depthExpired e.1 symbol = true := by rwa [he] at hfences
    refine App.onMarketEvent_marketData ?_ (App.checkDepthStale_marketData hexpired)
    rintro ⟨_, _, _, hevent, _⟩
    cases hevent
  · have hexpired : t.app.depthExpired e.1 symbol = true := by rwa [he] at hfences
    refine App.onMarketEvent_marketData ?_ (App.checkDepthStale_marketData hexpired)
    rintro ⟨_, _, _, hevent, hsymbol, _⟩
    cases hevent
    -- The strategy has just been reset: it makes no quote.
    have hreset : (t.resetWhere (t.fences e.1 e.2)).strategies book.symbol =
        (t.strategies book.symbol).resetState := by
      rw [show book.symbol = symbol from hsymbol]
      exact if_pos hfences
    rw [feedStrategy, positioned, hreset] at hfeed
    cases ObiStrategy.update_resetState_quote hfeed

/-- **Trading waits for the warm-up.**  In every run of the main loop, a step that queues a `Send`
    for a symbol or clears its `MarketData` pause takes a depth message for it, with a quote of a
    strategy that is warmed up; and a step that resets a strategy leaves `MarketData` set. -/
theorem warm_up_before_trading (sqrt : ℚ → ℚ) (config : AppConfig) (strategy : StrategyConfig)
    (historyMinutes : Nat) (managerConfig : String → OrderManagerConfig) (equity : SharedEquity)
    (startMs : Int) (hpos : 0 < historyMinutes) (hexact : historyMinutes * 60 * 1000000000 < size)
    (pre : List (Clocks × Event)) (t t' : Trader) (e : Clocks × Event)
    (hexec : Runs.exec (step sqrt) (new config strategy historyMinutes managerConfig equity startMs) pre = some t)
    (hstep : step sqrt t e = some t') (symbol : String) :
    (Sends t t' symbol ∨ Clears t t' symbol →
      (∃ quote, Quoted sqrt t e t' symbol (some quote) ∧ quote.validForTrading = true) ∧
        WarmedUp historyMinutes config.depthStaleTimeoutSecs t' symbol) ∧
      (t.fences e.1 e.2 symbol = true → t.app.hasManager symbol = true →
        (t'.app.managers symbol).hasPauseReason .marketData = true) := by
  have hinv : Inv sqrt config historyMinutes t :=
    Runs.exec_invariant (Inv sqrt config historyMinutes) (fun _ _ _ h hs => h.step hs) (inv_new ..) hexec
  refine ⟨fun htrades => ?_, fences_marketData hstep⟩
  obtain ⟨quote, hquoted, hvalid⟩ := htrades.elim (quoted_of_sends hstep) (quoted_of_clears hstep)
  exact ⟨⟨quote, hquoted, hvalid⟩, hinv.warmedUp hstep hpos hexact hquoted hvalid⟩

/-! ### A flat market -/

/-- Four samples a second. -/
def fourASecond : StrategyConfig := { StrategyConfig.default with stepNs := 250000000 }

/-- `f64::sqrt` where a flat market at four samples a second needs it. -/
def sqrtFlat (x : ℚ) : ℚ := if x = 4 then 2 else x

def started (historyMinutes : Nat) : Trader :=
  new .default fourASecond historyMinutes (fun symbol => { OrderManagerConfig.default with symbol := symbol })
    (.new 1 10 1) 0

/-- A depth message every four seconds. -/
def flatMessage (n : Nat) : Clocks × Event :=
  (App.atSecond (4 * n + 1), .depthBook {
    symbol := "BTC-USD"
    timestampNs := 0
    receivedAtNs := (4 * n + 1) * 1000000000
    sequence := n + 1
    bids := [⟨some (9999 / 100), some 1⟩]
    asks := [⟨some (10001 / 100), some 1⟩] } none none fun _ => true)

/-- Position, equity and order socket are there, and then the depth messages come. -/
def flatMarket (n : Nat) : List (Clocks × Event) :=
  [(App.atSecond 1, .app (.publishPosition "BTC-USD" 0)), (App.atSecond 1, .app (.publishEquity (some 1000))),
    (App.atSecond 1, .app (.order .authenticated)), (App.atSecond 1, .app .checkRiskData)] ++
    (List.range n).map flatMessage

instance (t t' : Trader) (symbol : String) : Decidable (Clears t t' symbol) := inferInstanceAs (Decidable (_ ∧ _))

/-- With one minute of history configured, the 16th message is the first to trade. -/
theorem warm_up_before_trading_oneMinute :
    ∃ t t', Runs.exec (step sqrtFlat) (started 1) (flatMarket 15) = some t ∧
      step sqrtFlat t (flatMessage 15) = some t' ∧ Clears t t' "BTC-USD" ∧ WarmedUp 1 5 t' "BTC-USD" := by
  have hrun : (Runs.exec (step sqrtFlat) (started 1) (flatMarket 15)).any (fun t =>
      (step sqrtFlat t (flatMessage 15)).any fun t' => decide (Clears t t' "BTC-USD")) = true := by
    decide +kernel
  obtain ⟨t, hexec, hlast⟩ := (Option.any_eq_true _ _).mp hrun
  obtain ⟨t', hstep, hclears⟩ := (Option.any_eq_true _ _).mp hlast
  have hclears := of_decide_eq_true hclears
  have hwarm := (warm_up_before_trading sqrtFlat .default fourASecond 1
    (fun symbol => { OrderManagerConfig.default with symbol := symbol }) (.new 1 10 1) 0 (by decide) (by decide)
    (flatMarket 15) t t' (flatMessage 15) hexec hstep "BTC-USD").1 (Or.inr hclears)
  exact ⟨t, t', hexec, hstep, hclears, hwarm.2⟩

/-- The samples of the symbol's strategy span less than an hour. -/
def spansLess (t : Trader) (symbol : String) : Bool :=
  decide ((((t.strategies symbol).record.samples.getLast?.map (·.time)).getD 0) -
    (((t.strategies symbol).record.samples.head?.map (·.time)).getD 0) < 3600000000000)

/-- **The required history is a product of machine integers.**  With `2 ^ 53` minutes configured it
    wraps to nothing, and the eighth message trades, after less than half a minute. -/
theorem history_wraps :
    ∃ t t', Runs.exec (step sqrtFlat) (started (2 ^ 53)) (flatMarket 7) = some t ∧
      step sqrtFlat t (flatMessage 7) = some t' ∧ Sends t t' "BTC-USD" ∧
      ¬ WarmedUp (2 ^ 53) 5 t' "BTC-USD" := by
  have hrun : (Runs.exec (step sqrtFlat) (started (2 ^ 53)) (flatMarket 7)).any (fun t =>
      (step sqrtFlat t (flatMessage 7)).any fun t' => decide (t.app.orderTx = some []) && spansLess t' "BTC-USD" &&
        t'.app.orderTx.any fun queue => queue.any fun q => q.symbol == "BTC-USD" && q.decision.isSend) = true := by
    decide +kernel
  obtain ⟨t, hexec, hlast⟩ := (Option.any_eq_true _ _).mp hrun
  obtain ⟨t', hstep, hcheck⟩ := (Option.any_eq_true _ _).mp hlast
  simp only [Bool.and_eq_true, decide_eq_true_eq] at hcheck
  obtain ⟨⟨hempty, hless⟩, hqueued⟩ := hcheck
  obtain ⟨queue, hqueue, hany⟩ := (Option.any_eq_true _ _).mp hqueued
  obtain ⟨q, hq, hsend⟩ := List.any_eq_true.mp hany
  simp only [Bool.and_eq_true, beq_iff_eq] at hsend
  refine ⟨t, t', hexec, hstep, ⟨[], queue, q, hempty, hqueue, hq, hsend.1, hsend.2⟩, fun hwarm => ?_⟩
  obtain ⟨first, last, hfirst, hlast, hspan⟩ := hwarm.spans
  rw [spansLess, hfirst, hlast] at hless
  simp only [Option.map_some, Option.getD_some, decide_eq_true_eq] at hless
  omega

end Trader

end MarketMaker
