import MarketMaker.App.State
import MarketMaker.Base.Run
import MarketMaker.Trading.Pauses

/-!
# The main loop as calls on the managers

Every arm of the main loop is, for each manager, a list of `Operation`s.  `Allowed` says which
operations an event can lead to; the ones that open a gate or end a pause are tied to the one
event that makes them.

* `Calls` — a list of allowed operations, with its rules (`trans`, `preserves`, `rel`).
* `Moves` — the managers make calls, the configuration and the shared readings stay, and a
  reconciliation may begin.
* `handle_moves` — every arm of the main loop is such a move, except for the end of a
  reconciliation and the two publications (`handle_calls` covers the managers in all arms).
-/

set_option autoImplicit false

namespace MarketMaker

open Word64

namespace OrderManager

/-! ## Calls -/

/-- `m'` is what a list of operations, each satisfying `Ok`, makes of `m`. -/
inductive Calls (Ok : Operation → Prop) : OrderManager → OrderManager → Prop where
  | done (m : OrderManager) : Calls Ok m m
  | call {m m' : OrderManager} (op : Operation) : Ok op → Calls Ok (m.apply op).1 m' → Calls Ok m m'

namespace Calls

variable {Ok : Operation → Prop} {m m' m'' : OrderManager}

theorem one (op : Operation) (h : Ok op) : Calls Ok m (m.apply op).1 := .call op h (.done _)

theorem trans (h : Calls Ok m m') (h' : Calls Ok m' m'') : Calls Ok m m'' := by
  induction h with
  | done => exact h'
  | call op hop _ ih => exact .call op hop (ih h')

/-- What every allowed operation preserves, the calls preserve. -/
theorem preserves (P : OrderManager → Prop) (hP : ∀ m op, Ok op → P m → P (m.apply op).1)
    (h : Calls Ok m m') (hm : P m) : P m' := by
  induction h with
  | done => exact hm
  | call op hop _ ih => exact ih (hP _ op hop hm)

/-- A reflexive and transitive relation across every allowed operation holds across the calls. -/
theorem rel (R : OrderManager → OrderManager → Prop) (hrefl : ∀ m, R m m)
    (htrans : ∀ m m' m'', R m m' → R m' m'' → R m m'') (hR : ∀ m op, Ok op → R m (m.apply op).1)
    (h : Calls Ok m m') : R m m' := by
  induction h with
  | done => exact hrefl _
  | call op hop _ ih => exact htrans _ _ _ (hR _ op hop) ih

theorem mono {Ok' : Operation → Prop} (hOk : ∀ op, Ok op → Ok' op) (h : Calls Ok m m') : Calls Ok' m m' := by
  induction h with
  | done => exact .done _
  | call op hop _ ih => exact .call op (hOk op hop) ih

end Calls

end OrderManager

namespace App

open OrderManager (Operation Calls)

/-! ## Allowed operations -/

/-- The operations an event can lead to. -/
def Allowed (now : Clocks) (e : Event) : Operation → Prop
  | .quote _ _ _ quotedNs => quotedNs = now.unixNs
  | .rejected clOrdId nowMs => (∃ reason, e = .order (.orderRejected clOrdId reason)) ∧ nowMs = now.unixMs
  | .clearPauseReason .orderWebSocket => e = .order .authenticated
  | .clearPauseReason .marketData => ∃ event, e = .market event
  | .clearPauseReason .riskData | .positionRefreshComplete _ | .initializePositionBaseline _ =>
    e = .checkRiskData
  | .finishReconciliation => ∃ result, e = .reconciliationResult result
  | .setPauseReason r => r ≠ .circuitBreaker
  | .clearPauseReason _ | .checkPendingTimeouts _ | .shutdown | .resetCircuitBreaker => False
  | _ => True

/-- A reconciliation begins: from not pending to pending, with the next generation. -/
structure Begins (app app' : App) : Prop where
  enabled : app.config.orderEnabled = true
  idle : app.reconciliationPending = false
  pending : app'.reconciliationPending = true
  generation : app'.reconciliationGeneration = wrappingAdd app.reconciliationGeneration 1
  request : ∃ reason, app'.reconciliationTx =
    app.reconciliationTx.map (· ++ [⟨wrappingAdd app.reconciliationGeneration 1, reason⟩])

/-- Nothing of the account reconciliation changes. -/
structure Idles (app app' : App) : Prop where
  pending : app'.reconciliationPending = app.reconciliationPending
  generation : app'.reconciliationGeneration = app.reconciliationGeneration
  request : app'.reconciliationTx = app.reconciliationTx

/-- What an arm of the main loop does to everything but the depth states and the order queue. -/
structure Moves (Ok : Operation → Prop) (app app' : App) : Prop where
  config : app'.config = app.config
  positions : app'.positions = app.positions
  sharedEquity : app'.sharedEquity = app.sharedEquity
  reconciledAtNs : app'.reconciledAtNs = app.reconciledAtNs
  managers : ∀ symbol, Calls Ok (app.managers symbol) (app'.managers symbol)
  reconciliation : Idles app app' ∨ Begins app app'

namespace Moves

variable {Ok : Operation → Prop} {app app' app'' : App}

theorem refl (app : App) : Moves Ok app app :=
  ⟨rfl, rfl, rfl, rfl, fun _ => .done _, Or.inl ⟨rfl, rfl, rfl⟩⟩

/-- Two moves in a row: at most one of them begins a reconciliation. -/
theorem trans (h : Moves Ok app app') (h' : Moves Ok app' app'') : Moves Ok app app'' := by
  refine ⟨h'.config.trans h.config, h'.positions.trans h.positions,
    h'.sharedEquity.trans h.sharedEquity, h'.reconciledAtNs.trans h.reconciledAtNs,
    fun symbol => (h.managers symbol).trans (h'.managers symbol), ?_⟩
  rcases h.reconciliation with hidle | hbegin
  · rcases h'.reconciliation with hidle' | hbegin'
    · exact Or.inl ⟨hidle'.pending.trans hidle.pending, hidle'.generation.trans hidle.generation,
        hidle'.request.trans hidle.request⟩
    · refine Or.inr ⟨h.config ▸ hbegin'.enabled, hidle.pending ▸ hbegin'.idle, hbegin'.pending, ?_, ?_⟩
      · rw [hbegin'.generation, hidle.generation]
      · obtain ⟨reason, hreason⟩ := hbegin'.request
        exact ⟨reason, by rw [hreason, hidle.generation, hidle.request]⟩
  · rcases h'.reconciliation with hidle' | hbegin'
    · refine Or.inr ⟨hbegin.enabled, hbegin.idle, hidle'.pending.trans hbegin.pending,
        hidle'.generation.trans hbegin.generation, ?_⟩
      obtain ⟨reason, hreason⟩ := hbegin.request
      exact ⟨reason, hidle'.request.trans hreason⟩
    · exact absurd (hbegin.pending.symm.trans hbegin'.idle) (by decide)

/-- A move that touches the managers only. -/
theorem withManagers {f : String → OrderManager}
    (h : ∀ symbol, Calls Ok (app.managers symbol) (f symbol)) :
    Moves Ok app { app with managers := f } :=
  ⟨rfl, rfl, rfl, rfl, h, Or.inl ⟨rfl, rfl, rfl⟩⟩

/-- A move that touches one manager only. -/
theorem withManager {symbol : String} {m : OrderManager} (h : Calls Ok (app.managers symbol) m) :
    Moves Ok app { app with managers := Function.update app.managers symbol m } := by
  refine withManagers fun s => ?_
  by_cases hs : s = symbol
  · subst hs
    rw [Function.update_self]
    exact h
  · rw [Function.update_of_ne hs]
    exact .done _

/-- A move of the managers together with the order queue. -/
theorem withManagerAndQueue {symbol : String} {m : OrderManager} (queue : Option (List QueuedDecision))
    (h : Calls Ok (app.managers symbol) m) :
    Moves Ok app { app with managers := Function.update app.managers symbol m, orderTx := queue } :=
  have hm := withManager h
  ⟨rfl, rfl, rfl, rfl, hm.managers, Or.inl ⟨rfl, rfl, rfl⟩⟩

end Moves

variable {Ok : Operation → Prop} {t : Clocks} {e : Event}

theorem mapManagers_moves (app : App) {f : OrderManager → OrderManager}
    (h : ∀ m, Calls Ok m (f m)) : Moves Ok app (app.mapManagers f) :=
  .withManagers fun _ => h _

theorem enterReconciliation_calls (m : OrderManager) (position : SharedPosition) :
    Calls (Allowed t e) m (enterReconciliation m position) := by
  have begins : ∀ m : OrderManager, Calls (Allowed t e) m m.beginReconciliation := fun m =>
    .one (.setPauseReason .reconciliation) (by simp [Allowed])
  unfold enterReconciliation
  split
  · exact begins m
  · exact .trans (.one (.requirePositionRefresh position) trivial) (begins _)

theorem beginAccountReconciliation_moves (app : App) (reason : String) :
    Moves (Allowed t e) app (app.beginAccountReconciliation reason) := by
  unfold beginAccountReconciliation
  split
  · exact .refl app
  · rename_i hidle
    simp only [Bool.or_eq_true, Bool.not_eq_true', not_or, Bool.not_eq_true, Bool.not_eq_false] at hidle
    exact ⟨rfl, rfl, rfl, rfl, fun _ => enterReconciliation_calls .., Or.inr
      ⟨hidle.2, hidle.1, rfl, rfl, reason, rfl⟩⟩

theorem beginAccountReconciliation_pending {app : App} (hon : app.config.orderEnabled = true)
    (reason : String) : (app.beginAccountReconciliation reason).reconciliationPending = true := by
  unfold beginAccountReconciliation
  split
  · rename_i hskip
    simpa [hon] using hskip
  · rfl

theorem requireAllPositionRefreshes_moves (app : App) :
    Moves (Allowed t e) app app.requireAllPositionRefreshes :=
  .withManagers fun _ => .one (.requirePositionRefresh _) trivial

theorem updateFirst_moves {f : String → OrderManager → Bool × OrderManager}
    (hf : ∀ symbol m, Calls Ok m (f symbol m).2) (symbols : List String) (app : App) :
    Moves Ok app (updateFirst f symbols app).2 := by
  induction symbols generalizing app with
  | nil => exact .refl app
  | cons symbol symbols ih =>
    unfold updateFirst
    dsimp only
    have hfirst : Moves Ok app
        { app with managers := Function.update app.managers symbol (f symbol (app.managers symbol)).2 } :=
      .withManager (hf symbol (app.managers symbol))
    split
    · exact hfirst
    · exact hfirst.trans (ih _)

/-! ## Dispatch -/

theorem dispatch_calls (symbol : String) {onFailure : OrderManager → OrderDecision → OrderManager}
    (hf : ∀ m d, Calls Ok m (onFailure m d)) (ds : List OrderDecision)
    (reaches : Nat → Bool) (m : OrderManager) :
    Calls Ok m (dispatch symbol onFailure reaches m ds).1 := by
  induction ds generalizing reaches m with
  | nil => exact .done m
  | cons d ds ih =>
    unfold dispatch
    split
    · exact ih _ m
    · exact (hf m d).trans (ih _ _)

theorem onDispatchFailed_calls (m : OrderManager) (d : OrderDecision) :
    Calls (Allowed t e) m (m.onDispatchFailed d) := .one (.dispatchFailed d) trivial

theorem triggerSafetyPause_calls (m : OrderManager) (nowMs : Nat) :
    Calls (Allowed t e) m (m.triggerSafetyPause nowMs) := .one (.triggerSafetyPause nowMs) trivial

/-- What `dispatchAll` itself calls. -/
def Rollback (nowMs : Nat) : Operation → Prop
  | .dispatchFailed _ => True
  | .triggerSafetyPause ms => ms = nowMs
  | _ => False

theorem dispatchAll_moves (app : App) (symbol : String) {m : OrderManager} (ds : List OrderDecision)
    (reaches : Nat → Bool) {onFailure : OrderManager → OrderDecision → OrderManager} (u : Clocks)
    (hok : ∀ op, Rollback u.unixMs op → Ok op) (hf : ∀ m d, Calls Ok m (onFailure m d))
    (hm : Calls Ok (app.managers symbol) m) :
    Moves Ok app (app.dispatchAll symbol m ds reaches onFailure u).2 := by
  have rollback : ∀ (ds : List OrderDecision) (m : OrderManager),
      Calls Ok m (ds.foldl OrderManager.onDispatchFailed m) := by
    intro ds
    induction ds with
    | nil => exact fun m => .done m
    | cons d ds ih => exact fun m => .call (.dispatchFailed d) (hok _ trivial) (ih _)
  unfold dispatchAll
  split
  · exact .withManagerAndQueue _ (hm.trans (dispatch_calls symbol hf ds reaches m))
  · split
    · exact .withManager hm
    · exact .withManager ((hm.trans (rollback ds m)).trans (.one (.triggerSafetyPause _) (hok _ rfl)))

theorem dispatchAll_pending (app : App) (symbol : String) (m : OrderManager) (ds : List OrderDecision)
    (reaches : Nat → Bool) (onFailure : OrderManager → OrderDecision → OrderManager) (now : Clocks) :
    (app.dispatchAll symbol m ds reaches onFailure now).2.reconciliationPending
      = app.reconciliationPending := by
  unfold dispatchAll
  split
  · rfl
  · split <;> rfl

theorem dispatchAll_managers_of_ne (app : App) {symbol s : String} (hs : s ≠ symbol) (m : OrderManager)
    (ds : List OrderDecision) (reaches : Nat → Bool)
    (onFailure : OrderManager → OrderDecision → OrderManager) (now : Clocks) :
    (app.dispatchAll symbol m ds reaches onFailure now).2.managers s = app.managers s := by
  unfold dispatchAll
  split
  · exact Function.update_of_ne hs ..
  · split <;> exact Function.update_of_ne hs ..

theorem Rollback.allowed {nowMs : Nat} (op : Operation) (h : Rollback nowMs op) : Allowed t e op := by
  cases op with
  | dispatchFailed | triggerSafetyPause => trivial
  | _ => exact h.elim

/-! ## The arms -/

theorem processQuote_moves (app : App) (symbol : String) (quote : Quote) (reaches : Nat → Bool)
    (he : ∃ event, e = .market event) :
    Moves (Allowed t e) app (app.processQuote symbol quote reaches t) := by
  unfold processQuote
  split
  · have hquote : Calls (Allowed t e) (app.managers symbol)
        (((app.managers symbol).clearPauseReason .marketData).onQuoteInto (app.positions symbol).position
          app.sharedEquity.maxPositionDollar quote t.unixNs).1 :=
      .trans (.one (.clearPauseReason .marketData) he) (.one (.quote _ _ _ _) rfl)
    have hdispatch := dispatchAll_moves app symbol
      (((app.managers symbol).clearPauseReason .marketData).onQuoteInto (app.positions symbol).position
        app.sharedEquity.maxPositionDollar quote t.unixNs).2 reaches t Rollback.allowed onDispatchFailed_calls
      hquote
    dsimp only
    split
    · exact (hdispatch.trans (mapManagers_moves _ fun _ => triggerSafetyPause_calls _ _)).trans
        (beginAccountReconciliation_moves _ _)
    · exact hdispatch
  · exact .refl app

theorem processDepthBook_moves (app : App) (book : DepthSnapshot) (quote : Option Quote)
    (reaches : Nat → Bool) (he : ∃ event, e = .market event) :
    Moves (Allowed t e) app (app.processDepthBook book quote reaches t) := by
  unfold processDepthBook
  split
  · split
    · exact .refl app
    · rename_i depth _
      have hdepth : Moves (Allowed t e) app
          { app with depth := Function.update app.depth book.symbol depth } :=
        ⟨rfl, rfl, rfl, rfl, fun _ => .done _, Or.inl ⟨rfl, rfl, rfl⟩⟩
      cases quote with
      | none => exact hdepth
      | some quote => exact hdepth.trans (processQuote_moves _ _ _ _ he)
  · exact .refl app

theorem setPauseReason_calls (m : OrderManager) {r : PauseReason} (hr : r ≠ .circuitBreaker) :
    Calls (Allowed t e) m (m.setPauseReason r) := .one (.setPauseReason r) hr

theorem processEvent_moves (app : App) (event : WsEvent) (he : ∃ event, e = .market event) :
    Moves (Allowed t e) app (app.processEvent event t).2 := by
  cases event with
  | connected => exact ⟨rfl, rfl, rfl, rfl, fun _ => .done _, Or.inl ⟨rfl, rfl, rfl⟩⟩
  | disconnected =>
    refine ⟨rfl, rfl, rfl, rfl, fun symbol => ?_, Or.inl ⟨rfl, rfl, rfl⟩⟩
    exact (setPauseReason_calls _ (by decide)).trans (setPauseReason_calls _ (by decide))
  | depthBook book quote reaches => exact processDepthBook_moves app book quote reaches he
  | other => exact .refl app

theorem markDepthStale_moves (app : App) (h : Ok (.setPauseReason .marketData)) :
    Moves Ok app (app.markDepthStale t) := by
  refine ⟨rfl, rfl, rfl, rfl, fun symbol => ?_, Or.inl ⟨rfl, rfl, rfl⟩⟩
  unfold markDepthStale
  dsimp only
  split
  · exact .one (.setPauseReason .marketData) h
  · exact .done _

theorem checkDepthStale_moves (app : App) : Moves (Allowed t e) app (app.checkDepthStale t) := by
  have hmarked : Moves (Allowed t e) app (app.markDepthStale t) :=
    markDepthStale_moves app (by simp [Allowed])
  rw [checkDepthStale_eq]
  split
  · exact hmarked.trans (beginAccountReconciliation_moves _ _)
  · exact hmarked

theorem onMarketEvent_moves (app : App) (event : WsEvent) (he : ∃ event, e = .market event) :
    Moves (Allowed t e) app (app.onMarketEvent event t) := by
  have hevent := (checkDepthStale_moves app (t := t)).trans (processEvent_moves _ event he)
  unfold onMarketEvent
  dsimp only
  split
  · exact hevent.trans (beginAccountReconciliation_moves _ _)
  · exact hevent

theorem onAccepted_moves (app : App) (clOrdId : String) (orderId : Int) :
    Moves (Allowed t e) app (app.onAccepted clOrdId orderId) := by
  unfold onAccepted
  split
  · rename_i symbol _
    split
    · have haccepted : Moves (Allowed t e) app { app with
          managers := Function.update app.managers symbol
            ((app.managers symbol).onOrderAccepted clOrdId orderId).2 } :=
        .withManager (.one (.accepted clOrdId orderId) trivial)
      dsimp only
      split
      · exact haccepted
      · exact haccepted.trans (beginAccountReconciliation_moves _ _)
    · exact beginAccountReconciliation_moves _ _
  · exact beginAccountReconciliation_moves _ _

theorem onRejected_moves (app : App) (clOrdId : String)
    (he : ∃ reason, e = .order (.orderRejected clOrdId reason)) :
    Moves (Allowed t e) app (app.onRejected clOrdId t) := by
  unfold onRejected
  split
  · split
    · exact .withManager (.one (.rejected clOrdId t.unixMs) ⟨he, rfl⟩)
    · exact .refl app
  · exact .refl app

theorem matchFill_moves (app : App) (orderId : Int) (clOrdId : Option String) (fullyFilled : Bool) :
    Moves (Allowed t e) app (app.matchFill orderId clOrdId fullyFilled).2 := by
  have hfill : ∀ symbol m,
      Calls (Allowed t e) m (app.fillManager orderId clOrdId fullyFilled symbol m).2 :=
    fun symbol m => .one (.filled _ _ _ _) trivial
  have hnamed : Moves (Allowed t e) app (app.fillNamed orderId clOrdId fullyFilled).2 := by
    unfold fillNamed
    split
    · split
      · exact updateFirst_moves hfill _ _
      · exact .refl app
    · exact .refl app
  unfold matchFill
  dsimp only
  split
  · exact hnamed
  · exact hnamed.trans (updateFirst_moves hfill _ _)

theorem onFilled_moves (app : App) (orderId : Int) (clOrdId status : Option String) (fillQty : String) :
    Moves (Allowed t e) app (app.onFilled orderId clOrdId status fillQty) := by
  have hall : ∀ (app : App) reason, Moves (Allowed t e) app
      (app.requireAllPositionRefreshes.beginAccountReconciliation reason) := fun app reason =>
    (requireAllPositionRefreshes_moves app).trans (beginAccountReconciliation_moves _ _)
  unfold onFilled
  split
  · exact hall app _
  · split
    · exact hall app _
    · have hmatch := matchFill_moves (t := t) (e := e) app orderId clOrdId (fillStatus status == .full)
      dsimp only
      split
      · exact hmatch.trans (hall _ _)
      · split
        · exact hmatch.trans (beginAccountReconciliation_moves _ _)
        · exact hmatch

theorem onCanceled_moves (app : App) (orderId : Int) (clOrdId : Option String)
    (hnamed : ∀ clOrdId, Ok (.canceledByClOrdId clOrdId)) (hcanceled : Ok (.canceled orderId)) :
    Moves Ok app (app.onCanceled orderId clOrdId) := by
  have hfirst : Moves Ok app (app.cancelNamed clOrdId).2 := by
    unfold cancelNamed
    split
    · split
      · split
        · exact updateFirst_moves (fun _ _ => .one (.canceledByClOrdId _) (hnamed _)) _ _
        · exact .refl app
      · exact .refl app
    · exact .refl app
  unfold onCanceled
  dsimp only
  split
  · exact hfirst
  · exact hfirst.trans (updateFirst_moves (fun _ _ => .one (.canceled orderId) hcanceled) _ _)

theorem onCancelFailed_moves (app : App) (orderId : Int) :
    Moves (Allowed t e) app (app.onCancelFailed orderId) := by
  have hfailed : Moves (Allowed t e) app (app.mapManagers (·.onCancelFailed orderId)) :=
    mapManagers_moves app fun _ => .one (.cancelFailed orderId) trivial
  unfold onCancelFailed
  dsimp only
  split
  · exact hfailed.trans (beginAccountReconciliation_moves _ _)
  · exact hfailed

theorem onOrderEvent_moves (app : App) (event : OrderEvent) (he : e = .order event) :
    Moves (Allowed t e) app (app.onOrderEvent event t) := by
  cases event with
  | authenticated =>
    exact mapManagers_moves app fun m => .one (.clearPauseReason .orderWebSocket) he
  | orderAccepted clOrdId orderId =>
    simp only [onOrderEvent]
    split
    · exact .refl app
    · exact onAccepted_moves app clOrdId orderId
  | orderRejected clOrdId reason =>
    simp only [onOrderEvent]
    split
    · exact .refl app
    · exact onRejected_moves app clOrdId ⟨reason, he⟩
  | orderFilled orderId clOrdId status fillQty fillPrice =>
    exact onFilled_moves app orderId clOrdId status fillQty
  | orderCanceled orderId clOrdId => exact onCanceled_moves app orderId clOrdId (fun _ => trivial) trivial
  | cancelSubmissionAcknowledged => exact beginAccountReconciliation_moves _ _
  | cancelFailed orderId reason => exact onCancelFailed_moves app orderId
  | disconnected reason =>
    exact (mapManagers_moves app fun m => setPauseReason_calls m (by decide)).trans
      (beginAccountReconciliation_moves _ _)
  | ambiguousResponse requestId code reason => exact beginAccountReconciliation_moves _ _
  | connected | orderSubmissionAcknowledged | reconnecting | maxRetriesExceeded | error =>
    exact .refl app

theorem onExecutorFault_moves (app : App) (fault : String) :
    Moves (Allowed t e) app (app.onExecutorFault fault t) :=
  (mapManagers_moves app fun _ => triggerSafetyPause_calls _ _).trans
    (beginAccountReconciliation_moves _ _)

/-- The operations of the loop over the observed orders. -/
def Confirming : Operation → Prop
  | .accepted .. | .requirePositionRefresh _ => True
  | _ => False

theorem Confirming.allowed {op : Operation} (h : Confirming op) : Allowed t e op := by
  cases op with
  | accepted | requirePositionRefresh => trivial
  | _ => cases h

theorem confirmOrders_calls (symbol : String) (position : SharedPosition) (os : List ObservedOpenOrder)
    (m : OrderManager) (confirmed : Nat) :
    Calls Confirming m (confirmOrders symbol position m confirmed os).1 := by
  induction os generalizing m confirmed with
  | nil => exact .done m
  | cons o os ih =>
    unfold confirmOrders
    split
    · exact .done m
    · rename_i clOrdId _
      split
      · exact ih m confirmed
      · split
        · exact .one (.requirePositionRefresh position) trivial
        · have haccepted : Calls Confirming m (m.onOrderAccepted clOrdId o.orderId).2 :=
            .one (.accepted clOrdId o.orderId) trivial
          dsimp only
          split
          · exact haccepted.trans (ih _ _)
          · exact haccepted

theorem applySnapshot_calls (m : OrderManager) (position : SharedPosition)
    (snapshot : OpenOrdersSnapshot) :
    Calls (Allowed t e) m (applySnapshot m position snapshot).1 := by
  unfold applySnapshot
  split
  · exact .done m
  · split
    · exact .one (.requirePositionRefresh position) trivial
    · split
      · exact .one (.requirePositionRefresh position) trivial
      · exact (confirmOrders_calls ..).mono fun _ h => h.allowed

theorem applyOpenOrdersSnapshot_moves (app : App) (snapshot : OpenOrdersSnapshot) :
    Moves (Allowed t e) app (app.applyOpenOrdersSnapshot snapshot).1 := by
  unfold applyOpenOrdersSnapshot
  split
  · exact .refl app
  · split
    · exact .withManager (applySnapshot_calls ..)
    · exact .refl app

theorem onOpenOrdersSnapshot_moves (app : App) (snapshot : OpenOrdersSnapshot) :
    Moves (Allowed t e) app (app.onOpenOrdersSnapshot snapshot) := by
  have happlied := applyOpenOrdersSnapshot_moves (t := t) (e := e) app snapshot
  unfold onOpenOrdersSnapshot
  generalize app.applyOpenOrdersSnapshot snapshot = r at happlied ⊢
  obtain ⟨app', outcome⟩ := r
  cases outcome with
  | ok confirmed => exact happlied
  | error fault => exact happlied.trans (beginAccountReconciliation_moves _ _)

theorem onClearOrdersSignal_moves (app : App) (signal : ClearOrdersSignal) :
    Moves (Allowed t e) app (app.onClearOrdersSignal signal t) := by
  unfold onClearOrdersSignal
  dsimp only
  split
  · exact .refl app
  · split
    · exact (Moves.withManager (triggerSafetyPause_calls _ _)).trans (beginAccountReconciliation_moves _ _)
    · exact beginAccountReconciliation_moves _ _

theorem timeoutLoop_moves (reaches : String → Nat → Bool) (u : Clocks)
    (hok : ∀ op, Rollback u.unixMs op → Ok op) (hcheck : Ok (.checkTimeouts u.unixNs))
    (symbols : List String) (app : App) :
    Moves Ok app (timeoutLoop reaches u symbols app).2.2 := by
  induction symbols generalizing app with
  | nil => exact .refl app
  | cons symbol symbols ih =>
    have hfailed : ∀ m d, Calls Ok m (onTimeoutDispatchFailed u m d) := fun m d =>
      .call (.dispatchFailed d) (hok _ trivial) (.one (.triggerSafetyPause u.unixMs) (hok _ rfl))
    exact (dispatchAll_moves app symbol ((app.managers symbol).checkTimeouts u.unixNs).2 (reaches symbol)
      u hok hfailed (.one (.checkTimeouts u.unixNs) hcheck)).trans (ih _)

theorem checkOrderTimeouts_moves (app : App) (reaches : String → Nat → Bool) :
    Moves (Allowed t e) app (app.checkOrderTimeouts reaches t) := by
  unfold checkOrderTimeouts
  split
  · exact .refl app
  · have hloop : Moves (Allowed t e) app (timeoutLoop reaches t app.config.symbols app).2.2 :=
      timeoutLoop_moves reaches t Rollback.allowed trivial app.config.symbols app
    dsimp only
    split
    · exact hloop.trans (beginAccountReconciliation_moves _ _)
    · split
      · exact hloop.trans (beginAccountReconciliation_moves _ _)
      · exact hloop

theorem checkPauseRecovery_moves (app : App) : Moves (Allowed t e) app (app.checkPauseRecovery t) := by
  unfold checkPauseRecovery
  split
  · exact .refl app
  · have hchecked : Moves (Allowed t e) app (app.mapManagers fun m => (checkRecovery app.config m t).2) :=
      mapManagers_moves app fun m =>
        .trans (.one (.checkCircuitBreakerRecovery _ _) trivial) (.one (.checkSafetyPauseRecovery _ _) trivial)
    dsimp only
    split
    · exact hchecked.trans (beginAccountReconciliation_moves _ _)
    · exact hchecked

theorem onTickSizeChanged_moves (app : App) (signal : TickSizeChangedSignal) :
    Moves (Allowed t e) app (app.onTickSizeChanged signal) := by
  have hbegin := beginAccountReconciliation_moves (t := t) (e := e) app
    ("tick/lot size changed for " ++ signal.symbol)
  unfold onTickSizeChanged
  dsimp only
  split
  · exact hbegin.trans (.withManager (.trans (.one (.setPrecision _ _ _ signal.newLotSize_pos) trivial)
      (setPauseReason_calls _ (by decide))))
  · exact hbegin

theorem refreshRiskPause_calls (m : OrderManager) (position : SharedPosition) (sourcesFresh : Bool)
    (he : e = .checkRiskData) :
    Calls (Allowed t e) m (refreshRiskPause m position sourcesFresh).2 := by
  have hconsumed : Calls (Allowed t e) m (m.positionRefreshAfterFillComplete position).2 :=
    .one (.positionRefreshComplete position) he
  unfold refreshRiskPause
  dsimp only
  split
  · exact (hconsumed.trans (.one (.initializePositionBaseline position) he)).trans
      (.one (.clearPauseReason .riskData) he)
  · split
    · exact (hconsumed.trans (setPauseReason_calls _ (by decide))).trans (setPauseReason_calls _ (by decide))
    · exact hconsumed.trans (setPauseReason_calls _ (by decide))

theorem updateRiskPauses_moves (app : App) (he : e = .checkRiskData) :
    Moves (Allowed t e) app (app.updateRiskPauses t).2 := by
  unfold updateRiskPauses
  split
  · exact .refl app
  · exact .withManagers fun _ => refreshRiskPause_calls _ _ _ he

theorem checkRiskData_moves (app : App) (he : e = .checkRiskData) :
    Moves (Allowed t e) app (app.checkRiskData t) := by
  have hchecked := updateRiskPauses_moves app he (t := t)
  unfold checkRiskData
  dsimp only
  split
  · exact hchecked.trans (beginAccountReconciliation_moves _ _)
  · exact hchecked

/-! ## The main loop -/

/-- The arms that neither end a reconciliation nor publish a reading. -/
def Event.IsMove : Event → Prop
  | .reconciliationResult _ | .publishPosition .. | .publishEquity _ => False
  | _ => True

/-- **Every other arm is a move.** -/
theorem handle_moves (app : App) (t : Clocks) {e : Event} (he : e.IsMove) :
    Moves (Allowed t e) app (app.handle t e) := by
  cases e with
  | market event => exact onMarketEvent_moves app event ⟨event, rfl⟩
  | executorFault fault => exact onExecutorFault_moves app fault
  | order event => exact onOrderEvent_moves app event rfl
  | tickSizeChanged signal => exact onTickSizeChanged_moves app signal
  | checkDepthStale => exact checkDepthStale_moves app
  | checkRiskData => exact checkRiskData_moves app rfl
  | openOrdersSnapshot snapshot => exact onOpenOrdersSnapshot_moves app snapshot
  | clearOrdersSignal signal => exact onClearOrdersSignal_moves app signal
  | checkOrderTimeouts reaches => exact checkOrderTimeouts_moves app reaches
  | tokenRefresh =>
    exact (mapManagers_moves app fun m => setPauseReason_calls m (by decide)).trans
      (beginAccountReconciliation_moves _ _)
  | checkPauseRecovery => exact checkPauseRecovery_moves app
  | reconciliationResult | publishPosition | publishEquity => exact he.elim

/-- **In every arm, a manager only makes allowed calls.** -/
theorem handle_calls (app : App) (t : Clocks) (e : Event) (symbol : String) :
    Calls (Allowed t e) (app.managers symbol) ((app.handle t e).managers symbol) := by
  cases e with
  | reconciliationResult result =>
    simp only [handle, onReconciliationResult]
    split
    · exact .trans (.one (.requirePositionRefresh (app.positions symbol)) trivial)
        (.one .finishReconciliation ⟨result, rfl⟩)
    · exact .done _
  | publishPosition s position => exact .done _
  | publishEquity equity => exact .done _
  | _ => exact (handle_moves app t (by trivial)).managers symbol

/-- The configuration never changes. -/
theorem handle_config (app : App) (t : Clocks) (e : Event) : (app.handle t e).config = app.config := by
  cases e with
  | reconciliationResult result =>
    simp only [handle, onReconciliationResult]
    split <;> rfl
  | publishPosition s position => rfl
  | publishEquity equity => rfl
  | _ => exact (handle_moves app t (by trivial)).config

/-- Only the result arm moves the time of the last reconciliation. -/
theorem handle_reconciledAtNs (app : App) (t : Clocks) {e : Event}
    (he : ∀ result, e ≠ .reconciliationResult result) :
    (app.handle t e).reconciledAtNs = app.reconciledAtNs := by
  cases e with
  | reconciliationResult result => exact absurd rfl (he result)
  | publishPosition s position => rfl
  | publishEquity equity => rfl
  | _ => exact (handle_moves app t (by trivial)).reconciledAtNs

/-- Only the poller moves a shared position. -/
theorem handle_positions (app : App) (t : Clocks) {e : Event}
    (he : ∀ symbol position, e ≠ .publishPosition symbol position) :
    (app.handle t e).positions = app.positions := by
  cases e with
  | reconciliationResult result =>
    simp only [handle, onReconciliationResult]
    split <;> rfl
  | publishPosition s position => exact absurd rfl (he s position)
  | publishEquity equity => rfl
  | _ => exact (handle_moves app t (by trivial)).positions

/-- Outside the result arm a reconciliation can only begin. -/
theorem handle_reconciliation (app : App) (now : Clocks) {e : Event}
    (he : ∀ result, e ≠ .reconciliationResult result) :
    Idles app (app.handle now e) ∨ Begins app (app.handle now e) := by
  cases e with
  | reconciliationResult result => exact absurd rfl (he result)
  | publishPosition s position => exact Or.inl ⟨rfl, rfl, rfl⟩
  | publishEquity equity => exact Or.inl ⟨rfl, rfl, rfl⟩
  | _ => exact (handle_moves app now (by trivial)).reconciliation

/-! ## Runs -/

/-- Every list of events is a run. -/
theorem exec_after (app : App) (es : List (Clocks × Event)) :
    Runs.exec step app es = some (app.after es) := by
  induction es generalizing app with
  | nil => rfl
  | cons e es ih => exact ih (app.handle e.1 e.2)

/-- The configuration is the same along a run. -/
theorem exec_config {app app' : App} {es : List (Clocks × Event)}
    (h : Runs.exec step app es = some app') : app'.config = app.config := by
  refine Runs.exec_rel (fun app app' => app'.config = app.config) (fun _ => rfl)
    (fun _ _ _ h h' => by rw [h', h]) ?_ h
  intro app e app' hstep
  cases hstep
  exact handle_config app e.1 e.2

end App

end MarketMaker
