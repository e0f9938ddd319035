import MarketMaker.App.Calls

/-!
# What the arms put on the order queue

Only the market data arm and the timeout check write to the order channel, and only a quote's
dispatch writes `Send`s.

* `handle_orderTx` — every other arm leaves the queue alone.
* `checkOrderTimeouts_queue` — the timeout check adds cancels.
* `processQuote_queue` — what a quote adds is for its own symbol.
-/

set_option autoImplicit false

namespace MarketMaker

/-- A timed out order is cancelled. -/
theorem OrderManager.checkTimeouts_isSend (m : OrderManager) (now : Int) :
    ∀ d ∈ (m.checkTimeouts now).2, d.isSend = false := by
  have hcancel : ∀ d ∈ slotsBySide.filterMap fun i => (m.orders i).bind fun o =>
      if o.state ≠ .live ∧ Word64.asI64 m.config.pendingTimeoutNs < now - o.sentAtNs
      then some (OrderDecision.cancel o.clOrdId) else none, d.isSend = false := by
    intro d hd
    obtain ⟨i, _, hi⟩ := List.mem_filterMap.mp hd
    obtain ⟨o, _, ho⟩ := Option.bind_eq_some_iff.mp hi
    split at ho
    · cases ho
      rfl
    · cases ho
  unfold checkTimeouts
  dsimp only
  split <;> exact hcancel

namespace App

variable (app : App) (now : Clocks)

/-! ## Arms that leave the queue alone -/

@[simp] theorem beginAccountReconciliation_orderTx (reason : String) :
    (app.beginAccountReconciliation reason).orderTx = app.orderTx := by
  unfold beginAccountReconciliation
  split <;> rfl

@[simp] theorem mapManagers_orderTx (f : OrderManager → OrderManager) :
    (app.mapManagers f).orderTx = app.orderTx := rfl

@[simp] theorem modifyManager_orderTx (symbol : String) (f : OrderManager → OrderManager) :
    (app.modifyManager symbol f).orderTx = app.orderTx := rfl

@[simp] theorem requireAllPositionRefreshes_orderTx :
    app.requireAllPositionRefreshes.orderTx = app.orderTx := rfl

@[simp] theorem updateFirst_orderTx (f : String → OrderManager → Bool × OrderManager)
    (symbols : List String) :
    (updateFirst f symbols app).2.orderTx = app.orderTx := by
  induction symbols generalizing app with
  | nil => rfl
  | cons symbol symbols ih =>
    unfold updateFirst
    dsimp only
    split
    · rfl
    · exact ih _

theorem matchFill_orderTx (orderId : Int) (clOrdId : Option String) (fullyFilled : Bool) :
    (app.matchFill orderId clOrdId fullyFilled).2.orderTx = app.orderTx := by
  have hnamed : (app.fillNamed orderId clOrdId fullyFilled).2.orderTx = app.orderTx := by
    unfold fillNamed
    split
    · split
      · exact updateFirst_orderTx _ _ _
      · rfl
    · rfl
  unfold matchFill
  dsimp only
  split
  · exact hnamed
  · rw [updateFirst_orderTx, hnamed]

theorem onFilled_orderTx (orderId : Int) (clOrdId status : Option String) (fillQty : String) :
    (app.onFilled orderId clOrdId status fillQty).orderTx = app.orderTx := by
  unfold onFilled
  split
  · simp
  · split
    · simp
    · dsimp only
      split
      · simp [matchFill_orderTx]
      · split <;> simp [matchFill_orderTx]

theorem onCanceled_orderTx (orderId : Int) (clOrdId : Option String) :
    (app.onCanceled orderId clOrdId).orderTx = app.orderTx := by
  have hnamed : (app.cancelNamed clOrdId).2.orderTx = app.orderTx := by
    unfold cancelNamed
    split
    · split
      · split
        · exact updateFirst_orderTx _ _ _
        · rfl
      · rfl
    · rfl
  unfold onCanceled
  dsimp only
  split
  · exact hnamed
  · rw [updateFirst_orderTx, hnamed]

theorem onOrderEvent_orderTx (event : OrderEvent) :
    (app.onOrderEvent event now).orderTx = app.orderTx := by
  cases event with
  | orderAccepted clOrdId orderId =>
    simp only [onOrderEvent, onAccepted]
    split
    · rfl
    · split
      · split
        · split <;> simp
        · simp
      · simp
  | orderRejected clOrdId reason =>
    simp only [onOrderEvent, onRejected]
    split
    · rfl
    · split
      · split <;> simp
      · rfl
  | orderFilled orderId clOrdId status fillQty => exact app.onFilled_orderTx ..
  | orderCanceled orderId clOrdId => exact app.onCanceled_orderTx ..
  | cancelFailed orderId =>
    simp only [onOrderEvent, onCancelFailed]
    split <;> simp
  | _ => simp [onOrderEvent]

theorem checkDepthStale_orderTx : (app.checkDepthStale now).orderTx = app.orderTx := by
  unfold checkDepthStale
  dsimp only
  split <;> simp

theorem checkRiskData_orderTx : (app.checkRiskData now).orderTx = app.orderTx := by
  have hchecked : (app.updateRiskPauses now).2.orderTx = app.orderTx := by
    unfold updateRiskPauses
    split <;> rfl
  unfold checkRiskData
  dsimp only
  split
  · rw [beginAccountReconciliation_orderTx, hchecked]
  · exact hchecked

theorem onOpenOrdersSnapshot_orderTx (snapshot : OpenOrdersSnapshot) :
    (app.onOpenOrdersSnapshot snapshot).orderTx = app.orderTx := by
  have happlied : (app.applyOpenOrdersSnapshot snapshot).1.orderTx = app.orderTx := by
    unfold applyOpenOrdersSnapshot
    split
    · rfl
    · split <;> rfl
  unfold onOpenOrdersSnapshot
  rcases hr : app.applyOpenOrdersSnapshot snapshot with ⟨app', fault | confirmed⟩
  · rw [hr] at happlied
    simpa using happlied
  · rw [hr] at happlied
    exact happlied

theorem onClearOrdersSignal_orderTx (signal : ClearOrdersSignal) :
    (app.onClearOrdersSignal signal now).orderTx = app.orderTx := by
  unfold onClearOrdersSignal
  dsimp only
  split
  · rfl
  · rw [beginAccountReconciliation_orderTx]
    split <;> rfl

theorem checkPauseRecovery_orderTx : (app.checkPauseRecovery now).orderTx = app.orderTx := by
  unfold checkPauseRecovery
  split
  · rfl
  · dsimp only
    split <;> simp

/-- The arms that dispatch decisions. -/
def Event.Dispatches : Event → Prop
  | .market _ | .checkOrderTimeouts _ => True
  | _ => False

/-- **Every other arm leaves the queue alone.** -/
theorem handle_orderTx {e : Event} (he : ¬ e.Dispatches) : (app.handle now e).orderTx = app.orderTx := by
  cases e with
  | market event => exact absurd trivial he
  | checkOrderTimeouts reaches => exact absurd trivial he
  | reconciliationResult result =>
    simp only [handle, onReconciliationResult]
    split <;> rfl
  | executorFault fault => simp [handle, onExecutorFault]
  | order event => exact app.onOrderEvent_orderTx now event
  | tickSizeChanged signal =>
    simp only [handle, onTickSizeChanged]
    split <;> simp
  | checkDepthStale => exact app.checkDepthStale_orderTx now
  | checkRiskData => exact app.checkRiskData_orderTx now
  | openOrdersSnapshot snapshot => exact app.onOpenOrdersSnapshot_orderTx snapshot
  | clearOrdersSignal signal => exact app.onClearOrdersSignal_orderTx now signal
  | tokenRefresh => simp [handle, onTokenRefresh]
  | checkPauseRecovery => exact app.checkPauseRecovery_orderTx now
  | publishPosition symbol position => rfl
  | publishEquity equity => rfl

/-! ## Arms that dispatch -/

/-- What `app'` has on the order queue beyond `app`. -/
def Queues (app app' : App) (new : List QueuedDecision) : Prop :=
  app'.orderTx = app.orderTx.map (· ++ new)

variable {app now}

theorem Queues.none {app' : App} (h : app'.orderTx = app.orderTx) : Queues app app' [] := by
  rw [Queues, h]
  cases app.orderTx <;> simp

theorem Queues.trans {app' app'' : App} {new new' : List QueuedDecision} (h : Queues app app' new)
    (h' : Queues app' app'' new') : Queues app app'' (new ++ new') := by
  rw [Queues] at h h' ⊢
  rw [h', h, Option.map_map]
  congr 1
  funext queue
  simp

/-- A dispatch queues decisions of the list, for its own symbol. -/
theorem dispatch_queued (symbol : String) (onFailure : OrderManager → OrderDecision → OrderManager)
    (ds : List OrderDecision) (reaches : Nat → Bool) (m : OrderManager) :
    ∀ q ∈ (dispatch symbol onFailure reaches m ds).2.1, q.symbol = symbol ∧ q.decision ∈ ds := by
  induction ds generalizing reaches m with
  | nil => exact fun q hq => absurd hq List.not_mem_nil
  | cons d ds ih =>
    unfold dispatch
    split
    · intro q hq
      rcases List.mem_cons.mp hq with rfl | hq
      · exact ⟨rfl, List.mem_cons_self⟩
      · obtain ⟨hsymbol, hd⟩ := ih _ _ q hq
        exact ⟨hsymbol, List.mem_cons_of_mem _ hd⟩
    · intro q hq
      obtain ⟨hsymbol, hd⟩ := ih _ _ q hq
      exact ⟨hsymbol, List.mem_cons_of_mem _ hd⟩

theorem dispatchAll_queue (app : App) (symbol : String) (m : OrderManager) (ds : List OrderDecision)
    (reaches : Nat → Bool) (onFailure : OrderManager → OrderDecision → OrderManager) (now : Clocks) :
    ∃ new, Queues app (app.dispatchAll symbol m ds reaches onFailure now).2 new ∧
      ∀ q ∈ new, q.symbol = symbol ∧ q.decision ∈ ds := by
  cases hqueue : app.orderTx with
  | some queue =>
    refine ⟨(dispatch symbol onFailure reaches m ds).2.1, ?_, dispatch_queued symbol onFailure ds reaches m⟩
    simp [dispatchAll, Queues, hqueue]
  | none =>
    refine ⟨[], .none ?_, fun q hq => absurd hq List.not_mem_nil⟩
    simp only [dispatchAll, hqueue]
    split <;> rfl

/-- A quote's decisions go on the queue for its symbol; a quote not valid for trading adds none. -/
theorem processQuote_queue (app : App) (symbol : String) (quote : Quote) (reaches : Nat → Bool)
    (now : Clocks) :
    ∃ new, Queues app (app.processQuote symbol quote reaches now) new ∧
      ∀ q ∈ new, q.symbol = symbol ∧ quote.validForTrading = true := by
  unfold processQuote
  split
  next hvalid =>
    simp only [Bool.and_eq_true] at hvalid
    obtain ⟨new, hnew, hsymbol⟩ := dispatchAll_queue app symbol
      (((app.managers symbol).clearPauseReason .marketData).onQuoteInto (app.positions symbol).position
        app.sharedEquity.maxPositionDollar quote now.unixNs).1
      (((app.managers symbol).clearPauseReason .marketData).onQuoteInto (app.positions symbol).position
        app.sharedEquity.maxPositionDollar quote now.unixNs).2 reaches OrderManager.onDispatchFailed now
    refine ⟨new, ?_, fun q hq => ⟨(hsymbol q hq).1, hvalid.1.1.2⟩⟩
    dsimp only
    split
    · rw [Queues, beginAccountReconciliation_orderTx, mapManagers_orderTx]
      exact hnew
    · exact hnew
  next => exact ⟨[], .none rfl, fun q hq => absurd hq List.not_mem_nil⟩

/-- The timeout check queues no `Send`. -/
theorem checkOrderTimeouts_queue (app : App) (reaches : String → Nat → Bool) (now : Clocks) :
    ∃ new, Queues app (app.checkOrderTimeouts reaches now) new ∧ ∀ q ∈ new, q.decision.isSend = false := by
  have hloop : ∀ (symbols : List String) (app : App), ∃ new,
      Queues app (timeoutLoop reaches now symbols app).2.2 new ∧ ∀ q ∈ new, q.decision.isSend = false := by
    intro symbols
    induction symbols with
    | nil => exact fun app => ⟨[], .none rfl, fun q hq => absurd hq List.not_mem_nil⟩
    | cons symbol symbols ih =>
      intro app
      obtain ⟨new, hnew, hmem⟩ := dispatchAll_queue app symbol
        ((app.managers symbol).checkTimeouts now.unixNs).1 ((app.managers symbol).checkTimeouts now.unixNs).2
        (reaches symbol) (onTimeoutDispatchFailed now) now
      obtain ⟨new', hnew', hcancels⟩ := ih (app.dispatchAll symbol
        ((app.managers symbol).checkTimeouts now.unixNs).1 ((app.managers symbol).checkTimeouts now.unixNs).2
        (reaches symbol) (onTimeoutDispatchFailed now) now).2
      refine ⟨new ++ new', hnew.trans hnew', fun q hq => ?_⟩
      rcases List.mem_append.mp hq with hq | hq
      · exact OrderManager.checkTimeouts_isSend _ _ _ (hmem q hq).2
      · exact hcancels q hq
  unfold checkOrderTimeouts
  split
  · exact ⟨[], .none rfl, fun q hq => absurd hq List.not_mem_nil⟩
  · obtain ⟨new, hnew, hcancels⟩ := hloop app.config.symbols app
    refine ⟨new, ?_, hcancels⟩
    dsimp only
    split
    · rw [Queues, beginAccountReconciliation_orderTx]
      exact hnew
    · split
      · rw [Queues, beginAccountReconciliation_orderTx]
        exact hnew
      · exact hnew

end App

end MarketMaker
