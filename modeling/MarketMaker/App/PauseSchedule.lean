import MarketMaker.App.CircuitBreaker

/-!
# No orphaned pause

`Reconciliation` and `Safety` are lifted by the end of an account reconciliation, `CircuitBreaker`
by that or by a timer that asks for one.  The managers set these reasons on their own; what the
main loop does in the same arm makes sure that the reconciliation is on its way.

* `Keeps` — what a call may do without a reconciliation being asked for.
* `handle_scheduled` — every arm of the main loop keeps the pauses scheduled.
* `no_orphaned_pause` — in every reachable state each of the three pauses has its reconciliation
  under way, or its timer running.
-/

set_option autoImplicit false

namespace MarketMaker

namespace OrderManager

/-- The two reasons a reconciliation lifts stay as they are, and a tripped breaker has its timer. -/
structure Keeps (m m' : OrderManager) : Prop where
  reconciliation : m'.hasPauseReason .reconciliation = m.hasPauseReason .reconciliation
  safety : m'.hasPauseReason .safety = true → m.hasPauseReason .safety = true
  breaker : m'.hasPauseReason .circuitBreaker = true → m'.circuitBreakerTriggeredAtMs ≠ 0 ∨
    (m.hasPauseReason .circuitBreaker = true ∧
      m'.circuitBreakerTriggeredAtMs = m.circuitBreakerTriggeredAtMs)

theorem Keeps.refl (m : OrderManager) : Keeps m m := ⟨rfl, id, fun h => Or.inr ⟨h, rfl⟩⟩

theorem Keeps.trans {m m' m'' : OrderManager} (h : Keeps m m') (h' : Keeps m' m'') : Keeps m m'' := by
  refine ⟨h'.reconciliation.trans h.reconciliation, fun hs => h.safety (h'.safety hs), fun hb => ?_⟩
  rcases h'.breaker hb with htimer | ⟨hb', htimer⟩
  · exact Or.inl htimer
  · rw [htimer]
    exact h.breaker hb'

/-- A change that leaves the execution state and the timer alone. -/
theorem Keeps.of_eq {m m' : OrderManager} (hexecution : m'.execution = m.execution)
    (htimer : m'.circuitBreakerTriggeredAtMs = m.circuitBreakerTriggeredAtMs) : Keeps m m' := by
  refine ⟨?_, ?_, fun h => Or.inr ⟨?_, htimer⟩⟩
  all_goals simp_all [hasPauseReason]


/-- The calls that need no reconciliation. -/
def Operation.Plain : Operation → Prop
  | .setPauseReason r | .clearPauseReason r => r = .orderWebSocket ∨ r = .marketData ∨ r = .riskData
  | .rejected _ nowMs => nowMs ≠ 0
  | .checkTimeouts _ | .checkPendingTimeouts _ | .cancelFailed _ | .triggerSafetyPause _
  | .finishReconciliation | .checkCircuitBreakerRecovery .. | .resetCircuitBreaker => False
  | _ => True

theorem Operation.Plain.sets {op : Operation} (h : op.Plain) {r : PauseReason} (hr : op.Sets r) :
    r ≠ .reconciliation ∧ r ≠ .safety := by
  cases op with
  | rejected | quote | filled | requirePositionRefresh => cases hr; exact ⟨nofun, nofun⟩
  | setPauseReason r => cases hr; rcases h with rfl | rfl | rfl <;> exact ⟨nofun, nofun⟩
  | checkTimeouts | checkPendingTimeouts | cancelFailed | triggerSafetyPause => exact h.elim
  | _ => exact hr.elim

/-- Only a rejection sets `CircuitBreaker`. -/
theorem Operation.Plain.sets_breaker {op : Operation} (h : op.Plain)
    (hop : ∀ clOrdId nowMs, op ≠ .rejected clOrdId nowMs) : ¬ op.Sets .circuitBreaker := by
  intro hr
  cases op with
  | rejected clOrdId nowMs => exact hop clOrdId nowMs rfl
  | quote | filled | requirePositionRefresh => cases hr
  | setPauseReason r => cases hr; rcases h with h | h | h <;> cases h
  | checkTimeouts | checkPendingTimeouts | cancelFailed | triggerSafetyPause => exact h.elim
  | _ => exact hr

theorem Operation.Plain.clears {op : Operation} (h : op.Plain) : ¬ op.Clears .reconciliation := by
  intro hc
  cases op with
  | clearPauseReason r => cases hc; rcases h with h | h | h <;> cases h
  | finishReconciliation | resetCircuitBreaker => exact h
  | _ => exact hc

theorem onOrderAccepted_timer (m : OrderManager) (clOrdId : String) (orderId : Int) :
    (m.onOrderAccepted clOrdId orderId).2.circuitBreakerTriggeredAtMs = m.circuitBreakerTriggeredAtMs := by
  unfold onOrderAccepted
  split
  · rfl
  · split
    · rfl
    · split
      · rfl
      · dsimp only
        split <;> rfl

/-- A rejection at a nonzero time that trips the breaker starts its timer. -/
theorem onOrderRejected_breaker (m : OrderManager) (clOrdId : String) {nowMs : Nat} (hms : nowMs ≠ 0)
    (h : (m.onOrderRejected clOrdId nowMs).hasPauseReason .circuitBreaker = true) :
    (m.onOrderRejected clOrdId nowMs).circuitBreakerTriggeredAtMs ≠ 0 ∨
      (m.hasPauseReason .circuitBreaker = true ∧
        (m.onOrderRejected clOrdId nowMs).circuitBreakerTriggeredAtMs = m.circuitBreakerTriggeredAtMs) := by
  have hcleared := (clearFirst_breaker m fun o => o.clOrdId == clOrdId).timer
  have hexecution := m.clearFirst_execution fun o => o.clOrdId == clOrdId
  unfold onOrderRejected at h ⊢
  dsimp only at h ⊢
  split at h
  · rename_i hdue
    rw [if_pos hdue]
    exact Or.inl hms
  · rename_i hdue
    rw [if_neg hdue]
    refine Or.inr ⟨?_, hcleared⟩
    unfold hasPauseReason at h ⊢
    rw [← hexecution]
    exact h

/-- **What a plain call does to the three pauses.** -/
theorem apply_plain (m : OrderManager) (op : Operation) (h : op.Plain) : Keeps m (m.apply op).1 := by
  have hgains : ∀ {r}, ¬ op.Sets r → (m.apply op).1.hasPauseReason r = true → m.hasPauseReason r = true := by
    intro r hsets hr
    by_contra hclear
    rw [Bool.not_eq_true] at hclear
    rw [apply_gains_reason hsets hclear] at hr
    cases hr
  refine ⟨?_, hgains fun hsets => (h.sets hsets).2 rfl, fun hbreaker => ?_⟩
  · cases hset : m.hasPauseReason .reconciliation with
    | true => exact apply_keeps_reason h.clears hset
    | false => exact apply_gains_reason (fun hsets => (h.sets hsets).1 rfl) hset
  · by_cases hop : ∃ clOrdId nowMs, op = .rejected clOrdId nowMs
    · obtain ⟨clOrdId, nowMs, rfl⟩ := hop
      exact m.onOrderRejected_breaker clOrdId h hbreaker
    · refine Or.inr ⟨hgains (h.sets_breaker fun clOrdId nowMs heq => hop ⟨clOrdId, nowMs, heq⟩) hbreaker, ?_⟩
      cases op with
      | rejected clOrdId nowMs => exact absurd ⟨_, _, rfl⟩ hop
      | accepted clOrdId orderId => exact m.onOrderAccepted_timer clOrdId orderId
      | finishReconciliation | resetCircuitBreaker | checkCircuitBreakerRecovery => exact h.elim
      | _ => exact (m.apply_breaker (by trivial)).timer

/-- A cancel that fails for the last time asks for a reconciliation; one that does not is plain. -/
theorem onCancelFailed_keeps {m : OrderManager} {orderId : Int}
    (h : (m.onCancelFailed orderId).hasPauseReason .reconciliation = false) :
    Keeps m (m.onCancelFailed orderId) := by
  unfold onCancelFailed at h ⊢
  dsimp only at h ⊢
  split
  · exact .refl m
  · rename_i i hi
    simp only [hi] at h
    split
    · rename_i hclosed
      rw [if_pos hclosed] at h
      simp [hasPauseReason, setPauseReason] at h
    · exact .of_eq rfl rfl

theorem cooldownElapsed_idle {triggeredAtMs recoverySecs nowMs : Nat}
    (h : (cooldownElapsed triggeredAtMs recoverySecs nowMs).1 = false) :
    (cooldownElapsed triggeredAtMs recoverySecs nowMs).2 = triggeredAtMs := by
  unfold cooldownElapsed at h ⊢
  split at h
  · rw [if_pos ‹_›]
  · rw [if_neg ‹_›]
    split at h
    · rw [if_pos ‹_›]
    · cases h

/-- A recovery check that is not due leaves the breaker's timer. -/
theorem checkCircuitBreakerRecovery_idle {m : OrderManager} {recoverySecs nowMs : Nat}
    (h : (m.checkCircuitBreakerRecovery recoverySecs nowMs).1 = false) :
    Keeps m (m.checkCircuitBreakerRecovery recoverySecs nowMs).2 := by
  unfold checkCircuitBreakerRecovery at h ⊢
  split
  · rename_i hset
    rw [if_pos hset] at h
    exact .of_eq rfl (cooldownElapsed_idle h)
  · exact .refl m

theorem checkSafetyPauseRecovery_keeps (m : OrderManager) (recoverySecs nowMs : Nat) :
    Keeps m (m.checkSafetyPauseRecovery recoverySecs nowMs).2 := by
  unfold checkSafetyPauseRecovery
  split <;> exact .of_eq rfl rfl

/-- With the timer running, the check is due once the cooldown is over. -/
theorem checkCircuitBreakerRecovery_due {m : OrderManager} {recoverySecs nowMs : Nat}
    (hset : m.hasPauseReason .circuitBreaker = true) (htimer : m.circuitBreakerTriggeredAtMs ≠ 0)
    (hsecs : recoverySecs ≠ 0)
    (hlate : m.circuitBreakerTriggeredAtMs + Word64.saturatingMul recoverySecs 1000 ≤ nowMs) :
    (m.checkCircuitBreakerRecovery recoverySecs nowMs).1 = true := by
  have hneither : ¬ (recoverySecs = 0 ∨ m.circuitBreakerTriggeredAtMs = 0) := by simp [hsecs, htimer]
  have hpast : ¬ nowMs - m.circuitBreakerTriggeredAtMs < Word64.saturatingMul recoverySecs 1000 := by omega
  simp only [checkCircuitBreakerRecovery, if_pos hset, cooldownElapsed, if_neg hneither, if_neg hpast]

end OrderManager

namespace App

open OrderManager (Operation Calls Keeps)

/-! ## Scheduled pauses -/

/-- Every manager has `Reconciliation` set exactly while one is pending; `Safety` is set only while
    one is pending, and `CircuitBreaker` then or while its timer runs. -/
structure Scheduled (app : App) : Prop where
  enabled : app.config.orderEnabled = true
  reconciliation : ∀ symbol ∈ app.config.symbols,
    (app.managers symbol).hasPauseReason .reconciliation = app.reconciliationPending
  safety : ∀ symbol ∈ app.config.symbols,
    (app.managers symbol).hasPauseReason .safety = true → app.reconciliationPending = true
  breaker : ∀ symbol ∈ app.config.symbols, (app.managers symbol).hasPauseReason .circuitBreaker = true →
    app.reconciliationPending = true ∨ (app.managers symbol).circuitBreakerTriggeredAtMs ≠ 0

/-- What is left of it inside an arm that goes on to ask for a reconciliation. -/
structure Held (app : App) : Prop where
  enabled : app.config.orderEnabled = true
  reconciliation : app.reconciliationPending = true → ∀ symbol ∈ app.config.symbols,
    (app.managers symbol).hasPauseReason .reconciliation = true

theorem Scheduled.held {app : App} (h : Scheduled app) : Held app :=
  ⟨h.enabled, fun hpending symbol hs => (h.reconciliation symbol hs).trans hpending⟩

/-- While a reconciliation is pending nothing else is to be scheduled. -/
theorem Held.scheduled {app : App} (h : Held app) (hpending : app.reconciliationPending = true) :
    Scheduled app :=
  ⟨h.enabled, fun symbol hs => (h.reconciliation hpending symbol hs).trans hpending.symm,
   fun _ _ _ => hpending, fun _ _ _ => Or.inl hpending⟩

/-- **Asking for a reconciliation schedules every pause.** -/
theorem Held.begin {app : App} (h : Held app) (reason : String) :
    Scheduled (app.beginAccountReconciliation reason) := by
  cases hpending : app.reconciliationPending with
  | true =>
    have hsame : app.beginAccountReconciliation reason = app := by
      unfold beginAccountReconciliation
      simp [hpending]
    rw [hsame]
    exact h.scheduled hpending
  | false =>
    have hbegins : app.beginAccountReconciliation reason = { app with
        reconciliationPending := true
        managers := fun symbol => enterReconciliation (app.managers symbol) (app.positions symbol)
        reconciliationGeneration := Word64.wrappingAdd app.reconciliationGeneration 1
        reconciliationTx := app.reconciliationTx.map
          (· ++ [⟨Word64.wrappingAdd app.reconciliationGeneration 1, reason⟩]) } := by
      unfold beginAccountReconciliation
      simp [hpending, h.enabled]
    rw [hbegins]
    refine Held.scheduled ⟨h.enabled, fun _ symbol _ => ?_⟩ rfl
    show (enterReconciliation (app.managers symbol) (app.positions symbol)).hasPauseReason .reconciliation = true
    unfold enterReconciliation
    split <;> exact ExecutionState.hasPauseReason_set_self _ _

/-- Changes that need no reconciliation keep the pauses scheduled. -/
theorem Scheduled.keeps {app app' : App} (h : Scheduled app) (hconfig : app'.config = app.config)
    (hpending : app'.reconciliationPending = app.reconciliationPending)
    (hmanagers : ∀ symbol ∈ app.config.symbols, Keeps (app.managers symbol) (app'.managers symbol)) :
    Scheduled app' := by
  refine ⟨hconfig ▸ h.enabled, ?_, ?_, ?_⟩
  all_goals
    intro symbol hs
    rw [hconfig] at hs
    have hkeeps := hmanagers symbol hs
    rw [hpending]
  · exact hkeeps.reconciliation.trans (h.reconciliation symbol hs)
  · exact fun hset => h.safety symbol hs (hkeeps.safety hset)
  · intro hset
    rcases hkeeps.breaker hset with htimer | ⟨hbefore, htimer⟩
    · exact Or.inr htimer
    · rw [htimer]
      exact h.breaker symbol hs hbefore

/-! ## The arms -/

variable {t : Clocks} {e : Event}

/-- No call but the end of a reconciliation clears `Reconciliation`. -/
theorem Held.moves {app app' : App} (h : Held app) (hmoves : Moves (Allowed t e) app app')
    (hpending : app'.reconciliationPending = app.reconciliationPending)
    (he : ∀ result, e ≠ .reconciliationResult result) : Held app' := by
  refine ⟨hmoves.config ▸ h.enabled, fun hp symbol hs => ?_⟩
  refine (hmoves.managers symbol).preserves (fun m => m.hasPauseReason .reconciliation = true) ?_
    (h.reconciliation (hpending ▸ hp) symbol (hmoves.config ▸ hs))
  intro m op hop hm
  refine OrderManager.apply_keeps_reason (fun hclears => ?_) hm
  cases op with
  | clearPauseReason r => cases hclears; exact hop
  | finishReconciliation =>
    obtain ⟨result, heq⟩ := hop
    exact he result heq
  | resetCircuitBreaker => exact hop
  | _ => exact hclears

theorem keeps_update {managers : String → OrderManager} {symbol : String} {m : OrderManager}
    (h : Keeps (managers symbol) m) (s : String) :
    Keeps (managers s) (Function.update managers symbol m s) := by
  by_cases hs : s = symbol
  · subst hs
    rw [Function.update_self]
    exact h
  · rw [Function.update_of_ne hs]
    exact .refl _

theorem updateFirst_keeps {f : String → OrderManager → Bool × OrderManager}
    (hf : ∀ symbol m, Keeps m (f symbol m).2) (symbols : List String) (app : App) :
    (updateFirst f symbols app).2.reconciliationPending = app.reconciliationPending ∧
      (updateFirst f symbols app).2.config = app.config ∧
      ∀ s, Keeps (app.managers s) ((updateFirst f symbols app).2.managers s) := by
  induction symbols generalizing app with
  | nil => exact ⟨rfl, rfl, fun s => .refl _⟩
  | cons symbol symbols ih =>
    unfold updateFirst
    have hfirst := keeps_update (hf symbol (app.managers symbol))
    dsimp only
    split
    · exact ⟨rfl, rfl, hfirst⟩
    · obtain ⟨hpending, hconfig, hrest⟩ := ih { app with
        managers := Function.update app.managers symbol (f symbol (app.managers symbol)).2 }
      exact ⟨hpending, hconfig, fun s => (hfirst s).trans (hrest s)⟩

theorem dispatch_reached (symbol : String) (onFailure : OrderManager → OrderDecision → OrderManager)
    (ds : List OrderDecision) (reaches : Nat → Bool) (m : OrderManager)
    (h : (dispatch symbol onFailure reaches m ds).2.2 = false) :
    (dispatch symbol onFailure reaches m ds).1 = m := by
  induction ds generalizing reaches with
  | nil => rfl
  | cons d ds ih =>
    unfold dispatch at h ⊢
    split at h
    · rename_i hreaches
      rw [if_pos hreaches]
      exact ih _ h
    · cases h

/-- Decisions that all get through leave the manager as it is. -/
theorem dispatchAll_reached {app : App} {symbol : String} {m : OrderManager} {ds : List OrderDecision}
    {reaches : Nat → Bool} {onFailure : OrderManager → OrderDecision → OrderManager} {now : Clocks}
    (h : (app.dispatchAll symbol m ds reaches onFailure now).1 = false) :
    (app.dispatchAll symbol m ds reaches onFailure now).2.managers
      = Function.update app.managers symbol m := by
  unfold dispatchAll at h ⊢
  cases hqueue : app.orderTx with
  | some queue =>
    simp only [hqueue] at h ⊢
    rw [dispatch_reached symbol onFailure ds reaches m h]
  | none =>
    simp only [hqueue] at h ⊢
    split
    · rfl
    · rename_i hds
      rw [if_neg hds] at h
      cases h

theorem Scheduled.processQuote {app : App} (h : Scheduled app) (symbol : String) (quote : Quote)
    (reaches : Nat → Bool) : Scheduled (app.processQuote symbol quote reaches t) := by
  have hmarket : ∃ event, Event.market .other = .market event := ⟨_, rfl⟩
  have hquote : Calls (Allowed t (.market .other)) (app.managers symbol)
      (((app.managers symbol).clearPauseReason .marketData).onQuoteInto (app.positions symbol).position
        app.sharedEquity.maxPositionDollar quote t.unixNs).1 :=
    .trans (.one (.clearPauseReason .marketData) hmarket) (.one (.quote _ _ _ _) rfl)
  have hplain : Keeps (app.managers symbol)
      (((app.managers symbol).clearPauseReason .marketData).onQuoteInto (app.positions symbol).position
        app.sharedEquity.maxPositionDollar quote t.unixNs).1 :=
    ((app.managers symbol).apply_plain (.clearPauseReason .marketData) (Or.inr (Or.inl rfl))).trans
      (OrderManager.apply_plain _ (.quote _ _ _ _) trivial)
  unfold App.processQuote
  split
  · have hdispatch := dispatchAll_moves app symbol
      (((app.managers symbol).clearPauseReason .marketData).onQuoteInto (app.positions symbol).position
        app.sharedEquity.maxPositionDollar quote t.unixNs).2 reaches t Rollback.allowed onDispatchFailed_calls
      hquote
    have hpending := app.dispatchAll_pending symbol
      (((app.managers symbol).clearPauseReason .marketData).onQuoteInto (app.positions symbol).position
        app.sharedEquity.maxPositionDollar quote t.unixNs).1
      (((app.managers symbol).clearPauseReason .marketData).onQuoteInto (app.positions symbol).position
        app.sharedEquity.maxPositionDollar quote t.unixNs).2 reaches OrderManager.onDispatchFailed t
    dsimp only
    split
    · -- a decision did not get through: `Safety`, and a reconciliation is asked for
      have hpaused := hdispatch.trans (mapManagers_moves _ fun _ => triggerSafetyPause_calls _ t.unixMs)
      exact (h.held.moves hpaused hpending nofun).begin _
    · rename_i hreached
      refine h.keeps hdispatch.config hpending fun s _ => ?_
      rw [dispatchAll_reached (by simpa using hreached)]
      exact keeps_update hplain s
  · exact h

theorem Scheduled.processDepthBook {app : App} (h : Scheduled app) (book : DepthSnapshot)
    (quote : Option Quote) (reaches : Nat → Bool) :
    Scheduled (app.processDepthBook book quote reaches t) := by
  unfold App.processDepthBook
  split
  · split
    · exact h
    · rename_i depth _
      have hdepth : Scheduled { app with depth := Function.update app.depth book.symbol depth } :=
        h.keeps rfl rfl fun _ _ => .refl _
      cases quote with
      | none => exact hdepth
      | some quote => exact hdepth.processQuote book.symbol quote reaches
  · exact h

theorem Scheduled.checkDepthStale {app : App} (h : Scheduled app) :
    Scheduled (app.checkDepthStale t) := by
  have hmarked : Scheduled (app.markDepthStale t) := by
    refine h.keeps rfl rfl fun symbol _ => ?_
    unfold App.markDepthStale
    dsimp only
    split
    · exact OrderManager.apply_plain _ (.setPauseReason .marketData) (Or.inr (Or.inl rfl))
    · exact .refl _
  rw [App.checkDepthStale_eq]
  split
  · exact hmarked.held.begin _
  · exact hmarked

theorem Scheduled.onMarketEvent {app : App} (h : Scheduled app) (event : WsEvent) :
    Scheduled (app.onMarketEvent event t) := by
  have hchecked := h.checkDepthStale (t := t)
  unfold App.onMarketEvent
  cases event with
  | connected => exact hchecked.keeps rfl rfl fun _ _ => .refl _
  | disconnected =>
    -- every manager asks for the reconciliation before the application does
    have hmoves := processEvent_moves (t := t) (e := .market .disconnected) (app.checkDepthStale t)
      .disconnected ⟨_, rfl⟩
    exact (hchecked.held.moves hmoves rfl nofun).begin _
  | depthBook book quote reaches => exact hchecked.processDepthBook book quote reaches
  | other => exact hchecked

theorem Scheduled.onAccepted {app : App} (h : Scheduled app) (clOrdId : String) (orderId : Int) :
    Scheduled (app.onAccepted clOrdId orderId) := by
  unfold App.onAccepted
  split
  · rename_i symbol _
    split
    · have haccepted : Scheduled { app with
          managers := Function.update app.managers symbol
            ((app.managers symbol).onOrderAccepted clOrdId orderId).2 } :=
        h.keeps rfl rfl fun s _ =>
          keeps_update (OrderManager.apply_plain _ (.accepted clOrdId orderId) trivial) s
      dsimp only
      split
      · exact haccepted
      · exact haccepted.held.begin _
    · exact h.held.begin _
  · exact h.held.begin _

theorem Scheduled.onRejected {app : App} (h : Scheduled app) (ht : t.unixMs ≠ 0) (clOrdId : String) :
    Scheduled (app.onRejected clOrdId t) := by
  unfold App.onRejected
  split
  · split
    · exact h.keeps rfl rfl fun s _ =>
        keeps_update (OrderManager.apply_plain _ (.rejected clOrdId t.unixMs) ht) s
    · exact h
  · exact h

theorem Scheduled.matchFill {app : App} (h : Scheduled app) (orderId : Int) (clOrdId : Option String)
    (fullyFilled : Bool) : Scheduled (app.matchFill orderId clOrdId fullyFilled).2 := by
  have hfill : ∀ app : App, ∀ symbol m, Keeps m (app.fillManager orderId clOrdId fullyFilled symbol m).2 :=
    fun app symbol m => m.apply_plain (.filled (app.positions symbol) orderId clOrdId fullyFilled) trivial
  have hfirst : ∀ {app : App} (_ : Scheduled app) (source : App) symbols,
      Scheduled (updateFirst (source.fillManager orderId clOrdId fullyFilled) symbols app).2 := by
    intro app h source symbols
    obtain ⟨hpending, hconfig, hkeeps⟩ := updateFirst_keeps (hfill source) symbols app
    exact h.keeps hconfig hpending fun s _ => hkeeps s
  have hnamed : Scheduled (app.fillNamed orderId clOrdId fullyFilled).2 := by
    unfold App.fillNamed
    split
    · split
      · exact hfirst h app _
      · exact h
    · exact h
  unfold App.matchFill
  dsimp only
  split
  · exact hnamed
  · exact hfirst hnamed app _

theorem Scheduled.requireAllPositionRefreshes {app : App} (h : Scheduled app) :
    Scheduled app.requireAllPositionRefreshes :=
  h.keeps rfl rfl fun symbol _ =>
    OrderManager.apply_plain _ (.requirePositionRefresh (app.positions symbol)) trivial

theorem Scheduled.onFilled {app : App} (h : Scheduled app) (orderId : Int)
    (clOrdId status : Option String) (fillQty : String) :
    Scheduled (app.onFilled orderId clOrdId status fillQty) := by
  unfold App.onFilled
  split
  · exact h.requireAllPositionRefreshes.held.begin _
  · split
    · exact h.requireAllPositionRefreshes.held.begin _
    · have hmatch := h.matchFill orderId clOrdId (fillStatus status == .full)
      dsimp only
      split
      · exact hmatch.requireAllPositionRefreshes.held.begin _
      · split
        · exact hmatch.held.begin _
        · exact hmatch

theorem Scheduled.onCanceled {app : App} (h : Scheduled app) (orderId : Int) (clOrdId : Option String) :
    Scheduled (app.onCanceled orderId clOrdId) := by
  have hnamed : Scheduled (app.cancelNamed clOrdId).2 := by
    unfold App.cancelNamed
    split
    · rename_i id
      split
      · split
        · obtain ⟨hpending, hconfig, hkeeps⟩ := updateFirst_keeps
            (f := fun _ m => m.onOrderCanceledByClOrdId id)
            (fun _ m => m.apply_plain (.canceledByClOrdId id) trivial) _ app
          exact h.keeps hconfig hpending fun s _ => hkeeps s
        · exact h
      · exact h
    · exact h
  unfold App.onCanceled
  dsimp only
  split
  · exact hnamed
  · obtain ⟨hpending, hconfig, hkeeps⟩ := updateFirst_keeps (f := fun _ m => m.onOrderCanceled orderId)
      (fun _ m => m.apply_plain (.canceled orderId) trivial) app.config.symbols
      (app.cancelNamed clOrdId).2
    exact hnamed.keeps hconfig hpending fun s _ => hkeeps s

/-- A manager that gives up on a cancel asks for a reconciliation, and so does the application. -/
theorem Scheduled.onCancelFailed {app : App} (h : Scheduled app) (orderId : Int) :
    Scheduled (app.onCancelFailed orderId) := by
  have hmoves : Moves (Allowed ⟨0, 0⟩ .checkDepthStale) app (app.mapManagers (·.onCancelFailed orderId)) :=
    mapManagers_moves app fun _ => .one (.cancelFailed orderId) trivial
  unfold App.onCancelFailed
  dsimp only
  split
  · exact (h.held.moves hmoves rfl nofun).begin _
  · rename_i hnone
    refine h.keeps rfl rfl fun symbol hs => OrderManager.onCancelFailed_keeps ?_
    by_contra hset
    rw [Bool.not_eq_false] at hset
    exact hnone (Or.inr (List.any_eq_true.mpr ⟨symbol, hs, hset⟩))

theorem Scheduled.onOrderEvent {app : App} (h : Scheduled app) (ht : t.unixMs ≠ 0) (event : OrderEvent) :
    Scheduled (app.onOrderEvent event t) := by
  have hplain : ∀ {f : OrderManager → OrderManager}, (∀ m, Keeps m (f m)) → Scheduled (app.mapManagers f) :=
    fun hf => h.keeps rfl rfl fun _ _ => hf _
  cases event with
  | authenticated =>
    exact hplain fun m => m.apply_plain (.clearPauseReason .orderWebSocket) (Or.inl rfl)
  | orderAccepted clOrdId orderId =>
    simp only [App.onOrderEvent]
    split
    · exact h
    · exact h.onAccepted clOrdId orderId
  | orderRejected clOrdId reason =>
    simp only [App.onOrderEvent]
    split
    · exact h
    · exact h.onRejected ht clOrdId
  | orderFilled orderId clOrdId status fillQty fillPrice => exact h.onFilled orderId clOrdId status fillQty
  | orderCanceled orderId clOrdId => exact h.onCanceled orderId clOrdId
  | cancelSubmissionAcknowledged => exact h.held.begin _
  | cancelFailed orderId reason => exact h.onCancelFailed orderId
  | disconnected reason =>
    exact (hplain fun m => m.apply_plain (.setPauseReason .orderWebSocket) (Or.inl rfl)).held.begin _
  | ambiguousResponse requestId code reason => exact h.held.begin _
  | connected | orderSubmissionAcknowledged | reconnecting | maxRetriesExceeded | error => exact h

theorem confirmOrders_keeps (symbol : String) (position : SharedPosition) (os : List ObservedOpenOrder)
    (m : OrderManager) (confirmed : Nat) : Keeps m (confirmOrders symbol position m confirmed os).1 := by
  refine (confirmOrders_calls symbol position os m confirmed).rel Keeps .refl (fun _ _ _ h h' => h.trans h') ?_
  intro m op hop
  cases op with
  | accepted clOrdId orderId => exact m.apply_plain (.accepted clOrdId orderId) trivial
  | requirePositionRefresh position => exact m.apply_plain (.requirePositionRefresh position) trivial
  | _ => cases hop

theorem applySnapshot_keeps (m : OrderManager) (position : SharedPosition)
    (snapshot : OpenOrdersSnapshot) :
    Keeps m (applySnapshot m position snapshot).1 := by
  have hrefresh := m.apply_plain (.requirePositionRefresh position) trivial
  unfold applySnapshot
  split
  · exact .refl m
  · split
    · exact hrefresh
    · split
      · exact hrefresh
      · exact confirmOrders_keeps ..

theorem Scheduled.onOpenOrdersSnapshot {app : App} (h : Scheduled app) (snapshot : OpenOrdersSnapshot) :
    Scheduled (app.onOpenOrdersSnapshot snapshot) := by
  have happlied : Scheduled (app.applyOpenOrdersSnapshot snapshot).1 := by
    unfold applyOpenOrdersSnapshot
    split
    · exact h
    · split
      · exact h.keeps rfl rfl fun s _ => keeps_update (applySnapshot_keeps ..) s
      · exact h
  unfold App.onOpenOrdersSnapshot
  generalize app.applyOpenOrdersSnapshot snapshot = r at happlied ⊢
  obtain ⟨app', outcome⟩ := r
  cases outcome with
  | ok confirmed => exact happlied
  | error fault => exact happlied.held.begin _

theorem Scheduled.onClearOrdersSignal {app : App} (h : Scheduled app) (signal : ClearOrdersSignal) :
    Scheduled (app.onClearOrdersSignal signal t) := by
  unfold App.onClearOrdersSignal
  dsimp only
  split
  · exact h
  · split
    · have hpaused : Moves (Allowed t .checkDepthStale) app
          (app.modifyManager signal.symbol (·.triggerSafetyPause t.unixMs)) :=
        .withManager (triggerSafetyPause_calls _ _)
      exact (h.held.moves hpaused rfl nofun).begin _
    · exact h.held.begin _

/-- A round in which no order times out leaves the managers as they are. -/
theorem timeoutLoop_idle (reaches : String → Nat → Bool) (now : Clocks) (symbols : List String)
    (app : App) (h : (timeoutLoop reaches now symbols app).1 = false) :
    (timeoutLoop reaches now symbols app).2.2.managers = app.managers := by
  induction symbols generalizing app with
  | nil => rfl
  | cons symbol symbols ih =>
    unfold timeoutLoop at h ⊢
    dsimp only at h ⊢
    rw [Bool.or_eq_false_iff] at h
    obtain ⟨hnone, hrest⟩ := h
    have hdecisions : ((app.managers symbol).checkTimeouts now.unixNs).2 = [] := by
      simpa using hnone
    rw [ih _ hrest]
    have hsame : ((app.managers symbol).checkTimeouts now.unixNs).1 = app.managers symbol := by
      unfold OrderManager.checkTimeouts at hdecisions ⊢
      dsimp only at hdecisions ⊢
      split at hdecisions
      · rw [if_pos ‹_›]
      · rename_i hsome
        exact absurd (List.isEmpty_iff.mpr hdecisions) hsome
    rw [hdecisions, hsame]
    unfold dispatchAll
    split <;> exact Function.update_eq_self ..

theorem timeoutLoop_pending (reaches : String → Nat → Bool) (now : Clocks) (symbols : List String)
    (app : App) : (timeoutLoop reaches now symbols app).2.2.reconciliationPending
      = app.reconciliationPending := by
  induction symbols generalizing app with
  | nil => rfl
  | cons symbol symbols ih =>
    unfold timeoutLoop
    dsimp only
    rw [ih]
    exact dispatchAll_pending ..

theorem Scheduled.checkOrderTimeouts {app : App} (h : Scheduled app) (reaches : String → Nat → Bool) :
    Scheduled (app.checkOrderTimeouts reaches t) := by
  have hmoves : Moves (Allowed t .checkDepthStale) app (timeoutLoop reaches t app.config.symbols app).2.2 :=
    timeoutLoop_moves reaches t Rollback.allowed trivial app.config.symbols app
  have hpending := timeoutLoop_pending reaches t app.config.symbols app
  have hheld := h.held.moves hmoves hpending nofun
  unfold App.checkOrderTimeouts
  split
  · exact h
  · dsimp only
    split
    · exact hheld.begin _
    · split
      · exact hheld.begin _
      · rename_i hidle
        refine h.keeps hmoves.config hpending fun s _ => ?_
        rw [timeoutLoop_idle reaches t app.config.symbols app (by simpa using hidle)]
        exact .refl _

/-- A recovery check that is due asks for a reconciliation. -/
theorem Scheduled.checkPauseRecovery {app : App} (h : Scheduled app) :
    Scheduled (app.checkPauseRecovery t) := by
  have hmoves : Moves (Allowed t .checkDepthStale) app
      (app.mapManagers fun m => (checkRecovery app.config m t).2) :=
    mapManagers_moves app fun m =>
      .trans (.one (.checkCircuitBreakerRecovery _ _) trivial) (.one (.checkSafetyPauseRecovery _ _) trivial)
  unfold App.checkPauseRecovery
  split
  · exact h
  · dsimp only
    split
    · exact (h.held.moves hmoves rfl nofun).begin _
    · rename_i hidle
      refine h.keeps rfl rfl fun symbol hs => ?_
      have hnot : (checkRecovery app.config (app.managers symbol) t).1 = false := by
        by_contra hdue
        rw [Bool.not_eq_false] at hdue
        exact hidle (List.any_eq_true.mpr ⟨symbol, hs, hdue⟩)
      unfold checkRecovery at hnot
      dsimp only at hnot
      rw [Bool.or_eq_false_iff] at hnot
      exact (OrderManager.checkCircuitBreakerRecovery_idle hnot.1).trans
        (OrderManager.checkSafetyPauseRecovery_keeps ..)

theorem refreshRiskPause_keeps {m : OrderManager} {position : SharedPosition} {sourcesFresh : Bool}
    (h : (refreshRiskPause m position sourcesFresh).1 = false) :
    Keeps m (refreshRiskPause m position sourcesFresh).2 := by
  have hconsumed := m.apply_plain (.positionRefreshComplete position) trivial
  have hset : ∀ m : OrderManager, Keeps m (m.setPauseReason .riskData) :=
    fun m => m.apply_plain (.setPauseReason .riskData) (Or.inr (Or.inr rfl))
  unfold refreshRiskPause at h ⊢
  dsimp only at h ⊢
  split
  · exact (hconsumed.trans (OrderManager.apply_plain _ (.initializePositionBaseline position) trivial)).trans
      (OrderManager.apply_plain _ (.clearPauseReason .riskData) (Or.inr (Or.inr rfl)))
  · rename_i hstale
    rw [if_neg hstale] at h
    split
    · rename_i hbecame
      rw [if_pos hbecame] at h
      cases h
    · exact hconsumed.trans (hset _)

theorem Scheduled.checkRiskData {app : App} (h : Scheduled app) : Scheduled (app.checkRiskData t) := by
  have hmoves := updateRiskPauses_moves (t := t) (e := .checkRiskData) app rfl
  have hpending : (app.updateRiskPauses t).2.reconciliationPending = app.reconciliationPending := by
    unfold App.updateRiskPauses
    split <;> rfl
  unfold App.checkRiskData
  dsimp only
  split
  · exact (h.held.moves hmoves hpending nofun).begin _
  · rename_i hfresh
    refine h.keeps hmoves.config hpending fun symbol hs => ?_
    unfold App.updateRiskPauses at hfresh ⊢
    split
    · exact .refl _
    · rename_i henabled
      rw [if_neg henabled] at hfresh
      refine refreshRiskPause_keeps ?_
      by_contra hbecame
      rw [Bool.not_eq_false] at hbecame
      exact hfresh (List.any_eq_true.mpr ⟨symbol, hs, hbecame⟩)

/-- The tick size arm asks first and touches the manager then. -/
theorem Scheduled.onTickSizeChanged {app : App} (h : Scheduled app) (signal : TickSizeChangedSignal) :
    Scheduled (app.onTickSizeChanged signal) := by
  have hbegun := h.held.begin ("tick/lot size changed for " ++ signal.symbol)
  unfold App.onTickSizeChanged
  dsimp only
  split
  · refine hbegun.keeps rfl rfl fun s _ => keeps_update ?_ s
    exact (OrderManager.apply_plain _ (.setPrecision _ _ _ signal.newLotSize_pos) trivial).trans
      (OrderManager.apply_plain _ (.setPauseReason .marketData) (Or.inr (Or.inl rfl)))
  · exact hbegun

/-- **The end of a reconciliation lifts all three pauses.** -/
theorem finishReconciliation_lifts (m : OrderManager) (position : SharedPosition) (r : PauseReason)
    (hr : r = .reconciliation ∨ r = .safety ∨ r = .circuitBreaker) :
    ((m.requirePositionRefreshAfterFill position).finishReconciliation).hasPauseReason r = false := by
  unfold OrderManager.finishReconciliation OrderManager.hasPauseReason
  unfold OrderManager.clearPauseReason
  rcases hr with rfl | rfl | rfl
  · exact ExecutionState.hasPauseReason_clear_self _ _
  · rw [ExecutionState.hasPauseReason_clear_of_ne _ (by decide),
      ExecutionState.hasPauseReason_clear_of_ne _ (by decide)]
    exact ExecutionState.hasPauseReason_clear_self _ _
  · rw [ExecutionState.hasPauseReason_clear_of_ne _ (by decide)]
    exact ExecutionState.hasPauseReason_clear_self _ _

theorem Scheduled.finish {app : App} (h : Scheduled app) :
    Scheduled (app.finishAccountReconciliation t) := by
  have hlifts := fun symbol r hr =>
    finishReconciliation_lifts (app.managers symbol) (app.positions symbol) r hr
  refine ⟨h.enabled, fun symbol _ => hlifts symbol _ (Or.inl rfl), fun symbol _ hset => ?_,
    fun symbol _ hset => ?_⟩
  · exact absurd (hset.symm.trans (hlifts symbol _ (Or.inr (Or.inl rfl)))) (by decide)
  · exact absurd (hset.symm.trans (hlifts symbol _ (Or.inr (Or.inr rfl)))) (by decide)

/-- **Every arm of the main loop keeps the pauses scheduled**, at a nonzero wall clock. -/
theorem handle_scheduled {app : App} (h : Scheduled app) (ht : t.unixMs ≠ 0) (e : Event) :
    Scheduled (app.handle t e) := by
  cases e with
  | market event => exact h.onMarketEvent event
  | reconciliationResult result =>
    simp only [handle, onReconciliationResult]
    split
    · exact h.finish
    · exact h
  | executorFault fault =>
    have hpaused : Moves (Allowed t .checkDepthStale) app (app.mapManagers (·.triggerSafetyPause t.unixMs)) :=
      mapManagers_moves app fun m => triggerSafetyPause_calls m t.unixMs
    exact (h.held.moves hpaused rfl fun _ hresult => by cases hresult).begin _
  | order event => exact h.onOrderEvent ht event
  | tickSizeChanged signal => exact h.onTickSizeChanged signal
  | checkDepthStale => exact h.checkDepthStale
  | checkRiskData => exact h.checkRiskData
  | openOrdersSnapshot snapshot => exact h.onOpenOrdersSnapshot snapshot
  | clearOrdersSignal signal => exact h.onClearOrdersSignal signal
  | checkOrderTimeouts reaches => exact h.checkOrderTimeouts reaches
  | tokenRefresh =>
    have hpaused : Scheduled (app.mapManagers (·.pause)) := h.keeps rfl rfl fun symbol _ =>
      OrderManager.apply_plain _ (.setPauseReason .orderWebSocket) (Or.inl rfl)
    exact hpaused.held.begin _
  | checkPauseRecovery => exact h.checkPauseRecovery
  | publishPosition symbol position => exact h.keeps rfl rfl fun _ _ => .refl _
  | publishEquity equity => exact h.keeps rfl rfl fun _ _ => .refl _

end App

/-! ## The run -/

namespace Recovery

open App (Scheduled handle_scheduled)

/-- An action at a nonzero wall clock, which may go back. -/
def wallStep (s : Recovery) (e : Clocks × Action) : Option Recovery :=
  if e.1.unixMs = 0 then none else s.act e.1 e.2

/-- What every reachable state satisfies. -/
structure Tended (config : AppConfig) (s : Recovery) : Prop where
  config_eq : s.app.config = config
  scheduled : Scheduled s.app
  outstanding : Outstanding s

theorem new_tended {config : AppConfig} (hon : config.orderEnabled = true)
    (managerConfig : String → OrderManagerConfig) (equity : SharedEquity) (startMs : Int) :
    Tended config (new (.new config managerConfig equity startMs)) := by
  have hexecution : ∀ symbol, ((new (.new config managerConfig equity startMs)).app.managers symbol).execution
      = ((ExecutionState.default.setPauseReason .orderWebSocket).setPauseReason .marketData).setPauseReason
        .riskData := by
    intro symbol
    simp only [new, App.new, hon, if_true, OrderManager.setPauseReason, OrderManager.new]
  have hclear : ∀ symbol r, r = .reconciliation ∨ r = .safety ∨ r = .circuitBreaker →
      ((new (.new config managerConfig equity startMs)).app.managers symbol).hasPauseReason r = false := by
    intro symbol r hr
    rw [OrderManager.hasPauseReason, hexecution]
    rcases hr with rfl | rfl | rfl <;> decide
  refine ⟨rfl, ⟨hon, fun symbol _ => hclear symbol _ (Or.inl rfl), ?_, ?_⟩, hon, ?_, ?_⟩
  · intro symbol _ hset
    exact absurd (hset.symm.trans (hclear symbol _ (Or.inr (Or.inl rfl)))) (by decide)
  · intro symbol _ hset
    exact absurd (hset.symm.trans (hclear symbol _ (Or.inr (Or.inr rfl)))) (by decide)
  · simp [new, App.new, hon]
  · simp [new, App.new, hon, Recovery.outstanding]

theorem Tended.step {config : AppConfig} {s s' : Recovery} {e : Clocks × Action} (h : Tended config s)
    (hstep : wallStep s e = some s') : Tended config s' := by
  unfold wallStep at hstep
  split at hstep
  · cases hstep
  · rename_i hms
    have houtstanding := h.outstanding.act hstep
    rcases act_app hstep with ⟨event, _, rfl⟩ | ⟨requests, happ⟩ | hdeliver
    · exact ⟨(s.app.handle_config e.1 event).trans h.config_eq, handle_scheduled h.scheduled hms event,
        houtstanding⟩
    · refine ⟨?_, ?_, houtstanding⟩
      · rw [happ]
        exact h.config_eq
      · rw [happ]
        exact h.scheduled.keeps rfl rfl fun _ _ => .refl _
    · rw [hdeliver] at hstep
      have happ := (h.outstanding.deliver hstep).2
      refine ⟨?_, ?_, houtstanding⟩
      · rw [happ]
        exact h.config_eq
      · rw [happ]
        exact h.scheduled.finish

/-- With the timer running and no reconciliation pending, the periodic check asks for one once the
    cooldown is over. -/
theorem Tended.recovers {config : AppConfig} {s : Recovery} (h : Tended config s)
    (hsecs : config.circuitBreakerRecoverySecs ≠ 0) {symbol : String} (hs : symbol ∈ config.symbols)
    (hset : (s.app.managers symbol).hasPauseReason .circuitBreaker = true)
    (hidle : s.app.reconciliationPending = false) {now : Clocks}
    (hlate : (s.app.managers symbol).circuitBreakerTriggeredAtMs +
      Word64.saturatingMul config.circuitBreakerRecoverySecs 1000 ≤ now.unixMs) :
    (s.app.handle now .checkPauseRecovery).reconciliationPending = true := by
  have htimer : (s.app.managers symbol).circuitBreakerTriggeredAtMs ≠ 0 := by
    rcases h.scheduled.breaker symbol (h.config_eq ▸ hs) hset with hpending | htimer
    · rw [hidle] at hpending
      cases hpending
    · exact htimer
  have hdue := OrderManager.checkCircuitBreakerRecovery_due hset htimer hsecs hlate
  have hany : (s.app.config.symbols.any fun symbol =>
      (App.checkRecovery s.app.config (s.app.managers symbol) now).1) = true := by
    refine List.any_eq_true.mpr ⟨symbol, h.config_eq ▸ hs, ?_⟩
    simp only [App.checkRecovery, h.config_eq, hdue, Bool.true_or]
  have henabled := h.scheduled.enabled
  simp only [App.handle, App.checkPauseRecovery, henabled, hany, Bool.not_true, Bool.false_eq_true,
    if_false, if_true]
  unfold App.beginAccountReconciliation
  simp [App.mapManagers, hidle, henabled]

/-- **No orphaned pause.**  In every reachable state of the application and a worker that stays
    alive: `Reconciliation` is set exactly while one is pending; then exactly one is under way, with
    the current generation, and otherwise none; the next result that is delivered ends it;
    `Safety` is set only while one is pending; `CircuitBreaker` then or while its timer runs, and
    once the cooldown is over the next check asks for a reconciliation. -/
theorem no_orphaned_pause {config : AppConfig} {managerConfig : String → OrderManagerConfig}
    {equity : SharedEquity} {startMs : Int} (hon : config.orderEnabled = true)
    (hsymbols : config.symbols ≠ []) (hsecs : config.circuitBreakerRecoverySecs ≠ 0)
    {es : List (Clocks × Action)} {s : Recovery}
    (h : Runs.exec wallStep (new (.new config managerConfig equity startMs)) es = some s) :
    ((∃ symbol ∈ config.symbols, (s.app.managers symbol).hasPauseReason .reconciliation = true) ↔
      s.app.reconciliationPending = true) ∧
    (s.app.reconciliationPending = true → s.outstanding = [s.app.reconciliationGeneration]) ∧
    (s.app.reconciliationPending = false → s.outstanding = []) ∧
    (∀ now s', s.act now .deliver = some s' → s'.app = s.app.finishAccountReconciliation now) ∧
    (∀ symbol ∈ config.symbols, (s.app.managers symbol).hasPauseReason .safety = true →
      s.app.reconciliationPending = true) ∧
    (∀ symbol ∈ config.symbols, (s.app.managers symbol).hasPauseReason .circuitBreaker = true →
      s.app.reconciliationPending = true ∨
      ((s.app.managers symbol).circuitBreakerTriggeredAtMs ≠ 0 ∧
        ∀ now : Clocks, (s.app.managers symbol).circuitBreakerTriggeredAtMs +
            Word64.saturatingMul config.circuitBreakerRecoverySecs 1000 ≤ now.unixMs →
          (s.app.handle now .checkPauseRecovery).reconciliationPending = true)) := by
  have htended : Tended config s := Runs.exec_invariant (Tended config)
    (fun _ _ _ h hstep => h.step hstep) (new_tended hon managerConfig equity startMs) h
  have hscheduled := htended.scheduled
  have hsame := htended.config_eq
  refine ⟨⟨?_, ?_⟩, ?_, ?_, fun now s' hact => (htended.outstanding.deliver hact).2, ?_, ?_⟩
  · rintro ⟨symbol, hs, hset⟩
    exact (hscheduled.reconciliation symbol (hsame ▸ hs)).symm.trans hset
  · intro hpending
    obtain ⟨symbol, hs⟩ := List.exists_mem_of_ne_nil _ hsymbols
    exact ⟨symbol, hs, (hscheduled.reconciliation symbol (hsame ▸ hs)).trans hpending⟩
  · intro hpending
    rw [htended.outstanding.underWay, if_pos hpending]
  · intro hidle
    rw [htended.outstanding.underWay, hidle]
    rfl
  · exact fun symbol hs => hscheduled.safety symbol (hsame ▸ hs)
  · intro symbol hs hset
    rcases hscheduled.breaker symbol (hsame ▸ hs) hset with hpending | htimer
    · exact Or.inl hpending
    · cases hpending : s.app.reconciliationPending with
      | true => exact Or.inl rfl
      | false => exact Or.inr ⟨htimer, fun now hlate => htended.recovers hsecs hs hset hpending hlate⟩

/-- A token refresh asks for a reconciliation, and the worker has taken it up. -/
theorem no_orphaned_pause_tokenRefresh :
    ∃ s, Runs.exec wallStep (new App.live)
        [(App.atSecond 1, .loop .tokenRefresh), (App.atSecond 2, .receive)] = some s ∧
      s.app.reconciliationPending = true ∧ s.outstanding = [1] :=
  ⟨_, rfl, rfl, (no_orphaned_pause rfl (by decide) (by decide) (show
    Runs.exec wallStep (new (.new .default (fun symbol => { OrderManagerConfig.default with symbol := symbol })
      (.new 1 10 1) 0)) [(App.atSecond 1, .loop .tokenRefresh), (App.atSecond 2, .receive)] = some _
    from rfl)).2.1 rfl⟩

end Recovery

end MarketMaker
