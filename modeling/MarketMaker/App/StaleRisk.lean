import MarketMaker.App.PositionGate
import MarketMaker.Trading.QuoteLoop

/-!
# Stale risk data

`update_risk_pauses` infers from the `RiskData` bit whether data that are stale now were fresh
before.  The bit is also set by the fill gate, by a finished reconciliation and by an invalid
limit, so the inference misses data that go stale while one of these is open.

* `checkRiskData_pending` — when the periodic check leaves a reconciliation pending.
* `setsRiskData_paused`, `quiet_of_not_sets` — which events set the bit between two checks; any
  other event sets it only together with a reconciliation.
* `exec_clear`, `exec_quiet` — the same over a run.
* `stale_data_reconciles` — from one check to the next, for every run of events.
* `stale_data_unreported` — a fill in between hides the stale position, with an order left.
-/

set_option autoImplicit false

namespace MarketMaker.App

open OrderManager (Operation Calls)

/-- The loop body reports exactly the stale data of a manager whose `RiskData` bit is clear. -/
theorem refreshRiskPause_reports (m : OrderManager) (position : SharedPosition) (sourcesFresh : Bool) :
    (refreshRiskPause m position sourcesFresh).1 = (!sourcesFresh && !m.hasPauseReason .riskData) := by
  have hbit : (m.positionRefreshAfterFillComplete position).2.hasPauseReason .riskData
      = m.hasPauseReason .riskData := by
    unfold OrderManager.positionRefreshAfterFillComplete
    split
    · rfl
    · split <;> rfl
  unfold refreshRiskPause
  dsimp only
  rw [hbit]
  cases sourcesFresh with
  | true => cases (m.positionRefreshAfterFillComplete position).1 <;> simp
  | false => cases m.hasPauseReason .riskData <;> simp

/-- A symbol whose data are stale while its `RiskData` bit is clear. -/
def BecameStale (app : App) (now : Clocks) (symbol : String) : Prop :=
  app.sourcesFresh symbol now = false ∧ (app.managers symbol).hasPauseReason .riskData = false

instance (app : App) (now : Clocks) (symbol : String) : Decidable (app.BecameStale now symbol) :=
  inferInstanceAs (Decidable (_ ∧ _))

theorem updateRiskPauses_reports {app : App} (hon : app.config.orderEnabled = true) (now : Clocks) :
    (app.updateRiskPauses now).1 = true ↔ ∃ symbol ∈ app.config.symbols, app.BecameStale now symbol := by
  unfold updateRiskPauses
  simp only [hon, Bool.not_true, Bool.false_eq_true, if_false, List.any_eq_true, refreshRiskPause_reports,
    BecameStale, Bool.and_eq_true, Bool.not_eq_true']

theorem updateRiskPauses_pending (app : App) (now : Clocks) :
    (app.updateRiskPauses now).2.reconciliationPending = app.reconciliationPending := by
  unfold updateRiskPauses
  split <;> rfl

theorem updateRiskPauses_config (app : App) (now : Clocks) :
    (app.updateRiskPauses now).2.config = app.config := by
  unfold updateRiskPauses
  split <;> rfl

/-- **When the periodic check leaves a reconciliation pending.** -/
theorem checkRiskData_pending {app : App} (hon : app.config.orderEnabled = true) (now : Clocks) :
    (app.checkRiskData now).reconciliationPending = true ↔
      app.reconciliationPending = true ∨ ∃ symbol ∈ app.config.symbols, app.BecameStale now symbol := by
  have hon' : (app.updateRiskPauses now).2.config.orderEnabled = true := by
    rw [updateRiskPauses_config]
    exact hon
  unfold checkRiskData
  dsimp only
  split
  · rename_i hreported
    constructor
    · exact fun _ => Or.inr ((updateRiskPauses_reports hon now).mp hreported)
    · exact fun _ => beginAccountReconciliation_pending hon' _
  · rename_i hsilent
    rw [updateRiskPauses_pending]
    constructor
    · exact Or.inl
    · rintro (hpending | hstale)
      · exact hpending
      · exact absurd ((updateRiskPauses_reports hon now).mpr hstale) hsilent

/-! ## What sets the bit between two checks -/

/-- A depth message that is accepted asks the symbol's manager for a quote with a limit that is not
    positive. -/
def InvalidLimit (app : App) (now : Clocks) (symbol : String) (book : DepthSnapshot) (quote : Quote) : Prop :=
  book.symbol = symbol ∧ app.hasManager symbol = true ∧
    ((app.depth symbol).accept book now.monotonicNs app.depthThresholdNs).isSome = true ∧
    ((app.managers symbol).clearPauseReason .marketData).quoteGate app.sharedEquity.maxPositionDollar quote
      = .invalidLimit

/-- The events that set `RiskData` and leave it at that: those that shut the gate, and a quote that
    meets an invalid limit. -/
def SetsRiskData (app : App) (symbol : String) (e : Clocks × Event) : Prop :=
  app.Affects symbol e.2 ∨
    match e.2 with
    | .market (.depthBook book (some quote) _) => (app.checkDepthStale e.1).InvalidLimit e.1 symbol book quote
    | _ => False

/-- The decisions are dispatched on the manager as it was when they were made. -/
theorem dispatchAll_installed (app : App) (symbol : String) (m : OrderManager) (ds : List OrderDecision)
    (reaches : Nat → Bool) (onFailure : OrderManager → OrderDecision → OrderManager) (now : Clocks) :
    app.dispatchAll symbol m ds reaches onFailure now =
      dispatchAll { app with managers := Function.update app.managers symbol m } symbol m ds reaches
        onFailure now := by
  unfold dispatchAll
  simp only [Function.update_idem]

/-- Past the call of `on_quote_into` a quote only dispatches and gives up. -/
theorem processQuote_after (app : App) (hon : app.config.orderEnabled = true) {now : Clocks}
    {symbol : String} (hmanager : app.hasManager symbol = true) {quote : Quote}
    (hvalid : quote.validForTrading = true) (hmid : quote.midPrice.any (fun mid => decide (0 < mid)) = true)
    (reaches : Nat → Bool) :
    Calls (Allowed now (.market .other))
      (((app.managers symbol).clearPauseReason .marketData).onQuoteInto (app.positions symbol).position
        app.sharedEquity.maxPositionDollar quote now.unixNs).1
      ((app.processQuote symbol quote reaches now).managers symbol) := by
  unfold processQuote
  simp only [hon, hvalid, hmid, hmanager, Bool.and_self, if_true]
  generalize ((app.managers symbol).clearPauseReason .marketData).onQuoteInto (app.positions symbol).position
    app.sharedEquity.maxPositionDollar quote now.unixNs = r
  obtain ⟨m, ds⟩ := r
  dsimp only
  rw [dispatchAll_installed]
  generalize happ : { app with managers := Function.update app.managers symbol m } = app₁
  have hm : app₁.managers symbol = m := by
    rw [← happ]
    exact Function.update_self ..
  have hdispatch : Moves (Allowed now (.market .other)) app₁
      (app₁.dispatchAll symbol m ds reaches OrderManager.onDispatchFailed now).2 :=
    dispatchAll_moves app₁ symbol ds reaches now Rollback.allowed onDispatchFailed_calls
      (by rw [hm]; exact .done m)
  have hcalls := hdispatch.managers symbol
  rw [hm] at hcalls
  split
  · exact hcalls.trans (((mapManagers_moves _ fun _ => triggerSafetyPause_calls _ _).trans
      (beginAccountReconciliation_moves _ _)).managers symbol)
  · exact hcalls

theorem quoteGate_invalidLimit {m : OrderManager} {limit : ℚ} {quote : Quote}
    (h : m.quoteGate limit quote = .invalidLimit) :
    quote.validForTrading = true ∧ quote.midPrice.any (fun mid => decide (0 < mid)) = true ∧ limit ≤ 0 := by
  unfold OrderManager.quoteGate at h
  cases hmid : quote.midPrice with
  | none =>
    rw [hmid] at h
    split_ifs at h
  | some mid =>
    cases hquantity : quote.quantity with
    | none =>
      rw [hmid, hquantity] at h
      split_ifs at h
    | some quantity =>
      rw [hmid, hquantity] at h
      dsimp only at h
      split_ifs at h with hpaused hvalid hpositive hlimit
      · exact ⟨by simpa using hvalid, by simpa using not_le.mp (not_or.mp hpositive).1, hlimit⟩
      · split at h <;> cases h

/-- An invalid limit sets the bit. -/
theorem onMarketEvent_sets {app : App} (hon : app.config.orderEnabled = true) {now : Clocks}
    {symbol : String} {book : DepthSnapshot} {quote : Quote} (reaches : Nat → Bool)
    (h : (app.checkDepthStale now).InvalidLimit now symbol book quote) :
    ((app.onMarketEvent (.depthBook book (some quote) reaches) now).managers symbol).hasPauseReason .riskData
      = true := by
  obtain ⟨rfl, hmanager, haccepted, hgate⟩ := h
  obtain ⟨hvalid, hmid, _⟩ := quoteGate_invalidLimit hgate
  have hon' : (app.checkDepthStale now).config.orderEnabled = true := by
    rw [(checkDepthStale_moves (t := now) (e := .checkDepthStale) app).config]
    exact hon
  unfold onMarketEvent
  generalize app.checkDepthStale now = checked at *
  obtain ⟨depth, hdepth⟩ := Option.isSome_iff_exists.mp haccepted
  generalize hnext : { checked with depth := Function.update checked.depth book.symbol depth } = next
  have hcalls : Calls (Allowed now (.market .other))
      (((checked.managers book.symbol).clearPauseReason .marketData).onQuoteInto
        (checked.positions book.symbol).position checked.sharedEquity.maxPositionDollar quote now.unixNs).1
      ((next.processQuote book.symbol quote reaches now).managers book.symbol) := by
    subst hnext
    exact processQuote_after { checked with depth := Function.update checked.depth book.symbol depth } hon'
      hmanager hvalid hmid reaches
  have hset : (((checked.managers book.symbol).clearPauseReason .marketData).onQuoteInto
      (checked.positions book.symbol).position checked.sharedEquity.maxPositionDollar quote
      now.unixNs).1.hasPauseReason .riskData = true := by
    unfold OrderManager.hasPauseReason
    rw [OrderManager.onQuoteInto_execution_invalidLimit hgate]
    exact ExecutionState.hasPauseReason_set_self _ _
  have hcontains : checked.config.symbols.contains book.symbol = true := hmanager
  simp only [processEvent, processDepthBook, hcontains, if_true, hdepth, Bool.false_eq_true, if_false, hnext]
  exact (calls_paused (by simp) hcalls hset).1

/-- **What sets the bit**, in any state. -/
theorem setsRiskData_paused {app : App} (hon : app.config.orderEnabled = true) {symbol : String}
    {e : Clocks × Event} (h : app.SetsRiskData symbol e) :
    ((app.handle e.1 e.2).managers symbol).hasPauseReason .riskData = true := by
  rcases h with haffects | hlimit
  · exact (affected_shuts e.1 haffects).paused
  · obtain ⟨now, e⟩ := e
    dsimp only at hlimit
    split at hlimit
    · exact onMarketEvent_sets hon _ hlimit
    · exact hlimit.elim

/-! ## What leaves it clear -/

/-- Across this the bit of a symbol is set only together with a reconciliation. -/
structure Quiet (symbol : String) (app app' : App) : Prop where
  pending : app.reconciliationPending = true → app'.reconciliationPending = true
  clear : (app.managers symbol).hasPauseReason .riskData = false →
    app'.reconciliationPending = true ∨ (app'.managers symbol).hasPauseReason .riskData = false

/-- The operations that do not set `RiskData`. -/
def Harmless (op : Operation) : Prop := ¬ op.Sets .riskData

namespace Quiet

variable {symbol : String} {app app' app'' : App}

theorem refl (app : App) : Quiet symbol app app := ⟨id, Or.inr⟩

theorem trans (h : Quiet symbol app app') (h' : Quiet symbol app' app'') : Quiet symbol app app'' := by
  refine ⟨fun hpending => h'.pending (h.pending hpending), fun hclear => ?_⟩
  rcases h.clear hclear with hpending | hclear'
  · exact Or.inl (h'.pending hpending)
  · exact h'.clear hclear'

theorem of_pending (h : app'.reconciliationPending = true) : Quiet symbol app app' :=
  ⟨fun _ => h, fun _ => Or.inl h⟩

/-- A reconciliation that is asked for is pending afterwards. -/
theorem begun (hon : app'.config.orderEnabled = true) (reason : String) :
    Quiet symbol app (app'.beginAccountReconciliation reason) :=
  of_pending (beginAccountReconciliation_pending hon reason)

theorem of_same (hpending : app'.reconciliationPending = app.reconciliationPending)
    (hmanager : app'.managers symbol = app.managers symbol) : Quiet symbol app app' :=
  ⟨fun h => hpending.trans h, fun h => Or.inr (by rw [hmanager]; exact h)⟩

theorem moves (h : Moves Harmless app app') : Quiet symbol app app' := by
  refine ⟨fun hpending => ?_, fun hclear => Or.inr ?_⟩
  · rcases h.reconciliation with hidle | hbegin
    · exact hidle.pending.trans hpending
    · exact hbegin.pending
  · exact (h.managers symbol).preserves (fun m => m.hasPauseReason .riskData = false)
      (fun _ _ hop hm => OrderManager.apply_gains_reason hop hm) hclear

theorem begin (app : App) (reason : String) : Quiet symbol app (app.beginAccountReconciliation reason) := by
  unfold beginAccountReconciliation
  split
  · exact refl app
  · exact of_pending rfl

end Quiet

theorem Rollback.harmless {nowMs : Nat} (op : Operation) (h : Rollback nowMs op) : Harmless op := by
  cases op with
  | dispatchFailed | triggerSafetyPause => simp [Harmless, Operation.Sets]
  | _ => exact h.elim

section Arms

variable {app : App} {now : Clocks} {symbol : String}

theorem mapManagers_quiet (app : App) (f : OrderManager → OrderManager)
    (hf : ∀ m, Calls Harmless m (f m)) : Quiet symbol app (app.mapManagers f) :=
  .moves (mapManagers_moves app hf)

theorem checkDepthStale_quiet : Quiet symbol app (app.checkDepthStale now) := by
  have hmarked : Quiet symbol app (app.markDepthStale now) :=
    .moves (markDepthStale_moves app (by simp [Harmless, Operation.Sets]))
  rw [checkDepthStale_eq]
  split
  · exact hmarked.trans (.begin _ _)
  · exact hmarked

theorem dispatchAll_quiet {m : OrderManager} (s : String) (ds : List OrderDecision) (reaches : Nat → Bool)
    (hm : s = symbol → (app.managers symbol).hasPauseReason .riskData = false →
      m.hasPauseReason .riskData = false) :
    Quiet symbol app (app.dispatchAll s m ds reaches OrderManager.onDispatchFailed now).2 := by
  by_cases hs : s = symbol
  · subst hs
    rw [dispatchAll_installed]
    generalize hnext : { app with managers := Function.update app.managers s m } = next
    have hinstalled : next.managers s = m := by
      rw [← hnext]
      exact Function.update_self ..
    have hfirst : Quiet s app next := by
      refine ⟨fun h => by rw [← hnext]; exact h, fun h => Or.inr ?_⟩
      rw [hinstalled]
      exact hm rfl h
    have hdispatch : Moves Harmless next
        (next.dispatchAll s m ds reaches OrderManager.onDispatchFailed now).2 := by
      refine dispatchAll_moves next s ds reaches now Rollback.harmless (fun m d => ?_) ?_
      · exact .one (.dispatchFailed d) (by simp [Harmless, Operation.Sets])
      · rw [hinstalled]
        exact .done m
    exact hfirst.trans (.moves hdispatch)
  · exact .of_same (dispatchAll_pending ..) (dispatchAll_managers_of_ne app (Ne.symm hs) ..)

/-- A quote that meets no invalid limit. -/
theorem processQuote_quiet (s : String) (quote : Quote) (reaches : Nat → Bool)
    (hlimit : s = symbol → app.hasManager symbol = true →
      ((app.managers symbol).clearPauseReason .marketData).quoteGate app.sharedEquity.maxPositionDollar quote
        ≠ .invalidLimit) :
    Quiet symbol app (app.processQuote s quote reaches now) := by
  unfold processQuote
  split
  · rename_i hquoted
    have hmanager : app.hasManager s = true := by
      simp only [Bool.and_eq_true] at hquoted
      exact hquoted.2
    have hdispatch : Quiet symbol app (app.dispatchAll s
        (((app.managers s).clearPauseReason .marketData).onQuoteInto (app.positions s).position
          app.sharedEquity.maxPositionDollar quote now.unixNs).1
        (((app.managers s).clearPauseReason .marketData).onQuoteInto (app.positions s).position
          app.sharedEquity.maxPositionDollar quote now.unixNs).2
        reaches OrderManager.onDispatchFailed now).2 := by
      refine dispatchAll_quiet s _ reaches ?_
      rintro rfl hclear
      unfold OrderManager.hasPauseReason
      rw [OrderManager.onQuoteInto_execution_of_ne (hlimit rfl hmanager)]
      exact (ExecutionState.hasPauseReason_clear_of_ne _ (by decide)).trans hclear
    dsimp only
    split
    · exact (hdispatch.trans (mapManagers_quiet _ _ fun m => .one (.triggerSafetyPause now.unixMs)
        (by simp [Harmless, Operation.Sets]))).trans (.begin _ _)
    · exact hdispatch
  · exact .refl app

theorem onMarketEvent_quiet (hon : app.config.orderEnabled = true) (event : WsEvent)
    (h : ¬ app.SetsRiskData symbol (now, .market event)) :
    Quiet symbol app (app.onMarketEvent event now) := by
  have hchecked : Quiet symbol app (app.checkDepthStale now) := checkDepthStale_quiet
  cases event with
  | disconnected =>
    have hon' : ((app.checkDepthStale now).processEvent .disconnected now).2.config.orderEnabled = true := by
      show (app.checkDepthStale now).config.orderEnabled = true
      rw [(checkDepthStale_moves (t := now) (e := .checkDepthStale) app).config]
      exact hon
    exact .begun hon' _
  | connected => exact hchecked.trans (.of_same rfl rfl)
  | other => exact hchecked
  | depthBook book quote reaches =>
    refine hchecked.trans ?_
    show Quiet symbol _ ((app.checkDepthStale now).processDepthBook book quote reaches now)
    generalize hnext : app.checkDepthStale now = checked
    unfold processDepthBook
    split
    · rename_i hcontains
      cases haccept : (checked.depth book.symbol).accept book now.monotonicNs checked.depthThresholdNs with
      | none => exact .refl checked
      | some depth =>
        cases quote with
        | none => exact .of_same rfl rfl
        | some quote =>
          generalize hset : { checked with depth := Function.update checked.depth book.symbol depth } = next
          have hlimit : book.symbol = symbol → next.hasManager symbol = true →
              ((next.managers symbol).clearPauseReason .marketData).quoteGate
                next.sharedEquity.maxPositionDollar quote ≠ .invalidLimit := by
            subst hset
            rintro rfl hmanager hgate
            refine h (Or.inr ?_)
            show (app.checkDepthStale now).InvalidLimit now book.symbol book quote
            rw [hnext]
            exact ⟨rfl, hcontains, by rw [haccept]; rfl, hgate⟩
          have hdepth : Quiet symbol checked next := by
            subst hset
            exact .of_same rfl rfl
          have hquote : Quiet symbol next (next.processQuote book.symbol quote reaches now) :=
            processQuote_quiet book.symbol quote reaches hlimit
          subst hset
          exact hdepth.trans hquote
    · exact .refl checked

/-! ### Order events -/

theorem onFilled_quiet {orderId : Int}
    {clOrdId status : Option String} {fillQty : String}
    (h : ¬ (validFillQty fillQty = false ∨ fillStatus status = .ambiguous ∨
      app.fillTarget orderId clOrdId = none ∨ app.fillTarget orderId clOrdId = some symbol)) :
    Quiet symbol app (app.onFilled orderId clOrdId status fillQty) := by
  simp only [not_or] at h
  obtain ⟨hvalid, hstatus, hsome, hother⟩ := h
  have hvalid' : (!validFillQty fillQty) = false := by simpa using hvalid
  obtain ⟨s, hs⟩ := Option.ne_none_iff_exists'.mp hsome
  have hne : symbol ≠ s := fun heq => hother (heq ▸ hs)
  unfold onFilled
  rw [hvalid', if_neg Bool.false_ne_true]
  split
  · rename_i hambiguous
    exact absurd hambiguous hstatus
  · have hmatched : Quiet symbol app (app.modifyManager s fun m =>
        (m.onOrderFill (app.positions s) orderId clOrdId (fillStatus status == .full)).2) :=
      .of_same rfl (Function.update_of_ne hne ..)
    simp only [matchFill_target, hs, Bool.not_true, Bool.false_eq_true, if_false]
    split
    · exact hmatched.trans (.begin _ _)
    · exact hmatched

theorem onAccepted_quiet (clOrdId : String) (orderId : Int) :
    Quiet symbol app (app.onAccepted clOrdId orderId) := by
  unfold onAccepted
  split
  · rename_i s _
    split
    · have haccepted : Quiet symbol app { app with
          managers := Function.update app.managers s ((app.managers s).onOrderAccepted clOrdId orderId).2 } :=
        .moves (.withManager (.one (.accepted clOrdId orderId) (by simp [Harmless, Operation.Sets])))
      dsimp only
      split
      · exact haccepted
      · exact haccepted.trans (.begin _ _)
    · exact .begin _ _
  · exact .begin _ _

theorem onOrderEvent_quiet (hon : app.config.orderEnabled = true) (event : OrderEvent)
    (h : ¬ app.Affects symbol (.order event)) : Quiet symbol app (app.onOrderEvent event now) := by
  cases event with
  | orderAccepted clOrdId orderId =>
    simp only [onOrderEvent]
    split
    · exact .refl app
    · exact onAccepted_quiet clOrdId orderId
  | orderRejected clOrdId reason =>
    simp only [onOrderEvent, onRejected]
    split
    · exact .refl app
    · split
      · split
        · exact .moves (.withManager (.one (.rejected clOrdId now.unixMs)
            (by simp [Harmless, Operation.Sets])))
        · exact .refl app
      · exact .refl app
  | orderFilled orderId clOrdId status fillQty fillPrice => exact onFilled_quiet h
  | orderCanceled orderId clOrdId =>
    exact .moves (onCanceled_moves app orderId clOrdId (fun _ => by simp [Harmless, Operation.Sets])
      (by simp [Harmless, Operation.Sets]))
  | cancelFailed orderId reason =>
    have hfailed : Quiet symbol app (app.mapManagers (·.onCancelFailed orderId)) :=
      mapManagers_quiet app _ fun _ => .one (.cancelFailed orderId) (by simp [Harmless, Operation.Sets])
    simp only [onOrderEvent, onCancelFailed]
    split
    · exact hfailed.trans (.begin _ _)
    · exact hfailed
  | authenticated =>
    exact mapManagers_quiet app _ fun _ => .one (.clearPauseReason .orderWebSocket)
      (by simp [Harmless, Operation.Sets])
  | disconnected reason =>
    have hon' : (app.mapManagers (·.pause)).config.orderEnabled = true := hon
    exact .begun hon' _
  | cancelSubmissionAcknowledged | ambiguousResponse => exact .begin _ _
  | connected | orderSubmissionAcknowledged | reconnecting | maxRetriesExceeded | error => exact .refl app

/-! ### Periodic checks -/

theorem confirmOrders_harmless {s : String} {position : SharedPosition} {confirmed n : Nat}
    {os : List ObservedOpenOrder} {m : OrderManager}
    (h : (confirmOrders s position m confirmed os).2 = .ok n) :
    Calls Harmless m (confirmOrders s position m confirmed os).1 := by
  induction os generalizing m confirmed with
  | nil => exact .done m
  | cons o os ih =>
    unfold confirmOrders at h ⊢
    cases hid : o.clOrdId with
    | none =>
      simp only [hid] at h
      cases h
    | some clOrdId =>
      simp only [hid] at h ⊢
      split at h
      · rename_i hskip
        rw [if_pos hskip]
        exact ih h
      · rename_i htracked
        rw [if_neg htracked]
        cases hfill : fillFault s clOrdId o with
        | some fault =>
          simp only [hfill] at h
          cases h
        | none =>
          simp only [hfill] at h ⊢
          split at h
          · rename_i haccepted
            rw [if_pos haccepted]
            exact .call (.accepted clOrdId o.orderId) (by simp [Harmless, Operation.Sets]) (ih h)
          · cases h

/-- A snapshot without a fault sets nothing. -/
theorem applySnapshot_harmless {m : OrderManager} {position : SharedPosition}
    {snapshot : OpenOrdersSnapshot} {n : Nat} (h : (applySnapshot m position snapshot).2 = .ok n) :
    Calls Harmless m (applySnapshot m position snapshot).1 := by
  unfold applySnapshot at h ⊢
  split at h
  · rename_i hskip
    rw [if_pos hskip]
    exact .done m
  · rename_i hreconciling
    rw [if_neg hreconciling]
    split at h
    · cases h
    · split at h
      · cases h
      · exact confirmOrders_harmless h

theorem onOpenOrdersSnapshot_quiet (hon : app.config.orderEnabled = true) (snapshot : OpenOrdersSnapshot) :
    Quiet symbol app (app.onOpenOrdersSnapshot snapshot) := by
  have hconfig : (app.applyOpenOrdersSnapshot snapshot).1.config = app.config :=
    (applyOpenOrdersSnapshot_moves (t := ⟨0, 0⟩) (e := .checkDepthStale) app snapshot).config
  have hquiet : ∀ n, (app.applyOpenOrdersSnapshot snapshot).2 = .ok n →
      Quiet symbol app (app.applyOpenOrdersSnapshot snapshot).1 := by
    intro n hok
    unfold applyOpenOrdersSnapshot at hok ⊢
    split at hok
    · rename_i hold
      rw [if_pos hold]
      exact .refl app
    · rename_i hnew
      rw [if_neg hnew]
      split at hok
      · rename_i hmanager
        rw [if_pos hmanager]
        exact .moves (.withManager (applySnapshot_harmless hok))
      · cases hok
  unfold onOpenOrdersSnapshot
  generalize app.applyOpenOrdersSnapshot snapshot = r at hconfig hquiet ⊢
  obtain ⟨app', outcome⟩ := r
  cases outcome with
  | ok n => exact hquiet n rfl
  | error fault =>
    have hon' : app'.config.orderEnabled = true := by
      rw [show app'.config = app.config from hconfig]
      exact hon
    exact .begun hon' _

theorem checkOrderTimeouts_quiet (reaches : String → Nat → Bool) :
    Quiet symbol app (app.checkOrderTimeouts reaches now) := by
  unfold checkOrderTimeouts
  split
  · exact .refl app
  · have hloop : Quiet symbol app (timeoutLoop reaches now app.config.symbols app).2.2 :=
      .moves (timeoutLoop_moves reaches now Rollback.harmless (by simp [Harmless, Operation.Sets]) _ app)
    dsimp only
    split
    · exact hloop.trans (.begin _ _)
    · split
      · exact hloop.trans (.begin _ _)
      · exact hloop

theorem checkPauseRecovery_quiet : Quiet symbol app (app.checkPauseRecovery now) := by
  unfold checkPauseRecovery
  split
  · exact .refl app
  · have hchecked : Quiet symbol app (app.mapManagers fun m => (checkRecovery app.config m now).2) :=
      mapManagers_quiet app _ fun m =>
        .call (.checkCircuitBreakerRecovery _ _) (by simp [Harmless, Operation.Sets])
          (.one (.checkSafetyPauseRecovery _ _) (by simp [Harmless, Operation.Sets]))
    dsimp only
    split
    · exact hchecked.trans (.begin _ _)
    · exact hchecked

theorem onClearOrdersSignal_quiet (signal : ClearOrdersSignal) :
    Quiet symbol app (app.onClearOrdersSignal signal now) := by
  unfold onClearOrdersSignal
  dsimp only
  split
  · exact .refl app
  · refine Quiet.trans ?_ (.begin _ _)
    split
    · exact .moves (.withManager (.one (.triggerSafetyPause now.unixMs) (by simp [Harmless, Operation.Sets])))
    · exact .refl app

end Arms

/-- **What leaves it clear**: between two checks every other event is quiet. -/
theorem quiet_of_not_sets {app : App} (hon : app.config.orderEnabled = true) {symbol : String}
    {e : Clocks × Event} (he : e.2 ≠ .checkRiskData) (h : ¬ app.SetsRiskData symbol e) :
    Quiet symbol app (app.handle e.1 e.2) := by
  obtain ⟨now, e⟩ := e
  cases e with
  | market event => exact onMarketEvent_quiet hon event h
  | reconciliationResult result =>
    have hold : result.generation ≠ app.reconciliationGeneration := fun heq => h (Or.inl heq)
    simp only [handle, onReconciliationResult, if_neg hold]
    exact .refl app
  | executorFault fault =>
    have hon' : (app.mapManagers (·.triggerSafetyPause now.unixMs)).config.orderEnabled = true := hon
    exact .begun hon' _
  | order event => exact onOrderEvent_quiet hon event fun haffects => h (Or.inl haffects)
  | tickSizeChanged signal =>
    refine .of_pending ?_
    have hpending := beginAccountReconciliation_pending hon ("tick/lot size changed for " ++ signal.symbol)
    simp only [handle, onTickSizeChanged]
    split <;> exact hpending
  | checkDepthStale => exact checkDepthStale_quiet
  | checkRiskData => exact absurd rfl he
  | openOrdersSnapshot snapshot => exact onOpenOrdersSnapshot_quiet hon snapshot
  | clearOrdersSignal signal => exact onClearOrdersSignal_quiet signal
  | checkOrderTimeouts reaches => exact checkOrderTimeouts_quiet reaches
  | tokenRefresh =>
    have hon' : (app.mapManagers (·.pause)).config.orderEnabled = true := hon
    exact .begun hon' _
  | checkPauseRecovery => exact checkPauseRecovery_quiet
  | publishPosition | publishEquity => exact .of_same rfl rfl

/-! ## From one check to the next -/

/-- A run without a check: what ends with the bit clear began with it clear, and nothing has set it. -/
theorem exec_clear {app app' : App} (hon : app.config.orderEnabled = true) {symbol : String}
    {es : List (Clocks × Event)} (h : Runs.exec step app es = some app')
    (hes : ∀ e ∈ es, e.2 ≠ .checkRiskData)
    (hclear : (app'.managers symbol).hasPauseReason .riskData = false) :
    (app.managers symbol).hasPauseReason .riskData = false ∧
      Runs.Along step (fun app e => ¬ app.SetsRiskData symbol e) app es := by
  induction es generalizing app with
  | nil =>
    cases h
    exact ⟨hclear, trivial⟩
  | cons e es ih =>
    obtain ⟨next, hnext, hrest⟩ := Runs.exec_cons_some h
    cases hnext
    have hon' : (app.handle e.1 e.2).config.orderEnabled = true := by
      rw [handle_config]
      exact hon
    obtain ⟨hnextClear, hquiet⟩ := ih hon' hrest fun f hf => hes f (List.mem_cons_of_mem e hf)
    refine ⟨?_, fun hsets => ?_, hquiet⟩
    · by_contra hset
      rw [Bool.not_eq_false] at hset
      have hkept := (calls_paused (hes e List.mem_cons_self) (handle_calls app e.1 e.2 symbol) hset).1
      rw [hkept] at hnextClear
      cases hnextClear
    · rw [setsRiskData_paused hon hsets] at hnextClear
      cases hnextClear

/-- A run in which nothing sets the bit is quiet. -/
theorem exec_quiet {app app' : App} (hon : app.config.orderEnabled = true) {symbol : String}
    {es : List (Clocks × Event)} (h : Runs.exec step app es = some app')
    (hes : ∀ e ∈ es, e.2 ≠ .checkRiskData)
    (hquiet : Runs.Along step (fun app e => ¬ app.SetsRiskData symbol e) app es) :
    Quiet symbol app app' := by
  induction es generalizing app with
  | nil =>
    cases h
    exact .refl _
  | cons e es ih =>
    obtain ⟨next, hnext, hrest⟩ := Runs.exec_cons_some h
    obtain ⟨hfirst, hquiet⟩ := Runs.along_cons hquiet hnext
    cases hnext
    have hon' : (app.handle e.1 e.2).config.orderEnabled = true := by
      rw [handle_config]
      exact hon
    exact (quiet_of_not_sets hon (hes e List.mem_cons_self) hfirst).trans
      (ih hon' hrest (fun f hf => hes f (List.mem_cons_of_mem e hf)) hquiet)

/-- The check finds a symbol's data fresh, and its manager waits for no publication. -/
def FoundFresh (app : App) (now : Clocks) (symbol : String) : Prop :=
  app.sourcesFresh symbol now = true ∧
    ((app.managers symbol).positionRefreshAfterFillComplete (app.positions symbol)).1 = true

instance (app : App) (now : Clocks) (symbol : String) : Decidable (app.FoundFresh now symbol) :=
  inferInstanceAs (Decidable (_ ∧ _))

/-- The loop body clears the bit of exactly these. -/
theorem refreshRiskPause_clear (m : OrderManager) (position : SharedPosition) (sourcesFresh : Bool) :
    (refreshRiskPause m position sourcesFresh).2.hasPauseReason .riskData = false ↔
      sourcesFresh = true ∧ (m.positionRefreshAfterFillComplete position).1 = true := by
  unfold refreshRiskPause
  dsimp only
  split
  · rename_i hopen
    rw [Bool.and_eq_true] at hopen
    exact ⟨fun _ => hopen, fun _ => ExecutionState.hasPauseReason_clear_self _ _⟩
  · rename_i hshut
    rw [Bool.and_eq_true] at hshut
    have hset : ∀ m : OrderManager, (m.setPauseReason .riskData).hasPauseReason .riskData = true :=
      fun m => ExecutionState.hasPauseReason_set_self _ _
    have hkept : ∀ m : OrderManager,
        (m.setPauseReason .riskData).beginReconciliation.hasPauseReason .riskData = true :=
      fun m => ExecutionState.hasPauseReason_set_of_has (hset m) .reconciliation
    constructor
    · intro hclear
      split at hclear
      · rw [hkept] at hclear
        cases hclear
      · rw [hset] at hclear
        cases hclear
    · exact fun hopen => absurd hopen hshut

theorem updateRiskPauses_clear {app : App} (hon : app.config.orderEnabled = true) (now : Clocks)
    (symbol : String) :
    ((app.updateRiskPauses now).2.managers symbol).hasPauseReason .riskData = false ↔
      app.FoundFresh now symbol := by
  rw [FoundFresh, ← refreshRiskPause_clear]
  unfold updateRiskPauses
  simp only [hon, Bool.not_true, Bool.false_eq_true, if_false]

/-- After a check the bit is clear, or a reconciliation pending, if the data were found fresh. -/
theorem checkRiskData_opens {app : App} (hon : app.config.orderEnabled = true) {now : Clocks}
    {symbol : String} (h : app.FoundFresh now symbol) :
    (app.checkRiskData now).reconciliationPending = true ∨
      ((app.checkRiskData now).managers symbol).hasPauseReason .riskData = false := by
  have hclear := (updateRiskPauses_clear hon now symbol).mpr h
  unfold checkRiskData
  dsimp only
  split
  · exact (Quiet.begin _ _).clear hclear
  · exact Or.inr hclear

theorem checkRiskData_found {app : App} (hon : app.config.orderEnabled = true) {now : Clocks}
    {symbol : String} (h : ((app.checkRiskData now).managers symbol).hasPauseReason .riskData = false) :
    app.FoundFresh now symbol := by
  refine (updateRiskPauses_clear hon now symbol).mp ?_
  by_contra hset
  rw [Bool.not_eq_false] at hset
  have hkept : ((app.checkRiskData now).managers symbol).hasPauseReason .riskData = true := by
    unfold checkRiskData
    dsimp only
    split
    · have hcalls : Calls (Allowed now .tokenRefresh) _ _ :=
        (beginAccountReconciliation_moves (app.updateRiskPauses now).2
          "position or equity data became stale").managers symbol
      exact (calls_paused (by simp) hcalls hset).1
    · exact hset
  rw [hkept] at h
  cases h

/-- **From one check to the next.**  After the second check a reconciliation is pending exactly when
    one was pending before it, or some symbol has data that were fresh at the first check and are
    stale at the second, waited for no publication at the first and had its bit set by no event
    in between. -/
theorem stale_data_reconciles {config : AppConfig} (hon : config.orderEnabled = true)
    (managerConfig : String → OrderManagerConfig) (equity : SharedEquity) (startMs : Int)
    {es₁ es₂ : List (Clocks × Event)} {t₁ t₂ : Clocks} {app₁ app₂ : App}
    (hfirst : Runs.exec step (.new config managerConfig equity startMs) es₁ = some app₁)
    (hsecond : Runs.exec step (app₁.handle t₁ .checkRiskData) es₂ = some app₂)
    (hbetween : ∀ e ∈ es₂, e.2 ≠ .checkRiskData) :
    (app₂.handle t₂ .checkRiskData).reconciliationPending = true ↔
      app₂.reconciliationPending = true ∨
        ∃ symbol ∈ config.symbols, app₁.sourcesFresh symbol t₁ = true ∧ app₂.sourcesFresh symbol t₂ = false ∧
          ((app₁.managers symbol).positionRefreshAfterFillComplete (app₁.positions symbol)).1 = true ∧
          Runs.Along step (fun app e => ¬ app.SetsRiskData symbol e) (app₁.handle t₁ .checkRiskData) es₂ := by
  have hconfig₁ : app₁.config = config := exec_config hfirst
  have hon₁ : app₁.config.orderEnabled = true := hconfig₁ ▸ hon
  have hchecked : (app₁.handle t₁ .checkRiskData).config = config := (handle_config ..).trans hconfig₁
  have honChecked : (app₁.handle t₁ .checkRiskData).config.orderEnabled = true := hchecked ▸ hon
  have hconfig₂ : app₂.config = config := (exec_config hsecond).trans hchecked
  have hpending := checkRiskData_pending (hconfig₂ ▸ hon : app₂.config.orderEnabled = true) t₂
  rw [hconfig₂] at hpending
  refine hpending.trans ⟨?_, ?_⟩
  · rintro (hwas | ⟨symbol, hsymbol, hstale, hclear⟩)
    · exact Or.inl hwas
    · obtain ⟨hopened, hquiet⟩ := exec_clear honChecked hsecond hbetween hclear
      obtain ⟨hfresh, hcomplete⟩ := checkRiskData_found hon₁ hopened
      exact Or.inr ⟨symbol, hsymbol, hfresh, hstale, hcomplete, hquiet⟩
  · rintro (hwas | ⟨symbol, hsymbol, hfresh, hstale, hcomplete, hquiet⟩)
    · exact Or.inl hwas
    · have hrun := exec_quiet honChecked hsecond hbetween hquiet
      rcases checkRiskData_opens hon₁ ⟨hfresh, hcomplete⟩ with hbegun | hclear
      · exact Or.inl (hrun.pending hbegun)
      · rcases hrun.clear hclear with hbegun | hclear'
        · exact Or.inl hbegun
        · exact Or.inr ⟨symbol, hsymbol, hstale, hclear'⟩

/-- The position is published once and goes stale with a quote but no fill in between:
    reconciliation starts. -/
theorem stale_data_reconciles_live :
    (((quoting.handle (atSecond 2) .checkRiskData).after [depthQuote 3]).handle (atSecond 12)
      .checkRiskData).reconciliationPending = true := by
  have hon : AppConfig.default.orderEnabled = true := rfl
  have hquiet : ¬ (quoting.handle (atSecond 2) .checkRiskData).SetsRiskData "BTC-USD" (depthQuote 3) := by
    rintro (haffects | hlimit)
    · exact haffects
    · exact absurd (quoteGate_invalidLimit hlimit.2.2.2).2.2 (by decide +kernel)
  refine (stale_data_reconciles hon _ _ 0 (exec_after live firstOrders) (exec_after _ [depthQuote 3])
    (by simp [depthQuote])).mpr ?_
  exact Or.inr ⟨"BTC-USD", by decide, by decide +kernel, by decide +kernel, by decide +kernel, hquiet, trivial⟩

/-- The fill sets `RiskData`; then the position goes stale.  The check starts nothing, although the
    ask is still open. -/
theorem stale_data_unreported :
    ∃ app₁ app₂, Runs.exec step live firstOrders = some app₁ ∧
      Runs.exec step (app₁.handle (atSecond 2) .checkRiskData) [(atSecond 3, firstFill)] = some app₂ ∧
      app₁.sourcesFresh "BTC-USD" (atSecond 2) = true ∧ app₂.sourcesFresh "BTC-USD" (atSecond 12) = false ∧
      (app₂.handle (atSecond 12) .checkRiskData).reconciliationPending = false ∧
      (((app₂.handle (atSecond 12) .checkRiskData).managers "BTC-USD").orders (.sell, 0)).isSome := by
  refine ⟨_, _, exec_after .., exec_after .., ?_⟩
  decide +kernel

end MarketMaker.App
