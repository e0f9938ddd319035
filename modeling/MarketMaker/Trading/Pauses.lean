import MarketMaker.Trading.Operations

/-!
# Pauses and the position gate under the operations

* `apply_execution_rule` — an operation edits the shared execution state by setting and clearing
  the reasons `Sets` and `Clears` name, and in no other way.
* `apply_breaker` — the count and the timer of the circuit breaker belong to few operations.
* `apply_resume_le` — the publication a manager waits for is never moved back; only
  `position_refresh_after_fill_complete` drops it.
* `apply_sent` — `orders_sent` counts the Sends an operation emits; with `RiskData` set there
  are none (`apply_sent_paused`).
-/

set_option autoImplicit false

namespace MarketMaker.OrderManager

/-- The reasons an operation may set. -/
def Operation.Sets : Operation → PauseReason → Prop
  | .quote .., r | .filled .., r | .requirePositionRefresh _, r => r = .riskData
  | .checkTimeouts _, r | .checkPendingTimeouts _, r => r = .reconciliation
  | .rejected .., r => r = .circuitBreaker
  | .cancelFailed _, r => r = .safety ∨ r = .reconciliation
  | .triggerSafetyPause _, r => r = .safety
  | .setPauseReason reason, r => r = reason
  | _, _ => False

/-- The reasons an operation may clear. -/
def Operation.Clears : Operation → PauseReason → Prop
  | .clearPauseReason reason, r => r = reason
  | .finishReconciliation, r => r = .safety ∨ r = .circuitBreaker ∨ r = .reconciliation
  | .resetCircuitBreaker, r => r = .circuitBreaker
  | _, _ => False

/-- How often an operation may bump the generation at most. -/
def Operation.bumps : Operation → Nat
  | .cancelFailed _ => 2
  | .quote .. | .filled .. | .requirePositionRefresh _ | .checkTimeouts _ | .checkPendingTimeouts _
  | .rejected .. | .triggerSafetyPause _ | .setPauseReason _ | .shutdown => 1
  | _ => 0

/-- **Execution rule.**  What the edits named by `Sets` and `Clears` and the shutdown preserve,
    the operation preserves.  `P` may be weakened by every edit that bumps the generation, of
    which there are `bumps` at most. -/
theorem apply_execution_counted {m : OrderManager} {op : Operation} (P : Nat → ExecutionState → Prop)
    (hle : ∀ n s, P (n + 1) s → P n s)
    (hset : ∀ n s r, op.Sets r → P (n + 1) s → P n (s.setPauseReason r))
    (hclear : ∀ n s r, op.Clears r → P n s → P n (s.clearPauseReason r))
    (hshutdown : ∀ n s, P (n + 1) s → P n s.beginShutdown) {n : Nat}
    (h : P (n + op.bumps) m.execution) : P n (m.apply op).1.execution := by
  have timeouts : ∀ (m : OrderManager) (now : Int), op.Sets .reconciliation →
      P (n + 1) m.execution → P n (m.checkTimeouts now).1.execution := by
    intro m now hsets h
    unfold checkTimeouts
    dsimp only
    split
    · exact hle _ _ h
    · exact hset _ _ _ hsets h
  cases op with
  | quote position limit quote now =>
    rcases m.onQuoteInto_execution position limit quote now with hsame | ⟨hrisk, _, _⟩
    · rw [show (m.apply (.quote position limit quote now)).1.execution = m.execution from hsame]
      exact hle _ _ h
    · rw [show (m.apply (.quote position limit quote now)).1.execution
        = m.execution.setPauseReason .riskData from hrisk]
      exact hset _ _ _ rfl h
  | checkTimeouts now => exact timeouts m now rfl h
  | checkPendingTimeouts now =>
    simp only [apply, checkPendingTimeouts]
    split
    · exact hle _ _ h
    · exact timeouts _ now rfl h
  | accepted clOrdId orderId =>
    rcases m.onOrderAccepted_outcome clOrdId orderId with hsame | ⟨_, j, o, haccept⟩
    · simp only [apply, hsame]
      exact h
    · simp only [apply, haccept.execution]
      exact h
  | rejected clOrdId nowMs =>
    have hcounted : P (n + 1) (m.clearOrderByClOrdId clOrdId).countRejection.execution := by
      simpa [Operation.bumps, countRejection, clearOrderByClOrdId] using h
    simp only [apply, onOrderRejected]
    split
    · exact hset _ _ _ rfl hcounted
    · exact hle _ _ hcounted
  | canceled orderId =>
    simp only [apply, onOrderCanceled]
    split
    · simpa [Operation.bumps, countCanceled, clearOrderByExchangeId] using h
    · exact h
  | canceledByClOrdId clOrdId =>
    simp only [apply, onOrderCanceledByClOrdId]
    split
    · simpa [Operation.bumps, countCanceled, clearOrderByClOrdId] using h
    · exact h
  | filled position orderId clOrdId fullyFilled =>
    simp only [apply, onOrderFill]
    split
    · exact hle _ _ h
    · cases fullyFilled <;> exact hset _ _ _ rfl h
  | cancelFailed orderId =>
    simp only [apply, onCancelFailed]
    split
    · exact hle _ _ (hle _ _ h)
    · split
      · exact hset _ _ _ (Or.inr rfl) (hset _ _ _ (Or.inl rfl) h)
      · exact hle _ _ (hle _ _ h)
  | dispatchFailed decision =>
    cases decision with
    | send side level price qty clOrdId =>
      simpa [Operation.bumps, apply, onDispatchFailed, clearOrderByClOrdId] using h
    | noAction | cancel | cancelAndReplace => exact h
  | setPauseReason r => exact hset _ _ _ rfl h
  | clearPauseReason r => exact hclear _ _ _ rfl h
  | triggerSafetyPause nowMs => exact hset _ _ _ rfl h
  | shutdown => exact hshutdown _ _ h
  | requirePositionRefresh position => exact hset _ _ _ rfl h
  | positionRefreshComplete position =>
    simp only [apply, positionRefreshAfterFillComplete]
    split
    · exact h
    · split <;> exact h
  | finishReconciliation =>
    exact hclear _ _ _ (Or.inr (Or.inr rfl))
      (hclear _ _ _ (Or.inr (Or.inl rfl)) (hclear _ _ _ (Or.inl rfl) h))
  | checkCircuitBreakerRecovery recoverySecs nowMs =>
    simp only [apply, checkCircuitBreakerRecovery]
    split <;> exact h
  | checkSafetyPauseRecovery recoverySecs nowMs =>
    simp only [apply, checkSafetyPauseRecovery]
    split <;> exact h
  | resetCircuitBreaker => exact hclear _ _ _ rfl h
  | initializePositionBaseline position =>
    simp only [apply, initializePositionBaseline]
    split <;> exact h
  | setPrecision tick lot minQty hlot => exact h

/-- The execution rule for a property that no edit weakens. -/
theorem apply_execution_rule {m : OrderManager} {op : Operation} (P : ExecutionState → Prop)
    (hset : ∀ s r, op.Sets r → P s → P (s.setPauseReason r))
    (hclear : ∀ s r, op.Clears r → P s → P (s.clearPauseReason r))
    (hshutdown : ∀ s, P s → P s.beginShutdown) (h : P m.execution) : P (m.apply op).1.execution :=
  apply_execution_counted (n := 0) (fun _ => P) (fun _ _ h => h) (fun _ => hset) (fun _ => hclear)
    (fun _ => hshutdown) h

/-- Below the largest generation every operation advances it, by `bumps` at most. -/
theorem apply_advances {m : OrderManager} {op : Operation}
    (h : m.execution.generation + op.bumps ≤ Word64.maxValue) :
    m.execution.Advances (m.apply op).1.execution ∧
      (m.apply op).1.execution.generation ≤ m.execution.generation + op.bumps := by
  refine apply_execution_counted (n := 0) (fun k s => m.execution.Advances s ∧
    s.generation + k ≤ m.execution.generation + op.bumps) ?_ ?_ ?_ ?_ ⟨.refl _, by omega⟩
  · intro k s ⟨hadv, hle⟩
    exact ⟨hadv, by omega⟩
  · intro k s r _ ⟨hadv, hle⟩
    have := s.setPauseReason_generation_le r
    exact ⟨hadv.trans (ExecutionState.advances_setPauseReason (by omega) r), by omega⟩
  · intro k s r _ ⟨hadv, hle⟩
    exact ⟨hadv.trans (s.advances_clearPauseReason r), hle⟩
  · intro k s ⟨hadv, hle⟩
    have hbump : s.beginShutdown.generation ≤ s.generation + 1 := Word64.wrappingAdd_le _ _
    exact ⟨hadv.trans (ExecutionState.advances_beginShutdown (by omega)), by omega⟩

/-- A reason survives every operation that does not clear it. -/
theorem apply_keeps_reason {m : OrderManager} {op : Operation} {r : PauseReason} (hop : ¬ op.Clears r)
    (h : m.hasPauseReason r = true) : (m.apply op).1.hasPauseReason r = true := by
  refine apply_execution_rule (fun s => s.hasPauseReason r = true) ?_ ?_ (fun _ h => h) h
  · intro s r' _ hs
    exact ExecutionState.hasPauseReason_set_of_has hs r'
  · intro s r' hclears hs
    have hne : r' ≠ r := fun heq => hop (heq ▸ hclears)
    rw [ExecutionState.hasPauseReason_clear_of_ne s hne]
    exact hs

/-- A reason appears only through an operation that sets it. -/
theorem apply_gains_reason {m : OrderManager} {op : Operation} {r : PauseReason} (hop : ¬ op.Sets r)
    (h : m.hasPauseReason r = false) : (m.apply op).1.hasPauseReason r = false := by
  refine apply_execution_rule (fun s => s.hasPauseReason r = false) ?_ ?_ (fun _ h => h) h
  · intro s r' hsets hs
    have hne : r' ≠ r := fun heq => hop (heq ▸ hsets)
    rw [ExecutionState.hasPauseReason_set_of_ne s hne]
    exact hs
  · intro s r' _ hs
    by_cases heq : r' = r
    · subst heq
      exact ExecutionState.hasPauseReason_clear_self s r'
    · rw [ExecutionState.hasPauseReason_clear_of_ne s heq]
      exact hs

/-- A manager with a pause reason emits nothing. -/
theorem not_unpaused_of_reason {m : OrderManager} {r : PauseReason} (h : m.hasPauseReason r = true) :
    ¬ m.Unpaused := fun hopen => ExecutionState.pauseReasons_ne_zero h hopen.2

/-! ## The breaker -/

/-- The breaker's count, threshold and timer are as they were. -/
structure BreakerFrame (m m' : OrderManager) : Prop where
  count : m'.consecutiveRejections = m.consecutiveRejections
  threshold : m'.config.circuitBreakerRejections = m.config.circuitBreakerRejections
  timer : m'.circuitBreakerTriggeredAtMs = m.circuitBreakerTriggeredAtMs

theorem BreakerFrame.refl (m : OrderManager) : BreakerFrame m m := ⟨rfl, rfl, rfl⟩

theorem clearFirst_breaker (m : OrderManager) (p : LiveOrder → Bool) :
    BreakerFrame m (m.clearFirst p) := by
  rw [clearFirst_eq]
  exact ⟨rfl, rfl, rfl⟩

theorem onQuoteInto_breaker (m : OrderManager) (position limit : ℚ) (quote : Quote) (now : Int) :
    BreakerFrame m (m.onQuoteInto position limit quote now).1 := by
  refine onQuoteInto_rule (I := fun m' _ => BreakerFrame m m') (.refl m) ⟨rfl, rfl, rfl⟩ ?_
  intro m' ds t i r hI hr
  cases hr <;> exact ⟨hI.count, hI.threshold, hI.timer⟩

theorem checkTimeouts_breaker (m : OrderManager) (now : Int) :
    BreakerFrame m (m.checkTimeouts now).1 := by
  unfold checkTimeouts
  dsimp only
  split <;> exact ⟨rfl, rfl, rfl⟩

/-- The operations that have nothing to do with the breaker. -/
def Operation.LeavesBreaker : Operation → Prop
  | .accepted .. | .rejected .. | .finishReconciliation | .resetCircuitBreaker
  | .checkCircuitBreakerRecovery .. => False
  | _ => True

theorem apply_breaker (m : OrderManager) {op : Operation} (hop : op.LeavesBreaker) :
    BreakerFrame m (m.apply op).1 := by
  cases op with
  | accepted | rejected | finishReconciliation | resetCircuitBreaker | checkCircuitBreakerRecovery =>
    exact hop.elim
  | quote position limit quote now => exact onQuoteInto_breaker m position limit quote now
  | checkTimeouts now => exact checkTimeouts_breaker m now
  | checkPendingTimeouts now =>
    simp only [apply, checkPendingTimeouts]
    split
    · exact .refl m
    · obtain ⟨hcount, hthreshold, htimer⟩ := checkTimeouts_breaker { m with lastTimeoutCheckNs := now } now
      exact ⟨hcount, hthreshold, htimer⟩
  | canceled orderId =>
    simp only [apply, onOrderCanceled]
    split
    · obtain ⟨hcount, hthreshold, htimer⟩ := clearFirst_breaker m fun o => o.orderId == some orderId
      exact ⟨hcount, hthreshold, htimer⟩
    · exact .refl m
  | canceledByClOrdId clOrdId =>
    simp only [apply, onOrderCanceledByClOrdId]
    split
    · obtain ⟨hcount, hthreshold, htimer⟩ := clearFirst_breaker m fun o => o.clOrdId == clOrdId
      exact ⟨hcount, hthreshold, htimer⟩
    · exact .refl m
  | filled position orderId clOrdId fullyFilled =>
    simp only [apply, onOrderFill]
    split
    · exact .refl m
    · cases fullyFilled <;> exact ⟨rfl, rfl, rfl⟩
  | cancelFailed orderId =>
    simp only [apply, onCancelFailed]
    split
    · exact .refl m
    · split <;> exact ⟨rfl, rfl, rfl⟩
  | dispatchFailed decision =>
    cases decision with
    | send side level price qty clOrdId => exact clearFirst_breaker m fun o => o.clOrdId == clOrdId
    | noAction | cancel | cancelAndReplace => exact ⟨rfl, rfl, rfl⟩
  | positionRefreshComplete position =>
    simp only [apply, positionRefreshAfterFillComplete]
    split
    · exact .refl m
    · split <;> exact ⟨rfl, rfl, rfl⟩
  | checkSafetyPauseRecovery recoverySecs nowMs =>
    simp only [apply, checkSafetyPauseRecovery]
    split <;> exact ⟨rfl, rfl, rfl⟩
  | initializePositionBaseline position =>
    simp only [apply, initializePositionBaseline]
    split <;> exact ⟨rfl, rfl, rfl⟩
  | setPauseReason | clearPauseReason | triggerSafetyPause | shutdown | requirePositionRefresh
  | setPrecision => exact ⟨rfl, rfl, rfl⟩

/-! ## The required publication -/

theorem onQuoteInto_resume (m : OrderManager) (position limit : ℚ) (quote : Quote) (now : Int) :
    (m.onQuoteInto position limit quote now).1.resumeAfterPositionVersion
      = m.resumeAfterPositionVersion := by
  refine onQuoteInto_rule (I := fun m' _ => m'.resumeAfterPositionVersion = m.resumeAfterPositionVersion)
    rfl rfl ?_
  intro m' ds t i r hI hr
  cases hr <;> exact hI

/-- A fill or a reconciliation waits for two publications from now, and never for fewer than
    something earlier asked for. -/
theorem requirePositionRefresh_resume (m : OrderManager) (position : SharedPosition) :
    ∃ required, (m.requirePositionRefreshAfterFill position).resumeAfterPositionVersion = some required ∧
      requiredVersion position ≤ required ∧
      ∀ earlier, m.resumeAfterPositionVersion = some earlier → earlier ≤ required := by
  unfold requirePositionRefreshAfterFill
  cases h : m.resumeAfterPositionVersion with
  | none => exact ⟨requiredVersion position, rfl, le_rfl, fun _ h => by cases h⟩
  | some current =>
    refine ⟨max current (requiredVersion position), rfl, le_max_right _ _, fun earlier h => ?_⟩
    cases h
    exact le_max_left _ _

theorem requirePositionRefresh_riskData (m : OrderManager) (position : SharedPosition) :
    (m.requirePositionRefreshAfterFill position).hasPauseReason .riskData = true :=
  ExecutionState.hasPauseReason_set_self _ _

/-- What an operation can do to the required publication. -/
inductive ResumeOutcome (m m' : OrderManager) (op : Operation) : Prop where
  | kept : m'.resumeAfterPositionVersion = m.resumeAfterPositionVersion → ResumeOutcome m m' op
  | required (position : SharedPosition) : m'.resumeAfterPositionVersion
      = (m.requirePositionRefreshAfterFill position).resumeAfterPositionVersion →
      m'.hasPauseReason .riskData = true → ResumeOutcome m m' op
  | dropped (position : SharedPosition) : op = .positionRefreshComplete position →
      m'.resumeAfterPositionVersion = none → ResumeOutcome m m' op

theorem apply_resume (m : OrderManager) (op : Operation) : ResumeOutcome m (m.apply op).1 op := by
  by_cases hevent : op.IsEvent
  · cases hwait : op.touchesWait with
    | false => exact .kept ((apply_eventFrame hevent).resume hwait)
    | true =>
      cases op with
      | filled position orderId clOrdId fullyFilled =>
        simp only [apply, onOrderFill]
        split
        · exact .kept rfl
        · have hpaused := m.requirePositionRefresh_riskData position
          cases fullyFilled <;> exact .required position rfl hpaused
      | requirePositionRefresh position =>
        exact .required position rfl (m.requirePositionRefresh_riskData position)
      | positionRefreshComplete position =>
        simp only [apply, positionRefreshAfterFillComplete]
        split
        · exact .kept rfl
        · split
          · exact .kept rfl
          · exact .dropped position rfl rfl
      | _ => cases hwait
  · cases op with
    | quote position limit quote now => exact .kept (m.onQuoteInto_resume position limit quote now)
    | _ => exact absurd trivial hevent

/-- The required publication is never moved back. -/
theorem apply_resume_le {m : OrderManager} {op : Operation}
    (hop : ∀ position, op ≠ .positionRefreshComplete position) {r : Nat}
    (h : m.resumeAfterPositionVersion = some r) :
    ∃ r', (m.apply op).1.resumeAfterPositionVersion = some r' ∧ r ≤ r' := by
  rcases m.apply_resume op with hkept | ⟨position, hraised, _⟩ | ⟨position, heq, _⟩
  · exact ⟨r, hkept.trans h, le_rfl⟩
  · obtain ⟨required, hrequired, _, hle⟩ := m.requirePositionRefresh_resume position
    exact ⟨required, hraised.trans hrequired, hle r h⟩
  · exact absurd heq (hop position)

/-- A manager that is paused for a publication still to come goes on waiting for it. -/
theorem apply_keeps_waiting {m : OrderManager} {op : Operation} {r : Nat}
    (hclears : ¬ op.Clears .riskData)
    (hread : ∀ position, op = .positionRefreshComplete position → position.updateVersion < r)
    (hrisk : m.hasPauseReason .riskData = true) (hr : m.resumeAfterPositionVersion = some r) :
    (m.apply op).1.hasPauseReason .riskData = true ∧
      ∃ r', (m.apply op).1.resumeAfterPositionVersion = some r' ∧ r ≤ r' := by
  refine ⟨apply_keeps_reason hclears hrisk, ?_⟩
  by_cases hop : ∃ position, op = .positionRefreshComplete position
  · obtain ⟨position, rfl⟩ := hop
    have hpending := hread position rfl
    exact ⟨r, by simp [apply, positionRefreshAfterFillComplete, hr, hpending], le_rfl⟩
  · exact apply_resume_le (fun position heq => hop ⟨position, heq⟩) hr

/-- A manager that waits has `RiskData` set. -/
def WaitsPaused (m : OrderManager) : Prop :=
  m.resumeAfterPositionVersion.isSome = true → m.hasPauseReason .riskData = true

/-- Whatever does not clear `RiskData` keeps waiting managers paused. -/
theorem apply_waitsPaused {m : OrderManager} {op : Operation} (hop : ¬ op.Clears .riskData)
    (h : m.WaitsPaused) : (m.apply op).1.WaitsPaused := by
  intro hwaits
  rcases m.apply_resume op with hkept | ⟨_, _, hpaused⟩ | ⟨_, _, hnone⟩
  · rw [hkept] at hwaits
    exact apply_keeps_reason hop (h hwaits)
  · exact hpaused
  · rw [hnone] at hwaits
    cases hwaits

/-! ## Sends -/

theorem LevelOutcome.sent {m : OrderManager} {t : QuoteTerms} {now : Int} {i : Slot}
    {r : OrderManager × Option OrderDecision} (h : LevelOutcome m t now i r) :
    r.1.stats.ordersSent = m.stats.ordersSent + sends r.2.toList := by
  cases h <;> rfl

/-- `orders_sent` counts the Sends of `on_quote_into`. -/
theorem onQuoteInto_sent (m : OrderManager) (position limit : ℚ) (quote : Quote) (now : Int) :
    (m.onQuoteInto position limit quote now).1.stats.ordersSent
      = m.stats.ordersSent + sends (m.onQuoteInto position limit quote now).2 := by
  refine onQuoteInto_rule (I := fun m' ds => m'.stats.ordersSent = m.stats.ordersSent + sends ds)
    rfl rfl ?_
  intro m' ds t i r hI hr
  rw [hr.sent, hI, sends, sends, sends, List.countP_append]
  omega

/-- `orders_sent` counts the Sends of every operation. -/
theorem apply_sent (m : OrderManager) (op : Operation) :
    (m.apply op).1.stats.ordersSent = m.stats.ordersSent + sends (m.apply op).2 := by
  by_cases hop : op.IsEvent
  · rw [apply_event_sends hop, Nat.add_zero]
    exact (apply_eventFrame hop).sent
  · cases op with
    | quote position limit quote now => exact m.onQuoteInto_sent position limit quote now
    | _ => exact absurd trivial hop

/-- With a pause reason set, no operation emits a Send. -/
theorem apply_sent_paused {m : OrderManager} {r : PauseReason} (h : m.hasPauseReason r = true)
    (op : Operation) : (m.apply op).1.stats.ordersSent = m.stats.ordersSent := by
  rw [apply_sent]
  by_cases hop : op.IsEvent
  · rw [apply_event_sends hop, Nat.add_zero]
  · cases op with
    | quote position limit quote now =>
      simp only [apply, onQuoteInto_paused (not_unpaused_of_reason h)]
      rfl
    | _ => exact absurd trivial hop

end MarketMaker.OrderManager
