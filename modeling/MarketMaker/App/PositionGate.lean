import MarketMaker.App.Calls

/-!
# The position gate

After a fill, a fill that cannot be attributed, a REST observation that suggests one, or a finished
reconciliation, a manager waits for two more position publications and for a check of fresh data.

* `resume_paused` — a manager that waits has `RiskData` set, in every reachable state.
* `affected_shuts` — the events that shut the gate.
* `resume_monotone` — the publication waited for never moves back.
* `position_gate` — no Send until the gate has opened as intended, over every run.
* `saturated_gate_opens` — with the publication count at `u64::MAX` the gate opens at once.
-/

set_option autoImplicit false

namespace MarketMaker.App

open OrderManager (Operation Calls)
open Word64

/-! ## The events that shut the gate -/

/-- A fill matches an order of the symbol's manager. -/
def fillMatched (app : App) (orderId : Int) (clOrdId : Option String) (symbol : String) : Bool :=
  ((app.managers symbol).findSlot (OrderManager.fillMatches orderId clOrdId)).isSome

/-- The manager a fill is applied to: the one its client id names, if an order there matches, and
    otherwise the first with a matching order. -/
def fillTarget (app : App) (orderId : Int) (clOrdId : Option String) : Option String :=
  match (clOrdId.bind OrderManager.extractSymbolFromClOrdId).filter fun symbol =>
      app.hasManager symbol && app.fillMatched orderId clOrdId symbol with
  | some symbol => some symbol
  | none => app.config.symbols.find? (app.fillMatched orderId clOrdId)

/-- The faults that suggest a fill. -/
def RestFault.SuspectsFill : RestFault → Prop
  | .missing .. | .unconfirmed .. | .invalidFill .. | .unsafeFill .. | .partialFill .. => True
  | .noManager .. | .omittedClientId .. | .conflict .. => False

/-- The events after which the manager of a symbol must wait. -/
def Affects (app : App) (symbol : String) : Event → Prop
  | .order (.orderFilled orderId clOrdId status fillQty _) =>
    validFillQty fillQty = false ∨ fillStatus status = .ambiguous ∨
      app.fillTarget orderId clOrdId = none ∨ app.fillTarget orderId clOrdId = some symbol
  | .openOrdersSnapshot snapshot =>
    snapshot.symbol = symbol ∧
      ∃ fault, (app.applyOpenOrdersSnapshot snapshot).2 = .error fault ∧ fault.SuspectsFill
  | .reconciliationResult result => result.generation = app.reconciliationGeneration
  | _ => False

/-- The manager waits for publication `required` or a later one. -/
structure Shut (required : Nat) (m : OrderManager) : Prop where
  paused : m.hasPauseReason .riskData = true
  waits : ∃ r, m.resumeAfterPositionVersion = some r ∧ required ≤ r

theorem shut_requirePositionRefresh (m : OrderManager) (position : SharedPosition) :
    Shut (OrderManager.requiredVersion position) (m.requirePositionRefreshAfterFill position) := by
  obtain ⟨required, hrequired, hle, _⟩ := m.requirePositionRefresh_resume position
  exact ⟨m.requirePositionRefresh_riskData position, required, hrequired, hle⟩

/-! ## Calls outside the periodic check -/

section Calls

variable {now : Clocks} {e : Event} {m m' : OrderManager}

theorem allowed_not_clears_riskData {op : Operation} (he : e ≠ .checkRiskData) (hop : Allowed now e op) :
    ¬ op.Clears .riskData := by
  intro hclears
  cases op with
  | clearPauseReason r => cases hclears; exact he hop
  | finishReconciliation => simp [Operation.Clears] at hclears
  | resetCircuitBreaker => exact hop
  | _ => exact hclears

theorem allowed_not_consumes {op : Operation} (he : e ≠ .checkRiskData) (hop : Allowed now e op)
    (position : SharedPosition) : op ≠ .positionRefreshComplete position := by
  rintro rfl
  exact he hop

/-- Only the periodic check clears `RiskData`; while it is set nothing is sent. -/
theorem calls_paused (he : e ≠ .checkRiskData) (h : Calls (Allowed now e) m m')
    (hm : m.hasPauseReason .riskData = true) :
    m'.hasPauseReason .riskData = true ∧ m'.stats.ordersSent = m.stats.ordersSent := by
  refine h.preserves (fun m' => m'.hasPauseReason .riskData = true ∧ m'.stats.ordersSent = m.stats.ordersSent)
    ?_ ⟨hm, rfl⟩
  intro m' op hop ⟨hpaused, hsent⟩
  exact ⟨OrderManager.apply_keeps_reason (allowed_not_clears_riskData he hop) hpaused,
    (OrderManager.apply_sent_paused hpaused op).trans hsent⟩

theorem calls_resume (he : e ≠ .checkRiskData) (h : Calls (Allowed now e) m m') {r : Nat}
    (hr : m.resumeAfterPositionVersion = some r) :
    ∃ r', m'.resumeAfterPositionVersion = some r' ∧ r ≤ r' := by
  refine h.preserves (fun m' => ∃ r', m'.resumeAfterPositionVersion = some r' ∧ r ≤ r') ?_ ⟨r, hr, le_rfl⟩
  intro m' op hop ⟨r', hr', hle⟩
  obtain ⟨r'', hr'', hle'⟩ := OrderManager.apply_resume_le (allowed_not_consumes he hop) hr'
  exact ⟨r'', hr'', hle.trans hle'⟩

theorem Shut.calls {required : Nat} (he : e ≠ .checkRiskData) (h : Calls (Allowed now e) m m')
    (hm : Shut required m) : Shut required m' := by
  obtain ⟨r, hr, hle⟩ := hm.waits
  obtain ⟨r', hr', hle'⟩ := calls_resume he h hr
  exact ⟨(calls_paused he h hm.paused).1, r', hr', hle.trans hle'⟩

/-- `begin_account_reconciliation` leaves a shut gate shut. -/
theorem Shut.begin {required : Nat} {app : App} {symbol : String}
    (h : Shut required (app.managers symbol)) (reason : String) :
    Shut required ((app.beginAccountReconciliation reason).managers symbol) := by
  have hcalls : Calls (Allowed ⟨0, 0⟩ .tokenRefresh) (app.managers symbol)
      ((app.beginAccountReconciliation reason).managers symbol) :=
    (beginAccountReconciliation_moves app reason).managers symbol
  exact h.calls (by simp) hcalls

end Calls

/-! ## Fills -/

/-- `updateFirst` of an action that leaves a manager alone when it answers `false`. -/
theorem updateFirst_find {f : String → OrderManager → Bool × OrderManager}
    (hf : ∀ symbol m, (f symbol m).1 = false → (f symbol m).2 = m) (symbols : List String) (app : App) :
    updateFirst f symbols app =
      match symbols.find? fun symbol => (f symbol (app.managers symbol)).1 with
      | some symbol => (true, app.modifyManager symbol fun m => (f symbol m).2)
      | none => (false, app) := by
  induction symbols with
  | nil => rfl
  | cons symbol symbols ih =>
    unfold updateFirst
    dsimp only
    cases hanswer : (f symbol (app.managers symbol)).1 with
    | true =>
      simp only [if_true, List.find?_cons, hanswer]
      rfl
    | false =>
      have hsame : app.modifyManager symbol (fun m => (f symbol m).2) = app := by
        simp only [modifyManager, hf symbol _ hanswer, Function.update_eq_self]
      simp only [Bool.false_eq_true, if_false, List.find?_cons, hanswer]
      exact (congrArg (updateFirst f symbols) hsame).trans ih

theorem onOrderFill_matched (m : OrderManager) (position : SharedPosition) (orderId : Int)
    (clOrdId : Option String) (fullyFilled : Bool) :
    (m.onOrderFill position orderId clOrdId fullyFilled).1
      = (m.findSlot (OrderManager.fillMatches orderId clOrdId)).isSome := by
  unfold OrderManager.onOrderFill
  cases m.findSlot (OrderManager.fillMatches orderId clOrdId) <;> rfl

theorem onOrderFill_unmatched (m : OrderManager) (position : SharedPosition) (orderId : Int)
    (clOrdId : Option String) (fullyFilled : Bool)
    (h : (m.onOrderFill position orderId clOrdId fullyFilled).1 = false) :
    (m.onOrderFill position orderId clOrdId fullyFilled).2 = m := by
  unfold OrderManager.onOrderFill at *
  cases hslot : m.findSlot (OrderManager.fillMatches orderId clOrdId) with
  | none => rfl
  | some i => simp [hslot] at h

/-- A matched fill shuts the gate. -/
theorem onOrderFill_shut {m : OrderManager} (position : SharedPosition) {orderId : Int}
    {clOrdId : Option String} (fullyFilled : Bool)
    (h : (m.findSlot (OrderManager.fillMatches orderId clOrdId)).isSome = true) :
    Shut (OrderManager.requiredVersion position)
      (m.onOrderFill position orderId clOrdId fullyFilled).2 := by
  unfold OrderManager.onOrderFill
  obtain ⟨i, hi⟩ := Option.isSome_iff_exists.mp h
  have hshut := shut_requirePositionRefresh m position
  simp only [hi]
  cases fullyFilled with
  | false => exact hshut
  | true => exact ⟨hshut.paused, hshut.waits⟩

/-- A fill is applied to its target, and to no manager when it has none. -/
theorem matchFill_target (app : App) (orderId : Int) (clOrdId : Option String) (fullyFilled : Bool) :
    app.matchFill orderId clOrdId fullyFilled =
      match app.fillTarget orderId clOrdId with
      | some symbol => (true, app.modifyManager symbol fun m =>
          (m.onOrderFill (app.positions symbol) orderId clOrdId fullyFilled).2)
      | none => (false, app) := by
  have hf : ∀ symbol m, (app.fillManager orderId clOrdId fullyFilled symbol m).1 = false →
      (app.fillManager orderId clOrdId fullyFilled symbol m).2 = m := fun symbol m h =>
    onOrderFill_unmatched m (app.positions symbol) orderId clOrdId fullyFilled h
  have hanswer : ∀ symbol, (app.fillManager orderId clOrdId fullyFilled symbol (app.managers symbol)).1
      = app.fillMatched orderId clOrdId symbol := fun symbol => onOrderFill_matched ..
  have hfind := fun symbols => updateFirst_find hf symbols app
  simp only [hanswer] at hfind
  unfold matchFill fillNamed fillTarget
  cases hnamed : clOrdId.bind OrderManager.extractSymbolFromClOrdId with
  | none =>
    simp only [Option.filter_none, Bool.false_eq_true, if_false, hfind]
    rfl
  | some symbol =>
    cases hmanager : app.hasManager symbol with
    | false =>
      simp only [hmanager, Option.filter_some, Bool.false_and, Bool.false_eq_true, if_false, hfind]
      rfl
    | true =>
      cases hmatched : app.fillMatched orderId clOrdId symbol with
      | true => simp [Option.filter_some, hmanager, hmatched, hfind, fillManager]
      | false =>
        simp only [hmanager, hmatched, hfind, Option.filter_some, Bool.true_and, Bool.false_eq_true,
          if_false, if_true, List.find?_cons, List.find?_nil]
        rfl

/-- Managers all shut, and stay so when a reconciliation begins. -/
theorem requireAllPositionRefreshes_shut (app : App) (reason : String) (symbol : String) :
    Shut (OrderManager.requiredVersion (app.positions symbol))
      ((app.requireAllPositionRefreshes.beginAccountReconciliation reason).managers symbol) :=
  Shut.begin (shut_requirePositionRefresh (app.managers symbol) (app.positions symbol)) reason

theorem onFilled_shuts {app : App} {orderId : Int} {clOrdId status : Option String} {fillQty : String}
    {symbol : String}
    (h : validFillQty fillQty = false ∨ fillStatus status = .ambiguous ∨
      app.fillTarget orderId clOrdId = none ∨ app.fillTarget orderId clOrdId = some symbol) :
    Shut (OrderManager.requiredVersion (app.positions symbol))
      ((app.onFilled orderId clOrdId status fillQty).managers symbol) := by
  unfold onFilled
  split
  · exact requireAllPositionRefreshes_shut app _ symbol
  · rename_i hvalid
    split
    · exact requireAllPositionRefreshes_shut app _ symbol
    · rename_i hknown
      have htarget : app.fillTarget orderId clOrdId = none ∨ app.fillTarget orderId clOrdId = some symbol := by
        rcases h with h | h | h
        · simp [h] at hvalid
        · exact absurd h hknown
        · exact h
      simp only [matchFill_target]
      rcases htarget with hnone | hsome
      · simp only [hnone, Bool.not_false, if_true]
        exact requireAllPositionRefreshes_shut app _ symbol
      · have hmatched : app.fillMatched orderId clOrdId symbol = true := by
          unfold fillTarget at hsome
          split at hsome
          · rename_i hfilter
            cases hsome
            have := (Option.filter_eq_some_iff.mp hfilter).2
            simp only [Bool.and_eq_true] at this
            exact this.2
          · exact List.find?_some hsome
        have hshut : Shut (OrderManager.requiredVersion (app.positions symbol))
            ((app.modifyManager symbol fun m => (m.onOrderFill (app.positions symbol) orderId clOrdId
              (fillStatus status == .full)).2).managers symbol) := by
          unfold modifyManager
          simp only [Function.update_self]
          exact onOrderFill_shut (app.positions symbol) _ hmatched
        simp only [hsome, Bool.not_true, Bool.false_eq_true, if_false]
        split
        · exact Shut.begin hshut _
        · exact hshut

/-! ## REST observations -/

theorem confirmOrders_shut {symbol : String} {position : SharedPosition} {fault : RestFault}
    (hfault : fault.SuspectsFill) (os : List ObservedOpenOrder) (m : OrderManager) (confirmed : Nat)
    (h : (confirmOrders symbol position m confirmed os).2 = .error fault) :
    Shut (OrderManager.requiredVersion position) (confirmOrders symbol position m confirmed os).1 := by
  induction os generalizing m confirmed with
  | nil => cases h
  | cons o os ih =>
    unfold confirmOrders at h ⊢
    cases hid : o.clOrdId with
    | none =>
      simp only [hid] at h
      cases h
      exact hfault.elim
    | some clOrdId =>
      simp only [hid] at h ⊢
      split at h
      · rename_i htracked
        rw [if_pos htracked]
        exact ih m confirmed h
      · rename_i htracked
        rw [if_neg htracked]
        cases hfill : fillFault symbol clOrdId o with
        | some found => exact shut_requirePositionRefresh m position
        | none =>
          simp only [hfill] at h ⊢
          split at h
          · rename_i haccepted
            rw [if_pos haccepted]
            exact ih _ _ h
          · cases h
            exact hfault.elim

theorem applySnapshot_shut {m : OrderManager} {position : SharedPosition} {snapshot : OpenOrdersSnapshot}
    {fault : RestFault} (hfault : fault.SuspectsFill)
    (h : (applySnapshot m position snapshot).2 = .error fault) :
    Shut (OrderManager.requiredVersion position) (applySnapshot m position snapshot).1 := by
  unfold applySnapshot at *
  split at h
  · cases h
  · rename_i hreconciling
    rw [if_neg hreconciling]
    split at h
    · exact shut_requirePositionRefresh m position
    · split at h
      · exact shut_requirePositionRefresh m position
      · exact confirmOrders_shut hfault snapshot.orders m 0 h

theorem onOpenOrdersSnapshot_shuts {app : App} {snapshot : OpenOrdersSnapshot} {fault : RestFault}
    (hfault : fault.SuspectsFill) (h : (app.applyOpenOrdersSnapshot snapshot).2 = .error fault) :
    Shut (OrderManager.requiredVersion (app.positions snapshot.symbol))
      ((app.onOpenOrdersSnapshot snapshot).managers snapshot.symbol) := by
  have hshut : Shut (OrderManager.requiredVersion (app.positions snapshot.symbol))
      ((app.applyOpenOrdersSnapshot snapshot).1.managers snapshot.symbol) := by
    unfold applyOpenOrdersSnapshot at *
    split at h
    · cases h
    · rename_i hold
      rw [if_neg hold]
      split at h
      · rename_i hmanager
        rw [if_pos hmanager]
        simp only [Function.update_self]
        exact applySnapshot_shut hfault h
      · cases h
        exact hfault.elim
  unfold onOpenOrdersSnapshot
  generalize app.applyOpenOrdersSnapshot snapshot = r at h hshut ⊢
  obtain ⟨app', outcome⟩ := r
  cases outcome with
  | ok confirmed => cases h
  | error fault' => exact Shut.begin hshut _

/-- **The events that shut the gate**: whoever they affect waits for two more publications. -/
theorem affected_shuts {app : App} {symbol : String} {e : Event} (now : Clocks)
    (h : app.Affects symbol e) :
    Shut (OrderManager.requiredVersion (app.positions symbol)) ((app.handle now e).managers symbol) := by
  cases e with
  | order event =>
    cases event with
    | orderFilled orderId clOrdId status fillQty fillPrice => exact onFilled_shuts h
    | _ => exact h.elim
  | openOrdersSnapshot snapshot =>
    obtain ⟨rfl, fault, hfault, hsuspects⟩ := h
    exact onOpenOrdersSnapshot_shuts hsuspects hfault
  | reconciliationResult result =>
    have hshut := shut_requirePositionRefresh (app.managers symbol) (app.positions symbol)
    have hcurrent : result.generation = app.reconciliationGeneration := h
    simp only [handle, onReconciliationResult, if_pos hcurrent]
    have hallowed : Allowed now (.reconciliationResult result) .finishReconciliation := ⟨result, rfl⟩
    exact hshut.calls (by simp) (.one .finishReconciliation hallowed)
  | _ => exact h.elim

/-! ## The periodic check -/

/-- What the loop body of `update_risk_pauses` does: the gate opens on fresh data and a current
    position, and otherwise `RiskData` is set. -/
inductive RefreshOutcome (m : OrderManager) (position : SharedPosition) (sourcesFresh : Bool)
    (m' : OrderManager) : Prop where
  | opened : sourcesFresh = true → (∀ r, m.resumeAfterPositionVersion = some r → r ≤ position.updateVersion) →
      m'.resumeAfterPositionVersion = none → m'.stats.ordersSent = m.stats.ordersSent →
      RefreshOutcome m position sourcesFresh m'
  | shut : m'.hasPauseReason .riskData = true →
      (∀ r, m.resumeAfterPositionVersion = some r →
        m'.resumeAfterPositionVersion = some r ∨ r ≤ position.updateVersion) →
      m'.stats.ordersSent = m.stats.ordersSent → RefreshOutcome m position sourcesFresh m'

theorem refreshRiskPause_outcome (m : OrderManager) (position : SharedPosition) (sourcesFresh : Bool) :
    RefreshOutcome m position sourcesFresh (refreshRiskPause m position sourcesFresh).2 := by
  have hconsumed : ∀ r, m.resumeAfterPositionVersion = some r →
      (m.positionRefreshAfterFillComplete position).2.resumeAfterPositionVersion = some r ∨
        r ≤ position.updateVersion := by
    intro r hr
    unfold OrderManager.positionRefreshAfterFillComplete
    simp only [hr]
    split
    · exact Or.inl hr
    · rename_i hreached
      exact Or.inr (not_lt.mp hreached)
  have hcurrent : (m.positionRefreshAfterFillComplete position).1 = true →
      (m.positionRefreshAfterFillComplete position).2.resumeAfterPositionVersion = none := by
    unfold OrderManager.positionRefreshAfterFillComplete
    split
    · rename_i hnone
      exact fun _ => hnone
    · split
      · exact fun h => by cases h
      · exact fun _ => rfl
  have hsent : (m.positionRefreshAfterFillComplete position).2.stats.ordersSent = m.stats.ordersSent := by
    unfold OrderManager.positionRefreshAfterFillComplete
    split
    · rfl
    · split <;> rfl
  unfold refreshRiskPause
  generalize m.positionRefreshAfterFillComplete position = r at hconsumed hcurrent hsent ⊢
  obtain ⟨current, m₁⟩ := r
  dsimp only at hconsumed hcurrent hsent ⊢
  split
  · rename_i hopen
    rw [Bool.and_eq_true] at hopen
    have hnone : m₁.resumeAfterPositionVersion = none := hcurrent hopen.2
    refine .opened hopen.1 ?_ ?_ ?_
    · intro r hr
      rcases hconsumed r hr with hkept | hreached
      · rw [hnone] at hkept
        cases hkept
      · exact hreached
    · unfold OrderManager.initializePositionBaseline
      split <;> exact hnone
    · unfold OrderManager.initializePositionBaseline
      split <;> exact hsent
  · split
    · exact .shut (ExecutionState.hasPauseReason_set_of_has
        (ExecutionState.hasPauseReason_set_self m₁.execution .riskData) .reconciliation) hconsumed hsent
    · exact .shut (ExecutionState.hasPauseReason_set_self _ _) hconsumed hsent

/-- After the check of a manager at most a reconciliation begins. -/
theorem checkRiskData_manager {app : App} (hon : app.config.orderEnabled = true) (now : Clocks)
    (symbol : String) :
    Calls (Allowed now .tokenRefresh)
      (refreshRiskPause (app.managers symbol) (app.positions symbol) (app.sourcesFresh symbol now)).2
      ((app.checkRiskData now).managers symbol) := by
  have hrefreshed : (app.updateRiskPauses now).2.managers symbol =
      (refreshRiskPause (app.managers symbol) (app.positions symbol) (app.sourcesFresh symbol now)).2 := by
    unfold updateRiskPauses
    simp only [hon, Bool.not_true, Bool.false_eq_true, if_false]
  rw [← hrefreshed]
  unfold checkRiskData
  dsimp only
  split
  · exact (beginAccountReconciliation_moves _ _).managers symbol
  · exact .done _

/-! ## Whole runs -/

theorem calls_waitsPaused {now : Clocks} {e : Event} {m m' : OrderManager} (he : e ≠ .checkRiskData)
    (h : Calls (Allowed now e) m m') (hm : m.WaitsPaused) : m'.WaitsPaused :=
  h.preserves OrderManager.WaitsPaused
    (fun _ _ hop hm => OrderManager.apply_waitsPaused (allowed_not_clears_riskData he hop) hm) hm

theorem handle_waitsPaused {app : App} (hon : app.config.orderEnabled = true) (now : Clocks) (e : Event)
    (symbol : String) (h : (app.managers symbol).WaitsPaused) :
    ((app.handle now e).managers symbol).WaitsPaused := by
  by_cases he : e = .checkRiskData
  · subst he
    refine calls_waitsPaused (by simp) (checkRiskData_manager hon now symbol) ?_
    cases refreshRiskPause_outcome (app.managers symbol) (app.positions symbol)
        (app.sourcesFresh symbol now) with
    | opened _ _ hnone _ =>
      intro hwaits
      rw [hnone] at hwaits
      cases hwaits
    | shut hpaused _ _ => exact fun _ => hpaused
  · exact calls_waitsPaused he (handle_calls app now e symbol) h

/-- **A manager that waits is paused**, in every reachable state. -/
theorem resume_paused {config : AppConfig} (hon : config.orderEnabled = true)
    {managerConfig : String → OrderManagerConfig} {equity : SharedEquity} {startMs : Int}
    {es : List (Clocks × Event)} {app : App}
    (h : Runs.exec step (.new config managerConfig equity startMs) es = some app) (symbol : String) :
    (app.managers symbol).WaitsPaused := by
  refine (Runs.exec_invariant (fun app : App => app.config = config ∧ (app.managers symbol).WaitsPaused)
    ?_ ⟨rfl, ?_⟩ h).2
  · rintro app e app' ⟨hconfig, hwaits⟩ hstep
    cases hstep
    exact ⟨(handle_config app e.1 e.2).trans hconfig,
      handle_waitsPaused (hconfig ▸ hon) e.1 e.2 symbol hwaits⟩
  · intro hwaits
    simp only [new, hon, if_true] at hwaits
    cases hwaits

/-- **The publication waited for never moves back**; only a check that has reached it drops it. -/
theorem resume_monotone {app : App} (hon : app.config.orderEnabled = true) (now : Clocks) (e : Event)
    {symbol : String} {r : Nat} (hr : (app.managers symbol).resumeAfterPositionVersion = some r) :
    (∃ r', ((app.handle now e).managers symbol).resumeAfterPositionVersion = some r' ∧ r ≤ r') ∨
      (e = .checkRiskData ∧ r ≤ (app.positions symbol).updateVersion) := by
  by_cases he : e = .checkRiskData
  · subst he
    have hcalls := checkRiskData_manager hon now symbol
    cases refreshRiskPause_outcome (app.managers symbol) (app.positions symbol)
        (app.sourcesFresh symbol now) with
    | opened _ hreached _ _ => exact Or.inr ⟨rfl, hreached r hr⟩
    | shut _ hkept _ =>
      rcases hkept r hr with hkept | hreached
      · exact Or.inl (calls_resume (by simp) hcalls hkept)
      · exact Or.inr ⟨rfl, hreached⟩
  · exact Or.inl (calls_resume he (handle_calls app now e symbol) hr)

/-- A publication of the symbol's position counts one. -/
def publishes (symbol : String) (e : Clocks × Event) : Nat :=
  match e.2 with
  | .publishPosition s _ => if s = symbol then 1 else 0
  | _ => 0

/-- The publications of a symbol's position in a list of events. -/
def publications (symbol : String) (es : List (Clocks × Event)) : Nat := (es.map (publishes symbol)).sum

/-- `update_version` counts the publications. -/
theorem handle_updateVersion {app : App} {symbol : String}
    (h : (app.positions symbol).updateVersion < size) (e : Clocks × Event) :
    ((app.handle e.1 e.2).positions symbol).updateVersion
      = ((app.positions symbol).updateVersion + publishes symbol e) % size := by
  obtain ⟨now, e⟩ := e
  by_cases he : ∃ s position, e = .publishPosition s position
  · obtain ⟨s, position, rfl⟩ := he
    simp only [handle, publishes]
    by_cases hs : s = symbol
    · subst hs
      rw [if_pos rfl, Function.update_self]
      rfl
    · rw [if_neg hs, Function.update_of_ne (Ne.symm hs), Nat.add_zero, Nat.mod_eq_of_lt h]
  · have hne : ∀ s position, e ≠ .publishPosition s position := fun s position h => he ⟨s, position, h⟩
    have hzero : publishes symbol (now, e) = 0 := by
      unfold publishes
      split
      · rename_i s position heq
        exact absurd heq (hne s position)
      · rfl
    rw [handle_positions app now hne, hzero, Nat.add_zero, Nat.mod_eq_of_lt h]

theorem exec_updateVersion_lt {app app' : App} {symbol : String} {es : List (Clocks × Event)}
    (h : (app.positions symbol).updateVersion < size) (hexec : Runs.exec step app es = some app') :
    (app'.positions symbol).updateVersion < size := by
  refine Runs.exec_invariant (fun app : App => (app.positions symbol).updateVersion < size) ?_ h hexec
  intro app e app' h hstep
  cases hstep
  rw [handle_updateVersion h]
  exact Nat.mod_lt _ (by decide)

/-- The gate as the run sees it: `version` publications were out when it shut, `n` have come
    since; the second of them is waited for, or has come. -/
structure Waiting (symbol : String) (version sent : Nat) (n : Nat) (app : App) : Prop where
  enabled : app.config.orderEnabled = true
  published : (app.positions symbol).updateVersion = (version + n) % size
  paused : (app.managers symbol).hasPauseReason .riskData = true
  sent : (app.managers symbol).stats.ordersSent = sent
  required : (∃ r, (app.managers symbol).resumeAfterPositionVersion = some r ∧ version + 2 ≤ r) ∨ 2 ≤ n

/-- Reaching the required publication takes two publications. -/
theorem Waiting.reached {symbol : String} {version sent n : Nat} {app : App}
    (h : Waiting symbol version sent n app) (hversion : version + 2 ≤ maxValue) {r : Nat}
    (hr : version + 2 ≤ r) (hreached : r ≤ (app.positions symbol).updateVersion) : 2 ≤ n := by
  have hpublished := h.published
  by_contra hfew
  have hsmall : version + n < size := by
    unfold maxValue at hversion
    unfold size
    omega
  rw [Nat.mod_eq_of_lt hsmall] at hpublished
  omega

/-- The gate opens: a check finds the symbol's sources fresh after two publications. -/
def Opens (symbol : String) (n : Nat) (app : App) (e : Clocks × Event) : Prop :=
  e.2 = .checkRiskData ∧ app.sourcesFresh symbol e.1 = true ∧ 2 ≤ n

/-- **Step lemma.**  A waiting manager goes on waiting, or its gate opens. -/
theorem Waiting.step {symbol : String} {version sent n : Nat} {app app' : App} {e : Clocks × Event}
    (hversion : version + 2 ≤ maxValue) (h : Waiting symbol version sent n app)
    (hstep : App.step app e = some app') :
    Waiting symbol version sent (n + publishes symbol e) app' ∨ Opens symbol n app e := by
  cases hstep
  have hsize : (app.positions symbol).updateVersion < size := by
    rw [h.published]
    exact Nat.mod_lt _ (by decide)
  have henabled : (app.handle e.1 e.2).config.orderEnabled = true := by
    rw [handle_config]
    exact h.enabled
  have hpublished : ((app.handle e.1 e.2).positions symbol).updateVersion
      = (version + (n + publishes symbol e)) % size := by
    rw [handle_updateVersion hsize, h.published, Nat.mod_add_mod, Nat.add_assoc]
  obtain ⟨now, e⟩ := e
  by_cases he : e = .checkRiskData
  · subst he
    have hzero : publishes symbol (now, .checkRiskData) = 0 := rfl
    have hcalls := checkRiskData_manager h.enabled now symbol
    cases refreshRiskPause_outcome (app.managers symbol) (app.positions symbol)
        (app.sourcesFresh symbol now) with
    | opened hfresh hreached _ _ =>
      right
      refine ⟨rfl, hfresh, ?_⟩
      rcases h.required with ⟨r, hr, hle⟩ | hn
      · exact h.reached hversion hle (hreached r hr)
      · exact hn
    | shut hpaused hkept hsent =>
      left
      obtain ⟨hpaused', hsent'⟩ := calls_paused (by simp) hcalls hpaused
      refine ⟨henabled, hpublished, hpaused', (hsent'.trans hsent).trans h.sent, ?_⟩
      rw [hzero, Nat.add_zero]
      rcases h.required with ⟨r, hr, hle⟩ | hn
      · rcases hkept r hr with hkept | hreached
        · obtain ⟨r', hr', hle'⟩ := calls_resume (by simp) hcalls hkept
          exact Or.inl ⟨r', hr', hle.trans hle'⟩
        · exact Or.inr (h.reached hversion hle hreached)
      · exact Or.inr hn
  · left
    have hcalls := handle_calls app now e symbol
    obtain ⟨hpaused, hsent⟩ := calls_paused he hcalls h.paused
    refine ⟨henabled, hpublished, hpaused, hsent.trans h.sent, ?_⟩
    rcases h.required with ⟨r, hr, hle⟩ | hn
    · obtain ⟨r', hr', hle'⟩ := calls_resume he hcalls hr
      exact Or.inl ⟨r', hr', hle.trans hle'⟩
    · exact Or.inr (hn.trans (Nat.le_add_right _ _))

/-- From the event that shuts the gate the manager waits. -/
theorem affected_waiting {app : App} (hon : app.config.orderEnabled = true) {symbol : String}
    (hsize : (app.positions symbol).updateVersion < size) {e : Event} (now : Clocks)
    (h : app.Affects symbol e) (hversion : (app.positions symbol).updateVersion + 2 ≤ maxValue) :
    Waiting symbol (app.positions symbol).updateVersion
      ((app.handle now e).managers symbol).stats.ordersSent 0 (app.handle now e) := by
  have hshut := affected_shuts now h
  have hrequired : OrderManager.requiredVersion (app.positions symbol)
      = (app.positions symbol).updateVersion + 2 := saturatingAdd_of_le hversion
  have hpublishes : publishes symbol (now, e) = 0 := by
    cases e with
    | publishPosition => exact h.elim
    | _ => rfl
  refine ⟨by rw [handle_config]; exact hon, ?_, hshut.paused, rfl, Or.inl ?_⟩
  · have := handle_updateVersion hsize (now, e)
    rwa [hpublishes] at this
  · rw [← hrequired]
    exact hshut.waits

/-- **The position gate.**  In every run with order placement enabled: a manager that waits for a
    publication is paused; what it waits for never moves back; and after an event that affects a
    manager no Send leaves it until two more positions are published and a later check finds the
    sources fresh, as long as two more publications can be counted. -/
theorem position_gate {config : AppConfig} (hon : config.orderEnabled = true)
    {managerConfig : String → OrderManagerConfig} {equity : SharedEquity} {startMs : Int}
    {es : List (Clocks × Event)} {app : App}
    (h : Runs.exec step (.new config managerConfig equity startMs) es = some app) (symbol : String) :
    (app.managers symbol).WaitsPaused ∧
    (∀ now e r, (app.managers symbol).resumeAfterPositionVersion = some r →
      (∃ r', ((app.handle now e).managers symbol).resumeAfterPositionVersion = some r' ∧ r ≤ r') ∨
        (e = .checkRiskData ∧ r ≤ (app.positions symbol).updateVersion)) ∧
    (∀ now e, app.Affects symbol e → (app.positions symbol).updateVersion + 2 ≤ maxValue →
      ∀ es' app', Runs.exec step (app.handle now e) es' = some app' →
        ((app'.managers symbol).hasPauseReason .riskData = true ∧
          (app'.managers symbol).stats.ordersSent
            = ((app.handle now e).managers symbol).stats.ordersSent) ∨
        ∃ pre check post app'', es' = pre ++ check :: post ∧
          Runs.exec step (app.handle now e) pre = some app'' ∧
          check.2 = .checkRiskData ∧ app''.sourcesFresh symbol check.1 = true ∧
          2 ≤ publications symbol pre ∧
          (app''.managers symbol).stats.ordersSent
            = ((app.handle now e).managers symbol).stats.ordersSent) := by
  have hconfig : app.config = config := exec_config h
  have hon' : app.config.orderEnabled = true := hconfig ▸ hon
  refine ⟨resume_paused hon h symbol, fun now e r => resume_monotone hon' now e, ?_⟩
  intro now e haffects hversion es' app' hexec
  have hsize : (app.positions symbol).updateVersion < size :=
    exec_updateVersion_lt (by decide : (0 : Nat) < size) h
  have hwaiting := affected_waiting hon' hsize now haffects hversion
  have hunless := Runs.exec_unless_counted (publishes symbol)
    (Waiting symbol (app.positions symbol).updateVersion
      ((app.handle now e).managers symbol).stats.ordersSent) (Opens symbol)
    (fun n app e app' hwait hstep => hwait.step hversion hstep) hwaiting hexec
  rcases hunless with hwait | ⟨pre, check, post, app'', hsplit, hpre, hwait, hcheck, hfresh, hcount⟩
  · exact Or.inl ⟨hwait.paused, hwait.sent⟩
  · rw [Nat.zero_add] at hcount
    exact Or.inr ⟨pre, check, post, app'', hsplit, hpre, hcheck, hfresh, hcount, hwait.sent⟩

/-- The bid of the first quote fills. -/
def firstFill : Event := .order (.orderFilled 0 (some "mm_BTC-USD_0_0_3_1") (some "filled") "1" "99")

theorem affects_firstFill : quoting.Affects "BTC-USD" firstFill := by
  refine Or.inr (Or.inr (Or.inr ?_))
  decide +kernel

/-- After the first fill one publication is not enough. -/
theorem position_gate_first_fill :
    Runs.exec step live firstOrders = some quoting ∧
    ∃ app, Runs.exec step (quoting.handle (atSecond 2) firstFill)
        [(atSecond 3, .publishPosition "BTC-USD" 1)] = some app ∧
      (app.managers "BTC-USD").hasPauseReason .riskData = true ∧
      (app.managers "BTC-USD").stats.ordersSent
        = ((quoting.handle (atSecond 2) firstFill).managers "BTC-USD").stats.ordersSent := by
  have hon : AppConfig.default.orderEnabled = true := rfl
  have hgate := (position_gate hon (exec_after live firstOrders) "BTC-USD").2.2 (atSecond 2) firstFill
    affects_firstFill (by decide +kernel) [(atSecond 3, .publishPosition "BTC-USD" 1)] _ (exec_after ..)
  refine ⟨exec_after .., _, exec_after .., ?_⟩
  rcases hgate with hclosed | ⟨pre, check, post, _, hsplit, _, _, _, hcount, _⟩
  · exact hclosed
  · -- the only event is the publication itself, so nothing precedes the check
    have hlength := congrArg List.length hsplit
    have hpre : pre = [] := List.length_eq_zero_iff.mp (by simp at hlength; omega)
    subst hpre
    simp [publications] at hcount

/-! ## A saturated count -/

/-- The application after the first orders, once the position has been published `n` more times. -/
def publishedAgain (n : Nat) : App :=
  { quoting with positions := Function.update quoting.positions "BTC-USD" ⟨0, 1000, (1 + n) % size⟩ }

/-- One more publication of the position. -/
def publishAgain : Clocks × Event := (atSecond 1, .publishPosition "BTC-USD" 0)

theorem publishedAgain_step (n : Nat) :
    Runs.exec step (publishedAgain n) [publishAgain] = some (publishedAgain (n + 1)) := by
  have hset : SharedPosition.set ⟨0, 1000, (1 + n) % size⟩ 0 1000 = ⟨0, 1000, (1 + (n + 1)) % size⟩ := by
    simp [SharedPosition.set, wrappingAdd, Nat.add_assoc]
  have hms : (atSecond 1).unixMs = 1000 := by decide
  rw [Runs.exec_singleton]
  simp only [step, publishAgain, handle, publishedAgain, Function.update_self, Function.update_idem, hms, hset]

theorem exec_publishedAgain (n : Nat) :
    Runs.exec step live (firstOrders ++ List.replicate n publishAgain) = some (publishedAgain n) := by
  have hfirst : quoting = publishedAgain 0 := by
    have hsame : quoting.positions "BTC-USD" = ⟨0, 1000, (1 + 0) % size⟩ := by decide +kernel
    unfold publishedAgain
    rw [← hsame, Function.update_eq_self]
  have hruns := Runs.exec_replicate publishedAgain_step n 0
  rw [List.flatten_replicate_singleton, Nat.zero_add] at hruns
  rw [Runs.exec_append, exec_after live firstOrders, Option.bind_some]
  rw [← hfirst] at hruns
  exact hruns

/-- With `u64::MAX` publications counted, the fill asks for a count that is already there: the
    next check opens the gate with no publication since, and a Send follows. -/
theorem saturated_gate_opens :
    ∃ app, Runs.exec step live (firstOrders ++ List.replicate (size - 2) publishAgain) = some app ∧
      app.fillTarget 0 (some "mm_BTC-USD_0_0_3_1") = some "BTC-USD" ∧
      ∃ app', Runs.exec step (app.handle (atSecond 2) firstFill) [(atSecond 2, .checkRiskData), depthQuote 2]
        = some app' ∧
      ((app.handle (atSecond 2) firstFill).managers "BTC-USD").stats.ordersSent
        < (app'.managers "BTC-USD").stats.ordersSent := by
  refine ⟨publishedAgain (size - 2), exec_publishedAgain (size - 2), ?_, _, exec_after .., ?_⟩
  · decide +kernel
  · decide +kernel

end MarketMaker.App
