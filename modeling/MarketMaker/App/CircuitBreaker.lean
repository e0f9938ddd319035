import MarketMaker.App.Calls

/-!
# The circuit breaker's cooldown

The main loop together with the reconciliation worker of `main.rs`: requests go through a channel,
the worker retries `cleanup_attempt` until it returns `Ok(true)` and sends the result back.  Any
interleaving of the two is a run, the clock never goes back, and the outcome of an attempt is
whatever the exchange says.

* `reachable_outstanding` — at most one reconciliation is outstanding, and it is the current one.
* `trip_iff` — what sets the `CircuitBreaker` pause.
* `pending_exec`, `idle_exec` — between the trip and the end of the pause at most one reconciliation
  begins, and its result is the one that ends it.
* `breaker_cooldown` — exactly when the pause outlives its cooldown and ends with a reconciliation
  that was begun and verified after it.
* `breaker_ends_early` — a disconnect during the cooldown ends the pause after three seconds.
-/

set_option autoImplicit false

namespace MarketMaker

open Word64

/-- What `cleanup_attempt` returns: `Ok(true)`, `Ok(false)` or an error. -/
inductive CleanupOutcome where
  | verified
  | unsettled
  | failed
  deriving DecidableEq

/-- `run_reconciliation_worker`: waiting for a request, in the cleanup loop, or with a result to
    send. -/
inductive Worker where
  | waiting
  | cleaning (generation : Nat) (reason : String) (attempt : Nat)
  | reporting (result : ReconciliationResult)
  deriving DecidableEq

structure Recovery where
  app : App
  worker : Worker
  results : List ReconciliationResult
  nowNs : Nat

namespace Recovery

open OrderManager (Operation Calls)

/-- What moves: an arm of the main loop, the worker, or the result arm. -/
inductive Action where
  | loop (event : App.Event)
  | receive
  | attempt (outcome : CleanupOutcome)
  | report
  | deliver

/-- The capacity of the result channel. -/
def RESULT_CAPACITY : Nat := 8

/-- `attempt.saturating_add(1)` on a `u32`. -/
def nextAttempt (attempt : Nat) : Nat := min (attempt + 1) 4294967295

/-- The requests a worker finds in its queue, as one: the reasons joined, the last generation. -/
def mergeRequests (r : ReconciliationRequest) (rs : List ReconciliationRequest) : ReconciliationRequest :=
  rs.foldl (fun r next => ⟨max r.generation next.generation, r.reason ++ "; " ++ next.reason⟩) r

/-- One action. -/
def act (s : Recovery) (now : Clocks) : Action → Option Recovery
  | .loop (.reconciliationResult _) => none
  | .loop event => some { s with app := s.app.handle now event }
  | .receive =>
    match s.worker, s.app.reconciliationTx with
    | .waiting, some (r :: rs) =>
      let request := mergeRequests r rs
      some { s with
        app := { s.app with reconciliationTx := some [] }
        worker := .cleaning request.generation request.reason 0 }
    | _, _ => none
  | .attempt outcome =>
    match s.worker with
    | .cleaning generation reason attempt =>
      some { s with worker :=
        if outcome = .verified then .reporting ⟨generation, reason, nextAttempt attempt⟩
        else .cleaning generation reason (nextAttempt attempt) }
    | _ => none
  | .report =>
    match s.worker with
    | .reporting result =>
      if s.results.length < RESULT_CAPACITY then
        some { s with worker := .waiting, results := s.results ++ [result] }
      else none
    | _ => none
  | .deliver =>
    match s.results with
    | result :: results => some { s with
        app := s.app.handle now (.reconciliationResult result)
        results := results }
    | [] => none

/-- An action at a time that is not before the last one. -/
def step (s : Recovery) (e : Clocks × Action) : Option Recovery :=
  if e.1.unixNs < s.nowNs then none
  else (s.act e.1 e.2).map fun s => { s with nowNs := e.1.unixNs }

/-- The application at the start, with an idle worker. -/
def new (app : App) : Recovery := ⟨app, .waiting, [], 0⟩

theorem step_some {s s' : Recovery} {e : Clocks × Action} (h : step s e = some s') :
    s.nowNs ≤ e.1.unixNs ∧ ∃ t, s.act e.1 e.2 = some t ∧ s' = { t with nowNs := e.1.unixNs } := by
  unfold step at h
  split at h
  · cases h
  · rename_i hlater
    obtain ⟨t, ht, hs'⟩ := Option.map_eq_some_iff.mp h
    exact ⟨not_lt.mp hlater, t, ht, hs'.symm⟩

/-- What an action does to the application: an arm that is not the result's, nothing but its
    request queue, or the end of a reconciliation. -/
theorem act_app {s s' : Recovery} {now : Clocks} {action : Action} (h : s.act now action = some s') :
    (∃ event, (∀ result, event ≠ .reconciliationResult result) ∧
      s' = { s with app := s.app.handle now event }) ∨
    (∃ requests, s'.app = { s.app with reconciliationTx := requests }) ∨
    action = .deliver := by
  cases action with
  | loop event =>
    refine Or.inl ⟨event, ?_⟩
    cases event with
    | reconciliationResult result => cases h
    | _ =>
      cases h
      exact ⟨nofun, rfl⟩
  | deliver => exact Or.inr (Or.inr rfl)
  | receive =>
    refine Or.inr (Or.inl ?_)
    simp only [act] at h
    split at h
    · cases h
      exact ⟨_, rfl⟩
    · cases h
  | attempt outcome =>
    refine Or.inr (Or.inl ?_)
    simp only [act] at h
    split at h
    · cases h
      exact ⟨_, rfl⟩
    · cases h
  | report =>
    refine Or.inr (Or.inl ?_)
    simp only [act] at h
    split at h
    · split at h
      · cases h
        exact ⟨_, rfl⟩
      · cases h
    · cases h

/-! ## One reconciliation at a time -/

/-- The generations of the reconciliations under way: requested, in cleanup, or verified. -/
def outstanding (s : Recovery) : List Nat :=
  (s.app.reconciliationTx.getD []).map (·.generation) ++
    (match s.worker with
      | .waiting => []
      | .cleaning generation _ _ => [generation]
      | .reporting result => [result.generation]) ++
    s.results.map (·.generation)

/-- While a reconciliation is pending exactly the current one is under way, and otherwise none. -/
structure Outstanding (s : Recovery) : Prop where
  enabled : s.app.config.orderEnabled = true
  channel : s.app.reconciliationTx.isSome = true
  underWay : s.outstanding = if s.app.reconciliationPending then [s.app.reconciliationGeneration] else []

theorem Outstanding.length_le_one {s : Recovery} (h : Outstanding s) : s.outstanding.length ≤ 1 := by
  rw [h.underWay]
  split <;> simp

theorem Outstanding.loop {s : Recovery} (h : Outstanding s) (now : Clocks) {event : App.Event}
    (he : ∀ result, event ≠ .reconciliationResult result) :
    Outstanding { s with app := s.app.handle now event } := by
  have henabled : (s.app.handle now event).config.orderEnabled = true := by
    rw [App.handle_config]
    exact h.enabled
  have hunder := h.underWay
  rcases s.app.handle_reconciliation now he with hidle | hbegin
  · refine ⟨henabled, by rw [hidle.request]; exact h.channel, ?_⟩
    simp only [outstanding, hidle.request, hidle.pending, hidle.generation]
    exact hunder
  · obtain ⟨reason, hrequest⟩ := hbegin.request
    obtain ⟨queue, hqueue⟩ := Option.isSome_iff_exists.mp h.channel
    refine ⟨henabled, by rw [hrequest, hqueue]; rfl, ?_⟩
    -- nothing was under way, so the new request is alone
    rw [hbegin.idle] at hunder
    simp only [Bool.false_eq_true, if_false, outstanding, List.append_eq_nil_iff, List.map_eq_nil_iff]
      at hunder
    obtain ⟨⟨hnone, hworker⟩, hresults⟩ := hunder
    simp only [outstanding, hrequest, hbegin.pending, hbegin.generation, if_true, hresults, hworker]
    rw [hqueue] at hnone ⊢
    simp only [Option.getD_some] at hnone
    simp [hnone]

theorem Outstanding.receive {s s' : Recovery} (h : Outstanding s) {now : Clocks}
    (hact : s.act now .receive = some s') : Outstanding s' := by
  simp only [act] at hact
  split at hact
  · rename_i r rs hworker hqueue
    cases hact
    have hunder := h.underWay
    have hlength := h.length_le_one
    simp only [outstanding, hworker, hqueue, Option.getD_some, List.length_append, List.length_map,
      List.length_cons] at hlength
    have hrs : rs = [] := List.length_eq_zero_iff.mp (by omega)
    have hresults : s.results = [] := List.length_eq_zero_iff.mp (by omega)
    subst hrs
    simp only [outstanding, hworker, hqueue, hresults, Option.getD_some] at hunder
    refine ⟨h.enabled, rfl, ?_⟩
    simp only [outstanding, hresults, Option.getD_some]
    exact hunder
  · cases hact

theorem Outstanding.attempt {s s' : Recovery} (h : Outstanding s) {now : Clocks}
    {outcome : CleanupOutcome} (hact : s.act now (.attempt outcome) = some s') : Outstanding s' := by
  have hunder := h.underWay
  simp only [act] at hact
  split at hact
  · rename_i generation reason n hworker
    cases hact
    refine ⟨h.enabled, h.channel, ?_⟩
    simp only [outstanding, hworker] at hunder ⊢
    rw [← hunder]
    cases outcome <;> rfl
  · cases hact

theorem Outstanding.report {s s' : Recovery} (h : Outstanding s) {now : Clocks}
    (hact : s.act now .report = some s') : Outstanding s' := by
  have hunder := h.underWay
  have hlength := h.length_le_one
  simp only [act] at hact
  split at hact
  · rename_i result hworker
    split at hact
    · cases hact
      refine ⟨h.enabled, h.channel, ?_⟩
      simp only [outstanding, hworker, List.length_append, List.length_map, List.length_cons] at hlength
      have hresults : s.results = [] := List.length_eq_zero_iff.mp (by simp at hlength; omega)
      simp only [outstanding, hworker, hresults] at hunder ⊢
      simpa using hunder
    · cases hact
  · cases hact

/-- The result that is delivered is the pending one: the reconciliation ends. -/
theorem Outstanding.deliver {s s' : Recovery} (h : Outstanding s) {now : Clocks}
    (hact : s.act now .deliver = some s') :
    Outstanding s' ∧ s'.app = s.app.finishAccountReconciliation now := by
  have hunder := h.underWay
  have hlength := h.length_le_one
  simp only [act] at hact
  split at hact
  · rename_i result rest hresults
    cases hact
    simp only [outstanding, hresults, List.length_append, List.length_map, List.length_cons] at hlength
    have hrest : rest = [] := List.length_eq_zero_iff.mp (by omega)
    have hqueue : s.app.reconciliationTx.getD [] = [] := List.length_eq_zero_iff.mp (by omega)
    have hworker : s.worker = .waiting := by
      cases hw : s.worker with
      | waiting => rfl
      | cleaning | reporting =>
        simp only [hw, List.length_cons, List.length_nil] at hlength
        omega
    subst hrest
    simp only [outstanding, hresults, hqueue, hworker, List.map_nil, List.nil_append, List.map_cons] at hunder
    have hgeneration : result.generation = s.app.reconciliationGeneration := by
      split at hunder
      · simpa using hunder
      · cases hunder
    have happ : s.app.handle now (.reconciliationResult result) = s.app.finishAccountReconciliation now := by
      simp only [App.handle, App.onReconciliationResult, if_pos hgeneration]
    refine ⟨⟨?_, ?_, ?_⟩, happ⟩
    · rw [App.handle_config]
      exact h.enabled
    · rw [happ]
      exact h.channel
    · simp only [outstanding, happ, App.finishAccountReconciliation, hqueue, hworker]
      rfl
  · cases hact

theorem Outstanding.act {s s' : Recovery} {now : Clocks} {action : Action} (h : Outstanding s)
    (hact : s.act now action = some s') : Outstanding s' := by
  cases action with
  | loop event =>
    cases event with
    | reconciliationResult result => cases hact
    | _ => cases hact; exact h.loop now (by simp)
  | receive => exact h.receive hact
  | attempt outcome => exact h.attempt hact
  | report => exact h.report hact
  | deliver => exact (h.deliver hact).1

theorem Outstanding.step {s s' : Recovery} {e : Clocks × Action} (h : Outstanding s)
    (hstep : s.step e = some s') : Outstanding s' := by
  obtain ⟨_, t, ht, rfl⟩ := step_some hstep
  have ht' := h.act ht
  exact ⟨ht'.enabled, ht'.channel, ht'.underWay⟩

/-- **At most one reconciliation is under way**, in every reachable state. -/
theorem reachable_outstanding {config : AppConfig} (hon : config.orderEnabled = true)
    {managerConfig : String → OrderManagerConfig} {equity : SharedEquity} {startMs : Int}
    {es : List (Clocks × Action)} {s : Recovery}
    (h : Runs.exec step (new (.new config managerConfig equity startMs)) es = some s) :
    Outstanding s := by
  refine Runs.exec_invariant Outstanding (fun _ _ _ h hstep => h.step hstep) ⟨hon, ?_, ?_⟩ h
  · simp [new, App.new, hon]
  · simp [new, App.new, hon, outstanding]

/-! ## The breaker -/

/-- The `CircuitBreaker` pause of a symbol's manager. -/
def breakerSet (s : Recovery) (symbol : String) : Bool :=
  (s.app.managers symbol).hasPauseReason .circuitBreaker

/-- A rejection that trips the breaker of a symbol's manager. -/
def Trips (app : App) (symbol : String) : App.Event → Prop
  | .order (.orderRejected clOrdId _) =>
    app.isRetired clOrdId = false ∧ OrderManager.extractSymbolFromClOrdId clOrdId = some symbol ∧
      app.hasManager symbol = true ∧
      ((app.managers symbol).clearOrderByClOrdId clOrdId).countRejection.breakerDue
  | _ => False

/-- A tripping rejection sets the pause and starts the cooldown. -/
theorem trips_sets {app : App} {symbol : String} {e : App.Event} (now : Clocks) (h : Trips app symbol e) :
    ((app.handle now e).managers symbol).hasPauseReason .circuitBreaker = true ∧
      ((app.handle now e).managers symbol).circuitBreakerTriggeredAtMs = now.unixMs := by
  cases e with
  | order event =>
    cases event with
    | orderRejected clOrdId reason =>
      obtain ⟨hretired, hsymbol, hmanager, hdue⟩ := h
      simp only [App.handle, App.onOrderEvent, hretired, Bool.false_eq_true, if_false, App.onRejected,
        hsymbol, hmanager, if_true, App.modifyManager, Function.update_self, OrderManager.onOrderRejected,
        if_pos hdue]
      exact ⟨ExecutionState.hasPauseReason_set_self _ _, rfl⟩
    | _ => exact h.elim
  | _ => exact h.elim

/-- A tripping rejection leaves the account reconciliation alone. -/
theorem trips_pending {app : App} {symbol : String} {e : App.Event} (now : Clocks) (h : Trips app symbol e) :
    (app.handle now e).reconciliationPending = app.reconciliationPending := by
  cases e with
  | order event =>
    cases event with
    | orderRejected clOrdId reason =>
      obtain ⟨hretired, hsymbol, hmanager, _⟩ := h
      simp only [App.handle, App.onOrderEvent, hretired, Bool.false_eq_true, if_false, App.onRejected,
        hsymbol, hmanager, if_true, App.modifyManager]
    | _ => exact h.elim
  | _ => exact h.elim

/-- Only rejections can set the pause. -/
theorem calls_breaker_clear {now : Clocks} {e : App.Event} {m m' : OrderManager}
    (he : ∀ clOrdId reason, e ≠ .order (.orderRejected clOrdId reason))
    (h : Calls (App.Allowed now e) m m') (hm : m.hasPauseReason .circuitBreaker = false) :
    m'.hasPauseReason .circuitBreaker = false := by
  refine h.preserves (fun m => m.hasPauseReason .circuitBreaker = false) ?_ hm
  intro m op hop hm
  refine OrderManager.apply_gains_reason (fun hsets => ?_) hm
  cases op with
  | rejected clOrdId nowMs =>
    obtain ⟨reason, heq⟩ := hop.1
    exact he clOrdId reason heq
  | setPauseReason r => exact hop hsets.symm
  | quote | filled | requirePositionRefresh | checkTimeouts | checkPendingTimeouts | triggerSafetyPause =>
    cases hsets
  | cancelFailed => rcases hsets with hsets | hsets <;> cases hsets
  | _ => exact hsets

/-- **What sets the pause**: exactly a rejection that makes the breaker due. -/
theorem trip_iff {app : App} {symbol : String} (now : Clocks) (e : App.Event)
    (hclear : (app.managers symbol).hasPauseReason .circuitBreaker = false) :
    ((app.handle now e).managers symbol).hasPauseReason .circuitBreaker = true ↔ Trips app symbol e := by
  refine ⟨fun hset => ?_, fun h => (trips_sets now h).1⟩
  by_cases he : ∃ clOrdId reason, e = .order (.orderRejected clOrdId reason)
  · obtain ⟨clOrdId, reason, rfl⟩ := he
    simp only [App.handle, App.onOrderEvent] at hset
    split at hset
    · rw [hclear] at hset; cases hset
    · rename_i hretired
      unfold App.onRejected at hset
      split at hset
      · rename_i named hnamed
        split at hset
        · rename_i hmanager
          unfold App.modifyManager at hset
          by_cases hs : symbol = named
          · subst hs
            simp only [Function.update_self, OrderManager.onOrderRejected] at hset
            split at hset
            · rename_i hdue
              exact ⟨by simpa using hretired, hnamed, hmanager, hdue⟩
            · rw [OrderManager.hasPauseReason, OrderManager.countRejection,
                OrderManager.clearOrderByClOrdId, OrderManager.clearFirst_execution] at hset
              rw [OrderManager.hasPauseReason, hset] at hclear
              cases hclear
          · simp only [Function.update_of_ne hs] at hset
            rw [hclear] at hset; cases hset
        · rw [hclear] at hset; cases hset
      · rw [hclear] at hset; cases hset
  · have hne : ∀ clOrdId reason, e ≠ .order (.orderRejected clOrdId reason) :=
      fun clOrdId reason h => he ⟨clOrdId, reason, h⟩
    have := calls_breaker_clear hne (app.handle_calls now e symbol) hclear
    rw [hset] at this
    cases this

/-- The pause survives every action but the delivery of a result. -/
theorem breaker_survives {s s' : Recovery} {e : Clocks × Action} {symbol : String}
    (hset : s.breakerSet symbol = true) (hstep : step s e = some s') (he : e.2 ≠ .deliver) :
    s'.breakerSet symbol = true := by
  obtain ⟨_, t, ht, rfl⟩ := step_some hstep
  rcases act_app ht with ⟨event, hresult, rfl⟩ | ⟨requests, happ⟩ | hdeliver
  · refine (s.app.handle_calls e.1 event symbol).preserves
      (fun m => m.hasPauseReason .circuitBreaker = true) ?_ hset
    intro m op hop hm
    refine OrderManager.apply_keeps_reason (fun hclears => ?_) hm
    cases op with
    | clearPauseReason r => cases hclears; exact hop
    | finishReconciliation =>
      obtain ⟨result, heq⟩ := hop
      exact hresult result heq
    | resetCircuitBreaker => exact hop
    | _ => exact hclears
  · unfold breakerSet at hset ⊢
    rw [happ]
    exact hset
  · exact absurd hdeliver he

/-- Every delivered result ends the pause, whatever the reconciliation was started for. -/
theorem deliver_clears {s s' : Recovery} {e : Clocks × Action} (h : Outstanding s)
    (hstep : step s e = some s') (he : e.2 = .deliver) (symbol : String) :
    s'.breakerSet symbol = false := by
  obtain ⟨_, t, ht, rfl⟩ := step_some hstep
  rw [he] at ht
  have happ := (h.deliver ht).2
  unfold breakerSet
  simp only [happ]
  -- `finish_reconciliation` clears `CircuitBreaker`, and clearing `Reconciliation` leaves it clear
  unfold App.finishAccountReconciliation OrderManager.finishReconciliation OrderManager.hasPauseReason
  unfold OrderManager.clearPauseReason
  rw [ExecutionState.hasPauseReason_clear_of_ne _ (by decide)]
  exact ExecutionState.hasPauseReason_clear_self _ _

/-! ## Verified attempts -/

/-- A cleanup attempt has returned `Ok(true)` and its result has not been delivered. -/
def verified (s : Recovery) : Bool :=
  !s.results.isEmpty || (match s.worker with | .reporting _ => true | _ => false)

/-- The action is an attempt that returns `Ok(true)`. -/
def Action.verifies : Action → Bool
  | .attempt .verified => true
  | _ => false

def Verifies (e : Clocks × Action) : Prop := e.2.verifies = true

instance (e : Clocks × Action) : Decidable (Verifies e) := inferInstanceAs (Decidable (_ = true))

/-- Without a delivery, a result is waiting exactly when one was or an attempt has succeeded. -/
theorem verified_act {s t : Recovery} {now : Clocks} {action : Action} (h : s.act now action = some t)
    (he : action ≠ .deliver) : t.verified = true ↔ s.verified = true ∨ action.verifies = true := by
  cases action with
  | deliver => exact absurd rfl he
  | loop event =>
    cases event with
    | reconciliationResult result => cases h
    | _ => cases h; simp [verified, Action.verifies]
  | receive =>
    simp only [act] at h
    split at h
    · rename_i hworker _
      cases h
      simp [verified, Action.verifies, hworker]
    · cases h
  | attempt outcome =>
    simp only [act] at h
    split at h
    · rename_i hworker
      cases h
      cases outcome <;> simp [verified, Action.verifies, hworker]
    · cases h
  | report =>
    simp only [act] at h
    split at h
    · rename_i hworker
      split at h
      · cases h
        simp [verified, Action.verifies, hworker]
      · cases h
    · cases h

theorem verified_step {s s' : Recovery} {e : Clocks × Action} (hstep : step s e = some s')
    (he : e.2 ≠ .deliver) : s'.verified = true ↔ s.verified = true ∨ Verifies e := by
  obtain ⟨_, t, ht, rfl⟩ := step_some hstep
  have hact := verified_act ht he
  exact hact

/-- The action leaves the pause of a symbol set. -/
def KeepsBreaker (symbol : String) (s : Recovery) (e : Clocks × Action) : Prop :=
  (step s e).all (·.breakerSet symbol) = true

instance (symbol : String) (s : Recovery) (e : Clocks × Action) : Decidable (KeepsBreaker symbol s e) :=
  inferInstanceAs (Decidable (_ = true))

theorem KeepsBreaker.set {symbol : String} {s s' : Recovery} {e : Clocks × Action}
    (h : KeepsBreaker symbol s e) (hstep : step s e = some s') : s'.breakerSet symbol = true := by
  unfold KeepsBreaker at h
  rwa [hstep] at h

/-- The pause stays set along a run only if no result is delivered in it. -/
theorem KeepsBreaker.not_deliver {symbol : String} {s s' : Recovery} {e : Clocks × Action}
    (h : KeepsBreaker symbol s e) (hs : Outstanding s) (hstep : step s e = some s') : e.2 ≠ .deliver := by
  intro he
  have hclear := deliver_clears hs hstep he symbol
  rw [h.set hstep] at hclear
  cases hclear

/-- `verified_step` along a run that keeps the pause. -/
theorem verified_exec {symbol : String} {s s' : Recovery} {es : List (Clocks × Action)}
    (hs : Outstanding s) (hkeeps : Runs.Along step (KeepsBreaker symbol) s es)
    (h : Runs.exec step s es = some s') :
    Outstanding s' ∧ (s'.verified = true ↔ s.verified = true ∨ ∃ e ∈ es, Verifies e) := by
  induction es generalizing s with
  | nil => cases h; simp [hs]
  | cons e es ih =>
    obtain ⟨t, ht, hes⟩ := Runs.exec_cons_some h
    obtain ⟨hkeep, hrest⟩ := Runs.along_cons hkeeps ht
    obtain ⟨hs', hiff⟩ := ih (hs.step ht) hrest hes
    refine ⟨hs', ?_⟩
    rw [hiff, verified_step ht (hkeep.not_deliver hs ht), or_assoc]
    simp

/-- The clock along a run. -/
theorem exec_nowNs {s s' : Recovery} {es : List (Clocks × Action)} (h : Runs.exec step s es = some s') :
    s.nowNs ≤ s'.nowNs ∧ ∀ e ∈ es, s.nowNs ≤ e.1.unixNs := by
  induction es generalizing s with
  | nil => cases h; simp
  | cons e es ih =>
    obtain ⟨t, ht, hes⟩ := Runs.exec_cons_some h
    obtain ⟨hlater, u, _, rfl⟩ := step_some ht
    obtain ⟨hle, hall⟩ := ih hes
    refine ⟨hlater.trans hle, fun f hf => ?_⟩
    rcases List.mem_cons.mp hf with rfl | hf
    · exact hlater
    · exact hlater.trans (hall f hf)

/-! ## The cooldown -/

/-- The end of the cooldown of a breaker that tripped at `trip`. -/
def cooldownEndNs (config : AppConfig) (trip : Clocks) : Nat :=
  trip.unixNs + config.circuitBreakerRecoverySecs * 1000000000

/-- The action begins a reconciliation. -/
def begins (s : Recovery) (e : Clocks × Action) : Bool :=
  !s.app.reconciliationPending && (step s e).any (·.app.reconciliationPending)

/-- The cooldown is honoured by an action `e` that ends the pause in `s₂`, after the actions `es`
    from the trip's `s₁`: it comes after the cooldown, and the reconciliation whose result it
    delivers was begun, and then verified by an attempt, after the cooldown as well. -/
structure Honoured (config : AppConfig) (trip : Clocks) (s₁ : Recovery) (es : List (Clocks × Action))
    (s₂ : Recovery) (e : Clocks × Action) : Prop where
  elapsed : cooldownEndNs config trip ≤ e.1.unixNs
  requested : ∃ pre request post s t, es = pre ++ request :: post ∧ Runs.exec step s₁ pre = some s ∧
    s.begins request = true ∧ step s request = some t ∧
    s₂.results.map (·.generation) = [t.app.reconciliationGeneration] ∧
    cooldownEndNs config trip ≤ request.1.unixNs ∧
    ∃ a ∈ post, Verifies a ∧ cooldownEndNs config trip ≤ a.1.unixNs

theorem begins_iff {s t : Recovery} {e : Clocks × Action} (h : step s e = some t) :
    s.begins e = true ↔ s.app.reconciliationPending = false ∧ t.app.reconciliationPending = true := by
  unfold begins
  rw [h]
  simp

/-- Only an arm of the main loop begins a reconciliation. -/
theorem begins_not_verifies {s t : Recovery} {e : Clocks × Action} (h : step s e = some t)
    (hbegins : s.begins e = true) : ¬ Verifies e := by
  intro hverifies
  obtain ⟨hidle, hpending⟩ := (begins_iff h).mp hbegins
  obtain ⟨_, u, hu, rfl⟩ := step_some h
  unfold Verifies Action.verifies at hverifies
  split at hverifies
  · rename_i hattempt
    rw [hattempt] at hu
    simp only [act] at hu
    split at hu
    · cases hu
      rw [hidle] at hpending
      cases hpending
    · cases hu
  · cases hverifies

/-- Without a delivery a pending reconciliation stays the pending one. -/
theorem pending_step {s s' : Recovery} {e : Clocks × Action} (hstep : step s e = some s')
    (he : e.2 ≠ .deliver) (hpending : s.app.reconciliationPending = true) :
    s'.app.reconciliationPending = true ∧
      s'.app.reconciliationGeneration = s.app.reconciliationGeneration := by
  obtain ⟨_, t, ht, rfl⟩ := step_some hstep
  rcases act_app ht with ⟨event, hresult, rfl⟩ | ⟨requests, happ⟩ | hdeliver
  · rcases s.app.handle_reconciliation e.1 hresult with hidle | hbegin
    · exact ⟨hidle.pending.trans hpending, hidle.generation⟩
    · rw [hbegin.idle] at hpending
      cases hpending
  · rw [happ]
    exact ⟨hpending, rfl⟩
  · exact absurd hdeliver he

/-- `pending_step` along a run that keeps the pause: nothing else begins meanwhile. -/
theorem pending_exec {symbol : String} {s s' : Recovery} {es : List (Clocks × Action)}
    (hs : Outstanding s) (hkeeps : Runs.Along step (KeepsBreaker symbol) s es)
    (h : Runs.exec step s es = some s') (hpending : s.app.reconciliationPending = true) :
    s'.app.reconciliationPending = true ∧
      s'.app.reconciliationGeneration = s.app.reconciliationGeneration ∧
      Runs.Along step (fun s e => ¬ s.begins e = true) s es := by
  induction es generalizing s with
  | nil => cases h; exact ⟨hpending, rfl, trivial⟩
  | cons e es ih =>
    obtain ⟨t, ht, hes⟩ := Runs.exec_cons_some h
    obtain ⟨hkeep, hrest⟩ := Runs.along_cons hkeeps ht
    obtain ⟨hnext, hsame⟩ := pending_step ht (hkeep.not_deliver hs ht) hpending
    obtain ⟨hlast, hgeneration, hnone⟩ := ih (hs.step ht) hrest hes hnext
    refine ⟨hlast, hgeneration.trans hsame, fun hbegins => ?_, ?_⟩
    · rw [((begins_iff ht).mp hbegins).1] at hpending
      cases hpending
    · rw [ht]
      exact hnone

/-- A run that keeps the pause and ends with nothing pending has begun nothing. -/
theorem idle_exec {symbol : String} {s s' : Recovery} {es : List (Clocks × Action)}
    (hs : Outstanding s) (hkeeps : Runs.Along step (KeepsBreaker symbol) s es)
    (h : Runs.exec step s es = some s') (hidle : s'.app.reconciliationPending = false) :
    s.app.reconciliationPending = false ∧ Runs.Along step (fun s e => ¬ s.begins e = true) s es := by
  induction es generalizing s with
  | nil => cases h; exact ⟨hidle, trivial⟩
  | cons e es ih =>
    obtain ⟨t, ht, hes⟩ := Runs.exec_cons_some h
    obtain ⟨hkeep, hrest⟩ := Runs.along_cons hkeeps ht
    obtain ⟨hnext, hnone⟩ := ih (hs.step ht) hrest hes
    refine ⟨?_, fun hbegins => ?_, ?_⟩
    · by_contra hwas
      rw [Bool.not_eq_false] at hwas
      rw [(pending_step ht (hkeep.not_deliver hs ht) hwas).1] at hnext
      cases hnext
    · rw [((begins_iff ht).mp hbegins).2] at hnext
      cases hnext
    · rw [ht]
      exact hnone

/-- A run that begins nothing leaves nothing pending. -/
theorem idle_of_none {s s' : Recovery} {es : List (Clocks × Action)}
    (h : Runs.exec step s es = some s') (hidle : s.app.reconciliationPending = false)
    (hnone : Runs.Along step (fun s e => ¬ s.begins e = true) s es) :
    s'.app.reconciliationPending = false := by
  refine Runs.exec_invariant_of (fun s : Recovery => s.app.reconciliationPending = false) _ ?_ hidle hnone h
  intro s e t hidle hnot hstep
  by_contra hpending
  rw [Bool.not_eq_false] at hpending
  exact hnot ((begins_iff hstep).mpr ⟨hidle, hpending⟩)

/-- The result that waits is the pending reconciliation's. -/
theorem Outstanding.results {s : Recovery} (h : Outstanding s) (hresults : s.results ≠ []) :
    s.app.reconciliationPending = true ∧
      s.results.map (·.generation) = [s.app.reconciliationGeneration] := by
  have hunder := h.underWay
  unfold outstanding at hunder
  cases hpending : s.app.reconciliationPending with
  | false =>
    rw [hpending, if_neg Bool.false_ne_true] at hunder
    exact absurd (List.map_eq_nil_iff.mp (List.append_eq_nil_iff.mp hunder).2) hresults
  | true =>
    rw [hpending, if_pos rfl] at hunder
    rcases List.append_eq_singleton_iff.mp hunder with ⟨_, hlast⟩ | ⟨_, hnone⟩
    · exact ⟨rfl, hlast⟩
    · exact absurd (List.map_eq_nil_iff.mp hnone) hresults

/-- Nothing is verified before a reconciliation begins. -/
theorem Outstanding.idle_not_verified {s : Recovery} (h : Outstanding s)
    (hidle : s.app.reconciliationPending = false) : s.verified = false := by
  have hunder := h.underWay
  rw [hidle] at hunder
  simp only [Bool.false_eq_true, if_false, outstanding, List.append_eq_nil_iff, List.map_eq_nil_iff] at hunder
  obtain ⟨⟨_, hworker⟩, hresults⟩ := hunder
  unfold verified
  rw [hresults]
  cases hw : s.worker with
  | waiting => rfl
  | cleaning => rfl
  | reporting result =>
    rw [hw] at hworker
    cases hworker

/-- Only the delivery of the pending reconciliation's result ends the pause. -/
theorem Outstanding.ended {symbol : String} {s s' : Recovery} {e : Clocks × Action} (h : Outstanding s)
    (hset : s.breakerSet symbol = true) (hstep : s.step e = some s') (hended : s'.breakerSet symbol = false) :
    s.verified = true ∧ s.app.reconciliationPending = true ∧
      s.results.map (·.generation) = [s.app.reconciliationGeneration] := by
  have hdeliver : e.2 = .deliver := by
    by_contra hne
    rw [breaker_survives hset hstep hne] at hended
    cases hended
  have hwaiting : s.results ≠ [] := by
    obtain ⟨_, t, ht, _⟩ := step_some hstep
    rw [hdeliver] at ht
    intro hnone
    simp only [Recovery.act, hnone] at ht
    cases ht
  refine ⟨?_, h.results hwaiting⟩
  obtain ⟨result, rest, hcons⟩ := List.exists_cons_of_ne_nil hwaiting
  simp [verified, hcons]

section

variable {symbol : String} {s₁ s t s₂ : Recovery} {pre post : List (Clocks × Action)}
  {request : Clocks × Action}

/-- What begins while the pause is kept is the only thing that does: nothing was pending before it, and it
    stays the pending one. -/
theorem only_begun (hs₁ : Outstanding s₁)
    (hkeeps : Runs.Along step (KeepsBreaker symbol) s₁ (pre ++ request :: post))
    (hpre : Runs.exec step s₁ pre = some s) (hnext : step s request = some t)
    (hbegins : s.begins request = true) (hpost : Runs.exec step t post = some s₂) :
    s₁.app.reconciliationPending = false ∧ Runs.Along step (fun s a => ¬ s.begins a = true) s₁ pre ∧
      Runs.Along step (fun s a => ¬ s.begins a = true) t post ∧
      s₂.app.reconciliationGeneration = t.app.reconciliationGeneration := by
  obtain ⟨hkeepsPre, hkeepsRest⟩ := Runs.along_append hkeeps hpre
  obtain ⟨_, hkeepsPost⟩ := Runs.along_cons hkeepsRest hnext
  obtain ⟨hs, _⟩ := verified_exec hs₁ hkeepsPre hpre
  obtain ⟨hidle, hpending⟩ := (begins_iff hnext).mp hbegins
  obtain ⟨hidle₁, hnonePre⟩ := idle_exec hs₁ hkeepsPre hpre hidle
  obtain ⟨_, hgeneration, hnonePost⟩ := pending_exec (hs.step hnext) hkeepsPost hpost hpending
  exact ⟨hidle₁, hnonePre, hnonePost, hgeneration⟩

/-- A result that is there came from an attempt after the request. -/
theorem verified_since (hs₁ : Outstanding s₁)
    (hkeeps : Runs.Along step (KeepsBreaker symbol) s₁ (pre ++ request :: post))
    (hpre : Runs.exec step s₁ pre = some s) (hnext : step s request = some t)
    (hbegins : s.begins request = true) (hpost : Runs.exec step t post = some s₂)
    (hverified : s₂.verified = true) : ∃ a ∈ post, Verifies a := by
  obtain ⟨hkeepsPre, hkeepsRest⟩ := Runs.along_append hkeeps hpre
  obtain ⟨hs, _⟩ := verified_exec hs₁ hkeepsPre hpre
  have hrun : Runs.exec step s (request :: post) = some s₂ := by
    rw [Runs.exec_cons, hnext]
    exact hpost
  rcases (verified_exec hs hkeepsRest hrun).2.mp hverified with hwas | ⟨a, ha, hverifies⟩
  · rw [hs.idle_not_verified ((begins_iff hnext).mp hbegins).1] at hwas
    cases hwas
  · rcases List.mem_cons.mp ha with rfl | ha
    · exact absurd hverifies (begins_not_verifies hnext hbegins)
    · exact ⟨a, ha, hverifies⟩

end

/-- **The breaker's cooldown.**  From a trip in any reachable state to the first action that ends
    the pause: the cooldown is honoured exactly when no reconciliation was pending at the trip and
    none begins before the cooldown is over. -/
theorem breaker_cooldown {config : AppConfig} (hon : config.orderEnabled = true)
    {managerConfig : String → OrderManagerConfig} {equity : SharedEquity} {startMs : Int}
    {before : List (Clocks × Action)} {s₀ : Recovery}
    (hreached : Runs.exec step (new (.new config managerConfig equity startMs)) before = some s₀)
    {trip : Clocks} {rejection : App.Event} {symbol : String} {s₁ : Recovery}
    (htrip : Trips s₀.app symbol rejection) (hrejected : step s₀ (trip, .loop rejection) = some s₁)
    {es : List (Clocks × Action)} {s₂ s₃ : Recovery} {e : Clocks × Action}
    (hkeeps : Runs.Along step (KeepsBreaker symbol) s₁ es) (hrun : Runs.exec step s₁ es = some s₂)
    (hstep : step s₂ e = some s₃) (hended : s₃.breakerSet symbol = false) :
    Honoured config trip s₁ es s₂ e ↔
      s₀.app.reconciliationPending = false ∧
        Runs.Along step (fun s a => s.begins a = true → cooldownEndNs config trip ≤ a.1.unixNs) s₁ es := by
  have hs₁ := (reachable_outstanding hon hreached).step hrejected
  obtain ⟨hset, hfirst⟩ : s₁.breakerSet symbol = true ∧
      s₁.app.reconciliationPending = s₀.app.reconciliationPending := by
    obtain ⟨_, t, ht, rfl⟩ := step_some hrejected
    cases rejection with
    | order event =>
      cases ht
      exact ⟨(trips_sets trip htrip).1, trips_pending trip htrip⟩
    | _ => exact htrip.elim
  have hset₂ : s₂.breakerSet symbol = true := by
    refine Runs.exec_invariant_of (fun s => s.breakerSet symbol = true) (KeepsBreaker symbol) ?_ hset
      hkeeps hrun
    intro s a s' _ hkeep hstep
    exact hkeep.set hstep
  obtain ⟨hverified, hpending, hresults⟩ := (verified_exec hs₁ hkeeps hrun).1.ended hset₂ hstep hended
  constructor
  · rintro ⟨_, pre, request, post, s, t, rfl, hpre, hbegins, hnext, _, hlate, _⟩
    obtain ⟨u, hu, hrest⟩ := Runs.exec_append_some hrun
    obtain rfl : s = u := Option.some.inj (hpre.symm.trans hu)
    obtain ⟨v, hv, hpost⟩ := Runs.exec_cons_some hrest
    obtain rfl : t = v := Option.some.inj (hnext.symm.trans hv)
    obtain ⟨hidle₁, hnonePre, hnonePost, _⟩ := only_begun hs₁ hkeeps hpre hnext hbegins hpost
    have hlater : ∀ (s : Recovery) a, ¬ s.begins a = true →
        s.begins a = true → cooldownEndNs config trip ≤ a.1.unixNs := fun _ _ hnot h => absurd h hnot
    refine ⟨hfirst.symm.trans hidle₁,
      Runs.along_append_of (Runs.along_mono hlater hnonePre) hpre ⟨fun _ => hlate, ?_⟩⟩
    rw [hnext]
    exact Runs.along_mono hlater hnonePost
  · rintro ⟨hidle₀, hlate⟩
    have hsome : ¬ Runs.Along step (fun (s : Recovery) a => ¬ s.begins a = true) s₁ es := by
      intro hnone
      rw [idle_of_none hrun (hfirst.trans hidle₀) hnone] at hpending
      cases hpending
    obtain ⟨pre, request, post, s, t, rfl, hpre, hnext, hpost, hbegins⟩ := Runs.exists_of_not_along hrun hsome
    rw [not_not] at hbegins
    obtain ⟨_, _, _, hgeneration⟩ := only_begun hs₁ hkeeps hpre hnext hbegins hpost
    obtain ⟨a, ha, hverifies⟩ := verified_since hs₁ hkeeps hpre hnext hbegins hpost hverified
    have hrequest : cooldownEndNs config trip ≤ request.1.unixNs :=
      (Runs.along_cons (Runs.along_append hlate hpre).2 hnext).1 hbegins
    -- the clock does not go back from the request on
    have hclock : request.1.unixNs ≤ t.nowNs := by
      obtain ⟨_, u, _, rfl⟩ := step_some hnext
      exact le_rfl
    have hattempt : t.nowNs ≤ a.1.unixNs := (exec_nowNs hpost).2 a ha
    have hlast : t.nowNs ≤ e.1.unixNs := (exec_nowNs hpost).1.trans (step_some hstep).1
    exact ⟨hrequest.trans (hclock.trans hlast), pre, request, post, s, t, rfl, hpre, hbegins, hnext,
      hresults.trans (by rw [hgeneration]), hrequest, a, ha, hverifies,
      hrequest.trans (hclock.trans hattempt)⟩

/-! ## Two runs -/

/-- Rejections in the first second; the fifth trips the breaker. -/
def rejections (n : Nat) : List (Clocks × Action) :=
  List.replicate n (App.atSecond 1, .loop (.order (.orderRejected "mm_BTC-USD_0_0_3_9" "post only")))

/-- What starts a reconciliation, and the reconciliation up to its result. -/
def reconciled (second : Nat) (cause : App.Event) : List (Clocks × Action) :=
  [(App.atSecond second, .loop cause), (App.atSecond second, .receive),
   (App.atSecond (second + 1), .attempt .verified), (App.atSecond (second + 1), .report)]

/-- The state after actions all of which can be taken. -/
def reached (s : Recovery) (es : List (Clocks × Action)) : Recovery := (Runs.exec step s es).getD s

/-- The state after the fifth of them. -/
def tripped : Recovery := reached (reached (new App.live) (rejections 4)) (rejections 1)

/-- Nothing happens between the trip and the end of the cooldown: the cooldown is honoured. -/
theorem breaker_cooldown_quiet :
    Honoured .default (App.atSecond 1) tripped (reconciled 301 .checkPauseRecovery)
      (reached tripped (reconciled 301 .checkPauseRecovery)) (App.atSecond 303, .deliver) := by
  have hon : AppConfig.default.orderEnabled = true := rfl
  have runs : ∀ s es, (Runs.exec step s es).isSome = true → Runs.exec step s es = some (reached s es) := by
    intro s es h
    obtain ⟨t, ht⟩ := Option.isSome_iff_exists.mp h
    rw [reached, ht, Option.getD_some]
  have hreached := runs (new App.live) (rejections 4) (by decide +kernel)
  have hrejected := runs (reached (new App.live) (rejections 4)) (rejections 1) (by decide +kernel)
  have hrun := runs tripped (reconciled 301 .checkPauseRecovery) (by decide +kernel)
  have hstep := runs (reached tripped (reconciled 301 .checkPauseRecovery)) [(App.atSecond 303, .deliver)]
    (by decide +kernel)
  rw [show rejections 1 = [_] from rfl, Runs.exec_singleton] at hrejected
  rw [Runs.exec_singleton] at hstep
  have htrip : Trips (reached (new App.live) (rejections 4)).app "BTC-USD"
      (.order (.orderRejected "mm_BTC-USD_0_0_3_9" "post only")) := by
    refine ⟨?_, ?_, ?_, ?_⟩ <;> decide +kernel
  exact (breaker_cooldown hon hreached htrip hrejected (by decide +kernel) hrun hstep
    (by decide +kernel)).mpr ⟨by decide +kernel, by decide +kernel⟩

/-- A disconnect two seconds after the trip starts a reconciliation; its success ends the pause at
    once, 297 seconds early and with no attempt after the cooldown. -/
theorem breaker_ends_early :
    ∃ s₁ s₂ s₃, Runs.exec step (new App.live) (rejections 5) = some s₁ ∧ s₁.breakerSet "BTC-USD" = true ∧
      Runs.exec step s₁ (reconciled 2 (.order (.disconnected "closed"))) = some s₂ ∧
      s₂.breakerSet "BTC-USD" = true ∧
      step s₂ (App.atSecond 4, .deliver) = some s₃ ∧ s₃.breakerSet "BTC-USD" = false ∧
      ¬ Honoured .default (App.atSecond 1) s₁ (reconciled 2 (.order (.disconnected "closed"))) s₂
        (App.atSecond 4, .deliver) := by
  refine ⟨_, _, _, rfl, ?_, rfl, ?_, rfl, ?_, fun h => absurd h.elapsed (by decide)⟩
  all_goals decide +kernel

end Recovery

end MarketMaker
