import MarketMaker.Trading.RequestIds

/-!
# The submission lock

While a reconciliation is on its way new orders are blocked, by the pause reason or by the shutdown
flag, and the submission lock keeps the executor's section and the attempt's apart.

## Results

* `reachable_ordered` — locks, pause and the one reconciliation under way.
* `quiet_step`, `fenced_step` — what keeps orders from being written, and what ends it.
* `no_write_until_finish` — from the section of an attempt to the end of a result arm.
-/

set_option autoImplicit false

namespace MarketMaker

open Runs Word64

/-- The main loop is in the result arm. -/
def MainState.inArm : MainState → Bool
  | .clearingCancels | .clearingRequests | .finishing => true
  | .ready | .stopped => false

/-- The worker has a request. -/
def WorkerState.isBusy : WorkerState → Bool
  | .cleaning _ | .reporting _ => true
  | .waiting | .aborted => false

/-- The worker is at its attempts. -/
def WorkerState.isCleaning : WorkerState → Bool
  | .cleaning _ => true
  | _ => false

theorem WorkerState.isBusy_of_isCleaning {w : WorkerState} (h : w.isCleaning = true) :
    w.isBusy = true := by
  cases w with
  | cleaning => rfl
  | _ => exact absurd h (by simp [isCleaning])

namespace OrderChannel

/-! ## Who may write -/

/-- New orders are blocked. -/
def Fenced (s : OrderChannel) : Prop :=
  s.execution.shutdown = true ∨ s.execution.hasPauseReason .reconciliation = true

/-- The reconciliations between `begin_account_reconciliation` and its end. -/
def underWay (s : OrderChannel) : Nat :=
  s.requests.length + s.worker.isBusy.toNat + s.results.length + s.main.inArm.toNat

/-- The submission lock, the pause and the one reconciliation under way. -/
structure Ordered (s : OrderChannel) : Prop where
  executorLock : s.executor.inSection = true ↔ s.submission = some .executor
  cleanupLock : s.cleanup.inSection = true ↔ s.submission = some .cleanup
  stopped : s.main = .stopped → s.execution.shutdown = true
  paused : s.reconciliationPending = true → s.execution.hasPauseReason .reconciliation = true
  oneUnderWay : s.main ≠ .stopped → s.underWay ≤ s.reconciliationPending.toNat
  attempt : s.cleanup ≠ .idle → s.main = .stopped ∨ s.worker.isCleaning = true

variable {s s' : OrderChannel}

theorem not_permits_of_fenced (h : Fenced s) (generation : Nat) :
    s.execution.permits generation = false := by
  unfold ExecutionState.permits
  obtain hdown | hpause := h
  · rw [hdown]
    rfl
  · have hne := ExecutionState.pauseReasons_ne_zero hpause
    simp [hne]

/-- Where a reconciliation is under way, the pause is set. -/
theorem Ordered.fenced_of_underWay (h : Ordered s) (hway : s.main ≠ .stopped → 0 < s.underWay) :
    Fenced s := by
  by_cases hmain : s.main = .stopped
  · exact .inl (h.stopped hmain)
  · have hone := h.oneUnderWay hmain
    have hpos := hway hmain
    refine .inr (h.paused ?_)
    cases hpending : s.reconciliationPending with
    | true => rfl
    | false =>
      rw [hpending] at hone
      exact absurd hone (by simp; omega)

theorem Ordered.fenced_of_attempt (h : Ordered s) (hattempt : s.cleanup ≠ .idle) : Fenced s := by
  refine h.fenced_of_underWay fun hmain => ?_
  have hbusy := WorkerState.isBusy_of_isCleaning ((h.attempt hattempt).resolve_left hmain)
  unfold underWay
  rw [hbusy]
  simp

/-- The two sections exclude each other. -/
theorem Ordered.exclusive (h : Ordered s) (hcleanup : s.cleanup.inSection = true) :
    s.executor.inSection = false := by
  cases hexecutor : s.executor.inSection with
  | false => rfl
  | true =>
    have hfirst := h.executorLock.mp hexecutor
    rw [h.cleanupLock.mp hcleanup] at hfirst
    exact absurd hfirst (by decide)

/-! ### The executor -/

/-- What a step of the executor does to the submission lock and to the orders written. -/
inductive ExecutorMove (s s' : OrderChannel) : Prop
  /-- It stays inside or outside its section and writes no order. -/
  | stay (hput : s'.put = s.put) (hlock : s'.submission = s.submission)
      (hsection : s'.executor.inSection = s.executor.inSection)
  /-- It enters the section: it has the lock and the permit. -/
  | enter (generation : Nat) (hput : s'.put = s.put) (hfree : s.submission = none)
      (hpermits : s.execution.permits generation = true) (hlock : s'.submission = some .executor)
      (hsection : s'.executor.inSection = true)
  /-- It leaves the section. -/
  | leave (hput : s'.put = s.put) (hinside : s.executor.inSection = true) (hlock : s'.submission = none)
      (hsection : s'.executor.inSection = false)
  /-- It writes an order, inside the section. -/
  | write (clOrdId id : String) (hat : s.executor = .writing clOrdId id)
      (hput : s'.put = ⟨id, .new clOrdId⟩ :: s.put) (hinside : s.executor.inSection = true)
      (hlock : s'.submission = s.submission) (hsection : s'.executor.inSection = true)

theorem executorStep_moves {ok reached : Bool} (hs : s.executorStep ok reached = some s') :
    ExecutorMove s s' := by
  unfold executorStep at hs
  split at hs
  case h_1 => exact absurd hs (by simp)
  case h_2 hx =>
    split at hs
    · exact absurd hs (by simp)
    · next hfree =>
      split at hs <;> cases hs
      · next hpermits =>
        simp only [Bool.and_eq_true] at hpermits
        exact .enter _ rfl (by simpa using hfree) hpermits.1.1 rfl rfl
      · exact .stay rfl rfl (by rw [hx]; rfl)
  case h_3 hx =>
    split at hs <;> cases hs
    · exact .stay rfl rfl (by rw [hx]; rfl)
    · exact .leave rfl (by rw [hx]; rfl) rfl rfl
  case h_4 hx =>
    split at hs <;> cases hs
    · exact .stay rfl rfl (by rw [hx]; rfl)
    · exact .leave rfl (by rw [hx]; rfl) rfl rfl
  case h_5 hx => cases hs; exact .stay rfl rfl (by rw [hx]; rfl)
  case h_6 hx => cases hs; exact .write _ _ hx rfl (by rw [hx]; rfl) rfl rfl
  case h_7 hx => cases hs; exact .leave rfl (by rw [hx]; rfl) rfl rfl
  case h_8 hx => cases hs; exact .stay rfl rfl (by rw [hx]; rfl)
  case h_9 hx => split at hs <;> cases hs <;> exact .stay rfl rfl (by rw [hx]; rfl)
  case h_10 hx => cases hs; exact .stay rfl rfl (by rw [hx]; rfl)
  case h_11 hx => split at hs <;> cases hs <;> exact .stay rfl rfl (by rw [hx]; rfl)
  case h_12 hx => split at hs <;> cases hs <;> exact .stay rfl rfl (by rw [hx]; rfl)
  case h_13 hx => cases hs; exact .stay rfl rfl (by rw [hx]; rfl)

/-- What the executor leaves alone. -/
theorem executorStep_keeps {ok reached : Bool} (hs : s.executorStep ok reached = some s') :
    s'.execution = s.execution ∧ s'.cleanup = s.cleanup ∧ s'.worker = s.worker ∧ s'.main = s.main ∧
    s'.requests = s.requests ∧ s'.results = s.results ∧
    s'.reconciliationPending = s.reconciliationPending ∧ s'.evidence = s.evidence ∧
    s'.evidenceAtSettlement = s.evidenceAtSettlement := by
  unfold executorStep at hs
  split at hs
  case h_2 =>
    split at hs
    · exact absurd hs (by simp)
    · split at hs <;> cases hs <;> simp
  case h_3 | h_9 =>
    split at hs <;> cases hs <;> simp [endPlacing]
  all_goals
    try split at hs
    all_goals cases hs <;> simp [endPlacing, setTracking, transmit]

/-! ### The attempt -/

/-- What a step of the attempt does to the submission lock and to the worker. -/
inductive CleanupMove (s s' : OrderChannel) (answer : RestAnswer) : Prop
  | enter (hat : s.cleanup = .waiting) (hfree : s.submission = none)
      (hlock : s'.submission = some .cleanup) (hsection : s'.cleanup.inSection = true)
      (hworker : s'.worker = s.worker)
  | stay (hinside : s.cleanup.inSection = true) (hlock : s'.submission = s.submission)
      (hsection : s'.cleanup.inSection = true) (hworker : s'.worker = s.worker)
  | leave (hinside : s.cleanup.inSection = true) (hlock : s'.submission = none)
      (hidle : s'.cleanup = .idle) (hworker : s'.worker = s.worker ∨
        ReturnsTrue s answer ∧ ∃ generation, s.worker = .cleaning generation ∧
          s'.worker = .reporting generation)

theorem next_inSection (clOrdIds : List String) : (Cleanup.next clOrdIds).inSection = true := by
  cases clOrdIds <;> rfl

theorem endAttempt_moves {answer : RestAnswer} {verified : Bool}
    (hinside : s.cleanup.inSection = true) (hverified : verified = true → ReturnsTrue s answer) :
    CleanupMove s (s.endAttempt verified) answer := by
  refine .leave hinside rfl rfl ?_
  unfold endAttempt
  cases hworker : s.worker with
  | cleaning generation =>
    cases verified with
    | true => exact .inr ⟨hverified rfl, generation, rfl, rfl⟩
    | false => exact .inl rfl
  | _ => exact .inl rfl

theorem cleanupStep_moves {answer : RestAnswer} (hs : s.cleanupStep answer = some s') :
    CleanupMove s s' answer := by
  unfold cleanupStep at hs
  split at hs
  case h_1 => exact absurd hs (by simp)
  case h_2 hx =>
    split at hs
    · exact absurd hs (by simp)
    · next hfree =>
      cases hs
      exact .enter hx (by simpa using hfree) rfl rfl rfl
  case h_3 hx =>
    split at hs <;> cases hs
    · exact .stay (by rw [hx]; rfl) rfl rfl rfl
    · exact endAttempt_moves (by rw [hx]; rfl) (by simp)
  case h_4 hx => cases hs; exact .stay (by rw [hx]; rfl) rfl rfl rfl
  case h_5 hx => cases hs; exact .stay (by rw [hx]; rfl) rfl (next_inSection _) rfl
  case h_6 hx =>
    split at hs
    · split at hs <;> cases hs
      · exact .stay (by rw [hx]; rfl) rfl rfl rfl
      · exact .stay (by rw [hx]; rfl) rfl (next_inSection _) rfl
    · cases hs
      exact .stay (by rw [hx]; rfl) rfl (next_inSection _) rfl
  case h_7 hx =>
    split at hs <;> cases hs
    · exact .stay (by rw [hx]; rfl) rfl (next_inSection _) rfl
    · exact .stay (by rw [hx]; rfl) rfl (next_inSection _) rfl
  case h_8 hx => cases hs; exact .stay (by rw [hx]; rfl) rfl rfl rfl
  case h_9 hx =>
    split at hs <;> cases hs
    · exact .stay (by rw [hx]; rfl) rfl rfl rfl
    · exact endAttempt_moves (by rw [hx]; rfl) (by simp)
  case h_10 settled hx =>
    split at hs
    · next remaining =>
      cases hs
      refine endAttempt_moves (by rw [hx]; rfl) ?_
      intro hverified
      simp only [Bool.and_eq_true, List.isEmpty_iff] at hverified
      obtain ⟨rfl, rfl⟩ := hverified
      exact ⟨hx, rfl⟩
    · cases hs
      exact endAttempt_moves (by rw [hx]; rfl) (by simp)

/-- What the attempt leaves alone. -/
theorem cleanupStep_keeps {answer : RestAnswer} (hs : s.cleanupStep answer = some s') :
    s'.execution = s.execution ∧ s'.executor = s.executor ∧ s'.main = s.main ∧
    s'.requests = s.requests ∧ s'.results = s.results ∧
    s'.reconciliationPending = s.reconciliationPending ∧ s'.put = s.put := by
  unfold cleanupStep at hs
  split at hs
  case h_6 =>
    split at hs
    · split at hs <;> cases hs <;> simp
    · cases hs
      simp
  all_goals
    try split at hs
    all_goals cases hs <;> simp [endAttempt, setTracking]

/-! ### The invariant -/

theorem executorStep_ordered (h : Ordered s) {ok reached : Bool}
    (hs : s.executorStep ok reached = some s') : Ordered s' := by
  obtain ⟨hexecution, hcleanup, hworker, hmain, hrequests, hresults, hpending, -, -⟩ :=
    executorStep_keeps hs
  have hlocks : (s'.executor.inSection = true ↔ s'.submission = some .executor) ∧
      (s'.cleanup.inSection = true ↔ s'.submission = some .cleanup) := by
    rw [hcleanup]
    cases executorStep_moves hs with
    | stay hput hlock hsection => rw [hlock, hsection]; exact ⟨h.executorLock, h.cleanupLock⟩
    | enter generation hput hfree hpermits hlock hsection =>
      have hoff := h.cleanupLock
      rw [hfree] at hoff
      rw [hlock, hsection]
      exact ⟨by simp, hoff.trans (by simp)⟩
    | leave hput hinside hlock hsection =>
      have hoff := h.cleanupLock
      rw [h.executorLock.mp hinside] at hoff
      rw [hlock, hsection]
      exact ⟨by simp, hoff.trans (by simp)⟩
    | write clOrdId id hat hput hinside hlock hsection =>
      rw [hlock, hsection]
      exact ⟨iff_of_true rfl (h.executorLock.mp hinside), h.cleanupLock⟩
  exact
    { executorLock := hlocks.1
      cleanupLock := hlocks.2
      stopped := by rw [hmain, hexecution]; exact h.stopped
      paused := by rw [hpending, hexecution]; exact h.paused
      oneUnderWay := by
        unfold underWay
        rw [hmain, hrequests, hworker, hresults, hpending]
        exact h.oneUnderWay
      attempt := by rw [hcleanup, hmain, hworker]; exact h.attempt }

theorem cleanupStep_ordered (h : Ordered s) {answer : RestAnswer}
    (hs : s.cleanupStep answer = some s') : Ordered s' := by
  obtain ⟨hexecution, hexecutor, hmain, hrequests, hresults, hpending, -⟩ := cleanupStep_keeps hs
  have hmoves := cleanupStep_moves hs
  have hbusy : s'.worker.isBusy = s.worker.isBusy := by
    cases hmoves with
    | enter _ _ _ _ hworker | stay _ _ _ hworker => rw [hworker]
    | leave _ _ _ hworker =>
      obtain hworker | ⟨-, generation, hcleaning, hreporting⟩ := hworker
      · rw [hworker]
      · rw [hcleaning, hreporting]
        rfl
  have hlocks : (s'.executor.inSection = true ↔ s'.submission = some .executor) ∧
      (s'.cleanup.inSection = true ↔ s'.submission = some .cleanup) := by
    rw [hexecutor]
    cases hmoves with
    | enter hat hfree hlock hsection hworker =>
      have hoff := h.executorLock
      rw [hfree] at hoff
      rw [hlock, hsection]
      exact ⟨hoff.trans (by simp), by simp⟩
    | stay hinside hlock hsection hworker =>
      rw [hlock, hsection]
      exact ⟨h.executorLock, iff_of_true rfl (h.cleanupLock.mp hinside)⟩
    | leave hinside hlock hidle hworker =>
      rw [hlock, hidle, h.exclusive hinside]
      exact ⟨by simp, by simp [Cleanup.inSection]⟩
  exact
    { executorLock := hlocks.1
      cleanupLock := hlocks.2
      stopped := by rw [hmain, hexecution]; exact h.stopped
      paused := by rw [hpending, hexecution]; exact h.paused
      oneUnderWay := by
        unfold underWay
        rw [hmain, hrequests, hbusy, hresults, hpending]
        exact h.oneUnderWay
      attempt := by
        intro hattempt
        rw [hmain]
        cases hmoves with
        | enter hat hfree hlock hsection hworker =>
          rw [hworker]
          exact h.attempt (by rw [hat]; decide)
        | stay hinside hlock hsection hworker =>
          rw [hworker]
          refine h.attempt ?_
          intro hidle
          rw [hidle] at hinside
          exact absurd hinside (by decide)
        | leave hinside hlock hidle hworker => exact absurd hidle hattempt }

theorem ordered_step {e : Event} (h : Ordered s) (hs : s.step e = some s') : Ordered s' := by
  cases e with
  | place | cancel =>
    simp only [step] at hs
    split at hs <;> cases hs
    next hidle =>
      have hlock := h.executorLock
      rw [hidle] at hlock
      exact { h with executorLock := hlock }
  | executor ok reached => exact executorStep_ordered h hs
  | cleanup answer => exact cleanupStep_ordered h hs
  | receive answers r =>
    simp only [step, OrderChannel.receive] at hs
    split at hs
    · split at hs <;> cases hs
      exact { h with }
    · exact absurd hs (by simp)
  | reader => cases hs; exact { h with }
  | connection | login | reconnect =>
    obtain ⟨-, ⟨⟩⟩ := betweenMessages_some hs
    exact { h with }
  | snapshot clOrdIds free =>
    obtain ⟨-, ⟨⟩⟩ := whenReady_some hs
    cases free <;> exact { h with }
  | pause r =>
    obtain ⟨-, ⟨⟩⟩ := whenReady_some hs
    exact { h with
      stopped := fun hmain => (ExecutionState.setPauseReason_shutdown _ r).trans (h.stopped hmain)
      paused := fun hpending => ExecutionState.hasPauseReason_set_of_has (h.paused hpending) r }
  | resume r =>
    simp only [step] at hs
    split at hs
    · exact absurd hs (by simp)
    · next hr =>
      obtain ⟨-, ⟨⟩⟩ := whenReady_some hs
      exact { h with
        paused := fun hpending =>
          (ExecutionState.hasPauseReason_clear_of_ne _ hr).trans (h.paused hpending) }
  | begin =>
    obtain ⟨hmain, ⟨⟩⟩ := whenReady_some hs
    unfold OrderChannel.begin
    split
    · exact h
    · next hpending =>
      have hnone := h.oneUnderWay (by rw [hmain]; decide)
      exact { h with
        stopped := fun hstopped => absurd (hmain.symm.trans hstopped) (by decide)
        paused := fun _ => ExecutionState.hasPauseReason_set_self _ _
        oneUnderWay := by
          intro _
          simp only [underWay, Bool.not_eq_true] at hnone hpending ⊢
          rw [hpending] at hnone
          simp only [Bool.toNat_false, List.length_append, List.length_singleton, Bool.toNat_true] at hnone ⊢
          omega }
  | deliver =>
    obtain ⟨hmain, hs⟩ := whenReady_some hs
    have hone := h.oneUnderWay (by rw [hmain]; decide)
    unfold OrderChannel.deliver at hs
    split at hs
    · next generation results hresults =>
      rw [underWay, hresults, hmain, List.length_cons] at hone
      split at hs <;> cases hs
      · exact { h with
          stopped := by simp
          oneUnderWay := by
            intro _
            simp only [underWay, MainState.inArm, Bool.toNat_true, Bool.toNat_false] at hone ⊢
            omega
          attempt := fun hattempt => .inr ((h.attempt hattempt).resolve_left (by rw [hmain]; decide)) }
      · exact { h with
          oneUnderWay := by
            intro _
            simp only [underWay, hmain] at hone ⊢
            omega }
    · exact absurd hs (by simp)
  | resultArm =>
    simp only [step, OrderChannel.resultArmStep] at hs
    split at hs
    · next hmain =>
      cases hs
      exact { h with
        stopped := by simp
        oneUnderWay := fun _ => by
          have hone := h.oneUnderWay (by rw [hmain]; decide)
          rw [underWay, hmain] at hone
          exact hone
        attempt := fun hattempt => .inr ((h.attempt hattempt).resolve_left (by rw [hmain]; decide)) }
    · next hmain =>
      cases hs
      exact { h with
        stopped := by simp
        oneUnderWay := fun _ => by
          have hone := h.oneUnderWay (by rw [hmain]; decide)
          rw [underWay, hmain] at hone
          exact hone
        attempt := fun hattempt => .inr ((h.attempt hattempt).resolve_left (by rw [hmain]; decide)) }
    · next hmain =>
      cases hs
      have hone := h.oneUnderWay (by rw [hmain]; decide)
      have hle := Bool.toNat_le s.reconciliationPending
      exact { h with
        stopped := by simp
        paused := by simp
        oneUnderWay := fun _ => by
          simp only [underWay, hmain, MainState.inArm, Bool.toNat_true, Bool.toNat_false] at hone ⊢
          omega
        attempt := fun hattempt => .inr ((h.attempt hattempt).resolve_left (by rw [hmain]; decide)) }
    · exact absurd hs (by simp)
  | shutdown =>
    obtain ⟨-, ⟨⟩⟩ := whenReady_some hs
    have hlock := h.executorLock
    exact
      { executorLock := by
          simp only [OrderChannel.shutdown]
          split
          · next hcleanup =>
            rw [hcleanup] at hlock
            exact hlock.trans (by simp)
          · exact hlock
        cleanupLock := by
          simp only [OrderChannel.shutdown]
          split
          · simp [Cleanup.inSection]
          · next hcleanup => simp [Cleanup.inSection, hcleanup]
        stopped := fun _ => rfl
        paused := h.paused
        oneUnderWay := fun hmain => absurd rfl hmain
        attempt := fun hattempt => absurd rfl hattempt }
  | takeRequest =>
    simp only [step] at hs
    split at hs <;> cases hs
    next generation rest hworker hrequests =>
      exact { h with
        oneUnderWay := by
          intro hmain
          have hone := h.oneUnderWay hmain
          simp only [underWay, hworker, hrequests, WorkerState.isBusy, List.length_cons,
            List.length_nil, Bool.toNat_true, Bool.toNat_false] at hone ⊢
          omega
        attempt := fun _ => .inr rfl }
  | attempt =>
    simp only [step] at hs
    split at hs <;> cases hs
    next hmay =>
      simp only [mayAttempt, Bool.and_eq_true, Bool.or_eq_true, beq_iff_eq] at hmay
      obtain ⟨hidle, hmay⟩ := hmay
      have hlock := h.cleanupLock
      rw [hidle] at hlock
      exact { h with
        cleanupLock := hlock
        attempt := fun _ => hmay }
  | report =>
    simp only [step] at hs
    split at hs <;> cases hs
    next generation hworker =>
      exact { h with
        oneUnderWay := by
          intro hmain
          have hone := h.oneUnderWay hmain
          simp only [underWay, hworker, WorkerState.isBusy, List.length_append, List.length_singleton,
            Bool.toNat_true, Bool.toNat_false] at hone ⊢
          omega
        attempt := by
          intro hattempt
          obtain hmain | hcleaning := h.attempt hattempt
          · exact .inl hmain
          · rw [hworker] at hcleaning
            exact absurd hcleaning (by simp [WorkerState.isCleaning]) }

theorem new_ordered (sessionId : String) : Ordered (new sessionId) := by
  constructor <;> simp [new, Executor.inSection, Cleanup.inSection, underWay, WorkerState.isBusy,
    MainState.inArm]

/-- In every reachable state locks, pause and pipeline are in order. -/
theorem reachable_ordered {sessionId : String} {es : List Event}
    (h : exec step (new sessionId) es = some s) : Ordered s :=
  exec_invariant Ordered (fun _ _ _ => ordered_step) (new_ordered sessionId) h

/-! ### The other tasks -/

/-- An attempt has found every submission settled, and its reconciliation has not ended. -/
def Sealing (s : OrderChannel) : Prop :=
  s.cleanup = .canceling true ∨ s.cleanup = .verifying true ∨
  s.main ≠ .stopped ∧
    (s.worker.isBusy = true ∧ s.worker.isCleaning = false ∨ s.results ≠ [] ∨ s.main.inArm = true)

/-- An event of the main loop, of the worker outside its attempts or of the connection loop, or an
    order for the executor. -/
def Event.Outside : Event → Prop
  | .executor .. | .receive .. | .reader | .cleanup _ => False
  | _ => True

/-- What such an event may do: an entry of `pending_requests` goes with a REST listing or at the end
    of a reconciliation, an attempt starts or is aborted, a reconciliation goes on. -/
structure OutsideMove (s : OrderChannel) (e : Event) (s' : OrderChannel) : Prop where
  put : s'.put = s.put
  atSettlement : s'.evidenceAtSettlement = s.evidenceAtSettlement
  outside : s'.executor.inSection = s.executor.inSection
  executor : s'.executor.inSection = true → s'.executor = s.executor
  pending : s'.client.tracking.pendingRequests = s.client.tracking.pendingRequests ∨
    (∃ clOrdIds, .listing clOrdIds ∈ s'.evidence ∧
      s'.client.tracking = s.client.tracking.dropNew (clOrdIds.contains ·)) ∨
    e = .resultArm ∧ s.main = .clearingRequests
  cleanup : s'.cleanup = s.cleanup ∨ s'.cleanup = .waiting ∨ s'.cleanup = .idle
  sealing : Sealing s' → Sealing s

/-- A step that keeps the executor, the maps, the attempt and the pipeline. -/
theorem OutsideMove.keep {e : Event} (hput : s'.put = s.put)
    (hsettlement : s'.evidenceAtSettlement = s.evidenceAtSettlement)
    (hexecutor : s'.executor = s.executor)
    (hpending : s'.client.tracking.pendingRequests = s.client.tracking.pendingRequests)
    (hcleanup : s'.cleanup = s.cleanup) (hworker : s'.worker = s.worker)
    (hresults : s'.results = s.results) (hmain : s'.main = s.main) : OutsideMove s e s' where
  put := hput
  atSettlement := hsettlement
  outside := by rw [hexecutor]
  executor _ := hexecutor
  pending := .inl hpending
  cleanup := .inl hcleanup
  sealing := by
    unfold Sealing
    rw [hcleanup, hworker, hresults, hmain]
    exact id

/-- A step that keeps the executor, the maps and the attempt. -/
theorem OutsideMove.pipeline {e : Event} (hput : s'.put = s.put)
    (hsettlement : s'.evidenceAtSettlement = s.evidenceAtSettlement)
    (hexecutor : s'.executor = s.executor)
    (hpending : s'.client.tracking.pendingRequests = s.client.tracking.pendingRequests)
    (hcleanup : s'.cleanup = s.cleanup) (hsealing : Sealing s' → Sealing s) : OutsideMove s e s' where
  put := hput
  atSettlement := hsettlement
  outside := by rw [hexecutor]
  executor _ := hexecutor
  pending := .inl hpending
  cleanup := .inl hcleanup
  sealing := hsealing

theorem resultArmStep_outside (hs : s.resultArmStep = some s') : OutsideMove s .resultArm s' := by
  unfold resultArmStep at hs
  split at hs
  · next hmain =>
    cases hs
    exact .pipeline rfl rfl rfl rfl rfl fun _ => .inr (.inr (by simp [hmain, MainState.inArm]))
  · next hmain =>
    cases hs
    exact ⟨rfl, rfl, rfl, fun _ => rfl, .inr (.inr ⟨rfl, hmain⟩), .inl rfl,
      fun _ => .inr (.inr (by simp [hmain, MainState.inArm]))⟩
  · next hmain =>
    cases hs
    exact .pipeline rfl rfl rfl rfl rfl fun _ => .inr (.inr (by simp [hmain, MainState.inArm]))
  · exact absurd hs (by simp)

theorem deliver_outside (hmain : s.main = .ready) (hs : s.deliver = some s') :
    OutsideMove s .deliver s' := by
  unfold deliver at hs
  split at hs
  · next hresults =>
    have hsealing : Sealing s := .inr (.inr (by simp [hmain, hresults]))
    split at hs <;> cases hs <;> exact .pipeline rfl rfl rfl rfl rfl fun _ => hsealing
  · exact absurd hs (by simp)

theorem outside_step {e : Event} (houtside : e.Outside) (hs : s.step e = some s') :
    OutsideMove s e s' := by
  cases e with
  | executor | receive | reader | cleanup => exact houtside.elim
  | place | cancel =>
    simp only [step] at hs
    split at hs <;> cases hs
    next hidle =>
      exact ⟨rfl, rfl, by rw [hidle]; rfl, fun h => absurd h (by simp [Executor.inSection]),
        .inl rfl, .inl rfl, id⟩
  | connection | login | reconnect =>
    obtain ⟨-, ⟨⟩⟩ := betweenMessages_some hs
    exact .keep rfl rfl rfl rfl rfl rfl rfl rfl
  | pause =>
    obtain ⟨-, ⟨⟩⟩ := whenReady_some hs
    exact .keep rfl rfl rfl rfl rfl rfl rfl rfl
  | resume r =>
    simp only [step] at hs
    split at hs
    · exact absurd hs (by simp)
    · obtain ⟨-, ⟨⟩⟩ := whenReady_some hs
      exact .keep rfl rfl rfl rfl rfl rfl rfl rfl
  | begin =>
    obtain ⟨-, ⟨⟩⟩ := whenReady_some hs
    unfold OrderChannel.begin
    split
    · exact .keep rfl rfl rfl rfl rfl rfl rfl rfl
    · exact .keep rfl rfl rfl rfl rfl rfl rfl rfl
  | snapshot clOrdIds free =>
    obtain ⟨-, ⟨⟩⟩ := whenReady_some hs
    cases free with
    | false => exact .keep rfl rfl rfl rfl rfl rfl rfl rfl
    | true =>
      exact ⟨rfl, rfl, rfl, fun _ => rfl, .inr (.inl ⟨clOrdIds, List.mem_cons_self, rfl⟩), .inl rfl,
        id⟩
  | deliver =>
    obtain ⟨hmain, hs⟩ := whenReady_some hs
    exact deliver_outside hmain hs
  | resultArm => exact resultArmStep_outside hs
  | shutdown =>
    obtain ⟨-, ⟨⟩⟩ := whenReady_some hs
    exact ⟨rfl, rfl, rfl, fun _ => rfl, .inl rfl, .inr (.inr rfl),
      fun h => by simp [Sealing, OrderChannel.shutdown] at h⟩
  | takeRequest =>
    simp only [step] at hs
    split at hs <;> cases hs
    next hworker hrequests =>
      refine .pipeline rfl rfl rfl rfl rfl ?_
      simp [Sealing, hworker, WorkerState.isBusy, WorkerState.isCleaning]
  | attempt =>
    simp only [step] at hs
    split at hs <;> cases hs
    exact ⟨rfl, rfl, rfl, fun _ => rfl, .inl rfl, .inr (.inl rfl), fun h => by
      simp only [Sealing, reduceCtorEq, false_or] at h
      exact .inr (.inr h)⟩
  | report =>
    simp only [step] at hs
    split at hs <;> cases hs
    next generation hworker =>
      refine .pipeline rfl rfl rfl rfl rfl ?_
      rintro (hcleanup | hcleanup | ⟨hmain, -⟩)
      · exact .inl hcleanup
      · exact .inr (.inl hcleanup)
      · exact .inr (.inr ⟨hmain, .inl (by simp [hworker, WorkerState.isBusy, WorkerState.isCleaning])⟩)

/-! ### No order is written -/

/-- What the reader leaves alone. -/
theorem readerEvent_keeps {e : Event} (hreader : e.OfReader) (hs : s.step e = some s') :
    s'.executor = s.executor ∧ s'.put = s.put ∧ s'.execution = s.execution ∧
    s'.cleanup = s.cleanup ∧ s'.worker = s.worker ∧ s'.main = s.main ∧ s'.results = s.results ∧
    s'.evidenceAtSettlement = s.evidenceAtSettlement := by
  cases e with
  | receive answers r =>
    simp only [step, OrderChannel.receive] at hs
    split at hs
    · split at hs <;> cases hs
      simp
    · exact absurd hs (by simp)
  | reader =>
    cases hs
    simp [readerStep, setTracking]
  | _ => exact hreader.elim

/-- While new orders are blocked and the executor is outside its section, it stays there and
    nothing is written. -/
theorem quiet_step {e : Event} (hfence : Fenced s) (houtside : s.executor.inSection = false)
    (hs : s.step e = some s') : s'.executor.inSection = false ∧ s'.put = s.put := by
  cases e with
  | executor ok reached =>
    cases executorStep_moves hs with
    | stay hput hlock hsection => exact ⟨hsection.trans houtside, hput⟩
    | enter generation hput hfree hpermits =>
      rw [not_permits_of_fenced hfence generation] at hpermits
      exact absurd hpermits (by simp)
    | leave hput hinside | write clOrdId id hat hput hinside =>
      rw [houtside] at hinside
      exact absurd hinside (by simp)
  | cleanup answer =>
    obtain ⟨-, hexecutor, -, -, -, -, hput⟩ := cleanupStep_keeps hs
    exact ⟨by rw [hexecutor]; exact houtside, hput⟩
  | receive | reader =>
    obtain ⟨hexecutor, hput, -⟩ := readerEvent_keeps (by trivial) hs
    exact ⟨by rw [hexecutor]; exact houtside, hput⟩
  | _ =>
    have hmove := outside_step (by trivial) hs
    exact ⟨hmove.outside.trans houtside, hmove.put⟩

/-- Only the end of the result arm lets new orders pass again. -/
theorem fenced_step {e : Event} (hfence : Fenced s) (hs : s.step e = some s') :
    Fenced s' ∨ e = .resultArm ∧ s.main = .finishing := by
  cases e with
  | executor ok reached =>
    obtain ⟨hexecution, -⟩ := executorStep_keeps hs
    exact .inl (by rw [Fenced, hexecution]; exact hfence)
  | cleanup answer =>
    obtain ⟨hexecution, -⟩ := cleanupStep_keeps hs
    exact .inl (by rw [Fenced, hexecution]; exact hfence)
  | receive | reader =>
    obtain ⟨-, -, hexecution, -⟩ := readerEvent_keeps (by trivial) hs
    exact .inl (by rw [Fenced, hexecution]; exact hfence)
  | connection | login | reconnect =>
    obtain ⟨-, ⟨⟩⟩ := betweenMessages_some hs
    exact .inl hfence
  | snapshot clOrdIds free =>
    obtain ⟨-, ⟨⟩⟩ := whenReady_some hs
    cases free <;> exact .inl hfence
  | pause r =>
    obtain ⟨-, ⟨⟩⟩ := whenReady_some hs
    exact .inl (hfence.imp (ExecutionState.setPauseReason_shutdown _ r).trans
      fun hpause => ExecutionState.hasPauseReason_set_of_has hpause r)
  | shutdown =>
    obtain ⟨-, ⟨⟩⟩ := whenReady_some hs
    exact .inl (.inl rfl)
  | resume r =>
    simp only [step] at hs
    split at hs
    · exact absurd hs (by simp)
    · next hr =>
      obtain ⟨-, ⟨⟩⟩ := whenReady_some hs
      exact .inl (hfence.imp id (ExecutionState.hasPauseReason_clear_of_ne _ hr).trans)
  | begin =>
    obtain ⟨-, ⟨⟩⟩ := whenReady_some hs
    unfold OrderChannel.begin
    split
    · exact .inl hfence
    · exact .inl (.inr (ExecutionState.hasPauseReason_set_self _ _))
  | deliver =>
    obtain ⟨-, hs⟩ := whenReady_some hs
    unfold OrderChannel.deliver at hs
    split at hs
    · split at hs <;> cases hs <;> exact .inl hfence
    · exact absurd hs (by simp)
  | resultArm =>
    simp only [step, OrderChannel.resultArmStep] at hs
    split at hs
    · cases hs; exact .inl hfence
    · cases hs; exact .inl hfence
    · next hmain => exact .inr ⟨rfl, hmain⟩
    · exact absurd hs (by simp)
  | place | cancel | takeRequest | attempt | report =>
    simp only [step] at hs
    split at hs <;> cases hs
    exact .inl hfence

/-- From the section of an attempt no order is written before a result arm ends. -/
theorem no_write_until_finish (h : Ordered s) (hsection : s.cleanup.inSection = true) {es : List Event}
    (hrun : exec step s es = some s') :
    s'.put = s.put ∨ ∃ pre post t, es = pre ++ .resultArm :: post ∧ exec step s pre = some t ∧
      t.put = s.put ∧ t.main = .finishing := by
  have hattempt : s.cleanup ≠ .idle := by
    intro hidle
    rw [hidle] at hsection
    exact absurd hsection (by decide)
  have hrule := exec_unless
    (fun t => Fenced t ∧ t.executor.inSection = false ∧ t.put = s.put)
    (fun t e => e = .resultArm ∧ t.main = .finishing)
    (fun t e t' ht hstep => by
      obtain ⟨hfence, houtside, hput⟩ := ht
      obtain ⟨houtside', hput'⟩ := quiet_step hfence houtside hstep
      exact (fenced_step hfence hstep).imp (fun hfence' => ⟨hfence', houtside', hput'.trans hput⟩) id)
    ⟨h.fenced_of_attempt hattempt, h.exclusive hsection, rfl⟩ hrun
  obtain ⟨-, -, hput⟩ | ⟨pre, e, post, t, rfl, ht, ⟨-, -, hput⟩, rfl, hmain⟩ := hrule
  · exact .inl hput
  · exact .inr ⟨pre, post, t, rfl, ht, hput, hmain⟩

end OrderChannel

end MarketMaker
