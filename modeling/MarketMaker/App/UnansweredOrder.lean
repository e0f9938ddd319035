import MarketMaker.App.PauseSchedule
import MarketMaker.App.WarmUp
import MarketMaker.Trading.Rollback

/-!
# The unanswered order

An order or a cancellation whose response never comes is found by the periodic timeout check.  From
then on nothing is sent until the worker's result is delivered, and what that result wipes out of the
slots was sent before a cleanup attempt that returned `Ok(true)`.

* `checkOrderTimeouts_pending` — an overdue order leaves a reconciliation pending, whether or not its
  cancellation reaches the executor.
* `Tended.verified_after_send` — no result is delivered between a `Send` and the next verified attempt.
* `unanswered_order` — both, over every interleaving of the main loop and the worker.
-/

set_option autoImplicit false

namespace MarketMaker

open Word64
open OrderManager (Calls Operation)

namespace App

/-! ## The timeout check -/

/-- An order of the symbol's manager that waits for a response longer than the timeout allows. -/
def Overdue (app : App) (now : Clocks) (symbol : String) : Prop :=
  ∃ i o, (app.managers symbol).orders i = some o ∧ o.state ≠ .live ∧
    asI64 (app.managers symbol).config.pendingTimeoutNs < now.unixNs - o.sentAtNs

theorem timeoutLoop_overdue (reaches : String → Nat → Bool) (now : Clocks) {symbol : String}
    {symbols : List String} (hs : symbol ∈ symbols) {app : App} (hlate : app.Overdue now symbol) :
    (timeoutLoop reaches now symbols app).1 = true := by
  induction symbols generalizing app with
  | nil => cases hs
  | cons head symbols ih =>
    unfold timeoutLoop
    dsimp only
    rw [Bool.or_eq_true]
    by_cases hhead : symbol = head
    · -- its own turn: the order is one of the decisions
      subst hhead
      obtain ⟨i, o, ho, hstate, hdue⟩ := hlate
      have hmem := OrderManager.mem_checkTimeouts.mpr ⟨i, o, ho, hstate, hdue, rfl⟩
      refine Or.inl ?_
      rw [Bool.not_eq_true', List.isEmpty_eq_false_iff]
      exact List.ne_nil_of_mem hmem
    · -- the turn of another manager leaves this one alone
      refine Or.inr (ih ((List.mem_cons.mp hs).resolve_left hhead) ?_)
      unfold Overdue
      rw [dispatchAll_managers_of_ne _ hhead]
      exact hlate

/-- **An overdue order starts a reconciliation**, unless one is pending. -/
theorem checkOrderTimeouts_pending {app : App} (hon : app.config.orderEnabled = true)
    (reaches : String → Nat → Bool) {now : Clocks} {symbol : String} (hs : symbol ∈ app.config.symbols)
    (hlate : app.Overdue now symbol) :
    (app.checkOrderTimeouts reaches now).reconciliationPending = true := by
  have hmoves : Moves (Allowed now .checkDepthStale) app
      (timeoutLoop reaches now app.config.symbols app).2.2 :=
    timeoutLoop_moves reaches now Rollback.allowed trivial app.config.symbols app
  have hon' : (timeoutLoop reaches now app.config.symbols app).2.2.config.orderEnabled = true := by
    rw [hmoves.config]
    exact hon
  unfold checkOrderTimeouts
  split
  · rename_i hskip
    simpa [hon] using hskip
  · dsimp only
    rw [timeoutLoop_overdue reaches now hs hlate, if_pos rfl]
    split <;> exact beginAccountReconciliation_pending hon' _

/-! ## While a reconciliation is pending -/

/-- No arm but the result's lifts `Reconciliation`, and under it nothing is sent. -/
theorem calls_fenced {now : Clocks} {e : Event} {m m' : OrderManager}
    (he : ∀ result, e ≠ .reconciliationResult result) (h : Calls (Allowed now e) m m')
    (hm : m.hasPauseReason .reconciliation = true) :
    m'.hasPauseReason .reconciliation = true ∧ m'.stats.ordersSent = m.stats.ordersSent := by
  refine h.preserves (fun m' => m'.hasPauseReason .reconciliation = true ∧
    m'.stats.ordersSent = m.stats.ordersSent) ?_ ⟨hm, rfl⟩
  intro m' op hop ⟨hpaused, hsent⟩
  refine ⟨OrderManager.apply_keeps_reason (fun hclears => ?_) hpaused,
    (OrderManager.apply_sent_paused hpaused op).trans hsent⟩
  cases op with
  | clearPauseReason r =>
    cases hclears
    exact hop
  | finishReconciliation =>
    obtain ⟨result, heq⟩ := hop
    exact he result heq
  | resetCircuitBreaker => exact hop
  | _ => exact hclears

theorem handle_keeps_pending {app : App} (now : Clocks) {e : Event}
    (he : ∀ result, e ≠ .reconciliationResult result) (hpending : app.reconciliationPending = true) :
    (app.handle now e).reconciliationPending = true := by
  rcases app.handle_reconciliation now he with hidle | hbegin
  · exact hidle.pending.trans hpending
  · exact hbegin.pending

end App

namespace Recovery

open App (Scheduled Overdue handle_scheduled)

variable {config : AppConfig} {s s' t t' : Recovery}

theorem wallStep_act {e : Clocks × Action} (h : wallStep s e = some s') : s.act e.1 e.2 = some s' := by
  unfold wallStep at h
  split at h
  · cases h
  · exact h

/-! ## Between the check and the result -/

/-- A reconciliation is pending and the managers have sent what they had. -/
structure Fenced (config : AppConfig) (sent : String → Nat) (s : Recovery) : Prop where
  tended : Tended config s
  pending : s.app.reconciliationPending = true
  sent : ∀ symbol ∈ config.symbols, (s.app.managers symbol).stats.ordersSent = sent symbol

theorem Tended.paused (h : Tended config s) (hpending : s.app.reconciliationPending = true)
    {symbol : String} (hs : symbol ∈ config.symbols) :
    (s.app.managers symbol).hasPauseReason .reconciliation = true :=
  (h.scheduled.reconciliation symbol (h.config_eq ▸ hs)).trans hpending

/-- Only the delivery of a result opens the fence. -/
theorem Fenced.step {sent : String → Nat} {e : Clocks × Action} (h : Fenced config sent s)
    (hstep : wallStep s e = some s') (he : e.2 ≠ .deliver) : Fenced config sent s' := by
  have htended := h.tended.step hstep
  rcases act_app (wallStep_act hstep) with ⟨event, hevent, rfl⟩ | ⟨requests, happ⟩ | hdeliver
  · refine ⟨htended, App.handle_keeps_pending e.1 hevent h.pending, fun symbol hs => ?_⟩
    have hcalls := s.app.handle_calls e.1 event symbol
    exact (App.calls_fenced hevent hcalls (h.tended.paused h.pending hs)).2.trans (h.sent symbol hs)
  · refine ⟨htended, ?_, fun symbol hs => ?_⟩
    · rw [happ]
      exact h.pending
    · rw [happ]
      exact h.sent symbol hs
  · exact absurd hdeliver he

/-- The fence holds along a run without a delivery. -/
theorem Fenced.exec {sent : String → Nat} {es : List (Clocks × Action)} (h : Fenced config sent s)
    (hexec : Runs.exec wallStep s es = some s') (hes : ∀ e ∈ es, e.2 ≠ .deliver) : Fenced config sent s' :=
  Runs.exec_invariant_of (Fenced config sent) (fun _ e => e.2 ≠ .deliver)
    (fun _ _ _ h he hstep => h.step hstep he) h (Runs.along_of_forall hes) hexec

/-! ## From a `Send` to the next verified attempt -/

/-- A step in which some configured symbol's manager sends an order. -/
def Sent (config : AppConfig) (s s' : Recovery) : Prop :=
  ∃ symbol ∈ config.symbols,
    (s.app.managers symbol).stats.ordersSent < (s'.app.managers symbol).stats.ordersSent

/-- Nothing is sent while a cleanup is under way or its result waits, so after a `Send` no result is
    waiting. -/
theorem Tended.not_verified_of_sent {e : Clocks × Action} (h : Tended config s)
    (hstep : wallStep s e = some s') (hsent : Sent config s s') : s'.verified = false := by
  obtain ⟨symbol, hs, hlt⟩ := hsent
  have hact := wallStep_act hstep
  rcases act_app hact with ⟨event, hevent, rfl⟩ | ⟨requests, happ⟩ | hdeliver
  · have hidle : s.app.reconciliationPending = false := by
      by_contra hpending
      rw [Bool.not_eq_false] at hpending
      have hfenced := App.calls_fenced hevent (s.app.handle_calls e.1 event symbol) (h.paused hpending hs)
      exact absurd hfenced.2 (Nat.ne_of_gt hlt)
    exact h.outstanding.idle_not_verified hidle
  · rw [happ] at hlt
    exact absurd hlt (lt_irrefl _)
  · rw [hdeliver] at hact
    rw [(h.outstanding.deliver hact).2] at hlt
    exact absurd hlt (lt_irrefl _)

/-- A result waits only if one waited before or the action is a verified attempt. -/
theorem verified_of_act {now : Clocks} {action : Action} (h : s.act now action = some s')
    (hv : s'.verified = true) : s.verified = true ∨ action.verifies = true := by
  by_cases hdeliver : action = .deliver
  · subst hdeliver
    simp only [act] at h
    split at h
    · rename_i hresults
      exact Or.inl (by simp [verified, hresults])
    · cases h
  · exact (verified_act h hdeliver).mp hv

/-- Without a verified attempt no result comes to wait. -/
theorem verified_of_exec {es : List (Clocks × Action)} (h : Runs.exec wallStep s es = some s')
    (hv : s'.verified = true) : s.verified = true ∨ ∃ e ∈ es, Verifies e := by
  induction es generalizing s with
  | nil =>
    cases h
    exact Or.inl hv
  | cons e es ih =>
    obtain ⟨t, ht, hes⟩ := Runs.exec_cons_some h
    rcases ih hes with hfirst | ⟨e', he', hverifies⟩
    · rcases verified_of_act (wallStep_act ht) hfirst with hold | hverifies
      · exact Or.inl hold
      · exact Or.inr ⟨e, .head _, hverifies⟩
    · exact Or.inr ⟨e', .tail _ he', hverifies⟩

/-- **No result between a `Send` and a verified attempt.** -/
theorem Tended.verified_after_send {e : Clocks × Action} {es : List (Clocks × Action)} {now : Clocks}
    (h : Tended config s) (hstep : wallStep s e = some s') (hsent : Sent config s s')
    (hexec : Runs.exec wallStep s' es = some t) (hdeliver : wallStep t (now, .deliver) = some t') :
    ∃ e ∈ es, Verifies e := by
  have hwaits : t.verified = true := by
    have hact := wallStep_act hdeliver
    simp only [act] at hact
    split at hact
    · rename_i hresults
      simp [verified, hresults]
    · cases hact
  rcases verified_of_exec hexec hwaits with hbefore | hverifies
  · rw [h.not_verified_of_sent hstep hsent] at hbefore
    cases hbefore
  · exact hverifies

/-- The delivery of a result empties every slot. -/
theorem Tended.deliver_empties {now : Clocks} (h : Tended config s)
    (hdeliver : wallStep s (now, .deliver) = some s') (symbol : String) (i : Slot) :
    (s'.app.managers symbol).orders i = none := by
  rw [(h.outstanding.deliver (wallStep_act hdeliver)).2]
  rfl

/-- **The unanswered order.**  Let the periodic check find an order without a response for longer than
    the timeout, in any reachable state, whether or not its cancellation reaches the executor.  Up to
    the next delivered result a reconciliation is pending, the managers are paused and nothing is sent;
    the delivery empties every slot, and each `Send` of the run before it has a later cleanup attempt
    that returned `Ok(true)`. -/
theorem unanswered_order {managerConfig : String → OrderManagerConfig} {equity : SharedEquity}
    {startMs : Int} (hon : config.orderEnabled = true) {es₁ es₂ : List (Clocks × Action)}
    {s₁ s₂ s₃ : Recovery}
    (hbefore : Runs.exec wallStep (new (.new config managerConfig equity startMs)) es₁ = some s₁)
    {now : Clocks} {reaches : String → Nat → Bool} {symbol : String} (hs : symbol ∈ config.symbols)
    (hlate : s₁.app.Overdue now symbol)
    (hcheck : wallStep s₁ (now, .loop (.checkOrderTimeouts reaches)) = some s₂)
    (hafter : Runs.exec wallStep s₂ es₂ = some s₃) (hundelivered : ∀ e ∈ es₂, e.2 ≠ .deliver) :
    s₃.app.reconciliationPending = true ∧
    (∀ symbol ∈ config.symbols, (s₃.app.managers symbol).hasPauseReason .reconciliation = true ∧
      (s₃.app.managers symbol).stats.ordersSent = (s₂.app.managers symbol).stats.ordersSent) ∧
    ∀ later s₄, wallStep s₃ (later, .deliver) = some s₄ →
      (∀ symbol i, (s₄.app.managers symbol).orders i = none) ∧
      ∀ fs gs e t t', es₁ ++ (now, .loop (.checkOrderTimeouts reaches)) :: es₂ = fs ++ e :: gs →
        Runs.exec wallStep (new (.new config managerConfig equity startMs)) fs = some t →
        wallStep t e = some t' → Sent config t t' → ∃ e ∈ gs, Verifies e := by
  have hnew := new_tended hon managerConfig equity startMs
  have htended : Tended config s₁ :=
    Runs.exec_invariant (Tended config) (fun _ _ _ h hstep => h.step hstep) hnew hbefore
  have hpending : s₂.app.reconciliationPending = true := by
    have hact := wallStep_act hcheck
    cases hact
    exact App.checkOrderTimeouts_pending htended.scheduled.enabled reaches (htended.config_eq ▸ hs) hlate
  have hfence : Fenced config (fun symbol => (s₂.app.managers symbol).stats.ordersSent) s₂ :=
    ⟨htended.step hcheck, hpending, fun _ _ => rfl⟩
  have hfenced := hfence.exec hafter hundelivered
  refine ⟨hfenced.pending, fun symbol hs => ?_, fun later s₄ hdeliver => ?_⟩
  · exact ⟨hfenced.tended.paused hfenced.pending hs, hfenced.sent symbol hs⟩
  refine ⟨hfenced.tended.deliver_empties hdeliver, ?_⟩
  intro fs gs e t t' hsplit hfs hstep hsent
  have hwhole : Runs.exec wallStep (new (.new config managerConfig equity startMs)) (fs ++ e :: gs) =
      some s₃ := by
    rw [← hsplit, Runs.exec_append, hbefore, Option.bind_some, Runs.exec_cons, hcheck, Option.bind_some]
    exact hafter
  obtain ⟨t₀, ht₀, hrest⟩ := Runs.exec_append_some hwhole
  cases hfs.symm.trans ht₀
  obtain ⟨t₁, ht₁, hgs⟩ := Runs.exec_cons_some hrest
  cases hstep.symm.trans ht₁
  have ht : Tended config t :=
    Runs.exec_invariant (Tended config) (fun _ _ _ h hstep => h.step hstep) hnew hfs
  exact ht.verified_after_send hstep hsent hgs hdeliver

/-- Every list of arms is a run of the main loop alone. -/
theorem exec_loops {es : List (Clocks × App.Event)} (s : Recovery)
    (hes : ∀ e ∈ es, e.1.unixMs ≠ 0 ∧ ∀ result, e.2 ≠ .reconciliationResult result) :
    Runs.exec wallStep s (es.map fun e => (e.1, .loop e.2)) = some { s with app := s.app.after es } := by
  induction es generalizing s with
  | nil => rfl
  | cons e es ih =>
    obtain ⟨hms, hevent⟩ := hes e (.head _)
    have hstep : wallStep s (e.1, .loop e.2) = some { s with app := s.app.handle e.1 e.2 } := by
      unfold wallStep
      rw [if_neg hms]
      obtain ⟨now, event⟩ := e
      cases event with
      | reconciliationResult result => exact absurd rfl (hevent result)
      | _ => rfl
    rw [List.map_cons, Runs.exec_cons, hstep, Option.bind_some, ih _ fun e he => hes e (.tail _ he)]
    rfl

/-- The worker takes up the request, and its second attempt is verified. -/
def cleanedUp : List (Clocks × Action) :=
  [(App.atSecond 100, .receive), (App.atSecond 101, .attempt .unsettled),
   (App.atSecond 103, .attempt .verified), (App.atSecond 103, .report)]

/-- Neither the bid nor the ask is answered: the check finds them, and they are gone once a cleanup has
    been verified and its result is delivered. -/
theorem unanswered_order_firstOrders :
    ∃ s₁ s₂ s₃ s₄,
      Runs.exec wallStep (new App.live) (App.firstOrders.map fun e => (e.1, .loop e.2)) = some s₁ ∧
      wallStep s₁ (App.atSecond 99, .loop (.checkOrderTimeouts fun _ _ => true)) = some s₂ ∧
      Runs.exec wallStep s₂ cleanedUp = some s₃ ∧
      wallStep s₃ (App.atSecond 104, .deliver) = some s₄ ∧
      ((s₁.app.managers "BTC-USD").orders (.buy, 0)).isSome = true ∧ s₃.app.reconciliationPending = true ∧
      (s₄.app.managers "BTC-USD").orders (.buy, 0) = none := by
  have hbefore : Runs.exec wallStep (new App.live) (App.firstOrders.map fun e => (e.1, .loop e.2)) =
      some { new App.live with app := App.quoting } :=
    exec_loops _ (by simp [App.firstOrders, App.depthQuote, App.atSecond, Clocks.unixMs])
  have hcheck : wallStep { new App.live with app := App.quoting }
      (App.atSecond 99, .loop (.checkOrderTimeouts fun _ _ => true)) = some { new App.live with
        app := App.quoting.handle (App.atSecond 99) (.checkOrderTimeouts fun _ _ => true) } := rfl
  have hslot : ((App.quoting.managers "BTC-USD").orders (.buy, 0)).any (fun o => decide (o.state ≠ .live ∧
      asI64 (App.quoting.managers "BTC-USD").config.pendingTimeoutNs <
        (App.atSecond 99).unixNs - o.sentAtNs)) = true := by decide +kernel
  obtain ⟨o, ho, hdue⟩ := (Option.any_eq_true _ _).mp hslot
  have hdue := of_decide_eq_true hdue
  have hrecovers : (Runs.exec wallStep { new App.live with
      app := App.quoting.handle (App.atSecond 99) (.checkOrderTimeouts fun _ _ => true) }
      (cleanedUp ++ [(App.atSecond 104, .deliver)])).isSome = true := by decide +kernel
  obtain ⟨s₄, hs₄⟩ := Option.isSome_iff_exists.mp hrecovers
  obtain ⟨s₃, hs₃, hlast⟩ := Runs.exec_append_some hs₄
  rw [Runs.exec_singleton] at hlast
  obtain ⟨hpending, _, hempty⟩ := unanswered_order rfl hbefore (by decide) ⟨(.buy, 0), o, ho, hdue⟩ hcheck hs₃
    (by simp [cleanedUp])
  exact ⟨_, _, s₃, s₄, hbefore, hcheck, hs₃, hlast, by rw [ho]; rfl, hpending, (hempty _ _ hlast).1 _ _⟩

end Recovery

end MarketMaker
