import MarketMaker.Base.Run
import MarketMaker.App.Calls

/-!
# The rejection streak

What arms the circuit breaker of a manager: `on_order_rejected` counts, an acceptance that is
correlated sets the count back.  A manager is given calls and open-orders snapshots in any order.

* `step_count` — what one event does to the count.
* `breaker_counts` — `N` rejections set the pause, unless an order that was confirmed before is
  confirmed again in between.
* `reconfirmed_unchanged_iff` — confirming a bound order again changes nothing exactly when there
  was nothing to set back.
* `snapshots_hide_rejections` — five rejections with a REST poll after each leave the breaker open.
-/

set_option autoImplicit false

namespace MarketMaker.RejectionStreak

open OrderManager (Operation)
open App (OpenOrdersSnapshot ObservedOpenOrder fillFault)

/-- What a manager is given.  `clear_pause_reason` is called for the socket, the market data and
    the risk data only. -/
inductive ManagerEvent where
  | call (op : Operation) (hop : op ≠ .clearPauseReason .circuitBreaker)
  | snapshot (position : SharedPosition) (snapshot : OpenOrdersSnapshot)

/-- Take one event. -/
def handle (m : OrderManager) : ManagerEvent → OrderManager
  | .call op _ => (m.apply op).1
  | .snapshot position snapshot => (App.applySnapshot m position snapshot).1

/-- Every event may come at any time. -/
def step (m : OrderManager) (e : ManagerEvent) : Option OrderManager := some (handle m e)

/-- An `on_order_rejected`. -/
def ManagerEvent.isRejection : ManagerEvent → Bool
  | .call (.rejected ..) _ => true
  | _ => false

/-- `finish_reconciliation` or `reset_circuit_breaker`. -/
def ManagerEvent.resetsBreaker : ManagerEvent → Bool
  | .call .finishReconciliation _ | .call .resetCircuitBreaker _ => true
  | _ => false

/-- The number of rejections among some events. -/
def rejections (es : List ManagerEvent) : Nat := es.countP ManagerEvent.isRejection

/-- An order has moved from `Pending` to `Live`. -/
def confirms (m m' : OrderManager) : Bool :=
  slotsBySide.any fun i =>
    (m.orders i).any (·.state == .pending) && (m'.orders i).any (·.state == .live)

/-- The event neither confirms a new order nor resets the breaker. -/
def Undisturbed (m : OrderManager) (e : ManagerEvent) : Prop :=
  confirms m (handle m e) = false ∧ e.resetsBreaker = false

instance (m : OrderManager) (e : ManagerEvent) : Decidable (Undisturbed m e) :=
  inferInstanceAs (Decidable (_ ∧ _))

/-! ## Confirming twice -/

/-- The two identity checks of `on_order_accepted`: the order carries no other exchange id, and no
    other order carries this one. -/
def Correlated (m : OrderManager) (o : LiveOrder) (clOrdId : String) (orderId : Int) : Prop :=
  (∀ bound, o.orderId = some bound → orderId = 0 ∨ bound = 0 ∨ bound = orderId) ∧
  (orderId = 0 ∨ ∀ j o', m.orders j = some o' → o'.orderId = some orderId → o'.clOrdId = clOrdId)

/-- The first acceptance the loop over the observed orders comes to, if it comes to one. -/
def firstObserved (symbol : String) (m : OrderManager) : List ObservedOpenOrder → Option (String × Int)
  | [] => none
  | o :: os =>
    match o.clOrdId with
    | none => none
    | some clOrdId =>
      if !m.hasTrackedOrder clOrdId then firstObserved symbol m os
      else if (fillFault symbol clOrdId o).isNone then some (clOrdId, o.orderId)
      else none

/-- The first acceptance an event brings. -/
def ManagerEvent.acceptance (m : OrderManager) : ManagerEvent → Option (String × Int)
  | .call (.accepted clOrdId orderId) _ => some (clOrdId, orderId)
  | .call _ _ => none
  | .snapshot _ view =>
    if m.hasPauseReason .reconciliation
        ∨ (m.firstMissingRestOrder (view.orders.map (·.orderId))).isSome
        ∨ (m.firstStaleUnconfirmedRestOrder (view.orders.filterMap (·.clOrdId))
            view.observedAtNs App.REST_CONFIRMATION_GRACE_NS).isSome then none
    else firstObserved view.symbol m view.orders

/-- The acceptance is correlated with an order that is `Live` or `Canceling` already. -/
def Reconfirmed (m : OrderManager) (acceptance : Option (String × Int)) : Prop :=
  ∃ clOrdId orderId o, acceptance = some (clOrdId, orderId) ∧ m.findOrder clOrdId = some o ∧
    o.state ≠ .pending ∧ Correlated m o clOrdId orderId

/-- The event confirms an order that is `Live` or `Canceling` already, while rejections are
    counted. -/
def Reconfirms (m : OrderManager) (e : ManagerEvent) : Prop :=
  m.consecutiveRejections ≠ 0 ∧ Reconfirmed m (e.acceptance m)

theorem findOrder_some {m : OrderManager} {clOrdId : String} {o : LiveOrder}
    (h : m.findOrder clOrdId = some o) :
    ∃ i, m.findSlot (fun o => o.clOrdId == clOrdId) = some i ∧ m.orders i = some o := by
  unfold OrderManager.findOrder at h
  exact Option.bind_eq_some_iff.mp h

/-- What an acceptance of a tracked order does: nothing unless the ids agree, and otherwise it
    marks the order and sets the count back. -/
theorem accepted_cases {m : OrderManager} {clOrdId : String} (orderId : Int) {o : LiveOrder}
    (ho : m.findOrder clOrdId = some o) :
    (¬ Correlated m o clOrdId orderId ∧ m.onOrderAccepted clOrdId orderId = (false, m)) ∨
    (Correlated m o clOrdId orderId ∧ (m.onOrderAccepted clOrdId orderId).1 = true ∧
      ∃ i, m.orders i = some o ∧ ∃ stats, (o.state ≠ .pending → stats = m.stats) ∧
        (m.onOrderAccepted clOrdId orderId).2 = { m with
          consecutiveRejections := 0
          stats := stats
          orders := Function.update m.orders i (some (o.accept orderId)) }) := by
  obtain ⟨i, hi, hio⟩ := findOrder_some ho
  unfold OrderManager.onOrderAccepted
  rw [hi]
  dsimp only
  split
  · rename_i hconflict
    refine Or.inl ⟨fun hcorr => ?_, rfl⟩
    obtain ⟨hzero, hbound⟩ := hconflict
    rw [hio] at hbound
    cases hid : o.orderId with
    | none => simp [hid] at hbound
    | some bound =>
      have := hcorr.1 bound hid
      simp only [hid, Option.bind_some, Option.any_some, Bool.and_eq_true, bne_iff_ne] at hbound
      rcases this with h | h | h
      · exact hzero h
      · exact hbound.1 h
      · exact hbound.2 h
  · rename_i hconflict
    split
    · rename_i hother
      refine Or.inl ⟨fun hcorr => ?_, rfl⟩
      obtain ⟨hzero, hother⟩ := hother
      obtain ⟨j, _, hj⟩ := List.any_eq_true.mp hother
      obtain ⟨o', ho', hbound⟩ := (Option.any_eq_true _ _).mp hj
      simp only [Bool.and_eq_true, beq_iff_eq, bne_iff_ne] at hbound
      exact hbound.2 ((hcorr.2.resolve_left hzero) j o' ho' hbound.1)
    · rename_i hother
      refine Or.inr ⟨⟨fun bound hid => ?_, ?_⟩, rfl, i, hio, ?_⟩
      · by_contra hne
        push Not at hne
        exact hconflict ⟨hne.1, by simp [hio, hid, hne.2.1, hne.2.2]⟩
      · by_contra hne
        push Not at hne
        obtain ⟨hzero, j, o', ho', hbound, hid⟩ := hne
        exact hother ⟨hzero, List.any_eq_true.mpr ⟨j, mem_slotsBySide j, by simp [ho', hbound, hid]⟩⟩
      · by_cases hpending : o.state = .pending
        · exact ⟨{ m.stats with ordersAccepted := m.stats.ordersAccepted + 1 }, fun h => absurd hpending h,
            by simp [hio, hpending, OrderManager.modifySlot, OrderManager.setSlot]⟩
        · exact ⟨m.stats, fun _ => rfl,
            by simp [hio, hpending, OrderManager.modifySlot, OrderManager.setSlot]⟩

/-- Confirming again an order that is bound to this id changes nothing exactly when no rejection
    is counted, or another order carries the id too. -/
theorem reconfirmed_unchanged_iff {m : OrderManager} {clOrdId : String} {orderId : Int}
    {o : LiveOrder} (ho : m.findOrder clOrdId = some o) (hstate : o.state ≠ .pending)
    (hbound : o.orderId = some orderId) :
    (m.onOrderAccepted clOrdId orderId).2 = m ↔ m.consecutiveRejections = 0 ∨
      (orderId ≠ 0 ∧ ∃ j o', m.orders j = some o' ∧ o'.orderId = some orderId ∧ o'.clOrdId ≠ clOrdId) := by
  have hsame : o.accept orderId = o := by
    obtain ⟨id, bound, side, level, price, quantity, state, sentAt, fails⟩ := o
    cases hbound
    simp only [LiveOrder.accept, if_neg hstate]
    split <;> rfl
  rcases accepted_cases orderId ho with ⟨hcorr, hm⟩ | ⟨hcorr, _, i, hio, stats, hstats, hm⟩
  · rw [hm]
    refine ⟨fun _ => Or.inr ?_, fun _ => rfl⟩
    by_contra hne
    push Not at hne
    refine hcorr ⟨fun bound hid => Or.inr (Or.inr ?_), ?_⟩
    · exact Option.some.inj (hid.symm.trans hbound)
    · by_cases hzero : orderId = 0
      · exact Or.inl hzero
      · exact Or.inr (hne hzero)
  · rw [hm, hstats hstate, hsame, ← hio, Function.update_eq_self]
    constructor
    · intro heq
      exact Or.inl (congrArg (·.consecutiveRejections) heq).symm
    · rintro (hzero | ⟨hnonzero, j, o', ho', hid, hne⟩)
      · obtain ⟨⟩ := m
        cases hzero
        rfl
      · exact absurd (hcorr.2.resolve_left hnonzero j o' ho' hid) hne

/-! ## What an event does to the count -/

theorem confirms_of_pending {m m' : OrderManager} {i : Slot} {o o' : LiveOrder}
    (ho : m.orders i = some o) (hstate : o.state = .pending) (ho' : m'.orders i = some o')
    (hstate' : o'.state = .live) : confirms m m' = true :=
  List.any_eq_true.mpr ⟨i, mem_slotsBySide i, by simp [ho, ho', hstate, hstate']⟩

/-- What stays live was confirmed, if it was confirmed before. -/
theorem confirms_of_live {m m' m'' : OrderManager} (h : confirms m m' = true)
    (hlive : ∀ i, (m'.orders i).any (·.state == .live) = true → (m''.orders i).any (·.state == .live) = true) :
    confirms m m'' = true := by
  obtain ⟨i, hi, hmoved⟩ := List.any_eq_true.mp h
  simp only [Bool.and_eq_true] at hmoved
  exact List.any_eq_true.mpr ⟨i, hi, by simp only [hmoved.1, hlive i hmoved.2, Bool.and_self]⟩

/-- No acceptance takes an order out of `Live`. -/
theorem onOrderAccepted_live (m : OrderManager) (clOrdId : String) (orderId : Int) {i : Slot}
    (h : (m.orders i).any (·.state == .live) = true) :
    (((m.onOrderAccepted clOrdId orderId).2).orders i).any (·.state == .live) = true := by
  rcases m.onOrderAccepted_outcome clOrdId orderId with heq | ⟨_, j, o, haccept⟩
  · rw [heq]; exact h
  · rw [haccept.orders]
    by_cases hij : i = j
    · subst hij
      rw [haccept.slot] at h
      have hlive : o.state = .live := by simpa using h
      simp [LiveOrder.accept, hlive]
    · rw [Function.update_of_ne hij]
      exact h

theorem confirmOrders_live (symbol : String) (position : SharedPosition) (os : List ObservedOpenOrder)
    (m : OrderManager) (confirmed : Nat) {i : Slot}
    (h : (m.orders i).any (·.state == .live) = true) :
    ((App.confirmOrders symbol position m confirmed os).1.orders i).any (·.state == .live) = true := by
  refine (App.confirmOrders_calls symbol position os m confirmed).preserves
    (fun m => (m.orders i).any (·.state == .live) = true) (fun m op hop hlive => ?_) h
  cases op with
  | accepted clOrdId orderId => exact onOrderAccepted_live m clOrdId orderId hlive
  | requirePositionRefresh => exact hlive
  | _ => cases hop

/-- An acceptance that confirms no pending order sets the count back if it is correlated, and
    otherwise changes nothing. -/
theorem accepted_count {m : OrderManager} {clOrdId : String} {orderId : Int}
    (hquiet : confirms m (m.onOrderAccepted clOrdId orderId).2 = false) :
    (¬ Reconfirmed m (some (clOrdId, orderId)) ∧ m.onOrderAccepted clOrdId orderId = (false, m)) ∨
    (Reconfirmed m (some (clOrdId, orderId)) ∧ (m.onOrderAccepted clOrdId orderId).1 = true ∧
      (m.onOrderAccepted clOrdId orderId).2.consecutiveRejections = 0) := by
  cases ho : m.findOrder clOrdId with
  | none =>
    refine Or.inl ⟨?_, ?_⟩
    · rintro ⟨_, _, o, hsome, ho', _⟩
      cases hsome
      rw [ho] at ho'
      cases ho'
    · unfold OrderManager.onOrderAccepted
      cases hslot : m.findSlot fun o => o.clOrdId == clOrdId with
      | none => rfl
      | some i =>
        obtain ⟨o, hio, _⟩ := OrderManager.findSlot_some hslot
        simp [OrderManager.findOrder, hslot, hio] at ho
  | some o =>
    rcases accepted_cases orderId ho with ⟨hcorr, hm⟩ | ⟨hcorr, haccepted, i, hio, stats, _, hm⟩
    · refine Or.inl ⟨?_, hm⟩
      rintro ⟨_, _, o', hsome, ho', _, hcorr'⟩
      cases hsome
      rw [ho] at ho'
      cases ho'
      exact hcorr hcorr'
    · refine Or.inr ⟨⟨clOrdId, orderId, o, rfl, ho, fun hpending => ?_, hcorr⟩, haccepted, by rw [hm]⟩
      have hslot : (m.onOrderAccepted clOrdId orderId).2.orders i = some (o.accept orderId) := by
        rw [hm]
        exact Function.update_self ..
      have hconfirmed := confirms_of_pending hio hpending hslot (by simp [LiveOrder.accept, hpending])
      rw [hquiet] at hconfirmed
      cases hconfirmed

theorem onOrderAccepted_count_zero (m : OrderManager) (clOrdId : String) (orderId : Int)
    (h : m.consecutiveRejections = 0) :
    (m.onOrderAccepted clOrdId orderId).2.consecutiveRejections = 0 := by
  unfold OrderManager.onOrderAccepted
  split
  · exact h
  · split
    · exact h
    · split
      · exact h
      · dsimp only
        split <;> rfl

theorem confirmOrders_count_zero (symbol : String) (position : SharedPosition)
    (os : List ObservedOpenOrder) (m : OrderManager) (confirmed : Nat) (h : m.consecutiveRejections = 0) :
    (App.confirmOrders symbol position m confirmed os).1.consecutiveRejections = 0 := by
  refine (App.confirmOrders_calls symbol position os m confirmed).preserves
    (fun m => m.consecutiveRejections = 0) (fun m op hop hzero => ?_) h
  cases op with
  | accepted clOrdId orderId => exact onOrderAccepted_count_zero m clOrdId orderId hzero
  | requirePositionRefresh => exact hzero
  | _ => cases hop

/-- What the loop over the observed orders does to the count depends on its first acceptance. -/
theorem confirmOrders_count (symbol : String) (position : SharedPosition) (os : List ObservedOpenOrder)
    (m : OrderManager) (confirmed : Nat)
    (hquiet : confirms m (App.confirmOrders symbol position m confirmed os).1 = false) :
    (¬ Reconfirmed m (firstObserved symbol m os) ∧
      (App.confirmOrders symbol position m confirmed os).1.consecutiveRejections = m.consecutiveRejections) ∨
    (Reconfirmed m (firstObserved symbol m os) ∧
      (App.confirmOrders symbol position m confirmed os).1.consecutiveRejections = 0) := by
  have hnone : ¬ Reconfirmed m none := fun ⟨_, _, _, h, _⟩ => by cases h
  induction os with
  | nil => exact Or.inl ⟨hnone, rfl⟩
  | cons o os ih =>
    unfold App.confirmOrders at hquiet ⊢
    unfold firstObserved
    cases hid : o.clOrdId with
    | none => exact Or.inl ⟨hnone, rfl⟩
    | some clOrdId =>
      simp only [hid] at hquiet ⊢
      cases htracked : m.hasTrackedOrder clOrdId with
      | false =>
        simp only [htracked, Bool.not_false, if_true] at hquiet ⊢
        exact ih hquiet
      | true =>
        simp only [htracked, Bool.not_true, Bool.false_eq_true, if_false] at hquiet ⊢
        cases hfault : fillFault symbol clOrdId o with
        | some fault => exact Or.inl ⟨hnone, rfl⟩
        | none =>
          simp only [hfault, Option.isNone_none, if_true] at hquiet ⊢
          have hfirst : confirms m (m.onOrderAccepted clOrdId o.orderId).2 = false := by
            by_contra hconfirmed
            rw [Bool.not_eq_false] at hconfirmed
            have := confirms_of_live hconfirmed fun i hlive =>
              confirmOrders_live symbol position os _ (confirmed + 1) hlive
            split at hquiet
            · rw [this] at hquiet
              cases hquiet
            · rw [hconfirmed] at hquiet
              cases hquiet
          rcases accepted_count hfirst with ⟨hnot, hm⟩ | ⟨hre, haccepted, hzero⟩
          · rw [hm]
            exact Or.inl ⟨hnot, rfl⟩
          · rw [if_pos haccepted]
            exact Or.inr ⟨hre, confirmOrders_count_zero symbol position os _ _ hzero⟩

theorem checkRecovery_count (m : OrderManager) (recoverySecs nowMs : Nat) :
    (m.checkCircuitBreakerRecovery recoverySecs nowMs).2.consecutiveRejections = m.consecutiveRejections := by
  unfold OrderManager.checkCircuitBreakerRecovery
  split <;> rfl

theorem not_reconfirmed_none (m : OrderManager) : ¬ Reconfirmed m none :=
  fun ⟨_, _, _, h, _⟩ => by cases h

/-- A snapshot that confirms no pending order sets the count back if its first acceptance is
    correlated, and otherwise leaves it. -/
theorem snapshot_count {m : OrderManager} {position : SharedPosition} {snapshot : OpenOrdersSnapshot}
    (hquiet : confirms m (App.applySnapshot m position snapshot).1 = false) :
    (¬ Reconfirmed m ((ManagerEvent.snapshot position snapshot).acceptance m) ∧
      (App.applySnapshot m position snapshot).1.consecutiveRejections = m.consecutiveRejections) ∨
    (Reconfirmed m ((ManagerEvent.snapshot position snapshot).acceptance m) ∧
      (App.applySnapshot m position snapshot).1.consecutiveRejections = 0) := by
  have hnone := not_reconfirmed_none m
  unfold App.applySnapshot at hquiet ⊢
  unfold ManagerEvent.acceptance
  dsimp only
  cases hpending : m.hasPauseReason .reconciliation with
  | true => exact Or.inl ⟨by simpa using hnone, rfl⟩
  | false =>
    cases hmissing : m.firstMissingRestOrder (snapshot.orders.map (·.orderId)) with
    | some missing => exact Or.inl ⟨by simpa using hnone, rfl⟩
    | none =>
      cases hstale : m.firstStaleUnconfirmedRestOrder (snapshot.orders.filterMap (·.clOrdId))
          snapshot.observedAtNs App.REST_CONFIRMATION_GRACE_NS with
      | some clOrdId => exact Or.inl ⟨by simpa using hnone, rfl⟩
      | none =>
        simp only [hpending, hmissing, hstale, Bool.false_eq_true, if_false, Option.isSome_none,
          or_self] at hquiet ⊢
        exact confirmOrders_count snapshot.symbol position snapshot.orders m 0 hquiet

/-- **What an undisturbed event does to the count**, rejections apart: it leaves the count unless
    it confirms an order again. -/
theorem step_count {m : OrderManager} {e : ManagerEvent} (he : Undisturbed m e)
    (hrejection : e.isRejection = false) :
    (handle m e).consecutiveRejections = m.consecutiveRejections ↔ ¬ Reconfirms m e := by
  have hcases : (¬ Reconfirmed m (e.acceptance m) ∧
        (handle m e).consecutiveRejections = m.consecutiveRejections) ∨
      (Reconfirmed m (e.acceptance m) ∧ (handle m e).consecutiveRejections = 0) := by
    cases e with
    | snapshot position snapshot => exact snapshot_count he.1
    | call op hop =>
      cases op with
      | accepted clOrdId orderId =>
        rcases accepted_count he.1 with ⟨hnot, hm⟩ | ⟨hre, _, hzero⟩
        · exact Or.inl ⟨hnot, by simp only [handle, OrderManager.apply, hm]⟩
        · exact Or.inr ⟨hre, hzero⟩
      | rejected clOrdId nowMs => cases hrejection
      | finishReconciliation | resetCircuitBreaker => cases he.2
      | checkCircuitBreakerRecovery recoverySecs nowMs =>
        exact Or.inl ⟨not_reconfirmed_none m, checkRecovery_count m recoverySecs nowMs⟩
      | _ => exact Or.inl ⟨not_reconfirmed_none m, (OrderManager.apply_breaker m (by trivial)).count⟩
  rcases hcases with ⟨hnot, hcount⟩ | ⟨hre, hzero⟩
  · exact ⟨fun _ h => hnot h.2, fun _ => hcount⟩
  · rw [hzero]
    exact ⟨fun h hre' => hre'.1 h.symm, fun hnot => by_contra fun h => hnot ⟨Ne.symm h, hre⟩⟩

/-! ## The breaker -/

theorem apply_threshold (m : OrderManager) (op : Operation) :
    (m.apply op).1.config.circuitBreakerRejections = m.config.circuitBreakerRejections := by
  cases op with
  | accepted clOrdId orderId =>
    simp only [OrderManager.apply, OrderManager.onOrderAccepted]
    split
    · rfl
    · split
      · rfl
      · split
        · rfl
        · dsimp only
          split <;> rfl
  | rejected clOrdId nowMs =>
    simp only [OrderManager.apply, OrderManager.onOrderRejected]
    split <;> exact (OrderManager.clearFirst_breaker m fun o => o.clOrdId == clOrdId).threshold
  | finishReconciliation | resetCircuitBreaker => rfl
  | checkCircuitBreakerRecovery recoverySecs nowMs =>
    simp only [OrderManager.apply, OrderManager.checkCircuitBreakerRecovery]
    split <;> rfl
  | _ => exact (OrderManager.apply_breaker m (by trivial)).threshold

theorem handle_threshold (m : OrderManager) (e : ManagerEvent) :
    (handle m e).config.circuitBreakerRejections = m.config.circuitBreakerRejections := by
  cases e with
  | call op hop => exact apply_threshold m op
  | snapshot position snapshot =>
    exact (App.applySnapshot_calls (t := ⟨0, 0⟩) (e := .openOrdersSnapshot snapshot) m position snapshot).preserves
      (fun m' => m'.config.circuitBreakerRejections = m.config.circuitBreakerRejections)
      (fun m' op _ h => (apply_threshold m' op).trans h) rfl

/-- The pause outlives every event that does not reset the breaker. -/
theorem handle_keeps_paused {m : OrderManager} {e : ManagerEvent} (he : e.resetsBreaker = false)
    (h : m.hasPauseReason .circuitBreaker = true) :
    (handle m e).hasPauseReason .circuitBreaker = true := by
  cases e with
  | call op hop =>
    refine OrderManager.apply_keeps_reason ?_ h
    cases op with
    | clearPauseReason r => exact fun hclears => hop (by rw [show PauseReason.circuitBreaker = r from hclears])
    | finishReconciliation | resetCircuitBreaker => cases he
    | _ => exact id
  | snapshot position snapshot =>
    refine (App.applySnapshot_calls (t := ⟨0, 0⟩) (e := .openOrdersSnapshot snapshot) m position
      snapshot).preserves (fun m' => m'.hasPauseReason .circuitBreaker = true) ?_ h
    intro m' op hop h
    refine OrderManager.apply_keeps_reason ?_ h
    cases op with
    | clearPauseReason r => cases r <;> first | exact hop.elim | exact (nomatch ·)
    | finishReconciliation => obtain ⟨_, hresult⟩ := hop; cases hresult
    | resetCircuitBreaker => exact hop.elim
    | _ => exact id

/-- A rejection adds one to the count and trips the breaker when it is due. -/
theorem handle_rejection {m : OrderManager} {e : ManagerEvent} (he : e.isRejection = true) :
    (handle m e).consecutiveRejections = Word64.wrappingAdd32 m.consecutiveRejections 1 ∧
      ((handle m e).breakerDue → (handle m e).hasPauseReason .circuitBreaker = true) := by
  cases e with
  | snapshot => cases he
  | call op hop =>
    cases op with
    | rejected clOrdId nowMs =>
      have hcleared := (OrderManager.clearFirst_breaker m fun o => o.clOrdId == clOrdId).count
      simp only [handle, OrderManager.apply, OrderManager.onOrderRejected]
      split
      · refine ⟨?_, fun _ => ExecutionState.hasPauseReason_set_self _ _⟩
        exact congrArg (Word64.wrappingAdd32 · 1) hcleared
      · rename_i hdue
        exact ⟨congrArg (Word64.wrappingAdd32 · 1) hcleared, fun h => absurd h hdue⟩
    | _ => cases he

/-- The breaker has tripped, or at least `k` rejections are counted and it is not due. -/
structure Counted (threshold k : Nat) (m : OrderManager) : Prop where
  config_eq : m.config.circuitBreakerRejections = threshold
  streak : m.hasPauseReason .circuitBreaker = true ∨
    (k ≤ m.consecutiveRejections ∧ m.consecutiveRejections < threshold)

/-- Before the threshold is reached the `u32` count does not wrap. -/
theorem Counted.rejected {threshold k : Nat} {m : OrderManager} {e : ManagerEvent}
    (hsize : threshold < 4294967296) (h : Counted threshold k m) (he : e.isRejection = true)
    (hreset : e.resetsBreaker = false) : Counted threshold (k + 1) (handle m e) := by
  obtain ⟨hcount, htrip⟩ := handle_rejection (m := m) he
  have hthreshold := (handle_threshold m e).trans h.config_eq
  refine ⟨hthreshold, ?_⟩
  rcases h.streak with hpaused | ⟨hk, hlt⟩
  · exact Or.inl (handle_keeps_paused hreset hpaused)
  · have hnext : (handle m e).consecutiveRejections = m.consecutiveRejections + 1 := by
      rw [hcount]
      exact Nat.mod_eq_of_lt (by omega)
    by_cases hdue : threshold ≤ m.consecutiveRejections + 1
    · exact Or.inl (htrip ⟨by omega, by omega⟩)
    · exact Or.inr (by omega)

/-- A run of undisturbed events that confirm nothing again counts every rejection. -/
theorem exec_counted {threshold k : Nat} {m m' : OrderManager} {es : List ManagerEvent}
    (hsize : threshold < 4294967296) (h : Counted threshold k m)
    (hquiet : Runs.Along step (fun m e => Undisturbed m e ∧ ¬ Reconfirms m e) m es)
    (hrun : Runs.exec step m es = some m') : Counted threshold (k + rejections es) m' := by
  induction es generalizing m k with
  | nil => cases hrun; exact h
  | cons e es ih =>
    obtain ⟨hquiet, hrest⟩ := Runs.along_cons hquiet rfl
    obtain ⟨hundisturbed, hnot⟩ := hquiet
    have hes : Runs.exec step (handle m e) es = some m' := hrun
    cases hrejection : e.isRejection with
    | true =>
      have := ih (h.rejected hsize hrejection hundisturbed.2) hrest hes
      rwa [rejections, List.countP_cons_of_pos hrejection, ← rejections, Nat.add_comm _ 1, ← Nat.add_assoc]
    | false =>
      rw [rejections, List.countP_cons_of_neg (by simp [hrejection]), ← rejections]
      refine ih ⟨(handle_threshold m e).trans h.config_eq, ?_⟩ hrest hes
      rw [(step_count hundisturbed hrejection).mpr hnot]
      exact h.streak.imp_left (handle_keeps_paused hundisturbed.2)

/-- Only a rejection raises the count. -/
theorem apply_count_le (m : OrderManager) {op : Operation}
    (hop : ∀ clOrdId nowMs, op ≠ .rejected clOrdId nowMs) :
    (m.apply op).1.consecutiveRejections ≤ m.consecutiveRejections := by
  cases op with
  | rejected clOrdId nowMs => exact absurd rfl (hop clOrdId nowMs)
  | accepted clOrdId orderId =>
    simp only [OrderManager.apply, OrderManager.onOrderAccepted]
    split
    · exact le_rfl
    · split
      · exact le_rfl
      · split
        · exact le_rfl
        · dsimp only
          split <;> exact Nat.zero_le _
  | finishReconciliation | resetCircuitBreaker => exact Nat.zero_le _
  | checkCircuitBreakerRecovery recoverySecs nowMs => exact (checkRecovery_count m recoverySecs nowMs).le
  | _ => exact (OrderManager.apply_breaker m (by trivial)).count.le

theorem handle_count_le (m : OrderManager) {e : ManagerEvent} (he : e.isRejection = false) :
    (handle m e).consecutiveRejections ≤ m.consecutiveRejections := by
  cases e with
  | call op hop =>
    refine apply_count_le m fun clOrdId nowMs heq => ?_
    subst heq
    cases he
  | snapshot position snapshot =>
    refine (App.applySnapshot_calls (t := ⟨0, 0⟩) (e := .openOrdersSnapshot snapshot) m position
      snapshot).preserves (fun m' => m'.consecutiveRejections ≤ m.consecutiveRejections) ?_ le_rfl
    intro m' op hop h
    refine (apply_count_le m' fun clOrdId nowMs heq => ?_).trans h
    subst heq
    obtain ⟨⟨_, hrejected⟩, _⟩ := hop
    cases hrejected

/-- **Whatever happens, a count that has reached the threshold has tripped the breaker.** -/
theorem step_armed {threshold : Nat} {m : OrderManager} (e : ManagerEvent) (hpos : 0 < threshold)
    (hsize : threshold < 4294967296) (h : Counted threshold 0 m) : Counted threshold 0 (handle m e) := by
  have hthreshold := (handle_threshold m e).trans h.config_eq
  by_cases hreset : e.resetsBreaker = true
  · refine ⟨hthreshold, Or.inr ⟨Nat.zero_le _, ?_⟩⟩
    have hzero : (handle m e).consecutiveRejections = 0 := by
      cases e with
      | snapshot => cases hreset
      | call op hop =>
        cases op with
        | finishReconciliation | resetCircuitBreaker => rfl
        | _ => cases hreset
    omega
  · rw [Bool.not_eq_true] at hreset
    cases hrejection : e.isRejection with
    | true =>
      have := h.rejected hsize hrejection hreset
      exact ⟨hthreshold, this.streak.imp_right fun hlt => ⟨Nat.zero_le _, hlt.2⟩⟩
    | false =>
      refine ⟨hthreshold, ?_⟩
      rcases h.streak with hpaused | ⟨_, hlt⟩
      · exact Or.inl (handle_keeps_paused hreset hpaused)
      · exact Or.inr ⟨Nat.zero_le _, lt_of_le_of_lt (handle_count_le m hrejection) hlt⟩

/-- **The breaker counts consecutive rejections** unless an order is confirmed again.  If the
    manager is reachable, `N` rejections with nothing in between that confirms a new order or
    resets the breaker set the pause, provided nothing in between confirms an order a second time
    while rejections are counted.  And a second confirmation leaves the manager as it is exactly
    when no rejection is counted, or when it is turned down because another order carries the id. -/
theorem breaker_counts (m : OrderManager) :
    (∀ (config : OrderManagerConfig) (startMs : Int) (before streak : List ManagerEvent)
        (m' : OrderManager),
      0 < config.circuitBreakerRejections → config.circuitBreakerRejections < 4294967296 →
      Runs.exec step (.new config startMs) before = some m → Runs.exec step m streak = some m' →
      Runs.Along step Undisturbed m streak →
      Runs.Along step (fun m e => ¬ Reconfirms m e) m streak →
      config.circuitBreakerRejections ≤ rejections streak →
      m'.hasPauseReason .circuitBreaker = true) ∧
    (∀ (clOrdId : String) (orderId : Int) (o : LiveOrder),
      m.findOrder clOrdId = some o → o.state ≠ .pending → o.orderId = some orderId →
      ((m.onOrderAccepted clOrdId orderId).2 = m ↔ m.consecutiveRejections = 0 ∨
        (orderId ≠ 0 ∧ ∃ j o', m.orders j = some o' ∧ o'.orderId = some orderId ∧
          o'.clOrdId ≠ clOrdId))) := by
  refine ⟨?_, fun clOrdId orderId o ho hstate hbound => reconfirmed_unchanged_iff ho hstate hbound⟩
  intro config startMs before streak m' hpos hsize hbefore hstreak hquiet hnot hN
  have hstart : Counted config.circuitBreakerRejections 0 (.new config startMs) :=
    ⟨rfl, Or.inr ⟨le_rfl, hpos⟩⟩
  have harmed : Counted config.circuitBreakerRejections 0 m :=
    Runs.exec_invariant (Counted config.circuitBreakerRejections 0)
      (fun m e m' h hstep => Option.some.inj hstep ▸ step_armed e hpos hsize h) hstart hbefore
  have hcounted := exec_counted hsize harmed (Runs.along_and hquiet hnot) hstreak
  rcases hcounted.streak with hpaused | ⟨hle, hlt⟩
  · exact hpaused
  · omega

/-! ## Two runs -/

/-- A quote around 100. -/
def bidAndAsk : ManagerEvent :=
  .call (.quote 0 1000 (.oneLevel (some 99) (some 101) 1 100) 1000000000) (by nofun)

/-- The exchange rejects the order with that sequence number. -/
def rejectOrder (seq : Nat) : ManagerEvent :=
  .call (.rejected (OrderManager.formatClOrdId "mm_TEST-USD_0" 0 0 seq) 1000) (by nofun)

/-- A REST poll that shows the first bid open, under the exchange id `7`. -/
def restPoll : ManagerEvent :=
  .snapshot .new ⟨"TEST-USD", [⟨7, some "mm_TEST-USD_0_0_0_1", some "0"⟩], 2000000000⟩

/-- The bid is open; every ask is rejected, five in a row. -/
def asksRejected : List ManagerEvent :=
  [rejectOrder 2, bidAndAsk, rejectOrder 3, bidAndAsk, rejectOrder 4, bidAndAsk, rejectOrder 5,
   bidAndAsk, rejectOrder 6]

/-- The same with a poll after each rejection. -/
def asksRejectedPolled : List ManagerEvent :=
  [rejectOrder 2, restPoll, bidAndAsk, rejectOrder 3, restPoll, bidAndAsk, rejectOrder 4, restPoll,
   bidAndAsk, rejectOrder 5, restPoll, bidAndAsk, rejectOrder 6]

theorem breaker_counts_asksRejected :
    ∃ m m', Runs.exec step (.new .default 0) [bidAndAsk, restPoll] = some m ∧
      Runs.exec step m asksRejected = some m' ∧ m'.hasPauseReason .circuitBreaker = true := by
  have hnot : ∀ {m : OrderManager} {e : ManagerEvent}, e.acceptance m = none → ¬ Reconfirms m e := by
    intro m e he h
    exact not_reconfirmed_none m (he ▸ h.2)
  refine ⟨_, _, rfl, rfl, (breaker_counts _).1 .default 0 [bidAndAsk, restPoll] asksRejected _ (by decide)
    (by decide) rfl rfl (by decide +kernel) ?_ (by decide)⟩
  exact ⟨hnot rfl, hnot rfl, hnot rfl, hnot rfl, hnot rfl, hnot rfl, hnot rfl, hnot rfl, hnot rfl, trivial⟩

/-- **Five rejections with a poll after each.**  Every poll confirms the open bid again and sets
    the count back. -/
theorem snapshots_hide_rejections :
    ¬ ∀ (config : OrderManagerConfig) (startMs : Int) (before streak : List ManagerEvent)
        (m m' : OrderManager),
      0 < config.circuitBreakerRejections → config.circuitBreakerRejections < 4294967296 →
      Runs.exec step (.new config startMs) before = some m → Runs.exec step m streak = some m' →
      Runs.Along step Undisturbed m streak →
      config.circuitBreakerRejections ≤ rejections streak →
      m'.hasPauseReason .circuitBreaker = true := by
  intro h
  have hpaused := h .default 0 [bidAndAsk, restPoll] asksRejectedPolled _ _ (by decide) (by decide) rfl rfl
    (by decide +kernel) (by decide)
  revert hpaused
  decide +kernel

end MarketMaker.RejectionStreak
