import MarketMaker.App.IdentityConflict
import MarketMaker.Trading.QuoteLoop

/-!
# REST snapshots as evidence

A snapshot is applied some time after it was taken, and `sent_at_ns` restarts when a cancel begins.
`Dated` runs the application with the time each tracked order was really sent, which is never after
`sent_at_ns`.

* `apply_dated` — what one operation does to the timestamp of a slot.
* `rest_absence` — an unbound order is blamed only by a snapshot taken long after it was sent, and a
  bound one sent before the snapshot is always reported, unless a reconciliation is under way.
* `blamed_before_sent` — a bound order is blamed by a snapshot taken before it was sent.
-/

set_option autoImplicit false

namespace MarketMaker

open OrderManager (Operation Calls SlotEffect)

/-! ## Timestamps -/

/-- How the order of a slot may change at an instant: it takes the instant as its timestamp, or keeps
    client id and timestamp. -/
def DatedAt (now : Int) (before after : Option LiveOrder) : Prop :=
  ∀ o', after = some o' →
    o'.sentAtNs = now ∨ ∃ o, before = some o ∧ o.clOrdId = o'.clOrdId ∧ o.sentAtNs = o'.sentAtNs

namespace DatedAt

variable {now : Int} {x y z : Option LiveOrder}

theorem refl (x : Option LiveOrder) : DatedAt now x x := fun o ho => Or.inr ⟨o, ho, rfl, rfl⟩

theorem trans (h : DatedAt now x y) (h' : DatedAt now y z) : DatedAt now x z := by
  intro o'' ho''
  rcases h' o'' ho'' with hnow | ⟨o', ho', hid', htime'⟩
  · exact Or.inl hnow
  · rcases h o' ho' with hnow | ⟨o, ho, hid, htime⟩
    · exact Or.inl (htime'.symm.trans hnow)
    · exact Or.inr ⟨o, ho, hid.trans hid', htime.trans htime'⟩

theorem freed : DatedAt now x none := nofun

theorem map {f : LiveOrder → LiveOrder} (hid : ∀ o, (f o).clOrdId = o.clOrdId)
    (htime : ∀ o, (f o).sentAtNs = o.sentAtNs) : DatedAt now x (x.map f) := by
  intro o' ho'
  obtain ⟨o, ho, rfl⟩ := Option.map_eq_some_iff.mp ho'
  exact Or.inr ⟨o, ho, (hid o).symm, (htime o).symm⟩

end DatedAt

theorem OrderManager.SlotEffect.dated {now : Int} {i : Slot} {x y : Option LiveOrder}
    {ds : List OrderDecision} (h : SlotEffect now i x y ds) : DatedAt now x y := by
  cases h with
  | keep => exact .refl x
  | cancel o _ | replace o _ _ _ =>
    intro o' ho'
    rw [← Option.some.inj ho']
    exact Or.inl rfl
  | place o _ _ htime =>
    intro o' ho'
    rw [← Option.some.inj ho']
    exact Or.inl htime

namespace OrderManager

variable {now : Int} {m : OrderManager}

theorem clearFirst_dated (p : LiveOrder → Bool) (i : Slot) :
    DatedAt now (m.orders i) ((m.clearFirst p).orders i) := by
  rcases m.clearFirst_at p i with hsame | ⟨o, _, _, hfreed⟩
  · rw [hsame]
    exact .refl _
  · rw [hfreed]
    exact .freed

theorem modifySlot_dated (m : OrderManager) (now : Int) (j : Slot) {f : LiveOrder → LiveOrder}
    (hid : ∀ o, (f o).clOrdId = o.clOrdId) (htime : ∀ o, (f o).sentAtNs = o.sentAtNs) (i : Slot) :
    DatedAt now (m.orders i) ((m.modifySlot j f).orders i) := by
  rw [modifySlot_at]
  split
  · exact .map hid htime
  · exact .refl _

/-- **One operation, one timestamp.** -/
theorem apply_dated {op : Operation}
    (hop : ∀ position limit quote u, op = .quote position limit quote u → u = now) (i : Slot) :
    DatedAt now (m.orders i) ((m.apply op).1.orders i) := by
  cases op with
  | quote position limit quote u =>
    obtain rfl := hop _ _ _ _ rfl
    exact (m.onQuoteInto_effect position limit quote u i).dated
  | checkTimeouts u =>
    rw [show (m.apply (.checkTimeouts u)).1 = (m.checkTimeouts u).1 from rfl, (checkTimeouts_frame m u).orders]
    exact .refl _
  | checkPendingTimeouts u =>
    rw [show (m.apply (.checkPendingTimeouts u)).1 = (m.checkPendingTimeouts u).1 from rfl,
      (checkPendingTimeouts_frame m u).orders]
    exact .refl _
  | accepted clOrdId orderId =>
    rcases m.onOrderAccepted_outcome clOrdId orderId with h | ⟨_, j, o, h⟩
    · rw [show (m.apply (.accepted clOrdId orderId)).1 = (m.onOrderAccepted clOrdId orderId).2 from rfl, h]
      exact .refl _
    · rw [show (m.apply (.accepted clOrdId orderId)).1 = (m.onOrderAccepted clOrdId orderId).2 from rfl, h.orders]
      by_cases hij : i = j
      · subst hij
        rw [Function.update_self, h.slot]
        exact .map (x := some o) (f := fun o => o.accept orderId) (fun _ => rfl) fun _ => rfl
      · rw [Function.update_of_ne hij]
        exact .refl _
  | rejected clOrdId nowMs =>
    have hcleared : (m.onOrderRejected clOrdId nowMs).orders = (m.clearOrderByClOrdId clOrdId).orders := by
      unfold onOrderRejected
      dsimp only
      split <;> rfl
    rw [show (m.apply (.rejected clOrdId nowMs)).1 = m.onOrderRejected clOrdId nowMs from rfl, hcleared]
    exact clearFirst_dated _ i
  | canceled orderId =>
    simp only [apply, onOrderCanceled]
    split
    · exact clearFirst_dated _ i
    · exact .refl _
  | canceledByClOrdId clOrdId =>
    simp only [apply, onOrderCanceledByClOrdId]
    split
    · exact clearFirst_dated _ i
    · exact .refl _
  | filled position orderId clOrdId fullyFilled =>
    simp only [apply, onOrderFill]
    split
    · exact .refl _
    · rename_i j _
      cases fullyFilled with
      | false => exact .refl _
      | true =>
        show DatedAt now (m.orders i) (Function.update m.orders j none i)
        by_cases hij : i = j
        · subst hij
          rw [Function.update_self]
          exact .freed
        · rw [Function.update_of_ne hij]
          exact .refl _
  | cancelFailed orderId =>
    simp only [apply, onCancelFailed]
    split
    · exact .refl _
    · rename_i j _
      have hmodified := fun failClosed => m.modifySlot_dated now j (f := fun o => o.failCancel failClosed)
        (fun _ => rfl) (fun _ => rfl) i
      split <;> exact hmodified _
  | dispatchFailed decision =>
    cases decision with
    | noAction => exact .refl _
    | send side level price qty clOrdId => exact clearFirst_dated _ i
    | cancel clOrdId | cancelAndReplace clOrdId _ _ _ =>
      exact .map (fun o => by split <;> rfl) fun o => by split <;> rfl
  | positionRefreshComplete position =>
    simp only [apply, positionRefreshAfterFillComplete]
    split
    · exact .refl _
    · split <;> exact .refl _
  | finishReconciliation => exact .freed
  | checkCircuitBreakerRecovery recoverySecs nowMs =>
    simp only [apply, checkCircuitBreakerRecovery]
    split <;> exact .refl _
  | checkSafetyPauseRecovery recoverySecs nowMs =>
    simp only [apply, checkSafetyPauseRecovery]
    split <;> exact .refl _
  | initializePositionBaseline position =>
    simp only [apply, initializePositionBaseline]
    split <;> exact .refl _
  | setPauseReason | clearPauseReason | triggerSafetyPause | shutdown | requirePositionRefresh
  | resetCircuitBreaker | setPrecision => exact .refl _

end OrderManager

namespace App

/-- An arm of the main loop does to timestamps what its operations do. -/
theorem handle_dated (app : App) (t : Clocks) (e : Event) (s : String) (i : Slot) :
    DatedAt t.unixNs ((app.managers s).orders i) (((app.handle t e).managers s).orders i) := by
  have hcalls := app.handle_calls t e s
  generalize app.managers s = m, (app.handle t e).managers s = m' at hcalls
  induction hcalls with
  | done m => exact .refl _
  | call op hop _ ih =>
    refine .trans (OrderManager.apply_dated (fun position limit quote u hquote => ?_) i) ih
    subst hquote
    exact hop

/-! ## What a snapshot says -/

/-- The order is not in the snapshot: by exchange id if it has one, by client id otherwise. -/
def OpenOrdersSnapshot.Lacks (snapshot : OpenOrdersSnapshot) (o : LiveOrder) : Prop :=
  match o.orderId with
  | some orderId => orderId ∉ snapshot.orders.map (·.orderId)
  | none => o.clOrdId ∉ snapshot.orders.filterMap (·.clOrdId)

/-- The fault is the absence of the order with that client id. -/
def RestFault.Blames : RestFault → String → Prop
  | .missing clOrdId _ _, blamed | .unconfirmed clOrdId _, blamed => clOrdId = blamed
  | _, _ => False

theorem firstMissingRestOrder_some {m : OrderManager} {ids : List Int} {clOrdId : String} {orderId : Int}
    (h : m.firstMissingRestOrder ids = some (clOrdId, orderId)) :
    ∃ i o, m.orders i = some o ∧ o.clOrdId = clOrdId ∧ o.orderId = some orderId ∧ orderId ∉ ids := by
  obtain ⟨i, _, hi⟩ := List.exists_of_findSome?_eq_some h
  obtain ⟨o, ho, hbound⟩ := Option.bind_eq_some_iff.mp hi
  obtain ⟨x, hx, hmissing⟩ := Option.bind_eq_some_iff.mp hbound
  split at hmissing
  · cases hmissing
  · rename_i hnot
    simp only [Option.some.injEq, Prod.mk.injEq] at hmissing
    obtain ⟨hid, rfl⟩ := hmissing
    exact ⟨i, o, ho, hid, hx, hnot⟩

theorem firstMissingRestOrder_none {m : OrderManager} {ids : List Int}
    (h : m.firstMissingRestOrder ids = none) {i : Slot} {o : LiveOrder} {orderId : Int}
    (ho : m.orders i = some o) (hbound : o.orderId = some orderId) :
    orderId ∈ ids := by
  have hslot := List.findSome?_eq_none_iff.mp h i (mem_slotsByLevel i)
  rw [ho, Option.bind_some, hbound, Option.bind_some] at hslot
  by_contra hnot
  rw [if_neg hnot] at hslot
  cases hslot

theorem firstStaleUnconfirmedRestOrder_some {m : OrderManager} {ids : List String} {observed grace : Int}
    {clOrdId : String} (h : m.firstStaleUnconfirmedRestOrder ids observed grace = some clOrdId) :
    ∃ i o, m.orders i = some o ∧ o.clOrdId = clOrdId ∧ o.orderId = none ∧ clOrdId ∉ ids ∧
      o.sentAtNs + grace < observed := by
  obtain ⟨i, _, hi⟩ := List.exists_of_findSome?_eq_some h
  obtain ⟨o, ho, hstale⟩ := Option.bind_eq_some_iff.mp hi
  split at hstale
  · rename_i htest
    obtain rfl := Option.some.inj hstale
    exact ⟨i, o, ho, rfl, htest.1, htest.2.1, by omega⟩
  · cases hstale

theorem fillFault_blames {symbol clOrdId : String} {o : ObservedOpenOrder} {fault : RestFault}
    (h : fillFault symbol clOrdId o = some fault) (blamed : String) : ¬ fault.Blames blamed := by
  obtain ⟨fillQty, _, hfault⟩ := Option.bind_eq_some_iff.mp h
  split at hfault
  · cases hfault
    exact id
  · cases hfault
    exact id
  · split at hfault
    · cases hfault
      exact id
    · split at hfault
      · cases hfault
        exact id
      · cases hfault

/-- The loop over the observed orders blames no absent one. -/
theorem confirmOrders_blames (symbol : String) (position : SharedPosition) (os : List ObservedOpenOrder)
    (m : OrderManager) (confirmed : Nat) {fault : RestFault}
    (h : (confirmOrders symbol position m confirmed os).2 = .error fault) (clOrdId : String) :
    ¬ fault.Blames clOrdId := by
  induction os generalizing m confirmed with
  | nil => cases h
  | cons o os ih =>
    unfold confirmOrders at h
    cases hid : o.clOrdId with
    | none =>
      rw [hid] at h
      cases h
      exact id
    | some c =>
      rw [hid] at h
      dsimp only at h
      split at h
      · exact ih m confirmed h
      · split at h
        · rename_i hfault
          cases h
          exact fillFault_blames hfault clOrdId
        · split at h
          · exact ih _ _ h
          · cases h
            exact id

/-- The order a fault blames is tracked and absent; if it has no exchange id, its timestamp is long before
    the snapshot. -/
theorem blamed_absent {app : App} {snapshot : OpenOrdersSnapshot} {fault : RestFault} {clOrdId : String}
    (h : (app.applyOpenOrdersSnapshot snapshot).2 = .error fault) (hblames : fault.Blames clOrdId) :
    ∃ i o, app.Tracks snapshot.symbol i o ∧ o.clOrdId = clOrdId ∧ snapshot.Lacks o ∧
      (o.orderId = none → o.sentAtNs + REST_CONFIRMATION_GRACE_NS < snapshot.observedAtNs) := by
  unfold applyOpenOrdersSnapshot at h
  split at h
  · cases h
  · split at h
    · rename_i hmanager
      dsimp only at h
      unfold applySnapshot at h
      split at h
      · cases h
      · split at h
        · rename_i c x hmissing
          cases h
          obtain rfl : c = clOrdId := hblames
          obtain ⟨i, o, ho, hid, hbound, habsent⟩ := firstMissingRestOrder_some hmissing
          refine ⟨i, o, ⟨hmanager, ho⟩, hid, ?_, fun hnone => absurd (hbound.symm.trans hnone) nofun⟩
          rw [OpenOrdersSnapshot.Lacks, hbound]
          exact habsent
        · split at h
          · rename_i c hstale
            cases h
            obtain rfl : c = clOrdId := hblames
            obtain ⟨i, o, ho, hid, hunbound, habsent, htime⟩ := firstStaleUnconfirmedRestOrder_some hstale
            refine ⟨i, o, ⟨hmanager, ho⟩, hid, ?_, fun _ => htime⟩
            rw [OpenOrdersSnapshot.Lacks, hunbound, hid]
            exact habsent
          · exact absurd hblames (confirmOrders_blames _ _ _ _ _ h clOrdId)
    · cases h
      exact hblames.elim

/-- A bound order that is absent is reported, if the snapshot is newer than the last reconciliation and
    none is under way. -/
theorem absent_reported {app : App} {snapshot : OpenOrdersSnapshot} {i : Slot} {o : LiveOrder}
    {orderId : Int} (ho : app.Tracks snapshot.symbol i o) (hbound : o.orderId = some orderId)
    (hlacks : snapshot.Lacks o) (hnewer : app.reconciledAtNs < snapshot.observedAtNs)
    (hidle : (app.managers snapshot.symbol).hasPauseReason .reconciliation = false) :
    ∃ clOrdId missingId, (app.applyOpenOrdersSnapshot snapshot).2 =
      .error (.missing clOrdId missingId snapshot.symbol) := by
  rw [OpenOrdersSnapshot.Lacks, hbound] at hlacks
  unfold applyOpenOrdersSnapshot applySnapshot
  rw [if_neg (not_le.mpr hnewer), if_pos ho.manager]
  simp only [hidle, Bool.false_eq_true, if_false]
  cases hmissing : (app.managers snapshot.symbol).firstMissingRestOrder (snapshot.orders.map (·.orderId)) with
  | none => exact absurd (firstMissingRestOrder_none hmissing ho.order hbound) hlacks
  | some missing => exact ⟨missing.1, missing.2, rfl⟩

/-- While the manager is reconciling a snapshot is not looked at. -/
theorem reconciling_ignored {app : App} {snapshot : OpenOrdersSnapshot}
    (hpaused : (app.managers snapshot.symbol).hasPauseReason .reconciliation = true)
    (hmanager : app.hasManager snapshot.symbol = true) :
    app.applyOpenOrdersSnapshot snapshot = (app, .ok 0) := by
  unfold applyOpenOrdersSnapshot applySnapshot
  split
  · rfl
  · dsimp only
    rw [Function.update_eq_self]

end App

/-! ## The time an order was sent -/

/-- The application with the time each tracked order was sent and the last reading of the system
    clock. -/
structure Dated where
  app : App
  sent : String → Slot → Int
  nowNs : Nat

namespace Dated

def new (app : App) : Dated := ⟨app, fun _ _ => 0, 0⟩

/-- One event, not before the last one.  A slot with another client id than before was filled by it. -/
def step (d : Dated) (e : Clocks × App.Event) : Option Dated :=
  if e.1.unixNs < d.nowNs then none
  else
    let app := d.app.handle e.1 e.2
    some ⟨app, fun s i =>
      if ((app.managers s).orders i).map (·.clOrdId) = ((d.app.managers s).orders i).map (·.clOrdId)
      then d.sent s i else e.1.unixNs, e.1.unixNs⟩

/-- Every tracked order was sent after the last reconciliation and not after its timestamp. -/
structure Inv (d : Dated) : Prop where
  reconciled_le : d.app.reconciledAtNs ≤ d.nowNs
  sent_le : ∀ s i o, (d.app.managers s).orders i = some o →
    d.app.reconciledAtNs ≤ d.sent s i ∧ d.sent s i ≤ o.sentAtNs ∧ d.sent s i ≤ d.nowNs

theorem inv_new (config : AppConfig) (managerConfig : String → OrderManagerConfig) (equity : SharedEquity)
    (startMs : Int) : Inv (new (.new config managerConfig equity startMs)) := by
  refine ⟨le_rfl, fun s i o ho => ?_⟩
  have hnone : ((App.new config managerConfig equity startMs).managers s).orders i = none := by
    unfold App.new
    dsimp only
    split <;> rfl
  exact absurd (hnone.symm.trans ho) nofun

/-- **Step lemma.** -/
theorem Inv.step {d d' : Dated} {e : Clocks × App.Event} (h : d.Inv) (hstep : d.step e = some d') :
    d'.Inv := by
  unfold Dated.step at hstep
  split at hstep
  · cases hstep
  · rename_i hclock
    have hlater : (d.nowNs : Int) ≤ e.1.unixNs := by omega
    obtain rfl := Option.some.inj hstep
    -- the result arm empties the slots, or is no result for this application
    by_cases hresult : ∃ result, e.2 = .reconciliationResult result ∧
        result.generation = d.app.reconciliationGeneration
    · obtain ⟨result, hevent, hgeneration⟩ := hresult
      have hfinish : d.app.handle e.1 e.2 = d.app.finishAccountReconciliation e.1 := by
        rw [hevent]
        exact if_pos hgeneration
      refine ⟨?_, fun s i o ho => ?_⟩
      · dsimp only
        rw [hfinish]
        exact le_rfl
      · dsimp only at ho
        rw [hfinish] at ho
        cases ho
    · have hkept : (d.app.handle e.1 e.2).reconciledAtNs = d.app.reconciledAtNs := by
        by_cases hany : ∃ result, e.2 = .reconciliationResult result
        · obtain ⟨result, hevent⟩ := hany
          rw [hevent]
          show (d.app.onReconciliationResult result e.1).reconciledAtNs = _
          rw [App.onReconciliationResult, if_neg fun hgeneration => hresult ⟨result, hevent, hgeneration⟩]
        · exact App.handle_reconciledAtNs d.app e.1 fun result hevent => hany ⟨result, hevent⟩
      refine ⟨?_, fun s i o' ho' => ?_⟩
      · dsimp only
        rw [hkept]
        exact h.reconciled_le.trans hlater
      · dsimp only at ho' ⊢
        have hdated := App.handle_dated d.app e.1 e.2 s i o' ho'
        have hreconciled := h.reconciled_le
        rw [hkept, ho']
        split
        · rename_i hsame
          obtain ⟨o, ho, hid⟩ := Option.map_eq_some_iff.mp hsame.symm
          obtain ⟨hafter, htime, hnow⟩ := h.sent_le s i o ho
          refine ⟨hafter, ?_, hnow.trans hlater⟩
          rcases hdated with hstamp | ⟨o₁, ho₁, _, hstamp⟩
          · omega
          · obtain rfl := Option.some.inj (ho.symm.trans ho₁)
            omega
        · rename_i hother
          rcases hdated with hstamp | ⟨o, ho, hid, _⟩
          · omega
          · exact absurd (by rw [ho, Option.map_some, Option.map_some, hid]) hother

/-- **Run lemma.** -/
theorem inv_of_exec {d d' : Dated} {es : List (Clocks × App.Event)} (h : d.Inv)
    (hrun : Runs.exec Dated.step d es = some d') : d'.Inv :=
  Runs.exec_invariant Inv (fun _ _ _ => Inv.step) h hrun

/-- **Absence as evidence.** -/
theorem rest_absence {config : AppConfig} {managerConfig : String → OrderManagerConfig}
    {equity : SharedEquity} {startMs : Int} {es : List (Clocks × App.Event)} {d : Dated}
    (hrun : Runs.exec Dated.step (new (.new config managerConfig equity startMs)) es = some d)
    (snapshot : App.OpenOrdersSnapshot) :
    (∀ fault clOrdId, (d.app.applyOpenOrdersSnapshot snapshot).2 = .error fault → fault.Blames clOrdId →
      ∃ i o, d.app.Tracks snapshot.symbol i o ∧ o.clOrdId = clOrdId ∧ snapshot.Lacks o ∧
        (o.orderId = none → d.sent snapshot.symbol i + App.REST_CONFIRMATION_GRACE_NS < snapshot.observedAtNs)) ∧
    ∀ i o orderId, d.app.Tracks snapshot.symbol i o → o.orderId = some orderId → snapshot.Lacks o →
      d.sent snapshot.symbol i < snapshot.observedAtNs →
      ((d.app.managers snapshot.symbol).hasPauseReason .reconciliation = false →
        ∃ clOrdId missingId, (d.app.applyOpenOrdersSnapshot snapshot).2 =
          .error (.missing clOrdId missingId snapshot.symbol)) ∧
      ((d.app.managers snapshot.symbol).hasPauseReason .reconciliation = true →
        d.app.applyOpenOrdersSnapshot snapshot = (d.app, .ok 0)) := by
  have hinv := inv_of_exec (inv_new config managerConfig equity startMs) hrun
  refine ⟨fun fault clOrdId herror hblames => ?_, fun i o orderId ho hbound hlacks hsent =>
    ⟨fun hidle => ?_, fun hpaused => App.reconciling_ignored hpaused ho.manager⟩⟩
  · obtain ⟨i, o, ho, hid, hlacks, htime⟩ := App.blamed_absent herror hblames
    have hsent := (hinv.sent_le snapshot.symbol i o ho.order).2.1
    exact ⟨i, o, ho, hid, hlacks, fun hunbound => by have := htime hunbound; omega⟩
  · have hafter := (hinv.sent_le snapshot.symbol i o ho.order).1
    exact App.absent_reported ho hbound hlacks (hafter.trans_lt hsent) hidle

/-! ## The bid of the first quote -/

/-- The bid is sent at second 1 and bound at second 2. -/
def bindBid : List (Clocks × App.Event) :=
  App.firstOrders ++ [(App.atSecond 2, .order (.orderAccepted "mm_BTC-USD_0_0_3_1" 5))]

/-- An empty snapshot taken at that time. -/
def emptyAt (ns : Int) : App.OpenOrdersSnapshot := ⟨"BTC-USD", [], ns⟩

/-- What is looked at: when the bid was sent, its exchange id, and the result of a snapshot. -/
def reading (snapshot : App.OpenOrdersSnapshot) (d : Dated) :
    Int × Option (Option Int) × Except App.RestFault Nat :=
  (d.sent "BTC-USD" (.buy, 0), ((d.app.managers "BTC-USD").orders (.buy, 0)).map (·.orderId),
    (d.app.applyOpenOrdersSnapshot snapshot).2)

/-- A snapshot taken at second 4 without the bid is reported. -/
theorem rest_absence_bid : ∃ d, Runs.exec Dated.step (new App.live) bindBid = some d ∧
    ∃ clOrdId missingId, (d.app.applyOpenOrdersSnapshot (emptyAt 4000000000)).2 =
      .error (.missing clOrdId missingId "BTC-USD") := by
  have hreading : (Runs.exec Dated.step (new App.live) bindBid).map (fun d =>
      (d.sent "BTC-USD" (.buy, 0), ((d.app.managers "BTC-USD").orders (.buy, 0)).map (·.orderId),
        d.app.hasManager "BTC-USD", (d.app.managers "BTC-USD").hasPauseReason .reconciliation)) =
      some (1000000000, some (some 5), true, false) := by
    decide +kernel
  obtain ⟨d, hrun, hd⟩ := Option.map_eq_some_iff.mp hreading
  simp only [Prod.mk.injEq] at hd
  obtain ⟨hsent, hbid, hmanager, hidle⟩ := hd
  obtain ⟨o, ho, hbound⟩ := Option.map_eq_some_iff.mp hbid
  have hlacks : (emptyAt 4000000000).Lacks o := by
    rw [App.OpenOrdersSnapshot.Lacks, hbound]
    exact List.not_mem_nil
  have hbefore : d.sent (emptyAt 4000000000).symbol (.buy, 0) < (emptyAt 4000000000).observedAtNs := by
    rw [show d.sent (emptyAt 4000000000).symbol (.buy, 0) = 1000000000 from hsent]
    decide
  exact ⟨d, hrun, ((rest_absence hrun (emptyAt 4000000000)).2 (.buy, 0) o 5 ⟨hmanager, ho⟩ hbound hlacks hbefore).1
    hidle⟩

/-- **A bound order is blamed by a snapshot taken before it was sent**; and while the account is being
    reconciled, a bound order absent from a later snapshot is not reported. -/
theorem blamed_before_sent :
    (∃ d, Runs.exec Dated.step (new App.live) bindBid = some d ∧
      reading (emptyAt 500000000) d =
        (1000000000, some (some 5), .error (.missing "mm_BTC-USD_0_0_3_1" 5 "BTC-USD"))) ∧
    ∃ d, Runs.exec Dated.step (new App.live) (bindBid ++ [(App.atSecond 3, .executorFault "refused")]) = some d ∧
      reading (emptyAt 4000000000) d = (1000000000, some (some 5), .ok 0) := by
  refine ⟨Option.map_eq_some_iff.mp ?_, Option.map_eq_some_iff.mp ?_⟩ <;> decide +kernel

end Dated

end MarketMaker
