import MarketMaker.Trading.Headroom

/-!
# Operations on a manager, slot by slot

`Operation` lists everything the application can call on a manager; `History` is a manager with
the number of Sends it has emitted.  Ids, orders and event arguments are arbitrary.

* `apply_fate` — what an event can do to one slot (`SlotFate`): keep its order, binding an
  exchange id at most, or free it when the event is a terminal event of that order.
* `apply_eventFrame`, `apply_event_sends` — events issue no id and emit no Send.
-/

set_option autoImplicit false

namespace MarketMaker.OrderManager

open Word64

/-! ## Operations -/

inductive Operation where
  | quote (position limit : ℚ) (quote : Quote) (now : Int)
  | checkTimeouts (now : Int)
  | checkPendingTimeouts (now : Int)
  | accepted (clOrdId : String) (orderId : Int)
  | rejected (clOrdId : String) (nowMs : Nat)
  | canceled (orderId : Int)
  | canceledByClOrdId (clOrdId : String)
  | filled (position : SharedPosition) (orderId : Int) (clOrdId : Option String) (fullyFilled : Bool)
  | cancelFailed (orderId : Int)
  | dispatchFailed (decision : OrderDecision)
  | setPauseReason (r : PauseReason)
  | clearPauseReason (r : PauseReason)
  | triggerSafetyPause (nowMs : Nat)
  | shutdown
  | requirePositionRefresh (position : SharedPosition)
  | positionRefreshComplete (position : SharedPosition)
  | finishReconciliation
  | checkCircuitBreakerRecovery (recoverySecs nowMs : Nat)
  | checkSafetyPauseRecovery (recoverySecs nowMs : Nat)
  | resetCircuitBreaker
  | initializePositionBaseline (position : SharedPosition)
  | setPrecision (tick lot minQty : ℚ) (hlot : 0 < lot)

/-- Call an operation: the manager it leaves and the decisions it returns. -/
def apply (m : OrderManager) : Operation → OrderManager × List OrderDecision
  | .quote position limit quote now => m.onQuoteInto position limit quote now
  | .checkTimeouts now => m.checkTimeouts now
  | .checkPendingTimeouts now => m.checkPendingTimeouts now
  | .accepted clOrdId orderId => ((m.onOrderAccepted clOrdId orderId).2, [])
  | .rejected clOrdId nowMs => (m.onOrderRejected clOrdId nowMs, [])
  | .canceled orderId => ((m.onOrderCanceled orderId).2, [])
  | .canceledByClOrdId clOrdId => ((m.onOrderCanceledByClOrdId clOrdId).2, [])
  | .filled position orderId clOrdId fullyFilled =>
    ((m.onOrderFill position orderId clOrdId fullyFilled).2, [])
  | .cancelFailed orderId => (m.onCancelFailed orderId, [])
  | .dispatchFailed decision => (m.onDispatchFailed decision, [])
  | .setPauseReason r => (m.setPauseReason r, [])
  | .clearPauseReason r => (m.clearPauseReason r, [])
  | .triggerSafetyPause nowMs => (m.triggerSafetyPause nowMs, [])
  | .shutdown => (m.shutdown, [])
  | .requirePositionRefresh position => (m.requirePositionRefreshAfterFill position, [])
  | .positionRefreshComplete position => ((m.positionRefreshAfterFillComplete position).2, [])
  | .finishReconciliation => (m.finishReconciliation, [])
  | .checkCircuitBreakerRecovery recoverySecs nowMs =>
    ((m.checkCircuitBreakerRecovery recoverySecs nowMs).2, [])
  | .checkSafetyPauseRecovery recoverySecs nowMs =>
    ((m.checkSafetyPauseRecovery recoverySecs nowMs).2, [])
  | .resetCircuitBreaker => (m.resetCircuitBreaker, [])
  | .initializePositionBaseline position => (m.initializePositionBaseline position, [])
  | .setPrecision tick lot minQty hlot => (m.setPrecision tick lot minQty hlot, [])

/-- The number of Sends among some decisions. -/
def sends (ds : List OrderDecision) : Nat := ds.countP OrderDecision.isSend

theorem sends_le_append (ds ds' : List OrderDecision) : sends ds ≤ sends (ds ++ ds') := by
  simp [sends]

/-- A manager and the number of Sends it has emitted. -/
structure History where
  manager : OrderManager
  sent : Nat
  deriving DecidableEq

namespace History

/-- A fresh manager. -/
def new (config : OrderManagerConfig) (startMs : Int) : History := ⟨.new config startMs, 0⟩

/-- Every operation is enabled in every state. -/
def step (h : History) (op : Operation) : Option History :=
  some ⟨(h.manager.apply op).1, h.sent + sends (h.manager.apply op).2⟩

end History

/-- The terminal events of an order: those that name it and end it. -/
def Terminal (op : Operation) (o : LiveOrder) : Prop :=
  match op with
  | .rejected clOrdId _ => o.clOrdId = clOrdId
  | .canceled orderId => orderId ≠ 0 ∧ o.orderId = some orderId
  | .canceledByClOrdId clOrdId => o.clOrdId = clOrdId
  | .filled _ orderId clOrdId fullyFilled =>
    fullyFilled = true ∧ ((orderId ≠ 0 ∧ o.orderId = some orderId) ∨ clOrdId = some o.clOrdId)
  | .dispatchFailed (.send _ _ _ _ clOrdId) => o.clOrdId = clOrdId
  | .finishReconciliation => True
  | _ => False

/-! ## One operation, one slot -/

/-- Everything a reservation consists of is the same. -/
structure SameTerms (o o' : LiveOrder) : Prop where
  clOrdId : o'.clOrdId = o.clOrdId
  side : o'.side = o.side
  level : o'.level = o.level
  price : o'.price = o.price
  quantity : o'.quantity = o.quantity

theorem SameTerms.refl (o : LiveOrder) : SameTerms o o := ⟨rfl, rfl, rfl, rfl, rfl⟩

theorem SameTerms.trans {o o' o'' : LiveOrder} (h : SameTerms o o') (h' : SameTerms o' o'') :
    SameTerms o o'' :=
  ⟨h'.clOrdId.trans h.clOrdId, h'.side.trans h.side, h'.level.trans h.level,
   h'.price.trans h.price, h'.quantity.trans h.quantity⟩

/-- An acceptance binds its nonzero exchange id, which no order with another client id carries,
    to an order that had none. -/
structure NewBinding (m : OrderManager) (op : Operation) (o o' : LiveOrder) (x : Int) : Prop where
  accepted : op = .accepted o.clOrdId x
  nonzero : x ≠ 0
  bound : o'.orderId = some x
  unbound : ∀ y, y ≠ 0 → o.orderId = some y → y = x
  onlyId : ∀ j oj, m.orders j = some oj → oj.orderId = some x → oj.clOrdId = o.clOrdId

/-- What an operation can make of the contents of a slot. -/
inductive SlotFate (m : OrderManager) (op : Operation) (fresh : LiveOrder → Prop) :
    Option LiveOrder → Option LiveOrder → Prop
  | empty : SlotFate m op fresh none none
  | kept (o o' : LiveOrder) : SameTerms o o' → (o'.orderId = o.orderId ∨ ∃ x, NewBinding m op o o' x) →
      SlotFate m op fresh (some o) (some o')
  | freed (o : LiveOrder) : Terminal op o → SlotFate m op fresh (some o) none
  | placed (o' : LiveOrder) : fresh o' → SlotFate m op fresh none (some o')

theorem SlotFate.same (m : OrderManager) (op : Operation) (fresh : LiveOrder → Prop)
    (x : Option LiveOrder) : SlotFate m op fresh x x := by
  cases x with
  | none => exact .empty
  | some o => exact .kept o o (.refl o) (Or.inl rfl)

/-- A rewrite that keeps terms and exchange id keeps the slot. -/
theorem SlotFate.map (m : OrderManager) (op : Operation) (fresh : LiveOrder → Prop)
    (x : Option LiveOrder) {f : LiveOrder → LiveOrder} (hf : ∀ o, SameTerms o (f o))
    (hid : ∀ o, (f o).orderId = o.orderId) : SlotFate m op fresh x (x.map f) := by
  cases x with
  | none => exact .empty
  | some o => exact .kept o (f o) (hf o) (Or.inl (hid o))

theorem findSlot_some {m : OrderManager} {p : LiveOrder → Bool} {i : Slot}
    (h : m.findSlot p = some i) : ∃ o, m.orders i = some o ∧ p o = true := by
  have := List.find?_some h
  simpa [Option.any_eq_true] using this

theorem findSlot_none {m : OrderManager} {p : LiveOrder → Bool} (h : m.findSlot p = none)
    {i : Slot} {o : LiveOrder} (ho : m.orders i = some o) : p o = false := by
  have := List.find?_eq_none.mp h i (mem_slotsByLevel i)
  simpa [ho] using this

/-- Emptying the first match leaves a slot as it is, or frees it of an order that matches. -/
theorem clearFirst_at (m : OrderManager) (p : LiveOrder → Bool) (i : Slot) :
    (m.clearFirst p).orders i = m.orders i ∨
      ∃ o, m.orders i = some o ∧ p o = true ∧ (m.clearFirst p).orders i = none := by
  unfold clearFirst
  split
  · rename_i j hj
    obtain ⟨o, ho, hpo⟩ := findSlot_some hj
    rw [setSlot_orders]
    by_cases hij : i = j
    · subst hij
      exact .inr ⟨o, ho, hpo, Function.update_self ..⟩
    · exact .inl (Function.update_of_ne hij ..)
  · exact .inl rfl

theorem modifySlot_at (m : OrderManager) (j : Slot) (f : LiveOrder → LiveOrder) (i : Slot) :
    (m.modifySlot j f).orders i = if i = j then (m.orders i).map f else m.orders i := by
  unfold modifySlot
  rw [setSlot_orders]
  split
  · rename_i hij
    subst hij
    exact Function.update_self ..
  · rename_i hij
    exact Function.update_of_ne hij ..

/-- So it frees only orders that match. -/
theorem clearFirst_fate {m m' : OrderManager} {p : LiveOrder → Bool} {op : Operation}
    (fresh : LiveOrder → Prop) (hm : m'.orders = (m.clearFirst p).orders)
    (hp : ∀ i o, m.orders i = some o → p o = true → Terminal op o) (i : Slot) :
    SlotFate m op fresh (m.orders i) (m'.orders i) := by
  rw [hm]
  rcases m.clearFirst_at p i with hsame | ⟨o, ho, hpo, hfreed⟩
  · rw [hsame]
    exact .same m op fresh _
  · rw [ho, hfreed]
    exact .freed o (hp i o ho hpo)

theorem modifySlot_fate {m m' : OrderManager} {op : Operation} (fresh : LiveOrder → Prop) (j : Slot)
    {f : LiveOrder → LiveOrder} (hm : m'.orders = (m.modifySlot j f).orders)
    (hf : ∀ o, SameTerms o (f o)) (hid : ∀ o, (f o).orderId = o.orderId) (i : Slot) :
    SlotFate m op fresh (m.orders i) (m'.orders i) := by
  rw [hm, modifySlot_at]
  split
  · exact .map m op fresh _ hf hid
  · exact .same m op fresh _

/-- The slots, the id counter and the session are as they were. -/
structure SlotFrame (m m' : OrderManager) : Prop where
  orders : m'.orders = m.orders
  counter : m'.clOrdIdCounter = m.clOrdIdCounter
  session : m'.sessionPrefix = m.sessionPrefix

theorem SlotFrame.refl (m : OrderManager) : SlotFrame m m := ⟨rfl, rfl, rfl⟩

/-- No exchange id is the sentinel `0`. -/
def ExchangeIdsNonzero (m : OrderManager) : Prop :=
  ∀ i o, m.orders i = some o → o.orderId ≠ some 0

theorem checkTimeouts_frame (m : OrderManager) (now : Int) : SlotFrame m (m.checkTimeouts now).1 := by
  unfold checkTimeouts
  dsimp only
  split <;> exact ⟨rfl, rfl, rfl⟩

theorem checkPendingTimeouts_frame (m : OrderManager) (now : Int) :
    SlotFrame m (m.checkPendingTimeouts now).1 := by
  unfold checkPendingTimeouts
  split
  · exact .refl m
  · obtain ⟨horders, hcounter, hsession⟩ := checkTimeouts_frame { m with lastTimeoutCheckNs := now } now
    exact ⟨horders, hcounter, hsession⟩

/-- What an acceptance that is applied does: the first order with that client id, if it carries
    no other exchange id and no other order carries this one, is marked accepted. -/
structure Acceptance (m : OrderManager) (clOrdId : String) (orderId : Int) (m' : OrderManager)
    (j : Slot) (o : LiveOrder) : Prop where
  slot : m.orders j = some o
  named : o.clOrdId = clOrdId
  sameId : ∀ x, orderId ≠ 0 → x ≠ 0 → o.orderId = some x → x = orderId
  onlyId : orderId ≠ 0 → ∀ k ok, m.orders k = some ok → ok.orderId = some orderId → ok.clOrdId = clOrdId
  orders : m'.orders = Function.update m.orders j (some (o.accept orderId))
  execution : m'.execution = m.execution
  counter : m'.clOrdIdCounter = m.clOrdIdCounter
  session : m'.sessionPrefix = m.sessionPrefix

theorem onOrderAccepted_outcome (m : OrderManager) (clOrdId : String) (orderId : Int) :
    m.onOrderAccepted clOrdId orderId = (false, m) ∨
    ((m.onOrderAccepted clOrdId orderId).1 = true ∧
      ∃ j o, Acceptance m clOrdId orderId (m.onOrderAccepted clOrdId orderId).2 j o) := by
  unfold onOrderAccepted
  split
  · exact Or.inl rfl
  · rename_i j hj
    obtain ⟨o, ho, hid⟩ := findSlot_some hj
    split
    · exact Or.inl rfl
    · rename_i hconflict
      split
      · exact Or.inl rfl
      · rename_i hother
        refine Or.inr ⟨rfl, j, o, ho, by simpa using hid, ?_, ?_, ?_, ?_, ?_, ?_⟩
        · intro x hzero hx hox
          simpa [ho, hox, hx, hzero] using hconflict
        · intro hzero k ok hk hbound
          by_contra hne
          exact hother ⟨hzero, List.any_eq_true.mpr ⟨k, mem_slotsBySide k, by simp [hk, hbound, hne]⟩⟩
        · dsimp only
          split <;> simp [modifySlot, ho]
        all_goals dsimp only; split <;> rfl

theorem onOrderAccepted_fate (m : OrderManager) (clOrdId : String) (orderId : Int)
    (fresh : LiveOrder → Prop) (i : Slot) :
    SlotFate m (.accepted clOrdId orderId) fresh (m.orders i)
      ((m.onOrderAccepted clOrdId orderId).2.orders i) := by
  rcases m.onOrderAccepted_outcome clOrdId orderId with h | ⟨_, j, o, h⟩
  · rw [h]; exact .same ..
  · rw [h.orders]
    by_cases hij : i = j
    · subst hij
      rw [Function.update_self, h.slot]
      refine .kept o _ ⟨rfl, rfl, rfl, rfl, rfl⟩ ?_
      by_cases hzero : orderId = 0
      · left; simp [LiveOrder.accept, hzero]
      · right
        refine ⟨orderId, by rw [h.named], hzero, by simp [LiveOrder.accept, hzero],
          fun x hx hox => h.sameId x hzero hx hox, ?_⟩
        intro k ok hk hbound
        rw [h.onlyId hzero k ok hk hbound, h.named]
    · rw [Function.update_of_ne hij]
      exact .same ..

theorem onOrderFill_fate (m : OrderManager) (position : SharedPosition) (orderId : Int)
    (clOrdId : Option String) (fullyFilled : Bool) (fresh : LiveOrder → Prop) (i : Slot) :
    SlotFate m (.filled position orderId clOrdId fullyFilled) fresh (m.orders i)
      ((m.onOrderFill position orderId clOrdId fullyFilled).2.orders i) := by
  unfold onOrderFill
  split
  · exact .same ..
  · rename_i j hj
    obtain ⟨o, ho, hmatch⟩ := findSlot_some hj
    cases fullyFilled with
    | false => exact .same ..
    | true =>
      have horders : ((m.requirePositionRefreshAfterFill position).setSlot j none).orders i
          = Function.update m.orders j none i := rfl
      simp only [if_true, horders]
      by_cases hij : i = j
      · subst hij
        rw [Function.update_self, ho]
        exact .freed o ⟨rfl, by simpa [fillMatches] using hmatch⟩
      · rw [Function.update_of_ne hij]
        exact .same ..

theorem onCancelFailed_fate (m : OrderManager) (orderId : Int) (fresh : LiveOrder → Prop) (i : Slot) :
    SlotFate m (.cancelFailed orderId) fresh (m.orders i) ((m.onCancelFailed orderId).orders i) := by
  unfold onCancelFailed
  dsimp only
  split
  · exact .same ..
  · rename_i j _
    refine modifySlot_fate (f := fun o => o.failCancel _) fresh j (by split <;> rfl)
      (fun _ => ⟨rfl, rfl, rfl, rfl, rfl⟩) (fun _ => rfl) i

theorem onDispatchFailed_fate (m : OrderManager) (decision : OrderDecision)
    (fresh : LiveOrder → Prop) (i : Slot) :
    SlotFate m (.dispatchFailed decision) fresh (m.orders i) ((m.onDispatchFailed decision).orders i) := by
  have revert : ∀ clOrdId, SlotFate m (.dispatchFailed decision) fresh (m.orders i)
      ((m.orders i).map fun o => if o.clOrdId = clOrdId then { o with state := .live } else o) :=
    fun clOrdId => .map _ _ _ _ (fun o => by split <;> exact ⟨rfl, rfl, rfl, rfl, rfl⟩)
      (fun o => by split <;> rfl)
  cases decision with
  | noAction => exact .same ..
  | send side level price qty clOrdId =>
    exact clearFirst_fate fresh rfl (fun _ o _ h => by simpa [Terminal] using h) i
  | cancel clOrdId => exact revert clOrdId
  | cancelAndReplace clOrdId _ _ _ => exact revert clOrdId

/-- An operation that is not a quote. -/
def Operation.IsEvent : Operation → Prop
  | .quote .. => False
  | _ => True

/-- **What an event can do to a slot**: keep its order or, if it is a terminal event of that
    order, free it. -/
theorem apply_fate {m : OrderManager} {op : Operation} (hop : op.IsEvent)
    (hz : m.ExchangeIdsNonzero) (fresh : LiveOrder → Prop) (i : Slot) :
    SlotFate m op fresh (m.orders i) ((m.apply op).1.orders i) := by
  cases op with
  | quote => exact hop.elim
  | checkTimeouts now => rw [show (m.apply (.checkTimeouts now)).1 = (m.checkTimeouts now).1 from rfl,
      (checkTimeouts_frame m now).orders]; exact .same ..
  | checkPendingTimeouts now =>
    rw [show (m.apply (.checkPendingTimeouts now)).1 = (m.checkPendingTimeouts now).1 from rfl,
      (checkPendingTimeouts_frame m now).orders]; exact .same ..
  | accepted clOrdId orderId => exact onOrderAccepted_fate m clOrdId orderId fresh i
  | rejected clOrdId nowMs =>
    refine clearFirst_fate (p := fun o => o.clOrdId == clOrdId) fresh ?_
      (fun _ o _ h => by simpa [Terminal] using h) i
    simp only [apply, onOrderRejected]
    split <;> rfl
  | canceled orderId =>
    simp only [apply, onOrderCanceled]
    split
    · refine clearFirst_fate (p := fun o => o.orderId == some orderId) fresh rfl ?_ i
      intro j o ho h
      have hid : o.orderId = some orderId := by simpa using h
      exact ⟨fun h0 => hz j o ho (h0 ▸ hid), hid⟩
    · exact .same ..
  | canceledByClOrdId clOrdId =>
    simp only [apply, onOrderCanceledByClOrdId]
    split
    · exact clearFirst_fate (p := fun o => o.clOrdId == clOrdId) fresh rfl
        (fun _ o _ h => by simpa [Terminal] using h) i
    · exact .same ..
  | filled position orderId clOrdId fullyFilled =>
    exact onOrderFill_fate m position orderId clOrdId fullyFilled fresh i
  | cancelFailed orderId => exact onCancelFailed_fate m orderId fresh i
  | dispatchFailed decision => exact onDispatchFailed_fate m decision fresh i
  | positionRefreshComplete position =>
    simp only [apply, positionRefreshAfterFillComplete]
    split
    · exact .same ..
    · split <;> exact .same ..
  | finishReconciliation =>
    cases ho : m.orders i with
    | none => exact .empty
    | some o => exact .freed o trivial
  | checkCircuitBreakerRecovery recoverySecs nowMs =>
    simp only [apply, checkCircuitBreakerRecovery]
    split <;> exact .same ..
  | checkSafetyPauseRecovery recoverySecs nowMs =>
    simp only [apply, checkSafetyPauseRecovery]
    split <;> exact .same ..
  | initializePositionBaseline position =>
    simp only [apply, initializePositionBaseline]
    split <;> exact .same ..
  | setPauseReason | clearPauseReason | triggerSafetyPause | shutdown | requirePositionRefresh
  | resetCircuitBreaker | setPrecision => exact .same ..

/-- The operations that write the publication to wait for. -/
def Operation.touchesWait : Operation → Bool
  | .filled .. | .requirePositionRefresh _ | .positionRefreshComplete _ => true
  | _ => false

/-- What an event leaves alone beside the slots; only some write the last two. -/
structure EventFrame (m : OrderManager) (op : Operation) (m' : OrderManager) : Prop where
  counter : m'.clOrdIdCounter = m.clOrdIdCounter
  session : m'.sessionPrefix = m.sessionPrefix
  sent : m'.stats.ordersSent = m.stats.ordersSent
  retired : op ≠ .finishReconciliation → m'.retiredGeneration = m.retiredGeneration
  resume : op.touchesWait = false → m'.resumeAfterPositionVersion = m.resumeAfterPositionVersion

theorem EventFrame.refl (m : OrderManager) (op : Operation) : EventFrame m op m :=
  ⟨rfl, rfl, rfl, fun _ => rfl, fun _ => rfl⟩

theorem apply_eventFrame {m : OrderManager} {op : Operation} (hop : op.IsEvent) :
    EventFrame m op (m.apply op).1 := by
  have timeouts : ∀ (m : OrderManager) (op : Operation) (now : Int),
      EventFrame m op (m.checkTimeouts now).1 := by
    intro m op now
    unfold checkTimeouts
    dsimp only
    split <;> exact ⟨rfl, rfl, rfl, fun _ => rfl, fun _ => rfl⟩
  cases op with
  | quote => exact hop.elim
  | checkTimeouts now => exact timeouts m _ now
  | checkPendingTimeouts now =>
    simp only [apply, checkPendingTimeouts]
    split
    · exact .refl m _
    · obtain ⟨hcounter, hsession, hsent, hretired, hresume⟩ :=
        timeouts { m with lastTimeoutCheckNs := now } (.checkPendingTimeouts now) now
      exact ⟨hcounter, hsession, hsent, hretired, hresume⟩
  | accepted clOrdId orderId =>
    simp only [apply, onOrderAccepted]
    split
    · exact .refl m _
    · split
      · exact .refl m _
      · split
        · exact .refl m _
        · dsimp only
          split <;> exact ⟨rfl, rfl, rfl, fun _ => rfl, fun _ => rfl⟩
  | rejected clOrdId nowMs =>
    simp only [apply, onOrderRejected]
    split <;> constructor <;> simp [tripCircuitBreaker, setPauseReason, countRejection, clearOrderByClOrdId]
  | canceled orderId =>
    simp only [apply, onOrderCanceled]
    split <;> constructor <;> simp [countCanceled, clearOrderByExchangeId]
  | canceledByClOrdId clOrdId =>
    simp only [apply, onOrderCanceledByClOrdId]
    split <;> constructor <;> simp [countCanceled, clearOrderByClOrdId]
  | filled position orderId clOrdId fullyFilled =>
    simp only [apply, onOrderFill]
    split
    · exact .refl m _
    · cases fullyFilled <;> exact ⟨rfl, rfl, rfl, fun _ => rfl, fun h => by cases h⟩
  | cancelFailed orderId =>
    simp only [apply, onCancelFailed]
    split
    · exact .refl m _
    · split <;> exact ⟨rfl, rfl, rfl, fun _ => rfl, fun _ => rfl⟩
  | dispatchFailed decision =>
    cases decision with
    | send side level price qty clOrdId =>
      constructor <;> simp [apply, onDispatchFailed, clearOrderByClOrdId]
    | noAction | cancel | cancelAndReplace => exact ⟨rfl, rfl, rfl, fun _ => rfl, fun _ => rfl⟩
  | requirePositionRefresh position => exact ⟨rfl, rfl, rfl, fun _ => rfl, fun h => by cases h⟩
  | positionRefreshComplete position =>
    simp only [apply, positionRefreshAfterFillComplete]
    split
    · exact .refl m _
    · split <;> exact ⟨rfl, rfl, rfl, fun _ => rfl, fun h => by cases h⟩
  | finishReconciliation => exact ⟨rfl, rfl, rfl, fun h => absurd rfl h, fun _ => rfl⟩
  | checkCircuitBreakerRecovery recoverySecs nowMs =>
    simp only [apply, checkCircuitBreakerRecovery]
    split <;> exact ⟨rfl, rfl, rfl, fun _ => rfl, fun _ => rfl⟩
  | checkSafetyPauseRecovery recoverySecs nowMs =>
    simp only [apply, checkSafetyPauseRecovery]
    split <;> exact ⟨rfl, rfl, rfl, fun _ => rfl, fun _ => rfl⟩
  | initializePositionBaseline position =>
    simp only [apply, initializePositionBaseline]
    split <;> exact ⟨rfl, rfl, rfl, fun _ => rfl, fun _ => rfl⟩
  | setPauseReason | clearPauseReason | triggerSafetyPause | shutdown | resetCircuitBreaker
  | setPrecision => exact ⟨rfl, rfl, rfl, fun _ => rfl, fun _ => rfl⟩

/-- Only quotes emit Sends. -/
theorem apply_event_sends {m : OrderManager} {op : Operation} (hop : op.IsEvent) :
    sends (m.apply op).2 = 0 := by
  have timeouts : ∀ (m : OrderManager) (now : Int), sends (m.checkTimeouts now).2 = 0 := by
    intro m now
    refine List.countP_eq_zero.mpr fun d hd => ?_
    have hmem : d ∈ slotsBySide.filterMap fun i => (m.orders i).bind fun o =>
        if o.state ≠ .live ∧ asI64 m.config.pendingTimeoutNs < now - o.sentAtNs
        then some (.cancel o.clOrdId) else none := by
      unfold checkTimeouts at hd
      dsimp only at hd
      split at hd <;> exact hd
    obtain ⟨i, _, hi⟩ := List.mem_filterMap.mp hmem
    obtain ⟨o, _, ho⟩ := Option.bind_eq_some_iff.mp hi
    split at ho
    · cases ho; simp [OrderDecision.isSend]
    · cases ho
  cases op with
  | quote => exact hop.elim
  | checkTimeouts now => exact timeouts m now
  | checkPendingTimeouts now =>
    simp only [apply, checkPendingTimeouts]
    split
    · rfl
    · exact timeouts _ now
  | _ => rfl

end MarketMaker.OrderManager
