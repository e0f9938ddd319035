import MarketMaker.App.PositionGate

/-!
# Conflicting identities

A fill or a cancel confirmation may carry both ids of an order.  `on_order_accepted` refuses ids that
contradict the slots; the fill and cancel arms take the first slot that *either* id finds.

* `onFilled_full`, `onCanceled_outcome` — which slot the two arms free.
* `report_respects_iff` — when the arms respect both ids.
* `conflict_frees_slot` — a cancel with the ids of two orders frees the first of them.
-/

set_option autoImplicit false

namespace MarketMaker.App

/-! ## Slots and ids -/

/-- The order is in a slot of a symbol that has a manager. -/
structure Tracks (app : App) (symbol : String) (i : Slot) (o : LiveOrder) : Prop where
  manager : app.hasManager symbol = true
  order : (app.managers symbol).orders i = some o

/-- The order agrees with both ids. -/
def Consistent (orderId : Int) (clOrdId : String) (o : LiveOrder) : Prop :=
  o.clOrdId = clOrdId ∧ (o.orderId = none ∨ o.orderId = some orderId)

/-- One of the ids finds the order. -/
def Named (orderId : Int) (clOrdId : String) (o : LiveOrder) : Prop :=
  o.clOrdId = clOrdId ∨ o.orderId = some orderId

/-- The ids find an order that disagrees with them, or orders in different slots. -/
def Conflicts (app : App) (orderId : Int) (clOrdId : String) : Prop :=
  (∃ s i o, app.Tracks s i o ∧ Named orderId clOrdId o ∧ ¬ Consistent orderId clOrdId o) ∨
  ∃ s i o s' i' o', app.Tracks s i o ∧ o.clOrdId = clOrdId ∧ app.Tracks s' i' o' ∧ o'.orderId = some orderId ∧
    (s, i) ≠ (s', i')

/-- A slot is freed only if it agrees with both ids; a conflict frees no slot and ends in a
    reconciliation. -/
structure Respects (app app' : App) (orderId : Int) (clOrdId : String) : Prop where
  consistent : ∀ s i o, app.Tracks s i o → (app'.managers s).orders i ≠ some o → Consistent orderId clOrdId o
  refused : app.Conflicts orderId clOrdId →
    (∀ s i o, app.Tracks s i o → (app'.managers s).orders i = some o) ∧ app'.reconciliationPending = true

theorem Conflicts.named {app : App} {orderId : Int} {clOrdId : String}
    (h : app.Conflicts orderId clOrdId) :
    ∃ s i o, app.Tracks s i o ∧ Named orderId clOrdId o := by
  rcases h with ⟨s, i, o, ho, hnamed, _⟩ | ⟨s, i, o, _, _, _, ho, hid, _⟩
  · exact ⟨s, i, o, ho, hnamed⟩
  · exact ⟨s, i, o, ho, Or.inl hid⟩

theorem consistent_of_not_conflicts {app : App} {orderId : Int} {clOrdId : String}
    (h : ¬ app.Conflicts orderId clOrdId) {s : String} {i : Slot} {o : LiveOrder} (ho : app.Tracks s i o)
    (hnamed : Named orderId clOrdId o) : Consistent orderId clOrdId o := by
  by_contra hnot
  exact h (Or.inl ⟨s, i, o, ho, hnamed, hnot⟩)

/-! ## What an arm does to the slots -/

/-- The slots hold what they held. -/
def SlotsKept (app app' : App) : Prop := ∀ s, (app'.managers s).orders = (app.managers s).orders

/-- One named order left its slot; the other slots hold what they held. -/
def SlotFreed (app app' : App) (orderId : Int) (clOrdId : String) : Prop :=
  ∃ s i o, app.Tracks s i o ∧ Named orderId clOrdId o ∧ (app'.managers s).orders i = none ∧
    ∀ s' i', (s', i') ≠ (s, i) → (app'.managers s').orders i' = (app.managers s').orders i'

section Outcome

variable {app app' : App} {orderId : Int} {clOrdId : String}

/-- An arm that keeps the slots respects the ids exactly if a conflict ends in a reconciliation. -/
theorem SlotsKept.respects_iff (h : SlotsKept app app') :
    Respects app app' orderId clOrdId ↔ ¬ app.Conflicts orderId clOrdId ∨ app'.reconciliationPending = true := by
  have hsame : ∀ s i o, app.Tracks s i o → (app'.managers s).orders i = some o := fun s i o ho => by
    rw [h s]
    exact ho.order
  constructor
  · intro hrespects
    by_cases hconflict : app.Conflicts orderId clOrdId
    · exact Or.inr (hrespects.refused hconflict).2
    · exact Or.inl hconflict
  · intro hcase
    exact ⟨fun s i o ho hne => absurd (hsame s i o ho) hne,
      fun hconflict => ⟨hsame, hcase.resolve_left (not_not.mpr hconflict)⟩⟩

/-- An arm that frees a named slot respects the ids exactly if there is no conflict. -/
theorem SlotFreed.respects_iff (h : SlotFreed app app' orderId clOrdId) :
    Respects app app' orderId clOrdId ↔ ¬ app.Conflicts orderId clOrdId := by
  obtain ⟨s, i, o, ho, hnamed, hfreed, hothers⟩ := h
  constructor
  · intro hrespects hconflict
    exact absurd (hfreed.symm.trans ((hrespects.refused hconflict).1 s i o ho)) nofun
  · intro hnone
    refine ⟨fun s' i' o' ho' hne => ?_, fun hconflict => absurd hconflict hnone⟩
    by_cases heq : (s', i') = (s, i)
    · obtain ⟨rfl, rfl⟩ := Prod.mk.inj heq
      obtain rfl := Option.some.inj (ho'.order.symm.trans ho.order)
      exact consistent_of_not_conflicts hnone ho' hnamed
    · exact absurd ((hothers s' i' heq).trans ho'.order) hne

end Outcome

/-- One manager empties a slot. -/
theorem slotFreed_modifyManager {app : App} {orderId : Int} {clOrdId s : String} {i : Slot}
    {o : LiveOrder} {f : OrderManager → OrderManager} (ho : app.Tracks s i o)
    (hnamed : Named orderId clOrdId o)
    (hf : (f (app.managers s)).orders = Function.update (app.managers s).orders i none) :
    SlotFreed app (app.modifyManager s f) orderId clOrdId := by
  refine ⟨s, i, o, ho, hnamed, ?_, fun s' i' hne => ?_⟩
  · dsimp only [modifyManager]
    rw [Function.update_self, hf, Function.update_self]
  · dsimp only [modifyManager]
    by_cases hs : s' = s
    · subst hs
      rw [Function.update_self, hf, Function.update_of_ne fun hi => hne (by rw [hi])]
    · rw [Function.update_of_ne hs]

theorem enterReconciliation_orders (m : OrderManager) (position : SharedPosition) :
    (enterReconciliation m position).orders = m.orders := by
  unfold enterReconciliation
  split <;> rfl

theorem beginAccountReconciliation_slots (app : App) (reason : String) :
    SlotsKept app (app.beginAccountReconciliation reason) := by
  intro s
  unfold beginAccountReconciliation
  split
  · rfl
  · exact enterReconciliation_orders _ _

theorem beginAccountReconciliation_pending_eq (app : App) (reason : String) :
    (app.beginAccountReconciliation reason).reconciliationPending =
      (app.reconciliationPending || app.config.orderEnabled) := by
  unfold beginAccountReconciliation
  cases hpending : app.reconciliationPending <;> cases hon : app.config.orderEnabled <;> simp [hpending]

/-! ## Fills -/

section Fill

variable {app : App} {orderId : Int} {clOrdId : String}

theorem fillMatches_iff (hid : orderId ≠ 0) (o : LiveOrder) :
    OrderManager.fillMatches orderId (some clOrdId) o = true ↔ Named orderId clOrdId o := by
  simp only [OrderManager.fillMatches, Bool.or_eq_true, Bool.and_eq_true, bne_iff_ne, beq_iff_eq, ne_eq, hid,
    not_false_eq_true, true_and, Option.some.injEq, Named]
  rw [or_comm, eq_comm (a := clOrdId)]

/-- The manager a fill is applied to has a named order. -/
theorem fillTarget_some (hid : orderId ≠ 0) {s : String}
    (h : app.fillTarget orderId (some clOrdId) = some s) :
    ∃ i o, (app.managers s).findSlot (OrderManager.fillMatches orderId (some clOrdId)) = some i ∧
      app.Tracks s i o ∧ Named orderId clOrdId o := by
  have hfound : app.hasManager s = true ∧ app.fillMatched orderId (some clOrdId) s = true := by
    unfold fillTarget at h
    split at h
    · rename_i hfilter
      cases h
      exact Bool.and_eq_true_iff.mp (Option.filter_eq_some_iff.mp hfilter).2
    · exact ⟨by simpa [hasManager] using List.mem_of_find?_eq_some h, List.find?_some h⟩
  obtain ⟨i, hi⟩ := Option.isSome_iff_exists.mp hfound.2
  obtain ⟨o, ho, hmatch⟩ := OrderManager.findSlot_some hi
  exact ⟨i, o, hi, ⟨hfound.1, ho⟩, (fillMatches_iff hid o).mp hmatch⟩

/-- A named order is found. -/
theorem fillTarget_none (hid : orderId ≠ 0) (h : app.fillTarget orderId (some clOrdId) = none)
    {s : String} {i : Slot} {o : LiveOrder} (ho : app.Tracks s i o) : ¬ Named orderId clOrdId o := by
  intro hnamed
  have hnone : app.fillMatched orderId (some clOrdId) s ≠ true := by
    unfold fillTarget at h
    split at h
    · cases h
    · exact List.find?_eq_none.mp h s (by simpa [hasManager] using ho.manager)
  have hslot : (app.managers s).findSlot (OrderManager.fillMatches orderId (some clOrdId)) = none := by
    simpa [fillMatched] using hnone
  have := OrderManager.findSlot_none hslot ho.order
  rw [(fillMatches_iff hid o).mpr hnamed] at this
  cases this

theorem refreshed_outcome (app : App) (reason : String) :
    SlotsKept app (app.requireAllPositionRefreshes.beginAccountReconciliation reason) ∧
      (app.requireAllPositionRefreshes.beginAccountReconciliation reason).reconciliationPending =
        (app.reconciliationPending || app.config.orderEnabled) :=
  ⟨fun s => (beginAccountReconciliation_slots _ reason s).trans rfl, beginAccountReconciliation_pending_eq _ _⟩

theorem onOrderFill_orders (m : OrderManager) (position : SharedPosition) (orderId : Int)
    (clOrdId : Option String) (fullyFilled : Bool) {i : Slot}
    (h : m.findSlot (OrderManager.fillMatches orderId clOrdId) = some i) :
    (m.onOrderFill position orderId clOrdId fullyFilled).2.orders =
      if fullyFilled then Function.update m.orders i none else m.orders := by
  unfold OrderManager.onOrderFill
  rw [h]
  cases fullyFilled <;> rfl

/-- A fill that is not a valid full one keeps the slots and ends in a reconciliation. -/
theorem onFilled_kept (app : App) (clOrdId : String) (hid : orderId ≠ 0) {status : Option String}
    {fillQty : String} (h : validFillQty fillQty = false ∨ fillStatus status ≠ .full) :
    SlotsKept app (app.onFilled orderId (some clOrdId) status fillQty) ∧
      (app.onFilled orderId (some clOrdId) status fillQty).reconciliationPending =
        (app.reconciliationPending || app.config.orderEnabled) := by
  unfold onFilled
  cases hvalid : validFillQty fillQty with
  | false => exact refreshed_outcome app _
  | true =>
    have hstatus : fillStatus status ≠ .full := h.resolve_left (by simp [hvalid])
    cases hknown : fillStatus status with
    | full => exact absurd hknown hstatus
    | ambiguous => exact refreshed_outcome app _
    | partiallyFilled =>
      simp only [matchFill_target]
      cases htarget : app.fillTarget orderId (some clOrdId) with
      | none => exact refreshed_outcome app _
      | some s =>
        refine ⟨fun s' => (beginAccountReconciliation_slots _ _ s').trans ?_,
          beginAccountReconciliation_pending_eq _ _⟩
        obtain ⟨i, _, hslot, _⟩ := fillTarget_some hid htarget
        dsimp only [modifyManager]
        by_cases hs : s' = s
        · subst hs
          rw [Function.update_self, onOrderFill_orders _ _ _ _ _ hslot]
          rfl
        · rw [Function.update_of_ne hs]

/-- A valid full fill frees a named slot, if there is one. -/
theorem onFilled_full (app : App) (clOrdId : String) (hid : orderId ≠ 0) {status : Option String}
    {fillQty : String} (hvalid : validFillQty fillQty = true) (hfull : fillStatus status = .full) :
    SlotFreed app (app.onFilled orderId (some clOrdId) status fillQty) orderId clOrdId ∨
      (∀ s i o, app.Tracks s i o → ¬ Named orderId clOrdId o) ∧
        SlotsKept app (app.onFilled orderId (some clOrdId) status fillQty) := by
  unfold onFilled
  simp only [hvalid, hfull, matchFill_target]
  cases htarget : app.fillTarget orderId (some clOrdId) with
  | none => exact Or.inr ⟨fun s i o ho => fillTarget_none hid htarget ho, (refreshed_outcome app _).1⟩
  | some s =>
    obtain ⟨i, o, hslot, ho, hnamed⟩ := fillTarget_some hid htarget
    have hfreed : SlotFreed app
        (app.modifyManager s fun m => (m.onOrderFill (app.positions s) orderId (some clOrdId) true).2)
        orderId clOrdId :=
      slotFreed_modifyManager ho hnamed (onOrderFill_orders _ _ _ _ true hslot)
    exact Or.inl hfreed

/-- When a fill respects both ids. -/
theorem onFilled_respects_iff (app : App) (clOrdId : String) (hid : orderId ≠ 0)
    (status : Option String) (fillQty : String) :
    Respects app (app.onFilled orderId (some clOrdId) status fillQty) orderId clOrdId ↔
      ¬ app.Conflicts orderId clOrdId ∨
        (validFillQty fillQty = false ∨ fillStatus status ≠ .full) ∧
          (app.reconciliationPending || app.config.orderEnabled) = true := by
  by_cases hkept : validFillQty fillQty = false ∨ fillStatus status ≠ .full
  · obtain ⟨hslots, hpending⟩ := onFilled_kept app clOrdId hid hkept
    rw [hslots.respects_iff, hpending]
    simp only [hkept, true_and]
  · obtain ⟨hvalid, hfull⟩ := not_or.mp hkept
    rw [or_iff_left fun h => hkept h.1]
    rcases onFilled_full app clOrdId hid (Bool.eq_true_of_not_eq_false hvalid)
      (not_not.mp hfull) with hfreed | ⟨hnone, hslots⟩
    · exact hfreed.respects_iff
    · have hnot : ¬ app.Conflicts orderId clOrdId := fun hconflict => by
        obtain ⟨s, i, o, ho, hnamed⟩ := hconflict.named
        exact hnone s i o ho hnamed
      rw [hslots.respects_iff]
      exact iff_of_true (Or.inl hnot) hnot

end Fill

/-! ## Cancels -/

section Cancel

variable {app : App} {orderId : Int} {clOrdId : String}

/-- A lookup of the cancel arm finds an order: the client id in the manager it names, the exchange id in
    any manager. -/
def CancelFinds (app : App) (orderId : Int) (clOrdId : String) : Prop :=
  (∃ s i o, OrderManager.extractSymbolFromClOrdId clOrdId = some s ∧ app.Tracks s i o ∧ o.clOrdId = clOrdId) ∨
  ∃ s i o, app.Tracks s i o ∧ o.orderId = some orderId

/-- A confirmation empties the first slot its id finds, and does nothing if there is none. -/
def FreesFirst (p : LiveOrder → Bool) (f : OrderManager → Bool × OrderManager) : Prop :=
  ∀ m, match m.findSlot p with
    | some i => (f m).1 = true ∧ (f m).2.orders = Function.update m.orders i none
    | none => f m = (false, m)

theorem onOrderCanceled_frees (orderId : Int) :
    FreesFirst (fun o => o.orderId == some orderId) (·.onOrderCanceled orderId) := by
  intro m
  dsimp only
  unfold OrderManager.onOrderCanceled OrderManager.clearOrderByExchangeId OrderManager.clearFirst
  cases m.findSlot fun o => o.orderId == some orderId with
  | none => rfl
  | some i => exact ⟨rfl, rfl⟩

theorem onOrderCanceledByClOrdId_frees (clOrdId : String) :
    FreesFirst (fun o => o.clOrdId == clOrdId) (·.onOrderCanceledByClOrdId clOrdId) := by
  intro m
  dsimp only
  unfold OrderManager.onOrderCanceledByClOrdId OrderManager.clearOrderByClOrdId OrderManager.clearFirst
  cases m.findSlot fun o => o.clOrdId == clOrdId with
  | none => rfl
  | some i => exact ⟨rfl, rfl⟩

/-- A confirmation offered to managers one after the other. -/
theorem FreesFirst.updateFirst {p : LiveOrder → Bool} {f : OrderManager → Bool × OrderManager}
    (hf : FreesFirst p f) (hp : ∀ o, p o = true → Named orderId clOrdId o) (app : App)
    {symbols : List String} (hsymbols : ∀ s ∈ symbols, app.hasManager s = true) :
    ((updateFirst (fun _ m => f m) symbols app).1 = true ∧
      SlotFreed app (updateFirst (fun _ m => f m) symbols app).2 orderId clOrdId ∧
      ∃ s ∈ symbols, ∃ i o, app.Tracks s i o ∧ p o = true) ∨
    (updateFirst (fun _ m => f m) symbols app = (false, app) ∧
      ∀ s ∈ symbols, ∀ i o, (app.managers s).orders i = some o → p o = false) := by
  have hanswer : ∀ m, (f m).1 = (m.findSlot p).isSome := by
    intro m
    have := hf m
    split at this
    · rename_i hslot
      rw [this.1, hslot]
      rfl
    · rename_i hslot
      rw [this, hslot]
      rfl
  rw [updateFirst_find (f := fun _ m => f m) fun _ m hfalse => by
    have := hf m
    split at this
    · rw [this.1] at hfalse
      cases hfalse
    · rw [this]]
  cases hfind : symbols.find? fun s => (f (app.managers s)).1 with
  | none =>
    refine Or.inr ⟨rfl, fun s hs i o ho => ?_⟩
    have hnot := List.find?_eq_none.mp hfind s hs
    rw [hanswer] at hnot
    exact OrderManager.findSlot_none (by simpa using hnot) ho
  | some s =>
    have hmem := List.mem_of_find?_eq_some hfind
    have hfound := List.find?_some hfind
    rw [hanswer] at hfound
    obtain ⟨i, hi⟩ := Option.isSome_iff_exists.mp hfound
    obtain ⟨o, ho, hpo⟩ := OrderManager.findSlot_some hi
    have htracks : app.Tracks s i o := ⟨hsymbols s hmem, ho⟩
    have hfrees := hf (app.managers s)
    rw [hi] at hfrees
    have hfreed : SlotFreed app (app.modifyManager s fun m => (f m).2) orderId clOrdId :=
      slotFreed_modifyManager htracks (hp o hpo) hfrees.2
    exact Or.inl ⟨rfl, hfreed, s, hmem, i, o, htracks, hpo⟩

/-- The client id lookup of the cancel arm. -/
theorem cancelNamed_outcome (app : App) (orderId : Int) (clOrdId : String) :
    ((app.cancelNamed (some clOrdId)).1 = true ∧
      SlotFreed app (app.cancelNamed (some clOrdId)).2 orderId clOrdId ∧ app.CancelFinds orderId clOrdId) ∨
    (app.cancelNamed (some clOrdId) = (false, app) ∧
      ∀ s, OrderManager.extractSymbolFromClOrdId clOrdId = some s → ∀ i o, app.Tracks s i o →
        o.clOrdId ≠ clOrdId) := by
  unfold cancelNamed
  dsimp only
  cases hsymbol : OrderManager.extractSymbolFromClOrdId clOrdId with
  | none => exact Or.inr ⟨rfl, nofun⟩
  | some s =>
    dsimp only
    cases hmanager : app.hasManager s with
    | false =>
      refine Or.inr ⟨rfl, fun s' hs i o ho => ?_⟩
      obtain rfl := Option.some.inj hs
      exact absurd (hmanager.symm.trans ho.manager) nofun
    | true =>
      have hnamed : ∀ o : LiveOrder, (o.clOrdId == clOrdId) = true → Named orderId clOrdId o := fun o ho =>
        Or.inl (by simpa using ho)
      have hsymbols : ∀ s' ∈ [s], app.hasManager s' = true := fun s' hs => by
        rw [List.mem_singleton.mp hs, hmanager]
      rcases (onOrderCanceledByClOrdId_frees clOrdId).updateFirst hnamed app hsymbols with
        ⟨hfound, hfreed, s', hs, i, o, ho, hid⟩ | ⟨hsame, hnone⟩
      · obtain rfl := List.mem_singleton.mp hs
        exact Or.inl ⟨hfound, hfreed, Or.inl ⟨s', i, o, hsymbol, ho, by simpa using hid⟩⟩
      · refine Or.inr ⟨hsame, fun s' hs i o ho => ?_⟩
        obtain rfl := Option.some.inj hs
        simpa using hnone s (List.mem_singleton.mpr rfl) i o ho.order

/-- A cancel confirmation frees a named slot, or no lookup finds an order. -/
theorem onCanceled_outcome (app : App) (orderId : Int) (clOrdId : String) :
    (app.CancelFinds orderId clOrdId ∧ SlotFreed app (app.onCanceled orderId (some clOrdId)) orderId clOrdId) ∨
      (¬ app.CancelFinds orderId clOrdId ∧ app.onCanceled orderId (some clOrdId) = app) := by
  unfold onCanceled
  rcases cancelNamed_outcome app orderId clOrdId with ⟨hfound, hfreed, hfinds⟩ | ⟨hsame, hnotnamed⟩
  · rw [if_pos hfound]
    exact Or.inl ⟨hfinds, hfreed⟩
  · simp only [hsame, Bool.false_eq_true, if_false]
    have hnamed : ∀ o : LiveOrder, (o.orderId == some orderId) = true → Named orderId clOrdId o := fun o ho =>
      Or.inr (by simpa using ho)
    have hsymbols : ∀ s ∈ app.config.symbols, app.hasManager s = true := fun s hs => by
      simpa [hasManager] using hs
    rcases (onOrderCanceled_frees orderId).updateFirst hnamed app hsymbols with
      ⟨_, hfreed, s, _, i, o, ho, hid⟩ | ⟨hkept, hnone⟩
    · exact Or.inl ⟨Or.inr ⟨s, i, o, ho, by simpa using hid⟩, hfreed⟩
    · refine Or.inr ⟨?_, by rw [hkept]⟩
      rintro (⟨s, i, o, hs, ho, hid⟩ | ⟨s, i, o, ho, hid⟩)
      · exact hnotnamed s hs i o ho hid
      · have := hnone s (by simpa [hasManager] using ho.manager) i o ho.order
        simp [hid] at this

/-- When a cancel confirmation respects both ids. -/
theorem onCanceled_respects_iff (app : App) (orderId : Int) (clOrdId : String) :
    Respects app (app.onCanceled orderId (some clOrdId)) orderId clOrdId ↔
      ¬ app.Conflicts orderId clOrdId ∨ ¬ app.CancelFinds orderId clOrdId ∧ app.reconciliationPending = true := by
  rcases onCanceled_outcome app orderId clOrdId with ⟨hfinds, hfreed⟩ | ⟨hnone, hsame⟩
  · rw [hfreed.respects_iff, or_iff_left fun h => h.1 hfinds]
  · have hkept : SlotsKept app (app.onCanceled orderId (some clOrdId)) := fun s => by rw [hsame]
    rw [hkept.respects_iff, hsame]
    simp only [hnone, not_false_eq_true, true_and]

end Cancel

/-! ## Both arms -/

/-- What a message with both ids reports. -/
inductive IdentityReport where
  | fill (status : Option String) (fillQty fillPrice : String)
  | cancel

/-- The event of a report. -/
def IdentityReport.event (orderId : Int) (clOrdId : String) : IdentityReport → OrderEvent
  | .fill status fillQty fillPrice => .orderFilled orderId (some clOrdId) status fillQty fillPrice
  | .cancel => .orderCanceled orderId (some clOrdId)

/-- The report frees no slot whatever its ids say, and a reconciliation is pending or begins. -/
def IdentityReport.Harmless (app : App) (orderId : Int) (clOrdId : String) : IdentityReport → Prop
  | .fill status fillQty _ => (validFillQty fillQty = false ∨ fillStatus status ≠ .full) ∧
      (app.reconciliationPending || app.config.orderEnabled) = true
  | .cancel => ¬ app.CancelFinds orderId clOrdId ∧ app.reconciliationPending = true

/-- **A report respects both ids** if and only if they do not conflict, or it is harmless. -/
theorem report_respects_iff {orderId : Int} (hid : orderId ≠ 0) (app : App) (clOrdId : String)
    (report : IdentityReport) (now : Clocks) :
    Respects app (app.onOrderEvent (report.event orderId clOrdId) now) orderId clOrdId ↔
      ¬ app.Conflicts orderId clOrdId ∨ report.Harmless app orderId clOrdId := by
  cases report with
  | fill status fillQty fillPrice => exact onFilled_respects_iff app clOrdId hid status fillQty
  | cancel => exact onCanceled_respects_iff app orderId clOrdId

/-- The first bid and ask are accepted under the exchange ids 5 and 7. -/
def bothBound : App :=
  quoting.after [(atSecond 2, .order (.orderAccepted "mm_BTC-USD_0_0_3_1" 5)),
    (atSecond 2, .order (.orderAccepted "mm_BTC-USD_0_0_3_2" 7))]

theorem report_respects_iff_bound :
    Respects bothBound (bothBound.onOrderEvent (IdentityReport.cancel.event 7 "mm_BTC-USD_0_0_3_1") (atSecond 3)) 7
        "mm_BTC-USD_0_0_3_1" ↔
      ¬ bothBound.Conflicts 7 "mm_BTC-USD_0_0_3_1" ∨
        IdentityReport.cancel.Harmless bothBound 7 "mm_BTC-USD_0_0_3_1" :=
  report_respects_iff (by decide) bothBound _ .cancel (atSecond 3)

/-- **The client id of the bid, the exchange id of the ask**: the cancel frees the bid, and nothing is
    reconciled; so does a full fill. -/
theorem conflict_frees_slot :
    let canceled := bothBound.onOrderEvent (.orderCanceled 7 (some "mm_BTC-USD_0_0_3_1")) (atSecond 3)
    let filled := bothBound.onOrderEvent
      (.orderFilled 7 (some "mm_BTC-USD_0_0_3_1") (some "filled") "1" "99") (atSecond 3)
    ((bothBound.managers "BTC-USD").orders (.buy, 0)).map (·.orderId) = some (some 5) ∧
    ((bothBound.managers "BTC-USD").orders (.sell, 0)).map (·.orderId) = some (some 7) ∧
    (canceled.managers "BTC-USD").orders (.buy, 0) = none ∧ canceled.reconciliationPending = false ∧
    (filled.managers "BTC-USD").orders (.buy, 0) = none ∧ filled.reconciliationPending = false ∧
    ¬ Respects bothBound canceled 7 "mm_BTC-USD_0_0_3_1" ∧ ¬ Respects bothBound filled 7 "mm_BTC-USD_0_0_3_1" := by
  intro canceled filled
  have hbid : ((bothBound.managers "BTC-USD").orders (.buy, 0)).map (·.orderId) = some (some 5) := by
    decide +kernel
  have hcanceled : (canceled.managers "BTC-USD").orders (.buy, 0) = none := by decide +kernel
  have hfilled : (filled.managers "BTC-USD").orders (.buy, 0) = none := by decide +kernel
  obtain ⟨o, ho, hid⟩ := Option.map_eq_some_iff.mp hbid
  have htracks : bothBound.Tracks "BTC-USD" (.buy, 0) o := ⟨by decide +kernel, ho⟩
  -- the bid is bound to 5, not to 7
  have violated : ∀ app' : App, (app'.managers "BTC-USD").orders (.buy, 0) = none →
      ¬ Respects bothBound app' 7 "mm_BTC-USD_0_0_3_1" := by
    intro app' hfreed hrespects
    obtain ⟨_, hunset | hbound⟩ := hrespects.consistent _ _ o htracks (by rw [hfreed]; nofun)
    · exact absurd (hid.symm.trans hunset) nofun
    · exact absurd (hid.symm.trans hbound) (by decide)
  exact ⟨hbid, by decide +kernel, hcanceled, by decide +kernel, hfilled, by decide +kernel,
    violated canceled hcanceled, violated filled hfilled⟩

end MarketMaker.App
