import MarketMaker.Trading.Untradable

/-!
# Rollback of undelivered decisions

`on_dispatch_failed` sees a client id and nothing of the state before: it empties the first slot
with the id of a Send and makes every order with the id of a cancel live.

* `rollBack_orders` — what a slot holds after the rollback, in whatever order the decisions come.
* `rollback_exact_iff` — the rollback is exact if and only if the call cancels no order that was not
  live (and no generated id is taken).
* `rollback_revives_pending` — the pending bid comes back live.
-/

set_option autoImplicit false

namespace MarketMaker.OrderManager

open Word64

/-! ## The rollback -/

/-- `on_dispatch_failed` for each decision in turn. -/
def rollBack (m : OrderManager) (ds : List OrderDecision) : OrderManager := ds.foldl onDispatchFailed m

/-- The slot a Send of the id is rolled back at. -/
def slotOf (m : OrderManager) (clOrdId : String) : Option Slot := m.findSlot fun o => o.clOrdId == clOrdId

/-- The client ids of the cancels among decisions. -/
def cancelIds (ds : List OrderDecision) : List String := ds.filterMap OrderDecision.cancelOf

/-- The client ids of the Sends among decisions. -/
def sendIds (ds : List OrderDecision) : List String := ds.filterMap OrderDecision.sendOf

/-- What the rollback of cancels does to an order. -/
def revive (ids : List String) (o : LiveOrder) : LiveOrder :=
  if o.clOrdId ∈ ids then { o with state := .live } else o

@[simp] theorem revive_clOrdId (ids : List String) (o : LiveOrder) :
    (revive ids o).clOrdId = o.clOrdId := by
  unfold revive
  split <;> rfl

theorem revive_nil : revive [] = id := funext fun o => by simp [revive]

theorem revive_one (c : String) :
    revive [c] = fun o => if o.clOrdId = c then { o with state := .live } else o :=
  funext fun o => by simp [revive]

theorem revive_cons (c : String) (ids : List String) (o : LiveOrder) :
    revive ids (revive [c] o) = revive (c :: ids) o := by
  unfold revive
  by_cases hc : o.clOrdId = c <;> by_cases hids : o.clOrdId ∈ ids <;> simp [hc, hids]

theorem slotOf_some {m : OrderManager} {c : String} {i : Slot} (h : m.slotOf c = some i) :
    ∃ o, m.orders i = some o ∧ o.clOrdId = c := by
  obtain ⟨o, ho, hid⟩ := findSlot_some h
  exact ⟨o, ho, by simpa using hid⟩

/-- The lookup reads whether a slot holds the id, and nothing else. -/
theorem slotOf_congr {m m' : OrderManager} {c : String}
    (h : ∀ i, (m'.orders i).any (fun o => o.clOrdId == c) = (m.orders i).any fun o => o.clOrdId == c) :
    m'.slotOf c = m.slotOf c := by
  unfold slotOf findSlot
  congr 1
  exact funext h

theorem slotOf_revived {m m' : OrderManager} {ids : List String}
    (h : ∀ i, m'.orders i = (m.orders i).map (revive ids)) (c : String) : m'.slotOf c = m.slotOf c := by
  refine slotOf_congr fun i => ?_
  rw [h]
  cases m.orders i with
  | none => rfl
  | some o => simp

/-- Emptying the slot of one id leaves the lookups of the others alone. -/
theorem slotOf_clear {m : OrderManager} {c c' : String} (hne : c' ≠ c) :
    (m.clearOrderByClOrdId c).slotOf c' = m.slotOf c' := by
  refine slotOf_congr fun i => ?_
  unfold clearOrderByClOrdId clearFirst
  split
  · rename_i k hk
    obtain ⟨o, ho, hid⟩ := slotOf_some hk
    rw [setSlot_orders]
    by_cases hik : i = k
    · subst hik
      rw [Function.update_self, ho]
      simp [hid, hne.symm]
    · rw [Function.update_of_ne hik]
  · rfl

theorem clear_orders (m : OrderManager) (c : String) (i : Slot) :
    (m.clearOrderByClOrdId c).orders i = if m.slotOf c = some i then none else m.orders i := by
  unfold clearOrderByClOrdId clearFirst
  split
  · rename_i k hk
    rw [show m.slotOf c = some k from hk, setSlot_orders]
    by_cases hik : i = k
    · subst hik
      simp
    · rw [Function.update_of_ne hik, if_neg fun heq => hik (Option.some.inj heq).symm]
  · rename_i hnone
    rw [show m.slotOf c = none from hnone, if_neg nofun]

/-- **After the rollback** the slots the Sends are looked up at are empty, and the orders with the id
    of a cancel are live. -/
theorem rollBack_orders {ds : List OrderDecision} (hnodup : (sendIds ds).Nodup) (m : OrderManager)
    (i : Slot) :
    (m.rollBack ds).orders i =
      if ∃ c ∈ sendIds ds, m.slotOf c = some i then none else (m.orders i).map (revive (cancelIds ds)) := by
  induction ds generalizing m with
  | nil =>
    simp [rollBack, sendIds, cancelIds, revive_nil]
  | cons d ds ih =>
    -- a decision that cancels, or does nothing, only revives
    have revived : ∀ ids, sendIds (d :: ds) = sendIds ds →
        (∀ j, (m.onDispatchFailed d).orders j = (m.orders j).map (revive ids)) →
        (∀ o, revive (cancelIds ds) (revive ids o) = revive (cancelIds (d :: ds)) o) →
        (m.rollBack (d :: ds)).orders i = if ∃ c ∈ sendIds (d :: ds), m.slotOf c = some i then none
          else (m.orders i).map (revive (cancelIds (d :: ds))) := by
      intro ids hsends horders hcancels
      rw [show m.rollBack (d :: ds) = (m.onDispatchFailed d).rollBack ds from rfl,
        ih (hsends ▸ hnodup), hsends]
      simp only [slotOf_revived horders, horders, Option.map_map]
      rw [show revive (cancelIds ds) ∘ revive ids = revive (cancelIds (d :: ds)) from funext hcancels]
    cases d with
    | noAction =>
      refine revived [] rfl (fun j => ?_) fun o => by rw [revive_nil]; rfl
      rw [revive_nil, Option.map_id]
      rfl
    | cancel c | cancelAndReplace c level price qty =>
      refine revived [c] rfl (fun j => ?_) fun o => revive_cons c _ o
      rw [revive_one]
      rfl
    | send side level price qty c =>
      obtain ⟨hfresh, hrest⟩ := List.nodup_cons.mp (show (c :: sendIds ds).Nodup from hnodup)
      have hlookup : ∀ c' ∈ sendIds ds, (m.clearOrderByClOrdId c).slotOf c' = m.slotOf c' := fun c' hc' =>
        slotOf_clear fun heq => hfresh (heq ▸ hc')
      rw [show m.rollBack (.send side level price qty c :: ds) = (m.clearOrderByClOrdId c).rollBack ds from rfl,
        ih hrest, clear_orders,
        show sendIds (.send side level price qty c :: ds) = c :: sendIds ds from rfl,
        show cancelIds (.send side level price qty c :: ds) = cancelIds ds from rfl]
      by_cases hslot : m.slotOf c = some i
      · rw [if_pos hslot]
        refine Eq.trans ?_ (if_pos ⟨c, List.mem_cons_self, hslot⟩).symm
        split <;> rfl
      · rw [if_neg hslot]
        refine if_congr ⟨?_, ?_⟩ rfl rfl
        · rintro ⟨c', hc', h⟩
          exact ⟨c', List.mem_cons_of_mem c hc', (hlookup c' hc').symm.trans h⟩
        · rintro ⟨c', hc', h⟩
          rcases List.mem_cons.mp hc' with rfl | hmem
          · exact absurd h hslot
          · exact ⟨c', hmem, (hlookup c' hmem).trans h⟩

/-! ## What is restored -/

/-- State, client id, price and quantity of an order. -/
def restoredTerms (o : LiveOrder) : OrderState × String × ℚ × ℚ :=
  (o.state, o.clOrdId, o.price, o.quantity)

/-- The rollback of a call, in whatever order, restores the slots. -/
def RolledBack (m m' : OrderManager) (ds : List OrderDecision) : Prop :=
  ∀ ds', ds'.Perm ds → ∀ i, ((m'.rollBack ds').orders i).map restoredTerms = (m.orders i).map restoredTerms

/-- How a call's decisions describe what it did to the slots. -/
structure Described (m m' : OrderManager) (ds : List OrderDecision) : Prop where
  sends_nodup : (sendIds ds).Nodup
  sent : ∀ c, c ∈ sendIds ds ↔ ∃ i o', m.orders i = none ∧ m'.orders i = some o' ∧ o'.clOrdId = c
  kept : ∀ i o, m.orders i = some o → ∃ o', m'.orders i = some o' ∧ SameTerms o o' ∧
    (o.clOrdId ∉ cancelIds ds → o'.state = o.state)

theorem Described.rolledBack_iff {m m' : OrderManager} {ds : List OrderDecision} (h : Described m m' ds) :
    RolledBack m m' ds ↔
      (∀ i o, m.orders i = some o → o.clOrdId ∈ cancelIds ds → o.state = .live) ∧
      ∀ i o', m.orders i = none → m'.orders i = some o' → m'.slotOf o'.clOrdId = some i := by
  constructor
  · intro hback
    refine ⟨fun i o ho hcancel => ?_, fun i o' hnone ho' => ?_⟩
    · have hslot := hback ds (.refl ds) i
      obtain ⟨o', ho', hsame, _⟩ := h.kept i o ho
      rw [rollBack_orders h.sends_nodup, ho, ho'] at hslot
      split at hslot
      · cases hslot
      · simp only [Option.map_some, Option.some.injEq, restoredTerms, Prod.mk.injEq] at hslot
        rw [← hslot.1, revive, if_pos (hsame.clOrdId ▸ hcancel)]
    · have hslot := hback ds (.refl ds) i
      rw [rollBack_orders h.sends_nodup, hnone, ho'] at hslot
      split at hslot
      · rename_i hcleared
        obtain ⟨c, _, hc⟩ := hcleared
        obtain ⟨o, ho, hid⟩ := slotOf_some hc
        obtain rfl := Option.some.inj (ho'.symm.trans ho)
        rw [hid]
        exact hc
      · cases hslot
  · rintro ⟨hlive, hfirst⟩ ds' hperm i
    have hsends : ∀ c, c ∈ sendIds ds' ↔ c ∈ sendIds ds := fun c => (hperm.filterMap _).mem_iff
    have hcancels : ∀ c, c ∈ cancelIds ds' ↔ c ∈ cancelIds ds := fun c => (hperm.filterMap _).mem_iff
    rw [rollBack_orders ((hperm.filterMap _).nodup_iff.mpr h.sends_nodup)]
    cases ho : m.orders i with
    | none =>
      cases ho' : m'.orders i with
      | none => split <;> rfl
      | some o' =>
        have hsent := (hsends _).mpr ((h.sent _).mpr ⟨i, o', ho, ho', rfl⟩)
        rw [if_pos ⟨_, hsent, hfirst i o' ho ho'⟩]
    | some o =>
      obtain ⟨o', ho', hsame, hstate⟩ := h.kept i o ho
      rw [if_neg, ho']
      · simp only [Option.map_some, Option.some.injEq, restoredTerms, Prod.mk.injEq]
        unfold revive
        split
        · rename_i hcancel
          rw [hcancels, hsame.clOrdId] at hcancel
          exact ⟨(hlive i o ho hcancel).symm, hsame.clOrdId, hsame.price, hsame.quantity⟩
        · rename_i hcancel
          rw [hcancels, hsame.clOrdId] at hcancel
          exact ⟨hstate hcancel, hsame.clOrdId, hsame.price, hsame.quantity⟩
      · -- a Send is looked up at the slot it filled
        rintro ⟨c, hc, hslot⟩
        obtain ⟨k, ok, hnone, hok, rfl⟩ := (h.sent c).mp ((hsends c).mp hc)
        obtain rfl := Option.some.inj (hslot.symm.trans (hfirst k ok hnone hok))
        exact absurd (hnone.symm.trans ho) nofun

/-! ## A quote -/

section Quoted

variable (m : OrderManager) (position limit : ℚ) (quote : Quote) (now : Int)

/-- The call asks to cancel an order of a slot: the limit is unusable, or the order is over its budget,
    may not trade, or is to be replaced. -/
def cancelDue (i : Slot) (o : LiveOrder) : Prop :=
  o.state ≠ .canceling ∧ match m.quoteGate limit quote with
    | .closed => False
    | .invalidLimit => True
    | .quoted mid quantity baseline =>
      let t := loopTerms quote mid quantity position limit baseline
      i ∈ m.quotedSlots quote ∧ ∃ price, quote.price i = some price ∧ 0 < price ∧
        (exceeds m.config o ((m.reached quote t now i).budget t i) mid = true ∨
          m.permittedAt quote t now i price = 0 ∨
          o.state = .live ∧ 0 < m.permittedAt quote t now i price ∧
            needsReplacement m.config o price (m.permittedAt quote t now i price) now = true)

/-- The client id generated for an empty slot, if the loop places an order there. -/
def generatedAt (i : Slot) (clOrdId : String) : Prop :=
  m.orders i = none ∧ match m.quoteGate limit quote with
    | .closed | .invalidLimit => False
    | .quoted mid quantity baseline =>
      let t := loopTerms quote mid quantity position limit baseline
      i ∈ m.quotedSlots quote ∧ (∃ price, quote.price i = some price ∧ 0 < price ∧
        0 < m.permittedAt quote t now i price) ∧ clOrdId = ((m.reached quote t now i).generateClOrdId i.2).1

end Quoted

/-- The visit of an occupied slot asks for a cancel exactly if one of its tests says so. -/
theorem quoteLevel_cancels {m : OrderManager} {t : QuoteTerms} {i : Slot} {o : LiveOrder} {price qty : ℚ}
    (ho : m.orders i = some o) (hprice : t.prices i = some price) (hpos : 0 < price)
    (hqty : permittedQty m.config (m.budget t i) price t.mid t.quantity = qty) (now : Int) :
    (∃ d ∈ (m.quoteLevel t now i).2, d.cancelOf = some o.clOrdId) ↔
      o.state ≠ .canceling ∧ (exceeds m.config o (m.budget t i) t.mid = true ∨ qty = 0 ∨
        o.state = .live ∧ 0 < qty ∧ needsReplacement m.config o price qty now = true) := by
  unfold quoteLevel
  simp only [hprice, not_le.mpr hpos, if_false, ho, hqty]
  by_cases hstate : o.state = .canceling
  · simp [hstate, processSideLevel, ho]
  · by_cases hstop : exceeds m.config o (m.budget t i) t.mid = true ∨ qty = 0
    · have htest : ((exceeds m.config o (m.budget t i) t.mid || qty == 0) && o.state != .canceling) = true := by
        simpa [hstate] using hstop
      rw [if_pos htest]
      simp only [Option.mem_def, Option.some.injEq, exists_eq_left', OrderDecision.cancelOf, true_iff]
      exact ⟨hstate, hstop.imp_right Or.inl⟩
    · obtain ⟨hfits, hzero⟩ := not_or.mp hstop
      have htest : ¬ ((exceeds m.config o (m.budget t i) t.mid || qty == 0) && o.state != .canceling) = true := by
        simp [hfits, hzero]
      rw [if_neg htest]
      by_cases hpositive : 0 < qty
      · rw [if_pos hpositive, processSideLevel, ho]
        cases hlive : o.state with
        | pending => simp [hlive, hfits, hzero]
        | canceling => exact absurd hlive hstate
        | live =>
          by_cases hneeds : needsReplacement m.config o price qty now = true <;>
            simp [hlive, hfits, hzero, hpositive, hneeds, OrderDecision.cancelOf]
      · simp [hfits, hzero, hpositive]

/-- The visit of an empty slot places an order exactly if something is permitted there. -/
theorem quoteLevel_places {m : OrderManager} {t : QuoteTerms} {i : Slot} {price : ℚ}
    (hnone : m.orders i = none) (hprice : t.prices i = some price) (hpos : 0 < price) (now : Int)
    (c : String) :
    (∃ o', (m.quoteLevel t now i).1.orders i = some o' ∧ o'.clOrdId = c) ↔
      0 < permittedQty m.config (m.budget t i) price t.mid t.quantity ∧ c = (m.generateClOrdId i.2).1 := by
  unfold quoteLevel
  simp only [hprice, not_le.mpr hpos, if_false, hnone]
  by_cases hqty : 0 < permittedQty m.config (m.budget t i) price t.mid t.quantity
  · rw [if_pos hqty, processSideLevel, hnone]
    dsimp only
    rw [placeOrder_orders, Function.update_self]
    simp [hqty, eq_comm]
  · rw [if_neg hqty]
    simp [hnone, hqty]

/-- The order of the lookups. -/
def LookedUpBefore (j i : Slot) : Prop := slotsByLevel.idxOf j < slotsByLevel.idxOf i

theorem slotOf_eq_some_iff {m : OrderManager} {c : String} {i : Slot} :
    m.slotOf c = some i ↔ (∃ o, m.orders i = some o ∧ o.clOrdId = c) ∧
      ∀ j, LookedUpBefore j i → ∀ o, m.orders j = some o → o.clOrdId ≠ c := by
  have hnodup : slotsByLevel.Nodup := by decide
  unfold slotOf findSlot
  rw [List.find?_eq_some_iff_getElem]
  refine and_congr (by simp [Option.any_eq_true]) ⟨?_, fun hbefore => ?_⟩
  · rintro ⟨k, hk, rfl, hnone⟩ j hj o ho hid
    rw [LookedUpBefore, hnodup.idxOf_getElem] at hj
    have := hnone _ hj
    rw [List.getElem_idxOf] at this
    simp [ho, hid] at this
  · refine ⟨slotsByLevel.idxOf i, List.idxOf_lt_length_of_mem (mem_slotsByLevel i), List.getElem_idxOf _,
      fun k hk => ?_⟩
    have hlength : k < slotsByLevel.length := hk.trans (List.idxOf_lt_length_of_mem (mem_slotsByLevel i))
    have hearlier : LookedUpBefore slotsByLevel[k] i := by
      rw [LookedUpBefore, hnodup.idxOf_getElem]
      exact hk
    cases ho : m.orders slotsByLevel[k] with
    | none => rfl
    | some o => simpa using hbefore _ hearlier o ho

/-- A call places or cancels at a slot, and says so. -/
theorem SlotEffect.sends {now : Int} {i : Slot} {x y : Option LiveOrder} {ds : List OrderDecision}
    (h : SlotEffect now i x y ds) (c : String) :
    (∃ d ∈ ds, d.sendOf = some c) ↔ x = none ∧ ∃ o', y = some o' ∧ o'.clOrdId = c := by
  cases h with
  | keep x => cases x <;> simp
  | cancel o _ => simp [OrderDecision.sendOf]
  | replace o _ _ _ => simp [OrderDecision.sendOf]
  | place o _ _ => simp [OrderDecision.sendOf]

theorem SlotEffect.cancels {now : Int} {i : Slot} {x y : Option LiveOrder} {ds : List OrderDecision}
    (h : SlotEffect now i x y ds) {c : String} {d : OrderDecision} (hd : d ∈ ds)
    (hc : d.cancelOf = some c) :
    ∃ o, x = some o ∧ o.clOrdId = c := by
  cases h with
  | keep => cases hd
  | cancel o _ | replace o _ _ _ =>
    rw [List.mem_singleton.mp hd] at hc
    exact ⟨o, rfl, Option.some.inj hc⟩
  | place o _ _ =>
    rw [List.mem_singleton.mp hd] at hc
    cases hc

theorem SlotEffect.keeps {now : Int} {i : Slot} {o : LiveOrder} {y : Option LiveOrder}
    {ds : List OrderDecision} (h : SlotEffect now i (some o) y ds) :
    ∃ o', y = some o' ∧ SameTerms o o' ∧ (o.clOrdId ∉ cancelIds ds → o'.state = o.state) := by
  cases h with
  | keep => exact ⟨o, rfl, .refl o, fun _ => rfl⟩
  | cancel o _ | replace o _ _ _ =>
    refine ⟨_, rfl, ⟨rfl, rfl, rfl, rfl, rfl⟩, fun hnot => absurd ?_ hnot⟩
    simp [cancelIds, OrderDecision.cancelOf]

section Quoted

variable {m : OrderManager} {position limit : ℚ} {quote : Quote} {now : Int}

theorem mem_decisions {d : OrderDecision} :
    d ∈ (m.onQuoteInto position limit quote now).2 ↔ ∃ i, d ∈ m.emittedAt position limit quote now i := by
  rw [onQuoteInto_decisions]
  constructor
  · intro hd
    obtain ⟨e, he, rfl⟩ := List.mem_map.mp hd
    exact ⟨e.1, mem_emittedAt he⟩
  · rintro ⟨i, hd⟩
    obtain ⟨e, he, rfl⟩ := List.mem_map.mp hd
    exact List.mem_map_of_mem (List.mem_of_mem_filter he)

theorem mem_sendIds {c : String} {ds : List OrderDecision} :
    c ∈ sendIds ds ↔ ∃ d ∈ ds, d.sendOf = some c :=
  List.mem_filterMap

theorem mem_cancelIds {c : String} {ds : List OrderDecision} :
    c ∈ cancelIds ds ↔ ∃ d ∈ ds, d.cancelOf = some c :=
  List.mem_filterMap

/-- The ids of the Sends of a quote are the ids of the orders it places. -/
theorem sendIds_iff {c : String} :
    c ∈ sendIds (m.onQuoteInto position limit quote now).2 ↔ ∃ i o', m.orders i = none ∧
      (m.onQuoteInto position limit quote now).1.orders i = some o' ∧ o'.clOrdId = c := by
  have heffect := fun i => (m.onQuoteInto_effect position limit quote now i).sends c
  rw [mem_sendIds]
  constructor
  · rintro ⟨d, hd, hc⟩
    obtain ⟨i, hi⟩ := mem_decisions.mp hd
    obtain ⟨hnone, o', ho', hid⟩ := (heffect i).mp ⟨d, hi, hc⟩
    exact ⟨i, o', hnone, ho', hid⟩
  · rintro ⟨i, o', hnone, ho', hid⟩
    obtain ⟨d, hi, hc⟩ := (heffect i).mpr ⟨hnone, o', ho', hid⟩
    exact ⟨d, mem_decisions.mpr ⟨i, hi⟩, hc⟩

theorem sendIds_nodup : (sendIds (m.onQuoteInto position limit quote now).2).Nodup := by
  have hslots : (m.emissions position limit quote now).Pairwise fun e e' => e.1 ≠ e'.1 :=
    List.pairwise_map.mp (m.emissions_slots_nodup position limit quote now)
  unfold sendIds
  rw [onQuoteInto_decisions, List.filterMap_map]
  refine List.pairwise_filterMap.mpr (hslots.imp_of_mem fun {e e'} he he' hne c hc c' hc' heq => hne ?_)
  have placed := fun (e : Slot × OrderDecision) (c : String)
      (he : e ∈ m.emissions position limit quote now) (hc : e.2.sendOf = some c) =>
    ((m.onQuoteInto_effect position limit quote now e.1).sends c).mp ⟨e.2, mem_emittedAt he, hc⟩
  obtain ⟨hnone, o, ho, hid⟩ := placed e c he hc
  obtain ⟨hnone', o', ho', hid'⟩ := placed e' c' he' hc'
  exact m.placed_ids_ne position limit quote now ho ho' hnone hnone' (hid.trans (heq.trans hid'.symm))

theorem quote_described (m : OrderManager) (position limit : ℚ) (quote : Quote) (now : Int) :
    Described m (m.onQuoteInto position limit quote now).1 (m.onQuoteInto position limit quote now).2 := by
  refine ⟨sendIds_nodup, fun c => sendIds_iff, fun i o ho => ?_⟩
  have heffect := m.onQuoteInto_effect position limit quote now i
  rw [ho] at heffect
  obtain ⟨o', ho', hsame, hstate⟩ := heffect.keeps
  refine ⟨o', ho', hsame, fun hnot => hstate fun hmem => hnot ?_⟩
  obtain ⟨d, hd, hc⟩ := mem_cancelIds.mp hmem
  exact mem_cancelIds.mpr ⟨d, mem_decisions.mpr ⟨i, hd⟩, hc⟩

/-- With an unusable limit every slot is treated as by `cancel_exposure`. -/
theorem swept_of_gate (hgate : m.quoteGate limit quote = .invalidLimit) (position : ℚ) (now : Int)
    (i : Slot) :
    ∃ m' : OrderManager, m'.orders i = m.orders i ∧
      (m.onQuoteInto position limit quote now).1.orders i = (cancelSlot now m' i).1.orders i ∧
      m.emittedAt position limit quote now i = (cancelSlot now m' i).2.toList := by
  have hreached := Visits.get_before (cancelSlot_local now) (m.setPauseReason .riskData) slotsBySide i
  refine ⟨_, hreached, ?_, ?_⟩
  · rw [onQuoteInto_eq, hgate]
    dsimp only [cancelExposure]
    rw [sweep_eq_visits]
    exact Visits.get_after (cancelSlot_local now) slotsBySide_nodup (mem_slotsBySide i) _
  · rw [emittedAt, emissions, hgate]
    dsimp only
    rw [Visits.emissions_at slotsBySide_nodup (mem_slotsBySide i), List.map_map]
    exact List.map_id _

/-- The cancels of a quote, by what the loop reads. -/
theorem cancelDue_iff {i : Slot} {o : LiveOrder} (ho : m.orders i = some o) :
    (∃ d ∈ m.emittedAt position limit quote now i, d.cancelOf = some o.clOrdId) ↔
      m.cancelDue position limit quote now i o := by
  unfold cancelDue
  cases hgate : m.quoteGate limit quote with
  | closed =>
    rw [emittedAt, emissions, hgate]
    simp
  | invalidLimit =>
    obtain ⟨m', hm', _, hemitted⟩ := swept_of_gate hgate position now i
    rw [hemitted, cancelSlot, hm', ho]
    by_cases hstate : o.state = .canceling <;> simp [hstate, OrderDecision.cancelOf]
  | quoted mid quantity baseline =>
    dsimp only
    set t := loopTerms quote mid quantity position limit baseline
    by_cases hi : i ∈ m.quotedSlots quote
    · rw [(visited_of_gate hgate hi position now (t := t) rfl).2]
      have hreached := (m.reached_orders quote t now i).trans ho
      cases hprice : quote.price i with
      | none =>
        rw [quoteLevel, show t.prices i = none from hprice]
        simp
      | some price =>
        by_cases hpos : 0 < price
        · have hvisit := quoteLevel_cancels hreached (t := t) hprice hpos rfl now
          rw [m.reached_config quote t now i] at hvisit
          simp only [Option.mem_toList, ← Option.mem_def, hi, true_and]
          simp only [Option.mem_def, Option.some.injEq, exists_eq_left', hpos, true_and]
          exact hvisit
        · rw [quoteLevel, show t.prices i = some price from hprice]
          simp [not_lt.mp hpos, hpos]
    · rw [(unvisited_of_gate hgate hi position now).2]
      simp [hi]

/-- The ids of the orders a quote places, by what the loop reads. -/
theorem generatedAt_iff {i : Slot} {c : String} :
    (m.orders i = none ∧
      ∃ o', (m.onQuoteInto position limit quote now).1.orders i = some o' ∧ o'.clOrdId = c) ↔
      m.generatedAt position limit quote now i c := by
  refine and_congr_right fun hnone => ?_
  cases hgate : m.quoteGate limit quote with
  | closed =>
    rw [onQuoteInto_eq, hgate]
    simp [hnone]
  | invalidLimit =>
    obtain ⟨m', hm', horders, _⟩ := swept_of_gate hgate position now i
    rw [horders, cancelSlot, hm', hnone]
    simp [hm', hnone]
  | quoted mid quantity baseline =>
    dsimp only
    set t := loopTerms quote mid quantity position limit baseline
    by_cases hi : i ∈ m.quotedSlots quote
    · rw [(visited_of_gate hgate hi position now (t := t) rfl).1]
      have hreached := (m.reached_orders quote t now i).trans hnone
      cases hprice : quote.price i with
      | none =>
        rw [quoteLevel, show t.prices i = none from hprice]
        simp [hreached]
      | some price =>
        by_cases hpos : 0 < price
        · have hvisit := quoteLevel_places hreached (t := t) hprice hpos now c
          rw [m.reached_config quote t now i] at hvisit
          simp only [Option.some.injEq, exists_eq_left', hpos, hi, true_and]
          exact hvisit
        · rw [quoteLevel, show t.prices i = some price from hprice]
          simp [not_lt.mp hpos, hpos, hreached]
    · rw [(unvisited_of_gate hgate hi position now).1]
      simp [hi, hnone]

end Quoted

/-! ## When the rollback is exact -/

/-- A call that decides. -/
inductive DecidingCall where
  | onQuote (position limit : ℚ) (quote : Quote) (now : Int)
  | timeouts (now : Int)

/-- The manager after the call, and the decisions. -/
def DecidingCall.run (m : OrderManager) : DecidingCall → OrderManager × List OrderDecision
  | .onQuote position limit quote now => m.onQuoteInto position limit quote now
  | .timeouts now => m.checkTimeouts now

/-- The call cancels only live orders, and generates no id that a slot looked up earlier holds; a timeout
    check finds nothing. -/
def DecidingCall.Undoable (m : OrderManager) : DecidingCall → Prop
  | .onQuote position limit quote now =>
    (∀ i o, m.orders i = some o → m.cancelDue position limit quote now i o →
      ∀ j o', m.orders j = some o' → o'.clOrdId = o.clOrdId → o'.state = .live) ∧
    ∀ i c, m.generatedAt position limit quote now i c →
      ∀ j, LookedUpBefore j i → ∀ o, m.orders j = some o → o.clOrdId ≠ c
  | .timeouts now => ∀ i o, m.orders i = some o → o.state ≠ .live →
      now - o.sentAtNs ≤ asI64 m.config.pendingTimeoutNs

theorem quote_rolledBack_iff (m : OrderManager) (position limit : ℚ) (quote : Quote) (now : Int) :
    RolledBack m (m.onQuoteInto position limit quote now).1 (m.onQuoteInto position limit quote now).2 ↔
      (DecidingCall.onQuote position limit quote now).Undoable m := by
  have hdescribed := m.quote_described position limit quote now
  rw [hdescribed.rolledBack_iff]
  refine and_congr ⟨?_, ?_⟩ ⟨?_, ?_⟩
  · intro hlive i o ho hdue j o' ho' hid
    obtain ⟨d, hd, hc⟩ := (cancelDue_iff ho).mpr hdue
    exact hlive j o' ho' (hid ▸ mem_cancelIds.mpr ⟨d, mem_decisions.mpr ⟨i, hd⟩, hc⟩)
  · intro hdue j o' ho' hcancel
    obtain ⟨d, hd, hc⟩ := mem_cancelIds.mp hcancel
    obtain ⟨i, hi⟩ := mem_decisions.mp hd
    obtain ⟨o, ho, hid⟩ := (m.onQuoteInto_effect position limit quote now i).cancels hi hc
    exact hdue i o ho ((cancelDue_iff ho).mp ⟨d, hi, hid ▸ hc⟩) j o' ho' hid.symm
  · intro hfirst i c hgenerated j hj o ho heq
    obtain ⟨hnone, o', ho', hid⟩ := generatedAt_iff.mpr hgenerated
    obtain ⟨o'', ho'', hsame, _⟩ := hdescribed.kept j o ho
    refine (slotOf_eq_some_iff.mp (hfirst i o' hnone ho')).2 j hj o'' ho'' ?_
    rw [hsame.clOrdId, heq, hid]
  · intro huntaken i o' hnone ho'
    refine slotOf_eq_some_iff.mpr ⟨⟨o', ho', rfl⟩, fun j hj o'' ho'' heq => ?_⟩
    cases ho : m.orders j with
    | none =>
      obtain rfl := m.placed_ids_ne position limit quote now ho'' ho' ho hnone heq
      exact lt_irrefl _ hj
    | some o =>
      obtain ⟨o₁, ho₁, hsame, _⟩ := hdescribed.kept j o ho
      obtain rfl := Option.some.inj (ho''.symm.trans ho₁)
      have hgenerated := generatedAt_iff.mp ⟨hnone, o', ho', rfl⟩
      exact huntaken i o'.clOrdId hgenerated j hj o ho (hsame.clOrdId.symm.trans heq)

theorem checkTimeouts_orders (m : OrderManager) (now : Int) :
    (m.checkTimeouts now).1.orders = m.orders := by
  unfold checkTimeouts
  dsimp only
  split <;> rfl

/-- A timeout check cancels the orders that are overdue. -/
theorem mem_checkTimeouts {m : OrderManager} {now : Int} {d : OrderDecision} :
    d ∈ (m.checkTimeouts now).2 ↔ ∃ i o, m.orders i = some o ∧ o.state ≠ .live ∧
      asI64 m.config.pendingTimeoutNs < now - o.sentAtNs ∧ d = .cancel o.clOrdId := by
  have hdecisions : (m.checkTimeouts now).2 = slotsBySide.filterMap fun i => (m.orders i).bind fun o =>
      if o.state ≠ .live ∧ asI64 m.config.pendingTimeoutNs < now - o.sentAtNs
      then some (.cancel o.clOrdId) else none := by
    unfold checkTimeouts
    dsimp only
    split <;> rfl
  rw [hdecisions, List.mem_filterMap]
  constructor
  · rintro ⟨i, _, hd⟩
    obtain ⟨o, ho, hdue⟩ := Option.bind_eq_some_iff.mp hd
    split at hdue
    · rename_i htest
      exact ⟨i, o, ho, htest.1, htest.2, (Option.some.inj hdue).symm⟩
    · cases hdue
  · rintro ⟨i, o, ho, hstate, hlate, rfl⟩
    exact ⟨i, mem_slotsBySide i, by rw [ho, Option.bind_some, if_pos ⟨hstate, hlate⟩]⟩

theorem timeouts_rolledBack_iff (m : OrderManager) (now : Int) :
    RolledBack m (m.checkTimeouts now).1 (m.checkTimeouts now).2 ↔ (DecidingCall.timeouts now).Undoable m := by
  have hnosend : sendIds (m.checkTimeouts now).2 = [] := by
    refine List.filterMap_eq_nil_iff.mpr fun d hd => ?_
    obtain ⟨_, o, _, _, _, rfl⟩ := mem_checkTimeouts.mp hd
    rfl
  have hdescribed : Described m (m.checkTimeouts now).1 (m.checkTimeouts now).2 := by
    refine ⟨hnosend ▸ List.nodup_nil, fun c => ⟨fun hc => ?_, ?_⟩, fun i o ho => ?_⟩
    · rw [hnosend] at hc
      cases hc
    · rintro ⟨i, o', hnone, ho', _⟩
      rw [checkTimeouts_orders, hnone] at ho'
      cases ho'
    · rw [checkTimeouts_orders]
      exact ⟨o, ho, .refl o, fun _ => rfl⟩
  rw [hdescribed.rolledBack_iff]
  constructor
  · rintro ⟨hlive, _⟩ i o ho hstate
    by_contra hlate
    have hdue := mem_checkTimeouts.mpr ⟨i, o, ho, hstate, not_le.mp hlate, rfl⟩
    exact hstate (hlive i o ho (mem_cancelIds.mpr ⟨_, hdue, rfl⟩))
  · intro hintime
    refine ⟨fun i o ho hcancel => ?_, fun i o' hnone ho' => ?_⟩
    · obtain ⟨d, hd, _⟩ := mem_cancelIds.mp hcancel
      obtain ⟨j, o', ho', hstate, hlate, _⟩ := mem_checkTimeouts.mp hd
      exact absurd (hintime j o' ho' hstate) (not_le.mpr hlate)
    · rw [checkTimeouts_orders, hnone] at ho'
      cases ho'

/-- **The rollback is exact** if and only if the call cancels only live orders and generates no id that
    is taken; after a timeout check, if and only if nothing was overdue. -/
theorem rollback_exact_iff (m : OrderManager) (call : DecidingCall) :
    RolledBack m (call.run m).1 (call.run m).2 ↔ call.Undoable m := by
  cases call with
  | onQuote position limit quote now => exact m.quote_rolledBack_iff position limit quote now
  | timeouts now => exact m.timeouts_rolledBack_iff now

/-- **A pending order comes back live**: the bid is not tradable at the quantity quoted, and the
    cancel is not delivered. -/
theorem rollback_revives_pending :
    let call := DecidingCall.onQuote 0 1000 (.oneLevel (some 99) (some 101) (1 / 10000) 100) 1
    (oneBid.orders (.buy, 0)).map (·.state) = some .pending ∧
    (call.run oneBid).2 = [.cancel "mm_TEST-USD_7_0_0_1"] ∧
    (((call.run oneBid).1.rollBack (call.run oneBid).2).orders (.buy, 0)).map (·.state) = some .live ∧
    ¬ RolledBack oneBid (call.run oneBid).1 (call.run oneBid).2 := by
  refine ⟨by decide +kernel, by decide +kernel, by decide +kernel, fun hback => ?_⟩
  have hslot := hback _ (.refl _) (.buy, 0)
  revert hslot
  decide +kernel

end MarketMaker.OrderManager
