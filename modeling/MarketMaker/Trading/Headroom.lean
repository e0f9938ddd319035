import Mathlib.Algebra.BigOperators.Fin
import Mathlib.Algebra.Order.BigOperators.Group.Finset
import Mathlib.Tactic.FieldSimp
import MarketMaker.Trading.OrderManager

/-!
# The quote path and its headroom

What one visit of the level loop can do to a slot (`LevelOutcome`), what a whole loop can do
(`sweep_rule`), and from these the exposure bound of `on_quote_into`.

## Results

* `quoteLevel_outcome` — a visit leaves the manager alone, cancels, replaces or places.
* `sweep_rule` — what every visit preserves, the loop preserves.
* `send_within_headroom` — whenever a Send leaves `on_quote_into`, the position and **every**
  occupied slot of its side, marked at `max(price, mid)`, fit under both limits.
-/

set_option autoImplicit false

namespace MarketMaker.OrderManager

/-! ## One visit -/

/-- What one iteration of the level loop can do at a slot. -/
inductive LevelOutcome (m : OrderManager) (t : QuoteTerms) (now : Int) (i : Slot) :
    OrderManager × Option OrderDecision → Prop
  | keep : LevelOutcome m t now i (m, none)
  | cancel (o : LiveOrder) : m.orders i = some o → o.state ≠ .canceling →
      LevelOutcome m t now i (m.setOrderCanceling i now, some (.cancel o.clOrdId))
  | replace (o : LiveOrder) (price qty : ℚ) : m.orders i = some o → o.state = .live →
      LevelOutcome m t now i
        (m.repriceOrder i now, some (.cancelAndReplace o.clOrdId i.2 price qty))
  | place (price : ℚ) : m.orders i = none → 0 < price →
      0 < permittedQty m.config (m.budget t i) price t.mid t.quantity →
      LevelOutcome m t now i
        ((m.placeOrder i price (permittedQty m.config (m.budget t i) price t.mid t.quantity) now).1,
         some (m.placeOrder i price
           (permittedQty m.config (m.budget t i) price t.mid t.quantity) now).2)

theorem quoteLevel_outcome (m : OrderManager) (t : QuoteTerms) (now : Int) (i : Slot) :
    LevelOutcome m t now i (m.quoteLevel t now i) := by
  unfold quoteLevel
  split
  · exact .keep
  · rename_i price _
    split
    · exact .keep
    · rename_i hprice
      split
      · rename_i o ho
        dsimp only
        split
        · rename_i hc
          simp only [Bool.and_eq_true, bne_iff_ne] at hc
          exact .cancel o ho hc.2
        · split
          · unfold processSideLevel
            simp only [ho]
            split
            · exact .keep
            · exact .keep
            · rename_i hlive
              split
              · exact .replace o _ _ ho hlive
              · exact .keep
          · exact .keep
      · rename_i hnone
        dsimp only
        split
        · rename_i hqty
          unfold processSideLevel
          simp only [hnone]
          exact .place price hnone (not_le.mp hprice) hqty
        · exact .keep

theorem cancelSlot_outcome (m : OrderManager) (t : QuoteTerms) (now : Int) (i : Slot) :
    LevelOutcome m t now i (cancelSlot now m i) := by
  unfold cancelSlot
  split
  · rename_i o ho
    split
    · rename_i hs
      exact .cancel o ho (by simpa using hs)
    · exact .keep
  · exact .keep

/-! ## The loop -/

theorem sweep_rule_from {f : OrderManager → Slot → OrderManager × Option OrderDecision}
    {I : OrderManager → List OrderDecision → Prop}
    (hstep : ∀ m ds i, I m ds → I (f m i).1 (ds ++ (f m i).2.toList))
    (is : List Slot) {m : OrderManager} {ds : List OrderDecision} (h : I m ds) :
    I (sweep f m is).1 (ds ++ (sweep f m is).2) := by
  induction is generalizing m ds with
  | nil => simpa [sweep] using h
  | cons i is ih =>
    have := ih (hstep m ds i h)
    simpa [sweep, List.append_assoc] using this

/-- **Loop rule.**  `I` relates the manager to the decisions collected so far. -/
theorem sweep_rule {f : OrderManager → Slot → OrderManager × Option OrderDecision}
    {I : OrderManager → List OrderDecision → Prop}
    (hstep : ∀ m ds i, I m ds → I (f m i).1 (ds ++ (f m i).2.toList))
    (is : List Slot) {m : OrderManager} (h : I m []) :
    I (sweep f m is).1 (sweep f m is).2 := by
  have := sweep_rule_from hstep is h
  rwa [List.nil_append] at this

/-- The gate `on_quote_into` passes before it touches a slot. -/
def Unpaused (m : OrderManager) : Prop :=
  m.execution.shutdown = false ∧ m.execution.pauseReasons = 0#8

/-- What `on_quote_into` can do as a whole. -/
inductive QuoteOutcome (m : OrderManager) (position limit : ℚ) (quote : Quote) (now : Int) :
    OrderManager × List OrderDecision → Prop
  | idle : QuoteOutcome m position limit quote now (m, [])
  | invalidLimit : m.Unpaused →
      QuoteOutcome m position limit quote now ((m.setPauseReason .riskData).cancelExposure now)
  | quoted (mid quantity baseline : ℚ) : m.Unpaused → quote.midPrice = some mid →
      quote.quantity = some quantity → 0 < mid → 0 < limit → m.limitBaseline = some baseline →
      QuoteOutcome m position limit quote now
        (sweep (fun m => m.quoteLevel ⟨quote.price, quantity, mid, position, limit, baseline⟩ now) m
          (m.quotedSlots quote))

theorem onQuoteInto_outcome (m : OrderManager) (position limit : ℚ) (quote : Quote) (now : Int) :
    QuoteOutcome m position limit quote now (m.onQuoteInto position limit quote now) := by
  unfold onQuoteInto
  split
  · exact .idle
  · rename_i hgate
    have hopen : m.Unpaused := by simpa [Unpaused] using hgate
    split
    · exact .idle
    · split
      · rename_i mid quantity hmid hquantity
        split
        · exact .idle
        · rename_i hpos
          push Not at hpos
          split
          · exact .invalidLimit hopen
          · rename_i hlimit
            split
            · exact .idle
            · rename_i baseline hbase
              exact .quoted mid quantity baseline hopen hmid hquantity hpos.1 (not_le.mp hlimit) hbase
      · exact .idle

/-- **Quote rule.**  What holds before the loop, of the manager as it is and with `RiskData` set,
    and is preserved by every visit, holds after the quote. -/
theorem onQuoteInto_rule {m : OrderManager} {position limit : ℚ} {quote : Quote} {now : Int}
    {I : OrderManager → List OrderDecision → Prop} (hstart : I m [])
    (hpaused : I (m.setPauseReason .riskData) [])
    (hstep : ∀ {m' ds t i r}, I m' ds → LevelOutcome m' t now i r → I r.1 (ds ++ r.2.toList)) :
    I (m.onQuoteInto position limit quote now).1 (m.onQuoteInto position limit quote now).2 := by
  have houtcome := m.onQuoteInto_outcome position limit quote now
  generalize m.onQuoteInto position limit quote now = r at houtcome ⊢
  cases houtcome with
  | idle => exact hstart
  | invalidLimit _ =>
    exact sweep_rule (I := I) (fun m' _ i h =>
      hstep h (cancelSlot_outcome m' ⟨fun _ => none, 0, 0, 0, 0, 0⟩ now i)) slotsBySide hpaused
  | quoted _ _ _ _ _ _ _ _ _ =>
    exact sweep_rule (I := I) (fun m' _ i h => hstep h (m'.quoteLevel_outcome _ now i))
      (m.quotedSlots quote) hstart

/-- Each visit answers at most one decision. -/
theorem sweep_length (f : OrderManager → Slot → OrderManager × Option OrderDecision)
    (m : OrderManager) (is : List Slot) : (sweep f m is).2.length ≤ is.length := by
  induction is generalizing m with
  | nil => exact le_rfl
  | cons i is ih =>
    have hvisit : (f m i).2.toList.length ≤ 1 := by cases (f m i).2 <;> simp
    have := ih (f m i).1
    simp only [sweep, List.length_append, List.length_cons]
    omega

theorem onQuoteInto_length (m : OrderManager) (position limit : ℚ) (quote : Quote) (now : Int) :
    (m.onQuoteInto position limit quote now).2.length ≤ 4 := by
  have houtcome := m.onQuoteInto_outcome position limit quote now
  generalize m.onQuoteInto position limit quote now = r at houtcome ⊢
  cases houtcome with
  | idle => exact Nat.zero_le _
  | invalidLimit _ => exact sweep_length _ _ slotsBySide
  | quoted _ _ _ _ _ _ _ _ _ =>
    refine (sweep_length _ _ _).trans ?_
    have hlevels : MAX_ORDER_LEVELS = 2 := rfl
    simp only [quotedSlots, List.length_flatMap, List.map_cons, List.map_nil, List.sum_cons,
      List.sum_nil, List.length_map, List.length_take, List.length_finRange]
    omega

theorem cancelSlot_isSend (m : OrderManager) (now : Int) (i : Slot) :
    ∀ d ∈ (cancelSlot now m i).2, d.isSend = false := by
  unfold cancelSlot
  split
  · split <;> simp [OrderDecision.isSend]
  · simp

/-- `cancel_exposure` emits cancels only. -/
theorem cancelExposure_isSend (m : OrderManager) (now : Int) :
    ∀ d ∈ (m.cancelExposure now).2, d.isSend = false := by
  have hstep : ∀ (m : OrderManager) (ds : List OrderDecision) i, (∀ d ∈ ds, d.isSend = false) →
      ∀ d ∈ ds ++ (cancelSlot now m i).2.toList, d.isSend = false := by
    intro m ds i h d hd
    rcases List.mem_append.mp hd with hd | hd
    · exact h d hd
    · exact cancelSlot_isSend m now i d (by simpa using hd)
  exact sweep_rule (I := fun _ ds => ∀ d ∈ ds, d.isSend = false) hstep slotsBySide (m := m) (by simp)

/-- A visit leaves the pause state and the configuration alone. -/
theorem LevelOutcome.execution {m : OrderManager} {t : QuoteTerms} {now : Int} {i : Slot}
    {r : OrderManager × Option OrderDecision} (h : LevelOutcome m t now i r) :
    r.1.execution = m.execution := by
  cases h <;> rfl

/-- A quote that emits a Send leaves the pause state alone; one that does not may set `RiskData`. -/
theorem onQuoteInto_execution (m : OrderManager) (position limit : ℚ) (quote : Quote) (now : Int) :
    (m.onQuoteInto position limit quote now).1.execution = m.execution ∨
    ((m.onQuoteInto position limit quote now).1.execution = m.execution.setPauseReason .riskData ∧
      m.Unpaused ∧ ∀ d ∈ (m.onQuoteInto position limit quote now).2, d.isSend = false) := by
  have houtcome := m.onQuoteInto_outcome position limit quote now
  generalize m.onQuoteInto position limit quote now = r at houtcome ⊢
  cases houtcome with
  | idle => exact Or.inl rfl
  | invalidLimit hopen =>
    refine Or.inr ⟨?_, hopen, cancelExposure_isSend _ now⟩
    refine sweep_rule (I := fun m' _ => m'.execution = m.execution.setPauseReason .riskData) ?_ slotsBySide rfl
    intro m' ds i h
    exact ((cancelSlot_outcome m' ⟨fun _ => none, 0, 0, 0, 0, 0⟩ now i).execution).trans h
  | quoted mid quantity baseline _ _ _ _ _ _ =>
    refine Or.inl (sweep_rule (I := fun m' _ => m'.execution = m.execution) ?_ (m.quotedSlots quote) rfl)
    intro m' ds i h
    exact (m'.quoteLevel_outcome _ now i).execution.trans h

/-- Nothing is emitted while a pause reason is set or after shutdown. -/
theorem onQuoteInto_paused {m : OrderManager} (h : ¬ m.Unpaused) (position limit : ℚ) (quote : Quote)
    (now : Int) : m.onQuoteInto position limit quote now = (m, []) := by
  have houtcome := m.onQuoteInto_outcome position limit quote now
  generalize m.onQuoteInto position limit quote now = r at houtcome ⊢
  cases houtcome with
  | idle => rfl
  | invalidLimit hopen => exact absurd hopen h
  | quoted _ _ _ hopen _ _ _ _ _ => exact absurd hopen h

/-! ## The permitted quantity -/

/-- What a positive permitted quantity respects. -/
structure Permitted (c : OrderManagerConfig) (budget price mid quantity qty : ℚ) : Prop where
  lots : ∃ k : ℕ, 0 < k ∧ qty = k * c.lotSize
  le_quantity : qty ≤ quantity
  exposure_le : qty * max price mid ≤ budget
  minQty : c.minOrderQty ≤ qty
  minDollar : c.minOrderQtyDollar ≤ price * qty
  maxDollar : ∀ cap, c.maxOrderQtyDollar = some cap → price * qty ≤ cap

/-- The first cut: at most the quote's quantity and within the budget. -/
theorem cut_to_budget {budget mark quantity qty : ℚ} (hmark : 0 < mark)
    (h : qty ≤ min quantity (budget / mark)) : qty ≤ quantity ∧ qty * mark ≤ budget :=
  ⟨h.trans (min_le_left _ _), (le_div_iff₀ hmark).mp (h.trans (min_le_right _ _))⟩

theorem permittedQty_permitted {c : OrderManagerConfig} {budget price mid quantity : ℚ}
    (hprice : 0 < price) (hq : 0 < permittedQty c budget price mid quantity) :
    Permitted c budget price mid quantity (permittedQty c budget price mid quantity) := by
  have hmark : 0 < max price mid := lt_of_lt_of_le hprice (le_max_left _ _)
  have hfloor := Grid.floorTo_le c.lotSize_pos
  unfold permittedQty at *
  cases hcap : c.maxOrderQtyDollar with
  | none =>
    simp only [hcap] at hq ⊢
    split at hq
    · exact absurd hq (lt_irrefl 0)
    · rename_i hmin
      rw [if_neg hmin]
      push Not at hmin
      obtain ⟨hquantity, hexposure⟩ := cut_to_budget hmark (hfloor (min quantity (budget / max price mid)))
      refine ⟨Grid.exists_nat_mul_of_floorTo_pos c.lotSize_pos hq, hquantity, hexposure, hmin.1, ?_, ?_⟩
      · rw [mul_comm]; exact hmin.2
      · intro cap h
        rw [hcap] at h; cases h
  | some cap =>
    simp only [hcap] at hq ⊢
    split at hq
    · exact absurd hq (lt_irrefl 0)
    · rename_i hmin
      rw [if_neg hmin]
      push Not at hmin
      have hle := hfloor (min (min quantity (budget / max price mid)) (cap / price))
      obtain ⟨hquantity, hexposure⟩ := cut_to_budget hmark (hle.trans (min_le_left _ _))
      refine ⟨Grid.exists_nat_mul_of_floorTo_pos c.lotSize_pos hq, hquantity, hexposure, hmin.1, ?_, ?_⟩
      · rw [mul_comm]; exact hmin.2
      · intro cap' h
        rw [hcap] at h; cases h
        rw [mul_comm]
        exact (le_div_iff₀ hprice).mp (hle.trans (min_le_right _ _))

/-! ## Exposure of a side -/

theorem sideExposure_eq (m : OrderManager) (i : Slot) (mid : ℚ) :
    m.sideExposure i.1 mid = m.slotExposure mid i + m.reservedElsewhere i mid := by
  unfold sideExposure reservedElsewhere
  exact (Finset.add_sum_erase Finset.univ (fun level => m.slotExposure mid (i.1, level))
    (Finset.mem_univ i.2)).symm

/-- Exposure depends on the slots' quantities and prices only. -/
theorem sideExposure_congr {m m' : OrderManager} {side : Side} {mid : ℚ}
    (h : ∀ level, m'.slotExposure mid (side, level) = m.slotExposure mid (side, level)) :
    m'.sideExposure side mid = m.sideExposure side mid :=
  Finset.sum_congr rfl fun level _ => h level

theorem slotExposure_setOrderCanceling (m : OrderManager) (i j : Slot) (now : Int) (mid : ℚ) :
    (m.setOrderCanceling i now).slotExposure mid j = m.slotExposure mid j := by
  unfold slotExposure setOrderCanceling modifySlot
  rw [setSlot_orders]
  by_cases hj : j = i
  · subst hj
    rw [Function.update_self]
    cases m.orders j <;> rfl
  · rw [Function.update_of_ne hj]

theorem placeOrder_orders (m : OrderManager) (i : Slot) (price qty : ℚ) (now : Int) :
    (m.placeOrder i price qty now).1.orders = Function.update m.orders i
      (some ⟨(m.generateClOrdId i.2).1, none, i.1, i.2, price, qty, .pending, now, 0⟩) := rfl

/-- Placing an order within the budget of its slot keeps the whole side within its headroom. -/
theorem sideExposure_placeOrder_le {m : OrderManager} {t : QuoteTerms} {i : Slot} {price qty : ℚ}
    {now : Int} (hmid : 0 < t.mid) (hqty : 0 < qty)
    (hbudget : qty * max price t.mid ≤ m.budget t i) :
    (m.placeOrder i price qty now).1.sideExposure i.1 t.mid
      ≤ m.headroom i.1 t.position t.limit t.baseline t.mid := by
  have hpos : 0 < qty * max price t.mid := mul_pos hqty (lt_of_lt_of_le hmid (le_max_right _ _))
  have hreserved : (m.placeOrder i price qty now).1.reservedElsewhere i t.mid
      = m.reservedElsewhere i t.mid := by
    refine Finset.sum_congr rfl fun level hlevel => ?_
    have hne : ((i.1, level) : Slot) ≠ i := fun h =>
      (Finset.ne_of_mem_erase hlevel) (congrArg Prod.snd h)
    unfold slotExposure
    rw [placeOrder_orders, Function.update_of_ne hne]
  have hslot : (m.placeOrder i price qty now).1.slotExposure t.mid i = qty * max price t.mid := by
    unfold slotExposure
    rw [placeOrder_orders, Function.update_self]
    rfl
  rw [sideExposure_eq, hslot, hreserved]
  -- a positive quantity fits in the budget only if the budget is not the zero of its `max`
  unfold budget at hbudget
  rcases max_choice (m.headroom i.1 t.position t.limit t.baseline t.mid -
    m.reservedElsewhere i t.mid) 0 with h | h <;> rw [h] at hbudget <;> linarith

/-- Headroom depends on the configuration only. -/
theorem headroom_congr {m m' : OrderManager} (h : m'.config = m.config) (side : Side)
    (position limit baseline mid : ℚ) :
    m'.headroom side position limit baseline mid = m.headroom side position limit baseline mid := by
  unfold headroom
  rw [h]

theorem headroom_le_limit (m : OrderManager) (side : Side) (position limit baseline mid : ℚ) :
    m.headroom side position limit baseline mid ≤ limit - side.sign * position * mid := by
  unfold headroom
  dsimp only
  split
  · exact min_le_left _ _
  · exact le_rfl

theorem headroom_le_cap {m : OrderManager} {cap : ℚ}
    (h : m.config.absoluteMaxPositionDollar = some cap) (side : Side)
    (position limit baseline mid : ℚ) :
    m.headroom side position limit baseline mid
      ≤ cap - side.sign * (position - baseline) * mid := by
  unfold headroom
  simp only [h]
  exact min_le_right _ _

/-! ## The bound -/

/-- The facts of one emitted Send, against the manager `m₀` the quote found. -/
structure SendWithin (m₀ : OrderManager) (m : OrderManager) (t : QuoteTerms) (side : Side)
    (level : Level) (price qty : ℚ) (clOrdId : String) : Prop where
  side_le : m.sideExposure side t.mid ≤ m₀.headroom side t.position t.limit t.baseline t.mid
  empty : m₀.orders (side, level) = none
  occupies : ∃ o, m.orders (side, level) = some o ∧ o.clOrdId = clOrdId ∧ o.price = price ∧
    o.quantity = qty
  permitted : ∃ budget, Permitted m₀.config budget price t.mid t.quantity qty

/-- The loop's invariant: configuration kept, occupied slots kept occupied, every Send within. -/
structure LoopWithin (m₀ : OrderManager) (t : QuoteTerms) (m : OrderManager)
    (ds : List OrderDecision) : Prop where
  config : m.config = m₀.config
  occupied : ∀ i, m.orders i = none → m₀.orders i = none
  sends : ∀ side level price qty clOrdId, .send side level price qty clOrdId ∈ ds →
    SendWithin m₀ m t side level price qty clOrdId

theorem setOrderCanceling_none_iff (m : OrderManager) (i j : Slot) (now : Int) :
    (m.setOrderCanceling i now).orders j = none ↔ m.orders j = none := by
  unfold setOrderCanceling modifySlot
  rw [setSlot_orders]
  by_cases hj : j = i
  · subst hj; simp
  · rw [Function.update_of_ne hj]

theorem setOrderCanceling_some {m : OrderManager} {i j : Slot} {o : LiveOrder} (now : Int)
    (h : m.orders j = some o) :
    (m.setOrderCanceling i now).orders j = some (if j = i then o.beginCancel now else o) := by
  unfold setOrderCanceling modifySlot
  rw [setSlot_orders]
  by_cases hj : j = i
  · subst hj; simp [h]
  · rw [Function.update_of_ne hj, h, if_neg hj]

/-- Starting a cancel releases nothing. -/
theorem SendWithin.setOrderCanceling {m₀ m : OrderManager} {t : QuoteTerms} {side : Side}
    {level : Level} {price qty : ℚ} {clOrdId : String}
    (h : SendWithin m₀ m t side level price qty clOrdId) (i : Slot) (now : Int) :
    SendWithin m₀ (m.setOrderCanceling i now) t side level price qty clOrdId := by
  obtain ⟨hside, hempty, ⟨o, ho, hid, hp, hq⟩, hperm⟩ := h
  refine ⟨?_, hempty, ⟨_, setOrderCanceling_some now ho, ?_⟩, hperm⟩
  · rw [sideExposure_congr fun level => slotExposure_setOrderCanceling m i (side, level) now t.mid]
    exact hside
  · split <;> exact ⟨hid, hp, hq⟩

/-- `SendWithin` reads the slots only. -/
theorem SendWithin.congr_orders {m₀ m m' : OrderManager} {t : QuoteTerms} {side : Side}
    {level : Level} {price qty : ℚ} {clOrdId : String}
    (h : SendWithin m₀ m t side level price qty clOrdId) (horders : m'.orders = m.orders) :
    SendWithin m₀ m' t side level price qty clOrdId := by
  obtain ⟨hside, hempty, hocc, hperm⟩ := h
  refine ⟨?_, hempty, by rw [horders]; exact hocc, hperm⟩
  rw [sideExposure_congr (m := m) fun level => by unfold slotExposure; rw [horders]]
  exact hside

/-- The order that `placeOrder` puts in its slot is within the limits, with all the others. -/
theorem sendWithin_placeOrder {m₀ m : OrderManager} {t : QuoteTerms} {i : Slot} {price : ℚ}
    (now : Int) (hconfig : m.config = m₀.config) (hempty : m₀.orders i = none) (hmid : 0 < t.mid)
    (hprice : 0 < price) (hqty : 0 < permittedQty m.config (m.budget t i) price t.mid t.quantity) :
    SendWithin m₀
      (m.placeOrder i price (permittedQty m.config (m.budget t i) price t.mid t.quantity) now).1 t
      i.1 i.2 price (permittedQty m.config (m.budget t i) price t.mid t.quantity)
      (m.generateClOrdId i.2).1 := by
  have hperm := permittedQty_permitted hprice hqty
  refine ⟨?_, hempty, ⟨_, by rw [placeOrder_orders, Function.update_self], rfl, rfl, rfl⟩, ?_⟩
  · rw [← headroom_congr hconfig]
    exact sideExposure_placeOrder_le hmid hqty hperm.exposure_le
  · refine ⟨m.budget t i, ?_⟩
    rw [← hconfig]
    exact hperm

/-- A Send already recorded survives the placing of a further order. -/
theorem SendWithin.placeOrder {m₀ m : OrderManager} {t : QuoteTerms} {side : Side} {level : Level}
    {price qty price' qty' : ℚ} {clOrdId : String} {i : Slot} {now : Int}
    (h : SendWithin m₀ m t side level price qty clOrdId) (hnone : m.orders i = none)
    (hside : i.1 = side → (m.placeOrder i price' qty' now).1.sideExposure side t.mid
      ≤ m₀.headroom side t.position t.limit t.baseline t.mid) :
    SendWithin m₀ (m.placeOrder i price' qty' now).1 t side level price qty clOrdId := by
  obtain ⟨hle, hempty, ⟨o, ho, hid⟩, hperm⟩ := h
  have hne : ((side, level) : Slot) ≠ i := by
    rintro rfl
    rw [hnone] at ho; cases ho
  refine ⟨?_, hempty, ⟨o, by rw [placeOrder_orders, Function.update_of_ne hne]; exact ho, hid⟩, hperm⟩
  by_cases hi : i.1 = side
  · exact hside hi
  · rw [sideExposure_congr (m := m) fun level => ?_]
    · exact hle
    · unfold slotExposure
      rw [placeOrder_orders, Function.update_of_ne fun h => hi (congrArg Prod.fst h).symm]

/-- One visit of the level loop keeps the invariant. -/
theorem LoopWithin.step {m₀ m : OrderManager} {t : QuoteTerms} {ds : List OrderDecision} {now : Int}
    {i : Slot} {r : OrderManager × Option OrderDecision} (hmid : 0 < t.mid)
    (h : LoopWithin m₀ t m ds) (hr : LevelOutcome m t now i r) :
    LoopWithin m₀ t r.1 (ds ++ r.2.toList) := by
  obtain ⟨hconfig, hocc, hsends⟩ := h
  cases hr with
  | keep => exact ⟨hconfig, hocc, by simpa using hsends⟩
  | cancel o _ _ =>
    refine ⟨hconfig, fun j hj => hocc j ((setOrderCanceling_none_iff m i j now).mp hj), ?_⟩
    intro side level price qty clOrdId hmem
    simp only [Option.toList_some, List.mem_append, List.mem_singleton, reduceCtorEq, or_false] at hmem
    exact (hsends side level price qty clOrdId hmem).setOrderCanceling i now
  | replace o _ _ _ _ =>
    refine ⟨hconfig, fun j hj => hocc j ((setOrderCanceling_none_iff m i j now).mp hj), ?_⟩
    intro side level price qty clOrdId hmem
    simp only [Option.toList_some, List.mem_append, List.mem_singleton, reduceCtorEq, or_false] at hmem
    exact ((hsends side level price qty clOrdId hmem).setOrderCanceling i now).congr_orders rfl
  | place price hnone hprice hqty =>
    have hnew := sendWithin_placeOrder now hconfig (hocc i hnone) hmid hprice hqty
    refine ⟨hconfig, ?_, ?_⟩
    · intro j hj
      rw [placeOrder_orders] at hj
      by_cases hji : j = i
      · exact hji ▸ hocc i hnone
      · rw [Function.update_of_ne hji] at hj
        exact hocc j hj
    · intro side level price' qty' clOrdId hmem
      rcases List.mem_append.mp hmem with hold | hlast
      · exact (hsends side level price' qty' clOrdId hold).placeOrder hnone
          fun hside => hside ▸ hnew.side_le
      · simp only [Option.toList_some, List.mem_singleton, placeOrder, OrderDecision.send.injEq] at hlast
        obtain ⟨rfl, rfl, rfl, rfl, rfl⟩ := hlast
        exact hnew

/-- **A Send never breaches headroom.**  After `on_quote_into`, on the side of an emitted Send
    the position and every occupied slot fit under the equity limit and under the optional cap;
    the Send itself is a whole number of lots between the minima and the maxima, in a slot that
    was empty. -/
theorem send_within_headroom (m : OrderManager) (position limit : ℚ) (quote : Quote) (now : Int)
    (side : Side) (level : Level) (price qty : ℚ) (clOrdId : String)
    (hsend : .send side level price qty clOrdId ∈ (m.onQuoteInto position limit quote now).2) :
    ∃ mid quantity baseline, quote.midPrice = some mid ∧ quote.quantity = some quantity ∧
      m.limitBaseline = some baseline ∧
      side.sign * position * mid + (m.onQuoteInto position limit quote now).1.sideExposure side mid
        ≤ limit ∧
      (∀ cap, m.config.absoluteMaxPositionDollar = some cap →
        side.sign * position * mid + (m.onQuoteInto position limit quote now).1.sideExposure side mid
          ≤ cap + side.sign * baseline * mid) ∧
      (∃ lots : ℕ, 0 < lots ∧ qty = lots * m.config.lotSize) ∧
      qty ≤ quantity ∧ m.config.minOrderQty ≤ qty ∧ m.config.minOrderQtyDollar ≤ price * qty ∧
      (∀ cap, m.config.maxOrderQtyDollar = some cap → price * qty ≤ cap) ∧
      m.orders (side, level) = none ∧
      ∃ o, (m.onQuoteInto position limit quote now).1.orders (side, level) = some o ∧
        o.clOrdId = clOrdId ∧ o.price = price ∧ o.quantity = qty := by
  have houtcome := m.onQuoteInto_outcome position limit quote now
  generalize m.onQuoteInto position limit quote now = r at hsend houtcome ⊢
  cases houtcome with
  | idle => cases hsend
  | invalidLimit _ =>
    exact absurd (cancelExposure_isSend _ now _ hsend) (by simp [OrderDecision.isSend])
  | quoted mid quantity baseline _ hmid hquantity hpos _ hbase =>
    have hwithin := sweep_rule (I := LoopWithin m ⟨quote.price, quantity, mid, position, limit, baseline⟩)
      (fun m' ds i h => h.step hpos (m'.quoteLevel_outcome _ now i)) (m.quotedSlots quote)
      ⟨rfl, fun _ => id, by simp⟩
    obtain ⟨hside, hempty, hocc, budget, hperm⟩ := hwithin.sends side level price qty clOrdId hsend
    refine ⟨mid, quantity, baseline, hmid, hquantity, hbase, ?_, ?_, hperm.lots, hperm.le_quantity,
      hperm.minQty, hperm.minDollar, hperm.maxDollar, hempty, hocc⟩
    · have := hside.trans (m.headroom_le_limit side position limit baseline mid)
      linarith
    · intro cap hcap
      have := hside.trans (m.headroom_le_cap hcap side position limit baseline mid)
      linarith

/-- The first bid of a fresh manager with a limit of 1000 dollars. -/
theorem send_within_headroom_first_bid :
    ∃ mid, some (100 : ℚ) = some mid ∧
      Side.sign .buy * 0 * mid +
        ((new .default 7).onQuoteInto 0 1000 (.oneLevel (some 99) (some 101) 1 100) 0).1.sideExposure
          .buy mid ≤ 1000 := by
  obtain ⟨mid, _, _, hmid, _, _, hle, _⟩ := send_within_headroom (new .default 7) 0 1000
    (.oneLevel (some 99) (some 101) 1 100) 0 .buy 0 99 1 "mm_TEST-USD_7_0_0_1" (by decide +kernel)
  exact ⟨mid, hmid, hle⟩

/-! ## A bid of the default manager -/

/-- A quote with a bid only. -/
def bidOnly : Quote := .oneLevel (some 99) none 1 100

theorem permittedQty_first : permittedQty .default 1000 99 100 1 = 1 := by decide +kernel

/-- The only bid of an empty default manager is placed at its price for the quoted quantity. -/
theorem quote_first_bid {m : OrderManager} (hconfig : m.config = .default) (hopen : m.Unpaused)
    (hempty : m.orders = fun _ => none) :
    m.onQuoteInto 0 1000 bidOnly 0 =
      ((m.placeOrder (.buy, 0) 99 1 0).1, [(m.placeOrder (.buy, 0) 99 1 0).2]) := by
  have hslots : m.quotedSlots bidOnly = [(.buy, 0), (.sell, 0)] := by
    unfold quotedSlots
    rw [hconfig]
    decide
  have hbase : m.limitBaseline = some 0 := by
    unfold limitBaseline
    rw [hconfig]; rfl
  have hbudget : ∀ t : QuoteTerms, t.position = 0 → t.limit = 1000 → m.budget t (.buy, 0) = 1000 := by
    intro t hp hl
    simp [budget, headroom, reservedElsewhere, slotExposure, hempty, hconfig,
      OrderManagerConfig.default, hp, hl]
  have hbid : ∀ t : QuoteTerms, t.position = 0 → t.limit = 1000 → t.prices (.buy, 0) = some 99 →
      t.mid = 100 → t.quantity = 1 → m.quoteLevel t 0 (.buy, 0) =
        ((m.placeOrder (.buy, 0) 99 1 0).1, some (m.placeOrder (.buy, 0) 99 1 0).2) := by
    intro t hp hl hprice hmid hq
    have : ¬ (99 : ℚ) ≤ 0 := by norm_num
    simp [quoteLevel, hprice, this, hempty, hbudget t hp hl, hconfig, hmid, hq, permittedQty_first,
      processSideLevel]
  have hask : ∀ (m : OrderManager) (t : QuoteTerms), t.prices (.sell, 0) = none →
      m.quoteLevel t 0 (.sell, 0) = (m, none) := by
    intro m t h
    simp [quoteLevel, h]
  have hlim : ¬ ((1000 : ℚ) ≤ 0) := by norm_num
  have hmid : ¬ ((100 : ℚ) ≤ 0 ∨ (1 : ℚ) ≤ 0) := by norm_num
  unfold onQuoteInto
  rw [hopen.1, hopen.2]
  simp only [bidOnly, Quote.oneLevel] at hslots ⊢
  simp only [hbase, hslots, sweep, hlim, hmid, if_false]
  rw [hbid _ rfl rfl rfl rfl rfl, hask _ _ rfl]
  simp

end MarketMaker.OrderManager
