import MarketMaker.Trading.Operations
import MarketMaker.Trading.QuoteLoop

/-!
# A side over its limit

Each level is tested against the headroom less what the *other* levels reserve, clamped at zero.
When a side is over its headroom as a whole, that test fails at every occupied level and leaves
nothing to an empty one, so the loop does on this side what `cancel_exposure` does.

* `OverLimit.quoteLevel_eq` — such a visit is `cancel_exposure` at one slot.
* `over_limit_sweep` — one call begins the cancel of every order of the side, once; a second call does
  nothing there.
-/

set_option autoImplicit false

namespace MarketMaker.OrderManager

/-! ## The condition -/

/-- The tolerance of `exceeds`. -/
def tolerance : ℚ := 1 / 1000000000

/-- The side is over its headroom by more than the tolerance, and so is each of its orders over
    zero. -/
structure OverLimit (m : OrderManager) (t : QuoteTerms) (side : Side) : Prop where
  exceeded : m.headroom side t.position t.limit t.baseline t.mid + tolerance < m.sideExposure side t.mid
  visible : ∀ level o, m.orders (side, level) = some o → tolerance < o.exposure t.mid

section Visit

variable {m : OrderManager} {t : QuoteTerms} {i : Slot}

theorem OverLimit.exceeds (h : OverLimit m t i.1) {o : LiveOrder} (ho : m.orders i = some o) :
    exceeds m.config o (m.budget t i) t.mid = true := by
  have hside := m.sideExposure_eq i t.mid
  have hslot : m.slotExposure t.mid i = o.exposure t.mid := by
    rw [slotExposure, ho]
    rfl
  have hbudget : m.budget t i + tolerance < o.exposure t.mid := by
    have hexceeded := h.exceeded
    have hvisible := h.visible i.2 o ho
    unfold budget
    rcases max_choice (m.headroom i.1 t.position t.limit t.baseline t.mid - m.reservedElsewhere i t.mid) 0
      with hmax | hmax <;> rw [hmax] <;> linarith
  unfold OrderManager.exceeds
  rw [Bool.or_eq_true]
  exact Or.inl (decide_eq_true hbudget)

/-- Nothing is left for an empty slot. -/
theorem OverLimit.budget_eq_zero (h : OverLimit m t i.1) (hnone : m.orders i = none) :
    m.budget t i = 0 := by
  have hside := m.sideExposure_eq i t.mid
  have hslot : m.slotExposure t.mid i = 0 := by
    rw [slotExposure, hnone]
    rfl
  have hexceeded := h.exceeded
  have htolerance : 0 < tolerance := by norm_num [tolerance]
  exact max_eq_right (by linarith)

theorem not_permitted_of_budget_zero {c : OrderManagerConfig} {price mid quantity : ℚ}
    (hprice : 0 < price) :
    ¬ 0 < permittedQty c 0 price mid quantity := by
  intro hqty
  have hexposure := (permittedQty_permitted hprice hqty).exposure_le
  have hmark : 0 < max price mid := lt_of_lt_of_le hprice (le_max_left _ _)
  have := mul_pos hqty hmark
  linarith

/-- **A visit on a side over its limit** cancels, as `cancel_exposure` does. -/
theorem OverLimit.quoteLevel_eq (h : OverLimit m t i.1) {price : ℚ} (hprice : t.prices i = some price)
    (hpos : 0 < price) (now : Int) : m.quoteLevel t now i = cancelSlot now m i := by
  unfold quoteLevel cancelSlot
  simp only [hprice, not_le.mpr hpos, if_false]
  cases ho : m.orders i with
  | none =>
    simp only [h.budget_eq_zero ho]
    rw [if_neg (not_permitted_of_budget_zero hpos)]
  | some o =>
    simp only [h.exceeds ho, Bool.true_or, Bool.true_and]
    by_cases hstate : o.state = .canceling
    · simp [hstate, processSideLevel, ho]
    · simp [hstate]

end Visit

/-! ## The loop -/

/-- Quantity and price of an order. -/
def reservedTerms (o : LiveOrder) : ℚ × ℚ := (o.quantity, o.price)

/-- A side with the same orders, up to their states. -/
structure SameReserve (m m' : OrderManager) (side : Side) : Prop where
  config : m'.config = m.config
  terms : ∀ level, (m'.orders (side, level)).map reservedTerms = (m.orders (side, level)).map reservedTerms

theorem SameReserve.refl (m : OrderManager) (side : Side) : SameReserve m m side := ⟨rfl, fun _ => rfl⟩

theorem SameReserve.trans {m m' m'' : OrderManager} {side : Side} (h : SameReserve m m' side)
    (h' : SameReserve m' m'' side) : SameReserve m m'' side :=
  ⟨h'.config.trans h.config, fun level => (h'.terms level).trans (h.terms level)⟩

theorem exposure_of_terms {o o' : LiveOrder} (h : reservedTerms o' = reservedTerms o) (mid : ℚ) :
    o'.exposure mid = o.exposure mid := by
  simp only [reservedTerms, Prod.mk.injEq] at h
  rw [LiveOrder.exposure, LiveOrder.exposure, h.1, h.2]

theorem OverLimit.congr {m m' : OrderManager} {t : QuoteTerms} {side : Side} (h : OverLimit m t side)
    (hsame : SameReserve m m' side) : OverLimit m' t side := by
  have hslot : ∀ level, m'.slotExposure t.mid (side, level) = m.slotExposure t.mid (side, level) := by
    intro level
    have hterms := hsame.terms level
    unfold slotExposure
    cases ho' : m'.orders (side, level) with
    | none =>
      rw [ho', Option.map_none, eq_comm, Option.map_eq_none_iff] at hterms
      rw [hterms]
    | some o' =>
      rw [ho', Option.map_some, eq_comm, Option.map_eq_some_iff] at hterms
      obtain ⟨o, ho, heq⟩ := hterms
      rw [ho]
      exact exposure_of_terms heq.symm t.mid
  refine ⟨?_, fun level o' ho' => ?_⟩
  · rw [headroom_congr hsame.config, sideExposure_congr hslot]
    exact h.exceeded
  · have hterms := hsame.terms level
    rw [ho', Option.map_some, eq_comm, Option.map_eq_some_iff] at hterms
    obtain ⟨o, ho, heq⟩ := hterms
    rw [exposure_of_terms heq.symm]
    exact h.visible level o ho

theorem cancelSlot_sameReserve (m : OrderManager) (now : Int) (i : Slot) (side : Side) :
    SameReserve m (cancelSlot now m i).1 side := by
  have hcancel : ∀ level, ((m.setOrderCanceling i now).orders (side, level)).map reservedTerms =
      (m.orders (side, level)).map reservedTerms := by
    intro level
    cases ho : m.orders (side, level) with
    | none => rw [(setOrderCanceling_none_iff m i _ now).mpr ho]
    | some o =>
      rw [setOrderCanceling_some now ho]
      split <;> rfl
  unfold cancelSlot
  split
  · split
    · exact ⟨rfl, hcancel⟩
    · exact .refl m side
  · exact .refl m side

/-- No visit changes what a side over its limit reserves. -/
theorem OverLimit.visit_sameReserve {m : OrderManager} {t : QuoteTerms} {now : Int} {side : Side}
    (h : OverLimit m t side) {i : Slot} {price : ℚ} (hprice : t.prices i = some price)
    (hpos : 0 < price) :
    SameReserve m (m.quoteLevel t now i).1 side := by
  by_cases hside : i.1 = side
  · subst hside
    rw [h.quoteLevel_eq hprice hpos now]
    exact cancelSlot_sameReserve m now i i.1
  · have houtcome := m.quoteLevel_outcome t now i
    refine ⟨houtcome.config, fun level => ?_⟩
    rw [houtcome.orders_of_ne fun heq => hside (congrArg Prod.fst heq).symm]

section Call

variable {m : OrderManager} {position limit mid quantity baseline : ℚ} {quote : Quote} {side : Side}

/-- The side is over its limit at every visit of the loop. -/
theorem Quotable.reached_overLimit (h : Quotable m limit quote mid quantity baseline)
    (hover : OverLimit m (loopTerms quote mid quantity position limit baseline) side) (now : Int)
    (i : Slot) :
    OverLimit (m.reached quote (loopTerms quote mid quantity position limit baseline) now i)
      (loopTerms quote mid quantity position limit baseline) side := by
  refine Visits.before_invariant (I := fun m' : OrderManager =>
    OverLimit m' (loopTerms quote mid quantity position limit baseline) side) (m.quotedSlots quote)
    (fun m' j hj hm' => ?_) hover i
  obtain ⟨price, hprice, hpos⟩ := h.prices j hj
  exact hm'.congr (hm'.visit_sameReserve hprice hpos)

/-- A quoted slot of the side is treated as by `cancel_exposure`. -/
theorem Quotable.swept (h : Quotable m limit quote mid quantity baseline) (hq : 0 < quantity)
    (hover : OverLimit m (loopTerms quote mid quantity position limit baseline) side) {level : Level}
    (hi : (side, level) ∈ m.quotedSlots quote) (now : Int) :
    ∃ m' : OrderManager, m'.orders (side, level) = m.orders (side, level) ∧
      (m.onQuoteInto position limit quote now).1.orders (side, level) =
        (cancelSlot now m' (side, level)).1.orders (side, level) ∧
      m.emittedAt position limit quote now (side, level) = (cancelSlot now m' (side, level)).2.toList := by
  obtain ⟨price, hprice, hpos⟩ := h.prices _ hi
  have hreached := h.reached_overLimit hover now (side, level)
  have hvisit := OverLimit.quoteLevel_eq (i := (side, level)) hreached hprice hpos now
  obtain ⟨horders, hemitted⟩ := h.visited hq hi position now rfl
  rw [hvisit] at horders hemitted
  exact ⟨_, m.reached_orders quote _ now (side, level), horders, hemitted⟩

/-- The cancel a quoted slot of the side asks for: one for an order that is not canceling yet. -/
def sweepCancel (m : OrderManager) (quote : Quote) (i : Slot) : List OrderDecision :=
  match m.orders i with
  | some o => if i ∈ m.quotedSlots quote ∧ o.state ≠ .canceling then [.cancel o.clOrdId] else []
  | none => []

theorem Quotable.emittedAt_eq (h : Quotable m limit quote mid quantity baseline) (hq : 0 < quantity)
    (hover : OverLimit m (loopTerms quote mid quantity position limit baseline) side) (level : Level)
    (now : Int) :
    m.emittedAt position limit quote now (side, level) = m.sweepCancel quote (side, level) := by
  unfold sweepCancel
  by_cases hi : (side, level) ∈ m.quotedSlots quote
  · obtain ⟨m', hm', _, hemitted⟩ := h.swept hq hover hi now
    rw [hemitted, cancelSlot, hm']
    cases m.orders (side, level) with
    | none => rfl
    | some o => by_cases hstate : o.state = .canceling <;> simp [hi, hstate]
  · rw [(h.unvisited hq hi position now).2]
    cases m.orders (side, level) with
    | none => rfl
    | some o => simp [hi]

/-- An order of the side after the call: the one before, and canceling if its level is quoted. -/
theorem Quotable.order_after (h : Quotable m limit quote mid quantity baseline) (hq : 0 < quantity)
    (hover : OverLimit m (loopTerms quote mid quantity position limit baseline) side) (level : Level)
    (now : Int) :
    (m.orders (side, level) = none →
      (m.onQuoteInto position limit quote now).1.orders (side, level) = none) ∧
    ∀ o, m.orders (side, level) = some o →
      ∃ o', (m.onQuoteInto position limit quote now).1.orders (side, level) = some o' ∧ SameTerms o o' ∧
        ((side, level) ∈ m.quotedSlots quote → o'.state = .canceling) := by
  by_cases hi : (side, level) ∈ m.quotedSlots quote
  · obtain ⟨m', hm', horders, _⟩ := h.swept hq hover hi now
    rw [horders]
    unfold cancelSlot
    refine ⟨fun hnone => ?_, fun o ho => ?_⟩
    · rw [hm', hnone]
      exact hm'.trans hnone
    · rw [hm', ho]
      dsimp only
      split
      · rw [setOrderCanceling_some now (hm'.trans ho), if_pos rfl]
        exact ⟨_, rfl, ⟨rfl, rfl, rfl, rfl, rfl⟩, fun _ => rfl⟩
      · rename_i hstate
        exact ⟨o, hm'.trans ho, .refl o, fun _ => by simpa using hstate⟩
  · rw [(h.unvisited hq hi position now).1]
    exact ⟨id, fun o ho => ⟨o, ho, .refl o, fun hmem => absurd hmem hi⟩⟩

theorem Quotable.sameReserve_after (h : Quotable m limit quote mid quantity baseline) (hq : 0 < quantity)
    (hover : OverLimit m (loopTerms quote mid quantity position limit baseline) side) (now : Int) :
    SameReserve m (m.onQuoteInto position limit quote now).1 side := by
  refine ⟨(h.after hq position now).1, fun level => ?_⟩
  obtain ⟨hnone, hsome⟩ := h.order_after hq hover level now
  cases ho : m.orders (side, level) with
  | none => rw [hnone ho]
  | some o =>
    obtain ⟨o', ho', hsame, _⟩ := hsome o ho
    rw [ho', Option.map_some, Option.map_some, reservedTerms, reservedTerms, hsame.quantity, hsame.price]

end Call

/-! ## The sweep -/

/-- What a call does on a side that is over its limit. -/
structure SideSwept (m : OrderManager) (position limit : ℚ) (quote : Quote) (now : Int)
    (side : Side) : Prop where
  decisions : (m.onQuoteInto position limit quote now).2 =
    (m.emissions position limit quote now).map Prod.snd
  canceling : ∀ level o', (side, level) ∈ m.quotedSlots quote →
    (m.onQuoteInto position limit quote now).1.orders (side, level) = some o' → o'.state = .canceling
  canceled_once : ∀ level o, (side, level) ∈ m.quotedSlots quote → m.orders (side, level) = some o →
    o.state ≠ .canceling → m.emittedAt position limit quote now (side, level) = [.cancel o.clOrdId]
  otherwise_silent : ∀ level, ((side, level) ∈ m.quotedSlots quote → ∀ o, m.orders (side, level) = some o →
    o.state = .canceling) → m.emittedAt position limit quote now (side, level) = []
  no_send : ∀ level price qty clOrdId,
    .send side level price qty clOrdId ∉ (m.onQuoteInto position limit quote now).2
  reserved : ∀ level o, m.orders (side, level) = some o →
    ∃ o', (m.onQuoteInto position limit quote now).1.orders (side, level) = some o' ∧ SameTerms o o'
  repeated : ∀ now' level,
    (m.onQuoteInto position limit quote now).1.emittedAt position limit quote now' (side, level) = []

/-- **Over-limit sweep.** -/
theorem over_limit_sweep {m : OrderManager} {position limit mid quantity baseline : ℚ} {quote : Quote}
    {side : Side} (h : Quotable m limit quote mid quantity baseline) (hq : 0 < quantity)
    (hover : OverLimit m (loopTerms quote mid quantity position limit baseline) side) (now : Int) :
    SideSwept m position limit quote now side := by
  have hemitted := fun level => h.emittedAt_eq hq hover level now
  have horders := fun level => h.order_after hq hover level now
  refine ⟨m.onQuoteInto_decisions position limit quote now, ?_, ?_, ?_, ?_, ?_, ?_⟩
  · intro level o' hi ho'
    obtain ⟨hnone, hsome⟩ := horders level
    cases ho : m.orders (side, level) with
    | none => cases (hnone ho).symm.trans ho'
    | some o =>
      obtain ⟨o'', ho'', _, hcanceling⟩ := hsome o ho
      rw [← Option.some.inj (ho''.symm.trans ho')]
      exact hcanceling hi
  · intro level o hi ho hstate
    rw [hemitted, sweepCancel, ho]
    exact if_pos ⟨hi, hstate⟩
  · intro level hsilent
    rw [hemitted, sweepCancel]
    cases ho : m.orders (side, level) with
    | none => rfl
    | some o =>
      refine if_neg ?_
      rintro ⟨hi, hstate⟩
      exact hstate (hsilent hi o ho)
  · intro level price qty clOrdId hmem
    rw [onQuoteInto_decisions] at hmem
    obtain ⟨⟨i, d⟩, he, rfl⟩ := List.mem_map.mp hmem
    have hat := mem_emittedAt he
    obtain rfl := (m.onQuoteInto_effect position limit quote now i).slot_of_send hat
    rw [hemitted, sweepCancel] at hat
    cases ho : m.orders (side, level) with
    | none => simp [ho] at hat
    | some o =>
      rw [ho] at hat
      dsimp only at hat
      split at hat <;> simp at hat
  · intro level o ho
    obtain ⟨o', ho', hsame, _⟩ := (horders level).2 o ho
    exact ⟨o', ho', hsame⟩
  · intro now' level
    obtain ⟨hconfig, hafter⟩ := h.after hq position now
    have hagain := hover.congr (h.sameReserve_after hq hover now)
    have hslots : (m.onQuoteInto position limit quote now).1.quotedSlots quote = m.quotedSlots quote := by
      rw [quotedSlots, quotedSlots, hconfig]
    rw [hafter.emittedAt_eq hq hagain level now', sweepCancel]
    cases ho' : (m.onQuoteInto position limit quote now).1.orders (side, level) with
    | none => rfl
    | some o' =>
      refine if_neg ?_
      rintro ⟨hi, hstate⟩
      rw [hslots] at hi
      obtain ⟨hnone, hsome⟩ := horders level
      cases ho : m.orders (side, level) with
      | none => cases (hnone ho).symm.trans ho'
      | some o =>
        obtain ⟨o'', ho'', _, hcanceling⟩ := hsome o ho
        rw [← Option.some.inj (ho''.symm.trans ho')] at hstate
        exact hstate (hcanceling hi)

/-- A pending bid of the default manager. -/
def oneBid : OrderManager := ((new .default 7).placeOrder (.buy, 0) 99 1 0).1

theorem oneBid_order {i : Slot} {o : LiveOrder} (ho : oneBid.orders i = some o) :
    i = (.buy, 0) ∧ o = ⟨"mm_TEST-USD_7_0_0_1", none, .buy, 0, 99, 1, .pending, 0, 0⟩ := by
  rw [oneBid, placeOrder_orders] at ho
  by_cases hi : i = (.buy, 0)
  · subst hi
    rw [Function.update_self] at ho
    exact ⟨rfl, by rw [← Option.some.inj ho]; rfl⟩
  · rw [Function.update_of_ne hi] at ho
    cases ho

/-- A quote that passes the checks. -/
theorem oneBid_quotable (quantity : ℚ) :
    Quotable oneBid 1000 (.oneLevel (some 99) (some 101) quantity 100) 100 quantity 0 := by
  refine ⟨⟨rfl, rfl⟩, rfl, rfl, by norm_num, rfl, by norm_num, rfl, ?_⟩
  rintro ⟨side, level⟩ _
  cases side with
  | buy => exact ⟨99, rfl, by norm_num⟩
  | sell => exact ⟨101, rfl, by norm_num⟩

/-- The bid and a position of twenty against a limit of ten. -/
theorem over_limit_sweep_bid :
    SideSwept oneBid 20 1000 (.oneLevel (some 99) (some 101) 1 100) 1 .buy := by
  refine over_limit_sweep (oneBid_quotable 1) (by norm_num) ⟨by decide +kernel, ?_⟩ 1
  intro level o ho
  obtain ⟨_, rfl⟩ := oneBid_order ho
  norm_num [tolerance, LiveOrder.exposure]

end MarketMaker.OrderManager
