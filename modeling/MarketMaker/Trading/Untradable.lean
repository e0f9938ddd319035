import MarketMaker.Trading.OverLimit

/-!
# Levels that may not trade

A permitted quantity of zero cancels the order of its level, whatever made it zero, except for a
quote whose own quantity is zero: `on_quote_into` returns before the loop.  The strategy floors its
quantity to lots, so a quote of zero is one it really makes.

* `untradable_iff` — no order is left behind exactly if the quote has a quantity, or nothing was there
  to be canceled.
* `zero_quantity_keeps_order` — a quote of zero leaves a pending bid, a quote of a tenth of a lot
  cancels it.
-/

set_option autoImplicit false

namespace MarketMaker.OrderManager

/-! ## Quantities -/

/-- A quote of zero permits nothing. -/
theorem permittedQty_zero {c : OrderManagerConfig} (hmin : 0 < c.minOrderQty) (budget price mid : ℚ) :
    permittedQty c budget price mid 0 = 0 := by
  have hfloor : ∀ x : ℚ, x ≤ 0 → Grid.floorTo c.lotSize x < c.minOrderQty := fun x hx =>
    lt_of_le_of_lt ((Grid.floorTo_le c.lotSize_pos x).trans hx) hmin
  have hcut : min 0 (budget / max price mid) ≤ 0 := min_le_left _ _
  unfold permittedQty
  cases c.maxOrderQtyDollar with
  | none => exact if_pos (Or.inl (hfloor _ hcut))
  | some cap => exact if_pos (Or.inl (hfloor _ ((min_le_left _ _).trans hcut)))

/-- The quantity permitted at a slot when the loop comes to it. -/
def permittedAt (m : OrderManager) (quote : Quote) (t : QuoteTerms) (now : Int) (i : Slot) (price : ℚ) :
    ℚ :=
  permittedQty m.config ((m.reached quote t now i).budget t i) price t.mid t.quantity

/-- A visit that may not trade cancels, as `cancel_exposure` does. -/
theorem quoteLevel_untradable {m : OrderManager} {t : QuoteTerms} {i : Slot} {price : ℚ}
    (hprice : t.prices i = some price) (hpos : 0 < price)
    (hzero : permittedQty m.config (m.budget t i) price t.mid t.quantity = 0) (now : Int) :
    m.quoteLevel t now i = cancelSlot now m i := by
  unfold quoteLevel cancelSlot
  simp only [hprice, not_le.mpr hpos, if_false, hzero]
  cases m.orders i with
  | none => simp
  | some o => by_cases hstate : o.state = .canceling <;> simp [hstate]

/-! ## Nothing is left -/

/-- What the call should do at the levels that may not trade. -/
def NothingLeft (m : OrderManager) (position limit : ℚ) (quote : Quote) (t : QuoteTerms)
    (now : Int) : Prop :=
  ∀ i ∈ m.quotedSlots quote, ∀ price, quote.price i = some price → m.permittedAt quote t now i price = 0 →
    (∀ o', (m.onQuoteInto position limit quote now).1.orders i = some o' → o'.state = .canceling) ∧
    ∀ o, m.orders i = some o → o.state ≠ .canceling →
      m.emittedAt position limit quote now i = [.cancel o.clOrdId]

/-- A quote of zero does what any quantity too small to trade does. -/
def ZeroAgrees (m : OrderManager) (position limit : ℚ) (quote : Quote) (mid baseline : ℚ)
    (now : Int) : Prop :=
  ∀ q, 0 < q → (∀ i ∈ m.quotedSlots quote, ∀ price, quote.price i = some price →
      m.permittedAt quote (loopTerms quote mid q position limit baseline) now i price = 0) →
    m.onQuoteInto position limit quote now =
      m.onQuoteInto position limit { quote with quantity := some q } now

/-- The slots of the loop are empty or canceling. -/
def NothingToCancel (m : OrderManager) (quote : Quote) : Prop :=
  ∀ i ∈ m.quotedSlots quote, ∀ o, m.orders i = some o → o.state = .canceling

/-- A loop that decides nothing changes nothing. -/
theorem sweep_silent {f : OrderManager → Slot → OrderManager × Option OrderDecision} {now : Int}
    (hf : ∀ m i, ∃ t, LevelOutcome m t now i (f m i)) {m : OrderManager} {is : List Slot}
    (h : (sweep f m is).2 = []) : (sweep f m is).1 = m := by
  induction is generalizing m with
  | nil => rfl
  | cons i is ih =>
    obtain ⟨hfirst, hrest⟩ := List.append_eq_nil_iff.mp h
    obtain ⟨t, ht⟩ := hf m i
    have hkeep : (f m i).1 = m := by
      generalize f m i = r at ht hfirst
      cases ht with
      | keep => rfl
      | cancel | replace | place => cases hfirst
    exact (ih hrest).trans hkeep

section Call

variable {m : OrderManager} {limit mid quantity baseline : ℚ} {quote : Quote}

/-- A slot that may not trade is treated as by `cancel_exposure`. -/
theorem Quotable.untradable (h : Quotable m limit quote mid quantity baseline) (hq : 0 < quantity)
    {i : Slot} (hi : i ∈ m.quotedSlots quote) {price position : ℚ} {now : Int}
    (hprice : quote.price i = some price)
    (hzero : m.permittedAt quote (loopTerms quote mid quantity position limit baseline) now i price = 0) :
    ∃ m' : OrderManager, m'.orders i = m.orders i ∧
      (m.onQuoteInto position limit quote now).1.orders i = (cancelSlot now m' i).1.orders i ∧
      m.emittedAt position limit quote now i = (cancelSlot now m' i).2.toList := by
  obtain ⟨price', hprice', hpos⟩ := h.prices i hi
  obtain rfl : price = price' := Option.some.inj (hprice.symm.trans hprice')
  rw [permittedAt, ← m.reached_config quote (loopTerms quote mid quantity position limit baseline) now i]
    at hzero
  obtain ⟨horders, hemitted⟩ := h.visited hq hi position now rfl
  have hvisit := quoteLevel_untradable (i := i) (t := loopTerms quote mid quantity position limit baseline)
    hprice hpos hzero now
  rw [hvisit] at horders hemitted
  exact ⟨_, m.reached_orders quote _ now i, horders, hemitted⟩

/-- With a positive quantity nothing is left behind. -/
theorem Quotable.nothingLeft (h : Quotable m limit quote mid quantity baseline) (hq : 0 < quantity)
    (position : ℚ) (now : Int) :
    NothingLeft m position limit quote (loopTerms quote mid quantity position limit baseline) now := by
  intro i hi price hprice hzero
  obtain ⟨m', hm', horders, hemitted⟩ := h.untradable hq hi hprice hzero
  refine ⟨fun o' ho' => ?_, fun o ho hstate => ?_⟩
  · rw [horders, cancelSlot, hm'] at ho'
    cases ho : m.orders i with
    | none =>
      rw [ho] at ho'
      cases (hm'.trans ho).symm.trans ho'
    | some o =>
      rw [ho] at ho'
      dsimp only at ho'
      split at ho'
      · rw [setOrderCanceling_some now (hm'.trans ho), if_pos rfl] at ho'
        rw [← Option.some.inj ho']
        rfl
      · rename_i hstate
        obtain rfl := Option.some.inj ((hm'.trans ho).symm.trans ho')
        simpa using hstate
  · rw [hemitted, cancelSlot, hm', ho]
    simp [hstate]

/-- A quote of zero is not looked at. -/
theorem Quotable.zero_ignored (h : Quotable m limit quote mid quantity baseline) (hq : quantity = 0)
    (position : ℚ) (now : Int) :
    m.onQuoteInto position limit quote now = (m, []) ∧ ∀ i, m.emittedAt position limit quote now i = [] := by
  have hgate : m.quoteGate limit quote = .closed := by
    unfold quoteGate
    simp [h.midPrice_eq, h.quantity_eq, hq]
  refine ⟨?_, fun i => ?_⟩
  · rw [onQuoteInto_eq, hgate]
  · rw [emittedAt, emissions, hgate]
    rfl

/-- Too small a quantity does nothing if there is nothing to cancel. -/
theorem Quotable.untradable_silent (h : Quotable m limit quote mid quantity baseline) (hq : 0 < quantity)
    (hnothing : NothingToCancel m quote) {position : ℚ} {now : Int}
    (hzero : ∀ i ∈ m.quotedSlots quote, ∀ price, quote.price i = some price →
      m.permittedAt quote (loopTerms quote mid quantity position limit baseline) now i price = 0) :
    m.onQuoteInto position limit quote now = (m, []) := by
  have hemitted : ∀ i, m.emittedAt position limit quote now i = [] := by
    intro i
    by_cases hi : i ∈ m.quotedSlots quote
    · obtain ⟨price, hprice, _⟩ := h.prices i hi
      obtain ⟨m', hm', _, hemitted⟩ := h.untradable hq hi hprice (hzero i hi price hprice)
      rw [hemitted, cancelSlot, hm']
      cases ho : m.orders i with
      | none => rfl
      | some o => simp [hnothing i hi o ho]
    · exact (h.unvisited hq hi position now).2
  have hdecisions : (m.onQuoteInto position limit quote now).2 = [] := by
    rw [onQuoteInto_decisions]
    refine List.map_eq_nil_iff.mpr (List.eq_nil_iff_forall_not_mem.mpr fun e he => ?_)
    have := mem_emittedAt (i := e.1) (d := e.2) he
    rw [hemitted] at this
    cases this
  refine Prod.ext ?_ hdecisions
  rw [onQuoteInto_eq, h.gate hq] at hdecisions ⊢
  exact sweep_silent (fun m i => ⟨_, m.quoteLevel_outcome _ now i⟩) hdecisions

end Call

/-- **An untradable quantity leaves no live order behind** exactly if the quote's own quantity is
    positive, or no order of a processed level is pending or live. -/
theorem untradable_iff {m : OrderManager} {limit mid quantity baseline : ℚ} {quote : Quote}
    (h : Quotable m limit quote mid quantity baseline) (hq : 0 ≤ quantity)
    (hmin : 0 < m.config.minOrderQty) (position : ℚ) (now : Int) :
    (NothingLeft m position limit quote (loopTerms quote mid quantity position limit baseline) now ∧
      (quantity = 0 → ZeroAgrees m position limit quote mid baseline now)) ↔
    0 < quantity ∨ NothingToCancel m quote := by
  constructor
  · rintro ⟨hleft, _⟩
    rcases hq.lt_or_eq with hpos | hzero
    · exact Or.inl hpos
    · refine Or.inr fun i hi o ho => ?_
      by_contra hstate
      obtain ⟨price, hprice, _⟩ := h.prices i hi
      have hpermitted :
          m.permittedAt quote (loopTerms quote mid quantity position limit baseline) now i price = 0 := by
        rw [permittedAt, ← hzero]
        exact permittedQty_zero hmin _ _ _
      have hcancel := (hleft i hi price hprice hpermitted).2 o ho hstate
      rw [(h.zero_ignored hzero.symm position now).2 i] at hcancel
      cases hcancel
  · intro hcondition
    rcases hq.lt_or_eq with hpos | hzero
    · exact ⟨h.nothingLeft hpos position now, fun hzero => absurd hzero hpos.ne'⟩
    · have hnothing := hcondition.resolve_left (hzero ▸ lt_irrefl 0)
      have hignored := (h.zero_ignored hzero.symm position now).1
      refine ⟨fun i hi price hprice _ => ⟨fun o' ho' => ?_, fun o ho hstate => ?_⟩, fun _ q hqpos hall => ?_⟩
      · rw [hignored] at ho'
        exact hnothing i hi o' ho'
      · exact absurd (hnothing i hi o ho) hstate
      · have hsmall : Quotable m limit { quote with quantity := some q } mid q baseline :=
          ⟨h.unpaused, h.valid, h.midPrice_eq, h.mid_pos, rfl, h.limit_pos, h.limitBaseline_eq, h.prices⟩
        rw [hignored]
        exact (hsmall.untradable_silent hqpos hnothing hall).symm

/-- The pending bid, and a quote of zero. -/
theorem untradable_iff_bid :
    (NothingLeft oneBid 0 1000 (.oneLevel (some 99) (some 101) 0 100)
        (loopTerms (.oneLevel (some 99) (some 101) 0 100) 100 0 0 1000 0) 1 ∧
      ((0 : ℚ) = 0 → ZeroAgrees oneBid 0 1000 (.oneLevel (some 99) (some 101) 0 100) 100 0 1)) ↔
    (0 : ℚ) < 0 ∨ NothingToCancel oneBid (.oneLevel (some 99) (some 101) 0 100) :=
  untradable_iff (oneBid_quotable 0) le_rfl (by decide +kernel) 0 1

/-- **A quote of zero leaves the pending bid**; a quote of a tenth of a lot cancels it. -/
theorem zero_quantity_keeps_order :
    Quotable oneBid 1000 (.oneLevel (some 99) (some 101) 0 100) 100 0 0 ∧
    ¬ NothingLeft oneBid 0 1000 (.oneLevel (some 99) (some 101) 0 100)
      (loopTerms (.oneLevel (some 99) (some 101) 0 100) 100 0 0 1000 0) 1 ∧
    (oneBid.onQuoteInto 0 1000 (.oneLevel (some 99) (some 101) 0 100) 1).2 = [] ∧
    (oneBid.onQuoteInto 0 1000 (.oneLevel (some 99) (some 101) (1 / 10000) 100) 1).2 =
      [.cancel "mm_TEST-USD_7_0_0_1"] := by
  have hbid : oneBid.orders (.buy, 0) = some ⟨"mm_TEST-USD_7_0_0_1", none, .buy, 0, 99, 1, .pending, 0, 0⟩ := by
    decide +kernel
  have hignored := (oneBid_quotable 0).zero_ignored rfl 0 1
  refine ⟨oneBid_quotable 0, fun hleft => ?_, congrArg Prod.snd hignored.1, by decide +kernel⟩
  have hcancel := (hleft (.buy, 0) (by decide) 99 rfl (by decide +kernel)).2 _ hbid nofun
  rw [hignored.2] at hcancel
  cases hcancel

end MarketMaker.OrderManager
