import MarketMaker.Base.Run
import MarketMaker.Trading.Untradable

/-!
# A quote that stays

The level loop reads the slots it writes: a budget is what the other levels leave over.  Still one call
brings the book to rest.  From a book whose quoted slots are free or being canceled, the quantity placed
at a level is the quantity a later visit permits there, whatever the other levels placed in between.

* `permittedQty_of_smaller_budget` — a quantity that still fits is still the one permitted.
* `Settled` — what the first call leaves, for each way through its checks.
* `settles_at_once` — while nothing ends an order, the same quote emits nothing more.
-/

set_option autoImplicit false

namespace MarketMaker.OrderManager

open Word64

/-! ## Budgets and quantities -/

section Quantity

variable {c : OrderManagerConfig} {budget budget' price mid quantity : ℚ}

/-- The quantity before lots and minima: the quote's, cut to the budget and the per-order cap. -/
def cutQty (c : OrderManagerConfig) (budget price mid quantity : ℚ) : ℚ :=
  match c.maxOrderQtyDollar with
  | some cap => min (min quantity (budget / max price mid)) (cap / price)
  | none => min quantity (budget / max price mid)

/-- The quantity in lots is below one of the minima. -/
def BelowMinimum (c : OrderManagerConfig) (price qty : ℚ) : Prop :=
  qty < c.minOrderQty ∨ qty * price < c.minOrderQtyDollar

instance (c : OrderManagerConfig) (price qty : ℚ) : Decidable (BelowMinimum c price qty) :=
  inferInstanceAs (Decidable (_ ∨ _))

theorem permittedQty_eq (c : OrderManagerConfig) (budget price mid quantity : ℚ) :
    permittedQty c budget price mid quantity =
      if BelowMinimum c price (Grid.floorTo c.lotSize (cutQty c budget price mid quantity)) then 0
      else Grid.floorTo c.lotSize (cutQty c budget price mid quantity) := by
  unfold permittedQty cutQty
  cases c.maxOrderQtyDollar <;> rfl

theorem permittedQty_of_pos (hq : 0 < permittedQty c budget price mid quantity) :
    permittedQty c budget price mid quantity = Grid.floorTo c.lotSize (cutQty c budget price mid quantity) ∧
      ¬ BelowMinimum c price (Grid.floorTo c.lotSize (cutQty c budget price mid quantity)) := by
  rw [permittedQty_eq] at hq ⊢
  split at hq
  · exact absurd hq (lt_irrefl 0)
  · rename_i hmin
    exact ⟨if_neg hmin, hmin⟩

theorem cutQty_mono (hprice : 0 < price) (hbudget : budget' ≤ budget) :
    cutQty c budget' price mid quantity ≤ cutQty c budget price mid quantity := by
  have hmark : 0 < max price mid := lt_of_lt_of_le hprice (le_max_left _ _)
  have hcut : min quantity (budget' / max price mid) ≤ min quantity (budget / max price mid) :=
    min_le_min le_rfl (div_le_div_of_nonneg_right hbudget hmark.le)
  unfold cutQty
  cases c.maxOrderQtyDollar with
  | none => exact hcut
  | some cap => exact min_le_min hcut le_rfl

theorem lots_mono (hprice : 0 < price) (hbudget : budget' ≤ budget) :
    Grid.floorTo c.lotSize (cutQty c budget' price mid quantity) ≤
      Grid.floorTo c.lotSize (cutQty c budget price mid quantity) :=
  Grid.floorTo_mono c.lotSize_pos (cutQty_mono hprice hbudget)

/-- Where nothing may trade, nothing may trade with less. -/
theorem not_permitted_of_smaller_budget (hprice : 0 < price) (hbudget : budget' ≤ budget)
    (hnone : ¬ 0 < permittedQty c budget price mid quantity) :
    ¬ 0 < permittedQty c budget' price mid quantity := by
  intro hqty
  obtain ⟨heq, hmin⟩ := permittedQty_of_pos hqty
  have hlots : Grid.floorTo c.lotSize (cutQty c budget' price mid quantity) ≤
      Grid.floorTo c.lotSize (cutQty c budget price mid quantity) := lots_mono hprice hbudget
  have hdollar := mul_le_mul_of_nonneg_right hlots hprice.le
  have hmin' : ¬ BelowMinimum c price (Grid.floorTo c.lotSize (cutQty c budget price mid quantity)) := by
    unfold BelowMinimum at hmin ⊢
    push Not at hmin ⊢
    exact ⟨hmin.1.trans hlots, hmin.2.trans hdollar⟩
  rw [heq] at hqty
  rw [permittedQty_eq, if_neg hmin'] at hnone
  exact hnone (lt_of_lt_of_le hqty hlots)

/-- What respects every cut is at most the cut quantity. -/
theorem Permitted.le_cutQty {qty : ℚ} (hperm : Permitted c budget price mid quantity qty)
    (hprice : 0 < price) (hfits : qty * max price mid ≤ budget') :
    qty ≤ cutQty c budget' price mid quantity := by
  have hmark : 0 < max price mid := lt_of_lt_of_le hprice (le_max_left _ _)
  have hcut : qty ≤ min quantity (budget' / max price mid) :=
    le_min hperm.le_quantity ((le_div_iff₀ hmark).mpr hfits)
  unfold cutQty
  cases hcap : c.maxOrderQtyDollar with
  | none => exact hcut
  | some cap =>
    have hdollar := hperm.maxDollar cap hcap
    exact le_min hcut ((le_div_iff₀ hprice).mpr (by rwa [mul_comm]))

/-- A smaller budget in which the permitted quantity still fits permits the same quantity. -/
theorem permittedQty_of_smaller_budget (hprice : 0 < price) (hbudget : budget' ≤ budget)
    (hqty : 0 < permittedQty c budget price mid quantity)
    (hfits : permittedQty c budget price mid quantity * max price mid ≤ budget') :
    permittedQty c budget' price mid quantity = permittedQty c budget price mid quantity := by
  have hperm := permittedQty_permitted hprice hqty
  obtain ⟨heq, hmin⟩ := permittedQty_of_pos hqty
  have honGrid : Grid.OnGrid c.lotSize (permittedQty c budget price mid quantity) := by
    rw [heq]
    exact Grid.floorTo_onGrid _ _
  have hge : permittedQty c budget price mid quantity ≤
      Grid.floorTo c.lotSize (cutQty c budget' price mid quantity) := by
    calc permittedQty c budget price mid quantity
        = Grid.floorTo c.lotSize (permittedQty c budget price mid quantity) :=
          (Grid.floorTo_of_onGrid c.lotSize_pos honGrid).symm
      _ ≤ Grid.floorTo c.lotSize (cutQty c budget' price mid quantity) :=
          Grid.floorTo_mono c.lotSize_pos (hperm.le_cutQty hprice hfits)
  have hsame : Grid.floorTo c.lotSize (cutQty c budget' price mid quantity) =
      permittedQty c budget price mid quantity := by
    refine le_antisymm ?_ hge
    rw [heq]
    exact lots_mono hprice hbudget
  rw [permittedQty_eq, hsame, if_neg (heq ▸ hmin)]

end Quantity

/-! ## Slots at rest -/

/-- No older than a live order may grow before it is refreshed. -/
def Young (c : OrderManagerConfig) (sentAtNs now : Int) : Prop :=
  c.maxLiveAgeNs = 0 ∨ now - sentAtNs ≤ asI64 c.maxLiveAgeNs

/-- A slot the loop has no reason to touch: an empty one with nothing permitted, a cancel in flight, or
    an order at the quoted price for exactly the quantity permitted. -/
inductive Rests (m : OrderManager) (t : QuoteTerms) (sentAtNs : Int) (i : Slot) : Prop
  | empty : m.orders i = none →
      (∀ price, t.prices i = some price → 0 < price →
        ¬ 0 < permittedQty m.config (m.budget t i) price t.mid t.quantity) → Rests m t sentAtNs i
  | canceling (o : LiveOrder) : m.orders i = some o → o.state = .canceling → Rests m t sentAtNs i
  | quoted (o : LiveOrder) : m.orders i = some o → o.sentAtNs = sentAtNs → t.prices i = some o.price →
      0 < o.price → 0 < o.quantity →
      permittedQty m.config (m.budget t i) o.price t.mid t.quantity = o.quantity → Rests m t sentAtNs i

/-- An order at its price, of its quantity and young is not replaced. -/
theorem not_needsReplacement {c : OrderManagerConfig} {o : LiveOrder} {now : Int}
    (hthreshold : 0 < c.repriceThresholdBps) (hprice : 0 < o.price) (hyoung : Young c o.sentAtNs now) :
    needsReplacement c o o.price o.quantity now = false := by
  have hreprice : shouldReprice c o.price o.price = false := by
    unfold shouldReprice
    rw [if_neg (not_le.mpr hprice), sub_self, zero_div, abs_zero, zero_mul]
    exact decide_eq_false (not_le.mpr hthreshold)
  have hold : (decide (0 < c.maxLiveAgeNs) && decide (asI64 c.maxLiveAgeNs < now - o.sentAtNs)) = false := by
    rcases hyoung with hzero | hage
    · simp [hzero]
    · simp [not_lt.mpr hage]
  have hresized : decide (c.lotSize * (1 / 2) ≤ |o.quantity - o.quantity|) = false := by
    have := c.lotSize_pos
    rw [sub_self, abs_zero]
    exact decide_eq_false (by linarith)
  rw [needsReplacement, hreprice, hold, hresized]
  rfl

/-- **A slot at rest is left alone.** -/
theorem Rests.quoteLevel_eq {m : OrderManager} {t : QuoteTerms} {sentAtNs now : Int} {i : Slot}
    (h : m.Rests t sentAtNs i) (hthreshold : 0 < m.config.repriceThresholdBps)
    (hyoung : Young m.config sentAtNs now) : m.quoteLevel t now i = (m, none) := by
  unfold quoteLevel
  cases hprice : t.prices i with
  | none => rfl
  | some price =>
    dsimp only
    by_cases hpos : price ≤ 0
    · rw [if_pos hpos]
    · rw [if_neg hpos]
      cases h with
      | empty hnone hzero =>
        simp only [hnone]
        rw [if_neg (hzero price hprice (not_le.mp hpos))]
      | canceling o ho hstate =>
        simp only [ho, hstate, bne_self_eq_false, Bool.and_false, Bool.false_eq_true, if_false,
          processSideLevel]
        exact ite_self _
      | quoted o ho hsent hquoted hprice' hqty hpermitted =>
        obtain rfl : o.price = price := Option.some.inj (hquoted.symm.trans hprice)
        subst hsent
        have hperm := permittedQty_permitted hprice' (by rw [hpermitted]; exact hqty)
        rw [hpermitted] at hperm
        have hfits : exceeds m.config o (m.budget t i) t.mid = false := by
          have hexposure : o.exposure t.mid ≤ m.budget t i := hperm.exposure_le
          have hcap : ∀ cap, m.config.maxOrderQtyDollar = some cap → o.quantity * o.price ≤ cap := by
            intro cap hcap
            rw [mul_comm]
            exact hperm.maxDollar cap hcap
          unfold exceeds
          rw [Bool.or_eq_false_iff]
          refine ⟨decide_eq_false (by linarith), ?_⟩
          cases hmax : m.config.maxOrderQtyDollar with
          | none => rfl
          | some cap =>
            have := hcap cap hmax
            exact decide_eq_false (by linarith)
        have hkept := not_needsReplacement hthreshold hprice' hyoung
        simp only [ho, hpermitted, hfits, Bool.false_or, beq_eq_false_iff_ne.mpr hqty.ne', Bool.false_and,
          Bool.false_eq_true, if_false, if_pos hqty, processSideLevel, hkept]
        cases o.state <;> rfl

/-! ## The first call -/

/-- A visit releases nothing of what a slot reserves. -/
theorem LevelOutcome.slotExposure_le {m : OrderManager} {t : QuoteTerms} {now : Int} {i : Slot}
    {r : OrderManager × Option OrderDecision} (h : LevelOutcome m t now i r) (hmid : 0 < t.mid) (j : Slot) :
    m.slotExposure t.mid j ≤ r.1.slotExposure t.mid j := by
  cases h with
  | keep => exact le_rfl
  | cancel o _ _ => exact (slotExposure_setOrderCanceling m i j now t.mid).ge
  | replace o _ _ _ _ => exact (slotExposure_setOrderCanceling m i j now t.mid).ge
  | place price hnone hprice hqty =>
    unfold slotExposure
    rw [placeOrder_orders]
    by_cases hji : j = i
    · subst hji
      rw [Function.update_self, hnone]
      exact mul_nonneg hqty.le (hmid.le.trans (le_max_right _ _))
    · rw [Function.update_of_ne hji]

theorem LevelOutcome.reservedElsewhere_le {m : OrderManager} {t : QuoteTerms} {now : Int} {i : Slot}
    {r : OrderManager × Option OrderDecision} (h : LevelOutcome m t now i r) (hmid : 0 < t.mid) (j : Slot) :
    m.reservedElsewhere j t.mid ≤ r.1.reservedElsewhere j t.mid :=
  Finset.sum_le_sum fun _ _ => h.slotExposure_le hmid _

/-- A visit keeps a side within its headroom. -/
theorem LevelOutcome.sideExposure_le {m : OrderManager} {t : QuoteTerms} {now : Int} {i : Slot}
    {r : OrderManager × Option OrderDecision} (h : LevelOutcome m t now i r) (hmid : 0 < t.mid) {side : Side}
    (hside : m.sideExposure side t.mid ≤ m.headroom side t.position t.limit t.baseline t.mid) :
    r.1.sideExposure side t.mid ≤ m.headroom side t.position t.limit t.baseline t.mid := by
  cases h with
  | keep => exact hside
  | cancel o _ _ =>
    rwa [sideExposure_congr fun level => slotExposure_setOrderCanceling m i (side, level) now t.mid]
  | replace o _ _ _ _ =>
    exact (sideExposure_congr fun level =>
      slotExposure_setOrderCanceling m i (side, level) now t.mid).trans_le hside
  | place price hnone hprice hqty =>
    by_cases hi : i.1 = side
    · rw [← hi]
      exact sideExposure_placeOrder_le hmid hqty (permittedQty_permitted hprice hqty).exposure_le
    · rwa [sideExposure_congr (m := m) fun level => by
        unfold slotExposure
        rw [placeOrder_orders, Function.update_of_ne fun heq => hi (congrArg Prod.fst heq).symm]]

/-- A manager later in the loop than `s`: a slot as it was left, and the rest of its side reserving no
    less. -/
structure Later (t : QuoteTerms) (i : Slot) (x : Option LiveOrder) (s m : OrderManager) : Prop where
  config : m.config = s.config
  slot : m.orders i = x
  reserved : s.reservedElsewhere i t.mid ≤ m.reservedElsewhere i t.mid

theorem Later.visit {t : QuoteTerms} {i j : Slot} {x : Option LiveOrder} {s m : OrderManager} {now : Int}
    {r : OrderManager × Option OrderDecision} (h : Later t i x s m) (hr : LevelOutcome m t now j r)
    (hmid : 0 < t.mid) (hj : j ≠ i) : Later t i x s r.1 :=
  ⟨hr.config.trans h.config, (hr.orders_of_ne hj.symm).trans h.slot,
    h.reserved.trans (hr.reservedElsewhere_le hmid i)⟩

theorem Later.budget_le {t : QuoteTerms} {i : Slot} {x : Option LiveOrder} {s m : OrderManager}
    (h : Later t i x s m) : m.budget t i ≤ s.budget t i := by
  have hreserved := h.reserved
  unfold budget
  rw [headroom_congr h.config]
  exact max_le_max (by linarith) le_rfl

/-- A slot left empty rests. -/
theorem Later.rests_empty {t : QuoteTerms} {i : Slot} {s m : OrderManager} (h : Later t i none s m)
    (hzero : ∀ price, t.prices i = some price → 0 < price →
      ¬ 0 < permittedQty s.config (s.budget t i) price t.mid t.quantity) (sentAtNs : Int) :
    m.Rests t sentAtNs i := by
  refine .empty h.slot fun price hprice hpos => ?_
  rw [h.config]
  exact not_permitted_of_smaller_budget hpos h.budget_le (hzero price hprice hpos)

/-- An order placed for the quantity permitted rests, if its side stayed within its headroom. -/
theorem Later.rests_placed {t : QuoteTerms} {i : Slot} {o : LiveOrder} {s m : OrderManager}
    (h : Later t i (some o) s m) (hprice : t.prices i = some o.price) (hpos : 0 < o.price)
    (hqty : 0 < o.quantity)
    (hpermitted : permittedQty s.config (s.budget t i) o.price t.mid t.quantity = o.quantity)
    (hside : m.sideExposure i.1 t.mid ≤ m.headroom i.1 t.position t.limit t.baseline t.mid) :
    m.Rests t o.sentAtNs i := by
  have hslot : m.slotExposure t.mid i = o.quantity * max o.price t.mid := by
    rw [slotExposure, h.slot]
    rfl
  have hfits : o.quantity * max o.price t.mid ≤ m.budget t i := by
    rw [sideExposure_eq, hslot] at hside
    exact le_max_of_le_left (by linarith)
  refine .quoted o h.slot rfl hprice hpos hqty ?_
  rw [h.config, ← hpermitted]
  refine permittedQty_of_smaller_budget hpos h.budget_le ?_ ?_
  · rwa [hpermitted]
  · rwa [hpermitted]

/-- A visit of an empty slot leaves it empty if nothing is permitted there, and places the quantity
    permitted otherwise. -/
theorem quoteLevel_of_empty {m : OrderManager} {t : QuoteTerms} {i : Slot} (now : Int)
    (hnone : m.orders i = none) :
    ((m.quoteLevel t now i).1 = m ∧ ∀ price, t.prices i = some price → 0 < price →
      ¬ 0 < permittedQty m.config (m.budget t i) price t.mid t.quantity) ∨
    ∃ price, t.prices i = some price ∧ 0 < price ∧
      0 < permittedQty m.config (m.budget t i) price t.mid t.quantity ∧
      (m.quoteLevel t now i).1 =
        (m.placeOrder i price (permittedQty m.config (m.budget t i) price t.mid t.quantity) now).1 := by
  unfold quoteLevel
  cases hprice : t.prices i with
  | none => exact Or.inl ⟨rfl, nofun⟩
  | some price =>
    dsimp only
    by_cases hpos : price ≤ 0
    · rw [if_pos hpos]
      refine Or.inl ⟨rfl, fun price' h h' => absurd hpos (not_le.mpr ?_)⟩
      rwa [Option.some.inj h]
    · rw [if_neg hpos]
      simp only [hnone]
      by_cases hqty : 0 < permittedQty m.config (m.budget t i) price t.mid t.quantity
      · rw [if_pos hqty, processSideLevel, hnone]
        exact Or.inr ⟨price, rfl, not_le.mp hpos, hqty, rfl⟩
      · rw [if_neg hqty]
        refine Or.inl ⟨rfl, fun price' h _ => ?_⟩
        rwa [← Option.some.inj h]

/-- A visit leaves a cancel in flight. -/
theorem LevelOutcome.canceling {m : OrderManager} {t : QuoteTerms} {now : Int} {i : Slot}
    {r : OrderManager × Option OrderDecision} (h : LevelOutcome m t now i r) {o : LiveOrder}
    (ho : m.orders i = some o) (hstate : o.state = .canceling) : r = (m, none) := by
  cases h with
  | keep => rfl
  | cancel o' ho' hs => exact absurd (Option.some.inj (ho'.symm.trans ho) ▸ hstate) hs
  | replace o' _ _ ho' hs =>
    rw [Option.some.inj (ho'.symm.trans ho), hstate] at hs
    cases hs
  | place price hnone _ _ => cases hnone.symm.trans ho

/-- **After the loop every slot it visited rests.**  What comes after a visit takes from the budget of the
    slot only what the order placed there leaves over. -/
theorem rests_of_loop {m : OrderManager} {t : QuoteTerms} {quote : Quote} (now : Int) (hmid : 0 < t.mid)
    (hfree : m.NothingToCancel quote) {i : Slot} (hi : i ∈ m.quotedSlots quote) :
    (Visits.after (fun m => m.quoteLevel t now) m (m.quotedSlots quote)).Rests t now i := by
  have hnodup := m.quotedSlots_nodup quote
  have hfound : (m.reached quote t now i).orders i = m.orders i := m.reached_orders quote t now i
  have houtcome := (m.reached quote t now i).quoteLevel_outcome t now i
  cases ho : m.orders i with
  | some o =>
    have hstate : o.state = .canceling := hfree i hi o ho
    have hkept := houtcome.canceling (hfound.trans ho) hstate
    refine .canceling o ?_ hstate
    have hafter := Visits.get_after (quoteLevel_local t now) hnodup hi m
    exact hafter.trans ((congrArg (fun r => r.1.orders i) hkept).trans (hfound.trans ho))
  | none =>
    have hnone : (m.reached quote t now i).orders i = none := hfound.trans ho
    rcases quoteLevel_of_empty now hnone with ⟨hkept, hzero⟩ | ⟨price, hprice, hpos, hqty, hplaced⟩
    · have hlater : Later t i none (m.reached quote t now i)
          (Visits.after (fun m => m.quoteLevel t now) m (m.quotedSlots quote)) := by
        refine Visits.after_of_visited hnodup hi
          (fun s j hj hs => hs.visit (s.quoteLevel_outcome t now j) hmid hj) ?_
        show Later t i none _ ((m.reached quote t now i).quoteLevel t now i).1
        rw [hkept]
        exact ⟨rfl, hnone, le_rfl⟩
      exact hlater.rests_empty hzero now
    · obtain ⟨o, hoslot, hoprice, hoqty, hosent⟩ : ∃ o : LiveOrder,
          ((m.reached quote t now i).quoteLevel t now i).1.orders i = some o ∧ o.price = price ∧
          o.quantity = permittedQty (m.reached quote t now i).config ((m.reached quote t now i).budget t i)
            price t.mid t.quantity ∧ o.sentAtNs = now := by
        rw [hplaced, placeOrder_orders, Function.update_self]
        exact ⟨_, rfl, rfl, rfl, rfl⟩
      have hlater : Later t i (some o) (m.reached quote t now i)
            (Visits.after (fun m => m.quoteLevel t now) m (m.quotedSlots quote)) ∧
          (Visits.after (fun m => m.quoteLevel t now) m (m.quotedSlots quote)).sideExposure i.1 t.mid ≤
            (m.reached quote t now i).headroom i.1 t.position t.limit t.baseline t.mid := by
        refine Visits.after_of_visited
          (I := fun m' : OrderManager => Later t i (some o) (m.reached quote t now i) m' ∧
            m'.sideExposure i.1 t.mid ≤
              (m.reached quote t now i).headroom i.1 t.position t.limit t.baseline t.mid) hnodup hi
          (fun s j hj hs => ⟨hs.1.visit (s.quoteLevel_outcome t now j) hmid hj, ?_⟩) ⟨?_, ?_⟩
        · have hside : s.sideExposure i.1 t.mid ≤
              s.headroom i.1 t.position t.limit t.baseline t.mid := by
            rw [headroom_congr hs.1.config]
            exact hs.2
          have hvisited := (s.quoteLevel_outcome t now j).sideExposure_le hmid hside
          rwa [headroom_congr hs.1.config] at hvisited
        · exact ⟨houtcome.config, hoslot, houtcome.reservedElsewhere_le hmid i⟩
        · show ((m.reached quote t now i).quoteLevel t now i).1.sideExposure i.1 t.mid ≤ _
          rw [hplaced]
          exact sideExposure_placeOrder_le hmid hqty (permittedQty_permitted hpos hqty).exposure_le
      obtain ⟨hlater, hside⟩ := hlater
      rw [← headroom_congr hlater.config] at hside
      subst hoprice
      have hrests := hlater.rests_placed hprice hpos (by rwa [hoqty]) hoqty.symm hside
      rwa [hosent] at hrests

/-- What the call leaves, for each way through its checks: the book as it was, every order being canceled,
    or every quoted slot at rest. -/
inductive Settled (m : OrderManager) (position limit : ℚ) (quote : Quote) (sentAtNs : Int) : QuoteGate → Prop
  | closed : Settled m position limit quote sentAtNs .closed
  | invalidLimit : (∀ i o, m.orders i = some o → o.state = .canceling) →
      Settled m position limit quote sentAtNs .invalidLimit
  | quoted (mid quantity baseline : ℚ) : (∀ i ∈ m.quotedSlots quote,
        m.Rests (loopTerms quote mid quantity position limit baseline) sentAtNs i) →
      Settled m position limit quote sentAtNs (.quoted mid quantity baseline)

/-- `cancel_exposure` leaves no order that is not being canceled. -/
theorem cancelExposure_canceling {m : OrderManager} {now : Int} {i : Slot} {o : LiveOrder}
    (ho : (m.cancelExposure now).1.orders i = some o) : o.state = .canceling := by
  have hfound : (Visits.before (cancelSlot now) m slotsBySide i).orders i = m.orders i :=
    Visits.get_before (cancelSlot_local now) m slotsBySide i
  have hafter : (m.cancelExposure now).1.orders i =
      (cancelSlot now (Visits.before (cancelSlot now) m slotsBySide i) i).1.orders i := by
    rw [cancelExposure, sweep_eq_visits]
    exact Visits.get_after (cancelSlot_local now) slotsBySide_nodup (mem_slotsBySide i) m
  rw [hafter] at ho
  generalize Visits.before (cancelSlot now) m slotsBySide i = s at ho hfound
  unfold cancelSlot at ho
  cases hs : s.orders i with
  | none =>
    rw [hs] at ho
    cases hs.symm.trans ho
  | some o' =>
    rw [hs] at ho
    dsimp only at ho
    split at ho
    · rw [setOrderCanceling_some now hs, if_pos rfl] at ho
      rw [← Option.some.inj ho]
      rfl
    · rename_i hstate
      rw [← Option.some.inj (hs.symm.trans ho)]
      simpa using hstate

/-- The call's own way through its checks says that the mid price is positive. -/
theorem mid_pos_of_gate {m : OrderManager} {limit mid quantity baseline : ℚ} {quote : Quote}
    (hgate : m.quoteGate limit quote = .quoted mid quantity baseline) : 0 < mid := by
  unfold quoteGate at hgate
  cases hmid : quote.midPrice with
  | none =>
    rw [hmid] at hgate
    split_ifs at hgate
  | some mid' =>
    cases hquantity : quote.quantity with
    | none =>
      rw [hmid, hquantity] at hgate
      split_ifs at hgate
    | some quantity' =>
      rw [hmid, hquantity] at hgate
      dsimp only at hgate
      split_ifs at hgate with _ _ hpos
      cases hbase : m.limitBaseline with
      | none =>
        rw [hbase] at hgate
        cases hgate
      | some baseline' =>
        rw [hbase] at hgate
        cases hgate
        exact not_le.mp fun h => hpos (Or.inl h)

theorem settled_onQuoteInto {m : OrderManager} {quote : Quote} (position limit : ℚ) (now : Int)
    (hfree : m.NothingToCancel quote) :
    Settled (m.onQuoteInto position limit quote now).1 position limit quote now (m.quoteGate limit quote) := by
  rw [onQuoteInto_eq]
  cases hgate : m.quoteGate limit quote with
  | closed => exact .closed
  | invalidLimit => exact .invalidLimit fun i o ho => cancelExposure_canceling ho
  | quoted mid quantity baseline =>
    dsimp only
    rw [sweep_eq_visits]
    refine .quoted mid quantity baseline fun i hi => ?_
    have hslots : (Visits.after (fun m => m.quoteLevel (loopTerms quote mid quantity position limit baseline) now)
        m (m.quotedSlots quote)).quotedSlots quote = m.quotedSlots quote := by
      have hconfig := Visits.after_invariant (I := fun m' : OrderManager => m'.config = m.config)
        (m.quotedSlots quote) (fun m' j _ hm' => (m'.quoteLevel_outcome
          (loopTerms quote mid quantity position limit baseline) now j).config.trans hm') (s := m) rfl
      rw [quotedSlots, hconfig]
      rfl
    rw [hslots] at hi
    exact rests_of_loop now (mid_pos_of_gate hgate) hfree hi

/-! ## Operations that leave the book -/

/-- An order but for what an acceptance writes: its exchange id, and whether it is pending or live. -/
def unconfirmed (o : LiveOrder) : LiveOrder :=
  { o with orderId := none, state := if o.state = .canceling then .canceling else .pending }

theorem unconfirmed_accept (o : LiveOrder) (orderId : Int) :
    unconfirmed (o.accept orderId) = unconfirmed o := by
  cases hstate : o.state <;> simp [unconfirmed, LiveOrder.accept, hstate]

theorem canceling_of_unconfirmed {o o' : LiveOrder} (h : unconfirmed o' = unconfirmed o)
    (hstate : o.state = .canceling) : o'.state = .canceling := by
  have hstates := congrArg LiveOrder.state h
  simp only [unconfirmed, hstate, if_true] at hstates
  by_contra hne
  rw [if_neg hne] at hstates
  cases hstates

/-- The same orders, confirmed or not, under the same configuration. -/
structure SameBook (m m' : OrderManager) : Prop where
  config : m'.config = m.config
  positionBaseline : m'.positionBaseline = m.positionBaseline
  orders : ∀ i, (m'.orders i).map unconfirmed = (m.orders i).map unconfirmed

theorem SameBook.refl (m : OrderManager) : SameBook m m := ⟨rfl, rfl, fun _ => rfl⟩

theorem SameBook.trans {m m' m'' : OrderManager} (h : SameBook m m') (h' : SameBook m' m'') :
    SameBook m m'' :=
  ⟨h'.config.trans h.config, h'.positionBaseline.trans h.positionBaseline,
    fun i => (h'.orders i).trans (h.orders i)⟩

section SameBook

variable {m m' : OrderManager} (h : SameBook m m')
include h

theorem SameBook.none {i : Slot} (hnone : m.orders i = none) : m'.orders i = none := by
  have horders := h.orders i
  rwa [hnone, Option.map_none, Option.map_eq_none_iff] at horders

theorem SameBook.some {i : Slot} {o : LiveOrder} (ho : m.orders i = some o) :
    ∃ o', m'.orders i = some o' ∧ unconfirmed o' = unconfirmed o := by
  have horders := h.orders i
  rwa [ho, Option.map_some, Option.map_eq_some_iff] at horders

theorem SameBook.slotExposure (mid : ℚ) (i : Slot) : m'.slotExposure mid i = m.slotExposure mid i := by
  unfold OrderManager.slotExposure
  cases ho : m.orders i with
  | none => rw [h.none ho]
  | some o =>
    obtain ⟨o', ho', hsame⟩ := h.some ho
    rw [ho']
    simp only [unconfirmed, LiveOrder.mk.injEq] at hsame
    simp only [Option.elim_some, LiveOrder.exposure, hsame]

theorem SameBook.budget (t : QuoteTerms) (i : Slot) : m'.budget t i = m.budget t i := by
  have hreserved : m'.reservedElsewhere i t.mid = m.reservedElsewhere i t.mid :=
    Finset.sum_congr rfl fun _ _ => h.slotExposure _ _
  rw [OrderManager.budget, OrderManager.budget, hreserved, headroom_congr h.config]

theorem SameBook.rests {t : QuoteTerms} {sentAtNs : Int} {i : Slot} (hrests : m.Rests t sentAtNs i) :
    m'.Rests t sentAtNs i := by
  cases hrests with
  | empty hnone hzero =>
    refine .empty (h.none hnone) ?_
    rw [h.config, h.budget]
    exact hzero
  | canceling o ho hstate =>
    obtain ⟨o', ho', hsame⟩ := h.some ho
    exact .canceling o' ho' (canceling_of_unconfirmed hsame hstate)
  | quoted o ho hsent hprice hpos hqty hpermitted =>
    obtain ⟨o', ho', hsame⟩ := h.some ho
    simp only [unconfirmed, LiveOrder.mk.injEq] at hsame
    obtain ⟨_, _, _, _, hprice', hqty', _, hsent', _⟩ := hsame
    refine .quoted o' ho' (hsent'.trans hsent) ?_ ?_ ?_ ?_
    · rwa [hprice']
    · rwa [hprice']
    · rwa [hqty']
    · rwa [h.config, h.budget, hprice', hqty']

theorem SameBook.settled {position limit : ℚ} {quote : Quote} {sentAtNs : Int} {gate : QuoteGate}
    (hsettled : Settled m position limit quote sentAtNs gate) :
    Settled m' position limit quote sentAtNs gate := by
  cases hsettled with
  | closed => exact .closed
  | invalidLimit hcanceling =>
    refine .invalidLimit fun i o' ho' => ?_
    cases ho : m.orders i with
    | none => cases (h.none ho).symm.trans ho'
    | some o =>
      obtain ⟨o'', ho'', hsame⟩ := h.some ho
      rw [← Option.some.inj (ho''.symm.trans ho')]
      exact canceling_of_unconfirmed hsame (hcanceling i o ho)
  | quoted mid quantity baseline hrests =>
    refine .quoted mid quantity baseline fun i hi => h.rests (hrests i ?_)
    rw [quotedSlots, h.config] at hi
    exact hi

end SameBook

/-- The operations that end no order and start no cancel by themselves: acceptances, partial fills, timeout
    checks, every pause and its end, and the same quote again, while the orders it placed are young. -/
def Steady (c : OrderManagerConfig) (position limit : ℚ) (quote : Quote) (sentAtNs : Int) : Operation → Prop
  | .quote position' limit' quote' now =>
    position' = position ∧ limit' = limit ∧ quote' = quote ∧ Young c sentAtNs now
  | .checkTimeouts _ | .checkPendingTimeouts _ | .accepted _ _ | .setPauseReason _ | .clearPauseReason _
  | .triggerSafetyPause _ | .shutdown | .requirePositionRefresh _ | .positionRefreshComplete _
  | .checkCircuitBreakerRecovery _ _ | .checkSafetyPauseRecovery _ _ | .resetCircuitBreaker => True
  | .filled _ _ _ fullyFilled => fullyFilled = false
  | _ => False

theorem onOrderAccepted_sameBook (m : OrderManager) (clOrdId : String) (orderId : Int) :
    SameBook m (m.onOrderAccepted clOrdId orderId).2 := by
  have haccept : ∀ m' : OrderManager, ∀ j, m'.orders = m.orders → m'.config = m.config →
      m'.positionBaseline = m.positionBaseline → SameBook m (m'.modifySlot j (·.accept orderId)) := by
    intro m' j horders hconfig hbaseline
    refine ⟨hconfig, hbaseline, fun i => ?_⟩
    rw [modifySlot_at, horders]
    split
    · rw [Option.map_map]
      exact congrArg (fun f => Option.map f (m.orders i)) (funext fun o => unconfirmed_accept o orderId)
    · rfl
  unfold onOrderAccepted
  split
  · exact .refl m
  · rename_i j _
    split
    · exact .refl m
    · split
      · exact .refl m
      · obtain ⟨hconfig, hbaseline, horders⟩ := haccept { m with consecutiveRejections := 0 } j rfl rfl rfl
        dsimp only
        split
        · exact ⟨hconfig, hbaseline, horders⟩
        · exact ⟨hconfig, hbaseline, horders⟩

theorem checkTimeouts_sameBook (m : OrderManager) (now : Int) : SameBook m (m.checkTimeouts now).1 := by
  unfold checkTimeouts
  dsimp only
  split <;> exact ⟨rfl, rfl, fun _ => rfl⟩

theorem Steady.sameBook {c : OrderManagerConfig} {position limit : ℚ} {quote : Quote} {sentAtNs : Int}
    {op : Operation} (hop : Steady c position limit quote sentAtNs op) (hevent : op.IsEvent)
    (m : OrderManager) : SameBook m (m.apply op).1 := by
  cases op with
  | quote => exact hevent.elim
  | accepted clOrdId orderId => exact onOrderAccepted_sameBook m clOrdId orderId
  | checkTimeouts now => exact checkTimeouts_sameBook m now
  | checkPendingTimeouts now =>
    simp only [apply, checkPendingTimeouts]
    split
    · exact .refl m
    · obtain ⟨hconfig, hbaseline, horders⟩ := checkTimeouts_sameBook { m with lastTimeoutCheckNs := now } now
      exact ⟨hconfig, hbaseline, horders⟩
  | filled readings orderId clOrdId fullyFilled =>
    obtain rfl : fullyFilled = false := hop
    simp only [apply, onOrderFill]
    split <;> exact ⟨rfl, rfl, fun _ => rfl⟩
  | positionRefreshComplete readings =>
    simp only [apply, positionRefreshAfterFillComplete]
    split
    · exact .refl m
    · split <;> exact ⟨rfl, rfl, fun _ => rfl⟩
  | checkCircuitBreakerRecovery recoverySecs nowMs =>
    simp only [apply, checkCircuitBreakerRecovery]
    split <;> exact ⟨rfl, rfl, fun _ => rfl⟩
  | checkSafetyPauseRecovery recoverySecs nowMs =>
    simp only [apply, checkSafetyPauseRecovery]
    split <;> exact ⟨rfl, rfl, fun _ => rfl⟩
  | setPauseReason | clearPauseReason | triggerSafetyPause | shutdown | requirePositionRefresh
  | resetCircuitBreaker => exact ⟨rfl, rfl, fun _ => rfl⟩
  | rejected | canceled | canceledByClOrdId | cancelFailed | dispatchFailed | finishReconciliation
  | initializePositionBaseline | setPrecision => exact hop.elim

/-! ## The same quote again -/

/-- A loop over slots that are left alone. -/
theorem sweep_idle {f : OrderManager → Slot → OrderManager × Option OrderDecision} {m : OrderManager}
    {is : List Slot} (hidle : ∀ i ∈ is, f m i = (m, none)) : sweep f m is = (m, []) := by
  induction is with
  | nil => rfl
  | cons i is ih =>
    rw [sweep, hidle i List.mem_cons_self, ih fun j hj => hidle j (List.mem_cons_of_mem i hj)]
    rfl

/-- The way through the checks depends on the pause word, the configuration and the baseline. -/
theorem quoteGate_congr {m m' : OrderManager} (hopen : m.Unpaused) (hopen' : m'.Unpaused)
    (hconfig : m'.config = m.config) (hbaseline : m'.positionBaseline = m.positionBaseline) (limit : ℚ)
    (quote : Quote) : m'.quoteGate limit quote = m.quoteGate limit quote := by
  unfold quoteGate limitBaseline
  rw [hopen.1, hopen.2, hopen'.1, hopen'.2, hconfig, hbaseline]

/-- The decisions of a call that leaves every slot alone. -/
structure Quiet (m : OrderManager) (r : OrderManager × List OrderDecision) : Prop where
  silent : r.2 = []
  sameBook : SameBook m r.1

/-- **A settled book answers the quote with nothing.** -/
theorem Settled.quiet {m : OrderManager} {position limit : ℚ} {quote : Quote} {sentAtNs now : Int}
    {gate : QuoteGate} (h : Settled m position limit quote sentAtNs gate)
    (hgate : m.Unpaused → m.quoteGate limit quote = gate) (hthreshold : 0 < m.config.repriceThresholdBps)
    (hyoung : Young m.config sentAtNs now) : Quiet m (m.onQuoteInto position limit quote now) := by
  by_cases hopen : m.Unpaused
  · rw [onQuoteInto_eq, hgate hopen]
    cases h with
    | closed => exact ⟨rfl, .refl m⟩
    | invalidLimit hcanceling =>
      have hidle : sweep (cancelSlot now) (m.setPauseReason .riskData) slotsBySide =
          (m.setPauseReason .riskData, []) := by
        refine sweep_idle fun i _ => ?_
        unfold cancelSlot
        cases ho : (m.setPauseReason .riskData).orders i with
        | none => rfl
        | some o => simp [hcanceling i o ho]
      dsimp only
      rw [cancelExposure, hidle]
      exact ⟨rfl, rfl, rfl, fun _ => rfl⟩
    | quoted mid quantity baseline hrests =>
      dsimp only
      rw [sweep_idle fun i hi => (hrests i hi).quoteLevel_eq hthreshold hyoung]
      exact ⟨rfl, .refl m⟩
  · rw [onQuoteInto_paused hopen]
    exact ⟨rfl, .refl m⟩

theorem onQuoteInto_frame (m : OrderManager) (position limit : ℚ) (quote : Quote) (now : Int) :
    (m.onQuoteInto position limit quote now).1.config = m.config ∧
      (m.onQuoteInto position limit quote now).1.positionBaseline = m.positionBaseline :=
  onQuoteInto_rule (I := fun m' _ => m'.config = m.config ∧ m'.positionBaseline = m.positionBaseline)
    ⟨rfl, rfl⟩ ⟨rfl, rfl⟩ fun h hr => ⟨hr.config.trans h.1, hr.positionBaseline.trans h.2⟩

section Run

variable {m : OrderManager} {position limit : ℚ} {quote : Quote} {sentAtNs : Int}

/-- A book that is the one the call left answers with nothing. -/
theorem quiet_of_sameBook (hopen : m.Unpaused) (hthreshold : 0 < m.config.repriceThresholdBps)
    (hfree : m.NothingToCancel quote) {m' : OrderManager}
    (h : SameBook (m.onQuoteInto position limit quote sentAtNs).1 m') {now : Int}
    (hyoung : Young m.config sentAtNs now) : Quiet m' (m'.onQuoteInto position limit quote now) := by
  obtain ⟨hconfig, hbaseline⟩ := m.onQuoteInto_frame position limit quote sentAtNs
  have hconfig' : m'.config = m.config := h.config.trans hconfig
  have hsettled := h.settled (settled_onQuoteInto position limit sentAtNs hfree)
  refine hsettled.quiet (fun hopen' => ?_) (by rwa [hconfig']) (by rwa [hconfig'])
  exact quoteGate_congr hopen hopen' hconfig' (h.positionBaseline.trans hbaseline) limit quote

theorem Steady.step (hopen : m.Unpaused) (hthreshold : 0 < m.config.repriceThresholdBps)
    (hfree : m.NothingToCancel quote) {op : Operation}
    (hop : Steady m.config position limit quote sentAtNs op) {m' : OrderManager}
    (h : SameBook (m.onQuoteInto position limit quote sentAtNs).1 m') :
    SameBook (m.onQuoteInto position limit quote sentAtNs).1 (m'.apply op).1 ∧ sends (m'.apply op).2 = 0 := by
  by_cases hevent : op.IsEvent
  · exact ⟨h.trans (hop.sameBook hevent m'), apply_event_sends hevent⟩
  · cases op with
    | quote position' limit' quote' now =>
      obtain ⟨rfl, rfl, rfl, hyoung⟩ := hop
      have hquiet := quiet_of_sameBook hopen hthreshold hfree h hyoung
      refine ⟨h.trans hquiet.sameBook, ?_⟩
      rw [show (m'.apply (.quote position' limit' quote' now)).2 = [] from hquiet.silent]
      rfl
    | _ => exact absurd trivial hevent

/-- **The quote loop comes to rest in one call.**  Take an unpaused manager whose quoted slots are free or
    being canceled, and any quote.  After one call, and as long as nothing ends an order or starts a cancel,
    the same quote at the same position and limit emits nothing, and every slot keeps the order it has:
    through acceptances, partial fills, timeout checks and pauses in any order, until the orders reach the
    age at which they are refreshed. -/
theorem settles_at_once (hopen : m.Unpaused) (hthreshold : 0 < m.config.repriceThresholdBps)
    (hfree : m.NothingToCancel quote) {n : Nat} {ops : List Operation} {h : History}
    (hsteady : ∀ op ∈ ops, Steady m.config position limit quote sentAtNs op)
    (hrun : Runs.exec History.step ⟨(m.onQuoteInto position limit quote sentAtNs).1, n⟩ ops = some h) :
    (∀ now, Young m.config sentAtNs now → (h.manager.onQuoteInto position limit quote now).2 = []) ∧
    h.sent = n ∧
    ∀ i, (h.manager.orders i).map unconfirmed =
      ((m.onQuoteInto position limit quote sentAtNs).1.orders i).map unconfirmed := by
  have hkept : SameBook (m.onQuoteInto position limit quote sentAtNs).1 h.manager ∧ h.sent = n := by
    refine Runs.exec_invariant_of
      (fun s : History => SameBook (m.onQuoteInto position limit quote sentAtNs).1 s.manager ∧ s.sent = n)
      (fun _ op => Steady m.config position limit quote sentAtNs op) ?_ ⟨.refl _, rfl⟩
      (Runs.along_of_forall hsteady) hrun
    rintro s op s' ⟨hsame, hsent⟩ hop hstep
    obtain ⟨hsame', hsends⟩ := Steady.step hopen hthreshold hfree hop hsame
    obtain rfl := Option.some.inj hstep
    exact ⟨hsame', by rw [hsends, hsent]; rfl⟩
  exact ⟨fun now hyoung => (quiet_of_sameBook hopen hthreshold hfree hkept.1 hyoung).silent, hkept.2,
    hkept.1.orders⟩

/-- The first two orders of a fresh manager, the bid accepted, after a pause. -/
def firstBook : OrderManager :=
  ((((new .default 7).onQuoteInto 0 1000 (.oneLevel (some 99) (some 101) 1 100) 0).1.onOrderAccepted
    "mm_TEST-USD_7_0_0_1" 42).2.setPauseReason .marketData).clearPauseReason .marketData

theorem settles_at_once_firstBook :
    sends ((new .default 7).onQuoteInto 0 1000 (.oneLevel (some 99) (some 101) 1 100) 0).2 = 2 ∧
    (firstBook.onQuoteInto 0 1000 (.oneLevel (some 99) (some 101) 1 100) 5).2 = [] := by
  refine ⟨by decide +kernel, ?_⟩
  have hsteady : ∀ op ∈ [Operation.accepted "mm_TEST-USD_7_0_0_1" 42, .setPauseReason .marketData,
      .clearPauseReason .marketData], Steady .default 0 1000 (.oneLevel (some 99) (some 101) 1 100) 0 op := by
    simp [Steady]
  have hsettled := settles_at_once (m := new .default 7) ⟨rfl, rfl⟩
    (by norm_num [new, OrderManagerConfig.default]) nofun (n := 2) hsteady rfl
  exact hsettled.1 5 (Or.inr (by decide))

/-- A threshold of zero replaces a live order at its own price. -/
example : shouldReprice { OrderManagerConfig.default with repriceThresholdBps := 0 } 99 99 = true := by
  decide +kernel

end Run

end MarketMaker.OrderManager
