import Mathlib.Algebra.Order.Field.Basic
import Mathlib.Tactic.Positivity
import MarketMaker.Base.Grid
import MarketMaker.Strategy.Validation

/-!
# Quote geometry

A price is made in four steps: the depth below the fair price (not negative), the clamp to the book,
the distance kept from the mid, and the rounding away from it.  `bidPrice_eq` and `askPrice_eq` write
them as one monotone expression.

* `quote_geometry` — where the prices of a quote lie.
* `quotes_monotone` — a larger position moves no price up, a larger alpha moves no price down.
-/

set_option autoImplicit false

namespace MarketMaker

/-! ## Snapshots that validate -/

namespace OrderbookSnapshot

/-- The best prices of a snapshot, and its mid. -/
structure Quoted (b : OrderbookSnapshot) (bestBid bestAsk mid : ℚ) : Prop where
  bid_eq : b.bestBidPrice = some (some bestBid)
  ask_eq : b.bestAskPrice = some (some bestAsk)
  bid_pos : 0 < bestBid
  uncrossed : bestBid < bestAsk
  mid_eq : mid = (bestBid + bestAsk) / 2

theorem Quoted.bid_lt_mid {b : OrderbookSnapshot} {bestBid bestAsk mid : ℚ}
    (h : b.Quoted bestBid bestAsk mid) :
    bestBid < mid := by
  have := h.uncrossed
  rw [h.mid_eq]
  linarith

theorem Quoted.mid_lt_ask {b : OrderbookSnapshot} {bestBid bestAsk mid : ℚ}
    (h : b.Quoted bestBid bestAsk mid) :
    mid < bestAsk := by
  have := h.uncrossed
  rw [h.mid_eq]
  linarith

theorem Quoted.mid_pos {b : OrderbookSnapshot} {bestBid bestAsk mid : ℚ}
    (h : b.Quoted bestBid bestAsk mid) :
    0 < mid := h.bid_pos.trans h.bid_lt_mid

theorem quoted_of_validate {b : OrderbookSnapshot} {mid : ℚ} (h : b.validate = true)
    (hmid : b.midPrice = some (some mid)) : ∃ bestBid bestAsk, b.Quoted bestBid bestAsk mid := by
  obtain ⟨p, q, hbid, hask, hpos, hlt⟩ := best_of_validate h
  rw [midPrice, hbid, hask] at hmid
  exact ⟨p, q, hbid, hask, hpos, hlt, (Option.some.inj (Option.some.inj hmid)).symm⟩

end OrderbookSnapshot

namespace ObiStrategy

/-! ## One price -/

/-- What a level keeps from the mid. -/
def clearance (s : ObiStrategy) (mid : ℚ) (level : Nat) : ℚ :=
  mid * s.config.minHalfSpreadBps * s.multiplier level / 10000

/-- The depth of a bid below the fair price, in ticks; of an ask above it, with the position turned. -/
def depthTick (s : ObiStrategy) (halfSpreadTick clampedPosition : ℚ) (level : Nat) : ℚ :=
  max (halfSpreadTick * s.multiplier level * (1 + s.config.skew * clampedPosition)) 0

section Price

variable {s : ObiStrategy} {tick mid best fair half position : ℚ} {level : Nat}

/-- Without a minimum spread nothing is kept. -/
theorem clearance_eq_zero (hmin : 0 ≤ s.config.minHalfSpreadBps) (hzero : ¬ 0 < s.config.minHalfSpreadBps)
    (mid : ℚ) (level : Nat) : s.clearance mid level = 0 := by
  rw [clearance, le_antisymm (not_lt.mp hzero) hmin]
  ring

/-- A value kept within a bound, if there is one to keep. -/
theorem bounded_eq_min {α : Type*} [LinearOrder α] {p : Prop} [Decidable p] {x bound : α}
    (h : ¬ p → x ≤ bound) : (if p then if bound < x then bound else x else x) = min x bound := by
  split
  · split
    · rename_i hlt
      exact (min_eq_right hlt.le).symm
    · rename_i hle
      exact (min_eq_left (not_lt.mp hle)).symm
  · rename_i hp
    exact (min_eq_left (h hp)).symm

theorem bounded_eq_max {α : Type*} [LinearOrder α] {p : Prop} [Decidable p] {x bound : α}
    (h : ¬ p → bound ≤ x) : (if p then if x < bound then bound else x else x) = max x bound :=
  bounded_eq_min (α := αᵒᵈ) h

theorem bidPrice_eq (hmin : 0 ≤ s.config.minHalfSpreadBps) (hbest : best ≤ mid) :
    s.bidPrice tick mid best fair half position level =
      Grid.floorTo tick
        (min (min (fair - s.depthTick half position level * tick) best)
          (mid - s.clearance mid level)) := by
  have hdistance : mid * (1 - s.config.minHalfSpreadBps * s.multiplier level / 10000) =
      mid - s.clearance mid level := by
    unfold clearance
    ring
  unfold bidPrice
  dsimp only
  rw [hdistance, bounded_eq_min]
  · rfl
  · intro hzero
    rw [clearance_eq_zero hmin hzero, sub_zero]
    exact (min_le_right _ _).trans hbest

theorem askPrice_eq (hmin : 0 ≤ s.config.minHalfSpreadBps) (hbest : mid ≤ best) :
    s.askPrice tick mid best fair half position level =
      Grid.ceilTo tick
        (max (max (fair + s.depthTick half (-position) level * tick) best)
          (mid + s.clearance mid level)) := by
  have hdistance : mid * (1 + s.config.minHalfSpreadBps * s.multiplier level / 10000) =
      mid + s.clearance mid level := by
    unfold clearance
    ring
  have hturned : 1 - s.config.skew * position = 1 + s.config.skew * -position := by ring
  unfold askPrice
  dsimp only
  rw [hdistance, bounded_eq_max, hturned]
  · rfl
  · intro hzero
    rw [clearance_eq_zero hmin hzero, add_zero]
    exact hbest.trans (le_max_right _ _)

end Price

/-! ## What the steps preserve -/

section Steps

variable {s : ObiStrategy} {tick mid : ℚ}

theorem multiplier_one_le (h : s.config.Priced) (level : Nat) : 1 ≤ s.multiplier level := by
  unfold multiplier
  split
  · exact le_rfl
  · exact h.multiplier_gt.le

/-- The multipliers grow outwards. -/
theorem multiplier_mono (h : s.config.Priced) {level level' : Nat} (hle : level ≤ level') :
    s.multiplier level ≤ s.multiplier level' := by
  unfold multiplier
  split
  · split
    · exact le_rfl
    · exact h.multiplier_gt.le
  · rename_i hne
    rw [if_neg (by omega)]

theorem baseHalfSpreadTick_nonneg (s : ObiStrategy) (htick : 0 < tick) (hmid : 0 < mid) :
    0 ≤ s.baseHalfSpreadTick tick mid := by
  unfold baseHalfSpreadTick
  split
  · rename_i hvol
    exact div_nonneg (mul_nonneg hvol.2.le hvol.1.le) htick.le
  · split
    · rename_i hbps
      exact div_nonneg (mul_nonneg hmid.le (div_nonneg hbps.le (by norm_num))) htick.le
    · split
      · rename_i hspread
        exact div_nonneg hspread.le htick.le
      · exact zero_le_one

theorem clearance_mono (h : s.config.Priced) (hmid : 0 < mid) {level level' : Nat}
    (hle : level ≤ level') :
    s.clearance mid level ≤ s.clearance mid level' := by
  have hmultiplier := multiplier_mono h hle
  have hbase := mul_nonneg hmid.le h.minHalfSpreadBps_nonneg
  exact div_le_div_of_nonneg_right (mul_le_mul_of_nonneg_left hmultiplier hbase) (by norm_num)

/-- The depth grows with the position. -/
theorem depthTick_mono (h : s.config.Priced) {half : ℚ} (hhalf : 0 ≤ half) (level : Nat) {p p' : ℚ}
    (hp : p ≤ p') :
    s.depthTick half p level ≤ s.depthTick half p' level := by
  have hbase := mul_nonneg hhalf (zero_le_one.trans (multiplier_one_le h level))
  have hskewed := mul_le_mul_of_nonneg_left hp h.skew_nonneg
  exact max_le_max (mul_le_mul_of_nonneg_left (by linarith) hbase) le_rfl

/-- The depth grows outwards: a negative one is cut off at both levels. -/
theorem depthTick_mono_level (h : s.config.Priced) {half : ℚ} (hhalf : 0 ≤ half) (p : ℚ)
    {level level' : Nat} (hle : level ≤ level') :
    s.depthTick half p level ≤ s.depthTick half p level' := by
  have hmultiplier := mul_le_mul_of_nonneg_left (multiplier_mono h hle) hhalf
  unfold depthTick
  rcases le_total 0 (1 + s.config.skew * p) with hsign | hsign
  · exact max_le_max (mul_le_mul_of_nonneg_right hmultiplier hsign) le_rfl
  · have hbase := mul_nonneg hhalf (zero_le_one.trans (multiplier_one_le h level))
    rw [max_eq_right (mul_nonpos_of_nonneg_of_nonpos hbase hsign)]
    exact le_max_right _ _

theorem c1Price_nonneg (h : s.config.Priced) (htick : 0 < tick) : 0 ≤ s.config.c1Price tick := by
  unfold StrategyConfig.c1Price
  split
  · exact h.c1_nonneg
  · exact mul_nonneg h.c1Ticks_nonneg htick.le

end Steps

/-! ## The quote -/

section Quote

variable (s : ObiStrategy) (r : Readings) (mid : ℚ)

/-- `max_position_dollar` of `calculate_quote`. -/
def positionNorm (r : Readings) : ℚ := ((r.equity.map (·.maxPositionDollar)).filter (0 < ·)).getD f64Max

/-- `clamped_position` of `calculate_quote`. -/
def clampedPosition : ℚ := max (min (s.position * mid / positionNorm r) 1) (-1)

/-- `fair_price` of `calculate_quote`. -/
def fairPrice : ℚ := mid + s.config.c1Price (s.tickSize r) * s.alpha

/-- The bid of a level of the quote, as one expression. -/
def quotedBid (bestBid : ℚ) (level : Nat) : ℚ :=
  Grid.floorTo (s.tickSize r)
    (min (min (s.fairPrice r mid -
      s.depthTick (s.baseHalfSpreadTick (s.tickSize r) mid) (s.clampedPosition r mid) level * s.tickSize r) bestBid)
      (mid - s.clearance mid level))

/-- The ask of a level of the quote, as one expression. -/
def quotedAsk (bestAsk : ℚ) (level : Nat) : ℚ :=
  Grid.ceilTo (s.tickSize r)
    (max (max (s.fairPrice r mid +
      s.depthTick (s.baseHalfSpreadTick (s.tickSize r) mid) (-s.clampedPosition r mid) level * s.tickSize r) bestAsk)
      (mid + s.clearance mid level))

variable {s r mid}

theorem f64Max_pos : 0 < f64Max := by
  have hpow : (2 : ℚ) ^ 971 < 2 ^ 1024 := pow_lt_pow_right₀ (by norm_num) (by norm_num)
  exact sub_pos.mpr hpow

theorem positionNorm_pos (r : Readings) : 0 < positionNorm r := by
  unfold positionNorm
  cases hlimit : (r.equity.map (·.maxPositionDollar)).filter (0 < ·) with
  | none => exact f64Max_pos
  | some limit => exact of_decide_eq_true (Option.filter_eq_some_iff.mp hlimit).2

theorem clampedPosition_mono {p p' : ℚ} (hmid : 0 < mid) (hp : p ≤ p') :
    (s.setPosition p).clampedPosition r mid ≤ (s.setPosition p').clampedPosition r mid := by
  have hnormalized : p * mid / positionNorm r ≤ p' * mid / positionNorm r :=
    div_le_div_of_nonneg_right (mul_le_mul_of_nonneg_right hp hmid.le) (positionNorm_pos r).le
  exact max_le_max (min_le_min hnormalized le_rfl) le_rfl

variable {b : OrderbookSnapshot} {bestBid bestAsk : ℚ}

/-- A quote is made exactly if there is something to order; its prices are the expressions above. -/
theorem calculateQuote_eq (hconfig : s.config.Priced) (hb : b.Quoted bestBid bestAsk mid) :
    (s.orderQtyDollar r ≤ 0 ∧ s.calculateQuote r b mid = none) ∨
    (0 < s.orderQtyDollar r ∧ ∃ q, s.calculateQuote r b mid = some q ∧
      q.numLevels = min s.config.orderLevels MAX_ORDER_LEVELS ∧
      ∀ level : Level, level.val < q.numLevels →
        q.bidPrices level = some (s.quotedBid r mid bestBid level) ∧
        q.askPrices level = some (s.quotedAsk r mid bestAsk level)) := by
  unfold calculateQuote
  rw [hb.bid_eq, hb.ask_eq]
  dsimp only
  split
  · rename_i hdollar
    exact Or.inl ⟨hdollar, rfl⟩
  · rename_i hdollar
    refine Or.inr ⟨not_le.mp hdollar, _, rfl, rfl, fun level hlevel => ⟨?_, ?_⟩⟩
    · dsimp only
      rw [if_pos hlevel, bidPrice_eq hconfig.minHalfSpreadBps_nonneg hb.bid_lt_mid.le]
      rfl
    · dsimp only
      rw [if_pos hlevel, askPrice_eq hconfig.minHalfSpreadBps_nonneg hb.mid_lt_ask.le]
      rfl

end Quote

/-! ## Geometry -/

/-- Where the bid and the ask of a level lie. -/
structure LevelGeometry (tick mid bestBid bestAsk clearance bid ask : ℚ) : Prop where
  bid_le : bid ≤ bestBid
  ask_ge : bestAsk ≤ ask
  bid_onGrid : Grid.OnGrid tick bid
  ask_onGrid : Grid.OnGrid tick ask
  bid_clear : clearance ≤ mid - bid
  ask_clear : clearance ≤ ask - mid

section Geometry

variable {s : ObiStrategy} {r : Readings} {mid : ℚ}

theorem quoted_geometry (htick : 0 < s.tickSize r) (bestBid bestAsk : ℚ) (level : Nat) :
    LevelGeometry (s.tickSize r) mid bestBid bestAsk (s.clearance mid level) (s.quotedBid r mid bestBid level)
      (s.quotedAsk r mid bestAsk level) := by
  have hbid : s.quotedBid r mid bestBid level ≤ min (min _ bestBid) (mid - s.clearance mid level) :=
    Grid.floorTo_le htick _
  have hask : max (max _ bestAsk) (mid + s.clearance mid level) ≤ s.quotedAsk r mid bestAsk level :=
    Grid.le_ceilTo htick _
  refine ⟨hbid.trans ((min_le_left _ _).trans (min_le_right _ _)),
    ((le_max_right _ _).trans (le_max_left _ _)).trans hask, Grid.floorTo_onGrid _ _, Grid.ceilTo_onGrid _ _,
    ?_, ?_⟩
  · have := hbid.trans (min_le_right _ _)
    linarith
  · have := (le_max_right _ _).trans hask
    linarith

/-- The outer prices are never inside the inner ones. -/
theorem quoted_nested (hconfig : s.config.Priced) (htick : 0 < s.tickSize r) (hmid : 0 < mid)
    (bestBid bestAsk : ℚ) {level level' : Nat} (hle : level ≤ level') :
    s.quotedBid r mid bestBid level' ≤ s.quotedBid r mid bestBid level ∧
      s.quotedAsk r mid bestAsk level ≤ s.quotedAsk r mid bestAsk level' := by
  have hhalf := s.baseHalfSpreadTick_nonneg htick hmid
  have hclear := clearance_mono hconfig hmid hle
  have hbid := mul_le_mul_of_nonneg_right
    (depthTick_mono_level hconfig hhalf (s.clampedPosition r mid) hle) htick.le
  have hask := mul_le_mul_of_nonneg_right
    (depthTick_mono_level hconfig hhalf (-s.clampedPosition r mid) hle) htick.le
  constructor
  · exact Grid.floorTo_mono htick (min_le_min (min_le_min (by linarith) le_rfl) (by linarith))
  · exact Grid.ceilTo_mono htick (max_le_max (max_le_max (by linarith) le_rfl) (by linarith))

end Geometry

/-- Where the prices of a quote lie, between the best prices of the snapshot it was made from. -/
structure QuoteGeometry (s : ObiStrategy) (r : Readings) (mid bestBid bestAsk : ℚ)
    (q : Quote) : Prop where
  levels : ∀ level : Level, level.val < q.numLevels → ∃ bid ask, q.bidPrices level = some bid ∧
    q.askPrices level = some ask ∧
    LevelGeometry (s.tickSize r) mid bestBid bestAsk
      (mid * s.config.minHalfSpreadBps * s.multiplier level / 10000) bid ask
  nested : ∀ level level' : Level, level ≤ level' → level'.val < q.numLevels → ∃ bid bid' ask ask',
    q.bidPrices level = some bid ∧ q.bidPrices level' = some bid' ∧ bid' ≤ bid ∧
    q.askPrices level = some ask ∧ q.askPrices level' = some ask' ∧ ask ≤ ask'

/-- **Quote geometry.** -/
theorem quote_geometry {s : ObiStrategy} {r : Readings} {b : OrderbookSnapshot}
    {mid minOrderQtyDollar leverage : ℚ} {q : Quote}
    (hconfig : s.config.validate minOrderQtyDollar leverage = .ok ()) (hvalid : b.validate = true)
    (hmid : b.midPrice = some (some mid)) (htick : 0 < s.tickSize r)
    (hq : s.calculateQuote r b mid = some q) :
    ∃ bestBid bestAsk, b.bestBidPrice = some (some bestBid) ∧ b.bestAskPrice = some (some bestAsk) ∧
      bestBid < bestAsk ∧ QuoteGeometry s r mid bestBid bestAsk q := by
  obtain ⟨bestBid, bestAsk, hb⟩ := OrderbookSnapshot.quoted_of_validate hvalid hmid
  have hpriced := StrategyConfig.priced_of_validate hconfig
  rcases calculateQuote_eq (r := r) hpriced hb with ⟨_, hnone⟩ | ⟨_, q', hq', _, hprices⟩
  · exact absurd (hnone.symm.trans hq) nofun
  · obtain rfl := Option.some.inj (hq'.symm.trans hq)
    refine ⟨bestBid, bestAsk, hb.bid_eq, hb.ask_eq, hb.uncrossed, fun level hlevel => ?_,
      fun level level' hle hlevel' => ?_⟩
    · obtain ⟨hbid, hask⟩ := hprices level hlevel
      exact ⟨_, _, hbid, hask, quoted_geometry htick bestBid bestAsk level⟩
    · obtain ⟨hbid, hask⟩ := hprices level (lt_of_le_of_lt hle hlevel')
      obtain ⟨hbid', hask'⟩ := hprices level' hlevel'
      obtain ⟨houter, houter'⟩ := quoted_nested hpriced htick hb.mid_pos bestBid bestAsk hle
      exact ⟨_, _, _, _, hbid, hbid', houter, hask, hask', houter'⟩

/-! ## Monotonicity -/

/-- No price of the first quote is above that of the second. -/
structure NotAbove (q q' : Quote) : Prop where
  numLevels : q.numLevels = q'.numLevels
  prices : ∀ level : Level, level.val < q.numLevels → ∃ bid bid' ask ask',
    q.bidPrices level = some bid ∧ q'.bidPrices level = some bid' ∧ bid ≤ bid' ∧
    q.askPrices level = some ask ∧ q'.askPrices level = some ask' ∧ ask ≤ ask'

section Monotone

variable {s s' : ObiStrategy} {r : Readings} {b : OrderbookSnapshot} {mid bestBid bestAsk : ℚ}

/-- Two strategies that differ in position and alpha only. -/
structure SameMarket (s s' : ObiStrategy) : Prop where
  config : s'.config = s.config
  volatility : s'.volatility = s.volatility

/-- A fair price that is not higher and a position that is not lower move no price up. -/
theorem quoted_notAbove (hsame : SameMarket s s') (hconfig : s.config.Priced) (htick : 0 < s.tickSize r)
    (hmid : 0 < mid) (hfair : s'.fairPrice r mid ≤ s.fairPrice r mid)
    (hposition : s.clampedPosition r mid ≤ s'.clampedPosition r mid) (bestBid bestAsk : ℚ) (level : Nat) :
    s'.quotedBid r mid bestBid level ≤ s.quotedBid r mid bestBid level ∧
      s'.quotedAsk r mid bestAsk level ≤ s.quotedAsk r mid bestAsk level := by
  have hhalf := s.baseHalfSpreadTick_nonneg htick hmid
  have htick' : s'.tickSize r = s.tickSize r := by rw [tickSize, tickSize, hsame.config]
  have hhalf' : s'.baseHalfSpreadTick (s.tickSize r) mid = s.baseHalfSpreadTick (s.tickSize r) mid := by
    rw [baseHalfSpreadTick, baseHalfSpreadTick, hsame.config, hsame.volatility]
  have hclear : s'.clearance mid level = s.clearance mid level := by
    rw [clearance, clearance, multiplier, multiplier, hsame.config]
  have hdepth' : ∀ half p, s'.depthTick half p level = s.depthTick half p level := fun half p => by
    rw [depthTick, depthTick, multiplier, multiplier, hsame.config]
  have hbid := mul_le_mul_of_nonneg_right (depthTick_mono hconfig hhalf level hposition) htick.le
  have hask := mul_le_mul_of_nonneg_right (depthTick_mono hconfig hhalf level (neg_le_neg hposition)) htick.le
  unfold quotedBid quotedAsk
  rw [htick', hhalf', hclear, hdepth', hdepth']
  constructor
  · exact Grid.floorTo_mono htick (min_le_min (min_le_min (by linarith) le_rfl) le_rfl)
  · exact Grid.ceilTo_mono htick (max_le_max (max_le_max (by linarith) le_rfl) le_rfl)

theorem quote_notAbove (hsame : SameMarket s s') (hconfig : s.config.Priced) (htick : 0 < s.tickSize r)
    (hb : b.Quoted bestBid bestAsk mid) (hfair : s'.fairPrice r mid ≤ s.fairPrice r mid)
    (hposition : s.clampedPosition r mid ≤ s'.clampedPosition r mid) :
    Option.Rel NotAbove (s'.calculateQuote r b mid) (s.calculateQuote r b mid) := by
  have hdollar : s'.orderQtyDollar r = s.orderQtyDollar r := by
    rw [orderQtyDollar, orderQtyDollar, hsame.config]
  have hconfig' : s'.config.Priced := by
    rw [hsame.config]
    exact hconfig
  rcases calculateQuote_eq (r := r) hconfig hb with ⟨hzero, hnone⟩ | ⟨hpos, q, hq, hlevels, hprices⟩
  · rcases calculateQuote_eq (r := r) hconfig' hb with ⟨_, hnone'⟩ | ⟨hpos', _⟩
    · rw [hnone, hnone']
      exact .none
    · exact absurd (hdollar ▸ hpos') (not_lt.mpr hzero)
  · rcases calculateQuote_eq (r := r) hconfig' hb with ⟨hzero', _⟩ | ⟨_, q', hq', hlevels', hprices'⟩
    · exact absurd (hdollar ▸ hzero') (not_le.mpr hpos)
    · rw [hq, hq']
      have hsameLevels : q'.numLevels = q.numLevels := by rw [hlevels, hlevels', hsame.config]
      refine .some ⟨hsameLevels, fun level hlevel => ?_⟩
      obtain ⟨hbid, hask⟩ := hprices level (hsameLevels ▸ hlevel)
      obtain ⟨hbid', hask'⟩ := hprices' level hlevel
      obtain ⟨hle, hle'⟩ := quoted_notAbove hsame hconfig htick hb.mid_pos hfair hposition bestBid bestAsk level
      exact ⟨_, _, _, _, hbid', hbid, hle, hask', hask, hle'⟩

end Monotone

/-- **Monotone quotes**: in the position downwards, in the alpha upwards. -/
theorem quotes_monotone {s : ObiStrategy} {r : Readings} {b : OrderbookSnapshot}
    {mid minOrderQtyDollar leverage : ℚ} (hconfig : s.config.validate minOrderQtyDollar leverage = .ok ())
    (hvalid : b.validate = true) (hmid : b.midPrice = some (some mid)) (htick : 0 < s.tickSize r) :
    (∀ p₁ p₂, p₁ ≤ p₂ → Option.Rel NotAbove ((s.setPosition p₂).calculateQuote r b mid)
      ((s.setPosition p₁).calculateQuote r b mid)) ∧
    ∀ a₁ a₂, a₁ ≤ a₂ → Option.Rel NotAbove (({ s with alpha := a₁ } : ObiStrategy).calculateQuote r b mid)
      (({ s with alpha := a₂ } : ObiStrategy).calculateQuote r b mid) := by
  obtain ⟨bestBid, bestAsk, hb⟩ := OrderbookSnapshot.quoted_of_validate hvalid hmid
  have hpriced := StrategyConfig.priced_of_validate hconfig
  refine ⟨fun p₁ p₂ hp => ?_, fun a₁ a₂ ha => ?_⟩
  · exact quote_notAbove (s := s.setPosition p₁) ⟨rfl, rfl⟩ hpriced htick hb le_rfl
      (clampedPosition_mono hb.mid_pos hp)
  · have hfair := mul_le_mul_of_nonneg_left ha (c1Price_nonneg hpriced htick)
    have hraised : ({ s with alpha := a₁ } : ObiStrategy).fairPrice r mid ≤
        ({ s with alpha := a₂ } : ObiStrategy).fairPrice r mid := add_le_add_right hfair mid
    exact quote_notAbove (s := { s with alpha := a₂ }) ⟨rfl, rfl⟩ hpriced htick hb hraised le_rfl

/-! ## A quote -/

/-- A strategy with two levels at the default settings. -/
def twoLevels : ObiStrategy := .new { StrategyConfig.default with orderLevels := 2 } 0 5

/-- A snapshot with one level a side. -/
def oneTick : OrderbookSnapshot := ⟨"BTC-USD", 1, 1, 1, [⟨some 9999, some 1⟩], [⟨some 10001, some 1⟩]⟩

/-- The equity has been read. -/
def funded : Readings :=
  ⟨some (1 / 100, 1 / 1000), some ((SharedEquity.new 2 10 1).setEquity (some 1000) 1), none, 1⟩

theorem twoLevels_valid : twoLevels.config.validate 10 1 = .ok () := by decide +kernel

theorem quote_geometry_two : ∃ q, twoLevels.calculateQuote funded oneTick 10000 = some q ∧
    ∃ bestBid bestAsk, oneTick.bestBidPrice = some (some bestBid) ∧ oneTick.bestAskPrice = some (some bestAsk) ∧
      bestBid < bestAsk ∧ QuoteGeometry twoLevels funded 10000 bestBid bestAsk q := by
  have hsome : (twoLevels.calculateQuote funded oneTick 10000).isSome = true := by decide +kernel
  obtain ⟨q, hq⟩ := Option.isSome_iff_exists.mp hsome
  exact ⟨q, hq, quote_geometry twoLevels_valid (by decide +kernel) (by decide +kernel) (by decide +kernel) hq⟩

/-- A position from -1 to 1, and an alpha from -1 to 1. -/
theorem quotes_monotone_two :
    Option.Rel NotAbove ((twoLevels.setPosition 1).calculateQuote funded oneTick 10000)
      ((twoLevels.setPosition (-1)).calculateQuote funded oneTick 10000) ∧
    Option.Rel NotAbove (({ twoLevels with alpha := -1 } : ObiStrategy).calculateQuote funded oneTick 10000)
      (({ twoLevels with alpha := 1 } : ObiStrategy).calculateQuote funded oneTick 10000) := by
  have hvalid : oneTick.validate = true := by decide +kernel
  have hmid : oneTick.midPrice = some (some 10000) := by decide +kernel
  have htick : 0 < twoLevels.tickSize funded := by decide +kernel
  have hmonotone := quotes_monotone twoLevels_valid hvalid hmid htick
  exact ⟨hmonotone.1 (-1) 1 (by norm_num), hmonotone.2 (-1) 1 (by norm_num)⟩

end ObiStrategy

end MarketMaker
