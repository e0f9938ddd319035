import MarketMaker.Strategy.Obi

/-!
# Validated configurations

The checks of `Config::validate` on the strategy section, in their order and with their messages.
`min_order_qty_dollar` and `leverage` are not read by the strategy and are arguments here; that the
numbers are finite is their type.
-/

set_option autoImplicit false

namespace MarketMaker.StrategyConfig

/-- What is refused, and the message. -/
def checks (c : StrategyConfig) (minOrderQtyDollar leverage : ℚ) : List (Bool × String) :=
  [(decide (c.tickSize ≤ 0), "strategy.tick_size must be positive"),
   (c.stepNs == 0, "strategy.step_ns must be greater than 0"),
   (c.windowSteps == 0, "strategy.window_steps must be greater than 0"),
   (c.updateIntervalSteps == 0, "strategy.update_interval_steps must be greater than 0"),
   (decide (c.lookingDepth ≤ 0) || decide (1 ≤ c.lookingDepth), "strategy.looking_depth must be between 0 and 1"),
   (c.orderLevels == 0 || decide (2 < c.orderLevels), "strategy.order_levels must be 1 or 2"),
   (decide (c.spreadLevelMultiplier ≤ 1), "strategy.spread_level_multiplier must be greater than 1.0"),
   (decide (c.volToHalfSpread < 0), "strategy.vol_to_half_spread must be non-negative"),
   (decide (c.halfSpread < 0), "strategy.half_spread must be non-negative"),
   (decide (c.halfSpreadBps < 0), "strategy.half_spread_bps must be non-negative"),
   (decide (c.minHalfSpreadBps < 0), "strategy.min_half_spread_bps must be non-negative"),
   (decide (minOrderQtyDollar ≤ 0), "strategy.min_order_qty_dollar must be positive"),
   (c.maxOrderQtyDollar.any fun maxOrder => decide (maxOrder < minOrderQtyDollar),
     "strategy.max_order_qty_dollar must be finite and at least min_order_qty_dollar"),
   (decide (c.lotSize ≤ 0), "strategy.lot_size must be positive"),
   (decide (c.skew < 0), "strategy.skew must be non-negative"),
   (decide (c.c1 < 0), "strategy.c1 must be non-negative"),
   (decide (c.c1Ticks < 0), "strategy.c1_ticks must be non-negative"),
   (c.alphaSource != "binance" && c.alphaSource != "standx", "strategy.alpha_source must be 'binance' or 'standx'"),
   (decide (leverage < 1) || decide (5 < leverage), "strategy.leverage must be between 1.0 and 5.0")]

/-- The strategy part of `Config::validate`: the message of the first check that fails. -/
def validate (c : StrategyConfig) (minOrderQtyDollar leverage : ℚ) : Except String Unit :=
  match (c.checks minOrderQtyDollar leverage).find? (·.1) with
  | some (_, message) => .error message
  | none => .ok ()

theorem validate_ok_iff (c : StrategyConfig) (minOrderQtyDollar leverage : ℚ) :
    c.validate minOrderQtyDollar leverage = .ok () ↔
      ∀ check ∈ c.checks minOrderQtyDollar leverage, check.1 = false := by
  have hfind : (∀ check ∈ c.checks minOrderQtyDollar leverage, check.1 = false) ↔
      (c.checks minOrderQtyDollar leverage).find? (·.1) = none := by
    rw [List.find?_eq_none]
    simp only [Bool.not_eq_true]
  rw [hfind]
  unfold validate
  cases (c.checks minOrderQtyDollar leverage).find? (·.1) with
  | none => simp
  | some check => simp

example : StrategyConfig.default.validate 10 1 = .ok () := by decide +kernel

/-- What a validated configuration promises about prices. -/
structure Priced (c : StrategyConfig) : Prop where
  multiplier_gt : 1 < c.spreadLevelMultiplier
  halfSpread_nonneg : 0 ≤ c.halfSpread
  volToHalfSpread_nonneg : 0 ≤ c.volToHalfSpread
  halfSpreadBps_nonneg : 0 ≤ c.halfSpreadBps
  minHalfSpreadBps_nonneg : 0 ≤ c.minHalfSpreadBps
  skew_nonneg : 0 ≤ c.skew
  c1_nonneg : 0 ≤ c.c1
  c1Ticks_nonneg : 0 ≤ c.c1Ticks

theorem priced_of_validate {c : StrategyConfig} {minOrderQtyDollar leverage : ℚ}
    (h : c.validate minOrderQtyDollar leverage = .ok ()) : c.Priced := by
  have hpassed := (c.validate_ok_iff minOrderQtyDollar leverage).mp h
  simp only [checks, List.forall_mem_cons, decide_eq_false_iff_not, not_lt, not_le] at hpassed
  obtain ⟨_, _, _, _, _, _, hmultiplier, hvol, hspread, hbps, hmin, _, _, _, hskew, hc1, hticks, _⟩ := hpassed
  exact ⟨hmultiplier, hspread, hvol, hbps, hmin, hskew, hc1, hticks⟩

end MarketMaker.StrategyConfig
