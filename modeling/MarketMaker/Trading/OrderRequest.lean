import Mathlib.Data.Int.Log
import MarketMaker.Base.Decimal
import MarketMaker.Strategy.Obi
import MarketMaker.Trading.QuoteLoop

/-!
# The order request

What the executor makes of a Send: the text of the price with the decimals of the tick size, the
text of the quantity with the decimals of the lot size.

* `onQuoteInto_sends_onGrid` — a Send has a price of its quote and a whole number of lots.
* `executorRequest_says` — a request for a price of whole ticks and a quantity of whole lots is read
  back as that price and that quantity.
-/

set_option autoImplicit false

namespace MarketMaker

open Grid

/-- A size the API can give: `10.0_f64.powi(-(decimals as i32))`, the decimals in a `u8`. -/
def IsDecimalStep (step : ℚ) : Prop := ∃ decimals < 256, step = 1 / 10 ^ decimals

/-- `precision_from_step`, of a positive step. -/
def precisionFromStep (step : ℚ) : ℕ := if 1 ≤ step then 0 else (-Int.log 10 step).toNat

/-- `format_with_precision`. -/
def formatWithPrecision (value step : ℚ) : String := Decimal.fixed (precisionFromStep step) value

/-- `NewOrderRequest`. -/
structure NewOrderRequest where
  symbol : String
  side : String
  orderType : String
  qty : String
  price : String
  timeInForce : String
  reduceOnly : Bool
  clOrdId : Option String
  deriving DecidableEq

namespace NewOrderRequest

/-- `limit_with_precision`. -/
def limitWithPrecision (symbol side : String) (price qty tickSize lotSize : ℚ) (clOrdId : Option String) :
    NewOrderRequest where
  symbol := symbol
  side := side
  orderType := "limit"
  qty := formatWithPrecision qty lotSize
  price := formatWithPrecision price tickSize
  timeInForce := "gtc"
  reduceOnly := false
  clOrdId := clOrdId

/-- `post_only`. -/
def postOnly (r : NewOrderRequest) : NewOrderRequest := { r with timeInForce := "alo" }

/-- `with_client_id`. -/
def withClientId (r : NewOrderRequest) (clOrdId : String) : NewOrderRequest :=
  { r with clOrdId := some clOrdId }

/-- `post_only_buy_with_precision`. -/
def postOnlyBuyWithPrecision (symbol : String) (price qty tickSize lotSize : ℚ) : NewOrderRequest :=
  (limitWithPrecision symbol "buy" price qty tickSize lotSize none).postOnly

/-- `post_only_sell_with_precision`. -/
def postOnlySellWithPrecision (symbol : String) (price qty tickSize lotSize : ℚ) : NewOrderRequest :=
  (limitWithPrecision symbol "sell" price qty tickSize lotSize none).postOnly

end NewOrderRequest

/-- The request the executor makes of a decision: none unless it is a Send. -/
def executorRequest (symbol : String) (tickSize lotSize : ℚ) : OrderDecision → Option NewOrderRequest
  | .send .buy _ price qty clOrdId =>
    some ((NewOrderRequest.postOnlyBuyWithPrecision symbol price qty tickSize lotSize).withClientId clOrdId)
  | .send .sell _ price qty clOrdId =>
    some ((NewOrderRequest.postOnlySellWithPrecision symbol price qty tickSize lotSize).withClientId clOrdId)
  | .cancel _ | .cancelAndReplace .. | .noAction => none

/-- A post-only limit order that is read as this side, price, quantity and client id. -/
structure NewOrderRequest.Says (r : NewOrderRequest) (symbol : String) (side : Side) (price qty : ℚ)
    (clOrdId : String) : Prop where
  symbol : r.symbol = symbol
  side : r.side = match side with | .buy => "buy" | .sell => "sell"
  orderType : r.orderType = "limit"
  timeInForce : r.timeInForce = "alo"
  reduceOnly : r.reduceOnly = false
  clOrdId : r.clOrdId = some clOrdId
  price : Text.parseF64 r.price = some (some price)
  qty : Text.parseF64 r.qty = some (some qty)

/-! ## The decimals of a step -/

theorem precisionFromStep_decimal (decimals : ℕ) : precisionFromStep (1 / 10 ^ decimals) = decimals := by
  have hlog : Int.log 10 ((1 : ℚ) / 10 ^ decimals) = -(decimals : ℤ) := by
    have hpow : ((10 : ℕ) : ℚ) ^ (-(decimals : ℤ)) = 1 / 10 ^ decimals := by
      rw [zpow_neg, zpow_natCast, Nat.cast_ofNat, one_div]
    rw [← hpow]
    exact Int.log_zpow (by decide) _
  unfold precisionFromStep
  split
  · -- only `10 ^ 0` is one or more
    rename_i hone
    rcases Nat.eq_zero_or_pos decimals with rfl | hpos
    · rfl
    · have hlt : (1 : ℚ) / 10 ^ decimals < 1 :=
        (div_lt_one (Decimal.pow_pos_ten decimals)).mpr (one_lt_pow₀ (by norm_num) hpos.ne')
      exact absurd hone (not_le.mpr hlt)
  · rw [hlog, neg_neg, Int.toNat_natCast]

/-- **A value of whole steps is written exactly**, if it is a finite `f64`. -/
theorem parseF64_formatWithPrecision {value step : ℚ} (hstep : IsDecimalStep step) (hgrid : OnGrid step value)
    (hfinite : |value| ≤ f64Max) : Text.parseF64 (formatWithPrecision value step) = some (some value) := by
  obtain ⟨decimals, hdecimals, rfl⟩ := hstep
  have hexact := Decimal.rounded_of_onGrid hgrid
  have hpow : (2 : ℚ) ^ 970 < 2 ^ 971 := pow_lt_pow_right₀ (by norm_num) (by norm_num)
  have hmax : f64Max < 2 ^ 1024 - 2 ^ 970 := sub_lt_sub_left hpow _
  unfold formatWithPrecision
  rw [precisionFromStep_decimal, Decimal.parseF64_fixed (by omega) (by rw [hexact]; exact hfinite.trans_lt hmax),
    hexact]

/-- **A request of whole ticks and whole lots says what was decided.** -/
theorem executorRequest_says {symbol clOrdId : String} {side : Side} {level : Level}
    {tickSize lotSize price qty : ℚ} (htick : IsDecimalStep tickSize) (hlot : IsDecimalStep lotSize)
    (hprice : OnGrid tickSize price) (hqty : OnGrid lotSize qty) (hpriceFinite : |price| ≤ f64Max)
    (hqtyFinite : |qty| ≤ f64Max) :
    ∃ r, executorRequest symbol tickSize lotSize (.send side level price qty clOrdId) = some r ∧
      r.Says symbol side price qty clOrdId := by
  have hpriceRead := parseF64_formatWithPrecision htick hprice hpriceFinite
  have hqtyRead := parseF64_formatWithPrecision hlot hqty hqtyFinite
  cases side with
  | buy => exact ⟨_, rfl, rfl, rfl, rfl, rfl, rfl, rfl, hpriceRead, hqtyRead⟩
  | sell => exact ⟨_, rfl, rfl, rfl, rfl, rfl, rfl, rfl, hpriceRead, hqtyRead⟩

/-! ## What is sent -/

namespace OrderManager

/-- A Send at the price of its slot and of a whole number of lots, both positive. -/
def SendsOnGrid (lotSize : ℚ) (prices : Slot → F64) (d : OrderDecision) : Prop :=
  ∀ side level price qty clOrdId, d = .send side level price qty clOrdId →
    prices (side, level) = some price ∧ OnGrid lotSize qty ∧ 0 < price ∧ 0 < qty

theorem sendsOnGrid_of_not_send {lotSize : ℚ} {prices : Slot → F64} {d : OrderDecision}
    (h : d.isSend = false) : SendsOnGrid lotSize prices d := by
  rintro side level price qty clOrdId rfl
  cases h

theorem sendsOnGrid_permitted {c : OrderManagerConfig} {prices : Slot → F64} {i : Slot}
    {budget price mid quantity : ℚ} (hi : prices i = some price) (hprice : 0 < price)
    (hqty : 0 < permittedQty c budget price mid quantity) (clOrdId : String) :
    SendsOnGrid c.lotSize prices (.send i.1 i.2 price (permittedQty c budget price mid quantity) clOrdId) := by
  intro side level price' qty clOrdId' heq
  cases heq
  obtain ⟨k, -, hk⟩ := (permittedQty_permitted hprice hqty).lots
  exact ⟨hi, ⟨k, by rw [hk, Int.cast_natCast]⟩, hprice, hqty⟩

theorem quoteLevel_sendsOnGrid (m : OrderManager) (t : QuoteTerms) (now : Int) (i : Slot) :
    ∀ d ∈ (m.quoteLevel t now i).2, SendsOnGrid m.config.lotSize t.prices d := by
  intro d hd
  unfold quoteLevel at hd
  split at hd
  · cases hd
  · rename_i price hi
    split at hd
    · cases hd
    · rename_i hprice
      split at hd
      · rename_i o ho
        refine sendsOnGrid_of_not_send ?_
        dsimp only at hd
        unfold processSideLevel at hd
        simp only [ho] at hd
        split at hd
        · cases hd
          rfl
        · split at hd
          · split at hd
            · cases hd
            · cases hd
            · split at hd
              · cases hd
                rfl
              · cases hd
          · cases hd
      · rename_i hnone
        dsimp only at hd
        split at hd
        · rename_i hqty
          unfold processSideLevel at hd
          simp only [hnone] at hd
          cases hd
          exact sendsOnGrid_permitted hi (not_le.mp hprice) hqty _
        · cases hd

/-- **A quote sends its own prices and whole lots.** -/
theorem onQuoteInto_sendsOnGrid (m : OrderManager) (position limit : ℚ) (quote : Quote) (now : Int) :
    ∀ d ∈ (m.onQuoteInto position limit quote now).2, SendsOnGrid m.config.lotSize quote.price d := by
  have houtcome := m.onQuoteInto_outcome position limit quote now
  generalize m.onQuoteInto position limit quote now = r at houtcome
  cases houtcome with
  | idle =>
    intro d hd
    cases hd
  | invalidLimit _ => exact fun d hd => sendsOnGrid_of_not_send (cancelExposure_isSend _ now d hd)
  | quoted mid quantity baseline _ _ _ _ _ _ =>
    let t : QuoteTerms := ⟨quote.price, quantity, mid, position, limit, baseline⟩
    have hloop := sweep_rule (f := fun m' => m'.quoteLevel t now)
      (I := fun m' ds => m'.config = m.config ∧ ∀ d ∈ ds, SendsOnGrid m.config.lotSize quote.price d)
      (fun m' ds i ⟨hconfig, hds⟩ => ⟨(m'.quoteLevel_outcome t now i).config.trans hconfig, fun d hd => by
        rcases List.mem_append.mp hd with hold | hnew
        · exact hds d hold
        · rw [← hconfig]
          exact m'.quoteLevel_sendsOnGrid t now i d (Option.mem_toList.mp hnew)⟩)
      (m.quotedSlots quote) (m := m) ⟨rfl, fun d hd => by cases hd⟩
    exact hloop.2

end OrderManager

/-! ## What is quoted -/

/-- **The prices of a quote are whole ticks.** -/
theorem ObiStrategy.calculateQuote_onGrid {s : ObiStrategy} {r : Readings} {b : OrderbookSnapshot} {mid : ℚ}
    {quote : Quote} (h : s.calculateQuote r b mid = some quote) (i : Slot) :
    ∀ price ∈ quote.price i, OnGrid (s.tickSize r) price := by
  intro price hprice
  have hzero : OnGrid (s.tickSize r) 0 := ⟨0, by rw [Int.cast_zero, zero_mul]⟩
  unfold calculateQuote at h
  split at h
  · dsimp only at h
    split at h
    · cases h
    · cases h
      obtain ⟨side, level⟩ := i
      cases side with
      | buy =>
        dsimp only [Quote.price] at hprice
        cases hprice
        split
        · exact floorTo_onGrid _ _
        · exact hzero
      | sell =>
        dsimp only [Quote.price] at hprice
        cases hprice
        split
        · exact ceilTo_onGrid _ _
        · exact hzero
  · cases h

end MarketMaker
