import MarketMaker.Trading.Types

/-!
# Order book snapshots

`OrderbookSnapshot` of `types.rs`.  The fixed arrays with their counts are lists; a price or
quantity may be non-finite, and `validate` is what rules that out.  The texts of its errors are
read nowhere, so it is a `Bool`.
-/

set_option autoImplicit false

namespace MarketMaker

structure PriceLevel where
  price : F64
  quantity : F64
  deriving DecidableEq

/-- `level.price` and `level.quantity` are finite and positive. -/
def PriceLevel.positive (l : PriceLevel) : Bool :=
  l.price.any (fun p => decide (0 < p)) && l.quantity.any fun q => decide (0 < q)

/-- `MAX_LEVELS`. -/
def MAX_LEVELS : Nat := 50

/-- `OrderbookSnapshot`: the levels are `bids[..bid_count]` and `asks[..ask_count]`, best first. -/
structure OrderbookSnapshot where
  symbol : String
  timestampNs : Int
  receivedAtNs : Int
  sequence : Nat
  bids : List PriceLevel
  asks : List PriceLevel
  deriving DecidableEq

namespace OrderbookSnapshot

/-- `best_bid_price`. -/
def bestBidPrice (b : OrderbookSnapshot) : Option F64 := b.bids.head?.map (·.price)

/-- `best_ask_price`. -/
def bestAskPrice (b : OrderbookSnapshot) : Option F64 := b.asks.head?.map (·.price)

/-- `mid_price`. -/
def midPrice (b : OrderbookSnapshot) : Option F64 :=
  match b.bestBidPrice, b.bestAskPrice with
  | some bid, some ask => some (bid.bind fun bid => ask.map fun ask => (bid + ask) / 2)
  | _, _ => none

/-- Neighbouring prices are in the given order; only asked once all are finite. -/
def sorted (le : ℚ → ℚ → Bool) : List PriceLevel → Bool
  | l :: l' :: ls => le (l.price.getD 0) (l'.price.getD 0) && sorted le (l' :: ls)
  | _ => true

/-- `best_bid < best_ask`. -/
def uncrossed (b : OrderbookSnapshot) : Bool :=
  match b.bestBidPrice, b.bestAskPrice with
  | some (some bid), some (some ask) => decide (bid < ask)
  | _, _ => true

/-- `validate().is_ok()`. -/
def validate (b : OrderbookSnapshot) : Bool :=
  !b.bids.isEmpty && !b.asks.isEmpty && decide (b.bids.length ≤ MAX_LEVELS) &&
    decide (b.asks.length ≤ MAX_LEVELS) && (b.bids ++ b.asks).all PriceLevel.positive &&
    sorted (fun p q => decide (q ≤ p)) b.bids && sorted (fun p q => decide (p ≤ q)) b.asks && b.uncrossed

/-- A snapshot that validates has positive best prices that do not cross. -/
theorem best_of_validate {b : OrderbookSnapshot} (h : b.validate = true) :
    ∃ p q, b.bestBidPrice = some (some p) ∧ b.bestAskPrice = some (some q) ∧ 0 < p ∧ p < q := by
  simp only [validate, Bool.and_eq_true, Bool.not_eq_true'] at h
  obtain ⟨⟨⟨⟨⟨⟨⟨hbids, hasks⟩, _⟩, _⟩, hpositive⟩, _⟩, _⟩, huncrossed⟩ := h
  cases hb : b.bids with
  | nil => simp [hb] at hbids
  | cons bid bids =>
    cases ha : b.asks with
    | nil => simp [ha] at hasks
    | cons ask asks =>
      rw [hb, ha, List.all_eq_true] at hpositive
      have hbid := hpositive bid (by simp)
      have hask := hpositive ask (by simp)
      simp only [PriceLevel.positive, Bool.and_eq_true] at hbid hask
      obtain ⟨p, hp, hpos⟩ := (Option.any_eq_true _ _).mp hbid.1
      obtain ⟨q, hq, _⟩ := (Option.any_eq_true _ _).mp hask.1
      have hbest : b.bestBidPrice = some (some p) := by simp [bestBidPrice, hb, hp]
      have hbest' : b.bestAskPrice = some (some q) := by simp [bestAskPrice, ha, hq]
      rw [uncrossed, hbest, hbest'] at huncrossed
      exact ⟨p, q, hbest, hbest', of_decide_eq_true hpos, of_decide_eq_true huncrossed⟩

/-- Its mid price is finite. -/
theorem exists_midPrice {b : OrderbookSnapshot} (h : b.validate = true) :
    ∃ mid, b.midPrice = some (some mid) := by
  obtain ⟨p, q, hbid, hask, _⟩ := best_of_validate h
  exact ⟨(p + q) / 2, by rw [midPrice, hbid, hask]; rfl⟩

end OrderbookSnapshot

end MarketMaker
