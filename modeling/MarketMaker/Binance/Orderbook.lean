import Std.Data.ExtTreeMap.Lemmas
import Mathlib.Order.Compare
import MarketMaker.Trading.Types

/-!
# The Binance order book

`BinanceOrderbook` of `src/binance/orderbook.rs` with the messages it reads (`messages.rs`).  Each
side is an ordered map from price to quantity.  A call leaves the book as it is at the point of an
error, so every operation returns the book beside its result.

`parse` is the `f64` parser of the `fast_float` package.  The ids are `u64`; `+ 1` wraps.
-/

set_option autoImplicit false

namespace MarketMaker

open Word64

/-- `BinanceDepthSnapshot`. -/
structure BinanceDepthSnapshot where
  lastUpdateId : Nat
  bids : List (String × String)
  asks : List (String × String)
  deriving DecidableEq

/-- `BinanceDepthUpdate`. -/
structure BinanceDepthUpdate where
  eventTime : Nat
  firstUpdateId : Nat
  finalUpdateId : Nat
  prevFinalUpdateId : Option Nat
  bids : List (String × String)
  asks : List (String × String)
  deriving DecidableEq

/-- `is_futures`. -/
def BinanceDepthUpdate.isFutures (u : BinanceDepthUpdate) : Bool := u.prevFinalUpdateId.isSome

/-- The errors of `parse_level`. -/
inductive ParseError where
  | invalidPrice (s : String)
  | invalidQuantity (s : String)
  deriving DecidableEq

/-- `parse_level`. -/
def parseLevel (parse : String → Option F64) (level : String × String) : Except ParseError (ℚ × ℚ) :=
  match parse level.1 with
  | none => .error (.invalidPrice level.1)
  | some price =>
    match parse level.2 with
    | none => .error (.invalidQuantity level.2)
    | some qty =>
      match price, qty with
      | none, _ => .error (.invalidPrice level.1)
      | some _, none => .error (.invalidQuantity level.2)
      | some price, some qty => .ok (price, qty)

/-- The errors of `SyncError` that the book raises. -/
inductive SyncError where
  | sequenceGap (expected got : Nat)
  | sequenceBreak (expected got : Nat)
  | parse (e : ParseError)
  deriving DecidableEq

instance ratCompare_transCmp : Std.TransCmp (compare : ℚ → ℚ → Ordering) := inferInstance

/-- `BTreeMap<OrderedFloat<f64>, f64>`, with finite keys and values. -/
abbrev Levels := Std.ExtTreeMap ℚ ℚ

/-- The loop over the levels of one side; it stops at the first that does not parse. -/
def forLevels (parse : String → Option F64) (store : Levels → ℚ × ℚ → Levels) (m : Levels) :
    List (String × String) → Levels × Except SyncError Unit
  | [] => (m, .ok ())
  | level :: rest =>
    match parseLevel parse level with
    | .error e => (m, .error (.parse e))
    | .ok entry => forLevels parse store (store m entry) rest

/-- `BinanceOrderbook`. -/
structure BinanceOrderbook where
  symbol : String
  bids : Levels
  asks : Levels
  snapshotUpdateId : Nat
  lastUpdateId : Nat
  isSynced : Bool
  lastEventTime : Nat

namespace BinanceOrderbook

/-- `BinanceOrderbook::new`. -/
def new (symbol : String) : BinanceOrderbook where
  symbol := symbol
  bids := ∅
  asks := ∅
  snapshotUpdateId := 0
  lastUpdateId := 0
  isSynced := false
  lastEventTime := 0

/-- A level of a snapshot: inserted if `qty > 0.0`. -/
def storeSnapshot (m : Levels) (entry : ℚ × ℚ) : Levels :=
  if 0 < entry.2 then m.insert entry.1 entry.2 else m

/-- A level of an update: removed if `qty == 0.0`, inserted otherwise. -/
def storeDelta (m : Levels) (entry : ℚ × ℚ) : Levels :=
  if entry.2 = 0 then m.erase entry.1 else m.insert entry.1 entry.2

/-- Both loops, bids first. -/
def storeLevels (parse : String → Option F64) (store : Levels → ℚ × ℚ → Levels) (b : BinanceOrderbook)
    (bids asks : List (String × String)) : BinanceOrderbook × Except SyncError Unit :=
  match forLevels parse store b.bids bids with
  | (m, .error e) => ({ b with bids := m }, .error e)
  | (m, .ok ()) =>
    match forLevels parse store b.asks asks with
    | (m', r) => ({ b with bids := m, asks := m' }, r)

/-- `init_from_snapshot`. -/
def initFromSnapshot (parse : String → Option F64) (b : BinanceOrderbook)
    (snapshot : BinanceDepthSnapshot) :
    BinanceOrderbook × Except SyncError Unit :=
  match storeLevels parse storeSnapshot { b with bids := ∅, asks := ∅ } snapshot.bids snapshot.asks with
  | (b, .error e) => (b, .error e)
  | (b, .ok ()) =>
    ({ b with
        snapshotUpdateId := snapshot.lastUpdateId
        lastUpdateId := snapshot.lastUpdateId
        isSynced := false }, .ok ())

/-- The end of `apply_update`: the deltas are stored, then the ids. -/
def applyDeltas (parse : String → Option F64) (b : BinanceOrderbook) (update : BinanceDepthUpdate) :
    BinanceOrderbook × Except SyncError Bool :=
  match storeLevels parse storeDelta b update.bids update.asks with
  | (b, .error e) => (b, .error e)
  | (b, .ok ()) =>
    ({ b with lastUpdateId := update.finalUpdateId, lastEventTime := update.eventTime }, .ok true)

/-- `sync_ok`: the update reaches over the snapshot. -/
def syncOk (b : BinanceOrderbook) (update : BinanceDepthUpdate) : Bool :=
  if update.isFutures then
    decide (update.firstUpdateId ≤ b.snapshotUpdateId) && decide (b.snapshotUpdateId ≤ update.finalUpdateId)
  else
    decide (update.firstUpdateId ≤ wrappingAdd b.snapshotUpdateId 1) &&
      decide (b.snapshotUpdateId < update.finalUpdateId)

/-- The continuity test of a synced book; `none` if it passes. -/
def continuity (b : BinanceOrderbook) (update : BinanceDepthUpdate) : Option SyncError :=
  if update.isFutures then
    match update.prevFinalUpdateId with
    | some pu => if pu ≠ b.lastUpdateId then some (.sequenceBreak b.lastUpdateId pu) else none
    | none => some (.sequenceBreak b.lastUpdateId 0)
  else if update.firstUpdateId ≠ wrappingAdd b.lastUpdateId 1 then
    some (.sequenceBreak (wrappingAdd b.lastUpdateId 1) update.firstUpdateId)
  else none

/-- `apply_update`. -/
def applyUpdate (parse : String → Option F64) (b : BinanceOrderbook) (update : BinanceDepthUpdate) :
    BinanceOrderbook × Except SyncError Bool :=
  if update.finalUpdateId < b.snapshotUpdateId then (b, .ok false)
  else if b.isSynced then
    match b.continuity update with
    | some e => (b, .error e)
    | none => b.applyDeltas parse update
  else if b.syncOk update then { b with isSynced := true }.applyDeltas parse update
  else if update.isFutures then
    if b.snapshotUpdateId < update.firstUpdateId then
      (b, .error (.sequenceGap b.snapshotUpdateId update.firstUpdateId))
    else (b, .ok false)
  else if wrappingAdd b.snapshotUpdateId 1 < update.firstUpdateId then
    (b, .error (.sequenceGap b.snapshotUpdateId update.firstUpdateId))
  else (b, .ok false)

/-- The stored levels of a side. -/
def side (b : BinanceOrderbook) : Side → Levels
  | .buy => b.bids
  | .sell => b.asks

end BinanceOrderbook

end MarketMaker
