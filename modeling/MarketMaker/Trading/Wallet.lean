import Mathlib.Algebra.Order.Group.Unbundled.Abs
import MarketMaker.Base.Csv
import MarketMaker.Base.Decimal
import MarketMaker.Base.Run
import MarketMaker.Trading.Types

/-!
# The wallet tracker

`TradingStats` (`trading/mod.rs`), the position poller that feeds it (`position.rs`) and the wallet
tracker (`wallet_tracker.rs`) that appends them to a CSV file and reads them back when the process
starts again.

A process ends at any point (`crashed`): all that is in memory goes, the file stays.  A row is
appended as a whole or not at all, and balance or file texts that read as NaN or an infinity are
outside of the model (`readNumber` gives `none`).
-/

set_option autoImplicit false

namespace MarketMaker

open Word64 Text

/-! ## Trading statistics -/

/-- `TradingStats`. -/
structure TradingStats where
  totalVolume : ℚ
  totalVolumeUsd : ℚ
  midPrice : ℚ
  tradeCount : Nat
  deriving DecidableEq

namespace TradingStats

/-- `TradingStats::default`. -/
def new : TradingStats := ⟨0, 0, 0, 0⟩

/-- `TradingStats::add_volume`. -/
def addVolume (t : TradingStats) (qty price : ℚ) : TradingStats :=
  { t with totalVolume := t.totalVolume + |qty|, totalVolumeUsd := t.totalVolumeUsd + |qty| * price }

/-- `TradingStats::set_mid_price`. -/
def setMidPrice (t : TradingStats) (price : ℚ) : TradingStats := { t with midPrice := price }

/-- `TradingStats::set_initial_volumes`. -/
def setInitialVolumes (t : TradingStats) (volume volumeUsd : ℚ) : TradingStats :=
  { t with totalVolume := volume, totalVolumeUsd := volumeUsd }

/-- `TradingStats::increment_trade_count`. -/
def incrementTradeCount (t : TradingStats) : TradingStats := { t with tradeCount := wrappingAdd t.tradeCount 1 }

/-- `TradingStats::set_initial_trade_count`. -/
def setInitialTradeCount (t : TradingStats) (count : Nat) : TradingStats := { t with tradeCount := count }

end TradingStats

/-! ## The position poller -/

/-- What the poller reads of a `Position`. -/
structure Position where
  symbol : String
  qty : String
  deriving DecidableEq

/-- `PositionPoller::poll_position`, given what the query answered. -/
def pollPosition (symbol : String) (answer : Except String (List Position)) : Except String ℚ :=
  match answer with
  | .error e => .error e
  | .ok positions =>
    match positions.find? fun p => p.symbol = symbol with
    | none => .ok 0
    | some p =>
      match parseF64 p.qty with
      | none => .error ("Failed to parse position qty '" ++ p.qty ++ "': " ++ parseFloatError p.qty)
      | some none => .error "nonfinite position quantity"
      | some (some qty) => .ok qty

/-! ## Records -/

/-- What `to_rfc3339` gives: no separator, nothing of a line end. -/
structure Timestamp where
  text : String
  plain : (text.toList.all fun c => c != ',' && c != '\n' && c != '\r') = true

/-- `WalletRecord`. -/
structure WalletRecord where
  timestamp : Timestamp
  equity : ℚ
  crossBalance : ℚ
  unrealizedPnl : ℚ
  pnlPercent : ℚ
  positionUsd : ℚ
  totalVolume : ℚ
  totalVolumeUsd : ℚ
  tradeCount : Nat

/-- The fields `append_csv` writes. -/
def WalletRecord.fields (r : WalletRecord) : List (List Char) :=
  [r.timestamp.text.toList, (Decimal.fixed 8 r.equity).toList, (Decimal.fixed 8 r.crossBalance).toList,
    (Decimal.fixed 8 r.unrealizedPnl).toList, (Decimal.fixed 4 r.pnlPercent).toList,
    (Decimal.fixed 2 r.positionUsd).toList, (Decimal.fixed 8 r.totalVolume).toList,
    (Decimal.fixed 2 r.totalVolumeUsd).toList, (toString r.tradeCount).toList]

/-- The names of the fields, as `ensure_csv_header` writes them. -/
def csvHeader : List Char :=
  "timestamp,equity,cross_balance,unrealized_pnl,pnl_percent,position_usd,total_volume,total_volume_usd,trade_count".toList

/-- A number in a text; `some none` where parsing fails. -/
def readNumber (text : String) : Option (Option ℚ) :=
  match parseF64 text with
  | none => some none
  | some none => none
  | some (some q) => some (some q)

/-- A number in a row; `some none` also where the row is too short. -/
def fieldNumber (fields : List (List Char)) (i : Nat) : Option (Option ℚ) :=
  match fields[i]? with
  | none => some none
  | some text => readNumber (String.ofList text)

/-- `WalletTracker::load_reference_from_csv` on the contents of the file: the reference equity and the
    statistics afterwards. -/
def loadReferenceFromCsv (contents : List Char) (reference : Option ℚ) (stats : TradingStats) :
    Option (Option ℚ × TradingStats) :=
  match Csv.lines contents with
  | _ :: first :: rest => do
    let lastFields := Csv.fields ((first :: rest).getLastD [])
    let equity ← fieldNumber (Csv.fields first) 1
    let volume ← fieldNumber lastFields 6
    let volumeUsd ← fieldNumber lastFields 7
    let tradeCount := (lastFields[8]?.bind parseU64).getD 0
    let reference := if 0 < equity.getD 0 then equity else reference
    if 0 < volume.getD 0 ∨ 0 < volumeUsd.getD 0 ∨ 0 < tradeCount then
      some (reference,
        (stats.setInitialVolumes (volume.getD 0) (volumeUsd.getD 0)).setInitialTradeCount tradeCount)
    else some (reference, stats)
  | _ => some (reference, stats)

/-- What a start has afterwards: nothing is read of a file that is not there or that cannot be read. -/
def loadReference (file : Option (List Char)) (readable : Bool) (reference : Option ℚ) (stats : TradingStats) :
    Option (Option ℚ × TradingStats) :=
  match file with
  | none => some (reference, stats)
  | some contents => if readable then loadReferenceFromCsv contents reference stats else some (reference, stats)

/-! ## The process and its file -/

/-- What `Balance` carries for the tracker. -/
structure Balance where
  equity : Option String
  crossBalance : Option String
  upnl : Option String
  deriving DecidableEq

/-- `as_ref().and_then(|s| s.parse::<f64>().ok()).unwrap_or(0.0)`. -/
def balanceNumber : Option String → Option ℚ
  | none => some 0
  | some text => (readNumber text).map fun q => q.getD 0

/-- The symbol whose position the tracker shows, and the constants of `SharedEquity::new`. -/
structure WalletSetup where
  symbol : String
  orderLevels : Nat
  minOrderQtyDollar : ℚ
  leverage : ℚ
  deriving DecidableEq

/-- The pollers (`lastPosition`), what they and the tracker share, the tracker (`running`,
    `referenceEquity`) and the file it writes. -/
structure WalletState where
  stats : TradingStats
  lastPosition : String → ℚ
  positions : String → SharedPosition
  equity : SharedEquity
  running : Bool
  referenceEquity : Option ℚ
  file : Option (List Char)

/-- What becomes of the header of a file that does not exist: the file is not created, its header is
    not written, or all goes well. -/
inductive HeaderWrite where
  | uncreated
  | unwritten
  | written
  deriving DecidableEq

/-- An accepted snapshot with a mid price, a poll, the start of the tracker, a fetch (`none` where the
    query failed) whose row was appended or not, and the end of the process. -/
inductive WalletEvent where
  | midPrice (price : ℚ)
  | polled (symbol : String) (answer : Except String (List Position)) (nowMs : Nat)
  | started (readable : Bool) (header : HeaderWrite)
  | fetched (balance : Option Balance) (timestamp : Timestamp) (nowMs : Nat) (written : Bool)
  | crashed

namespace WalletSetup

variable (w : WalletSetup)

/-- A process that has just started, on a file. -/
def boot (file : Option (List Char)) : WalletState where
  stats := TradingStats.new
  lastPosition := fun _ => 0
  positions := fun _ => SharedPosition.new
  equity := SharedEquity.new w.orderLevels w.minOrderQtyDollar w.leverage
  running := false
  referenceEquity := none
  file := file

/-- The reference a fetch leaves. -/
def nextReference (reference : Option ℚ) (equity : ℚ) : Option ℚ :=
  if reference = none ∧ 0 < equity then some equity else reference

/-- The profit in percent of the reference. -/
def pnlPercent (reference : Option ℚ) (equity : ℚ) : ℚ :=
  match reference with
  | some ref => if 0 < ref then (equity - ref) / ref * 100 else 0
  | none => 0

/-- The record of a fetch. -/
def record (s : WalletState) (balance : Balance) (timestamp : Timestamp) : Option WalletRecord := do
  let equity ← balanceNumber balance.equity
  let crossBalance ← balanceNumber balance.crossBalance
  let upnl ← balanceNumber balance.upnl
  some {
    timestamp := timestamp
    equity := equity
    crossBalance := crossBalance
    unrealizedPnl := upnl
    pnlPercent := pnlPercent (nextReference s.referenceEquity equity) equity
    positionUsd := (s.positions w.symbol).position * s.stats.midPrice
    totalVolume := s.stats.totalVolume
    totalVolumeUsd := s.stats.totalVolumeUsd
    tradeCount := s.stats.tradeCount }

/-- `WalletTracker::append_csv`. -/
def appendCsv (file : Option (List Char)) (r : WalletRecord) : List Char :=
  file.getD [] ++ (Csv.row r.fields ++ ['\n'])

/-- `WalletTracker::ensure_csv_header`. -/
def ensureCsvHeader (file : Option (List Char)) (header : HeaderWrite) : Option (List Char) :=
  match file with
  | some contents => some contents
  | none =>
    match header with
    | .uncreated => none
    | .unwritten => some []
    | .written => some (csvHeader ++ ['\n'])

/-- One round of `PositionPoller::run`. -/
def poll (s : WalletState) (symbol : String) (position : ℚ) (nowMs : Nat) : WalletState :=
  let delta := |position - s.lastPosition symbol|
  { s with
    stats := if 1 / 100000000 < delta then (s.stats.addVolume delta s.stats.midPrice).incrementTradeCount else s.stats
    lastPosition := Function.update s.lastPosition symbol position
    positions := Function.update s.positions symbol ((s.positions symbol).set position nowMs) }

/-- What one event does; `none` where it cannot happen. -/
def step (s : WalletState) : WalletEvent → Option WalletState
  | .midPrice price => some { s with stats := s.stats.setMidPrice price }
  | .polled symbol answer nowMs =>
    match pollPosition symbol answer with
    | .error _ => some s
    | .ok position => some (poll s symbol position nowMs)
  | .started readable header =>
    if s.running then none else
    (loadReference s.file readable s.referenceEquity s.stats).map fun l =>
      { s with running := true, referenceEquity := l.1, stats := l.2, file := ensureCsvHeader s.file header }
  | .fetched balance timestamp nowMs written =>
    if !s.running then none else
    match balance with
    | none => some s
    | some balance =>
      (w.record s balance timestamp).map fun r =>
        { s with
          referenceEquity := nextReference s.referenceEquity r.equity
          equity := if 0 < r.equity then s.equity.setEquity (some r.equity) nowMs else s.equity
          file := if written then some (appendCsv s.file r) else s.file }
  | .crashed => some (w.boot s.file)

/-- The row an event adds to the file. -/
def added (s : WalletState) : WalletEvent → Option WalletRecord
  | .fetched (some balance) timestamp _ true => w.record s balance timestamp
  | _ => none

/-- The rows a run has added, on top of those there were. -/
def history (rs : List WalletRecord) (s : WalletState) (es : List WalletEvent) : List WalletRecord :=
  Runs.gather w.step (fun rs s e => rs ++ (w.added s e).toList) rs s es

end WalletSetup

end MarketMaker
