import Mathlib.Algebra.Order.Ring.Rat
import MarketMaker.App.State
import MarketMaker.Base.Ledger
import MarketMaker.Base.Run
import MarketMaker.Trading.Operations

/-!
# A manager and its venue

One order manager with everything its orders pass through on the way to a position: the queue
and the executor, the exchange, the position poller and the verified cleanup.  The manager is the
one of `OrderManager` and makes the calls `App` makes on it; the venue is the other side.

* The exchange executes only what the executor wrote, never more than the order's quantity, at
  any moment while the order is open, and may close an open order at any moment.
* Notices are honest (`honest`): what they say has happened.  They come in any order, late, more
  than once or never.
* The poller publishes, at any later moment, the position of some instant after its query.
* A cleanup ends verified only with nothing in the executor's hands and no order open.

An event is one atomic action of one party, so a list of events is an interleaving of all of them.
-/

set_option autoImplicit false

namespace MarketMaker

open Word64
open Ledger (Poller)
open OrderManager (Operation)

/-- What stays fixed in a run: the mid price, the equity-derived limit, and the exchange id each
    order has or will get. -/
structure Market where
  mid : ℚ
  limit : ℚ
  orderId : String → Int
  orderId_ne_zero : ∀ clOrdId, orderId clOrdId ≠ 0
  orderId_inj : Function.Injective orderId

/-- Where a Send is: in the order channel under its generation, with the executor, at the
    exchange, or done with (filled, canceled, rejected or never written). -/
inductive Stage where
  | queued (generation : Nat)
  | inHand
  | written
  | closed
  deriving DecidableEq

/-- A Send the manager emitted. -/
structure Sent where
  clOrdId : String
  side : Side
  price : ℚ
  quantity : ℚ
  stage : Stage
  deriving DecidableEq

/-- The Send may still be executed: the executor takes a queued one only under the current
    generation. -/
def Sent.Live (generation : Nat) (e : Sent) : Prop :=
  match e.stage with
  | .queued g => g = generation
  | .inHand | .written => True
  | .closed => False

instance (generation : Nat) (e : Sent) : Decidable (e.Live generation) :=
  match e with
  | ⟨_, _, _, _, .queued g⟩ => inferInstanceAs (Decidable (g = generation))
  | ⟨_, _, _, _, .inHand⟩ | ⟨_, _, _, _, .written⟩ => .isTrue trivial
  | ⟨_, _, _, _, .closed⟩ => .isFalse id

/-- Not written yet. -/
def Stage.waiting : Stage → Bool
  | .queued _ | .inHand => true
  | .written | .closed => false

/-- Executed quantities by client id. -/
abbrev Fills := String → ℚ

inductive CleanupStage where
  | idle
  | running
  | verified
  deriving DecidableEq

/-- Everything but the manager.  `published` is the exchange's ledger at the instant whose position
    was published last, `start` the position before the first Send. -/
structure Venue where
  sent : List Sent
  fills : Fills
  start : ℚ
  position : SharedPosition
  published : Fills
  poller : Poller Fills
  cleanup : CleanupStage

namespace Venue

/-- The position under a ledger. -/
def positionAt (v : Venue) (fills : Fills) : ℚ :=
  v.start + (v.sent.map fun e => e.side.sign * fills e.clOrdId).sum

def truePosition (v : Venue) : ℚ := v.positionAt v.fills

/-- What the unexecuted part of a side's Sends may still add, marked at `max(price, mid)`. -/
def openExposure (v : Venue) (generation : Nat) (mid : ℚ) (side : Side) : ℚ :=
  (v.sent.map fun e =>
    if e.side = side ∧ e.Live generation then (e.quantity - v.fills e.clOrdId) * max e.price mid
    else 0).sum

def find (v : Venue) (clOrdId : String) : Option Sent := v.sent.find? fun e => e.clOrdId == clOrdId

def setStage (v : Venue) (clOrdId : String) (stage : Stage) : Venue :=
  { v with sent := v.sent.map fun e => if e.clOrdId = clOrdId then { e with stage := stage } else e }

/-- Nothing is in the executor's hands and no order is open. -/
def drained (v : Venue) : Bool := v.sent.all fun e => e.stage != .inHand && e.stage != .written

end Venue

/-- The Send of a decision, as `process_message` queues it. -/
def sentOf (generation : Nat) : OrderDecision → Option Sent
  | .send side _ price qty clOrdId => some ⟨clOrdId, side, price, qty, .queued generation⟩
  | _ => none

/-- A manager and its venue. -/
structure Desk where
  manager : OrderManager
  venue : Venue

namespace Desk

/-- A fresh manager that knows the position. -/
def start (config : OrderManagerConfig) (startMs : Int) (position : SharedPosition) : Desk where
  manager := .new config startMs
  venue := ⟨[], fun _ => 0, position.position, position, fun _ => 0, .idle, .idle⟩

/-- `sign * truePosition * mid` and what the side's Sends may still add. -/
def exposure (s : Desk) (x : Market) (side : Side) : ℚ :=
  side.sign * s.venue.truePosition * x.mid +
    s.venue.openExposure s.manager.execution.generation x.mid side

/-! ## Events -/

inductive Event where
  /-- A call of the application, with what it answers put in the queue. -/
  | call (op : Operation)
  | openOrders (snapshot : App.OpenOrdersSnapshot)
  | checkRisk (sourcesFresh : Bool)
  /-- `try_send` did not reach the executor. -/
  | undelivered (decision : OrderDecision)
  | beginReconciliation
  | verifyCleanup
  | finishReconciliation
  | take (clOrdId : String)
  | write (clOrdId : String)
  | discard (clOrdId : String)
  | fill (clOrdId : String) (quantity : ℚ)
  | close (clOrdId : String)
  | queryPosition
  | samplePosition
  | dropPoll
  | publishPosition (nowMs : Nat)

/-- A call the application can make: it quotes the published position under the fixed mid and
    limit, hears only what has happened, reads the shared position as it stands, and clears
    neither `RiskData` nor `Reconciliation` outside their own arms. -/
def honest (x : Market) (v : Venue) : Operation → Bool
  | .quote position limit quote _ =>
    position == v.position.position && limit == x.limit && quote.midPrice == some x.mid
  | .accepted clOrdId orderId =>
    (orderId == 0 || orderId == x.orderId clOrdId) &&
      v.sent.any fun e => e.clOrdId == clOrdId && !e.stage.waiting
  | .rejected clOrdId _ =>
    v.fills clOrdId == 0 && v.sent.any fun e => e.clOrdId == clOrdId && e.stage == .closed
  | .canceled orderId => v.sent.any fun e => x.orderId e.clOrdId == orderId && e.stage == .closed
  | .canceledByClOrdId clOrdId => v.sent.any fun e => e.clOrdId == clOrdId && e.stage == .closed
  | .filled position orderId clOrdId fullyFilled =>
    position == v.position && v.sent.any fun e =>
      (orderId == 0 || orderId == x.orderId e.clOrdId) && clOrdId.all (· == e.clOrdId) &&
        decide (0 < v.fills e.clOrdId) && (!fullyFilled || v.fills e.clOrdId == e.quantity)
  | .requirePositionRefresh position | .positionRefreshComplete position
  | .initializePositionBaseline position => position == v.position
  | .clearPauseReason r => r != .riskData && r != .reconciliation
  | .dispatchFailed decision => !decision.isSend
  | .finishReconciliation => false
  | _ => true

/-- A snapshot lists orders that reached the exchange, under their own ids. -/
def honestSnapshot (x : Market) (v : Venue) (snapshot : App.OpenOrdersSnapshot) : Bool :=
  snapshot.orders.all fun o => o.clOrdId.all fun clOrdId =>
    honest x v (.accepted clOrdId o.orderId)

def step (x : Market) (s : Desk) : Event → Option Desk
  | .call op =>
    if honest x s.venue op then
      let r := s.manager.apply op
      some ⟨r.1, { s.venue with
        sent := s.venue.sent ++ r.2.filterMap (sentOf r.1.execution.generation) }⟩
    else none
  | .openOrders snapshot =>
    if honestSnapshot x s.venue snapshot then
      some { s with manager := (App.applySnapshot s.manager s.venue.position snapshot).1 }
    else none
  | .checkRisk sourcesFresh =>
    some { s with manager := (App.refreshRiskPause s.manager s.venue.position sourcesFresh).2 }
  | .undelivered decision =>
    match decision with
    | .send _ _ _ _ clOrdId =>
      match s.venue.find clOrdId with
      | some ⟨_, _, _, _, .queued _⟩ =>
        some ⟨s.manager.onDispatchFailed decision, s.venue.setStage clOrdId .closed⟩
      | _ => none
    | _ => none
  | .beginReconciliation =>
    if s.venue.cleanup = .idle then
      some ⟨App.enterReconciliation s.manager s.venue.position, { s.venue with cleanup := .running }⟩
    else none
  | .verifyCleanup =>
    if s.venue.cleanup = .running ∧ s.venue.drained then
      some { s with venue := { s.venue with cleanup := .verified } }
    else none
  | .finishReconciliation =>
    if s.venue.cleanup = .verified then
      some ⟨(s.manager.requirePositionRefreshAfterFill s.venue.position).finishReconciliation,
        { s.venue with cleanup := .idle }⟩
    else none
  | .take clOrdId =>
    match s.venue.find clOrdId with
    | some ⟨_, _, _, _, .queued g⟩ =>
      let stage := if s.manager.execution.permits g then .inHand else .closed
      some { s with venue := s.venue.setStage clOrdId stage }
    | _ => none
  | .write clOrdId =>
    match s.venue.find clOrdId with
    | some ⟨_, _, _, _, .inHand⟩ => some { s with venue := s.venue.setStage clOrdId .written }
    | _ => none
  | .discard clOrdId =>
    match s.venue.find clOrdId with
    | some ⟨_, _, _, _, .inHand⟩ => some { s with venue := s.venue.setStage clOrdId .closed }
    | _ => none
  | .fill clOrdId quantity =>
    match s.venue.find clOrdId with
    | some ⟨_, _, _, total, .written⟩ =>
      let filled := s.venue.fills clOrdId + quantity
      if 0 < quantity ∧ filled ≤ total then
        some { s with venue := { s.venue.setStage clOrdId (if filled = total then .closed else .written) with
          fills := Function.update s.venue.fills clOrdId filled } }
      else none
    | _ => none
  | .close clOrdId =>
    match s.venue.find clOrdId with
    | some ⟨_, _, _, _, .written⟩ => some { s with venue := s.venue.setStage clOrdId .closed }
    | _ => none
  | .queryPosition =>
    match s.venue.poller with
    | .idle => some { s with venue := { s.venue with poller := .querying } }
    | _ => none
  | .samplePosition =>
    match s.venue.poller with
    | .querying => some { s with venue := { s.venue with poller := .sampled s.venue.fills } }
    | _ => none
  | .dropPoll => some { s with venue := { s.venue with poller := .idle } }
  | .publishPosition nowMs =>
    match s.venue.poller with
    | .sampled fills => some { s with venue := { s.venue with
        position := s.venue.position.set (s.venue.positionAt fills) nowMs
        published := fills
        poller := .idle } }
    | _ => none

end Desk

end MarketMaker
