import MarketMaker.Base.Run
import MarketMaker.Trading.OrderWs

/-!
# The order channel

The tasks around `OrderWsClient`: the executor in `place_order` and `cancel_order_by_client_id`, the
reader in `handle_response`, the reconciliation worker in `cleanup_attempt`, the main loop, the
connection loop and the exchange.  A step is what one task does between two lock or await points,
and a run is any interleaving.

The executor, the reader, the worker and the main loop stand where their program counters say.
What the network and the exchange decide (does a write reach the exchange, what does REST answer,
is a `try_lock` free) comes with the event.  The last fields are the record of the run: ids drawn,
requests made, orders written, evidence seen and events sent; no step reads them.
-/

set_option autoImplicit false

namespace MarketMaker

open Word64

/-- The client: its session, its flags and its maps. -/
structure OrderWsClient where
  sessionId : String
  messageCounter : Nat
  connected : Bool
  wsAuthenticated : Bool
  hasWriter : Bool
  tracking : Tracking
  deriving DecidableEq

/-- The id `next_request_id` formats. -/
def formatRequestId (sessionId : String) (count : Nat) : String :=
  "req_" ++ sessionId ++ "_" ++ toString count

/-- `next_request_id`. -/
def OrderWsClient.nextRequestId (c : OrderWsClient) : String × OrderWsClient :=
  (formatRequestId c.sessionId c.messageCounter,
   { c with messageCounter := wrappingAdd c.messageCounter 1 })

/-- A request as it goes over the wire. -/
structure Request where
  id : String
  operation : PendingRequest
  deriving DecidableEq

/-- Where the executor stands. -/
inductive Executor where
  | idle
  /-- `place_order`: before `submission.lock()`. -/
  | placing (clOrdId : String) (generation : Nat)
  /-- The first check has passed; before the signer. -/
  | admitted (clOrdId : String) (generation : Nat)
  /-- The request id is drawn; before `writer.lock()`. -/
  | numbered (clOrdId : String) (generation : Nat) (id : String)
  /-- The second check has passed; before the pending entry. -/
  | permitted (clOrdId : String) (id : String)
  /-- The entry is made; before the write. -/
  | writing (clOrdId : String) (id : String)
  /-- The write has ended or timed out; before the locks are released. -/
  | written
  /-- `cancel_order_by_client_id`: before the client id enters `pending_cancels`. -/
  | canceling (clOrdId : String)
  /-- Before the flags are checked and the message is signed. -/
  | marked (clOrdId : String)
  /-- The request id is drawn; before the pending entry. -/
  | cancelNumbered (clOrdId : String) (id : String)
  /-- The entry is made; before the write. -/
  | cancelWriting (clOrdId : String) (id : String)
  /-- The write has ended, well or not. -/
  | cancelWritten (clOrdId : String) (id : String) (ok : Bool)
  /-- The cancel has failed; before the client id leaves `pending_cancels`. -/
  | cancelFailed (clOrdId : String)
  deriving DecidableEq

/-- The executor holds the submission lock. -/
def Executor.inSection : Executor → Bool
  | .admitted .. | .numbered .. | .permitted .. | .writing .. | .written => true
  | _ => false

/-- Where a `cleanup_attempt` stands. -/
inductive Cleanup where
  | idle
  /-- Before `submission.lock()`. -/
  | waiting
  /-- The first `query_open_orders` is under way. -/
  | listing
  /-- It listed these client ids; before their submissions are dropped. -/
  | retaining (listed : List String)
  /-- Before the unresolved submissions are collected. -/
  | collecting
  /-- `query_order` is under way. -/
  | querying (clOrdId : String) (rest : List String)
  /-- It answered with a known status; before `try_clear_rest_confirmed_requests`. -/
  | confirming (clOrdId : String) (rest : List String)
  /-- Before `submissions_settled`. -/
  | settling
  /-- `cancel_all_orders` is under way. -/
  | canceling (settled : Bool)
  /-- The last `query_open_orders` is under way. -/
  | verifying (settled : Bool)
  deriving DecidableEq

/-- The attempt holds the submission lock. -/
def Cleanup.inSection : Cleanup → Bool
  | .idle | .waiting => false
  | _ => true

/-- Query the next unresolved submission, or go on to the settlement check. -/
def Cleanup.next : List String → Cleanup
  | [] => .settling
  | clOrdId :: rest => .querying clOrdId rest

/-- What REST answers; `busy` is a `try_lock` that fails. -/
inductive RestAnswer where
  | failed
  | orders (clOrdIds : List (Option String))
  | order (status : String)
  | busy
  | done
  deriving DecidableEq

/-- The statuses of `query_order` that identify a submission. -/
def settledStatuses : List String := ["open", "filled", "canceled", "cancelled", "rejected"]

/-- The worker of one reconciliation after the other. -/
inductive WorkerState where
  | waiting
  | cleaning (generation : Nat)
  | reporting (generation : Nat)
  | aborted
  deriving DecidableEq

/-- Where the main loop stands: between events, or in the result arm. -/
inductive MainState where
  | ready
  | clearingCancels
  | clearingRequests
  | finishing
  | stopped
  deriving DecidableEq

inductive Holder where
  | executor
  | cleanup
  deriving DecidableEq

/-- What names a submission: a response with a code, a REST listing, or a `query_order` with a
    known status. -/
inductive Evidence where
  | response (requestId clOrdId : Option String)
  | listing (clOrdIds : List String)
  | queried (clOrdId : String)
  deriving DecidableEq

/-- The response in hand, the request it answers, and what else was unanswered when it came. -/
structure Handling where
  answers : Option Request
  response : WsResponse
  rivals : List Request

/-- An event of the reader, with the response it comes from. -/
structure Emission where
  handling : Handling
  event : OrderEvent

structure OrderChannel where
  execution : ExecutionState
  submission : Option Holder
  client : OrderWsClient
  executor : Executor
  reader : Reader
  cleanup : Cleanup
  worker : WorkerState
  main : MainState
  requests : List Nat
  results : List Nat
  reconciliationPending : Bool
  reconciliationGeneration : Nat
  /-- What the exchange has received and not answered. -/
  unanswered : List Request
  handling : Handling
  idsTaken : Nat
  issued : List Request
  put : List Request
  evidence : List Evidence
  evidenceAtSettlement : List Evidence
  emitted : List Emission

namespace OrderChannel

/-- A fresh client. -/
def new (sessionId : String) : OrderChannel where
  execution := .default
  submission := none
  client := ⟨sessionId, 0, false, false, false, ⟨∅, []⟩⟩
  executor := .idle
  reader := .idle
  cleanup := .idle
  worker := .waiting
  main := .ready
  requests := []
  results := []
  reconciliationPending := false
  reconciliationGeneration := 0
  unanswered := []
  handling := ⟨none, {}, []⟩
  idsTaken := 0
  issued := []
  put := []
  evidence := []
  evidenceAtSettlement := []
  emitted := []

def setTracking (s : OrderChannel) (t : Tracking) : OrderChannel :=
  { s with client := { s.client with tracking := t } }

/-! ## The executor -/

/-- Draw a request id for an operation. -/
def drawId (s : OrderChannel) (operation : PendingRequest) : String × OrderChannel :=
  let (id, client) := s.client.nextRequestId
  (id, { s with
    client := client
    idsTaken := s.idsTaken + 1
    issued := ⟨id, operation⟩ :: s.issued })

/-- `place_order` returns; the submission lock is released. -/
def endPlacing (s : OrderChannel) : OrderChannel := { s with executor := .idle, submission := none }

/-- The exchange gets a message, if it reaches it. -/
def transmit (s : OrderChannel) (q : Request) (reached : Bool) : OrderChannel :=
  { s with unanswered := if reached then q :: s.unanswered else s.unanswered }

/-- The executor's next step.  `ok` is the outcome of what it waits for, `reached` whether a
    message gets to the exchange. -/
def executorStep (s : OrderChannel) (ok reached : Bool) : Option OrderChannel :=
  match s.executor with
  | .idle => none
  | .placing clOrdId generation =>
    if s.submission.isSome then none
    else if s.execution.permits generation && s.client.connected && s.client.wsAuthenticated then
      some { s with submission := some .executor, executor := .admitted clOrdId generation }
    else some { s with executor := .idle }
  | .admitted clOrdId generation =>
    if ok then
      let (id, s) := s.drawId (.new clOrdId)
      some { s with executor := .numbered clOrdId generation id }
    else some s.endPlacing
  | .numbered clOrdId generation id =>
    if s.client.hasWriter && s.execution.permits generation then
      some { s with executor := .permitted clOrdId id }
    else some s.endPlacing
  | .permitted clOrdId id =>
    some { s.setTracking (s.client.tracking.insertRequest id (.new clOrdId)) with
      executor := .writing clOrdId id }
  | .writing clOrdId id =>
    let q : Request := ⟨id, .new clOrdId⟩
    some { s.transmit q reached with executor := .written, put := q :: s.put }
  | .written => some s.endPlacing
  | .canceling clOrdId =>
    some { s.setTracking (s.client.tracking.markCancel clOrdId) with executor := .marked clOrdId }
  | .marked clOrdId =>
    if s.client.connected && s.client.wsAuthenticated && ok then
      let (id, s) := s.drawId (.cancelByClientId clOrdId)
      some { s with executor := .cancelNumbered clOrdId id }
    else some { s with executor := .cancelFailed clOrdId }
  | .cancelNumbered clOrdId id =>
    some { s.setTracking (s.client.tracking.insertRequest id (.cancelByClientId clOrdId)) with
      executor := .cancelWriting clOrdId id }
  | .cancelWriting clOrdId id =>
    if s.client.hasWriter then
      some { s.transmit ⟨id, .cancelByClientId clOrdId⟩ reached with
        executor := .cancelWritten clOrdId id ok }
    else some { s with executor := .cancelWritten clOrdId id false }
  | .cancelWritten clOrdId id ok =>
    if ok then some { s with executor := .idle }
    else some { s.setTracking (s.client.tracking.removeRequest id) with executor := .cancelFailed clOrdId }
  | .cancelFailed clOrdId =>
    some { s.setTracking (s.client.tracking.unmarkCancel clOrdId) with executor := .idle }

/-! ## The reader -/

/-- An honest answer to a request: it carries a code; its method and its request id are the
    request's, where present; and so is the client id in its data. -/
structure Answers (q : Request) (r : WsResponse) : Prop where
  code : r.code.isSome = true
  method : ∀ m, r.method = some m → m = q.operation.method
  requestId : ∀ id, r.requestId = some id → id = q.id
  clOrdId : ∀ data, r.payload = some data → data.extractClOrdId = q.operation.clOrdId

/-- The reader gets a response.  One that answers a request uses the exchange's one answer. -/
def receive (s : OrderChannel) (answers : Option Request) (r : WsResponse) : Option OrderChannel :=
  match s.reader with
  | .idle =>
    let evidence := if r.code.isSome then
        .response r.requestId (r.payload.bind Json.extractClOrdId) :: s.evidence
      else s.evidence
    let rivals := match answers with
      | none => s.unanswered
      | some q => s.unanswered.erase q
    if answers.all (· ∈ s.unanswered) then
      some { s with
        reader := .received r
        handling := ⟨answers, r, rivals⟩
        evidence := evidence
        unanswered := rivals }
    else none
  | _ => none

/-- The reader's next lock section. -/
def readerStep (s : OrderChannel) : OrderChannel :=
  let (tracking, reader, events) := s.reader.step s.client.tracking
  { s.setTracking tracking with
    reader := reader
    emitted := events.map (fun event => ⟨s.handling, event⟩) ++ s.emitted }

/-! ## The cleanup attempt -/

/-- The attempt returns; a verified one gives the worker its result. -/
def endAttempt (s : OrderChannel) (verified : Bool) : OrderChannel :=
  { s with
    cleanup := .idle
    submission := none
    worker := match s.worker with
      | .cleaning generation => if verified then .reporting generation else .cleaning generation
      | worker => worker }

/-- The attempt's next step. -/
def cleanupStep (s : OrderChannel) (answer : RestAnswer) : Option OrderChannel :=
  match s.cleanup with
  | .idle => none
  | .waiting =>
    if s.submission.isSome then none
    else some { s with submission := some .cleanup, cleanup := .listing }
  | .listing =>
    match answer with
    | .orders clOrdIds =>
      let listed := clOrdIds.reduceOption
      some { s with cleanup := .retaining listed, evidence := .listing listed :: s.evidence }
    | _ => some (s.endAttempt false)
  | .retaining listed =>
    some { s.setTracking (s.client.tracking.dropNew (listed.contains ·)) with cleanup := .collecting }
  | .collecting => some { s with cleanup := .next s.client.tracking.unresolved }
  | .querying clOrdId rest =>
    match answer with
    | .order status =>
      if status ∈ settledStatuses then
        some { s with cleanup := .confirming clOrdId rest, evidence := .queried clOrdId :: s.evidence }
      else some { s with cleanup := .next rest }
    | _ => some { s with cleanup := .next rest }
  | .confirming clOrdId rest =>
    match answer with
    | .busy => some { s with cleanup := .next rest }
    | _ => some { s.setTracking (s.client.tracking.dropNew (· == clOrdId)) with cleanup := .next rest }
  | .settling =>
    some { s with
      cleanup := .canceling s.client.tracking.submissionsSettled
      evidenceAtSettlement := s.evidence }
  | .canceling settled =>
    match answer with
    | .done => some { s with cleanup := .verifying settled }
    | _ => some (s.endAttempt false)
  | .verifying settled =>
    match answer with
    | .orders remaining => some (s.endAttempt (remaining.isEmpty && settled))
    | _ => some (s.endAttempt false)

/-- The attempt returns `Ok(true)` with this answer. -/
def ReturnsTrue (s : OrderChannel) (answer : RestAnswer) : Prop :=
  s.cleanup = .verifying true ∧ answer = .orders []

/-! ## The main loop -/

/-- `begin_account_reconciliation`. -/
def begin (s : OrderChannel) : OrderChannel :=
  if s.reconciliationPending then s
  else
    let generation := wrappingAdd s.reconciliationGeneration 1
    { s with
      execution := s.execution.setPauseReason .reconciliation
      reconciliationPending := true
      reconciliationGeneration := generation
      requests := s.requests ++ [generation] }

/-- The result arm up to `clear_pending_tracking`; an old result is ignored. -/
def deliver (s : OrderChannel) : Option OrderChannel :=
  match s.results with
  | generation :: results =>
    if generation = s.reconciliationGeneration then
      some { s with results := results, main := .clearingCancels }
    else some { s with results := results }
  | [] => none

/-- The rest of the result arm: `clear_pending_tracking`, lock by lock, and
    `finish_account_reconciliation`. -/
def resultArmStep (s : OrderChannel) : Option OrderChannel :=
  match s.main with
  | .clearingCancels =>
    some { s.setTracking { s.client.tracking with pendingCancels := ∅ } with main := .clearingRequests }
  | .clearingRequests =>
    some { s.setTracking { s.client.tracking with pendingRequests := [] } with main := .finishing }
  | .finishing =>
    some { s with
      execution := ((s.execution.clearPauseReason .safety).clearPauseReason
        .circuitBreaker).clearPauseReason .reconciliation
      reconciliationPending := false
      main := .ready }
  | _ => none

/-- `try_clear_rest_confirmed_requests` with a REST snapshot. -/
def snapshot (s : OrderChannel) (clOrdIds : List String) (free : Bool) : OrderChannel :=
  let s := { s with evidence := .listing clOrdIds :: s.evidence }
  if free then s.setTracking (s.client.tracking.dropNew (clOrdIds.contains ·)) else s

/-- Shutdown: no more submissions; the worker is aborted, in an attempt or not. -/
def shutdown (s : OrderChannel) : OrderChannel :=
  { s with
    execution := s.execution.beginShutdown
    main := .stopped
    worker := .aborted
    cleanup := .idle
    submission := if s.submission = some .cleanup then none else s.submission }

/-- An attempt may start: for the request the worker has, or in the shutdown cleanup. -/
def mayAttempt (s : OrderChannel) : Bool :=
  s.cleanup == .idle &&
    (s.main == .stopped || (match s.worker with | .cleaning _ => true | _ => false))

/-! ## Events -/

inductive Event where
  /-- The executor takes a `Send` tagged with a generation, or a cancel. -/
  | place (clOrdId : String) (generation : Nat)
  | cancel (clOrdId : String)
  | executor (ok reached : Bool)
  /-- The socket delivers a response. -/
  | receive (answers : Option Request) (r : WsResponse)
  | reader
  /-- The connection loop: its flags, the login's request id, `pending_cancels.clear()`. -/
  | connection (connected authenticated writer : Bool)
  | login
  | reconnect
  /-- The main loop, when it is ready. -/
  | pause (r : PauseReason)
  | resume (r : PauseReason)
  | begin
  | snapshot (clOrdIds : List String) (free : Bool)
  | deliver
  | resultArm
  | shutdown
  /-- The worker. -/
  | takeRequest
  | attempt
  | cleanup (answer : RestAnswer)
  | report

/-- An event of the main loop. -/
def whenReady (s : OrderChannel) (s' : Option OrderChannel) : Option OrderChannel :=
  if s.main = .ready then s' else none

/-- An event of the connection loop, which is the reader's task. -/
def betweenMessages (s : OrderChannel) (s' : Option OrderChannel) : Option OrderChannel :=
  match s.reader with
  | .idle => s'
  | _ => none

def step (s : OrderChannel) : Event → Option OrderChannel
  | .place clOrdId generation =>
    if s.executor = .idle then some { s with executor := .placing clOrdId generation } else none
  | .cancel clOrdId => if s.executor = .idle then some { s with executor := .canceling clOrdId } else none
  | .executor ok reached => s.executorStep ok reached
  | .receive answers r => s.receive answers r
  | .reader => some s.readerStep
  | .connection connected authenticated writer => s.betweenMessages (some { s with
      client := { s.client with
        connected := connected, wsAuthenticated := authenticated, hasWriter := writer } })
  | .login =>
    s.betweenMessages (some { s with client := s.client.nextRequestId.2, idsTaken := s.idsTaken + 1 })
  | .reconnect =>
    s.betweenMessages (some (s.setTracking { s.client.tracking with pendingCancels := ∅ }))
  | .pause r => s.whenReady (some { s with execution := s.execution.setPauseReason r })
  | .resume r =>
    if r = .reconciliation then none
    else s.whenReady (some { s with execution := s.execution.clearPauseReason r })
  | .begin => s.whenReady (some s.begin)
  | .snapshot clOrdIds free => s.whenReady (some (s.snapshot clOrdIds free))
  | .deliver => s.whenReady s.deliver
  | .resultArm => s.resultArmStep
  | .shutdown => s.whenReady (some s.shutdown)
  | .takeRequest =>
    match s.worker, s.requests with
    | .waiting, generation :: rest =>
      some { s with worker := .cleaning (rest.foldl max generation), requests := [] }
    | _, _ => none
  | .attempt => if s.mayAttempt then some { s with cleanup := .waiting } else none
  | .cleanup answer => s.cleanupStep answer
  | .report =>
    match s.worker with
    | .reporting generation => some { s with worker := .waiting, results := s.results ++ [generation] }
    | _ => none

end OrderChannel

end MarketMaker
