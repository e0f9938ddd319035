import Mathlib.Data.Finset.Insert
import MarketMaker.Base.Text
import MarketMaker.Trading.Types

/-!
# Responses of the order socket

`handle_response` of `src/trading/order_ws.rs`.  The reader task takes several locks while it
handles a response, and the other tasks run in between, so the function is a small machine: a
`Reader` says where the task stands, and `Reader.step` takes it through its next lock section.

* `Json`, `WsResponse` — what is read of a response, with the field aliases of the source.
* `Tracking` — `pending_cancels` and `pending_requests`.
* `Reader.step` — one lock section, with the events it sends.
-/

set_option autoImplicit false

namespace MarketMaker

/-! ## JSON -/

/-- `serde_json::Value`; a number is an integer or not. -/
inductive Json where
  | null
  | bool (b : Bool)
  | int (n : Int)
  | float
  | str (s : String)
  | arr (items : List Json)
  | obj (fields : List (String × Json))

namespace Json

/-- `Value::get`. -/
def get (j : Json) (key : String) : Option Json :=
  match j with
  | .obj fields => fields.lookup key
  | _ => none

/-- The first of some alternative fields that is present. -/
def first (j : Json) : List String → Option Json
  | [] => none
  | key :: keys => (j.get key).orElse fun _ => j.first keys

/-- `Value::as_str`. -/
def asStr : Json → Option String
  | .str s => some s
  | _ => none

/-- `Value::as_i64`. -/
def asI64 : Json → Option Int
  | .int n => if -9223372036854775808 ≤ n ∧ n < 9223372036854775808 then some n else none
  | _ => none

/-- `extract_cl_ord_id`. -/
def extractClOrdId (data : Json) : Option String :=
  (data.first ["cl_ord_id", "clOrdId", "clientOrderId", "client_order_id"]).bind asStr

/-- `extract_order_id`. -/
def extractOrderId (data : Json) : Option Int := (data.first ["id", "order_id"]).bind asI64

/-- `extract_fill_qty`. -/
def extractFillQty (data : Json) : String :=
  ((data.first ["fill_qty", "fillQty"]).bind asStr).getD "0"

/-- `extract_fill_price`. -/
def extractFillPrice (data : Json) : String :=
  ((data.first ["fill_price", "fillPrice"]).bind asStr).getD "0"

/-- `extract_status`. -/
def extractStatus (data : Json) : Option String :=
  ((data.first ["status", "order_status", "orderStatus"]).bind asStr).map (·.map Char.toLower)

end Json

/-- `WsResponse`. -/
structure WsResponse where
  method : Option String := none
  code : Option Int := none
  message : Option String := none
  data : Option Json := none
  result : Option Json := none
  requestId : Option String := none

/-- `response.data.or(response.result)`. -/
def WsResponse.payload (r : WsResponse) : Option Json := r.data.or r.result

/-! ## Tracking -/

/-- `PendingRequest`. -/
inductive PendingRequest where
  | new (clOrdId : String)
  | cancelByClientId (clOrdId : String)
  | cancelByOrderId (orderId : Int)
  deriving DecidableEq

namespace PendingRequest

/-- `matches!(request, PendingRequest::New { .. })`. -/
def isNew : PendingRequest → Bool
  | .new _ => true
  | _ => false

/-- The client id of a new order. -/
def newId : PendingRequest → Option String
  | .new clOrdId => some clOrdId
  | _ => none

/-- The client id a request carries. -/
def clOrdId : PendingRequest → Option String
  | .new clOrdId | .cancelByClientId clOrdId => some clOrdId
  | .cancelByOrderId _ => none

/-- The method of the message that makes the request. -/
def method : PendingRequest → String
  | .new _ => "order:new"
  | .cancelByClientId _ | .cancelByOrderId _ => "order:cancel"

end PendingRequest

/-- The two maps that attribute responses: `pending_cancels` and `pending_requests`. -/
structure Tracking where
  pendingCancels : Finset String
  pendingRequests : List (String × PendingRequest)
  deriving DecidableEq

namespace Tracking

/-- `HashMap::insert`. -/
def insertRequest (t : Tracking) (id : String) (p : PendingRequest) : Tracking :=
  { t with pendingRequests := (id, p) :: t.pendingRequests.filter fun e => e.1 ≠ id }

/-- `HashMap::remove`. -/
def removeRequest (t : Tracking) (id : String) : Tracking :=
  { t with pendingRequests := t.pendingRequests.filter fun e => e.1 ≠ id }

/-- `retain`, dropping the new-order requests whose client id satisfies `p`. -/
def dropNew (t : Tracking) (p : String → Bool) : Tracking :=
  { t with pendingRequests := t.pendingRequests.filter fun e => !e.2.newId.any p }

def markCancel (t : Tracking) (clOrdId : String) : Tracking :=
  { t with pendingCancels := insert clOrdId t.pendingCancels }

def unmarkCancel (t : Tracking) (clOrdId : String) : Tracking :=
  { t with pendingCancels := t.pendingCancels.erase clOrdId }

/-- The client ids of the unresolved new-order requests. -/
def unresolved (t : Tracking) : List String := t.pendingRequests.filterMap (·.2.newId)

/-- `submissions_settled`. -/
def submissionsSettled (t : Tracking) : Bool := !t.pendingRequests.any (·.2.isNew)

end Tracking

/-! ## Events -/

/-- `handle_order_response`. -/
def handleOrderResponse (data : Json) (code : Int) (message : Option String) : OrderEvent :=
  let clOrdId := data.extractClOrdId.getD ""
  let orderId := data.extractOrderId.getD 0
  if code = 0 then
    if clOrdId = "" ∨ orderId = 0 then .orderSubmissionAcknowledged
    else .orderAccepted clOrdId orderId
  else if clOrdId = "" then .ambiguousResponse none (some code) (message.getD "")
  else .orderRejected clOrdId (message.getD "")

/-- `handle_cancel_response`. -/
def handleCancelResponse (data : Json) (code : Int) (message : Option String) : OrderEvent :=
  let orderId := data.extractOrderId.getD 0
  let clOrdId := data.extractClOrdId
  if code = 0 then
    if orderId = 0 ∧ clOrdId = none then .cancelSubmissionAcknowledged
    else .orderCanceled orderId clOrdId
  else if orderId = 0 ∧ clOrdId = none then
    .ambiguousResponse none (some code) (message.getD "Cancel failed")
  else .cancelFailed orderId (message.getD "Cancel failed")

/-- `handle_correlated_response`, for a response that has its code. -/
def handleCorrelatedResponse (p : PendingRequest) (code : Int) (message : Option String) : OrderEvent :=
  let reason := message.getD "exchange rejected request"
  match p with
  | .new clOrdId => if code = 0 then .orderAccepted clOrdId 0 else .orderRejected clOrdId reason
  | .cancelByClientId clOrdId =>
    if code = 0 then .orderCanceled 0 (some clOrdId) else .cancelFailed 0 reason
  | .cancelByOrderId orderId =>
    if code = 0 then .orderCanceled orderId none else .cancelFailed orderId reason

/-- The arm for `order:new`. -/
def orderNewEvent (r : WsResponse) : OrderEvent :=
  match r.code, r.payload with
  | none, _ => .ambiguousResponse r.requestId none "order:new response omitted its result code"
  | some code, some data => handleOrderResponse data code r.message
  | some code, none =>
    if code = 0 then .orderSubmissionAcknowledged
    else .ambiguousResponse r.requestId (some code)
      "order:new response contained no correlatable order data"

/-- The arm for `order:cancel`. -/
def orderCancelEvent (r : WsResponse) : OrderEvent :=
  match r.code, r.payload with
  | none, _ => .ambiguousResponse r.requestId none "order:cancel response omitted its result code"
  | some code, some data => handleCancelResponse data code r.message
  | some code, none =>
    if code = 0 then .cancelSubmissionAcknowledged
    else .ambiguousResponse r.requestId (some code)
      "order:cancel response contained no correlatable order data"

/-- The arm for fills. -/
def orderFillEvent (r : WsResponse) : OrderEvent :=
  match r.payload with
  | some data =>
    let inferred := if r.method = some "order:filled" then some "filled" else none
    .orderFilled (data.extractOrderId.getD 0) data.extractClOrdId
      (data.extractStatus.orElse fun _ => inferred) data.extractFillQty data.extractFillPrice
  | none => .ambiguousResponse r.requestId r.code "fill response contained no correlatable order data"

/-- The last resort. -/
def unattributedEvent (r : WsResponse) : OrderEvent :=
  .ambiguousResponse r.requestId r.code
    (r.message.getD "response contained no method or correlatable order data")

/-! ## The reader -/

/-- Where the reader stands in `handle_response`. -/
inductive Reader where
  /-- Waiting for a message. -/
  | idle
  /-- Before the lookup by request id. -/
  | received (r : WsResponse)
  /-- A pending request was found and removed. -/
  | correlated (p : PendingRequest) (code : Int) (r : WsResponse)
  /-- None was found; before the client id settles a submission. -/
  | unmatched (r : WsResponse)
  /-- Before the new-order requests of the client id are dropped. -/
  | settling (r : WsResponse) (clOrdId : String)
  /-- Before the response is routed by its method or its data. -/
  | routing (r : WsResponse)
  /-- Before the client id leaves `pending_cancels`; the event is the one to send then. -/
  | unmarking (clOrdId : String) (event : OrderEvent)

namespace Reader

/-- Pending requests of one kind only let a bare code zero be classified. -/
def classifyBare (t : Tracking) : Option OrderEvent :=
  let hasNew := t.pendingRequests.any (·.2.isNew)
  let hasCancel := t.pendingRequests.any (!·.2.isNew)
  if hasNew && !hasCancel then some .orderSubmissionAcknowledged
  else if hasCancel && !hasNew then some .cancelSubmissionAcknowledged
  else none

/-- A response without a method it knows: by what is pending, by client id, by order id. -/
def routeBare (t : Tracking) (r : WsResponse) : Reader × List OrderEvent :=
  match r.payload, r.code with
  | none, code =>
    if code = some 0 then (.idle, [(classifyBare t).getD (unattributedEvent r)])
    else (.idle, [unattributedEvent r])
  | some _, none =>
    (.idle, [.ambiguousResponse r.requestId none "order response omitted its result code"])
  | some data, some code =>
    match data.extractClOrdId with
    | some clOrdId =>
      if clOrdId ∈ t.pendingCancels then
        (.unmarking clOrdId (handleCancelResponse data code r.message), [])
      else (.idle, [handleOrderResponse data code r.message])
    | none =>
      if data.extractOrderId.isSome then (.idle, [handleCancelResponse data code r.message])
      else (.idle, [unattributedEvent r])

/-- Route a response by its method. -/
def route (t : Tracking) (r : WsResponse) : Reader × List OrderEvent :=
  let method := r.method.getD ""
  if method = "order:new" then (.idle, [orderNewEvent r])
  else if method = "order:cancel" then
    match r.code, r.payload.bind Json.extractClOrdId with
    | some _, some clOrdId => (.unmarking clOrdId (orderCancelEvent r), [])
    | _, _ => (.idle, [orderCancelEvent r])
  else if method = "order:fill" ∨ method = "order:filled" then (.idle, [orderFillEvent r])
  else routeBare t r

/-- A duplicate, or a response to a request settled before: nothing is sent. -/
def isSettledDuplicate (r : WsResponse) : Bool :=
  r.code.isSome && r.requestId.any (fun id => (Text.stripLeading "req_session_".toList id.toList).isSome)
    && r.method.isNone && r.data.isNone && r.result.isNone

/-- After the lookup by request id found nothing. -/
def afterLookup (r : WsResponse) : Reader := if isSettledDuplicate r then .idle else .unmatched r

/-- The client id that settles a submission, if the response may do that. -/
def settlesId (r : WsResponse) : Option String :=
  if r.code.isSome ∧ r.method.getD "" ≠ "order:cancel" then r.payload.bind Json.extractClOrdId else none

/-- The next lock section of `handle_response`: the maps, the reader and the events sent. -/
def step (t : Tracking) : Reader → Tracking × Reader × List OrderEvent
  | .idle => (t, .idle, [])
  | .received r =>
    match r.code, r.requestId with
    | some code, some id =>
      match t.pendingRequests.lookup id with
      | some p => (t.removeRequest id, .correlated p code r, [])
      | none => (t, afterLookup r, [])
    | _, _ => (t, afterLookup r, [])
  | .correlated p code r =>
    let event := handleCorrelatedResponse p code r.message
    match p with
    | .cancelByClientId clOrdId => (t.unmarkCancel clOrdId, .idle, [event])
    | _ => (t, .idle, [event])
  | .unmatched r =>
    match settlesId r with
    | some clOrdId => (t, if clOrdId ∈ t.pendingCancels then .routing r else .settling r clOrdId, [])
    | none => (t, .routing r, [])
  | .settling r clOrdId => (t.dropNew (· == clOrdId), .routing r, [])
  | .routing r =>
    let (reader, events) := route t r
    (t, reader, events)
  | .unmarking clOrdId event => (t.unmarkCancel clOrdId, .idle, [event])

end Reader

end MarketMaker
