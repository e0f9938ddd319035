import MarketMaker.Base.Run
import MarketMaker.Base.Word64
import MarketMaker.Trading.OrderWs

/-!
# Reconnection and its budget

`ReconnectState` of `src/websocket/reconnect.rs` and the two clients that share it: the order
socket, which gives up after `max_retries`, and the market data socket.  An attempt is described
by what its socket delivers; `connect_and_run` turns it into a result, and the connection loop
resets the backoff on `Ok` only.

* `settle` — what both connection loops make of a result.
* `OrderAttempt.result_cases`, `FeedAttempt.result_cases` — `Err` covers an attempt that never
  got through and one that broke off with a read error, whenever that was.
* `OrderLink.step`, `FeedLink.step` — one round of either connection loop.
-/

set_option autoImplicit false

namespace MarketMaker

open Word64

/-! ## The backoff -/

/-- `ReconnectConfig`; the connect timeout is part of what an attempt delivers. -/
structure ReconnectConfig where
  initialDelaySecs : Nat := 5
  maxDelaySecs : Nat := 60
  staleTimeoutSecs : Nat := 60
  maxRetries : Option Nat := none
  deriving DecidableEq

namespace ReconnectConfig

/-- `ReconnectConfig::for_orderbook`. -/
def forOrderbook : ReconnectConfig := {}

/-- `ReconnectConfig::for_orders`. -/
def forOrders : ReconnectConfig := { maxRetries := some 10 }

/-- `Duration::from_secs(stale_timeout_secs)` in nanoseconds. -/
def staleTimeoutNs (config : ReconnectConfig) : Nat := config.staleTimeoutSecs * 1000000000

end ReconnectConfig

/-- `ReconnectState`: a `u64`, a `u64` and a `u32`. -/
structure ReconnectState where
  currentDelay : Nat
  reconnectCount : Nat
  consecutiveFailures : Nat
  deriving DecidableEq

namespace ReconnectState

/-- `ReconnectState::new`. -/
def new (config : ReconnectConfig) : ReconnectState := ⟨config.initialDelaySecs, 0, 0⟩

/-- `ReconnectState::reset`. -/
def reset (s : ReconnectState) (config : ReconnectConfig) : ReconnectState :=
  { s with currentDelay := config.initialDelaySecs, consecutiveFailures := 0 }

/-- `ReconnectState::next_delay`. -/
def nextDelay (s : ReconnectState) (config : ReconnectConfig) : ReconnectState × Option Nat :=
  let s := { s with
    consecutiveFailures := wrappingAdd32 s.consecutiveFailures 1
    reconnectCount := wrappingAdd s.reconnectCount 1 }
  if config.maxRetries.any fun max => decide (max < s.consecutiveFailures) then (s, none)
  else
    ({ s with currentDelay := min (s.currentDelay * 2 % size) config.maxDelaySecs }, some s.currentDelay)

/-- Both connection loops: a reset on `Ok`, then the next delay. -/
def settle (s : ReconnectState) (config : ReconnectConfig) (ok : Bool) : ReconnectState × Option Nat :=
  (if ok then s.reset config else s).nextDelay config

/-- No delay is left only when the failures exceed the budget. -/
theorem nextDelay_none {s : ReconnectState} {config : ReconnectConfig}
    (h : (s.nextDelay config).2 = none) :
    ∃ max, config.maxRetries = some max ∧ max < (s.nextDelay config).1.consecutiveFailures := by
  unfold nextDelay at h ⊢
  dsimp only at h ⊢
  split at h
  · rename_i hany
    rw [if_pos hany]
    obtain ⟨max, hmax, hlt⟩ := (Option.any_eq_true _ _).mp hany
    exact ⟨max, hmax, of_decide_eq_true hlt⟩
  · cases h

theorem nextDelay_failures (s : ReconnectState) (config : ReconnectConfig) :
    (s.nextDelay config).1.consecutiveFailures = wrappingAdd32 s.consecutiveFailures 1 := by
  unfold nextDelay
  dsimp only
  split <;> rfl

/-- After a reset the count restarts at one and the delay at the initial one, unless no retry is
    allowed at all. -/
theorem settle_ok (s : ReconnectState) (config : ReconnectConfig) :
    (s.settle config true).1.consecutiveFailures = 1 ∧
      (s.settle config true).2 =
        if config.maxRetries = some 0 then none else some config.initialDelaySecs := by
  refine ⟨(nextDelay_failures _ config).trans rfl, ?_⟩
  unfold settle nextDelay reset wrappingAdd32
  cases hmax : config.maxRetries with
  | none => rfl
  | some max =>
    cases max with
    | zero => rfl
    | succ n => simp

/-- A failure adds one at most to the count. -/
theorem settle_failures_le (s : ReconnectState) (config : ReconnectConfig) :
    (s.settle config false).1.consecutiveFailures ≤ s.consecutiveFailures + 1 := by
  rw [settle, nextDelay_failures]
  exact Nat.mod_le _ _

end ReconnectState

/-! ## Reading a session -/

/-- What one turn of a read loop delivers; `forced` is `force_reconnect` of the market client. -/
inductive Incoming where
  | frame
  | close
  | failed (error : String)
  | ended
  | silent
  | forced
  deriving DecidableEq

/-- One turn: the running flag and the clock at its top, what the read delivers, and when. -/
structure Round where
  running : Bool
  nowNs : Nat
  incoming : Incoming
  readNs : Nat
  deriving DecidableEq

/-- The message receive loop: `none` while it goes on, the error of a failed read otherwise.  A
    close frame ends the loop of the order socket only. -/
def receiveLoop (staleTimeoutNs : Nat) (closeEnds : Bool) : Nat → List Round → Option (Option String)
  | _, [] => none
  | lastMessageNs, r :: rs =>
    if !r.running then some none
    else if staleTimeoutNs < r.nowNs - lastMessageNs then some none
    else
      match r.incoming with
      | .frame => receiveLoop staleTimeoutNs closeEnds r.readNs rs
      | .close => if closeEnds then some none else receiveLoop staleTimeoutNs closeEnds r.readNs rs
      | .failed error => some (some error)
      | .ended | .forced => some none
      | .silent => receiveLoop staleTimeoutNs closeEnds lastMessageNs rs

/-! ## The order socket -/

/-- `OrderWsError`, as far as a connection ends with it. -/
inductive OrderWsError where
  | notConnected
  | notAuthenticated
  | connectionError (error : String)
  | sendError (error : String)
  | authError (error : String)
  | authTimeout
  | authRejected (message : String)
  deriving DecidableEq

/-- The `Display` text. -/
def OrderWsError.message : OrderWsError → String
  | .notConnected => "Not connected"
  | .notAuthenticated => "Not authenticated"
  | .connectionError error => "Connection error: " ++ error
  | .sendError error => "Send error: " ++ error
  | .authError error => "Auth error: " ++ error
  | .authTimeout => "Authentication timeout"
  | .authRejected message => "Authentication rejected: " ++ message

/-- What the reads of a login deliver. -/
inductive LoginFrame where
  | text (json : Option Json)
  | close (frame : String)
  | failed (error : String)
  | ended
  | other

/-- One turn of the login: the time since its start and what the read delivers. -/
structure LoginRound where
  elapsedNs : Nat
  frame : LoginFrame

/-- A login: the token the auth manager has after refreshing it, the writing of the message with
    its request id, and the reads that follow. -/
structure Login where
  token : Except String (Option String)
  requestId : String
  sent : Except OrderWsError Unit
  rounds : List LoginRound

/-- The answer to a login, if the text is one: a code, under this request id or none. -/
def loginAnswer (requestId : String) (json : Json) : Option (Except OrderWsError Unit) :=
  let respRequestId := (json.get "request_id").bind Json.asStr
  if (json.get "code").isSome ∧ (respRequestId = some requestId ∨ respRequestId = none) then
    if ((json.get "code").bind Json.asI64).getD (-1) = 0 then some (.ok ())
    else some (.error (.authRejected
      (((json.first ["message", "msg"]).bind Json.asStr).getD "Unknown auth error")))
  else none

/-- The wait for the answer: `none` while it goes on. -/
def awaitLogin (requestId : String) : List LoginRound → Option (Except OrderWsError Unit)
  | [] => none
  | r :: rs =>
    if 5000000000 ≤ r.elapsedNs then some (.error .authTimeout)
    else
      match r.frame with
      | .text json =>
        match json.bind (loginAnswer requestId) with
        | some answer => some answer
        | none => awaitLogin requestId rs
      | .close frame => some (.error (.connectionError ("Connection closed during auth: " ++ frame)))
      | .failed error => some (.error (.connectionError error))
      | .ended => some (.error (.connectionError "Stream ended during auth"))
      | .other => awaitLogin requestId rs

/-- `ws_authenticate`. -/
def wsAuthenticate (login : Login) : Option (Except OrderWsError Unit) :=
  match login.token with
  | .error error => some (.error (.authError error))
  | .ok none => some (.error .notAuthenticated)
  | .ok (some _) =>
    match login.sent with
    | .error error => some (.error error)
    | .ok () => awaitLogin login.requestId login.rounds

/-- One attempt of the order client: the connection, the login, the messages from `startNs` on, and
    whether `stop` was called by the time it ends. -/
structure OrderAttempt where
  connection : Except String Unit
  login : Login
  startNs : Nat
  rounds : List Round
  stopped : Bool

namespace OrderAttempt

/-- `connect_and_run`: the events it sends and, once it ends, its result. -/
def connectAndRun (config : ReconnectConfig) (a : OrderAttempt) :
    List OrderEvent × Option (Except OrderWsError Unit) :=
  match a.connection with
  | .error error => ([], some (.error (.connectionError error)))
  | .ok () =>
    match wsAuthenticate a.login with
    | none => ([.connected], none)
    | some (.error error) => ([.connected], some (.error error))
    | some (.ok ()) =>
      ([.connected, .authenticated],
        (receiveLoop config.staleTimeoutNs true a.startNs a.rounds).map fun
          | some error => .error (.connectionError error)
          | none => .ok ())

/-- The attempt reached the authenticated state. -/
def authenticated (a : OrderAttempt) : Bool :=
  a.connection.isOk && (wsAuthenticate a.login).any (·.isOk)

/-- The attempt reached the authenticated state and broke off with a read error. -/
def readError (config : ReconnectConfig) (a : OrderAttempt) : Bool :=
  a.authenticated && (receiveLoop config.staleTimeoutNs true a.startNs a.rounds).any (·.isSome)

/-- A result is `Ok` exactly when the attempt got through and did not break off. -/
theorem result_cases {config : ReconnectConfig} {a : OrderAttempt} {result : Except OrderWsError Unit}
    (h : (a.connectAndRun config).2 = some result) :
    result.isOk = (a.authenticated && !a.readError config) := by
  unfold connectAndRun at h
  unfold readError authenticated
  split at h
  · rename_i hconnection
    cases h
    simp [hconnection, Except.isOk, Except.toBool]
  · rename_i hconnection
    split at h
    · cases h
    · rename_i hlogin
      cases h
      simp [hconnection, hlogin, Except.isOk, Except.toBool]
    · rename_i hlogin
      obtain ⟨ending, hending, rfl⟩ := Option.map_eq_some_iff.mp h
      cases ending <;> simp [hconnection, hlogin, hending, Except.isOk, Except.toBool]

/-- A read error is an error like any other. -/
theorem result_of_readError {config : ReconnectConfig} {a : OrderAttempt}
    (h : a.readError config = true) : ∃ error, (a.connectAndRun config).2 = some (.error error) := by
  unfold readError authenticated at h
  unfold connectAndRun
  cases hconnection : a.connection with
  | error error => exact ⟨_, rfl⟩
  | ok =>
    rw [hconnection] at h
    cases hlogin : wsAuthenticate a.login with
    | none => simp [hlogin] at h
    | some answer =>
      cases answer with
      | error error => exact ⟨_, rfl⟩
      | ok =>
        rw [hlogin] at h
        simp only [Bool.and_eq_true] at h
        obtain ⟨ending, hending, hsome⟩ := (Option.any_eq_true _ _).mp h.2
        obtain ⟨error, rfl⟩ := Option.isSome_iff_exists.mp hsome
        exact ⟨.connectionError error, by simp [hending]⟩

/-- An attempt sends no `MaxRetriesExceeded` of its own. -/
theorem connectAndRun_events (config : ReconnectConfig) (a : OrderAttempt) :
    .maxRetriesExceeded ∉ (a.connectAndRun config).1 := by
  unfold connectAndRun
  split
  · simp
  · split <;> simp

end OrderAttempt

/-- The connection loop of the order client between two attempts: the backoff, the running flag, the
    events sent and the attempt number and delay of the last `Reconnecting`. -/
structure OrderLink where
  reconnect : ReconnectState
  running : Bool
  events : List OrderEvent
  announced : Option (Nat × Nat)

namespace OrderLink

/-- `run` has just spawned the loop. -/
def new (config : ReconnectConfig) : OrderLink := ⟨.new config, true, [], none⟩

/-- What the loop sends for the result of an attempt. -/
def errorEvents : Except OrderWsError Unit → List OrderEvent
  | .ok () => []
  | .error error => [.error error.message]

/-- One round of `connection_loop`, with an attempt that has ended. -/
def step (config : ReconnectConfig) (s : OrderLink) (a : OrderAttempt) : Option OrderLink :=
  if s.running then
    match a.connectAndRun config with
    | (_, none) => none
    | (sent, some result) =>
      let events := s.events ++ sent ++ errorEvents result
      if a.stopped then
        some ⟨if result.isOk then s.reconnect.reset config else s.reconnect, false, events, s.announced⟩
      else
        let events := events ++ [.disconnected "Connection lost"]
        match s.reconnect.settle config result.isOk with
        | (reconnect, some delay) =>
          some ⟨reconnect, true, events ++ [.reconnecting], some (reconnect.consecutiveFailures, delay)⟩
        | (reconnect, none) => some ⟨reconnect, false, events ++ [.maxRetriesExceeded], s.announced⟩
  else none

/-- `MaxRetriesExceeded` was emitted: the application shuts down. -/
def Exhausted (s : OrderLink) : Prop := .maxRetriesExceeded ∈ s.events

instance (s : OrderLink) : Decidable s.Exhausted := inferInstanceAs (Decidable (_ ∈ _))

end OrderLink

/-! ## The market data socket -/

/-- One attempt of the market data client: the connection, the subscriptions to the symbols, the
    messages, and whether `stop` was called by the time it ends. -/
structure FeedAttempt where
  connection : Except String Unit
  subscriptions : List (Except String Unit)
  startNs : Nat
  rounds : List Round
  stopped : Bool

namespace FeedAttempt

/-- `write.send(..).await?` for symbol after symbol. -/
def subscribe : List (Except String Unit) → Except String Unit
  | [] => .ok ()
  | .ok () :: rest => subscribe rest
  | .error error :: _ => .error error

/-- `connect_and_run`, the events of the messages left out. -/
def connectAndRun (config : ReconnectConfig) (a : FeedAttempt) : Option (Except String Unit) :=
  match a.connection with
  | .error error => some (.error error)
  | .ok () =>
    match subscribe a.subscriptions with
    | .error error => some (.error error)
    | .ok () =>
      (receiveLoop config.staleTimeoutNs false a.startNs a.rounds).map fun
        | some error => .error error
        | none => .ok ()

/-- The attempt connected and subscribed. -/
def subscribed (a : FeedAttempt) : Bool := a.connection.isOk && (subscribe a.subscriptions).isOk

/-- The attempt subscribed and broke off with a read error. -/
def readError (config : ReconnectConfig) (a : FeedAttempt) : Bool :=
  a.subscribed && (receiveLoop config.staleTimeoutNs false a.startNs a.rounds).any (·.isSome)

theorem result_cases {config : ReconnectConfig} {a : FeedAttempt} {result : Except String Unit}
    (h : a.connectAndRun config = some result) :
    result.isOk = (a.subscribed && !a.readError config) := by
  unfold connectAndRun at h
  unfold readError subscribed
  split at h
  · rename_i hconnection
    cases h
    simp [hconnection, Except.isOk, Except.toBool]
  · rename_i hconnection
    split at h
    · rename_i hsubscribe
      cases h
      simp [hconnection, hsubscribe, Except.isOk, Except.toBool]
    · rename_i hsubscribe
      obtain ⟨ending, hending, rfl⟩ := Option.map_eq_some_iff.mp h
      cases ending <;> simp [hconnection, hsubscribe, hending, Except.isOk, Except.toBool]

end FeedAttempt

/-- The connection loop of the market data client between two attempts: the backoff, whether the
    loop goes on, and the delay it waits. -/
structure FeedLink where
  reconnect : ReconnectState
  running : Bool
  delay : Option Nat
  deriving DecidableEq

namespace FeedLink

def new (config : ReconnectConfig) : FeedLink := ⟨.new config, true, none⟩

/-- One round of `connection_loop`, with an attempt that has ended. -/
def step (config : ReconnectConfig) (s : FeedLink) (a : FeedAttempt) : Option FeedLink :=
  if s.running then
    match a.connectAndRun config with
    | none => none
    | some result =>
      if a.stopped then
        some ⟨if result.isOk then s.reconnect.reset config else s.reconnect, false, none⟩
      else
        let (reconnect, delay) := s.reconnect.settle config result.isOk
        some ⟨reconnect, delay.isSome, delay⟩
  else none

end FeedLink

end MarketMaker
