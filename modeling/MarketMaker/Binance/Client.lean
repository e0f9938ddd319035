import MarketMaker.Base.Run
import MarketMaker.Binance.Imbalance
import MarketMaker.Trading.Reconnect

/-!
# The Binance client

`BinanceClient` of `src/binance/client.rs`: `run` spawns the connection loop, which connects, reads the
depth stream and sends events over a channel of 256, until it finds the running flag down.  The loop
stands at a program point; a move is what it does up to its next await, with what the network delivers.

* `step_stays` — a move of the loop changes neither the flag nor the configuration.
* `Lasting.step` — with unlimited retries a loop whose flag is up does not end; `runs_live` — in any run.
-/

set_option autoImplicit false

namespace MarketMaker

open Word64 Runs

/-- The `Display` text. -/
def ParseError.message : ParseError → String
  | .invalidPrice s => "Failed to parse price: " ++ s
  | .invalidQuantity s => "Failed to parse quantity: " ++ s

/-- The `Display` text. -/
def SyncError.message : SyncError → String
  | .sequenceGap expected got =>
    "Sequence gap: expected U <= " ++ toString expected ++ " + 1, got U = " ++ toString got
  | .sequenceBreak expected got =>
    "Sequence break: expected U = " ++ toString expected ++ ", got U = " ++ toString got
  | .parse e => "Parse error: " ++ e.message

/-- `BinanceEvent`. -/
inductive BinanceEvent where
  | snapshot (snapshot : OrderbookSnapshot)
  | synced
  | disconnected (reason : String)
  | error (error : String)
  deriving DecidableEq

/-- `BinanceClientConfig`, the fields the connection loop reads; the URLs decide what the network is. -/
structure BinanceClientConfig where
  symbol : String
  reconnect : ReconnectConfig

namespace BinanceClientConfig

/-- `default`. -/
def default : BinanceClientConfig := ⟨"btcusdt", .forOrderbook⟩

/-- `with_symbol`, of an ASCII symbol. -/
def withSymbol (config : BinanceClientConfig) (symbol : String) : BinanceClientConfig :=
  { config with symbol := symbol.toLower }

end BinanceClientConfig

/-- `MAX_CONNECTION_DURATION` in nanoseconds. -/
def MAX_CONNECTION_DURATION_NS : Nat := 82800000000000

/-- The capacity of the event channel. -/
def EVENT_CHANNEL_CAPACITY : Nat := 256

/-- The locals of the message loop: the book, `connection_start` and `last_message_time`. -/
structure DepthStream where
  book : BinanceOrderbook
  startNs : Nat
  lastMessageNs : Nat

/-- Where the connection loop stands. -/
inductive ClientPoint where
  | check
  | connecting (startNs : Nat)
  | reading (stream : DepthStream)
  | sending (event : BinanceEvent) (next : ClientPoint)
  | attempted
  | sleeping (delaySecs : Nat)
  | exited

/-- What a read of the stream delivers within five seconds; a message that is neither text nor binary
    is a control frame. -/
inductive DepthRead where
  | update (update : BinanceDepthUpdate)
  | unreadable (error : String)
  | control
  | failed (error : String)
  | ended
  | silent

/-- One turn of the message loop: the clock at its top, the read, and the clocks after it. -/
structure DepthTurn where
  nowNs : Nat
  read : DepthRead
  readNs : Nat
  wallNs : Int

/-- A move of the loop.  A connection delivers the REST snapshot or the error that ended it. -/
inductive ClientMove where
  | check (nowNs : Nat)
  | connect (connection : Except String BinanceDepthSnapshot) (nowNs : Nat)
  | turn (turn : DepthTurn)
  | send
  | settle
  | wake

/-- `BinanceClient` with its spawned loop: the flags, the backoff and the point of the loop, and the
    channel of events. -/
structure BinanceClient where
  config : BinanceClientConfig
  running : Bool
  needsResync : Bool
  reconnect : ReconnectState
  point : ClientPoint
  channel : List BinanceEvent
  receiverOpen : Bool

namespace BinanceClient

/-- `with_config` and `run`: the flag is up and the loop is spawned. -/
def run (config : BinanceClientConfig) : BinanceClient where
  config := config
  running := true
  needsResync := false
  reconnect := .new config.reconnect
  point := .check
  channel := []
  receiverOpen := true

/-- `stop`. -/
def stop (c : BinanceClient) : BinanceClient := { c with running := false }

/-- The receiver goes out of scope. -/
def dropReceiver (c : BinanceClient) : BinanceClient := { c with channel := [], receiverOpen := false }

/-- `connect_and_stream` returned `Err`. -/
def failed (c : BinanceClient) (error : String) : BinanceClient :=
  { c with point := .sending (.error error) .attempted }

/-- `connect_and_stream` returned `Ok`. -/
def closed (c : BinanceClient) : BinanceClient :=
  { c with reconnect := c.reconnect.reset c.config.reconnect, point := .attempted }

/-- `connect_and_stream` up to its message loop. -/
def connect (parse : String → Option F64) (c : BinanceClient) (startNs : Nat)
    (connection : Except String BinanceDepthSnapshot) (nowNs : Nat) : BinanceClient :=
  match connection with
  | .error error => c.failed error
  | .ok snapshot =>
    match (BinanceOrderbook.new c.config.symbol.toUpper).initFromSnapshot parse snapshot with
    | (_, .error e) => c.failed e.message
    | (book, .ok ()) => { c with point := .reading ⟨book, startNs, nowNs⟩ }

/-- A depth update in the message loop. -/
def onUpdate (parse : String → Option F64) (c : BinanceClient) (stream : DepthStream)
    (update : BinanceDepthUpdate) (wallNs : Int) : BinanceClient :=
  match stream.book.applyUpdate parse update with
  | (book, .ok true) =>
    if book.isSynced then
      { c with point := .sending (.snapshot (book.toSnapshot wallNs)) (.reading { stream with book := book }) }
    else { c with point := .reading { stream with book := book } }
  | (book, .ok false) => { c with point := .reading { stream with book := book } }
  | (_, .error (.sequenceGap _ _)) | (_, .error (.sequenceBreak _ _)) => { c with needsResync := true }.closed
  | (_, .error (.parse _)) => c.closed

/-- One turn of the message loop. -/
def onTurn (parse : String → Option F64) (c : BinanceClient) (stream : DepthStream) (turn : DepthTurn) :
    BinanceClient :=
  if !c.running then c.closed
  else if MAX_CONNECTION_DURATION_NS < turn.nowNs - stream.startNs then c.closed
  else if c.config.reconnect.staleTimeoutNs < turn.nowNs - stream.lastMessageNs then c.closed
  else
    let received := { stream with lastMessageNs := turn.readNs }
    match turn.read with
    | .update update => c.onUpdate parse received update turn.wallNs
    | .unreadable error => c.failed error
    | .control => { c with point := .reading received }
    | .failed error => c.failed error
    | .ended => c.closed
    | .silent => { c with point := .reading stream }

/-- `tx.send(..).await`: an error if the receiver is gone, a wait if the channel is full. -/
def send (c : BinanceClient) (event : BinanceEvent) (next : ClientPoint) : Option BinanceClient :=
  if !c.receiverOpen then some { c with point := next }
  else if c.channel.length < EVENT_CHANNEL_CAPACITY then
    some { c with channel := c.channel ++ [event], point := next }
  else none

/-- The loop after an attempt: an immediate resync, the end, or the backoff. -/
def settle (c : BinanceClient) : BinanceClient :=
  if c.needsResync then { c with needsResync := false, point := .check }
  else if !c.running then { c with point := .exited }
  else
    match c.reconnect.nextDelay c.config.reconnect with
    | (reconnect, some delay) =>
      { c with
        reconnect := reconnect
        point := .sending (.disconnected ("Reconnecting in " ++ toString delay ++ "s")) (.sleeping delay) }
    | (reconnect, none) =>
      { c with
        reconnect := reconnect
        point := .sending (.error "Max reconnection attempts exceeded") .exited }

/-- A move of `connection_loop`. -/
def step (parse : String → Option F64) (c : BinanceClient) : ClientMove → Option BinanceClient
  | .check nowNs =>
    match c.point with
    | .check => some { c with point := if c.running then .connecting nowNs else .exited }
    | _ => none
  | .connect connection nowNs =>
    match c.point with
    | .connecting startNs => some (c.connect parse startNs connection nowNs)
    | _ => none
  | .turn turn =>
    match c.point with
    | .reading stream => some (c.onTurn parse stream turn)
    | _ => none
  | .send =>
    match c.point with
    | .sending event next => c.send event next
    | _ => none
  | .settle =>
    match c.point with
    | .attempted => some c.settle
    | _ => none
  | .wake =>
    match c.point with
    | .sleeping _ => some { c with point := .check }
    | _ => none

/-- The loop has ended. -/
def hasExited (c : BinanceClient) : Bool :=
  match c.point with
  | .exited => true
  | _ => false

/-- The loop can open another connection. -/
def live (c : BinanceClient) : Bool := c.running && !c.hasExited

end BinanceClient

/-! ## A loop that is not stopped goes on -/

/-- The loop is not past its last check. -/
def ClientPoint.lasts : ClientPoint → Bool
  | .exited => false
  | .sending _ next => next.lasts
  | _ => true

namespace BinanceClient

variable {parse : String → Option F64} {c c' : BinanceClient}

/-- What every move keeps; the loop itself lasts if it may retry without end and nobody stops it. -/
structure Stays (c c' : BinanceClient) : Prop where
  config_eq : c'.config = c.config
  running_eq : c'.running = c.running
  lasts : c.config.reconnect.maxRetries = none → c.running = true → c.point.lasts = true →
    c'.point.lasts = true

theorem failed_stays (c : BinanceClient) (error : String) : Stays c (c.failed error) :=
  ⟨rfl, rfl, fun _ _ _ => rfl⟩

theorem closed_stays (c : BinanceClient) : Stays c c.closed := ⟨rfl, rfl, fun _ _ _ => rfl⟩

theorem connect_stays (c : BinanceClient) (startNs : Nat) (connection : Except String BinanceDepthSnapshot)
    (nowNs : Nat) : Stays c (c.connect parse startNs connection nowNs) := by
  unfold connect
  split
  · exact failed_stays c _
  · split
    · exact failed_stays c _
    · exact ⟨rfl, rfl, fun _ _ _ => rfl⟩

theorem onUpdate_stays (c : BinanceClient) (stream : DepthStream) (update : BinanceDepthUpdate)
    (wallNs : Int) : Stays c (c.onUpdate parse stream update wallNs) := by
  unfold onUpdate
  split
  · split <;> exact ⟨rfl, rfl, fun _ _ _ => rfl⟩
  · exact ⟨rfl, rfl, fun _ _ _ => rfl⟩
  · exact ⟨rfl, rfl, fun _ _ _ => rfl⟩
  · exact ⟨rfl, rfl, fun _ _ _ => rfl⟩
  · exact closed_stays c

theorem onTurn_stays (c : BinanceClient) (stream : DepthStream) (turn : DepthTurn) :
    Stays c (c.onTurn parse stream turn) := by
  unfold onTurn
  split
  · exact closed_stays c
  split
  · exact closed_stays c
  split
  · exact closed_stays c
  dsimp only
  split
  · exact onUpdate_stays c _ _ _
  · exact failed_stays c _
  · exact ⟨rfl, rfl, fun _ _ _ => rfl⟩
  · exact failed_stays c _
  · exact closed_stays c
  · exact ⟨rfl, rfl, fun _ _ _ => rfl⟩

theorem send_stays {event : BinanceEvent} {next : ClientPoint} (hpoint : c.point = .sending event next)
    (h : c.send event next = some c') : Stays c c' := by
  have hnext : c.point.lasts = next.lasts := by rw [hpoint, ClientPoint.lasts]
  unfold send at h
  split at h
  · cases h
    exact ⟨rfl, rfl, fun _ _ hlasts => hnext ▸ hlasts⟩
  · split at h
    · cases h
      exact ⟨rfl, rfl, fun _ _ hlasts => hnext ▸ hlasts⟩
    · cases h

/-- The backoff gives up only after a limit. -/
theorem settle_stays (c : BinanceClient) : Stays c c.settle := by
  unfold settle
  split
  · exact ⟨rfl, rfl, fun _ _ _ => rfl⟩
  split
  · rename_i hstopped
    refine ⟨rfl, rfl, ?_⟩
    intro _ hrunning
    rw [hrunning] at hstopped
    cases hstopped
  split
  · exact ⟨rfl, rfl, fun _ _ _ => rfl⟩
  · rename_i hnext
    refine ⟨rfl, rfl, ?_⟩
    intro hunlimited
    obtain ⟨max, hmax, _⟩ := ReconnectState.nextDelay_none (congrArg Prod.snd hnext)
    rw [hunlimited] at hmax
    cases hmax

theorem step_stays {m : ClientMove} (h : c.step parse m = some c') : Stays c c' := by
  unfold step at h
  split at h <;> split at h <;> try cases h
  · refine ⟨rfl, rfl, ?_⟩
    intro _ hrunning _
    dsimp only
    rw [if_pos hrunning]
    rfl
  · exact connect_stays c _ _ _
  · exact onTurn_stays c _ _
  · rename_i hpoint
    exact send_stays hpoint h
  · exact settle_stays c
  · exact ⟨rfl, rfl, fun _ _ _ => rfl⟩

/-- Retries are unlimited, and while the flag is up the loop lasts. -/
structure Lasting (c : BinanceClient) : Prop where
  unlimited : c.config.reconnect.maxRetries = none
  lasts : c.running = true → c.point.lasts = true

theorem run_lasting {config : BinanceClientConfig} (h : config.reconnect.maxRetries = none) :
    Lasting (run config) := ⟨h, fun _ => rfl⟩

theorem Lasting.step {m : ClientMove} (h : c.Lasting) (hstep : c.step parse m = some c') : c'.Lasting := by
  have hstays := step_stays hstep
  refine ⟨by rw [hstays.config_eq, h.unlimited], ?_⟩
  intro hrunning
  rw [hstays.running_eq] at hrunning
  exact hstays.lasts h.unlimited hrunning (h.lasts hrunning)

/-- Such a loop is live exactly while its flag is up. -/
theorem Lasting.live_eq (h : c.Lasting) : c.live = c.running := by
  unfold live
  cases hrunning : c.running with
  | false => rfl
  | true =>
    have hlasts := h.lasts hrunning
    unfold hasExited
    split
    · rename_i hexited
      rw [hexited, ClientPoint.lasts] at hlasts
      cases hlasts
    · rfl

/-- **Nothing but `stop` ends it**: whatever the network does, the loop of a client with unlimited
retries goes on. -/
theorem runs_live {moves : List ClientMove} {config : BinanceClientConfig}
    (hunlimited : config.reconnect.maxRetries = none)
    (hrun : exec (BinanceClient.step parse) (run config) moves = some c) : c.live = true := by
  have hinv := exec_invariant (fun c : BinanceClient => c.Lasting ∧ c.running = true)
    (fun _ _ _ h hstep => ⟨h.1.step hstep, (step_stays hstep).running_eq.trans h.2⟩)
    ⟨run_lasting hunlimited, rfl⟩ hrun
  rw [hinv.1.live_eq, hinv.2]

end BinanceClient

end MarketMaker
