import MarketMaker.Base.Run
import MarketMaker.Trading.Reconnect
import MarketMaker.App.WarmUp

/-!
# The market data feed

The loop of `websocket/client.rs`, the channel of its events and the main loop at the other end, which asks
for another connection when the depth of a symbol runs out.  The client stands at a program point; a move is
what it does up to its next await, with what the network delivers.

* `WsClient.follow` — the order the events come in: a message only between the `Connected` and the
  `Disconnected` of its own attempt.
* `MarketFeed.Inv.step` — the channel keeps to that order, from what the main loop has seen to where the
  client stands, whatever the two do.
* `MarketFeed.one_connection` — a trade is based on the books of one connection alone, the one that is open.
-/

set_option autoImplicit false

namespace MarketMaker

open Word64 Runs

/-! ## The client -/

/-- `StandXMessage`, as far as the main loop tells them apart. -/
inductive MarketMessage where
  | depthBook (book : OrderbookSnapshot)
  | other
  deriving DecidableEq

/-- `WsEvent`. -/
inductive FeedEvent where
  | connected
  | disconnected (reason : String)
  | message (message : MarketMessage)
  | parseError (error : String)
  | error (error : String)
  deriving DecidableEq

/-- Where the connection loop stands. -/
inductive FeedPoint where
  | check
  | connecting
  | subscribing (left : List String)
  | reading (lastMessageNs : Nat)
  | sending (event : FeedEvent) (next : FeedPoint)
  | attempted
  | sleeping (delaySecs : Nat)
  | exited

/-- What the wait of the message loop ends with; a message is text or binary, parsed or not. -/
inductive FeedRead where
  | message (message : Except String MarketMessage)
  | control
  | failed (error : String)
  | ended
  | silent
  | notified

/-- One turn of the message loop: the clock at its top, what the wait ends with, and the clock then. -/
structure FeedTurn where
  nowNs : Nat
  read : FeedRead
  readNs : Nat

inductive FeedMove where
  | check
  | connect (connection : Except String Unit)
  | subscribe (sent : Except String Unit)
  | start (nowNs : Nat)
  | turn (turn : FeedTurn)
  | send
  | settle
  | wake
  | stop

/-- The capacity of the event channel. -/
def FEED_CHANNEL_CAPACITY : Nat := 10000

/-- `WsClient` with its loop and its channel.  `permit` is the one permit of `Notify`.  The number of the
    attempt, with which the events are marked, and the attempt whose `Connected` is not followed by a
    `Disconnected` yet are records nothing reads. -/
structure WsClient where
  config : ReconnectConfig
  symbols : List String
  running : Bool
  permit : Bool
  reconnect : ReconnectState
  point : FeedPoint
  channel : List (Nat × FeedEvent)
  attempt : Nat
  opened : Option Nat

namespace WsClient

/-- `build` and `run`. -/
def run (config : ReconnectConfig) (symbols : List String) : WsClient where
  config := config
  symbols := symbols
  running := true
  permit := false
  reconnect := .new config
  point := .check
  channel := []
  attempt := 0
  opened := none

/-- `force_reconnect`. -/
def forceReconnect (c : WsClient) : WsClient := { c with permit := true }

/-- The order of the events: which attempt is open after an event, if the event may come now. -/
def follow (opened : Option Nat) : Nat × FeedEvent → Option (Option Nat)
  | (attempt, .connected) => if opened = none then some (some attempt) else none
  | (_, .disconnected _) => some none
  | (attempt, .message _) | (attempt, .parseError _) => if opened = some attempt then some opened else none
  | (_, .error _) => some opened

/-- `connect_and_run` returned `Err`. -/
def failed (c : WsClient) (error : String) : WsClient := { c with point := .sending (.error error) .attempted }

/-- `connect_and_run` returned `Ok`. -/
def closed (c : WsClient) : WsClient := { c with reconnect := c.reconnect.reset c.config, point := .attempted }

/-- One turn of the message loop. -/
def onTurn (c : WsClient) (lastMessageNs : Nat) (turn : FeedTurn) : Option WsClient :=
  if !c.running then some c.closed
  else if c.config.staleTimeoutNs < turn.nowNs - lastMessageNs then some c.closed
  else
    match turn.read with
    | .notified => if c.permit then some { c.closed with permit := false } else none
    | .message (.ok message) => some { c with point := .sending (.message message) (.reading turn.readNs) }
    | .message (.error error) => some { c with point := .sending (.parseError error) (.reading turn.readNs) }
    | .control => some { c with point := .reading turn.readNs }
    | .failed error => some (c.failed error)
    | .ended => some c.closed
    | .silent => some { c with point := .reading lastMessageNs }

/-- After an attempt: the end, or the backoff. -/
def settle (c : WsClient) : WsClient :=
  if !c.running then { c with point := .exited }
  else
    match c.reconnect.nextDelay c.config with
    | (reconnect, some delay) =>
      { c with
        reconnect := reconnect
        point := .sending (.disconnected ("Reconnecting in " ++ toString delay ++ "s")) (.sleeping delay) }
    | (reconnect, none) => { c with reconnect := reconnect, point := .exited }

/-- A move of `connection_loop`. -/
def step (c : WsClient) : FeedMove → Option WsClient
  | .check =>
    match c.point with
    | .check =>
      if c.running then some { c with point := .connecting, attempt := c.attempt + 1 }
      else some { c with point := .exited }
    | _ => none
  | .connect connection =>
    match c.point with
    | .connecting =>
      match connection with
      | .ok () => some { c with point := .sending .connected (.subscribing c.symbols) }
      | .error error => some (c.failed error)
    | _ => none
  | .subscribe sent =>
    match c.point with
    | .subscribing (_ :: left) =>
      match sent with
      | .ok () => some { c with point := .subscribing left }
      | .error error => some (c.failed error)
    | _ => none
  | .start nowNs =>
    match c.point with
    | .subscribing [] => some { c with point := .reading nowNs }
    | _ => none
  | .turn turn =>
    match c.point with
    | .reading lastMessageNs => c.onTurn lastMessageNs turn
    | _ => none
  | .send =>
    match c.point with
    | .sending event next =>
      if c.channel.length < FEED_CHANNEL_CAPACITY then
        some { c with
          point := next
          channel := c.channel ++ [(c.attempt, event)]
          opened := (follow c.opened (c.attempt, event)).getD c.opened }
      else none
    | _ => none
  | .settle =>
    match c.point with
    | .attempted => some c.settle
    | _ => none
  | .wake =>
    match c.point with
    | .sleeping _ => some { c with point := .check }
    | _ => none
  | .stop => some { c with running := false }

/-- Where the loop stands fits what it has sent: all events still to come in this attempt may come. -/
def Fits (attempt : Nat) : Option Nat → FeedPoint → Prop
  | opened, .check | opened, .connecting | opened, .sleeping _ => opened = none
  | opened, .subscribing _ | opened, .reading _ => opened = some attempt
  | opened, .sending event next => ∃ opened', follow opened (attempt, event) = some opened' ∧
      Fits attempt opened' next
  | _, .attempted | _, .exited => True

variable {c c' : WsClient} {move : FeedMove}

theorem fits_failed (c : WsClient) (error : String) :
    Fits (c.failed error).attempt (c.failed error).opened (c.failed error).point :=
  ⟨c.opened, rfl, trivial⟩

theorem fits_onTurn {lastMessageNs : Nat} {turn : FeedTurn} (hpoint : c.opened = some c.attempt)
    (h : c.onTurn lastMessageNs turn = some c') : Fits c'.attempt c'.opened c'.point := by
  unfold onTurn at h
  split at h
  · cases h
    trivial
  split at h
  · cases h
    trivial
  split at h
  · split at h <;> cases h
    trivial
  · cases h
    exact ⟨c.opened, if_pos hpoint, hpoint⟩
  · cases h
    exact ⟨c.opened, if_pos hpoint, hpoint⟩
  · cases h
    exact hpoint
  · cases h
    exact c.fits_failed _
  · cases h
    trivial
  · cases h
    exact hpoint

/-- A turn of the message loop only prepares what is sent. -/
theorem onTurn_channel {lastMessageNs : Nat} {turn : FeedTurn} (h : c.onTurn lastMessageNs turn = some c') :
    c'.channel = c.channel ∧ c'.opened = c.opened := by
  unfold onTurn at h
  split at h
  · cases h
    exact ⟨rfl, rfl⟩
  split at h
  · cases h
    exact ⟨rfl, rfl⟩
  split at h
  · split at h <;> cases h
    exact ⟨rfl, rfl⟩
  all_goals
    cases h
    exact ⟨rfl, rfl⟩

theorem fits_settle (c : WsClient) : Fits c.settle.attempt c.settle.opened c.settle.point := by
  unfold settle
  split
  · trivial
  · split
    · exact ⟨none, rfl, rfl⟩
    · trivial

/-- What a move adds to the channel: at most one event, and that may come. -/
structure Adds (c c' : WsClient) : Prop where
  event : c'.channel = c.channel ∧ c'.opened = c.opened ∨
    ∃ e, c'.channel = c.channel ++ [e] ∧ follow c.opened e = some c'.opened
  fits : Fits c'.attempt c'.opened c'.point

theorem step_adds (h : c.step move = some c') (hfits : Fits c.attempt c.opened c.point) : Adds c c' := by
  cases move with
  | check =>
    cases hpoint : c.point <;> simp only [step, hpoint, reduceCtorEq] at h
    rw [hpoint] at hfits
    split at h <;> cases h
    · exact ⟨.inl ⟨rfl, rfl⟩, hfits⟩
    · exact ⟨.inl ⟨rfl, rfl⟩, trivial⟩
  | connect connection =>
    cases hpoint : c.point <;> simp only [step, hpoint, reduceCtorEq] at h
    rw [hpoint] at hfits
    have hnone : c.opened = none := hfits
    cases connection <;> cases h
    · exact ⟨.inl ⟨rfl, rfl⟩, c.fits_failed _⟩
    · exact ⟨.inl ⟨rfl, rfl⟩, some c.attempt, if_pos hnone, rfl⟩
  | subscribe sent =>
    cases hpoint : c.point with
    | subscribing left =>
      rw [hpoint] at hfits
      cases left <;> simp only [step, hpoint, reduceCtorEq] at h
      cases sent <;> cases h
      · exact ⟨.inl ⟨rfl, rfl⟩, c.fits_failed _⟩
      · exact ⟨.inl ⟨rfl, rfl⟩, hfits⟩
    | _ => simp [step, hpoint] at h
  | start nowNs =>
    cases hpoint : c.point with
    | subscribing left =>
      rw [hpoint] at hfits
      cases left <;> simp only [step, hpoint, reduceCtorEq, Option.some.injEq] at h
      subst h
      exact ⟨.inl ⟨rfl, rfl⟩, hfits⟩
    | _ => simp [step, hpoint] at h
  | turn turn =>
    cases hpoint : c.point <;> simp only [step, hpoint, reduceCtorEq] at h
    rw [hpoint] at hfits
    exact ⟨.inl (onTurn_channel h), fits_onTurn hfits h⟩
  | send =>
    cases hpoint : c.point <;> simp only [step, hpoint, reduceCtorEq] at h
    rw [hpoint] at hfits
    obtain ⟨opened, hfollow, hnext⟩ := hfits
    split at h <;> cases h
    rw [hfollow]
    exact ⟨.inr ⟨_, rfl, hfollow⟩, hnext⟩
  | settle =>
    cases hpoint : c.point <;> simp only [step, hpoint, reduceCtorEq, Option.some.injEq] at h
    subst h
    refine ⟨.inl ?_, c.fits_settle⟩
    unfold settle
    split
    · exact ⟨rfl, rfl⟩
    · split <;> exact ⟨rfl, rfl⟩
  | wake =>
    cases hpoint : c.point <;> simp only [step, hpoint, reduceCtorEq, Option.some.injEq] at h
    rw [hpoint] at hfits
    subst h
    exact ⟨.inl ⟨rfl, rfl⟩, hfits⟩
  | stop =>
    cases h
    exact ⟨.inl ⟨rfl, rfl⟩, hfits⟩

end WsClient

/-! ## The client and the main loop -/

/-- The client and the main loop.  Which attempt the main loop has seen opened and not closed, and which
    attempt each sample in `fed` came with, are records nothing reads. -/
structure MarketFeed where
  client : WsClient
  trader : Trader
  seen : Option Nat
  origin : String → List (Nat × Sample)

namespace MarketFeed

/-- Both at the start. -/
def new (config : AppConfig) (strategy : StrategyConfig) (historyMinutes : Nat)
    (managerConfig : String → OrderManagerConfig) (equity : SharedEquity) (startMs : Int)
    (reconnect : ReconnectConfig) : MarketFeed where
  client := .run reconnect config.symbols
  trader := .new config strategy historyMinutes managerConfig equity startMs
  seen := none
  origin _ := []

/-- A move of the client, the next event of the channel taken by the main loop, or another of its arms. -/
inductive Event where
  | client (move : FeedMove)
  | receive (now : Clocks) (symbolInfo : Option (ℚ × ℚ)) (binance : Option SharedAlpha) (reaches : Nat → Bool)
  | arm (now : Clocks) (event : App.Event)

/-- `check_depth_stale` answers that an outage has begun. -/
def outage (t : Trader) (now : Clocks) : Bool := t.app.config.symbols.any (t.app.depthExpired now)

/-- What the main loop makes of an event of the channel. -/
def received (symbolInfo : Option (ℚ × ℚ)) (binance : Option SharedAlpha) (reaches : Nat → Bool) :
    FeedEvent → Trader.Event
  | .connected => .app (.market .connected)
  | .disconnected _ => .app (.market .disconnected)
  | .message (.depthBook book) => .depthBook book symbolInfo binance reaches
  | .message .other | .parseError _ | .error _ => .app (.market .other)

/-- The main loop has handled an event, of an attempt or its own: the samples its strategies took are marked
    with the attempt, and an outage asks the client for another connection. -/
def handled (s : MarketFeed) (now : Clocks) (e : Trader.Event) (asks : Bool) (attempt : Nat) (t' : Trader) :
    MarketFeed :=
  { s with
    trader := t'
    origin := fun symbol =>
      let kept := if s.trader.fences now e symbol then [] else s.origin symbol
      kept ++ ((t'.fed symbol).drop kept.length).map (attempt, ·)
    client := if asks then s.client.forceReconnect else s.client }

def step (sqrt : ℚ → ℚ) (s : MarketFeed) : Event → Option MarketFeed
  | .client move => (s.client.step move).map fun client => { s with client := client }
  | .receive now symbolInfo binance reaches =>
    match s.client.channel with
    | [] => none
    | (attempt, event) :: rest =>
      let e := received symbolInfo binance reaches event
      (s.trader.handle sqrt now e).map fun t' =>
        let s := s.handled now e (outage s.trader now) attempt t'
        { s with
          client := { s.client with channel := rest }
          seen := (WsClient.follow s.seen (attempt, event)).getD s.seen }
  | .arm now event =>
    match event with
    | .market _ => none
    | .checkDepthStale =>
      (s.trader.handle sqrt now (.app event)).map (s.handled now (.app event) (outage s.trader now) 0)
    | _ => (s.trader.handle sqrt now (.app event)).map (s.handled now (.app event) false 0)

variable {sqrt : ℚ → ℚ} {s s' : MarketFeed} {e : Event}

/-- The channel leads from what the main loop has seen to where the client stands, and the strategies were
    fed in the open attempt only. -/
structure Inv (s : MarketFeed) : Prop where
  fits : WsClient.Fits s.client.attempt s.client.opened s.client.point
  channel : exec WsClient.follow s.seen s.client.channel = some s.client.opened
  origin : ∀ symbol, (s.origin symbol).map Prod.snd = s.trader.fed symbol
  open_ : ∀ symbol, ∀ o ∈ s.origin symbol, s.seen = some o.1

theorem inv_new (config : AppConfig) (strategy : StrategyConfig) (historyMinutes : Nat)
    (managerConfig : String → OrderManagerConfig) (equity : SharedEquity) (startMs : Int)
    (reconnect : ReconnectConfig) :
    Inv (new config strategy historyMinutes managerConfig equity startMs reconnect) :=
  ⟨rfl, rfl, fun _ => rfl, fun _ _ h => absurd h List.not_mem_nil⟩

/-- What an event adds to what the strategies were fed. -/
theorem fed_eq {t t' : Trader} {now : Clocks} {e : Trader.Event} (h : Trader.step sqrt t (now, e) = some t')
    (symbol : String) :
    ∃ new, t'.fed symbol = (if t.fences now e symbol then [] else t.fed symbol) ++ new ∧
      (new ≠ [] → ∃ book symbolInfo binance reaches, e = .depthBook book symbolInfo binance reaches) := by
  rcases Trader.step_cases h with ⟨event, he, _, rfl⟩ | ⟨book, symbolInfo, binance, reaches, he, rfl⟩ |
    ⟨book, symbolInfo, binance, reaches, strategy, quote, he, _, rfl⟩
  · exact ⟨[], (List.append_nil _).symm, fun h => absurd rfl h⟩
  · exact ⟨[], (List.append_nil _).symm, fun h => absurd rfl h⟩
  · by_cases hs : symbol = book.symbol
    · subst hs
      exact ⟨_, Function.update_self .., fun _ => ⟨book, symbolInfo, binance, reaches, he⟩⟩
    · exact ⟨[], (Function.update_of_ne hs _ _).trans (List.append_nil _).symm, fun h => absurd rfl h⟩

/-- The marks stay those of what the strategies were fed. -/
theorem origin_handled (h : Inv s) (asks : Bool) (attempt : Nat) {now : Clocks} {e : Trader.Event} {t' : Trader}
    (hstep : Trader.step sqrt s.trader (now, e) = some t') (symbol : String) :
    ∃ new, (s.handled now e asks attempt t').origin symbol =
        (if s.trader.fences now e symbol then [] else s.origin symbol) ++ new.map (attempt, ·) ∧
      ((s.handled now e asks attempt t').origin symbol).map Prod.snd = t'.fed symbol ∧
      (new ≠ [] → ∃ book symbolInfo binance reaches, e = .depthBook book symbolInfo binance reaches) := by
  obtain ⟨new, hfed, hbook⟩ := fed_eq hstep symbol
  have hkept : ((if s.trader.fences now e symbol then [] else s.origin symbol).map Prod.snd) =
      if s.trader.fences now e symbol then [] else s.trader.fed symbol := by
    split
    · rfl
    · exact h.origin symbol
  have hlength := congrArg List.length hkept
  rw [List.length_map] at hlength
  have hdrop : (t'.fed symbol).drop (if s.trader.fences now e symbol then [] else s.origin symbol).length =
      new := by
    rw [hfed, hlength, List.drop_left]
  have horigin : (s.handled now e asks attempt t').origin symbol =
      (if s.trader.fences now e symbol then [] else s.origin symbol) ++ new.map (attempt, ·) := by
    rw [← hdrop]
    rfl
  refine ⟨new, horigin, ?_, hbook⟩
  rw [horigin, List.map_append, hkept, hfed, List.map_map]
  congr 1
  exact List.map_id new

/-- Another connection may be asked for at any time. -/
theorem asked_client (s : MarketFeed) (now : Clocks) (e : Trader.Event) (asks : Bool) (attempt : Nat)
    (t' : Trader) :
    (s.handled now e asks attempt t').client.point = s.client.point ∧
      (s.handled now e asks attempt t').client.channel = s.client.channel ∧
      (s.handled now e asks attempt t').client.attempt = s.client.attempt ∧
      (s.handled now e asks attempt t').client.opened = s.client.opened := by
  cases asks <;> exact ⟨rfl, rfl, rfl, rfl⟩

theorem Inv.client {move : FeedMove} (h : Inv s) (hstep : step sqrt s (.client move) = some s') : Inv s' := by
  obtain ⟨client, hclient, rfl⟩ := Option.map_eq_some_iff.mp hstep
  have hadds := WsClient.step_adds hclient h.fits
  refine ⟨hadds.fits, ?_, h.origin, h.open_⟩
  dsimp only
  rcases hadds.event with ⟨hchannel, hopened⟩ | ⟨event, hchannel, hfollow⟩
  · rw [hchannel, hopened]
    exact h.channel
  · rw [hchannel, exec_append, h.channel]
    exact (exec_singleton _ _).trans hfollow

/-- Another arm of the main loop. -/
theorem arm_some {now : Clocks} {event : App.Event} (hstep : step sqrt s (.arm now event) = some s') :
    ∃ asks t', Trader.step sqrt s.trader (now, .app event) = some t' ∧
      s' = s.handled now (.app event) asks 0 t' := by
  cases event with
  | market => cases hstep
  | checkDepthStale =>
    simp only [step] at hstep
    obtain ⟨t', ht', rfl⟩ := Option.map_eq_some_iff.mp hstep
    exact ⟨_, t', ht', rfl⟩
  | _ =>
    simp only [step] at hstep
    obtain ⟨t', ht', rfl⟩ := Option.map_eq_some_iff.mp hstep
    exact ⟨false, t', ht', rfl⟩

theorem Inv.arm {now : Clocks} {event : App.Event} (h : Inv s)
    (hstep : step sqrt s (.arm now event) = some s') : Inv s' := by
  obtain ⟨asks, t', ht', rfl⟩ := arm_some hstep
  obtain ⟨hpoint, hchannel, hattempt, hopened⟩ := s.asked_client now (.app event) asks 0 t'
  refine ⟨?_, ?_, fun symbol => ?_, fun symbol o ho => ?_⟩
  · rw [hpoint, hattempt, hopened]
    exact h.fits
  · rw [hchannel, hopened]
    exact h.channel
  · obtain ⟨_, _, hmap, _⟩ := origin_handled h asks 0 ht' symbol
    exact hmap
  · obtain ⟨new, horigin, _, hbook⟩ := origin_handled h asks 0 ht' symbol
    have hnew : new = [] := by
      by_contra hne
      obtain ⟨_, _, _, _, heq⟩ := hbook hne
      cases heq
    rw [horigin, hnew, List.map_nil, List.append_nil] at ho
    split at ho
    · cases ho
    · exact h.open_ symbol o ho

/-- Taking the next event off the channel. -/
theorem receive_some {now : Clocks} {symbolInfo : Option (ℚ × ℚ)} {binance : Option SharedAlpha}
    {reaches : Nat → Bool} (hstep : step sqrt s (.receive now symbolInfo binance reaches) = some s') :
    ∃ attempt event rest t', s.client.channel = (attempt, event) :: rest ∧
      Trader.step sqrt s.trader (now, received symbolInfo binance reaches event) = some t' ∧
      s'.trader = t' ∧ s'.seen = (WsClient.follow s.seen (attempt, event)).getD s.seen ∧
      ∃ asks, s'.origin = (s.handled now (received symbolInfo binance reaches event) asks attempt t').origin ∧
        s'.client = { (s.handled now (received symbolInfo binance reaches event) asks attempt t').client with
          channel := rest } := by
  simp only [step] at hstep
  split at hstep
  · cases hstep
  · rename_i attempt event rest hchannel
    obtain ⟨t', ht', rfl⟩ := Option.map_eq_some_iff.mp hstep
    exact ⟨attempt, event, rest, t', hchannel, ht', rfl, rfl, _, rfl, rfl⟩

/-- Only a message brings a book, and it comes with the open attempt. -/
theorem follow_of_book {seen seen' : Option Nat} {attempt : Nat} {event : FeedEvent}
    {symbolInfo : Option (ℚ × ℚ)} {binance : Option SharedAlpha} {reaches : Nat → Bool}
    (hfollow : WsClient.follow seen (attempt, event) = some seen')
    (hbook : ∃ book symbolInfo' binance' reaches', received symbolInfo binance reaches event =
      .depthBook book symbolInfo' binance' reaches') : seen' = some attempt := by
  obtain ⟨book, _, _, _, heq⟩ := hbook
  cases event with
  | message message =>
    simp only [WsClient.follow] at hfollow
    split at hfollow <;> cases hfollow
    assumption
  | connected | disconnected | parseError | error => cases heq

/-- What an open attempt has fed is dropped when it is closed, and nothing is there when one is opened. -/
theorem follow_of_kept {t : Trader} {seen seen' : Option Nat} {attempt n : Nat} {event : FeedEvent}
    {now : Clocks} {symbolInfo : Option (ℚ × ℚ)} {binance : Option SharedAlpha} {reaches : Nat → Bool}
    {symbol : String} (hfollow : WsClient.follow seen (attempt, event) = some seen') (hseen : seen = some n)
    (hkept : t.fences now (received symbolInfo binance reaches event) symbol = false) : seen' = some n := by
  subst hseen
  cases event with
  | connected => cases hfollow
  | disconnected reason => cases hkept
  | message message =>
    simp only [WsClient.follow] at hfollow
    split at hfollow <;> cases hfollow
    rfl
  | parseError error =>
    simp only [WsClient.follow] at hfollow
    split at hfollow <;> cases hfollow
    rfl
  | error error =>
    cases hfollow
    rfl

theorem Inv.receive {now : Clocks} {symbolInfo : Option (ℚ × ℚ)} {binance : Option SharedAlpha}
    {reaches : Nat → Bool} (h : Inv s)
    (hstep : step sqrt s (.receive now symbolInfo binance reaches) = some s') : Inv s' := by
  obtain ⟨attempt, event, rest, t', hchannel, ht', htrader, hseen, asks, horigin, hclient⟩ := receive_some hstep
  obtain ⟨hpoint, _, hattempt, hopened⟩ :=
    s.asked_client now (received symbolInfo binance reaches event) asks attempt t'
  have hled := h.channel
  rw [hchannel] at hled
  obtain ⟨seen', hfollow, hrest⟩ := exec_cons_some hled
  rw [hfollow, Option.getD_some] at hseen
  refine ⟨?_, ?_, fun symbol => ?_, fun symbol o ho => ?_⟩
  · rw [hclient]
    dsimp only
    rw [hpoint, hattempt, hopened]
    exact h.fits
  · rw [hclient, hseen]
    dsimp only
    rw [hopened]
    exact hrest
  · obtain ⟨_, _, hmap, _⟩ := origin_handled h asks attempt ht' symbol
    rw [horigin, htrader]
    exact hmap
  · obtain ⟨new, hmarks, _, hbook⟩ := origin_handled h asks attempt ht' symbol
    rw [horigin, hmarks, List.mem_append] at ho
    rw [hseen]
    rcases ho with hkept | hnew
    · split at hkept
      · cases hkept
      · rename_i hfences
        exact follow_of_kept hfollow (h.open_ symbol o hkept) (Bool.eq_false_iff.mpr hfences)
    · obtain ⟨sample, hsample, rfl⟩ := List.mem_map.mp hnew
      exact follow_of_book hfollow (hbook (List.ne_nil_of_mem hsample))

theorem Inv.step (h : Inv s) (hstep : MarketFeed.step sqrt s e = some s') : Inv s' := by
  cases e with
  | client move => exact h.client hstep
  | receive now symbolInfo binance reaches => exact h.receive hstep
  | arm now event => exact h.arm hstep

/-! ## Whole runs -/

/-- What the main loop does in a step, if it does anything; a book is the next message of the channel. -/
theorem trader_step (hstep : MarketFeed.step sqrt s e = some s') :
    s'.trader = s.trader ∨ ∃ e', Trader.step sqrt s.trader e' = some s'.trader ∧
      ∀ book symbolInfo binance reaches, e'.2 = .depthBook book symbolInfo binance reaches →
        ∃ attempt rest, s.client.channel = (attempt, .message (.depthBook book)) :: rest ∧
          s'.seen = (WsClient.follow s.seen (attempt, .message (.depthBook book))).getD s.seen := by
  cases e with
  | client move =>
    obtain ⟨client, _, rfl⟩ := Option.map_eq_some_iff.mp hstep
    exact .inl rfl
  | receive now symbolInfo binance reaches =>
    obtain ⟨attempt, event, rest, t', hchannel, ht', htrader, hseen, _⟩ := receive_some hstep
    refine .inr ⟨_, htrader ▸ ht', fun book _ _ _ heq => ?_⟩
    have hevent : event = .message (.depthBook book) := by
      cases event with
      | message message =>
        cases message <;> cases heq
        rfl
      | connected | disconnected | parseError | error => cases heq
    rw [hevent] at hchannel hseen
    exact ⟨attempt, rest, hchannel, hseen⟩
  | arm now event =>
    obtain ⟨asks, t', ht', rfl⟩ := arm_some hstep
    exact .inr ⟨_, ht', fun _ _ _ _ heq => by cases heq⟩

/-- **A trade is based on one connection.**  In every interleaving of the client's moves with the arms of the
    main loop, a step that queues a `Send` for a symbol or clears its `MarketData` pause takes a book of the
    symbol off the channel; the connection it came with is the one the main loop has seen opened and not
    closed, and all that the strategy's warm-up rests on came with the same one.  A history of a minute or
    more whose nanoseconds fit into 64 bits is then full. -/
theorem one_connection (sqrt : ℚ → ℚ) (config : AppConfig) (strategy : StrategyConfig) (historyMinutes : Nat)
    (managerConfig : String → OrderManagerConfig) (equity : SharedEquity) (startMs : Int)
    (reconnect : ReconnectConfig) (es : List Event) (s s' : MarketFeed) (e : Event)
    (hexec : exec (step sqrt) (new config strategy historyMinutes managerConfig equity startMs reconnect) es =
      some s)
    (hstep : step sqrt s e = some s') (symbol : String)
    (htrades : Trader.Sends s.trader s'.trader symbol ∨ Trader.Clears s.trader s'.trader symbol) :
    ∃ attempt book rest, s.client.channel = (attempt, .message (.depthBook book)) :: rest ∧
      book.symbol = symbol ∧ s.seen = some attempt ∧ s'.seen = some attempt ∧
      (s'.origin symbol).map Prod.snd = s'.trader.fed symbol ∧ (∀ o ∈ s'.origin symbol, o.1 = attempt) ∧
      (0 < historyMinutes → historyMinutes * 60 * 1000000000 < size →
        Trader.WarmedUp historyMinutes config.depthStaleTimeoutSecs s'.trader symbol) := by
  obtain ⟨hinv, htrader⟩ := exec_invariant
    (fun s : MarketFeed => Inv s ∧ Trader.Inv sqrt config historyMinutes s.trader)
    (fun s e s' h hstep => ⟨h.1.step hstep, by
      rcases trader_step hstep with heq | ⟨e', he', _⟩
      · rw [heq]
        exact h.2
      · exact h.2.step he'⟩)
    ⟨inv_new .., Trader.inv_new ..⟩ hexec
  have hinv' := hinv.step hstep
  rcases trader_step hstep with heq | ⟨e', he', hbooks⟩
  · -- Nothing has happened to the application.
    rw [heq] at htrades
    rcases htrades with ⟨old, new, q, hold, hnew, hq, _⟩ | ⟨hset, hclear⟩
    · rw [hold, Option.some.injEq] at hnew
      rw [List.self_eq_append_right.mp hnew] at hq
      cases hq
    · rw [hset] at hclear
      cases hclear
  · obtain ⟨quote, hquoted, hvalid⟩ :=
      htrades.elim (Trader.quoted_of_sends he') (Trader.quoted_of_clears he')
    obtain ⟨book, symbolInfo, binance, reaches, hevent, hsymbol, _⟩ := hquoted.updated
    obtain ⟨attempt, rest, hchannel, hseen⟩ := hbooks book symbolInfo binance reaches hevent
    have hled := hinv.channel
    rw [hchannel] at hled
    obtain ⟨seen, hfollow, _⟩ := exec_cons_some hled
    have hopen : s.seen = some attempt ∧ seen = s.seen := by
      simp only [WsClient.follow] at hfollow
      split at hfollow <;> cases hfollow
      exact ⟨‹_›, rfl⟩
    rw [hfollow, Option.getD_some, hopen.2, hopen.1] at hseen
    refine ⟨attempt, book, rest, hchannel, hsymbol, hopen.1, hseen, hinv'.origin symbol, fun o ho => ?_,
      fun hpos hexact => htrader.warmedUp he' hpos hexact hquoted hvalid⟩
    have hmark := hinv'.open_ symbol o ho
    rw [hseen, Option.some.injEq] at hmark
    exact hmark.symm

/-! ### A flat market over two connections -/

/-- A quiet book, four seconds after the one before. -/
def flatBook (n : Nat) : OrderbookSnapshot where
  symbol := "BTC-USD"
  timestampNs := 0
  receivedAtNs := (4 * n + 1) * 1000000000
  sequence := n + 1
  bids := [⟨some (9999 / 100), some 1⟩]
  asks := [⟨some (10001 / 100), some 1⟩]

/-- The book is read and sent. -/
def reads (n : Nat) : List Event :=
  [.client (.turn ⟨(4 * n + 1) * 1000000000, .message (.ok (.depthBook (flatBook n))), (4 * n + 1) * 1000000000⟩),
   .client .send]

/-- The main loop takes the next event in. -/
def takes (n : Nat) : Event := .receive (App.atSecond (4 * n + 1)) none none fun _ => true

/-- Position, equity and order socket are there, and the client connects. -/
def connects (n : Nat) : List Event :=
  [.arm (App.atSecond 1) (.publishPosition "BTC-USD" 0), .arm (App.atSecond 1) (.publishEquity (some 1000)),
   .client .check, .client (.connect (.ok ())), .client .send, takes n, .client (.subscribe (.ok ())),
   .client (.start ((4 * n + 1) * 1000000000))]

/-- Three books, a read error, and fifteen books of the next connection. -/
def reconnected : List Event :=
  connects 0 ++ (List.range 3).flatMap (fun n => reads n ++ [takes n]) ++
  [.client (.turn ⟨9000000000, .failed "connection reset", 9000000000⟩), .client .send, takes 2, .client .settle,
   .client .send, takes 2, .client .wake] ++
  connects 3 ++ (List.range 15).flatMap (fun n => reads (n + 3) ++ [takes (n + 3)]) ++ reads 18

/-- With one minute of history configured, the 16th book of the second connection is the first to trade. -/
theorem one_connection_reconnected :
    ∃ s s', exec (step Trader.sqrtFlat) (new .default Trader.fourASecond 1
        (fun symbol => { OrderManagerConfig.default with symbol := symbol }) (.new 1 10 1) 0 .forOrderbook)
          reconnected = some s ∧
      step Trader.sqrtFlat s (takes 18) = some s' ∧ s'.seen = some 2 ∧
      Trader.WarmedUp 1 5 s'.trader "BTC-USD" ∧ ∀ o ∈ s'.origin "BTC-USD", o.1 = 2 := by
  have hrun : (exec (step Trader.sqrtFlat) (new .default Trader.fourASecond 1
      (fun symbol => { OrderManagerConfig.default with symbol := symbol }) (.new 1 10 1) 0 .forOrderbook)
        reconnected).any (fun s => (step Trader.sqrtFlat s (takes 18)).any fun s' =>
          decide (s'.seen = some 2 ∧ Trader.Clears s.trader s'.trader "BTC-USD")) = true := by
    decide +kernel
  obtain ⟨s, hexec, hlast⟩ := (Option.any_eq_true _ _).mp hrun
  obtain ⟨s', hstep, hat⟩ := (Option.any_eq_true _ _).mp hlast
  obtain ⟨hseen, hclears⟩ := of_decide_eq_true hat
  obtain ⟨attempt, _, _, _, _, _, hopen, _, horigin, hwarm⟩ := one_connection Trader.sqrtFlat .default
    Trader.fourASecond 1 (fun symbol => { OrderManagerConfig.default with symbol := symbol }) (.new 1 10 1) 0
    .forOrderbook reconnected s s' (takes 18) hexec hstep "BTC-USD" (.inr hclears)
  rw [hseen, Option.some.injEq] at hopen
  exact ⟨s, s', hexec, hstep, hseen, hwarm (by decide) (by decide), hopen ▸ horigin⟩

end MarketFeed

end MarketMaker
