import Mathlib.Data.List.Count
import MarketMaker.Binance.Client
import MarketMaker.Strategy.Rolling

/-!
# The Binance alpha poller

The task of `start_binance_alpha_poller` in `src/binance/mod.rs`: it creates a client, feeds its
snapshots to the calculator and publishes the alpha, and on `Disconnected` or a closed channel starts
over with a new client.  Its clients go on beside it, each with its own connection loop.

* `live_eq` — the loops that are live: one for each `Disconnected` that was handled without a stop, and
  the one that is being read from.
* `sole_loop_iff` — when there is at most one, and none after the end.
-/

set_option autoImplicit false

namespace MarketMaker

open Word64 Runs

/-! ## The signal -/

/-- An `f64` result; only finite ones are told apart. -/
def BinanceObiCalculator.toF64 : Binary64 → F64
  | .finite x => some x
  | _ => none

/-- `zscore` of a value that may not be finite. -/
def RollingStats.zscoreF64 (s : RollingStats ℚ) : F64 → F64
  | some value => some (s.zscore value)
  | none => if s.cachedStd < 1 / 10000000000 then some 0 else none

/-- `BinanceObiCalculator` with its statistics. -/
structure RollingObiCalculator extends BinanceObiCalculator where
  imbalanceStats : RollingStats ℚ
  midChangeStats : RollingStats ℚ
  prevMid : Option F64
  minSamples : Nat

namespace RollingObiCalculator

/-- `new`. -/
def new (windowSize : Nat) (h : 0 < windowSize) (lookingDepth : Binary64) : RollingObiCalculator where
  lookingDepth := lookingDepth
  imbalanceStats := .new windowSize h
  midChangeStats := .new windowSize h
  prevMid := none
  minSamples := windowSize / 2

/-- The return of the mid price, if the previous one is positive. -/
def pushReturn (sqrt : ℚ → ℚ) (c : RollingObiCalculator) (mid : F64) : RollingStats ℚ :=
  match c.prevMid with
  | some (some prev) =>
    if 0 < prev then c.midChangeStats.push sqrt (mid.map fun mid => (mid - prev) / prev) else c.midChangeStats
  | _ => c.midChangeStats

/-- `update`: the alpha and the volatility once enough samples are in. -/
def update (sqrt : ℚ → ℚ) (c : RollingObiCalculator) (snapshot : OrderbookSnapshot) :
    RollingObiCalculator × Option (F64 × F64) :=
  match snapshot.midPrice with
  | none => (c, none)
  | some mid =>
    let imbalance := BinanceObiCalculator.toF64
      (c.calculateImbalance snapshot (BinanceObiCalculator.value mid))
    let imbalanceStats := c.imbalanceStats.push sqrt imbalance
    let midChangeStats := c.pushReturn sqrt mid
    let c := { c with imbalanceStats := imbalanceStats, midChangeStats := midChangeStats, prevMid := some mid }
    if imbalanceStats.window.count < c.minSamples then (c, none)
    else (c, some (imbalanceStats.zscoreF64 imbalance, some (midChangeStats.std sqrt)))

end RollingObiCalculator

/-- The atomics of `SharedAlpha`, as the poller writes them. -/
structure SharedAlphaCells where
  alpha : F64
  volatility : F64
  lastUpdateMs : Nat
  sampleCount : Nat

namespace SharedAlphaCells

/-- `new`, and what `reset` leaves. -/
def zero : SharedAlphaCells := ⟨some 0, some 0, 0, 0⟩

/-- `update`. -/
def update (cells : SharedAlphaCells) (alpha volatility : F64) (nowMs : Nat) : SharedAlphaCells :=
  ⟨alpha, volatility, nowMs, wrappingAdd cells.sampleCount 1⟩

end SharedAlphaCells

/-- It says that the client has lost its connection. -/
def BinanceEvent.isDisconnected : BinanceEvent → Bool
  | .disconnected _ => true
  | _ => false

/-! ## The task -/

/-- Where the task stands; `obiCalc` lives as long as the events of one client are read. -/
inductive PollerPoint where
  | check
  | receiving (obiCalc : RollingObiCalculator)
  | left
  | sleeping
  | ended

/-- The task with its stop flag, the client whose receiver it holds and the earlier ones, newest first. -/
structure AlphaPoller where
  symbol : String
  windowSize : Nat
  windowSize_pos : 0 < windowSize
  lookingDepth : Binary64
  stopFlag : Bool
  point : PollerPoint
  current : Option BinanceClient
  former : List BinanceClient
  sharedAlpha : SharedAlphaCells

/-- What happens: a stop request through the handle, a move of the task, or a move of the connection
    loop of a client. -/
inductive PollerEvent where
  | stop
  | check
  | recv (nowMs : Nat)
  | leave
  | wake
  | current (move : ClientMove)
  | former (i : Nat) (move : ClientMove)

namespace AlphaPoller

/-- `start_binance_alpha_poller` has just spawned the task; `RollingStats::new` asserts a positive window. -/
def new (symbol : String) (windowSize : Nat) (h : 0 < windowSize) (lookingDepth : Binary64)
    (sharedAlpha : SharedAlphaCells) : AlphaPoller where
  symbol := symbol
  windowSize := windowSize
  windowSize_pos := h
  lookingDepth := lookingDepth
  stopFlag := false
  point := .check
  current := none
  former := []
  sharedAlpha := sharedAlpha

/-- The end of the scope of `rx` and `client`; the connection loop has its own handle to the client. -/
def dropClient (s : AlphaPoller) : AlphaPoller :=
  { s with
    current := none
    former := (s.current.map BinanceClient.dropReceiver).toList ++ s.former }

/-- The head of the loop. -/
def check (s : AlphaPoller) : AlphaPoller :=
  if s.stopFlag then { s with point := .ended }
  else
    { s with
      point := .receiving (.new s.windowSize s.windowSize_pos s.lookingDepth)
      current := some (.run (BinanceClientConfig.default.withSymbol s.symbol))
      sharedAlpha := .zero }

/-- An event of the current client, if no stop is requested. -/
def onEvent (sqrt : ℚ → ℚ) (s : AlphaPoller) (obiCalc : RollingObiCalculator) (nowMs : Nat) :
    BinanceEvent → AlphaPoller
  | .snapshot snapshot =>
    match obiCalc.update sqrt snapshot with
    | (obiCalc, some (alpha, volatility)) =>
      { s with
        point := .receiving obiCalc
        sharedAlpha := s.sharedAlpha.update alpha volatility nowMs }
    | (obiCalc, none) => { s with point := .receiving obiCalc }
  | .synced | .error _ => s
  -- the calculator is cleared and goes out of scope; the client is not stopped
  | .disconnected _ => { s with point := .left }

/-- `rx.recv().await`: the next event, or the end of the channel once the loop that sends is over. -/
def recv (sqrt : ℚ → ℚ) (s : AlphaPoller) (obiCalc : RollingObiCalculator) (c : BinanceClient)
    (nowMs : Nat) : Option AlphaPoller :=
  match c.channel with
  | event :: rest =>
    let c := { c with channel := rest }
    if s.stopFlag then some { s with current := some c.stop, point := .left }
    else some ({ s with current := some c }.onEvent sqrt obiCalc nowMs event)
  | [] => if c.hasExited then some { s with point := .left } else none

/-- One step of the task, its handle or one of the connection loops. -/
def step (sqrt : ℚ → ℚ) (parse : String → Option F64) (s : AlphaPoller) :
    PollerEvent → Option AlphaPoller
  | .stop => some { s with stopFlag := true }
  | .check =>
    match s.point with
    | .check => some s.check
    | _ => none
  | .recv nowMs =>
    match s.point, s.current with
    | .receiving obiCalc, some c => s.recv sqrt obiCalc c nowMs
    | _, _ => none
  | .leave =>
    match s.point with
    | .left =>
      some (if s.stopFlag then { s.dropClient with point := .ended } else { s with point := .sleeping })
    | _ => none
  | .wake =>
    match s.point with
    | .sleeping => some { s.dropClient with point := .check }
    | _ => none
  | .current move =>
    match s.current with
    | some c => (c.step parse move).map fun c => { s with current := some c }
    | none => none
  | .former i move =>
    match s.former[i]? with
    | some c => (c.step parse move).map fun c => { s with former := s.former.set i c }
    | none => none

/-- Every client the task has created. -/
def clients (s : AlphaPoller) : List BinanceClient := s.current.toList ++ s.former

/-- The number of live connection loops. -/
def live (s : AlphaPoller) : Nat := s.clients.countP BinanceClient.live

/-- The task has ended. -/
def hasEnded (s : AlphaPoller) : Bool :=
  match s.point with
  | .ended => true
  | _ => false

/-- The task waits for events. -/
def isReceiving (s : AlphaPoller) : Bool :=
  match s.point with
  | .receiving _ => true
  | _ => false

/-- At most one connection loop is live, and none once the task has ended. -/
structure SoleLoop (s : AlphaPoller) : Prop where
  atMostOne : s.live ≤ 1
  ended : s.hasEnded = true → s.live = 0

/-- A `Disconnected` is handled while no stop is requested. -/
def abandons (s : AlphaPoller) : PollerEvent → Bool
  | .recv _ =>
    s.isReceiving && !s.stopFlag && (s.current.bind fun c => c.channel.head?).any (·.isDisconnected)
  | _ => false

/-! ## Its steps -/

variable {sqrt : ℚ → ℚ} {parse : String → Option F64} {s s' : AlphaPoller} {e : PollerEvent}

/-- What each step does. -/
inductive StepCases (sqrt : ℚ → ℚ) (parse : String → Option F64) (s : AlphaPoller) :
    PollerEvent → AlphaPoller → Prop where
  | stop : StepCases sqrt parse s .stop { s with stopFlag := true }
  | check (hpoint : s.point = .check) : StepCases sqrt parse s .check s.check
  | halt (obiCalc : RollingObiCalculator) (c : BinanceClient) (rest : List BinanceEvent) (nowMs : Nat)
      (hpoint : s.point = .receiving obiCalc) (hcurrent : s.current = some c) (hstop : s.stopFlag = true) :
      StepCases sqrt parse s (.recv nowMs)
        { s with current := some { c with channel := rest }.stop, point := .left }
  | handle (obiCalc : RollingObiCalculator) (c : BinanceClient) (event : BinanceEvent)
      (rest : List BinanceEvent) (nowMs : Nat) (hpoint : s.point = .receiving obiCalc)
      (hcurrent : s.current = some c) (hchannel : c.channel = event :: rest) (hstop : s.stopFlag = false) :
      StepCases sqrt parse s (.recv nowMs)
        ({ s with current := some { c with channel := rest } }.onEvent sqrt obiCalc nowMs event)
  | drained (obiCalc : RollingObiCalculator) (c : BinanceClient) (nowMs : Nat)
      (hpoint : s.point = .receiving obiCalc) (hcurrent : s.current = some c) (hchannel : c.channel = [])
      (hexited : c.hasExited = true) : StepCases sqrt parse s (.recv nowMs) { s with point := .left }
  | sleep (hpoint : s.point = .left) (hstop : s.stopFlag = false) :
      StepCases sqrt parse s .leave { s with point := .sleeping }
  | finish (hpoint : s.point = .left) (hstop : s.stopFlag = true) :
      StepCases sqrt parse s .leave { s.dropClient with point := .ended }
  | wake (hpoint : s.point = .sleeping) : StepCases sqrt parse s .wake { s.dropClient with point := .check }
  | current (c c' : BinanceClient) (move : ClientMove) (hcurrent : s.current = some c)
      (hmove : c.step parse move = some c') :
      StepCases sqrt parse s (.current move) { s with current := some c' }
  | former (i : Nat) (c c' : BinanceClient) (move : ClientMove) (hformer : s.former[i]? = some c)
      (hmove : c.step parse move = some c') :
      StepCases sqrt parse s (.former i move) { s with former := s.former.set i c' }

theorem step_cases (h : s.step sqrt parse e = some s') : StepCases sqrt parse s e s' := by
  unfold step at h
  split at h
  · cases h
    exact .stop
  · split at h <;> cases h
    exact .check ‹_›
  · split at h
    · rename_i obiCalc c hpoint hcurrent
      unfold recv at h
      split at h
      · rename_i event rest hchannel
        dsimp only at h
        split at h <;> cases h
        · exact .halt obiCalc c rest _ hpoint hcurrent ‹_›
        · exact .handle obiCalc c event rest _ hpoint hcurrent hchannel (Bool.eq_false_iff.mpr ‹_›)
      · rename_i hchannel
        split at h <;> cases h
        exact .drained obiCalc c _ hpoint hcurrent hchannel ‹_›
    · cases h
  · split at h <;> cases h
    rename_i hpoint
    split
    · exact .finish hpoint ‹_›
    · exact .sleep hpoint (Bool.eq_false_iff.mpr ‹_›)
  · split at h <;> cases h
    exact .wake ‹_›
  · split at h
    · rename_i c hcurrent
      obtain ⟨c', hmove, rfl⟩ := Option.map_eq_some_iff.mp h
      exact .current c c' _ hcurrent hmove
    · cases h
  · split at h
    · rename_i c hformer
      obtain ⟨c', hmove, rfl⟩ := Option.map_eq_some_iff.mp h
      exact .former _ c c' _ hformer hmove
    · cases h

/-! ## The loops that are live -/

/-- The client is created with unlimited retries, so its loop lasts until it is stopped. -/
structure Inv (s : AlphaPoller) : Prop where
  current : ∀ c, s.current = some c → c.Lasting
  former : ∀ c ∈ s.former, c.Lasting
  receiving : s.isReceiving = true → ∃ c, s.current = some c ∧ c.running = true
  checking : s.point = .check → s.current = none

/-- The clients the task no longer reads from. -/
def abandoned (s : AlphaPoller) : List BinanceClient := if s.isReceiving then s.former else s.clients

/-- How many of them nobody has stopped. -/
def orphans (s : AlphaPoller) : Nat := s.abandoned.countP (·.running)

theorem inv_new (symbol : String) (windowSize : Nat) (h : 0 < windowSize) (lookingDepth : Binary64)
    (sharedAlpha : SharedAlphaCells) : Inv (new symbol windowSize h lookingDepth sharedAlpha) where
  current := by
    intro c hc
    cases hc
  former := by
    intro c hc
    cases hc
  receiving := by
    intro hreceiving
    cases hreceiving
  checking := fun _ => rfl

theorem Inv.lasting (h : s.Inv) : ∀ c ∈ s.clients, c.Lasting := by
  intro c hc
  rcases List.mem_append.mp hc with hcurrent | hformer
  · exact h.current c (Option.mem_toList.mp hcurrent)
  · exact h.former c hformer

/-- The live loops are the orphans and the one that is read from. -/
theorem Inv.live_eq (h : s.Inv) : s.live = s.orphans + if s.isReceiving then 1 else 0 := by
  have hlive : s.live = s.clients.countP (·.running) := by
    refine List.countP_congr ?_
    intro c hc
    rw [(h.lasting c hc).live_eq]
  rw [hlive]
  unfold orphans abandoned
  cases hreceiving : s.isReceiving with
  | false => rfl
  | true =>
    obtain ⟨c, hcurrent, hrunning⟩ := h.receiving hreceiving
    have hclients : s.clients = c :: s.former := by
      unfold clients
      rw [hcurrent]
      rfl
    rw [hclients, List.countP_cons, hrunning]
    rfl

theorem isReceiving_of {obiCalc : RollingObiCalculator} (h : s.point = .receiving obiCalc) :
    s.isReceiving = true := by
  unfold isReceiving
  rw [h]

/-- Handling an event changes neither the clients nor the flag. -/
theorem onEvent_clients (sqrt : ℚ → ℚ) (s : AlphaPoller) (obiCalc : RollingObiCalculator) (nowMs : Nat)
    (event : BinanceEvent) :
    (s.onEvent sqrt obiCalc nowMs event).current = s.current ∧
      (s.onEvent sqrt obiCalc nowMs event).former = s.former := by
  unfold onEvent
  split
  · split <;> exact ⟨rfl, rfl⟩
  · exact ⟨rfl, rfl⟩
  · exact ⟨rfl, rfl⟩
  · exact ⟨rfl, rfl⟩

theorem onEvent_point_ne {obiCalc : RollingObiCalculator} (hpoint : s.point = .receiving obiCalc)
    (nowMs : Nat) (event : BinanceEvent) : (s.onEvent sqrt obiCalc nowMs event).point ≠ .check := by
  unfold onEvent
  intro hcheck
  split at hcheck
  · split at hcheck <;> cases hcheck
  · rw [hpoint] at hcheck
    cases hcheck
  · rw [hpoint] at hcheck
    cases hcheck
  · cases hcheck

/-- Only `Disconnected` ends the reading. -/
theorem onEvent_isReceiving (sqrt : ℚ → ℚ) {obiCalc : RollingObiCalculator}
    (hpoint : s.point = .receiving obiCalc) (nowMs : Nat) (event : BinanceEvent) :
    (s.onEvent sqrt obiCalc nowMs event).isReceiving = !event.isDisconnected := by
  have hreceiving := isReceiving_of hpoint
  unfold onEvent
  split
  · split <;> rfl
  · exact hreceiving
  · exact hreceiving
  · rfl

theorem orphans_of_receiving (h : s.isReceiving = true) : s.orphans = s.former.countP (·.running) := by
  unfold orphans abandoned
  rw [if_pos h]

theorem orphans_of_not_receiving (h : s.isReceiving = false) :
    s.orphans = s.current.toList.countP (·.running) + s.former.countP (·.running) := by
  unfold orphans abandoned clients
  rw [h, if_neg Bool.false_ne_true, List.countP_append]

/-- Only the flags of the clients count. -/
theorem orphans_congr (hreceiving : s'.isReceiving = s.isReceiving)
    (hcurrent : s'.current.toList.countP (·.running) = s.current.toList.countP (·.running))
    (hformer : s'.former.countP (·.running) = s.former.countP (·.running)) : s'.orphans = s.orphans := by
  cases h : s.isReceiving with
  | true => rw [orphans_of_receiving h, orphans_of_receiving (hreceiving.trans h), hformer]
  | false => rw [orphans_of_not_receiving h, orphans_of_not_receiving (hreceiving.trans h), hcurrent, hformer]

/-- Dropping the receiver leaves the loop as it is. -/
theorem dropClient_running (s : AlphaPoller) :
    s.dropClient.former.countP (·.running)
      = s.current.toList.countP (·.running) + s.former.countP (·.running) := by
  unfold dropClient
  dsimp only
  rw [List.countP_append]
  cases s.current <;> rfl

theorem Inv.dropClient_former (h : s.Inv) : ∀ c ∈ s.dropClient.former, c.Lasting := by
  intro c hc
  rcases List.mem_append.mp hc with hcurrent | hformer
  · obtain ⟨c, hmem, rfl⟩ := Option.map_eq_some_iff.mp (Option.mem_toList.mp hcurrent)
    have hlasting := h.current c hmem
    exact ⟨hlasting.unlimited, hlasting.lasts⟩
  · exact h.former c hformer

/-- Outside the event loop only the clients matter. -/
theorem inv_of_not_receiving (hcurrent : ∀ c, s.current = some c → c.Lasting)
    (hformer : ∀ c ∈ s.former, c.Lasting) (hreceiving : s.isReceiving = false)
    (hchecking : s.point = .check → s.current = none) : s.Inv :=
  ⟨hcurrent, hformer, fun h => absurd (hreceiving.symm.trans h) Bool.false_ne_true, hchecking⟩

/-- The client that is read from has not been stopped. -/
theorem Inv.running {obiCalc : RollingObiCalculator} {c : BinanceClient} (h : s.Inv)
    (hpoint : s.point = .receiving obiCalc) (hcurrent : s.current = some c) : c.running = true := by
  obtain ⟨c', hc', hrunning⟩ := h.receiving (isReceiving_of hpoint)
  rw [hcurrent] at hc'
  cases hc'
  exact hrunning

theorem Inv.check (h : s.Inv) : s.check.Inv := by
  unfold AlphaPoller.check
  split
  · refine inv_of_not_receiving h.current h.former rfl ?_
    intro hcheck
    cases hcheck
  · refine ⟨?_, h.former, ?_, ?_⟩
    · intro c hc
      cases hc
      exact BinanceClient.run_lasting rfl
    · intro _
      exact ⟨_, rfl, rfl⟩
    · intro hcheck
      cases hcheck

/-- **One step** keeps the invariant. -/
theorem Inv.step (h : s.Inv) (hstep : s.step sqrt parse e = some s') : s'.Inv := by
  cases step_cases hstep with
  | stop => exact ⟨h.current, h.former, h.receiving, h.checking⟩
  | check => exact h.check
  | halt obiCalc c rest nowMs hpoint hcurrent hstop =>
    refine inv_of_not_receiving ?_ h.former rfl ?_
    · intro c' hc'
      cases hc'
      refine ⟨(h.current c hcurrent).unlimited, ?_⟩
      intro hrunning
      cases hrunning
    · intro hcheck
      cases hcheck
  | handle obiCalc c event rest nowMs hpoint hcurrent hchannel hstop =>
    have hlasting := h.current c hcurrent
    have hrunning := h.running hpoint hcurrent
    obtain ⟨hcurrent', hformer'⟩ :=
      onEvent_clients sqrt { s with current := some { c with channel := rest } } obiCalc nowMs event
    refine ⟨?_, ?_, ?_, ?_⟩
    · intro c' hc'
      rw [hcurrent'] at hc'
      cases hc'
      exact ⟨hlasting.unlimited, hlasting.lasts⟩
    · rw [hformer']
      exact h.former
    · intro _
      exact ⟨_, hcurrent', hrunning⟩
    · intro hcheck
      have hreading : ({ s with current := some { c with channel := rest } } : AlphaPoller).point
          = .receiving obiCalc := hpoint
      exact absurd hcheck (onEvent_point_ne hreading nowMs event)
  | drained obiCalc c nowMs hpoint hcurrent hchannel hexited =>
    refine inv_of_not_receiving h.current h.former rfl ?_
    intro hcheck
    cases hcheck
  | sleep hpoint hstop =>
    refine inv_of_not_receiving h.current h.former rfl ?_
    intro hcheck
    cases hcheck
  | finish hpoint hstop =>
    refine inv_of_not_receiving ?_ h.dropClient_former rfl fun _ => rfl
    intro c hc
    cases hc
  | wake hpoint =>
    refine inv_of_not_receiving ?_ h.dropClient_former rfl fun _ => rfl
    intro c hc
    cases hc
  | current c c' move hcurrent hmove =>
    refine ⟨?_, h.former, ?_, ?_⟩
    · intro d hd
      cases hd
      exact (h.current c hcurrent).step hmove
    · intro hreceiving
      obtain ⟨d, hd, hrunning⟩ := h.receiving hreceiving
      rw [hcurrent] at hd
      cases hd
      exact ⟨c', rfl, (BinanceClient.step_stays hmove).running_eq.trans hrunning⟩
    · intro hcheck
      have hnone := h.checking hcheck
      rw [hcurrent] at hnone
      cases hnone
  | former i c c' move hformer hmove =>
    refine ⟨h.current, ?_, h.receiving, h.checking⟩
    intro d hd
    rcases List.mem_or_eq_of_mem_set hd with hmem | rfl
    · exact h.former d hmem
    · exact (h.former c (List.mem_of_getElem? hformer)).step hmove

/-- Replacing an entry by one that counts the same. -/
theorem countP_set {α : Type*} {p : α → Bool} {l : List α} {i : Nat} {a b : α} (ha : l[i]? = some a)
    (hb : p b = p a) : (l.set i b).countP p = l.countP p := by
  induction l generalizing i with
  | nil => rfl
  | cons x xs ih =>
    cases i with
    | zero =>
      obtain rfl : x = a := Option.some.inj ha
      rw [List.set_cons_zero, List.countP_cons, List.countP_cons, hb]
    | succ i =>
      rw [List.set_cons_succ, List.countP_cons, List.countP_cons, ih ha]

/-- Only a `Disconnected` that is handled makes an orphan. -/
theorem Inv.orphans_step (h : s.Inv) (hstep : s.step sqrt parse e = some s') :
    s'.orphans = s.orphans + if s.abandons e then 1 else 0 := by
  cases step_cases hstep with
  | stop => rfl
  | check hpoint =>
    have hreceiving : s.isReceiving = false := by rw [isReceiving, hpoint]
    have hcurrent := h.checking hpoint
    rw [orphans_of_not_receiving hreceiving, hcurrent]
    unfold AlphaPoller.check
    split
    · rw [orphans_of_not_receiving rfl]
      dsimp only
      rw [hcurrent]
      rfl
    · rw [orphans_of_receiving rfl]
      simp [abandons]
  | halt obiCalc c rest nowMs hpoint hcurrent hstop =>
    rw [orphans_of_not_receiving rfl, orphans_of_receiving (isReceiving_of hpoint)]
    simp [abandons, hstop, BinanceClient.stop]
  | handle obiCalc c event rest nowMs hpoint hcurrent hchannel hstop =>
    have hreceiving := isReceiving_of hpoint
    have hrunning := h.running hpoint hcurrent
    have habandons : s.abandons (.recv nowMs) = event.isDisconnected := by
      simp [abandons, hreceiving, hstop, hcurrent, hchannel]
    have hreading : ({ s with current := some { c with channel := rest } } : AlphaPoller).point
        = .receiving obiCalc := hpoint
    have hafter := onEvent_isReceiving sqrt hreading nowMs event
    obtain ⟨hcurrent', hformer'⟩ :=
      onEvent_clients sqrt { s with current := some { c with channel := rest } } obiCalc nowMs event
    rw [habandons, orphans_of_receiving hreceiving]
    cases hevent : event.isDisconnected with
    | false =>
      rw [hevent] at hafter
      rw [orphans_of_receiving hafter, hformer']
      rfl
    | true =>
      rw [hevent] at hafter
      rw [orphans_of_not_receiving hafter, hcurrent', hformer']
      simp [hrunning, Nat.add_comm]
  | drained obiCalc c nowMs hpoint hcurrent hchannel hexited =>
    -- a loop that has not been stopped has not ended
    have hlive := (h.current c hcurrent).live_eq
    rw [BinanceClient.live, hexited, h.running hpoint hcurrent] at hlive
    cases hlive
  | sleep hpoint hstop =>
    refine orphans_congr ?_ rfl rfl
    rw [isReceiving, isReceiving, hpoint]
  | finish hpoint hstop =>
    have hreceiving : s.isReceiving = false := by rw [isReceiving, hpoint]
    rw [orphans_of_not_receiving hreceiving, orphans_of_not_receiving rfl]
    exact (Nat.zero_add _).trans (dropClient_running s)
  | wake hpoint =>
    have hreceiving : s.isReceiving = false := by rw [isReceiving, hpoint]
    rw [orphans_of_not_receiving hreceiving, orphans_of_not_receiving rfl]
    exact (Nat.zero_add _).trans (dropClient_running s)
  | current c c' move hcurrent hmove =>
    refine orphans_congr rfl ?_ rfl
    rw [hcurrent]
    simp [List.countP_cons, (BinanceClient.step_stays hmove).running_eq]
  | former i c c' move hformer hmove =>
    exact orphans_congr rfl rfl
      (countP_set (p := fun c : BinanceClient => c.running) hformer (BinanceClient.step_stays hmove).running_eq)

/-- **Every run.**  There are as many orphans as `Disconnected` events were handled without a stop. -/
theorem runs_orphans {symbol : String} {windowSize : Nat} {h : 0 < windowSize} {lookingDepth : Binary64}
    {sharedAlpha : SharedAlphaCells} {es : List PollerEvent}
    (hrun : exec (step sqrt parse) (new symbol windowSize h lookingDepth sharedAlpha) es = some s) :
    s.Inv ∧ s.orphans =
      countAlong (step sqrt parse) abandons (new symbol windowSize h lookingDepth sharedAlpha) es := by
  have hstart := inv_new symbol windowSize h lookingDepth sharedAlpha
  refine ⟨exec_invariant Inv (fun _ _ _ h hstep => h.step hstep) hstart hrun, ?_⟩
  have hcount := exec_count Inv orphans abandons (fun _ _ _ h hstep => h.step hstep)
    (fun _ _ _ h hstep => h.orphans_step hstep) hstart hrun
  rw [hcount]
  exact Nat.zero_add _

/-- The task is between two clients: it has left one and not yet created the next, or ended. -/
def betweenClients (s : AlphaPoller) : Bool := !s.isReceiving && !s.hasEnded

/-- **At most one live connection loop, and none after the end**, exactly if no `Disconnected` was
handled while no stop was requested, other than one after which the task is still between clients. -/
theorem sole_loop_iff {symbol : String} {windowSize : Nat} {h : 0 < windowSize} {lookingDepth : Binary64}
    {sharedAlpha : SharedAlphaCells} {es : List PollerEvent}
    (hrun : exec (step sqrt parse) (new symbol windowSize h lookingDepth sharedAlpha) es = some s) :
    s.SoleLoop ↔
      countAlong (step sqrt parse) abandons (new symbol windowSize h lookingDepth sharedAlpha) es
        ≤ if s.betweenClients then 1 else 0 := by
  obtain ⟨hinv, horphans⟩ := runs_orphans hrun
  have hlive := hinv.live_eq
  rw [← horphans, betweenClients]
  cases hreceiving : s.isReceiving with
  | true =>
    have hnotEnded : s.hasEnded ≠ true := by
      unfold hasEnded
      unfold isReceiving at hreceiving
      split
      · rename_i hpoint
        rw [hpoint] at hreceiving
        exact fun _ => Bool.false_ne_true hreceiving
      · exact Bool.false_ne_true
    rw [hreceiving, if_pos rfl] at hlive
    rw [Bool.not_true, Bool.false_and, if_neg Bool.false_ne_true]
    constructor
    · intro hsole
      have hone := hsole.atMostOne
      omega
    · intro hle
      exact ⟨by omega, fun hended => absurd hended hnotEnded⟩
  | false =>
    rw [hreceiving, if_neg Bool.false_ne_true, Nat.add_zero] at hlive
    rw [Bool.not_false, Bool.true_and, ← hlive]
    cases hended : s.hasEnded with
    | true =>
      rw [Bool.not_true, if_neg Bool.false_ne_true]
      constructor
      · intro hsole
        exact Nat.le_of_eq (hsole.ended hended)
      · intro hle
        exact ⟨by omega, fun _ => Nat.le_zero.mp hle⟩
    | false =>
      rw [Bool.not_false, if_pos rfl]
      constructor
      · exact SoleLoop.atMostOne
      · intro hle
        exact ⟨hle, fun h => absurd (hended.symm.trans h) Bool.false_ne_true⟩

/-- The first client cannot connect; the task leaves it and, five seconds later, creates the next. -/
def outage : List PollerEvent :=
  [.check, .current (.check 0), .current (.connect (.error "connection refused") 1), .current .send,
    .current .settle, .current .send, .recv 1, .recv 1, .leave, .wake, .check]

/-- A poller for `btcusdt` as `main` starts it. -/
def started : AlphaPoller := new "btcusdt" 300 (by decide) (.finite (1 / 40)) .zero

/-- The same outage, cut short by a stop request. -/
def stoppedOutage : List PollerEvent := outage.take 7 ++ [.stop, .recv 1, .leave]

theorem sole_loop_iff_stopped :
    ∃ s, exec (step (fun x => x) Text.parseF64) started stoppedOutage = some s ∧ s.hasEnded = true ∧
      s.SoleLoop := by
  obtain ⟨s, hrun, hended⟩ :
      ∃ s, exec (step (fun x => x) Text.parseF64) started stoppedOutage = some s ∧ s.hasEnded = true :=
    ⟨_, rfl, rfl⟩
  have hcount : countAlong (step (fun x => x) Text.parseF64) abandons started stoppedOutage = 0 := rfl
  exact ⟨s, hrun, hended, (sole_loop_iff hrun).mpr (hcount.le.trans (Nat.zero_le _))⟩

/-- Two connection loops are live after one outage, and the first of them still is after the end of a
task that is asked to stop once it has left that client. -/
theorem disconnected_loop_goes_on :
    (∃ s, exec (step (fun x => x) Text.parseF64) started outage = some s ∧ s.live = 2) ∧
      ∃ s, exec (step (fun x => x) Text.parseF64) started (outage.take 8 ++ [.stop, .leave]) = some s ∧
        s.hasEnded = true ∧ s.live = 1 :=
  ⟨⟨_, rfl, rfl⟩, _, rfl, rfl, rfl⟩

end AlphaPoller

end MarketMaker
