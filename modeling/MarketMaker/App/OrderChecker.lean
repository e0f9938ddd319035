import MarketMaker.App.State

/-!
# The open-orders checker

`OpenOrdersChecker::run` polls the open orders of one symbol and signals a stale state once it has
been confirmed by `debounce_count` polls in a row: at the poll that reaches the count, and later
only when the reason changes.  A failed poll changes nothing and is not modelled.

* `onPoll_nil` — what a poll without orders does.
* `Sane` — the locals of the loop between polls.
* `Due`, `Quiet` — a checker that will, or will not, signal within the next `k` polls without
  orders; `Due.onPoll` and `Quiet.onPoll` are the step lemmas.
-/

set_option autoImplicit false

namespace MarketMaker

open Word64

/-! ## Polling -/

/-- What the checker reads of an entry of `query_open_orders`. -/
structure OpenOrder where
  id : Int
  side : String
  clOrdId : Option String
  fillQty : Option String

structure PollResult where
  total : Nat
  buys : Nat
  sells : Nat
  unowned : Nat
  oldestAgeSecs : Option Nat
  orders : List App.ObservedOpenOrder

/-- `OpenOrdersCheckerConfig`; the debounce count is a `u32`. -/
structure OpenOrdersCheckerConfig where
  symbol : String
  debounceCount : Nat
  maxOrderAgeSecs : Nat
  expectedOrderLevels : Nat
  debounce_lt : debounceCount < 4294967296

/-- The locals of `run`; instants are nanoseconds of the monotonic clock. -/
structure OpenOrdersChecker where
  consecutiveStaleCount : Nat := 0
  lastWasStale : Bool := false
  lastStaleReason : String := ""
  orderFirstSeen : Int → Option Nat := fun _ => none

/-- `poll_open_orders`, for the orders the exchange reports. -/
def pollOpenOrders (symbol : String) (orderFirstSeen : Int → Option Nat) (openOrders : List OpenOrder)
    (nowNs : Nat) : (Int → Option Nat) × PollResult :=
  let expectedClientIdPrefix := "mm_" ++ symbol ++ "_"
  let currentIds := openOrders.map (·.id)
  let firstSeen := fun id => (orderFirstSeen id).getD nowNs
  (fun id => if id ∈ currentIds then some (firstSeen id) else none,
   { total := openOrders.length
     buys := openOrders.countP fun o => o.side.toLower == "buy"
     sells := openOrders.countP fun o => o.side.toLower == "sell"
     unowned := openOrders.countP fun o => !o.clOrdId.any (·.startsWith expectedClientIdPrefix)
     oldestAgeSecs := (currentIds.map fun id => (nowNs - firstSeen id) / 1000000000).max?
     orders := openOrders.map fun o => ⟨o.id, o.clOrdId, o.fillQty⟩ })

/-- `(is_stale, stale_reason, should_pause)` of one poll. -/
def detectStale (config : OpenOrdersCheckerConfig) (result : PollResult) : Bool × String × Bool :=
  let maxOrders := config.expectedOrderLevels * 2
  if maxOrders < result.total then
    (true, "too many orders: " ++ toString result.total ++ " (max " ++ toString maxOrders ++ ")", true)
  else if 0 < result.unowned then
    (true, toString result.unowned ++ " open order(s) do not carry this bot's client-ID prefix", true)
  else if result.total = 0 then (true, "0 orders", false)
  else if config.expectedOrderLevels ≤ result.total ∧ (result.buys = 0 ∨ result.sells = 0) then
    (true, "imbalanced: " ++ toString result.buys ++ " buys, " ++ toString result.sells ++ " sells", false)
  else if 0 < config.maxOrderAgeSecs then
    match result.oldestAgeSecs with
    | some oldestAge =>
      if config.maxOrderAgeSecs < oldestAge then
        (true, "order age " ++ toString oldestAge ++ "s > " ++ toString config.maxOrderAgeSecs ++ "s max",
          false)
      else (false, "", false)
    | none => (false, "", false)
  else (false, "", false)

/-- The signal for a confirmed stale state. -/
def clearSignal (symbol staleReason : String) (count : Nat) (shouldPause : Bool) :
    App.ClearOrdersSignal :=
  ⟨symbol, staleReason ++ " (" ++ toString count ++ " polls)", shouldPause⟩

namespace OpenOrdersChecker

/-- One successful round of `run`: the locals it leaves, the snapshot it publishes and the signal
    it sends. -/
def onPoll (config : OpenOrdersCheckerConfig) (c : OpenOrdersChecker) (openOrders : List OpenOrder)
    (nowNs : Nat) (observedAtNs : Int) :
    OpenOrdersChecker × App.OpenOrdersSnapshot × Option App.ClearOrdersSignal :=
  let (firstSeen, result) := pollOpenOrders config.symbol c.orderFirstSeen openOrders nowNs
  let snapshot : App.OpenOrdersSnapshot := ⟨config.symbol, result.orders, observedAtNs⟩
  let (isStale, staleReason, shouldPause) := detectStale config result
  if isStale then
    let count := wrappingAdd32 c.consecutiveStaleCount 1
    let signal :=
      if config.debounceCount ≤ count ∧ (c.lastWasStale = false ∨ count = config.debounceCount
          ∨ staleReason ≠ c.lastStaleReason) then
        some (clearSignal config.symbol staleReason count shouldPause)
      else none
    (⟨count, true, staleReason, firstSeen⟩, snapshot, signal)
  else (⟨0, false, "", firstSeen⟩, snapshot, none)

/-! ## Polls without orders -/

/-- The count, the reason and the signal of a poll without orders. -/
theorem onPoll_nil (config : OpenOrdersCheckerConfig) (c : OpenOrdersChecker) (nowNs : Nat)
    (observedAtNs : Int) :
    c.onPoll config [] nowNs observedAtNs =
      (⟨wrappingAdd32 c.consecutiveStaleCount 1, true, "0 orders", fun _ => none⟩,
       ⟨config.symbol, [], observedAtNs⟩,
       if config.debounceCount ≤ wrappingAdd32 c.consecutiveStaleCount 1 ∧ (c.lastWasStale = false ∨
          wrappingAdd32 c.consecutiveStaleCount 1 = config.debounceCount
          ∨ "0 orders" ≠ c.lastStaleReason) then
        some (clearSignal config.symbol "0 orders" (wrappingAdd32 c.consecutiveStaleCount 1) false)
       else none) := by
  simp [onPoll, pollOpenOrders, detectStale]

/-- The locals between two polls: the count is a `u32`, and zero after a poll that was not stale. -/
structure Sane (c : OpenOrdersChecker) : Prop where
  count_lt : c.consecutiveStaleCount < 4294967296
  fresh : c.lastWasStale = false → c.consecutiveStaleCount = 0

theorem sane_start : Sane {} := ⟨by decide, fun _ => rfl⟩

theorem sane_onPoll (config : OpenOrdersCheckerConfig) (c : OpenOrdersChecker)
    (openOrders : List OpenOrder) (nowNs : Nat) (observedAtNs : Int) :
    Sane (c.onPoll config openOrders nowNs observedAtNs).1 := by
  unfold onPoll
  dsimp only
  split
  · exact ⟨Nat.mod_lt _ (by decide), nofun⟩
  · exact ⟨Nat.zero_lt_succ _, fun _ => rfl⟩

/-- A poll without orders among the next `k` will be signalled: one that brings the count to the
    threshold, or the first one, beyond the threshold, for its new reason. -/
def Due (config : OpenOrdersCheckerConfig) (k : Nat) (c : OpenOrdersChecker) : Prop :=
  (c.consecutiveStaleCount < config.debounceCount ∧ config.debounceCount ≤ c.consecutiveStaleCount + k) ∨
  (0 < k ∧ config.debounceCount ≤ c.consecutiveStaleCount ∧ c.lastStaleReason ≠ "0 orders" ∧
    c.consecutiveStaleCount + 1 < 4294967296)

theorem Due.onPoll {config : OpenOrdersCheckerConfig} {k : Nat} {c : OpenOrdersChecker}
    (h : Due config (k + 1) c) (nowNs : Nat) (observedAtNs : Int) :
    (∃ count, (c.onPoll config [] nowNs observedAtNs).2.2
      = some (clearSignal config.symbol "0 orders" count false)) ∨
    Due config k (c.onPoll config [] nowNs observedAtNs).1 := by
  rw [onPoll_nil]
  have hlt := config.debounce_lt
  have hcount : wrappingAdd32 c.consecutiveStaleCount 1 = c.consecutiveStaleCount + 1 := by
    refine Nat.mod_eq_of_lt ?_
    rcases h with ⟨hbelow, _⟩ | ⟨_, _, _, hroom⟩ <;> omega
  rw [hcount]
  rcases h with ⟨hbelow, hreach⟩ | ⟨_, hbeyond, hreason, _⟩
  · by_cases hequal : c.consecutiveStaleCount + 1 = config.debounceCount
    · exact Or.inl ⟨_, if_pos ⟨by omega, Or.inr (Or.inl hequal)⟩⟩
    · refine Or.inr (Or.inl ⟨?_, ?_⟩)
      · show c.consecutiveStaleCount + 1 < config.debounceCount
        omega
      · show config.debounceCount ≤ c.consecutiveStaleCount + 1 + k
        omega
  · exact Or.inl ⟨_, if_pos ⟨by omega, Or.inr (Or.inr hreason.symm)⟩⟩

/-- No poll without orders among the next `k` will be signalled: none brings the count to the
    threshold exactly, and the first one, if it is beyond the threshold, brings no new reason. -/
structure Quiet (config : OpenOrdersCheckerConfig) (k : Nat) (c : OpenOrdersChecker) : Prop where
  stale : 0 < k → c.lastWasStale = true
  misses : ∀ i, 0 < i → i ≤ k → (c.consecutiveStaleCount + i) % 4294967296 ≠ config.debounceCount
  reason : 0 < k → c.lastStaleReason = "0 orders" ∨
    (c.consecutiveStaleCount + 1) % 4294967296 < config.debounceCount

theorem Quiet.onPoll {config : OpenOrdersCheckerConfig} {k : Nat} {c : OpenOrdersChecker}
    (h : Quiet config (k + 1) c) (nowNs : Nat) (observedAtNs : Int) :
    Quiet config k (c.onPoll config [] nowNs observedAtNs).1 ∧
      (c.onPoll config [] nowNs observedAtNs).2.2 = none := by
  rw [onPoll_nil]
  have hmiss := h.misses 1 (by omega) (by omega)
  refine ⟨⟨fun _ => rfl, fun i hi hle => ?_, fun _ => Or.inl rfl⟩, if_neg ?_⟩
  · have := h.misses (i + 1) (by omega) (by omega)
    rwa [wrappingAdd32, Nat.mod_add_mod, Nat.add_assoc, Nat.add_comm 1 i]
  · rintro ⟨hle, hfresh | hequal | hreason⟩
    · exact absurd (hfresh.symm.trans (h.stale (Nat.succ_pos k))) Bool.false_ne_true
    · exact hmiss hequal
    · rcases h.reason (Nat.succ_pos k) with hsame | hlt
      · exact hreason hsame.symm
      · exact absurd hle (Nat.not_le.mpr hlt)

/-- The stale streak has not reached the threshold, or its last poll gave another reason and the
    count has room. -/
def Primed (config : OpenOrdersCheckerConfig) (c : OpenOrdersChecker) : Prop :=
  0 < config.debounceCount ∧ (c.consecutiveStaleCount < config.debounceCount ∨
    (c.lastStaleReason ≠ "0 orders" ∧ c.consecutiveStaleCount + 1 < 4294967296))

/-- A primed checker signals within `debounce_count` polls without orders. -/
theorem Primed.due {config : OpenOrdersCheckerConfig} {c : OpenOrdersChecker} (h : Primed config c) :
    Due config config.debounceCount c := by
  obtain ⟨hpos, h⟩ := h
  rcases Nat.lt_or_ge c.consecutiveStaleCount config.debounceCount with hlt | hge
  · exact Or.inl ⟨hlt, by omega⟩
  · rcases h with hlt | ⟨hreason, hroom⟩
    · omega
    · exact Or.inr ⟨hpos, hge, hreason, hroom⟩

/-- Any other does not: the count would have to wrap all the way round. -/
theorem Sane.quiet {config : OpenOrdersCheckerConfig} {c : OpenOrdersChecker} (h : c.Sane)
    (hidle : ¬ Primed config c) : Quiet config config.debounceCount c := by
  have hcount := h.count_lt
  rcases Nat.eq_zero_or_pos config.debounceCount with hzero | hpos
  · exact ⟨by omega, fun i hi hle => by omega, by omega⟩
  · have hge : config.debounceCount ≤ c.consecutiveStaleCount :=
      Nat.le_of_not_lt fun hlt => hidle ⟨hpos, Or.inl hlt⟩
    refine ⟨fun _ => ?_, fun i hi hle => by omega, fun _ => ?_⟩
    · cases hlast : c.lastWasStale with
      | true => rfl
      | false =>
        have := h.fresh hlast
        omega
    · by_cases hreason : c.lastStaleReason = "0 orders"
      · exact Or.inl hreason
      · have hfull : ¬ c.consecutiveStaleCount + 1 < 4294967296 := fun hroom =>
          hidle ⟨hpos, Or.inr ⟨hreason, hroom⟩⟩
        exact Or.inr (by omega)

end OpenOrdersChecker

end MarketMaker
