import Mathlib.Data.List.Induction
import MarketMaker.App.OrderChecker

/-!
# The open-orders checker, from the polls alone

The loop of `OpenOrdersChecker::run` keeps a count, the last reason and a table of the times orders
were first seen.  All of it is a function of the successful polls so far, failed ones in between or
not, and so is what is signalled.

* `after_eq` — the locals, from the history of polls.
* `signal_eq` — the signal of a poll, from the history.
* `signals_of_history` — that, and no stale state goes unreported.
-/

set_option autoImplicit false

namespace MarketMaker

open Word64

namespace OpenOrdersChecker

/-- A successful poll: what the exchange reports, and when. -/
structure Poll where
  openOrders : List OpenOrder
  nowNs : Nat
  observedAtNs : Int

/-- A round of `run`; a failed poll leaves the locals alone. -/
def round (config : OpenOrdersCheckerConfig) (c : OpenOrdersChecker) : Option Poll → OpenOrdersChecker
  | some p => (c.onPoll config p.openOrders p.nowNs p.observedAtNs).1
  | none => c

/-- The signal of a round. -/
def roundSignal (config : OpenOrdersCheckerConfig) (c : OpenOrdersChecker) :
    Option Poll → Option App.ClearOrdersSignal
  | some p => (c.onPoll config p.openOrders p.nowNs p.observedAtNs).2.2
  | none => none

/-- The checker after some rounds. -/
def after (config : OpenOrdersCheckerConfig) (rounds : List (Option Poll)) : OpenOrdersChecker :=
  rounds.foldl (round config) {}

/-! ## The history -/

/-- The successful polls, the newest first. -/
def history (rounds : List (Option Poll)) : List Poll := (rounds.filterMap id).reverse

@[simp] theorem history_failed (rounds : List (Option Poll)) :
    history (rounds ++ [none]) = history rounds := by
  simp [history]

@[simp] theorem history_poll (rounds : List (Option Poll)) (p : Poll) :
    history (rounds ++ [some p]) = p :: history rounds := by
  simp [history]

/-- The poll reports an order of that id. -/
def Poll.reports (orderId : Int) (p : Poll) : Bool := decide (orderId ∈ p.openOrders.map (·.id))

/-- The oldest of the last polls in a row that report the order: since when it has been seen. -/
def seenSince (past : List Poll) (orderId : Int) : Option Nat :=
  ((past.takeWhile (·.reports orderId)).getLast?).map (·.nowNs)

theorem seenSince_cons (p : Poll) (past : List Poll) (orderId : Int) :
    seenSince (p :: past) orderId =
      if p.reports orderId then some ((seenSince past orderId).getD p.nowNs) else none := by
  unfold seenSince
  rw [List.takeWhile_cons]
  split
  · rw [List.getLast?_cons, Option.map_some]
    cases (past.takeWhile (·.reports orderId)).getLast? <;> rfl
  · rfl

/-- `(is_stale, stale_reason, should_pause)` of the newest poll. -/
def verdict (config : OpenOrdersCheckerConfig) : List Poll → Bool × String × Bool
  | [] => (false, "", false)
  | p :: past => detectStale config (pollOpenOrders config.symbol (seenSince past) p.openOrders p.nowNs).2

/-- The polls in a row, up to the newest, that were stale. -/
def streak (config : OpenOrdersCheckerConfig) : List Poll → Nat
  | [] => 0
  | p :: past => if (verdict config (p :: past)).1 then streak config past + 1 else 0

/-- A stale state is signalled when it has been confirmed, and again when its reason changes. -/
def Raises (config : OpenOrdersCheckerConfig) (polls : List Poll) : Prop :=
  0 < streak config polls ∧ config.debounceCount ≤ streak config polls ∧
    (streak config polls = 1 ∨ streak config polls = config.debounceCount ∨
      (verdict config polls).2.1 ≠ (verdict config polls.tail).2.1)

instance (config : OpenOrdersCheckerConfig) (polls : List Poll) : Decidable (Raises config polls) :=
  inferInstanceAs (Decidable (_ ∧ _ ∧ _))

theorem streak_le (config : OpenOrdersCheckerConfig) (polls : List Poll) : streak config polls ≤ polls.length := by
  induction polls with
  | nil => exact Nat.le_refl 0
  | cons p past ih =>
    rw [streak]
    split
    · exact Nat.succ_le_succ ih
    · exact Nat.zero_le _

variable {config : OpenOrdersCheckerConfig}

theorem streak_pos_iff (polls : List Poll) : 0 < streak config polls ↔ (verdict config polls).1 = true := by
  cases polls with
  | nil => exact ⟨fun h => absurd h (Nat.lt_irrefl 0), nofun⟩
  | cons p past =>
    rw [streak]
    split
    · rename_i hstale
      exact ⟨fun _ => hstale, fun _ => Nat.succ_pos _⟩
    · rename_i hstale
      exact ⟨fun h => absurd h (Nat.lt_irrefl 0), fun h => absurd h hstale⟩

/-! ## Reasons -/

/-- The six answers of `detectStale`. -/
theorem detectStale_cases (config : OpenOrdersCheckerConfig) (result : PollResult) :
    (∃ n m : Nat, detectStale config result =
      (true, "too many orders: " ++ toString n ++ " (max " ++ toString m ++ ")", true)) ∨
    (∃ n : Nat, detectStale config result =
      (true, toString n ++ " open order(s) do not carry this bot's client-ID prefix", true)) ∨
    detectStale config result = (true, "0 orders", false) ∨
    (∃ n m : Nat, detectStale config result =
      (true, "imbalanced: " ++ toString n ++ " buys, " ++ toString m ++ " sells", false)) ∨
    (∃ n m : Nat, detectStale config result =
      (true, "order age " ++ toString n ++ "s > " ++ toString m ++ "s max", false)) ∨
    detectStale config result = (false, "", false) := by
  unfold detectStale
  dsimp only
  split
  · exact Or.inl ⟨_, _, rfl⟩
  split
  · exact Or.inr (Or.inl ⟨_, rfl⟩)
  split
  · exact Or.inr (Or.inr (Or.inl rfl))
  split
  · exact Or.inr (Or.inr (Or.inr (Or.inl ⟨_, _, rfl⟩)))
  split
  · split
    · split
      · exact Or.inr (Or.inr (Or.inr (Or.inr (Or.inl ⟨_, _, rfl⟩))))
      · exact Or.inr (Or.inr (Or.inr (Or.inr (Or.inr rfl))))
    · exact Or.inr (Or.inr (Or.inr (Or.inr (Or.inr rfl))))
  · exact Or.inr (Or.inr (Or.inr (Or.inr (Or.inr rfl))))

/-- A poll that is not stale has no reason. -/
theorem reason_of_not_stale (polls : List Poll) (h : (verdict config polls).1 = false) :
    (verdict config polls).2.1 = "" := by
  cases polls with
  | nil => rfl
  | cons p past =>
    rw [verdict] at h ⊢
    rcases detectStale_cases config _ with ⟨n, m, hv⟩ | ⟨n, hv⟩ | hv | ⟨n, m, hv⟩ | ⟨n, m, hv⟩ | hv
    all_goals rw [hv] at h ⊢
    all_goals first | rfl | cases h

/-- The reasons that pause trading begin with a `t`, or with a digit and end in an `x`. -/
def pausing (reason : String) : Bool :=
  reason.toList.head? == some 't' ||
    (reason.toList.head?.any Char.isDigit && reason.toList.getLast? == some 'x')

theorem toDigits_cons (n : Nat) : ∃ c cs, Nat.toDigits 10 n = c :: cs ∧ c.isDigit = true := by
  obtain ⟨c, cs, hdigits⟩ := List.exists_cons_of_ne_nil (Nat.toDigits_ne_nil (n := n) (b := 10))
  have hmem : c ∈ Nat.toDigits 10 n := by
    rw [hdigits]
    exact List.mem_cons_self
  exact ⟨c, cs, hdigits, Nat.isDigit_of_mem_toDigits (by decide) (Nat.le_refl 10) hmem⟩

/-- Whether a stale poll pauses trading can be told from its reason. -/
theorem pause_of_stale (polls : List Poll) (h : (verdict config polls).1 = true) :
    (verdict config polls).2.2 = pausing (verdict config polls).2.1 := by
  cases polls with
  | nil => cases h
  | cons p past =>
    rw [verdict] at h ⊢
    rcases detectStale_cases config _ with ⟨n, m, hv⟩ | ⟨n, hv⟩ | hv | ⟨n, m, hv⟩ | ⟨n, m, hv⟩ | hv
    all_goals rw [hv] at h ⊢
    · simp [pausing]
    · obtain ⟨c, cs, hn, hdigit⟩ := toDigits_cons n
      have hlast : ∀ suffix : List Char, suffix ≠ [] → (c :: (cs ++ suffix)).getLast? = suffix.getLast? := by
        intro suffix hne
        rw [← List.cons_append, List.getLast?_append_of_ne_nil _ hne]
      simp [pausing, hn, hdigit, hlast]
    · decide
    · simp [pausing]
    · simp [pausing]
    · cases h

/-! ## The locals -/

/-- One poll, when the table of first sightings is that of the history. -/
theorem onPoll_eq {c : OpenOrdersChecker} {past : List Poll} (hseen : c.orderFirstSeen = seenSince past)
    (p : Poll) :
    (c.onPoll config p.openOrders p.nowNs p.observedAtNs).1 =
      (if (verdict config (p :: past)).1 then
        ⟨wrappingAdd32 c.consecutiveStaleCount 1, true, (verdict config (p :: past)).2.1,
          seenSince (p :: past)⟩
      else ⟨0, false, "", seenSince (p :: past)⟩) ∧
    (c.onPoll config p.openOrders p.nowNs p.observedAtNs).2.2 =
      if (verdict config (p :: past)).1 = true ∧
        config.debounceCount ≤ wrappingAdd32 c.consecutiveStaleCount 1 ∧
        (c.lastWasStale = false ∨ wrappingAdd32 c.consecutiveStaleCount 1 = config.debounceCount ∨
          (verdict config (p :: past)).2.1 ≠ c.lastStaleReason) then
        some (clearSignal config.symbol (verdict config (p :: past)).2.1
          (wrappingAdd32 c.consecutiveStaleCount 1) (verdict config (p :: past)).2.2)
      else none := by
  have hverdict : detectStale config (pollOpenOrders config.symbol c.orderFirstSeen p.openOrders p.nowNs).2 =
      verdict config (p :: past) := by
    rw [hseen]
    rfl
  have hsightings : (pollOpenOrders config.symbol c.orderFirstSeen p.openOrders p.nowNs).1 =
      seenSince (p :: past) := by
    funext orderId
    rw [seenSince_cons, hseen]
    simp [pollOpenOrders, Poll.reports]
  unfold onPoll
  dsimp only
  rw [hverdict, hsightings]
  cases hstale : (verdict config (p :: past)).1 with
  | true => simp
  | false => simp

/-- **The locals, from the history.** -/
theorem after_eq (config : OpenOrdersCheckerConfig) (rounds : List (Option Poll))
    (hcount : (history rounds).length < 4294967296) :
    after config rounds = ⟨streak config (history rounds), (verdict config (history rounds)).1,
      (verdict config (history rounds)).2.1, seenSince (history rounds)⟩ := by
  induction rounds using List.reverseRecOn with
  | nil => rfl
  | append_singleton rounds r ih =>
    cases r with
    | none =>
      rw [history_failed] at hcount ⊢
      rw [← ih hcount, after, List.foldl_append]
      rfl
    | some p =>
      rw [history_poll] at hcount ⊢
      have hbefore := ih (Nat.lt_of_succ_lt hcount)
      have hstreak := streak_le config (history rounds)
      have hafter : after config (rounds ++ [some p]) =
          ((after config rounds).onPoll config p.openOrders p.nowNs p.observedAtNs).1 := by
        rw [after, List.foldl_append]
        rfl
      rw [hafter, (onPoll_eq (by rw [hbefore]) p).1, streak]
      have hadd : wrappingAdd32 (streak config (history rounds)) 1 = streak config (history rounds) + 1 :=
        Nat.mod_eq_of_lt (by rw [List.length_cons] at hcount; omega)
      cases hstale : (verdict config (p :: history rounds)).1 with
      | true => simp [hbefore, hadd]
      | false => simp [reason_of_not_stale _ hstale]

/-! ## The signals -/

/-- The signal that the newest poll deserves. -/
def deserved (config : OpenOrdersCheckerConfig) (polls : List Poll) : App.ClearOrdersSignal :=
  clearSignal config.symbol (verdict config polls).2.1 (streak config polls) (verdict config polls).2.2

/-- **The signal of a poll, from the history.** -/
theorem signal_eq (config : OpenOrdersCheckerConfig) (rounds : List (Option Poll)) (p : Poll)
    (hcount : (history rounds).length + 1 < 4294967296) :
    roundSignal config (after config rounds) (some p) =
      if Raises config (p :: history rounds) then some (deserved config (p :: history rounds)) else none := by
  have hbefore := after_eq config rounds (Nat.lt_of_succ_lt hcount)
  have hstreak := streak_le config (history rounds)
  have hadd : wrappingAdd32 (streak config (history rounds)) 1 = streak config (history rounds) + 1 :=
    Nat.mod_eq_of_lt (by omega)
  rw [roundSignal, (onPoll_eq (by rw [hbefore]) p).2, hbefore]
  dsimp only
  rw [hadd]
  have hlength : streak config (p :: history rounds) =
    if (verdict config (p :: history rounds)).1 then streak config (history rounds) + 1 else 0 := rfl
  cases hstale : (verdict config (p :: history rounds)).1 with
  | false =>
    have hquiet : ¬ Raises config (p :: history rounds) := fun h => by
      have hpos := (streak_pos_iff _).mp h.1
      rw [hstale] at hpos
      cases hpos
    rw [if_neg hquiet, if_neg (fun h => Bool.false_ne_true h.1)]
  | true =>
    rw [hstale, if_pos rfl] at hlength
    have hfresh : (verdict config (history rounds)).1 = false ↔
        streak config (p :: history rounds) = 1 := by
      rw [hlength, Nat.succ_inj, ← Nat.le_zero, ← Nat.not_lt, streak_pos_iff, Bool.not_eq_true]
    rw [← hlength]
    refine if_congr ?_ rfl rfl
    rw [hfresh, Raises, hlength]
    exact and_congr_left fun _ => ⟨fun _ => Nat.succ_pos _, fun _ => rfl⟩

/-- A poll in a confirmed streak that raises nothing continues the state of the poll before it. -/
theorem continues_of_not_raises {p : Poll} {past : List Poll} (hpositive : 0 < config.debounceCount)
    (hstale : config.debounceCount ≤ streak config (p :: past)) (hquiet : ¬ Raises config (p :: past)) :
    config.debounceCount ≤ streak config past ∧ verdict config (p :: past) = verdict config past := by
  have hnow : (verdict config (p :: past)).1 = true :=
    (streak_pos_iff _).mp (Nat.lt_of_lt_of_le hpositive hstale)
  have hlength : streak config (p :: past) = streak config past + 1 := by rw [streak, if_pos hnow]
  unfold Raises at hquiet
  rw [hlength, List.tail_cons] at hquiet
  rw [hlength] at hstale
  have hsame : (verdict config (p :: past)).2.1 = (verdict config past).2.1 := by
    by_contra hreason
    exact hquiet ⟨Nat.succ_pos _, hstale, Or.inr (Or.inr hreason)⟩
  have hlonger : streak config past + 1 ≠ config.debounceCount := fun hequal =>
    hquiet ⟨Nat.succ_pos _, hstale, Or.inr (Or.inl hequal)⟩
  have hpast : config.debounceCount ≤ streak config past := by omega
  have hbefore : (verdict config past).1 = true :=
    (streak_pos_iff _).mp (Nat.lt_of_lt_of_le hpositive hpast)
  refine ⟨hpast, Prod.ext (hnow.trans hbefore.symm) (Prod.ext hsame ?_)⟩
  rw [pause_of_stale _ hnow, pause_of_stale _ hbefore, hsame]

theorem append_singleton_eq {α : Type*} {xs ys zs : List α} {x y : α} (h : xs ++ [x] = ys ++ y :: zs) :
    (y = x ∧ ys = xs) ∨ ∃ zs', xs = ys ++ y :: zs' := by
  rcases List.eq_nil_or_concat zs with rfl | ⟨zs', z, rfl⟩
  · obtain ⟨hxs, hx⟩ := List.append_inj' h rfl
    exact Or.inl ⟨(List.cons.inj hx).1.symm, hxs.symm⟩
  · rw [List.concat_eq_append, ← List.cons_append, ← List.append_assoc] at h
    exact Or.inr ⟨zs', (List.append_inj' h rfl).1⟩

/-- The last signal of some rounds: sent at `p`, and nothing after it. -/
structure LastSignal (config : OpenOrdersCheckerConfig) (rounds : List (Option Poll))
    (signal : App.ClearOrdersSignal) (before : List (Option Poll)) (p : Poll) (later : List (Option Poll)) :
    Prop where
  split : rounds = before ++ some p :: later
  sent : roundSignal config (after config before) (some p) = some signal
  silent : ∀ middle r rest, later = middle ++ r :: rest →
    roundSignal config (after config (before ++ some p :: middle)) r = none

theorem LastSignal.silentRound {rounds : List (Option Poll)} {signal : App.ClearOrdersSignal}
    {before : List (Option Poll)} {p : Poll} {later : List (Option Poll)} {r : Option Poll}
    (h : LastSignal config rounds signal before p later)
    (hr : roundSignal config (after config rounds) r = none) :
    LastSignal config (rounds ++ [r]) signal before p (later ++ [r]) := by
  refine ⟨by rw [h.split, List.append_assoc, List.cons_append], h.sent, fun middle r' rest heq => ?_⟩
  rcases append_singleton_eq heq with ⟨rfl, rfl⟩ | ⟨rest', hlater⟩
  · rw [← h.split]
    exact hr
  · exact h.silent middle r' rest' hlater

/-- **The checker's signals.**  Over any rounds, failed polls among them: a poll is signalled exactly if
    the stale polls in a row have reached `debounce_count` with it, or its reason is a new one
    beyond that; and whenever a stale state has been confirmed, the last signal sent gives its reason and
    pauses trading if it calls for that. -/
theorem signals_of_history (config : OpenOrdersCheckerConfig) (rounds : List (Option Poll))
    (hcount : (history rounds).length < 4294967296) :
    (∀ before p later, rounds = before ++ some p :: later →
      roundSignal config (after config before) (some p) =
        if Raises config (p :: history before) then some (deserved config (p :: history before)) else none) ∧
    (0 < config.debounceCount → config.debounceCount ≤ streak config (history rounds) →
      ∃ count before p later, LastSignal config rounds
        (clearSignal config.symbol (verdict config (history rounds)).2.1 count
          (verdict config (history rounds)).2.2) before p later) := by
  constructor
  · rintro before p later rfl
    refine signal_eq config before p (Nat.lt_of_le_of_lt ?_ hcount)
    simp [history]
  · intro hpositive hstale
    induction rounds using List.reverseRecOn with
    | nil => exact absurd (Nat.lt_of_lt_of_le hpositive hstale) (Nat.lt_irrefl 0)
    | append_singleton rounds r ih =>
      cases r with
      | none =>
        rw [history_failed] at hcount hstale ⊢
        obtain ⟨count, before, p, later, hlast⟩ := ih hcount hstale
        exact ⟨count, before, p, later ++ [none], hlast.silentRound rfl⟩
      | some p =>
        rw [history_poll] at hcount hstale ⊢
        have hsignal := signal_eq config rounds p hcount
        by_cases hraises : Raises config (p :: history rounds)
        · rw [if_pos hraises] at hsignal
          exact ⟨_, rounds, p, [], rfl, hsignal, fun _ _ _ hnil => by simp at hnil⟩
        · rw [if_neg hraises] at hsignal
          obtain ⟨hpast, hsame⟩ := continues_of_not_raises hpositive hstale hraises
          obtain ⟨count, before, p', later, hlast⟩ := ih (Nat.lt_of_succ_lt hcount) hpast
          rw [hsame]
          exact ⟨count, before, p', later ++ [some p], hlast.silentRound hsignal⟩

/-- Someone else's bid, at every third second. -/
def foreignBid (n : Nat) : Poll := ⟨[⟨7, "buy", none, none⟩], 3 * n * 1000000000, 3 * n * 1000000000⟩

/-- Two polls find it, with a failed one in between: the last signal names it and pauses trading. -/
theorem signals_of_history_foreign :
    ∃ count before p later, LastSignal ⟨"BTC-USD", 2, 120, 1, by decide⟩
      [some (foreignBid 1), none, some (foreignBid 3)]
      (clearSignal "BTC-USD" "1 open order(s) do not carry this bot's client-ID prefix" count true)
      before p later := by
  have hverdict : verdict ⟨"BTC-USD", 2, 120, 1, by decide⟩
      (history [some (foreignBid 1), none, some (foreignBid 3)]) =
      (true, "1 open order(s) do not carry this bot's client-ID prefix", true) := by decide +kernel
  have hsignals := (signals_of_history ⟨"BTC-USD", 2, 120, 1, by decide⟩
    [some (foreignBid 1), none, some (foreignBid 3)] (by decide)).2 (by decide) (by decide +kernel)
  rw [hverdict] at hsignals
  exact hsignals

end OpenOrdersChecker

end MarketMaker
