import MarketMaker.Base.Run
import MarketMaker.Trading.Headroom

/-!
# Generation fencing

`set_pause_reason` is two atomics (`fetch_or`, then `fetch_add` on the generation if the reason
was clear), `shutdown` is two, and `ExecutionState::permits` reads three on another thread.  This
module takes each of them as its own step.

## Protocol

* The main loop is one thread: while it owes the generation bump of a set or of a shutdown it
  does nothing else.
* `quote` runs `on_quote_into` and hands every Send to the executor with the generation it reads
  then.
* The executor checks a dispatched Send by three loads, between which anything may happen.

## Results

* `exec_setPauseReason`, `exec_shutdown`, `exec_check` — with nothing in between, the steps
  compute `setPauseReason`, `beginShutdown` and `permits`.
* `generation_fencing` — a check that passes proves that since the dispatch the generation was
  not bumped, no reason was newly set before its pause load and shutdown had not begun before its
  shutdown load; after shutdown nothing is emitted and no check passes.
* `stale_send_permitted` — the two ways around it: `2 ^ 64` pauses, or a pause between the loads.
-/

set_option autoImplicit false

namespace MarketMaker

open Word64

/-- Where the executor is in `permits`: `&&` evaluates from left to right and stops. -/
inductive Check where
  | idle
  | shutdownRead (generation : Nat)
  | pauseRead (generation : Nat)
  deriving DecidableEq

/-- The manager, its thread's pending bump, the Sends handed over with their generation, and the
    executor's check. -/
structure Fence where
  manager : OrderManager
  owesBump : Bool
  dispatched : List (OrderDecision × Nat)
  check : Check

namespace Fence

inductive Event where
  | fetchOr (r : PauseReason)
  | bump
  | fetchAnd (r : PauseReason)
  | storeShutdown
  | quote (position limit : ℚ) (quote : Quote) (now : Int)
  | slots (orders : Slot → Option LiveOrder)
  | loadShutdown (decision : OrderDecision) (generation : Nat)
  | loadPause
  | loadGeneration

def new (config : OrderManagerConfig) (startMs : Int) : Fence :=
  ⟨.new config startMs, false, [], .idle⟩

def execution (s : Fence) : ExecutionState := s.manager.execution

def setExecution (s : Fence) (e : ExecutionState) : Fence :=
  { s with manager := { s.manager with execution := e } }

/-- The generation the dispatch of a quote's decisions reads. -/
def tag (s : Fence) (position limit : ℚ) (quote : Quote) (now : Int) : Nat :=
  (s.manager.onQuoteInto position limit quote now).1.execution.generation

/-- `on_quote_into` and the dispatch of its Sends.  If the quote finds an invalid limit it sets
    `RiskData`, whose bump is still owed. -/
def dispatch (s : Fence) (position limit : ℚ) (quote : Quote) (now : Int) : Fence :=
  let r := s.manager.onQuoteInto position limit quote now
  { s with
    manager := { r.1 with execution := { r.1.execution with generation := s.execution.generation } }
    owesBump := r.1.hasPauseReason .riskData && !s.manager.hasPauseReason .riskData
    dispatched := (r.2.filter OrderDecision.isSend).map (·, s.tag position limit quote now) ++ s.dispatched }

def step (s : Fence) : Event → Option Fence
  | .fetchOr r =>
    if s.owesBump then none
    else some { s.setExecution (s.execution.fetchOrPause r) with owesBump := !s.execution.hasPauseReason r }
  | .bump =>
    if s.owesBump then some { s.setExecution s.execution.bumpGeneration with owesBump := false } else none
  | .fetchAnd r => if s.owesBump then none else some (s.setExecution (s.execution.clearPauseReason r))
  | .storeShutdown =>
    if s.owesBump then none
    else some { s.setExecution { s.execution with shutdown := true } with owesBump := true }
  | .quote position limit quote now => if s.owesBump then none else some (s.dispatch position limit quote now)
  | .slots orders => if s.owesBump then none else some { s with manager := { s.manager with orders := orders } }
  | .loadShutdown decision generation =>
    if s.check = .idle ∧ (decision, generation) ∈ s.dispatched then
      some { s with check := if s.execution.shutdown then .idle else .shutdownRead generation }
    else none
  | .loadPause =>
    match s.check with
    | .shutdownRead generation =>
      some { s with check := if s.execution.pauseReasons = 0#8 then .pauseRead generation else .idle }
    | _ => none
  | .loadGeneration =>
    match s.check with
    | .pauseRead _ => some { s with check := .idle }
    | _ => none

/-- The last load, taken now, makes the check return `true`. -/
def Permitted (s : Fence) (generation : Nat) : Prop :=
  s.check = .pauseRead generation ∧ generation = s.execution.generation

def Event.isBump : Event → Bool
  | .bump => true
  | _ => false

/-- The executor's loads. -/
def Event.isLoad : Event → Bool
  | .loadShutdown .. | .loadPause | .loadGeneration => true
  | _ => false

/-! ## The steps together -/

/-- `set_pause_reason`, undisturbed. -/
theorem exec_setPauseReason (s : Fence) (r : PauseReason) (h : s.owesBump = false) :
    Runs.exec step s (.fetchOr r :: if s.execution.hasPauseReason r then [] else [.bump]) =
      some (s.setExecution (s.execution.setPauseReason r)) := by
  obtain ⟨m, owes, dispatched, check⟩ := s
  obtain rfl : owes = false := h
  unfold ExecutionState.setPauseReason
  cases hr : (⟨m, false, dispatched, check⟩ : Fence).execution.hasPauseReason r
  · simp only [Runs.exec_cons, step, hr]; rfl
  · simp only [Runs.exec_cons, step, hr]; rfl

/-- `shutdown`, undisturbed. -/
theorem exec_shutdown (s : Fence) (h : s.owesBump = false) :
    Runs.exec step s [.storeShutdown, .bump] = some (s.setExecution s.execution.beginShutdown) := by
  obtain ⟨m, owes, dispatched, check⟩ := s
  obtain rfl : owes = false := h
  rfl

/-- `permits`, undisturbed: the check reaches its last load and passes it exactly when
    `ExecutionState.permits` holds. -/
theorem exec_check (s : Fence) (decision : OrderDecision) (generation : Nat) (h : s.check = .idle)
    (hmem : (decision, generation) ∈ s.dispatched) :
    (∃ t, Runs.exec step s [.loadShutdown decision generation, .loadPause] = some t ∧
      t.Permitted generation) ↔ s.execution.permits generation = true := by
  obtain ⟨m, owes, dispatched, check⟩ := s
  obtain rfl : check = .idle := h
  have hfirst : (⟨m, owes, dispatched, .idle⟩ : Fence).step (.loadShutdown decision generation) =
      some ⟨m, owes, dispatched, if m.execution.shutdown then .idle else .shutdownRead generation⟩ :=
    if_pos ⟨rfl, hmem⟩
  rw [Runs.exec_cons, hfirst, Option.bind_some, Runs.exec_singleton]
  cases hs : m.execution.shutdown
  · by_cases hp : m.execution.pauseReasons = 0#8
    · simp [step, execution, ExecutionState.permits, Permitted, hs, hp]
    · simp [step, execution, ExecutionState.permits, Permitted, hs, hp]
  · simp [step, execution, ExecutionState.permits, hs]

/-! ## What one step can do -/

@[simp] theorem setExecution_execution (s : Fence) (e : ExecutionState) :
    (s.setExecution e).execution = e := rfl

@[simp] theorem setExecution_check (s : Fence) (e : ExecutionState) :
    (s.setExecution e).check = s.check := rfl

@[simp] theorem dispatch_check (s : Fence) (position limit : ℚ) (quote : Quote) (now : Int) :
    (s.dispatch position limit quote now).check = s.check := rfl

@[simp] theorem dispatch_generation (s : Fence) (position limit : ℚ) (quote : Quote) (now : Int) :
    (s.dispatch position limit quote now).execution.generation = s.execution.generation := rfl

@[simp] theorem dispatch_shutdown (s : Fence) (position limit : ℚ) (quote : Quote) (now : Int) :
    (s.dispatch position limit quote now).execution.shutdown = s.execution.shutdown := by
  show (s.manager.onQuoteInto position limit quote now).1.execution.shutdown = _
  rcases s.manager.onQuoteInto_execution position limit quote now with h | ⟨h, _⟩
  · rw [h]; rfl
  · rw [h, ExecutionState.setPauseReason_shutdown]; rfl

/-- Only a bump moves the generation, by one. -/
theorem step_generation {s s' : Fence} {e : Event} (h : s.step e = some s')
    (hlt : s.execution.generation < size) :
    s'.execution.generation = (s.execution.generation + if e.isBump then 1 else 0) % size := by
  have hmod := Nat.mod_eq_of_lt hlt
  cases e with
  | bump =>
    simp only [step] at h
    split at h
    · cases h; rfl
    · cases h
  | fetchOr | fetchAnd | storeShutdown | quote | slots =>
    simp only [step] at h
    split at h
    · cases h
    · cases h; exact hmod.symm
  | loadShutdown =>
    simp only [step] at h
    split at h
    · cases h; exact hmod.symm
    · cases h
  | loadPause | loadGeneration =>
    simp only [step] at h
    split at h
    · cases h; exact hmod.symm
    · cases h

/-- A thread that owes a bump changes nothing else first. -/
theorem step_owing {s s' : Fence} {e : Event} (h : s.step e = some s') (howes : s.owesBump = true)
    (hbump : e.isBump = false) : s'.owesBump = true ∧ s'.execution = s.execution := by
  cases e with
  | bump => cases hbump
  | fetchOr | fetchAnd | storeShutdown | quote | slots => simp [step, howes] at h
  | loadShutdown =>
    simp only [step] at h
    split at h <;> cases h
    exact ⟨howes, rfl⟩
  | loadPause | loadGeneration =>
    simp only [step] at h
    split at h
    · cases h; exact ⟨howes, rfl⟩
    · cases h

/-- Shutdown is final. -/
theorem step_shutdown {s s' : Fence} {e : Event} (h : s.step e = some s')
    (hdown : s.execution.shutdown = true) : s'.execution.shutdown = true := by
  cases e with
  | quote =>
    simp only [step] at h
    split at h <;> cases h
    rw [dispatch_shutdown, hdown]
  | storeShutdown =>
    simp only [step] at h
    split at h <;> cases h
    rfl
  | fetchOr | fetchAnd | slots =>
    simp only [step] at h
    split at h
    · cases h
    · cases h; exact hdown
  | bump | loadShutdown =>
    simp only [step] at h
    split at h
    · cases h; exact hdown
    · cases h
  | loadPause | loadGeneration =>
    simp only [step] at h
    split at h
    · cases h; exact hdown
    · cases h

/-- Only the executor's loads move its check. -/
theorem step_check {s s' : Fence} {e : Event} (h : s.step e = some s') (hload : e.isLoad = false) :
    s'.check = s.check := by
  cases e with
  | loadShutdown | loadPause | loadGeneration => cases hload
  | fetchOr | fetchAnd | storeShutdown | quote | slots =>
    simp only [step] at h
    split at h
    · cases h
    · cases h; rfl
  | bump =>
    simp only [step] at h
    split at h
    · cases h; rfl
    · cases h

/-! ## Runs -/

theorem exec_generation {s s' : Fence} {es : List Event} (h : Runs.exec step s es = some s')
    (hlt : s.execution.generation < size) :
    s'.execution.generation = (s.execution.generation + es.countP Event.isBump) % size := by
  induction es generalizing s with
  | nil => cases h; simp [Nat.mod_eq_of_lt hlt]
  | cons e es ih =>
    obtain ⟨t, ht, hes⟩ := Runs.exec_cons_some h
    have hgen := step_generation ht hlt
    rw [ih hes (hgen ▸ Nat.mod_lt _ (by decide)), hgen, List.countP_cons, Nat.mod_add_mod]
    congr 1
    split <;> omega

theorem exec_generation_lt {config : OrderManagerConfig} {startMs : Int} {s : Fence} {es : List Event}
    (h : Runs.exec step (.new config startMs) es = some s) : s.execution.generation < size := by
  rw [exec_generation h (by decide : 0 < size)]
  exact Nat.mod_lt _ (by decide)

/-- Without a bump, a thread that owes one keeps owing it. -/
theorem exec_owing {s s' : Fence} {es : List Event} (h : Runs.exec step s es = some s')
    (howes : s.owesBump = true) (hbump : es.countP Event.isBump = 0) :
    s'.execution = s.execution := by
  induction es generalizing s with
  | nil => cases h; rfl
  | cons e es ih =>
    obtain ⟨t, ht, hes⟩ := Runs.exec_cons_some h
    rw [List.countP_eq_zero] at hbump
    obtain ⟨howes', heq⟩ := step_owing ht howes (by simpa using hbump e List.mem_cons_self)
    rw [← heq]
    exact ih hes howes' (List.countP_eq_zero.mpr fun f hf => hbump f (List.mem_cons_of_mem e hf))

theorem exec_shutdown_final {s s' : Fence} {es : List Event} (h : Runs.exec step s es = some s')
    (hdown : s.execution.shutdown = true) : s'.execution.shutdown = true :=
  Runs.exec_invariant (fun t => t.execution.shutdown = true) (fun _ _ _ hd hs => step_shutdown hs hd) hdown h

theorem exec_check_kept {s s' : Fence} {es : List Event} (h : Runs.exec step s es = some s')
    (hload : ∀ e ∈ es, e.isLoad = false) : s'.check = s.check := by
  induction es generalizing s with
  | nil => cases h; rfl
  | cons e es ih =>
    obtain ⟨t, ht, hes⟩ := Runs.exec_cons_some h
    rw [ih hes fun f hf => hload f (List.mem_cons_of_mem e hf),
      step_check ht (hload e List.mem_cons_self)]

/-- A run in which the shutdown flag is stored ends with it set. -/
theorem exec_storeShutdown {s s' : Fence} {es : List Event} (h : Runs.exec step s es = some s')
    (hmem : Event.storeShutdown ∈ es) : s'.execution.shutdown = true := by
  obtain ⟨pre, post, rfl⟩ := List.append_of_mem hmem
  obtain ⟨t, _, hpost⟩ := Runs.exec_append_some h
  obtain ⟨u, hu, hpost⟩ := Runs.exec_cons_some hpost
  refine exec_shutdown_final hpost ?_
  simp only [step] at hu
  split at hu <;> cases hu
  rfl

/-! ## Main theorem -/

/-- A Send is tagged with the generation its quote found. -/
theorem tag_of_send {s : Fence} {position limit : ℚ} {quote : Quote} {now : Int} {d : OrderDecision}
    (hmem : d ∈ (s.manager.onQuoteInto position limit quote now).2) (hd : d.isSend = true) :
    s.tag position limit quote now = s.execution.generation := by
  unfold tag
  rcases s.manager.onQuoteInto_execution position limit quote now with h | ⟨_, _, hnone⟩
  · rw [h]; rfl
  · rw [hnone d hmem] at hd; cases hd

/-- A passed check took its three loads one after the other. -/
theorem loads_of_permitted {s₂ s₃ s₄ s₅ s₆ : Fence} {b c : List Event} {d : OrderDecision}
    {generation generation' : Nat} (hshutdown : s₂.step (.loadShutdown d generation) = some s₃)
    (hb : Runs.exec step s₃ b = some s₄) (hpause : s₄.step .loadPause = some s₅)
    (hc : Runs.exec step s₅ c = some s₆) (hload : ∀ e ∈ b ++ c, e.isLoad = false)
    (hpermitted : s₆.Permitted generation') :
    s₂.execution.shutdown = false ∧ s₄.execution.pauseReasons = 0#8 := by
  have hc₄ := exec_check_kept hb fun e he => hload e (List.mem_append_left c he)
  have hc₆ := exec_check_kept hc fun e he => hload e (List.mem_append_right b he)
  have hc₃ : s₃.check = if s₂.execution.shutdown then .idle else .shutdownRead generation := by
    simp only [step] at hshutdown
    split at hshutdown <;> cases hshutdown
    rfl
  constructor
  · by_contra hdown
    rw [Bool.not_eq_false] at hdown
    rw [hdown, if_pos rfl] at hc₃
    simp [step, hc₄, hc₃] at hpause
  · by_contra hset
    have hc₅ : s₅.check = .idle := by
      simp only [step] at hpause
      split at hpause <;> cases hpause
      simp [hset]
    rw [hpermitted.1, hc₅] at hc₆
    cases hc₆

/-- **Generation fencing.**  Let a quote dispatch a Send, let `a` be what happens until a check of
    it starts, `b` what happens between its first two loads and `c` until its last, with fewer
    than `2 ^ 64` bumps in all.  If the check passes, then no reason is set at the pause load,
    no bump happened since the dispatch, shutdown had not begun when the check started, and every
    `fetch_or` before the pause load found its reason already set.  After shutdown no quote emits
    anything and no check gets past its first load. -/
theorem generation_fencing (config : OrderManagerConfig) (startMs : Int) (pre : List Event)
    (s₀ : Fence) (hpre : Runs.exec step (.new config startMs) pre = some s₀) :
    (∀ position limit quote now d s₁ a s₂ s₃ b s₄ s₅ c s₆,
      s₀.step (.quote position limit quote now) = some s₁ →
      d ∈ (s₀.manager.onQuoteInto position limit quote now).2 → d.isSend = true →
      Runs.exec step s₁ a = some s₂ →
      s₂.step (.loadShutdown d (s₀.tag position limit quote now)) = some s₃ →
      Runs.exec step s₃ b = some s₄ → s₄.step .loadPause = some s₅ →
      Runs.exec step s₅ c = some s₆ → (∀ e ∈ b ++ c, e.isLoad = false) →
      (a ++ b ++ c).countP Event.isBump < 2 ^ 64 →
      s₆.Permitted (s₀.tag position limit quote now) →
      s₄.execution.pauseReasons = 0#8 ∧ (a ++ b ++ c).countP Event.isBump = 0 ∧
      Event.storeShutdown ∉ a ∧
      ∀ p r q t, a ++ .loadShutdown d (s₀.tag position limit quote now) :: b = p ++ .fetchOr r :: q →
        Runs.exec step s₁ p = some t → t.execution.hasPauseReason r = true) ∧
    (s₀.execution.shutdown = true → ∀ es s, Runs.exec step s₀ es = some s →
      (∀ position limit quote now, (s.manager.onQuoteInto position limit quote now).2 = []) ∧
      ∀ d generation s', s.step (.loadShutdown d generation) = some s' → s'.check = .idle) := by
  constructor
  · intro position limit quote now d s₁ a s₂ s₃ b s₄ s₅ c s₆ hquote hmem hd ha hshutdown hb hpause hc
      hload hcount hpermitted
    obtain ⟨hup, hclear⟩ := loads_of_permitted hshutdown hb hpause hc hload hpermitted
    have hlt₁ : s₁.execution.generation < size := by
      have : Runs.exec step (.new config startMs) (pre ++ [.quote position limit quote now]) = some s₁ := by
        rw [Runs.exec_append, hpre, Option.bind_some, Runs.exec_singleton, hquote]
      exact exec_generation_lt this
    -- the whole stretch as one run: the executor's loads are no bumps
    have hrun₅ : Runs.exec step s₁ (a ++ .loadShutdown d (s₀.tag position limit quote now) :: b) = some s₄ := by
      rw [Runs.exec_append, ha, Option.bind_some, Runs.exec_cons, hshutdown, Option.bind_some, hb]
    have hrun : Runs.exec step s₁
        ((a ++ .loadShutdown d (s₀.tag position limit quote now) :: b) ++ .loadPause :: c) = some s₆ := by
      rw [Runs.exec_append, hrun₅, Option.bind_some, Runs.exec_cons, hpause, Option.bind_some, hc]
    have htag : s₀.tag position limit quote now = s₁.execution.generation := by
      rw [tag_of_send hmem hd, step_generation hquote (exec_generation_lt hpre)]
      exact (Nat.mod_eq_of_lt (exec_generation_lt hpre)).symm
    have hnone : (a ++ b ++ c).countP Event.isBump = 0 := by
      have hgen := exec_generation hrun hlt₁
      rw [← hpermitted.2, htag] at hgen
      simp only [List.countP_append, List.countP_cons, Event.isBump, Bool.false_eq_true, if_false,
        Nat.add_zero] at hgen hcount ⊢
      unfold size at hlt₁ hgen
      omega
    refine ⟨hclear, hnone, ?_, ?_⟩
    · intro hstore
      rw [exec_storeShutdown ha hstore] at hup
      cases hup
    · intro p r q t heq ht
      by_contra hnew
      rw [Bool.not_eq_true] at hnew
      -- the thread that newly set `r` owes a bump from there to the pause load
      rw [heq] at hrun₅
      obtain ⟨t', ht', hq⟩ := Runs.exec_append_some hrun₅
      obtain rfl : t = t' := Option.some.inj (ht.symm.trans ht')
      obtain ⟨u, hu, hq⟩ := Runs.exec_cons_some hq
      have hset : u.owesBump = true ∧ u.execution.hasPauseReason r = true := by
        simp only [step] at hu
        split at hu <;> cases hu
        exact ⟨by simp [hnew], Flags.test_set_self _ r.bits_ne_zero⟩
      have hbumps : q.countP Event.isBump = 0 := by
        have := congrArg (List.countP Event.isBump) heq
        simp only [List.countP_append, List.countP_cons, Event.isBump, Bool.false_eq_true, if_false,
          Nat.add_zero] at this hnone
        omega
      have hkept := exec_owing hq hset.1 hbumps
      refine ExecutionState.pauseReasons_ne_zero (s := s₄.execution) (r := r) ?_ hclear
      rw [hkept]
      exact hset.2
  · intro hdown es s hes
    have hstill := exec_shutdown_final hes hdown
    constructor
    · intro position limit quote now
      rw [OrderManager.onQuoteInto_paused fun h => ?_]
      exact absurd (h.1.symm.trans hstill) (by simp)
    · intro d generation s' hstep
      simp only [step] at hstep
      split at hstep <;> cases hstep
      rfl

/-! ## Around the fence -/

/-- The first bid of the default manager. -/
def firstBid : OrderDecision := .send .buy 0 99 1 "mm_TEST-USD_7_0_0_1"

/-- The default manager with its first bid dispatched, and the generation bumped `n` times. -/
def afterBumps (n : Nat) : Fence :=
  ⟨{ (OrderManager.placeOrder (.new .default 7) (.buy, 0) 99 1 0).1 with execution := ⟨0#8, false, n % size⟩ },
   false, [(firstBid, 0)], .idle⟩

/-- A pause and its end. -/
def pauseAndClear : List Event := [.fetchOr .riskData, .bump, .fetchAnd .riskData]

theorem new_quote : (new .default 7).step (.quote 0 1000 OrderManager.bidOnly 0) = some (afterBumps 0) := by
  have hquote := OrderManager.quote_first_bid (m := .new .default 7) rfl ⟨rfl, rfl⟩ rfl
  simp only [step, dispatch, tag, new, hquote]
  rfl

theorem afterBumps_pauseAndClear (n : Nat) :
    Runs.exec step (afterBumps n) pauseAndClear = some (afterBumps (n + 1)) := by
  have hbump : wrappingAdd (n % size) 1 = (n + 1) % size := by rw [wrappingAdd, Nat.mod_add_mod]
  have hflags : Flags.clear (Flags.set 0#8 PauseReason.riskData.bits) PauseReason.riskData.bits = 0#8 := by
    decide
  simp only [pauseAndClear, Runs.exec_cons, step, afterBumps, ← hbump]
  simp only [setExecution, execution, ExecutionState.fetchOrPause, ExecutionState.bumpGeneration,
    ExecutionState.clearPauseReason, ExecutionState.hasPauseReason, Flags.test_zero, Bool.false_eq_true,
    if_false, Bool.not_false, if_true, Option.bind_some, Runs.exec_nil, hflags]

theorem afterBumps_permitted {n : Nat} (h : n % size = 0) :
    ∃ s, Runs.exec step (afterBumps n) [.loadShutdown firstBid 0, .loadPause] = some s ∧ s.Permitted 0 := by
  refine (exec_check (afterBumps n) firstBid 0 rfl List.mem_cons_self).mpr ?_
  simp [afterBumps, execution, ExecutionState.permits, h]

theorem firstBid_mem :
    firstBid ∈ ((OrderManager.new .default 7).onQuoteInto 0 1000 OrderManager.bidOnly 0).2 := by
  rw [OrderManager.quote_first_bid rfl ⟨rfl, rfl⟩ rfl]
  exact List.mem_cons_self

/-- The check of the bid, with `n` bumps so far and its first load done. -/
def checkingBid (n : Nat) : Fence := { afterBumps n with check := .shutdownRead 0 }

theorem checkingBid_pauseAndClear : Runs.exec step (checkingBid 0) pauseAndClear = some (checkingBid 1) :=
  rfl

/-- The bid's check passes while a reason that is not set is cleared before its pause load and
    another one is set after it; it does not pass when a whole pause comes and goes between its
    first two loads. -/
theorem generation_fencing_firstBid :
    (∃ s, Runs.exec step (afterBumps 0) [.fetchAnd .marketData, .loadShutdown firstBid 0,
        .fetchAnd .riskData, .loadPause, .fetchOr .riskData] = some s ∧ s.Permitted 0 ∧
      (afterBumps 0).execution.pauseReasons = 0#8) ∧
    ∃ s, Runs.exec step (afterBumps 0)
        ([.loadShutdown firstBid 0] ++ pauseAndClear ++ [.loadPause]) = some s ∧ ¬ s.Permitted 0 := by
  obtain ⟨hfence, _⟩ := generation_fencing .default 7 [] (new .default 7) rfl
  have htag : (new .default 7).tag 0 1000 OrderManager.bidOnly 0 = 0 := tag_of_send firstBid_mem rfl
  constructor
  · refine ⟨_, rfl, ⟨rfl, rfl⟩, ?_⟩
    have hall := hfence 0 1000 OrderManager.bidOnly 0 firstBid (afterBumps 0) [.fetchAnd .marketData]
      (afterBumps 0) (checkingBid 0) [.fetchAnd .riskData] (checkingBid 0)
      { afterBumps 0 with check := .pauseRead 0 } [.fetchOr .riskData] _
      new_quote firstBid_mem rfl rfl (by rw [htag]; rfl) rfl rfl rfl (by decide) (by decide)
      (by rw [htag]; exact ⟨rfl, rfl⟩)
    exact hall.1
  · refine ⟨{ afterBumps 1 with check := .pauseRead 0 }, ?_, ?_⟩
    · rw [Runs.exec_append, Runs.exec_append, Runs.exec_singleton]
      show ((Runs.exec step (checkingBid 0) pauseAndClear).bind _) = _
      rw [checkingBid_pauseAndClear]
      rfl
    · intro hpermitted
      have hall := hfence 0 1000 OrderManager.bidOnly 0 firstBid (afterBumps 0) [] (afterBumps 0)
        (checkingBid 0) pauseAndClear (checkingBid 1)
        { afterBumps 1 with check := .pauseRead 0 } [] { afterBumps 1 with check := .pauseRead 0 }
        new_quote firstBid_mem rfl rfl (by rw [htag]; rfl) checkingBid_pauseAndClear rfl rfl (by decide)
        (by decide) (by rw [htag]; exact hpermitted)
      -- the bump of the pause lies between the first two loads
      exact absurd hall.2.1 (by decide)

/-- **Two ways around the fence.**  A Send dispatched at generation 0 passes its check after
    `2 ^ 64` pauses have been set and cleared; and it passes it with a pause set, when the
    `fetch_or` falls after the pause load and its bump after the generation load. -/
theorem stale_send_permitted :
    (new .default 7).step (.quote 0 1000 OrderManager.bidOnly 0) = some (afterBumps 0) ∧
    firstBid ∈ ((new .default 7).manager.onQuoteInto 0 1000 OrderManager.bidOnly 0).2 ∧
    (∃ s, Runs.exec step (afterBumps 0) ((List.replicate size pauseAndClear).flatten ++
      [.loadShutdown firstBid 0, .loadPause]) = some s ∧ s.Permitted 0) ∧
    ∃ s, Runs.exec step (afterBumps 0) [.loadShutdown firstBid 0, .loadPause, .fetchOr .riskData] = some s ∧
      s.Permitted 0 ∧ s.execution.hasPauseReason .riskData = true := by
  refine ⟨new_quote, firstBid_mem, ?_, ?_⟩
  · rw [Runs.exec_append, Runs.exec_replicate afterBumps_pauseAndClear, Option.bind_some, Nat.zero_add]
    exact afterBumps_permitted (Nat.mod_self size)
  · exact ⟨_, rfl, ⟨rfl, rfl⟩, rfl⟩

end Fence

end MarketMaker
