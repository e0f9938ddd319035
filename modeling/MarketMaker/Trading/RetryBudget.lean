import MarketMaker.Trading.Reconnect

/-!
# The retry budget

What the connection loops make of a sequence of attempts.

* `reset_after_session` — the budget and the reset law, for attempts that do not break off with a
  read error.
* `session_counts` — the ending of a session is the first failure: ten refused connections after
  it exhaust a budget of ten retries.
* `read_errors_exhaust` — sessions that all break off with a read error exhaust any budget.
-/

set_option autoImplicit false

namespace MarketMaker

open Word64

/-! ## The reset law -/

namespace OrderLink

variable {config : ReconnectConfig} {s s' : OrderLink} {a : OrderAttempt}

/-- What the loop makes of an attempt. -/
inductive Settled (config : ReconnectConfig) (s : OrderLink) (a : OrderAttempt) (ok : Bool)
    (s' : OrderLink) : Prop
  | stopped : a.stopped = true → s'.running = false → (s'.Exhausted → s.Exhausted) →
      Settled config s a ok s'
  | retry (delay : Nat) : (s.reconnect.settle config ok).2 = some delay →
      s'.reconnect = (s.reconnect.settle config ok).1 →
      s'.announced = some (s'.reconnect.consecutiveFailures, delay) →
      (s'.Exhausted → s.Exhausted) → Settled config s a ok s'
  | exhausted : (s.reconnect.settle config ok).2 = none →
      s'.reconnect = (s.reconnect.settle config ok).1 → s'.running = false → s'.Exhausted →
      Settled config s a ok s'

theorem mem_errorEvents (result : Except OrderWsError Unit) :
    .maxRetriesExceeded ∉ errorEvents result := by
  cases result <;> simp [errorEvents]

theorem step_settled (hstep : step config s a = some s') :
    s.running = true ∧ ∃ result, (a.connectAndRun config).2 = some result ∧
      Settled config s a result.isOk s' := by
  have hnone := a.connectAndRun_events config
  unfold step at hstep
  split at hstep
  · rename_i hrunning
    refine ⟨hrunning, ?_⟩
    split at hstep
    · cases hstep
    · rename_i sent result hresult
      rw [hresult] at hnone
      have herror := mem_errorEvents result
      refine ⟨result, by rw [hresult], ?_⟩
      dsimp only at hstep
      split at hstep
      · rename_i hstopped
        cases hstep
        refine .stopped hstopped rfl fun h => ?_
        simpa [Exhausted, hnone, herror] using h
      · split at hstep
        · rename_i reconnect delay hsettle
          cases hstep
          refine .retry delay (by rw [hsettle]) (by rw [hsettle]) rfl fun h => ?_
          simpa [Exhausted, hnone, herror] using h
        · rename_i reconnect hsettle
          cases hstep
          exact .exhausted (by rw [hsettle]) (by rw [hsettle]) rfl (by simp [Exhausted])
  · cases hstep

/-- The attempt never got through, or broke off with a read error. -/
def Broken (config : ReconnectConfig) (a : OrderAttempt) : Prop :=
  a.authenticated = false ∨ a.readError config = true

/-- The count is covered by the broken attempts at the end, but for one if another preceded them;
    and it went beyond the budget if the loop gave up. -/
structure Accounted (config : ReconnectConfig) (as : List OrderAttempt) (s : OrderLink) : Prop where
  covered : s.running = true → ∃ tail, tail <:+ as ∧ (∀ a ∈ tail, Broken config a) ∧
    s.reconnect.consecutiveFailures ≤ tail.length + 1 ∧
    (tail = as → s.reconnect.consecutiveFailures ≤ tail.length)
  alive : s.running = true → ¬ s.Exhausted
  spent : s.Exhausted → ∃ max, config.maxRetries = some max ∧ max < as.length ∧
    ∀ a ∈ as.drop (as.length - max), Broken config a

theorem accounted_new (config : ReconnectConfig) : Accounted config [] (new config) :=
  ⟨fun _ => ⟨[], List.suffix_rfl, by simp, by simp [new, ReconnectState.new],
      fun _ => by simp [new, ReconnectState.new]⟩,
   fun _ => by simp [new, Exhausted], fun h => by simp [new, Exhausted] at h⟩

/-- The last attempts within a broken tail are broken. -/
theorem broken_drop {as tail : List OrderAttempt} {n : Nat} (htail : tail <:+ as)
    (hbroken : ∀ a ∈ tail, Broken config a) (hn : n ≤ tail.length) :
    ∀ a ∈ as.drop (as.length - n), Broken config a := by
  obtain ⟨front, rfl⟩ := htail
  intro a ha
  refine hbroken a ?_
  have hsplit : front.length + tail.length - n = front.length + (tail.length - n) := by omega
  rw [List.length_append, hsplit, List.drop_append, List.drop_eq_nil_of_le (Nat.le_add_right _ _),
    List.nil_append] at ha
  exact List.mem_of_mem_drop ha

/-- **Step.** -/
theorem Accounted.step {as : List OrderAttempt} (h : Accounted config as s)
    (hstep : step config s a = some s') : Accounted config (as ++ [a]) s' := by
  obtain ⟨hrunning, result, hresult, hsettled⟩ := step_settled hstep
  have hok := OrderAttempt.result_cases hresult
  obtain ⟨tail, htail, hbroken, hcount, hall⟩ := h.covered hrunning
  -- the tail after this attempt, which covers the new count
  obtain ⟨tail', htail', hbroken', hcount', hall'⟩ : ∃ tail', tail' <:+ as ++ [a] ∧
      (∀ b ∈ tail', Broken config b) ∧
      (s.reconnect.settle config result.isOk).1.consecutiveFailures ≤ tail'.length + 1 ∧
      (tail' = as ++ [a] →
        (s.reconnect.settle config result.isOk).1.consecutiveFailures ≤ tail'.length) := by
    cases hcase : result.isOk with
    | true =>
      refine ⟨[], List.nil_suffix, by simp, ?_, ?_⟩
      · rw [(s.reconnect.settle_ok config).1]
        exact Nat.le_refl 1
      · intro hnil
        exact absurd hnil (by simp)
    | false =>
      have hbrokenA : Broken config a := by
        rw [hcase] at hok
        unfold Broken
        cases hauth : a.authenticated with
        | false => exact Or.inl rfl
        | true =>
          rw [hauth, Bool.true_and] at hok
          exact Or.inr (by simpa using hok.symm)
      have hle := s.reconnect.settle_failures_le config
      have hlength : (tail ++ [a]).length = tail.length + 1 := by simp
      refine ⟨tail ++ [a], ?_, ?_, by omega, ?_⟩
      · obtain ⟨front, rfl⟩ := htail
        exact ⟨front, by simp⟩
      · intro b hb
        rcases List.mem_append.mp hb with hb | hb
        · exact hbroken b hb
        · rw [List.mem_singleton.mp hb]
          exact hbrokenA
      · intro heq
        have := hall (List.append_cancel_right heq)
        omega
  cases hsettled with
  | stopped _ hstopped hexhausted =>
    refine ⟨fun hrun => ?_, fun hrun => ?_, fun hx => absurd (hexhausted hx) (h.alive hrunning)⟩ <;>
      exact absurd (hstopped.symm.trans hrun) Bool.false_ne_true
  | retry delay _ hreconnect _ hexhausted =>
    refine ⟨fun _ => ⟨tail', htail', hbroken', ?_, ?_⟩, fun _ hx => h.alive hrunning (hexhausted hx),
      fun hx => absurd (hexhausted hx) (h.alive hrunning)⟩
    · rw [hreconnect]
      exact hcount'
    · rw [hreconnect]
      exact hall'
  | exhausted hnone hreconnect hstopped _ =>
    obtain ⟨max, hmax, hlt⟩ := ReconnectState.nextDelay_none hnone
    refine ⟨fun hrun => ?_, fun hrun => ?_, fun _ => ⟨max, hmax, ?_, ?_⟩⟩
    · exact absurd (hstopped.symm.trans hrun) Bool.false_ne_true
    · exact absurd (hstopped.symm.trans hrun) Bool.false_ne_true
    · have hle := htail'.length_le
      by_cases heq : tail' = as ++ [a]
      · have := hall' heq
        unfold ReconnectState.settle at this
        rw [heq] at this
        omega
      · have hne : tail'.length ≠ (as ++ [a]).length := fun hlen => heq (htail'.eq_of_length hlen)
        unfold ReconnectState.settle at hcount'
        omega
    · refine broken_drop htail' hbroken' ?_
      unfold ReconnectState.settle at hcount'
      omega

theorem accounted_exec {as : List OrderAttempt}
    (hrun : Runs.exec (step config) (new config) as = some s) :
    Accounted config as s := by
  induction as using List.reverseRecOn generalizing s with
  | nil =>
    obtain rfl := Option.some.inj hrun
    exact accounted_new config
  | append_singleton as a ih =>
    obtain ⟨t, ht, hlast⟩ := Runs.exec_append_some hrun
    rw [Runs.exec_singleton] at hlast
    exact (ih ht).step hlast

/-- After a session that did not break off the count restarts at one. -/
theorem step_session (hstep : step config s a = some s') (hauth : a.authenticated = true)
    (hbroke : a.readError config = false) (hstopped : a.stopped = false) :
    s'.reconnect.consecutiveFailures = 1 ∧
      (config.maxRetries = some 0 → s'.Exhausted) ∧
      (config.maxRetries ≠ some 0 → s'.announced = some (1, config.initialDelaySecs)) := by
  obtain ⟨_, result, hresult, hsettled⟩ := step_settled hstep
  have hok : result.isOk = true := by rw [OrderAttempt.result_cases hresult, hauth, hbroke]; rfl
  obtain ⟨hone, hdelay⟩ := s.reconnect.settle_ok config
  rw [hok] at hsettled
  cases hsettled with
  | stopped hstop _ _ => exact absurd (hstopped.symm.trans hstop) Bool.false_ne_true
  | retry delay hsome hreconnect hannounced _ =>
    rw [hreconnect, hone] at hannounced
    rw [hdelay] at hsome
    refine ⟨hreconnect ▸ hone, fun hzero => ?_, fun hmore => ?_⟩
    · rw [if_pos hzero] at hsome
      cases hsome
    · rw [if_neg hmore] at hsome
      rw [hannounced, Option.some.inj hsome]
  | exhausted hnone hreconnect _ hexhausted =>
    refine ⟨hreconnect ▸ hone, fun _ => hexhausted, fun hmore => ?_⟩
    rw [hdelay, if_neg hmore] at hnone
    cases hnone

end OrderLink

namespace FeedLink

variable {config : ReconnectConfig} {s s' : FeedLink} {a : FeedAttempt}

/-- The same for the market data client. -/
theorem step_session (hstep : step config s a = some s') (hsubscribed : a.subscribed = true)
    (hbroke : a.readError config = false) (hstopped : a.stopped = false) :
    s'.reconnect.consecutiveFailures = 1 ∧
      s'.delay = if config.maxRetries = some 0 then none else some config.initialDelaySecs := by
  unfold step at hstep
  split at hstep
  · split at hstep
    · cases hstep
    · rename_i result hresult
      have hok : result.isOk = true := by rw [FeedAttempt.result_cases hresult, hsubscribed, hbroke]; rfl
      rw [if_neg (by simp [hstopped])] at hstep
      cases hstep
      rw [hok]
      exact s.reconnect.settle_ok config
  · cases hstep

end FeedLink

namespace OrderLink

/-- **The budget and the reset law.**  In every run of the order client, `MaxRetriesExceeded` is
    emitted only after more attempts than retries are allowed, of which the last `max_retries`
    never authenticated or broke off with a read error.  After an attempt that authenticated and
    did not break off so, the failure count restarts at one and the next delay is the initial one
    (with no retry allowed, the client gives up); the same holds for the market data client once
    it has subscribed. -/
theorem reset_after_session (config : ReconnectConfig) (attempts : List OrderAttempt) (s : OrderLink)
    (hrun : Runs.exec (step config) (new config) attempts = some s) (feedConfig : ReconnectConfig)
    (feeds : List FeedAttempt) (f : FeedLink)
    (hfeed : Runs.exec (FeedLink.step feedConfig) (FeedLink.new feedConfig) feeds = some f) :
    (s.Exhausted → ∃ max, config.maxRetries = some max ∧ max < attempts.length ∧
      ∀ a ∈ attempts.drop (attempts.length - max), a.authenticated = false ∨ a.readError config = true) ∧
    (∀ before a, attempts = before ++ [a] → a.authenticated = true → a.readError config = false →
      a.stopped = false → s.reconnect.consecutiveFailures = 1 ∧
        (config.maxRetries = some 0 → s.Exhausted) ∧
        (config.maxRetries ≠ some 0 → s.announced = some (1, config.initialDelaySecs))) ∧
    (∀ before a, feeds = before ++ [a] → a.subscribed = true → a.readError feedConfig = false →
      a.stopped = false → f.reconnect.consecutiveFailures = 1 ∧
        f.delay = if feedConfig.maxRetries = some 0 then none else some feedConfig.initialDelaySecs) := by
  refine ⟨(accounted_exec hrun).spent, ?_, ?_⟩
  · rintro before a rfl hauth hbroke hstopped
    obtain ⟨t, _, hlast⟩ := Runs.exec_append_some hrun
    rw [Runs.exec_singleton] at hlast
    exact step_session hlast hauth hbroke hstopped
  · rintro before a rfl hsubscribed hbroke hstopped
    obtain ⟨t, _, hlast⟩ := Runs.exec_append_some hfeed
    rw [Runs.exec_singleton] at hlast
    exact FeedLink.step_session hlast hsubscribed hbroke hstopped

/-! ## Sessions and refused connections -/

/-- A login that is answered with code zero. -/
def acceptedLogin : Login :=
  ⟨.ok (some "jwt"), "req_0", .ok (),
    [⟨0, .text (some (.obj [("code", .int 0), ("request_id", .str "req_0")]))⟩]⟩

/-- A session that a close frame ends. -/
def closedSession : OrderAttempt := ⟨.ok (), acceptedLogin, 0, [⟨true, 0, .close, 0⟩], false⟩

/-- A connection attempt that times out. -/
def refused : OrderAttempt := ⟨.error "Connection timeout", acceptedLogin, 0, [], false⟩

/-- A market data session that the stream's end ends. -/
def endedFeed : FeedAttempt := ⟨.ok (), [.ok ()], 0, [⟨true, 0, .ended, 0⟩], false⟩

/-- A refused connection, then a session of each client: the delay starts over. -/
theorem reset_after_session_once :
    ∃ s f, Runs.exec (step .forOrders) (new .forOrders) [refused, closedSession] = some s ∧
      Runs.exec (FeedLink.step .forOrderbook) (FeedLink.new .forOrderbook) [endedFeed] = some f ∧
      s.announced = some (1, 5) ∧ f.delay = some 5 := by
  obtain ⟨s, hs⟩ : ∃ s, Runs.exec (step .forOrders) (new .forOrders) [refused, closedSession] = some s :=
    Option.isSome_iff_exists.mp (by decide +kernel)
  obtain ⟨f, hf⟩ : ∃ f, Runs.exec (FeedLink.step .forOrderbook) (FeedLink.new .forOrderbook)
      [endedFeed] = some f := Option.isSome_iff_exists.mp (by decide +kernel)
  obtain ⟨_, horder, hfeed⟩ := reset_after_session .forOrders _ s hs .forOrderbook _ f hf
  refine ⟨s, f, hs, hf, ?_, ?_⟩
  · exact (horder [refused] closedSession rfl (by decide +kernel) (by decide +kernel) rfl).2.2 (by decide)
  · exact (hfeed [] endedFeed rfl (by decide +kernel) (by decide +kernel) rfl).2

/-- **The session counts.**  A session that a close frame ends, then ten refused connections: the
    budget of ten retries is exhausted, though the first of the last eleven attempts was
    authenticated and did not break off. -/
theorem session_counts :
    ∃ s, Runs.exec (step .forOrders) (new .forOrders) (closedSession :: List.replicate 10 refused) = some s ∧
      s.Exhausted ∧ ReconnectConfig.forOrders.maxRetries = some 10 ∧
      (closedSession :: List.replicate 10 refused).length = 10 + 1 ∧
      closedSession.authenticated = true ∧ closedSession.readError .forOrders = false := by
  have hexhausted : (Runs.exec (step .forOrders) (new .forOrders)
      (closedSession :: List.replicate 10 refused)).any (fun s => decide s.Exhausted) = true := by
    decide +kernel
  obtain ⟨s, hs, hx⟩ := (Option.any_eq_true _ _).mp hexhausted
  exact ⟨s, hs, of_decide_eq_true hx, rfl, rfl, by decide +kernel, by decide +kernel⟩

/-- An attempt that ends in an error adds one to the count, and beyond the budget it is the last. -/
theorem step_error {config : ReconnectConfig} {s : OrderLink} {a : OrderAttempt} {error : OrderWsError}
    {max : Nat} (hmax : config.maxRetries = some max) (hlt : max < 4294967295)
    (hrunning : s.running = true) (hcount : s.reconnect.consecutiveFailures ≤ max)
    (hresult : (a.connectAndRun config).2 = some (.error error)) (hstopped : a.stopped = false) :
    ∃ s', step config s a = some s' ∧
      if s.reconnect.consecutiveFailures = max then s'.Exhausted
      else s'.running = true ∧
        s'.reconnect.consecutiveFailures = s.reconnect.consecutiveFailures + 1 := by
  have hadd : wrappingAdd32 s.reconnect.consecutiveFailures 1 = s.reconnect.consecutiveFailures + 1 :=
    Nat.mod_eq_of_lt (by omega)
  obtain ⟨sent, hsent⟩ : ∃ sent, a.connectAndRun config = (sent, some (.error error)) :=
    ⟨_, Prod.ext rfl hresult⟩
  simp only [step, hrunning, if_true, hsent, hstopped, Bool.false_eq_true, if_false,
    ReconnectState.settle, ReconnectState.nextDelay, hmax, hadd, Option.any_some, Except.isOk,
    Except.toBool]
  by_cases hlast : s.reconnect.consecutiveFailures = max
  · refine ⟨_, by rw [if_pos (by simp [hlast])], ?_⟩
    rw [if_pos hlast]
    simp [Exhausted]
  · refine ⟨_, by rw [if_neg (by simp; omega)], ?_⟩
    rw [if_neg hlast]
    exact ⟨rfl, rfl⟩

/-- **Read errors exhaust the budget.**  `max_retries + 1` sessions in a row that each authenticated
    and broke off with a read error end the client, however long they lasted. -/
theorem read_errors_exhaust {config : ReconnectConfig} {max : Nat} (hmax : config.maxRetries = some max)
    (hlt : max < 4294967295) {as : List OrderAttempt} {s : OrderLink} (hrunning : s.running = true)
    (hlength : s.reconnect.consecutiveFailures + as.length = max + 1) (hne : as ≠ [])
    (hbroke : ∀ a ∈ as, a.readError config = true ∧ a.stopped = false) :
    ∃ s', Runs.exec (step config) s as = some s' ∧ s'.Exhausted := by
  induction as generalizing s with
  | nil => exact absurd rfl hne
  | cons a as ih =>
    obtain ⟨hread, hstopped⟩ := hbroke a List.mem_cons_self
    obtain ⟨error, hresult⟩ := OrderAttempt.result_of_readError hread
    rw [List.length_cons] at hlength
    obtain ⟨t, ht, hnext⟩ := step_error hmax hlt hrunning (by omega) hresult hstopped
    split at hnext
    · have hnil : as = [] := List.length_eq_zero_iff.mp (by omega)
      subst hnil
      exact ⟨t, by rw [Runs.exec_singleton, ht], hnext⟩
    · have hmore : as ≠ [] := by
        rintro rfl
        rw [List.length_nil] at hlength
        omega
      obtain ⟨s', hs', hx⟩ := ih hnext.1 (by rw [hnext.2]; omega) hmore
        fun b hb => hbroke b (List.mem_cons_of_mem a hb)
      exact ⟨s', by rw [Runs.exec_cons, ht, Option.bind_some, hs'], hx⟩

end OrderLink

end MarketMaker
