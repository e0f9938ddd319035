import MarketMaker.Trading.CleanupBarrier

/-!
# Shutdown

After the main loop, `shutdown_order_managers` sets the flag for good, the reconciliation worker is
aborted, and `cancel_all_and_verify` makes its attempts.

## Results

* `executor_down` — what the executor can still do once the flag is set.
* `down_step` — what every step after the shutdown preserves.
* `shutdown_is_final` — over every interleaving: at most the one order that had passed its second check is
  still written, and none from a verified attempt on.
-/

set_option autoImplicit false

namespace MarketMaker

namespace OrderChannel

open Runs Word64

/-- The order that has passed both checks and is not written yet. -/
def held (s : OrderChannel) : Option Request :=
  match s.executor with
  | .permitted clOrdId id => some ⟨id, .new clOrdId⟩
  | .writing clOrdId id => some ⟨id, .new clOrdId⟩
  | _ => none

/-- After the shutdown: the flag, and what was written since. -/
structure Down (before s : OrderChannel) : Prop where
  stopped : s.main = .stopped
  shutdown : s.execution.shutdown = true
  worker : s.worker = .aborted
  put : s.put = before.put ∧ (s.held = none ∨ s.held = before.held) ∨
    ∃ q, before.held = some q ∧ s.held = none ∧ s.put = q :: before.put

variable {s s' before : OrderChannel}

theorem held_of_executor (h : s'.executor = s.executor) : s'.held = s.held := by
  unfold held
  rw [h]

theorem held_outside (h : s.executor.inSection = false) : s.held = none := by
  unfold held
  split
  · rename_i hx
    rw [hx] at h
    exact absurd h (by simp [Executor.inSection])
  · rename_i hx
    rw [hx] at h
    exact absurd h (by simp [Executor.inSection])
  · rfl

/-- **What the executor can still do.**  With the flag set it passes no check. -/
theorem executor_down {ok reached : Bool} (hdown : s.execution.shutdown = true)
    (hs : s.executorStep ok reached = some s') :
    s'.put = s.put ∧ (s'.held = none ∨ s'.held = s.held) ∨
      ∃ q, s.held = some q ∧ s'.held = none ∧ s'.put = q :: s.put := by
  have hno := not_permits_of_fenced (.inl hdown)
  unfold executorStep at hs
  unfold held
  split at hs
  case h_1 => cases hs
  case h_2 hx =>
    rw [hno] at hs
    split at hs
    · cases hs
    · cases hs
      exact .inl ⟨rfl, .inl rfl⟩
  case h_3 hx =>
    split at hs <;> cases hs <;> exact .inl ⟨rfl, .inl rfl⟩
  case h_4 hx =>
    rw [hno, Bool.and_false] at hs
    cases hs
    exact .inl ⟨rfl, .inl rfl⟩
  case h_5 hx =>
    cases hs
    rw [hx]
    exact .inl ⟨rfl, .inr rfl⟩
  case h_6 hx =>
    cases hs
    rw [hx]
    exact .inr ⟨_, rfl, rfl, rfl⟩
  case h_7 => cases hs; exact .inl ⟨rfl, .inl rfl⟩
  case h_8 => cases hs; exact .inl ⟨rfl, .inl rfl⟩
  case h_9 => split at hs <;> cases hs <;> exact .inl ⟨rfl, .inl rfl⟩
  case h_10 => cases hs; exact .inl ⟨rfl, .inl rfl⟩
  case h_11 => split at hs <;> cases hs <;> exact .inl ⟨rfl, .inl rfl⟩
  case h_12 => split at hs <;> cases hs <;> exact .inl ⟨rfl, .inl rfl⟩
  case h_13 => cases hs; exact .inl ⟨rfl, .inl rfl⟩

/-- The flags stay, and what is written was held. -/
theorem Down.next (h : Down before s) (hmain : s'.main = s.main) (hexecution : s'.execution = s.execution)
    (hworker : s'.worker = s.worker)
    (hput : s'.put = s.put ∧ (s'.held = none ∨ s'.held = s.held) ∨
      ∃ q, s.held = some q ∧ s'.held = none ∧ s'.put = q :: s.put) : Down before s' where
  stopped := hmain.trans h.stopped
  shutdown := by rw [hexecution]; exact h.shutdown
  worker := hworker.trans h.worker
  put := by
    rcases hput with ⟨hsame, hheld⟩ | ⟨q, hq, hnone, hwritten⟩
    · rcases h.put with ⟨hbefore, hold⟩ | ⟨q, hq, hnone, hwritten⟩
      · refine .inl ⟨hsame.trans hbefore, ?_⟩
        rcases hheld with hnone | hkept
        · exact .inl hnone
        · exact hold.imp hkept.trans hkept.trans
      · refine .inr ⟨q, hq, ?_, hsame.trans hwritten⟩
        rcases hheld with hgone | hkept
        · exact hgone
        · exact hkept.trans hnone
    · rcases h.put with ⟨hbefore, hold⟩ | ⟨p, -, hgone, -⟩
      · have hheldBefore : before.held = some q := by
          rcases hold with hgone | hkept
          · rw [hgone] at hq
            cases hq
          · exact hkept.symm.trans hq
        exact .inr ⟨q, hheldBefore, hnone, hwritten.trans (by rw [hbefore])⟩
      · rw [hgone] at hq
        cases hq

/-- An event of the main loop is over, and so are the worker's own. -/
theorem outside_down {e : Event} (h : Down before s) (houtside : e.Outside) (hs : s.step e = some s') :
    s'.main = s.main ∧ s'.execution = s.execution ∧ s'.worker = s.worker := by
  have hover : s.main ≠ .ready := by
    rw [h.stopped]
    decide
  cases e with
  | executor | receive | reader | cleanup => exact houtside.elim
  | place | cancel =>
    obtain ⟨-, hs⟩ := Option.ite_none_right_eq_some.mp hs
    cases hs
    exact ⟨rfl, rfl, rfl⟩
  | connection | login | reconnect =>
    obtain ⟨-, ⟨⟩⟩ := betweenMessages_some hs
    exact ⟨rfl, rfl, rfl⟩
  | resume r =>
    obtain ⟨-, hs⟩ := Option.ite_none_left_eq_some.mp hs
    exact absurd (whenReady_some hs).1 hover
  | resultArm =>
    simp only [step, resultArmStep, h.stopped] at hs
    cases hs
  | takeRequest | report =>
    simp only [step, h.worker] at hs
    cases hs
  | attempt =>
    simp only [step] at hs
    split at hs <;> cases hs
    exact ⟨rfl, rfl, rfl⟩
  | pause | begin | snapshot | deliver | shutdown => exact absurd (whenReady_some hs).1 hover

/-- **One event.** -/
theorem down_step {e : Event} (h : Down before s) (hs : s.step e = some s') : Down before s' := by
  cases e with
  | executor ok reached =>
    obtain ⟨hexecution, -, hworker, hmain, -⟩ := executorStep_keeps hs
    exact h.next hmain hexecution hworker (executor_down h.shutdown hs)
  | receive | reader =>
    obtain ⟨hexecutor, hput, hexecution, -, hworker, hmain, -⟩ := readerEvent_keeps (by trivial) hs
    exact h.next hmain hexecution hworker (.inl ⟨hput, .inr (held_of_executor hexecutor)⟩)
  | cleanup answer =>
    obtain ⟨hexecution, hexecutor, hmain, -, -, -, hput⟩ := cleanupStep_keeps hs
    have hworker : s'.worker = s.worker := by
      cases cleanupStep_moves hs with
      | enter _ _ _ _ hworker | stay _ _ _ hworker => exact hworker
      | leave _ _ _ hworker =>
        rcases hworker with hsame | ⟨-, generation, hcleaning, -⟩
        · exact hsame
        · rw [h.worker] at hcleaning
          cases hcleaning
    exact h.next hmain hexecution hworker (.inl ⟨hput, .inr (held_of_executor hexecutor)⟩)
  | _ =>
    have hmove := outside_step (by trivial) hs
    obtain ⟨hmain, hexecution, hworker⟩ := outside_down h (by trivial) hs
    refine h.next hmain hexecution hworker (.inl ⟨hmove.put, ?_⟩)
    cases hsection : s'.executor.inSection with
    | false => exact .inl (held_outside hsection)
    | true => exact .inr (held_of_executor (hmove.executor hsection))

theorem down_shutdown (hs : s.step .shutdown = some s') : Down s s' := by
  obtain ⟨-, ⟨⟩⟩ := whenReady_some hs
  exact ⟨rfl, rfl, rfl, .inl ⟨rfl, .inr rfl⟩⟩

/-- **The shutdown is final.**  Over every interleaving in which fewer than `2 ^ 64` request ids are drawn:
    after the shutdown no order is written but the one that had passed its second check; and when one of the
    attempts that follow returns `Ok(true)`, none is written any more, and every order ever written had been
    accounted for at that attempt's settlement check. -/
theorem shutdown_is_final {sessionId : String} {before after : List Event} {t s : OrderChannel}
    (hbefore : exec step (new sessionId) before = some t) (hafter : exec step t (.shutdown :: after) = some s)
    (hids : s.idsTaken ≤ size) :
    (s.put = t.put ∨ ∃ q, t.held = some q ∧ s.put = q :: t.put) ∧
      ∀ tries answer rest u, after = tries ++ .cleanup answer :: rest →
        exec step t (.shutdown :: tries) = some u → ReturnsTrue u answer →
        s.put = u.put ∧ ∀ q ∈ s.put, Resolved u.evidenceAtSettlement q := by
  obtain ⟨down, hdown, hrun⟩ := exec_cons_some hafter
  have hfinal : Down t s :=
    exec_invariant (Down t) (fun _ _ _ h hstep => down_step h hstep) (down_shutdown hdown) hrun
  refine ⟨hfinal.put.imp And.left fun hlast => hlast.imp fun q hq => ⟨hq.1, hq.2.2⟩, ?_⟩
  rintro tries answer rest u rfl hu hreturns
  have hreached : exec step (new sessionId) (before ++ .shutdown :: tries) = some u := by
    rw [exec_append, hbefore]
    exact hu
  have hordered := reachable_ordered hreached
  have hstopped : Down t u := by
    obtain ⟨down', hdown', htries⟩ := exec_cons_some hu
    exact exec_invariant (Down t) (fun _ _ _ h hstep => down_step h hstep) (down_shutdown hdown') htries
  have hrest : exec step u (.cleanup answer :: rest) = some s := by
    rw [← List.cons_append, exec_append, hu] at hafter
    exact hafter
  have hput : s.put = u.put := by
    rcases no_write_until_finish hordered (by rw [hreturns.1]; rfl) hrest with hsame | ⟨pre, post, x, -, hx, -, hfinishing⟩
    · exact hsame
    · -- no result arm ends after the shutdown
      have hx := exec_invariant (Down t) (fun _ _ _ h hstep => down_step h hstep) hstopped hx
      rw [hx.stopped] at hfinishing
      cases hfinishing
  refine ⟨hput, fun q hq => ?_⟩
  rw [hput] at hq
  exact (exec_barrier (new_barrier sessionId) ((idsTaken_exec hrest).trans hids) hreached).settled (.inr hreturns.1) q hq

/-- An order has passed both checks. -/
def checkedOrder : List Event := [.connection true true true, .place "ord_1" 0] ++ List.replicate 3 (.executor true true)

/-- It is written after the shutdown, and an attempt fails; it is answered, and the next attempt is at its
    last query. -/
def lastAttempt : List Event :=
  List.replicate 3 (.executor true true) ++ [.attempt, .cleanup .done, .cleanup .failed] ++
    [.receive (some ⟨"req_session_1_0", .new "ord_1"⟩)
      { code := some 0, requestId := some "req_session_1_0" }, .reader, .reader] ++
    [.attempt, .cleanup .done, .cleanup (.orders []), .cleanup .done, .cleanup .done, .cleanup .done,
     .cleanup .done]

theorem shutdown_is_final_checked : ∃ t s, exec step (new "session_1") checkedOrder = some t ∧
    exec step t (.shutdown :: (lastAttempt ++ [.cleanup (.orders [])])) = some s ∧ t.put = [] ∧
    s.put = [⟨"req_session_1_0", .new "ord_1"⟩] ∧
    ∃ u, exec step t (.shutdown :: lastAttempt) = some u ∧ s.put = u.put ∧
      ∀ q ∈ s.put, Resolved u.evidenceAtSettlement q := by
  have hbefore : exec step (new "session_1") checkedOrder = some _ := rfl
  refine ⟨_, _, hbefore, rfl, rfl, rfl, _, rfl, ?_⟩
  exact (shutdown_is_final hbefore rfl (by decide)).2 lastAttempt (.orders []) [] _ rfl rfl ⟨rfl, rfl⟩

end OrderChannel

end MarketMaker
