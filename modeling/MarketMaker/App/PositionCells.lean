import MarketMaker.Base.Cells
import MarketMaker.App.PositionGate

/-!
# The shared position, store by store

`SharedPosition::set` is three stores of the poller's task, and the main loop loads single cells at any time
in between: the time in the age check, the version in the gate, the position in a quote.

* `App.handle_outsideCheck`, `PositionCells.check_steps` — the arms of the main loop are calls, and undisturbed
  the three steps of the periodic check are the one of `App`.
* `PositionCells.quoted_position` — over every interleaving of the stores with the loads, the position a
  quote is decided with was asked for after whatever last shut the gate, and was published no earlier than
  the one whose age was last checked.
-/

set_option autoImplicit false

namespace MarketMaker

open Word64 Runs Cells
open OrderManager (Operation)

/-! ## The poller and its cells -/

/-- The loop of `PositionPoller::run` with `SharedPosition::set` written out. -/
inductive PollStage where
  | idle
  | asked
  | answered (position : ℚ)
  /-- `position_bits` is stored. -/
  | stored
  /-- The clock is read. -/
  | stamped (ms : Nat)
  /-- `last_update_ms` is stored. -/
  | counting
  deriving DecidableEq

/-- How many of the three cells the publication under way has reached. -/
def PollStage.cells : PollStage → Nat
  | .idle | .asked | .answered _ => 0
  | .stored | .stamped _ => 1
  | .counting => 2

/-- What is published together, and how often the gate had been shut when the query was sent. -/
structure Publication where
  asked : Nat
  position : ℚ
  stamp : Nat
  deriving DecidableEq

/-- Where the main loop is in the periodic check; with the number of the publication whose time it loaded
    and the clock it compared with. -/
inductive CheckStage where
  | outside
  | aged (fresh : Bool) (record nowMs : Nat)
  | opening (record nowMs : Nat)
  deriving DecidableEq

/-- The shared position between its poller and a manager.  The publications by number, the number of the
    last one, how often the gate was shut and what the last successful check saw are records that nothing
    reads. -/
structure PositionCells where
  position : SharedPosition
  poller : PollStage
  manager : OrderManager
  check : CheckStage
  complete : Nat
  publications : Nat → Publication
  shuts : Nat
  checked : Nat × Nat

inductive CellEvent where
  | ask
  | fail
  | answer (position : ℚ)
  | store
  | readClock (ms : Nat)
  | stamp
  | count
  | call (op : Operation)
  | checkAge (equityFresh : Bool) (nowMs : Nat)
  | checkVersion
  | checkOpen

/-- The poller moves; the main loop does not. -/
def CellEvent.OfPoller : CellEvent → Prop
  | .call _ | .checkAge .. | .checkVersion | .checkOpen => False
  | _ => True

namespace OrderManager.Operation

/-- What the operation loads of the shared position is there now. -/
def Reads (shared : SharedPosition) : Operation → Prop
  | .quote position _ _ _ => position = shared.position
  | .filled position _ _ _ | .requirePositionRefresh position | .positionRefreshComplete position
  | .initializePositionBaseline position => position = shared
  | _ => True

instance (shared : SharedPosition) (op : Operation) : Decidable (op.Reads shared) := by
  unfold Reads
  split <;> infer_instance

/-- Not one of the operations that only the periodic check makes. -/
def outsideCheck : Operation → Bool
  | .clearPauseReason .riskData | .positionRefreshComplete _ | .initializePositionBaseline _ => false
  | _ => true

/-- The operation shuts the gate. -/
def shutsGate (m : OrderManager) : Operation → Bool
  | .requirePositionRefresh _ => true
  | .filled _ orderId clOrdId _ => (m.findSlot (fillMatches orderId clOrdId)).isSome
  | _ => false

end OrderManager.Operation

/-- Every arm of the main loop but the periodic check makes such operations only. -/
theorem App.handle_outsideCheck (app : App) (now : Clocks) {e : App.Event} (he : e ≠ .checkRiskData)
    (symbol : String) : OrderManager.Calls (fun op => op.outsideCheck = true) (app.managers symbol)
      ((app.handle now e).managers symbol) := by
  refine (App.handle_calls app now e symbol).mono fun op hop => ?_
  cases op with
  | clearPauseReason r =>
    cases r with
    | riskData => exact absurd hop he
    | _ => rfl
  | positionRefreshComplete position => exact absurd hop he
  | initializePositionBaseline position => exact absurd hop he
  | _ => rfl

namespace PositionCells

/-- `App::new` with orders enabled. -/
def new (config : OrderManagerConfig) (startMs : Int) : PositionCells where
  position := .new
  poller := .idle
  manager := (((OrderManager.new config startMs).setPauseReason .orderWebSocket).setPauseReason
    .marketData).setPauseReason .riskData
  check := .outside
  complete := 0
  publications _ := ⟨0, 0, 0⟩
  shuts := 0
  checked := (0, 0)

/-- The cells as their writer sees them: position, time, version. -/
def writer (s : PositionCells) : Writer := ⟨s.complete, s.poller.cells⟩

/-- The number of the publication under way. -/
def next (s : PositionCells) : Nat := s.complete + 1

/-- Note something about the publication under way. -/
def note (s : PositionCells) (f : Publication → Publication) : Nat → Publication :=
  Function.update s.publications s.next (f (s.publications s.next))

/-- One atomic action of the poller or of the main loop. -/
def step (thresholdMs : Nat) (s : PositionCells) : CellEvent → Option PositionCells
  | .ask =>
    match s.poller with
    | .idle => some { s with poller := .asked, publications := s.note fun p => { p with asked := s.shuts } }
    | _ => none
  | .fail =>
    match s.poller with
    | .asked => some { s with poller := .idle }
    | _ => none
  | .answer position =>
    match s.poller with
    | .asked => some { s with poller := .answered position }
    | _ => none
  | .store =>
    match s.poller with
    | .answered position =>
      some { s with
        poller := .stored
        position := { s.position with position := position }
        publications := s.note fun p => { p with position := position } }
    | _ => none
  | .readClock ms =>
    match s.poller with
    | .stored => some { s with poller := .stamped ms }
    | _ => none
  | .stamp =>
    match s.poller with
    | .stamped ms =>
      some { s with
        poller := .counting
        position := { s.position with lastUpdateMs := ms }
        publications := s.note fun p => { p with stamp := ms } }
    | _ => none
  | .count =>
    match s.poller with
    | .counting =>
      some { s with
        poller := .idle
        position := { s.position with updateVersion := wrappingAdd s.position.updateVersion 1 }
        complete := s.next }
    | _ => none
  | .call op =>
    if s.check = .outside ∧ op.Reads s.position ∧ op.outsideCheck = true then
      some { s with
        manager := (s.manager.apply op).1
        shuts := if op.shutsGate s.manager then s.shuts + 1 else s.shuts }
    else none
  | .checkAge equityFresh nowMs =>
    match s.check with
    | .outside =>
      some { s with check := .aged (equityFresh && !s.position.isStale nowMs thresholdMs) (s.writer.shown 1) nowMs }
    | _ => none
  | .checkVersion =>
    match s.check with
    | .aged fresh record nowMs =>
      let (current, m) := s.manager.positionRefreshAfterFillComplete s.position
      if fresh && current then some { s with manager := m, check := .opening record nowMs }
      else
        let stale := m.setPauseReason .riskData
        some { s with
          manager := if !fresh && !m.hasPauseReason .riskData then stale.beginReconciliation else stale
          check := .outside }
    | _ => none
  | .checkOpen =>
    match s.check with
    | .opening record nowMs =>
      some { s with
        manager := (s.manager.initializePositionBaseline s.position).clearPauseReason .riskData
        check := .outside
        checked := (record, nowMs) }
    | _ => none

variable {thresholdMs : Nat} {s s' : PositionCells} {e : CellEvent}

/-- Undisturbed, the steps of the check are `update_risk_pauses`. -/
theorem check_steps (hs : s.check = .outside) (equityFresh : Bool) (nowMs : Nat) :
    ∃ t, (exec (step thresholdMs) s [.checkAge equityFresh nowMs, .checkVersion] = some t ∨
        exec (step thresholdMs) s [.checkAge equityFresh nowMs, .checkVersion, .checkOpen] = some t) ∧
      t.check = .outside ∧ t.manager = (App.refreshRiskPause s.manager s.position
        (equityFresh && !s.position.isStale nowMs thresholdMs)).2 := by
  obtain ⟨position, poller, manager, check, complete, publications, shuts, checked⟩ := s
  cases hs
  unfold App.refreshRiskPause
  cases hfresh : equityFresh && !position.isStale nowMs thresholdMs with
  | false =>
    exact ⟨_, .inl (by simp only [exec_cons, step, hfresh]; rfl), rfl, by split <;> simp_all⟩
  | true =>
    cases hcurrent : (manager.positionRefreshAfterFillComplete position).1 with
    | false => exact ⟨_, .inl (by simp [exec_cons, step, hfresh, hcurrent]; rfl), rfl, by simp [hcurrent]⟩
    | true => exact ⟨_, .inr (by simp [exec_cons, step, hfresh, hcurrent]; rfl), rfl, by simp [hcurrent]⟩

/-! ## What the poller does -/

/-- The number of the last publication that was asked for. -/
def begun (s : PositionCells) : Nat :=
  match s.poller with
  | .idle => s.complete
  | _ => s.next

/-- Every cell shows its part of a publication, the version the number of complete ones. -/
structure Shows (s : PositionCells) : Prop where
  position : s.position.position = (s.publications (s.writer.shown 0)).position
  stamp : s.position.lastUpdateMs = (s.publications (s.writer.shown 1)).stamp
  version : s.position.updateVersion = s.complete % size

theorem shown_le_begun (s : PositionCells) (i : Nat) : s.writer.shown i ≤ s.begun := by
  unfold begun
  split
  · rename_i hidle
    rw [Writer.shown_of_le (by simp [writer, hidle, PollStage.cells])]
    exact Nat.le_refl _
  · exact s.writer.shown_le i

theorem note_of_le {f : Publication → Publication} {n : Nat} (h : n ≤ s.complete) :
    s.note f n = s.publications n := Function.update_of_ne (Nat.ne_of_lt (Nat.lt_succ_of_le h)) _ _

theorem note_next (s : PositionCells) (f : Publication → Publication) :
    s.note f s.next = f (s.publications s.next) := Function.update_self ..

/-- A note that leaves a field of the publication alone. -/
theorem note_keeps {α : Type} {f : Publication → Publication} (field : Publication → α)
    (hf : ∀ p, field (f p) = field p) (n : Nat) : field (s.note f n) = field (s.publications n) := by
  by_cases hnext : n = s.next
  · rw [hnext, note_next]
    exact hf _
  · rw [note, Function.update_of_ne hnext]

theorem shown_eq {p : PollStage} (h : s.poller = p) (i : Nat) :
    s.writer.shown i = (⟨s.complete, p.cells⟩ : Writer).shown i := by rw [writer, h]

/-- A step of the poller, as the main loop can tell. -/
structure PollerMoves (s s' : PositionCells) : Prop where
  manager : s'.manager = s.manager
  check : s'.check = s.check
  shuts : s'.shuts = s.shuts
  checked : s'.checked = s.checked
  later : Writer.Later 3 s.writer s'.writer
  stamps : ∀ n ≤ s.writer.shown 1, (s'.publications n).stamp = (s.publications n).stamp
  /-- What is asked for now is asked for after all that shut the gate so far. -/
  asked : ∀ n ≤ s'.begun, n ≤ s.begun ∧ (s'.publications n).asked = (s.publications n).asked ∨
    (s'.publications n).asked = s.shuts

theorem poller_moves (he : e.OfPoller) (h : step thresholdMs s e = some s') (hs : s.Shows) :
    PollerMoves s s' ∧ s'.Shows := by
  -- Before the first store all cells show the last complete publication, after it only the later ones.
  have hshown : ∀ {p : PollStage}, s.poller = p → ∀ i, p.cells ≤ i → s.writer.shown i = s.complete :=
    fun hp i hi => by rw [shown_eq hp, Writer.shown_of_le hi]
  cases e with
  | call | checkAge | checkVersion | checkOpen => exact he.elim
  | ask =>
    cases hpoller : s.poller <;> simp only [step, hpoller, reduceCtorEq, Option.some.injEq] at h
    subst h
    have hshown := hshown hpoller
    refine ⟨⟨rfl, rfl, rfl, rfl, fun i _ => (hshown i (Nat.zero_le i)).le, fun n hn => ?_, fun n hn => ?_⟩,
      ?_, ?_, hs.version⟩
    · show (s.note _ n).stamp = _
      rw [note_of_le (hn.trans (hshown 1 (Nat.zero_le 1)).le)]
    · show n ≤ s.begun ∧ (s.note _ n).asked = _ ∨ (s.note _ n).asked = _
      by_cases hnext : n = s.next
      · subst hnext
        exact .inr (congrArg Publication.asked (s.note_next _))
      · have hle : n ≤ s.complete := Nat.le_of_lt_succ (lt_of_le_of_ne hn hnext)
        refine .inl ⟨?_, congrArg Publication.asked (note_of_le hle)⟩
        rwa [begun, hpoller]
    · show _ = (s.note _ s.complete).position
      rw [note_of_le (Nat.le_refl _), hs.position, hshown 0 (Nat.le_refl 0)]
    · show _ = (s.note _ s.complete).stamp
      rw [note_of_le (Nat.le_refl _), hs.stamp, hshown 1 (Nat.zero_le 1)]
  | fail =>
    cases hpoller : s.poller <;> simp only [step, hpoller, reduceCtorEq, Option.some.injEq] at h
    subst h
    have hshown := hshown hpoller
    refine ⟨⟨rfl, rfl, rfl, rfl, fun i _ => (hshown i (Nat.zero_le i)).le, fun _ _ => rfl, fun n hn =>
      .inl ⟨?_, rfl⟩⟩, ?_, ?_, hs.version⟩
    · rw [begun, hpoller]
      exact Nat.le_succ_of_le hn
    · rw [hs.position, hshown 0 (Nat.le_refl 0)]
      rfl
    · rw [hs.stamp, hshown 1 (Nat.zero_le 1)]
      rfl
  | answer q =>
    cases hpoller : s.poller <;> simp only [step, hpoller, reduceCtorEq, Option.some.injEq] at h
    subst h
    have hshown := hshown hpoller
    refine ⟨⟨rfl, rfl, rfl, rfl, fun i _ => (hshown i (Nat.zero_le i)).le, fun _ _ => rfl, fun n hn =>
      .inl ⟨?_, rfl⟩⟩, ?_, ?_, hs.version⟩
    · rw [begun, hpoller]
      exact hn
    · rw [hs.position, hshown 0 (Nat.le_refl 0)]
      rfl
    · rw [hs.stamp, hshown 1 (Nat.zero_le 1)]
      rfl
  | store =>
    cases hpoller : s.poller <;> simp only [step, hpoller, reduceCtorEq, Option.some.injEq] at h
    rename_i q
    subst h
    have hshown := hshown hpoller
    refine ⟨⟨rfl, rfl, rfl, rfl, fun i _ => ?_, fun n hn => ?_, fun n hn => .inl ⟨?_, ?_⟩⟩, ?_, ?_, hs.version⟩
    · rw [hshown i (Nat.zero_le i)]
      exact Writer.complete_le_shown ⟨s.complete, 1⟩ i
    · show (s.note _ n).stamp = _
      rw [note_of_le (hn.trans (hshown 1 (Nat.zero_le 1)).le)]
    · rw [begun, hpoller]
      exact hn
    · show (s.note _ n).asked = _
      exact note_keeps (f := fun p => { p with position := q }) Publication.asked (fun _ => rfl) n
    · show q = (s.note _ s.next).position
      rw [note_next]
    · show _ = (s.note _ s.complete).stamp
      rw [note_of_le (Nat.le_refl _), hs.stamp, hshown 1 (Nat.zero_le 1)]
  | readClock ms =>
    cases hpoller : s.poller <;> simp only [step, hpoller, reduceCtorEq, Option.some.injEq] at h
    subst h
    have hshown := shown_eq hpoller
    refine ⟨⟨rfl, rfl, rfl, rfl, fun i _ => (hshown i).le, fun _ _ => rfl, fun n hn => .inl ⟨?_, rfl⟩⟩, ?_, ?_,
      hs.version⟩
    · rw [begun, hpoller]
      exact hn
    · rw [hs.position, hshown 0]
      rfl
    · rw [hs.stamp, hshown 1]
      rfl
  | stamp =>
    cases hpoller : s.poller <;> simp only [step, hpoller, reduceCtorEq, Option.some.injEq] at h
    rename_i ms
    subst h
    refine ⟨⟨rfl, rfl, rfl, rfl, fun i hi => ?_, fun n hn => ?_, fun n hn => .inl ⟨?_, ?_⟩⟩, ?_, ?_, hs.version⟩
    · rw [shown_eq hpoller]
      exact Writer.later_store 3 ⟨s.complete, 1⟩ i hi
    · show (s.note _ n).stamp = _
      rw [note_of_le (hn.trans (hshown hpoller 1 (Nat.le_refl 1)).le)]
    · rw [begun, hpoller]
      exact hn
    · show (s.note _ n).asked = _
      exact note_keeps (f := fun p => { p with stamp := ms }) Publication.asked (fun _ => rfl) n
    · show _ = (s.note _ s.next).position
      rw [hs.position, shown_eq hpoller, note_next]
      rfl
    · show ms = (s.note _ s.next).stamp
      rw [note_next]
  | count =>
    cases hpoller : s.poller <;> simp only [step, hpoller, reduceCtorEq, Option.some.injEq] at h
    subst h
    refine ⟨⟨rfl, rfl, rfl, rfl, fun i hi => ?_, fun _ _ => rfl, fun n hn => .inl ⟨?_, rfl⟩⟩, ?_, ?_, ?_⟩
    · rw [shown_eq hpoller]
      exact Writer.later_store 3 ⟨s.complete, 2⟩ i hi
    · rw [begun, hpoller]
      exact hn
    · rw [hs.position, shown_eq hpoller]
      rfl
    · rw [hs.stamp, shown_eq hpoller]
      rfl
    · show wrappingAdd s.position.updateVersion 1 = (s.complete + 1) % size
      rw [hs.version, wrappingAdd, Nat.mod_add_mod]

/-! ## What the main loop does -/

/-- The age check passed on the time of publication `seen.1`, at the clock `seen.2`. -/
structure Passed (thresholdMs : Nat) (s : PositionCells) (seen : Nat × Nat) : Prop where
  shown : seen.1 ≤ s.writer.shown 1
  age : (⟨0, (s.publications seen.1).stamp, 0⟩ : SharedPosition).ageMs seen.2 ≤ thresholdMs

/-- Every publication from number `n` on that is asked for was asked for after all that shut the gate. -/
def AskedSince (s : PositionCells) (n : Nat) : Prop :=
  ∀ k, n ≤ k → k ≤ s.begun → (s.publications k).asked = s.shuts

/-- What a stage of the check has found out. -/
def Found (thresholdMs : Nat) (s : PositionCells) : CheckStage → Prop
  | .outside => True
  | .aged fresh record nowMs => fresh = true → s.Passed thresholdMs (record, nowMs)
  | .opening record nowMs =>
    s.Passed thresholdMs (record, nowMs) ∧ s.manager.resumeAfterPositionVersion = none

structure Inv (thresholdMs : Nat) (s : PositionCells) : Prop where
  shows : s.Shows
  waits : s.manager.WaitsPaused
  /-- The publications waited for will have been asked for since. -/
  awaited : ∀ r, s.manager.resumeAfterPositionVersion = some r → s.AskedSince r
  /-- Where none is waited for, what a quote can load has been. -/
  current : s.manager.resumeAfterPositionVersion = none → s.AskedSince (s.writer.shown 0)
  passed : s.manager.hasPauseReason .riskData = false → s.Passed thresholdMs s.checked
  found : s.Found thresholdMs s.check

theorem inv_new (config : OrderManagerConfig) (startMs : Int) : Inv thresholdMs (new config startMs) where
  shows := ⟨rfl, rfl, rfl⟩
  waits := fun h => by cases h
  awaited := fun _ h => by cases h
  current := fun _ _ _ _ => rfl
  passed := fun h => by
    rw [show (new config startMs).manager.hasPauseReason .riskData = true from
      ExecutionState.hasPauseReason_set_self _ _] at h
    cases h
  found := trivial

theorem PollerMoves.passed (hmoves : PollerMoves s s') {seen : Nat × Nat} (h : s.Passed thresholdMs seen) :
    s'.Passed thresholdMs seen := by
  refine ⟨h.shown.trans (hmoves.later 1 (by decide)), ?_⟩
  rw [hmoves.stamps seen.1 h.shown]
  exact h.age

theorem PollerMoves.askedSince (hmoves : PollerMoves s s') {n n' : Nat} (hle : n ≤ n') (h : s.AskedSince n) :
    s'.AskedSince n' := by
  intro k hn hk
  rw [hmoves.shuts]
  rcases hmoves.asked k hk with ⟨hbegun, hkept⟩ | hnow
  · rw [hkept]
    exact h k (hle.trans hn) hbegun
  · exact hnow

theorem PollerMoves.inv (hmoves : PollerMoves s s') (hshows : s'.Shows) (h : Inv thresholdMs s) :
    Inv thresholdMs s' where
  shows := hshows
  waits := by
    rw [hmoves.manager]
    exact h.waits
  awaited := fun r hr => hmoves.askedSince (Nat.le_refl r) (h.awaited r (by rwa [← hmoves.manager]))
  current := fun hnone =>
    hmoves.askedSince (hmoves.later 0 (by decide)) (h.current (by rwa [← hmoves.manager]))
  passed := fun hopen => by
    rw [hmoves.checked]
    exact hmoves.passed (h.passed (by rwa [← hmoves.manager]))
  found := by
    have hfound := h.found
    rw [hmoves.check]
    cases hcheck : s.check with
    | outside => trivial
    | aged fresh record nowMs =>
      rw [hcheck] at hfound
      exact fun hfresh => hmoves.passed (hfound hfresh)
    | opening record nowMs =>
      rw [hcheck] at hfound
      exact ⟨hmoves.passed hfound.1, by rw [hmoves.manager]; exact hfound.2⟩

/-- What an operation does to the gate: outside the check it is left alone or shut, and if it is shut, two
    more publications have to come. -/
theorem call_gate {m : OrderManager} {shared : SharedPosition} {op : Operation} (hreads : op.Reads shared)
    (houtside : op.outsideCheck = true) :
    (op.shutsGate m = false ∧ (m.apply op).1.resumeAfterPositionVersion = m.resumeAfterPositionVersion) ∨
      op.shutsGate m = true ∧ (m.apply op).1.resumeAfterPositionVersion =
        (m.requirePositionRefreshAfterFill shared).resumeAfterPositionVersion := by
  by_cases htouches : op.touchesWait = true
  · cases op with
    | filled position orderId clOrdId fullyFilled =>
      cases hreads
      simp only [OrderManager.apply, OrderManager.onOrderFill, Operation.shutsGate]
      cases m.findSlot (OrderManager.fillMatches orderId clOrdId) with
      | none => exact .inl ⟨rfl, rfl⟩
      | some i => cases fullyFilled <;> exact .inr ⟨rfl, rfl⟩
    | requirePositionRefresh position =>
      cases hreads
      exact .inr ⟨rfl, rfl⟩
    | positionRefreshComplete => cases houtside
    | _ => cases htouches
  · refine .inl ⟨?_, ?_⟩
    · cases op <;> first | rfl | exact absurd rfl htouches
    · by_cases hevent : op.IsEvent
      · exact (OrderManager.apply_eventFrame hevent).resume (Bool.eq_false_iff.mpr htouches)
      · cases op with
        | quote position limit quote now => exact m.onQuoteInto_resume position limit quote now
        | _ => exact absurd trivial hevent

theorem outsideCheck_not_clears {op : Operation} (h : op.outsideCheck = true) : ¬ op.Clears .riskData := by
  cases op with
  | clearPauseReason r =>
    rintro rfl
    cases h
  | finishReconciliation =>
    rintro (h | h | h) <;> cases h
  | resetCircuitBreaker => exact fun h => by cases h
  | _ => exact id

/-- The version the gate waits for after it is shut is that of a publication not begun yet. -/
theorem begun_lt_required (hs : s.Shows) (hcount : s.complete + 2 ≤ maxValue) {r : Nat}
    (hr : (s.manager.requirePositionRefreshAfterFill s.position).resumeAfterPositionVersion = some r) :
    s.begun < r := by
  obtain ⟨required, hrequired, hle, _⟩ := s.manager.requirePositionRefresh_resume s.position
  rw [hrequired] at hr
  cases hr
  have hversion : s.position.updateVersion = s.complete := by
    rw [hs.version]
    exact Nat.mod_eq_of_lt (by unfold maxValue at hcount; unfold size; omega)
  rw [OrderManager.requiredVersion, hversion, saturatingAdd_of_le hcount] at hle
  have hbegun : s.begun ≤ s.complete + 1 := by
    unfold begun next
    split <;> omega
  omega

theorem Inv.call {op : Operation} (h : Inv thresholdMs s) (hcount : s.complete + 2 ≤ maxValue)
    (hstep : step thresholdMs s (.call op) = some s') : Inv thresholdMs s' := by
  simp only [step] at hstep
  split at hstep
  · rename_i hok
    obtain ⟨houtside, hreads, hop⟩ := hok
    cases hstep
    have hgate := call_gate (m := s.manager) hreads hop
    refine ⟨⟨h.shows.position, h.shows.stamp, h.shows.version⟩,
      OrderManager.apply_waitsPaused (outsideCheck_not_clears hop) h.waits, fun r hr => ?_, fun hnone => ?_,
      fun hopen => ?_, ?_⟩
    · rcases hgate with ⟨hshuts, hkept⟩ | ⟨_, hraised⟩
      · rw [hshuts]
        exact h.awaited r (hkept.symm.trans hr)
      · -- Nothing from `r` on has been asked for yet.
        intro k hk hbegun
        have hlt := begun_lt_required h.shows hcount (hraised.symm.trans hr)
        exact absurd hbegun (not_le.mpr (lt_of_lt_of_le hlt hk))
    · rcases hgate with ⟨hshuts, hkept⟩ | ⟨_, hraised⟩
      · rw [hshuts]
        exact h.current (hkept.symm.trans hnone)
      · obtain ⟨required, hrequired, _⟩ := s.manager.requirePositionRefresh_resume s.position
        rw [hraised, hrequired] at hnone
        cases hnone
    · have hwas : s.manager.hasPauseReason .riskData = false := by
        refine Bool.eq_false_iff.mpr fun hpaused => ?_
        rw [OrderManager.apply_keeps_reason (outsideCheck_not_clears hop) hpaused] at hopen
        cases hopen
      exact ⟨(h.passed hwas).shown, (h.passed hwas).age⟩
    · show Found thresholdMs _ s.check
      rw [houtside]
      trivial
  · cases hstep

theorem Inv.checkAge {equityFresh : Bool} {nowMs : Nat} (h : Inv thresholdMs s)
    (hstep : step thresholdMs s (.checkAge equityFresh nowMs) = some s') : Inv thresholdMs s' := by
  cases hcheck : s.check <;> simp only [step, hcheck, reduceCtorEq, Option.some.injEq] at hstep
  subst hstep
  refine ⟨⟨h.shows.position, h.shows.stamp, h.shows.version⟩, h.waits, h.awaited, h.current,
    fun hopen => ⟨(h.passed hopen).shown, (h.passed hopen).age⟩, fun hfresh => ⟨Nat.le_refl _, ?_⟩⟩
  have hage : ¬ s.position.isStale nowMs thresholdMs = true := by
    intro hstale
    rw [hstale, Bool.not_true, Bool.and_false] at hfresh
    cases hfresh
  have hle : s.position.ageMs nowMs ≤ thresholdMs := by
    rw [SharedPosition.isStale, decide_eq_true_eq] at hage
    exact not_lt.mp hage
  show (⟨0, (s.publications (s.writer.shown 1)).stamp, 0⟩ : SharedPosition).ageMs nowMs ≤ thresholdMs
  rw [← h.shows.stamp]
  exact hle

/-- The answer of the gate: it stays as it is, or what was waited for is there. -/
theorem refresh_cases (m : OrderManager) (shared : SharedPosition) :
    (m.positionRefreshAfterFillComplete shared = (false, m)) ∨
      (m.positionRefreshAfterFillComplete shared).1 = true ∧
        (m.positionRefreshAfterFillComplete shared).2.resumeAfterPositionVersion = none ∧
        (m.positionRefreshAfterFillComplete shared).2.execution = m.execution ∧
        ∀ r, m.resumeAfterPositionVersion = some r → r ≤ shared.updateVersion := by
  unfold OrderManager.positionRefreshAfterFillComplete
  cases hresume : m.resumeAfterPositionVersion with
  | none => exact .inr ⟨rfl, hresume, rfl, fun _ h => by cases h⟩
  | some required =>
    dsimp only
    split
    · exact .inl rfl
    · rename_i hreached
      exact .inr ⟨rfl, rfl, rfl, fun r hr => by cases hr; exact not_lt.mp hreached⟩

/-- Where the gate has been asked and does not wait, what a quote can load was asked for since. -/
theorem Inv.askedSince (h : Inv thresholdMs s)
    (hreached : ∀ r, s.manager.resumeAfterPositionVersion = some r → r ≤ s.position.updateVersion) :
    s.AskedSince (s.writer.shown 0) := by
  cases hresume : s.manager.resumeAfterPositionVersion with
  | none => exact h.current hresume
  | some r =>
    have hle : r ≤ s.writer.shown 0 := by
      refine (hreached r hresume).trans ?_
      rw [h.shows.version]
      exact (Nat.mod_le _ _).trans (s.writer.complete_le_shown 0)
    exact fun k hk hbegun => h.awaited r hresume k (hle.trans hk) hbegun

theorem Inv.checkVersion (h : Inv thresholdMs s) (hstep : step thresholdMs s .checkVersion = some s') :
    Inv thresholdMs s' := by
  cases hcheck : s.check with
  | outside | opening => simp [step, hcheck] at hstep
  | aged fresh record nowMs =>
    have hfound : fresh = true → s.Passed thresholdMs (record, nowMs) := by
      have hfound := h.found
      rwa [hcheck] at hfound
    simp only [step, hcheck] at hstep
    have hcases := refresh_cases s.manager s.position
    generalize s.manager.positionRefreshAfterFillComplete s.position = answer at hstep hcases
    obtain ⟨current, m⟩ := answer
    have hawaited : ∀ r, m.resumeAfterPositionVersion = some r → s.AskedSince r := by
      rcases hcases with heq | ⟨_, hnone, _⟩
      · cases heq
        exact h.awaited
      · intro r hr
        rw [hnone] at hr
        cases hr
    have hcurrent : m.resumeAfterPositionVersion = none → s.AskedSince (s.writer.shown 0) := by
      rcases hcases with heq | ⟨_, _, _, hreached⟩
      · cases heq
        exact h.current
      · exact fun _ => h.askedSince hreached
    split at hstep
    · rename_i hopens
      obtain ⟨hfresh, htrue⟩ := Bool.and_eq_true_iff.mp hopens
      cases htrue
      rcases hcases with heq | ⟨_, hnone, hexecution, _⟩
      · cases heq
      · cases hstep
        refine ⟨⟨h.shows.position, h.shows.stamp, h.shows.version⟩, fun hwaits => ?_, hawaited, hcurrent,
          fun hopen => ?_, ⟨(hfound hfresh).shown, (hfound hfresh).age⟩, hnone⟩
        · rw [hnone] at hwaits
          cases hwaits
        · have hwas : s.manager.hasPauseReason .riskData = false := by
            rw [OrderManager.hasPauseReason, ← hexecution]
            exact hopen
          exact ⟨(h.passed hwas).shown, (h.passed hwas).age⟩
    · cases hstep
      have hset : ((if (!fresh && !m.hasPauseReason .riskData) = true then
          (m.setPauseReason .riskData).beginReconciliation else m.setPauseReason .riskData)).hasPauseReason
            .riskData = true := by
        split
        · exact ExecutionState.hasPauseReason_set_of_has
            (ExecutionState.hasPauseReason_set_self m.execution .riskData) .reconciliation
        · exact ExecutionState.hasPauseReason_set_self _ _
      have hresume : ((if (!fresh && !m.hasPauseReason .riskData) = true then
          (m.setPauseReason .riskData).beginReconciliation else m.setPauseReason
            .riskData)).resumeAfterPositionVersion = m.resumeAfterPositionVersion := by
        split <;> rfl
      refine ⟨⟨h.shows.position, h.shows.stamp, h.shows.version⟩, fun _ => hset,
        fun r hr => hawaited r (hresume.symm.trans hr), fun hnone => hcurrent (hresume.symm.trans hnone),
        fun hopen => ?_, trivial⟩
      rw [hset] at hopen
      cases hopen

theorem Inv.checkOpen (h : Inv thresholdMs s) (hstep : step thresholdMs s .checkOpen = some s') :
    Inv thresholdMs s' := by
  cases hcheck : s.check with
  | outside | aged => simp [step, hcheck] at hstep
  | opening record nowMs =>
    have hfound : s.Passed thresholdMs (record, nowMs) ∧ s.manager.resumeAfterPositionVersion = none := by
      have hfound := h.found
      rwa [hcheck] at hfound
    simp only [step, hcheck, Option.some.injEq] at hstep
    subst hstep
    have hnone : ((s.manager.initializePositionBaseline s.position).clearPauseReason
        .riskData).resumeAfterPositionVersion = none := by
      show (s.manager.initializePositionBaseline s.position).resumeAfterPositionVersion = none
      unfold OrderManager.initializePositionBaseline
      split <;> exact hfound.2
    refine ⟨⟨h.shows.position, h.shows.stamp, h.shows.version⟩, fun hwaits => ?_, fun r hr => ?_,
      fun _ => h.current hfound.2, fun _ => ⟨hfound.1.shown, hfound.1.age⟩, trivial⟩
    · rw [hnone] at hwaits
      cases hwaits
    · rw [hnone] at hr
      cases hr

/-! ## Whole runs -/

theorem complete_le (h : step thresholdMs s e = some s') : s.complete ≤ s'.complete := by
  cases e with
  | call op =>
    simp only [step] at h
    split at h
    · cases h
      exact Nat.le_refl _
    · cases h
  | checkVersion =>
    simp only [step] at h
    split at h
    · split at h <;> cases h <;> exact Nat.le_refl _
    · cases h
  | count =>
    simp only [step] at h
    split at h
    · cases h
      exact Nat.le_succ _
    · cases h
  | _ =>
    simp only [step] at h
    split at h
    · cases h
      exact Nat.le_refl _
    · cases h

theorem Inv.step (h : Inv thresholdMs s) (hcount : s.complete + 2 ≤ maxValue)
    (hstep : PositionCells.step thresholdMs s e = some s') : Inv thresholdMs s' := by
  cases e with
  | call op => exact h.call hcount hstep
  | checkAge equityFresh nowMs => exact h.checkAge hstep
  | checkVersion => exact h.checkVersion hstep
  | checkOpen => exact h.checkOpen hstep
  | ask | fail | answer | store | readClock | stamp | count =>
    obtain ⟨hmoves, hshows⟩ := poller_moves (by exact trivial) hstep h.shows
    exact hmoves.inv hshows h

/-- **A quote's position is no older than the gate and the age check say.**  In every interleaving of
    the stores of `set` with the loads of the main loop, and with fewer than `2 ^ 64 - 2` publications: the
    position a quote is decided with is that of a publication asked for after every fill and
    reconciliation that shut the gate, and at least as new as the one that passed the last age check. -/
theorem quoted_position (config : OrderManagerConfig) (startMs : Int) (thresholdMs : Nat)
    (es : List CellEvent) (s : PositionCells) (h : exec (step thresholdMs) (new config startMs) es = some s)
    (hcount : s.complete + 2 ≤ maxValue) (limit : ℚ) (quote : Quote) (now : Int)
    (hdecides : (s.manager.onQuoteInto s.position.position limit quote now).2 ≠ []) :
    ∃ n, s.position.position = (s.publications n).position ∧ (s.publications n).asked = s.shuts ∧
      s.checked.1 ≤ n ∧
        (⟨0, (s.publications s.checked.1).stamp, 0⟩ : SharedPosition).ageMs s.checked.2 ≤ thresholdMs := by
  have hinv : Inv thresholdMs s :=
    exec_invariant (fun s => s.complete + 2 ≤ maxValue → Inv thresholdMs s)
      (fun _ _ _ hinv hstep hcount =>
        have hbefore := (Nat.add_le_add_right (complete_le hstep) 2).trans hcount
        (hinv hbefore).step hbefore hstep)
      (fun _ => inv_new config startMs) h hcount
  have hopen : s.manager.hasPauseReason .riskData = false := by
    refine Bool.eq_false_iff.mpr fun hpaused => hdecides ?_
    rw [OrderManager.onQuoteInto_paused (OrderManager.not_unpaused_of_reason hpaused)]
  have hnone : s.manager.resumeAfterPositionVersion = none := by
    cases hresume : s.manager.resumeAfterPositionVersion with
    | none => rfl
    | some r =>
      rw [hinv.waits (by rw [hresume]; rfl)] at hopen
      cases hopen
  have hpassed := hinv.passed hopen
  exact ⟨s.writer.shown 0, hinv.shows.position, hinv.current hnone _ (Nat.le_refl _) (s.shown_le_begun 0),
    hpassed.shown.trans (Writer.shown_anti (by decide)), hpassed.age⟩

/-- The position comes, the gate opens, an order is filled while the next publication is half stored, and
    only the one after that opens the gate again. -/
def tornFill : List CellEvent :=
  [.call (.clearPauseReason .orderWebSocket), .call (.clearPauseReason .marketData),
   .ask, .answer 0, .store, .readClock 1000, .stamp, .count, .checkAge true 1500, .checkVersion, .checkOpen,
   .ask, .answer 1, .store, .call (.requirePositionRefresh ⟨1, 1000, 1⟩), .readClock 3000, .stamp, .count,
   .checkAge true 3500, .checkVersion, .ask, .answer 2, .store, .readClock 5000, .stamp,
   .checkAge true 5500, .checkVersion, .count, .checkAge true 6500, .checkVersion, .ask, .answer 3, .checkOpen]

theorem quoted_position_tornFill :
    ∃ s, exec (step 10000) (new .default 0) tornFill = some s ∧ s.shuts = 1 ∧
      ∃ n, s.position.position = (s.publications n).position ∧ (s.publications n).asked = s.shuts ∧
        s.checked.1 ≤ n ∧
          (⟨0, (s.publications s.checked.1).stamp, 0⟩ : SharedPosition).ageMs s.checked.2 ≤ 10000 := by
  have hruns : (exec (step 10000) (new .default 0) tornFill).any (fun s =>
      decide (s.shuts = 1 ∧ s.complete + 2 ≤ maxValue ∧
        (s.manager.onQuoteInto s.position.position 1000 (.oneLevel (some 99) (some 101) 1 100) 0).2 ≠ [])) =
        true := by
    decide +kernel
  obtain ⟨s, hs, hat⟩ := (Option.any_eq_true _ _).mp hruns
  obtain ⟨hshuts, hcount, hdecides⟩ := of_decide_eq_true hat
  exact ⟨s, hs, hshuts, quoted_position .default 0 10000 tornFill s hs hcount _ _ _ hdecides⟩

end PositionCells

end MarketMaker
