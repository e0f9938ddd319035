import MarketMaker.App.OrderChecker
import MarketMaker.App.Calls
import MarketMaker.Base.Fifo

/-!
# The zero-open-orders alarm

The checker and the main loop over the bounded channel between them.  The checker signals on an
edge; the main loop drops a "0 orders" signal that arrives while the manager holds no order, and
the checker never learns of it.

* `armed_iff` — `debounce_count` polls without orders bring a "0 orders" signal exactly if the checker
  was `Armed` when they began: its stale streak had not reached the threshold, or its last poll gave
  another reason, or a signal was still waiting.
* `alarmed_iff` — with an order tracked throughout these polls, it is handled for that order exactly
  if the orders last until it is taken.
* `alarm_iff_armed` — both, from every reachable state.
* `alarm_lost` — after two such polls during warm-up, the first orders vanish unnoticed.
-/

set_option autoImplicit false

namespace MarketMaker

/-- `!manager.get_all_live_order_ids().is_empty()` for the manager of a symbol. -/
def App.holdsOrders (app : App) (symbol : String) : Bool :=
  app.hasManager symbol && !(app.managers symbol).getAllLiveOrderIds.isEmpty

/-- A tracked order, in whatever slot, is seen. -/
theorem App.holdsOrders_of_tracked {app : App} {symbol : String} (hmanager : app.hasManager symbol = true)
    {i : Slot} {o : LiveOrder} (ho : (app.managers symbol).orders i = some o) :
    app.holdsOrders symbol = true := by
  have hmem : o.clOrdId ∈ (app.managers symbol).getAllLiveOrderIds :=
    List.mem_filterMap.mpr ⟨i, mem_slotsByLevel i, by rw [ho]; rfl⟩
  rw [holdsOrders, hmanager, Bool.true_and, Bool.not_eq_true', List.isEmpty_eq_false_iff]
  exact List.ne_nil_of_mem hmem

/-- A "0 orders" signal for the symbol, as the main loop tells it from the others. -/
def App.ClearOrdersSignal.isZeroOrders (signal : App.ClearOrdersSignal) (symbol : String) : Bool :=
  signal.symbol == symbol && signal.reason.startsWith "0 orders"

theorem clearSignal_isZeroOrders (symbol : String) (count : Nat) :
    (clearSignal symbol "0 orders" count false).isZeroOrders symbol = true := by
  simp [App.ClearOrdersSignal.isZeroOrders, clearSignal]

/-- The checker of one symbol, the channel of the clear signals and the application. -/
structure OrderWatch where
  checker : OpenOrdersChecker
  channel : List App.ClearOrdersSignal
  app : App

namespace OrderWatch

open Word64

/-- What happens between the two: a successful poll, the main loop takes one signal, the checker of
    another symbol sends one, or the application has moved on in any other way. -/
inductive Event where
  | poll (openOrders : List OpenOrder) (nowNs : Nat) (observedAtNs : Int)
  | receive (now : Clocks)
  | foreign (signal : App.ClearOrdersSignal)
  | evolve (app : App)

/-- The checker has just started. -/
def new (app : App) : OrderWatch := ⟨{}, [], app⟩

/-- `mpsc::channel::<ClearOrdersSignal>(10)`: a send waits for room. -/
def send (channel : List App.ClearOrdersSignal) (signal : App.ClearOrdersSignal) :
    Option (List App.ClearOrdersSignal) :=
  if channel.length < 10 then some (channel ++ [signal]) else none

def step (config : OpenOrdersCheckerConfig) (s : OrderWatch) : Event → Option OrderWatch
  | .poll openOrders nowNs observedAtNs =>
    let (checker, _, signal) := s.checker.onPoll config openOrders nowNs observedAtNs
    match signal with
    | none => some { s with checker := checker }
    | some signal => (send s.channel signal).map fun channel => { s with checker := checker, channel := channel }
  | .receive now =>
    match s.channel with
    | [] => some s
    | signal :: rest => some { s with channel := rest, app := s.app.handle now (.clearOrdersSignal signal) }
  | .foreign signal =>
    if signal.symbol = config.symbol then none
    else (send s.channel signal).map fun channel => { s with channel := channel }
  | .evolve app => some { s with app := app }

def Event.isReceive : Event → Bool
  | .receive _ => true
  | _ => false

def Event.isPoll : Event → Bool
  | .poll .. => true
  | _ => false

/-- Every poll among the events reports no open order. -/
def ZeroPolls (es : List Event) : Prop :=
  ∀ openOrders nowNs observedAtNs, .poll openOrders nowNs observedAtNs ∈ es → openOrders = []

/-- The main loop handles a "0 orders" signal while the manager holds an order. -/
def Alarm (symbol : String) (s : OrderWatch) (e : Event) : Prop :=
  e.isReceive = true ∧ s.app.holdsOrders symbol = true ∧
    ∃ signal, s.channel.head? = some signal ∧ signal.isZeroOrders symbol = true

/-- An alarm is handled in the course of the events. -/
def Alarmed (config : OpenOrdersCheckerConfig) (s : OrderWatch) (es : List Event) : Prop :=
  ∃ before e after t, es = before ++ e :: after ∧ Runs.exec (step config) s before = some t ∧
    Alarm config.symbol t e

/-- Whether polls without orders will raise the alarm, seen before the first of them. -/
def Armed (config : OpenOrdersCheckerConfig) (s : OrderWatch) : Prop :=
  (∃ signal ∈ s.channel, signal.isZeroOrders config.symbol = true) ∨ OpenOrdersChecker.Primed config s.checker

/-- The manager tracks an order throughout the events. -/
def HeldThroughout (config : OpenOrdersCheckerConfig) (s : OrderWatch) (es : List Event) : Prop :=
  ∀ before after t, es = before ++ after → Runs.exec (step config) s before = some t →
    t.app.hasManager config.symbol = true ∧ ∃ i o, (t.app.managers config.symbol).orders i = some o

/-- A "0 orders" signal is taken in the course of the events. -/
def Taken (config : OpenOrdersCheckerConfig) (s : OrderWatch) (es : List Event) : Prop :=
  ∃ before e after t, es = before ++ e :: after ∧ Runs.exec (step config) s before = some t ∧
    e.isReceive = true ∧ ∃ signal, t.channel.head? = some signal ∧ signal.isZeroOrders config.symbol = true

/-- The manager holds an order at the reception that comes after `k` others. -/
def HeldAt (config : OpenOrdersCheckerConfig) (s : OrderWatch) (es : List Event) (k : Nat) : Prop :=
  ∃ before e after t, es = before ++ e :: after ∧ Runs.exec (step config) s before = some t ∧
    e.isReceive = true ∧ before.countP Event.isReceive = k ∧ t.app.holdsOrders config.symbol = true

/-- The orders last until a "0 orders" signal is taken: one is taken in the course of the polls, or
    an order is held when the drain `rest` reaches one that waits in `t` after them. -/
def OrdersLast (config : OpenOrdersCheckerConfig) (s : OrderWatch) (window : List Event) (t : OrderWatch)
    (rest : List Event) : Prop :=
  Taken config s window ∨
    ∃ k signal, t.channel[k]? = some signal ∧ signal.isZeroOrders config.symbol = true ∧ HeldAt config t rest k

/-! ## One event -/

variable {config : OpenOrdersCheckerConfig} {s s' t u : OrderWatch} {e : Event}

theorem send_eq {channel channel' : List App.ClearOrdersSignal} {signal : App.ClearOrdersSignal}
    (h : send channel signal = some channel') : channel' = channel ++ [signal] := by
  unfold send at h
  split at h
  · exact (Option.some.inj h).symm
  · cases h

/-- A poll: the checker takes its round, and what it signals is appended. -/
theorem step_poll {openOrders : List OpenOrder} {nowNs : Nat} {observedAtNs : Int}
    (hstep : step config s (.poll openOrders nowNs observedAtNs) = some s') :
    s'.checker = (s.checker.onPoll config openOrders nowNs observedAtNs).1 ∧
      s'.channel = s.channel ++ (s.checker.onPoll config openOrders nowNs observedAtNs).2.2.toList := by
  simp only [step] at hstep
  split at hstep
  · rename_i hnone
    cases hstep
    exact ⟨rfl, by simp [hnone]⟩
  · rename_i signal hsome
    obtain ⟨channel, hsend, rfl⟩ := Option.map_eq_some_iff.mp hstep
    exact ⟨rfl, by rw [send_eq hsend, hsome]; rfl⟩

/-- Everything else leaves the checker alone. -/
theorem step_checker (hstep : step config s e = some s') (he : e.isPoll = false) :
    s'.checker = s.checker := by
  cases e with
  | poll => cases he
  | receive now =>
    simp only [step] at hstep
    split at hstep <;> (cases hstep; rfl)
  | foreign signal =>
    simp only [step] at hstep
    split at hstep
    · cases hstep
    · obtain ⟨channel, _, rfl⟩ := Option.map_eq_some_iff.mp hstep
      rfl
  | evolve app => cases hstep; rfl

/-- The channel is first in, first out, and the main loop takes from it. -/
theorem channel_discipline (config : OpenOrdersCheckerConfig) :
    Fifo.Discipline (step config) OrderWatch.channel Event.isReceive := by
  constructor
  · intro s e s' hstep he
    cases e with
    | receive now =>
      simp only [step] at hstep
      split at hstep
      · rename_i hnil
        cases hstep
        rw [hnil]; rfl
      · rename_i signal rest hcons
        cases hstep
        rw [hcons]; rfl
    | poll | foreign | evolve => cases he
  · intro s e s' hstep he
    cases e with
    | receive => cases he
    | poll openOrders nowNs observedAtNs => exact ⟨_, (step_poll hstep).2⟩
    | foreign signal =>
      simp only [step] at hstep
      split at hstep
      · cases hstep
      · obtain ⟨channel, hsend, rfl⟩ := Option.map_eq_some_iff.mp hstep
        exact ⟨[signal], send_eq hsend⟩
    | evolve app =>
      cases hstep
      exact ⟨[], by simp⟩

theorem step_sane (h : s.checker.Sane) (hstep : step config s e = some s') : s'.checker.Sane := by
  cases hpoll : e.isPoll with
  | true =>
    cases e with
    | poll openOrders nowNs observedAtNs =>
      rw [(step_poll hstep).1]
      exact OpenOrdersChecker.sane_onPoll config _ openOrders nowNs observedAtNs
    | receive | foreign | evolve => cases hpoll
  | false => rwa [step_checker hstep hpoll]

theorem exec_sane {app : App} {es : List Event} (hrun : Runs.exec (step config) (new app) es = some s) :
    s.checker.Sane :=
  Runs.exec_invariant (fun s => s.checker.Sane) (fun _ _ _ => step_sane)
    OpenOrdersChecker.sane_start hrun

/-! ## The signal is sent -/

theorem Taken.prepend {es es' : List Event} (hrun : Runs.exec (step config) s es = some t)
    (h : Taken config t es') : Taken config s (es ++ es') := by
  obtain ⟨before, e, after, v, rfl, hbefore, htaken⟩ := h
  exact ⟨es ++ before, e, after, v, by simp, by rw [Runs.exec_append, hrun]; exact hbefore, htaken⟩

/-- A "0 orders" signal that waits is taken or goes on waiting. -/
theorem taken_or_waits {es : List Event} {signal : App.ClearOrdersSignal}
    (hrun : Runs.exec (step config) s es = some u) (hsignal : signal ∈ s.channel)
    (hzero : signal.isZeroOrders config.symbol = true) :
    Taken config s es ∨ ∃ signal ∈ u.channel, signal.isZeroOrders config.symbol = true := by
  rcases (channel_discipline config).popped_or_left hrun hsignal with
    ⟨before, e, after, t, hes, hbefore, hreceive, hhead⟩ | hleft
  · exact Or.inl ⟨before, e, after, t, hes, hbefore, hreceive, signal, hhead, hzero⟩
  · exact Or.inr ⟨signal, hleft, hzero⟩

/-- A checker with a signal due sends it in the course of its next polls without orders. -/
theorem exec_due {es : List Event} (hrun : Runs.exec (step config) s es = some u)
    (hzero : ZeroPolls es) (hdue : OpenOrdersChecker.Due config (es.countP Event.isPoll) s.checker) :
    ∃ before after t signal, es = before ++ after ∧ Runs.exec (step config) s before = some t ∧
      signal ∈ t.channel ∧ signal.isZeroOrders config.symbol = true := by
  induction es generalizing s with
  | nil =>
    rcases hdue with ⟨hlt, hle⟩ | ⟨hpos, _⟩
    · exact absurd hle (Nat.not_le.mpr hlt)
    · cases hpos
  | cons e es ih =>
    obtain ⟨t, hstep, hrest⟩ := Runs.exec_cons_some hrun
    have hzero' : ZeroPolls es := fun openOrders nowNs observedAtNs hmem =>
      hzero openOrders nowNs observedAtNs (List.mem_cons_of_mem e hmem)
    have later : OpenOrdersChecker.Due config (es.countP Event.isPoll) t.checker →
        ∃ before after v signal, e :: es = before ++ after ∧
          Runs.exec (step config) s before = some v ∧ signal ∈ v.channel ∧
          signal.isZeroOrders config.symbol = true := by
      intro hdue'
      obtain ⟨before, after, v, signal, rfl, hbefore, hmem, hsignal⟩ := ih hrest hzero' hdue'
      exact ⟨e :: before, after, v, signal, rfl, by rw [Runs.exec_cons, hstep]; exact hbefore, hmem,
        hsignal⟩
    cases e with
    | poll openOrders nowNs observedAtNs =>
      obtain rfl := hzero openOrders nowNs observedAtNs List.mem_cons_self
      obtain ⟨hchecker, hchannel⟩ := step_poll hstep
      rw [List.countP_cons_of_pos rfl] at hdue
      rcases hdue.onPoll nowNs observedAtNs with ⟨count, hsent⟩ | hdue'
      · refine ⟨[_], es, t, _, rfl, by rw [Runs.exec_singleton]; exact hstep, ?_,
          clearSignal_isZeroOrders config.symbol count⟩
        rw [hchannel, hsent]
        exact List.mem_append_right _ (List.mem_singleton_self _)
      · exact later (hchecker ▸ hdue')
    | receive | foreign | evolve =>
      refine later ?_
      rw [step_checker hstep rfl]
      rwa [List.countP_cons_of_neg (by simp [Event.isPoll])] at hdue

/-! ## The signal is not sent -/

/-- No "0 orders" signal waits in the channel. -/
def Clean (config : OpenOrdersCheckerConfig) (s : OrderWatch) : Prop :=
  ∀ signal ∈ s.channel, signal.isZeroOrders config.symbol = false

theorem Clean.tail_or_append (h : Clean config s) (hstep : step config s e = some s')
    (he : e.isPoll = false) : Clean config s' := by
  cases e with
  | poll => cases he
  | receive now =>
    have htail := (channel_discipline config).pop s (.receive now) s' hstep rfl
    intro signal hmem
    exact h signal (List.mem_of_mem_tail (htail ▸ hmem))
  | foreign foreignSignal =>
    simp only [step] at hstep
    split at hstep
    · cases hstep
    · rename_i hother
      obtain ⟨channel, hsend, rfl⟩ := Option.map_eq_some_iff.mp hstep
      intro signal hmem
      rw [show channel = _ from send_eq hsend] at hmem
      rcases List.mem_append.mp hmem with hmem | hmem
      · exact h signal hmem
      · rw [List.mem_singleton.mp hmem]
        simp [App.ClearOrdersSignal.isZeroOrders, hother]
  | evolve app => cases hstep; exact h

/-- A quiet checker sends nothing in the course of its next polls without orders. -/
theorem exec_quiet {es : List Event} {k : Nat} (hrun : Runs.exec (step config) s es = some u)
    (hzero : ZeroPolls es) (hpolls : es.countP Event.isPoll ≤ k)
    (hquiet : OpenOrdersChecker.Quiet config k s.checker) (hclean : Clean config s) :
    Clean config u := by
  induction es generalizing s k with
  | nil =>
    obtain rfl : s = u := Option.some.inj hrun
    exact hclean
  | cons e es ih =>
    obtain ⟨t, hstep, hrest⟩ := Runs.exec_cons_some hrun
    have hzero' : ZeroPolls es := fun openOrders nowNs observedAtNs hmem =>
      hzero openOrders nowNs observedAtNs (List.mem_cons_of_mem e hmem)
    cases e with
    | poll openOrders nowNs observedAtNs =>
      obtain rfl := hzero openOrders nowNs observedAtNs List.mem_cons_self
      obtain ⟨hchecker, hchannel⟩ := step_poll hstep
      rw [List.countP_cons_of_pos rfl] at hpolls
      obtain ⟨k, rfl⟩ : ∃ j, k = j + 1 := ⟨k - 1, by omega⟩
      obtain ⟨hquiet', hnone⟩ := hquiet.onPoll nowNs observedAtNs
      rw [hnone, Option.toList_none, List.append_nil] at hchannel
      refine ih hrest hzero' (Nat.le_of_succ_le_succ hpolls) (hchecker ▸ hquiet') ?_
      intro signal hmem
      exact hclean signal (hchannel ▸ hmem)
    | receive | foreign | evolve =>
      rw [List.countP_cons_of_neg (by simp [Event.isPoll])] at hpolls
      exact ih hrest hzero' hpolls (by rw [step_checker hstep rfl]; exact hquiet)
        (hclean.tail_or_append hstep rfl)

/-- A quiet checker with nothing in the channel brings no signal in its polls. -/
theorem not_taken_of_quiet {window : List Event} (hzero : ZeroPolls window)
    (hquiet : OpenOrdersChecker.Quiet config (window.countP Event.isPoll) s.checker)
    (hclean : Clean config s) : ¬ Taken config s window := by
  rintro ⟨before, e, after, t, rfl, hbefore, _, signal, hhead, hsignal⟩
  have hpolls : before.countP Event.isPoll ≤ (before ++ e :: after).countP Event.isPoll := by
    rw [List.countP_append]
    exact Nat.le_add_right _ _
  have hbeforeZero : ZeroPolls before := fun openOrders nowNs observedAtNs hmem =>
    hzero openOrders nowNs observedAtNs (List.mem_append_left _ hmem)
  have := exec_quiet hbefore hbeforeZero hpolls hquiet hclean signal (List.mem_of_head? hhead)
  rw [hsignal] at this
  cases this

/-! ## Main theorem -/

/-- An alarm starts an account reconciliation. -/
theorem Alarm.reconciles (h : Alarm config.symbol s e) (hstep : step config s e = some s')
    (hon : s.app.config.orderEnabled = true) : s'.app.reconciliationPending = true := by
  obtain ⟨hreceive, hholds, signal, hhead, hzero⟩ := h
  cases e with
  | poll | foreign | evolve => cases hreceive
  | receive now =>
    simp only [step] at hstep
    split at hstep
    · rename_i hnil
      rw [hnil] at hhead
      cases hhead
    · rename_i first rest hcons
      rw [hcons, List.head?_cons, Option.some.injEq] at hhead
      subst hhead
      cases hstep
      simp only [App.ClearOrdersSignal.isZeroOrders, Bool.and_eq_true, beq_iff_eq] at hzero
      show (s.app.onClearOrdersSignal first now).reconciliationPending = true
      have hseen : (s.app.hasManager first.symbol
          && !(s.app.managers first.symbol).getAllLiveOrderIds.isEmpty) = true := hzero.1 ▸ hholds
      unfold App.onClearOrdersSignal
      simp only [hseen, Bool.not_true, Bool.and_false, Bool.false_eq_true, if_false]
      exact App.beginAccountReconciliation_pending (by split <;> exact hon) _

/-- **When a signal comes.**  Polls without orders bring a "0 orders" signal, taken in the course of
    them or waiting at their end, exactly if the checker was armed. -/
theorem armed_iff (hsane : s.checker.Sane) {window : List Event}
    (hwindow : Runs.exec (step config) s window = some t)
    (hpolls : window.countP Event.isPoll = config.debounceCount) (hzero : ZeroPolls window) :
    Armed config s ↔
      Taken config s window ∨ ∃ signal ∈ t.channel, signal.isZeroOrders config.symbol = true := by
  constructor
  · rintro (⟨signal, hmem, hsignal⟩ | hprimed)
    · exact taken_or_waits hwindow hmem hsignal
    · have hdue := hprimed.due
      rw [← hpolls] at hdue
      obtain ⟨pre, post, v, signal, rfl, hpre, hmem, hsignal⟩ := exec_due hwindow hzero hdue
      rw [Runs.exec_append, hpre, Option.bind_some] at hwindow
      exact (taken_or_waits hwindow hmem hsignal).imp_left (·.prepend hpre)
  · intro hbrought
    by_contra hidle
    have hprimed : ¬ OpenOrdersChecker.Primed config s.checker := fun h => hidle (Or.inr h)
    have hclean : Clean config s := by
      intro signal hmem
      rw [Bool.eq_false_iff]
      exact fun hsignal => hidle (Or.inl ⟨signal, hmem, hsignal⟩)
    have hquiet : OpenOrdersChecker.Quiet config (window.countP Event.isPoll) s.checker := by
      rw [hpolls]
      exact hsane.quiet hprimed
    rcases hbrought with htaken | ⟨signal, hmem, hsignal⟩
    · exact not_taken_of_quiet hzero hquiet hclean htaken
    · have := exec_quiet hwindow hzero (Nat.le_refl _) hquiet hclean signal hmem
      rw [hsignal] at this
      cases this

/-- **When the alarm is raised.**  With an order held throughout the polls, the alarm is raised by
    the end of the drain exactly if the orders last until a "0 orders" signal is taken. -/
theorem alarmed_iff {window rest : List Event} (hwindow : Runs.exec (step config) s window = some t)
    (hheld : HeldThroughout config s window) (hdrained : rest.countP Event.isReceive = t.channel.length) :
    Alarmed config s (window ++ rest) ↔ OrdersLast config s window t rest := by
  constructor
  · rintro ⟨before, e, after, v, hsplit, hbefore, hreceive, hholds, signal, hhead, hsignal⟩
    rcases List.append_eq_append_iff.mp hsplit with ⟨mid, rfl, rfl⟩ | ⟨mid, rfl, hmid⟩
    · -- in the drain, which takes the entries of the channel one by one
      rw [Runs.exec_append, hwindow, Option.bind_some] at hbefore
      rw [List.countP_append, List.countP_cons_of_pos hreceive] at hdrained
      have hfront := (channel_discipline config).exec_head hbefore (by omega)
      exact Or.inr ⟨mid.countP Event.isReceive, signal, hfront ▸ hhead, hsignal, mid, e, after, v, rfl,
        hbefore, hreceive, rfl, hholds⟩
    · cases mid with
      | nil =>
        rw [List.nil_append] at hmid
        rw [List.append_nil] at hwindow
        obtain rfl := Option.some.inj (hwindow.symm.trans hbefore)
        exact Or.inr ⟨0, signal, by rw [← List.head?_eq_getElem?]; exact hhead, hsignal, [], e, after, t,
          hmid.symm, rfl, hreceive, rfl, hholds⟩
      | cons e' mid =>
        rw [List.cons_append, List.cons.injEq] at hmid
        obtain ⟨rfl, -⟩ := hmid
        exact Or.inl ⟨before, e, mid, v, rfl, hbefore, hreceive, signal, hhead, hsignal⟩
  · rintro (⟨before, e, after, v, rfl, hbefore, hreceive, signal, hhead, hsignal⟩ |
      ⟨k, signal, hwaits, hsignal, before, e, after, v, rfl, hbefore, hreceive, rfl, hholds⟩)
    · obtain ⟨hmanager, i, o, ho⟩ := hheld before (e :: after) v rfl hbefore
      exact ⟨before, e, after ++ rest, v, by simp, hbefore, hreceive,
        App.holdsOrders_of_tracked hmanager ho, signal, hhead, hsignal⟩
    · have hlt := (List.getElem?_eq_some_iff.mp hwaits).1
      have hfront := (channel_discipline config).exec_head hbefore hlt
      exact ⟨window ++ before, e, after, v, by simp, by rw [Runs.exec_append, hwindow]; exact hbefore,
        hreceive, hholds, signal, hfront.trans hwaits, hsignal⟩

/-- **The zero-open-orders alarm.**  From any state the checker and the main loop can reach, let
    `debounce_count` polls report no open order while the manager tracks an order, and let the main
    loop take what the channel holds after the last of them.  A "0 orders" signal is handled while
    an order is held if and only if the checker was armed when the polls began and the orders last
    until a signal is taken.  Whatever alarm is handled starts an account reconciliation. -/
theorem alarm_iff_armed (config : OpenOrdersCheckerConfig) (app : App) (before window rest : List Event)
    (s t : OrderWatch) (hbefore : Runs.exec (step config) (new app) before = some s)
    (hwindow : Runs.exec (step config) s window = some t)
    (hpolls : window.countP Event.isPoll = config.debounceCount) (hzero : ZeroPolls window)
    (hheld : HeldThroughout config s window)
    (hdrained : rest.countP Event.isReceive = t.channel.length) :
    (Alarmed config s (window ++ rest) ↔ Armed config s ∧ OrdersLast config s window t rest) ∧
    (Armed config s ↔
      Taken config s window ∨ ∃ signal ∈ t.channel, signal.isZeroOrders config.symbol = true) ∧
    ∀ pre e post v w, window ++ rest = pre ++ e :: post → Runs.exec (step config) s pre = some v →
      Alarm config.symbol v e → step config v e = some w → v.app.config.orderEnabled = true →
      w.app.reconciliationPending = true := by
  have harmed := armed_iff (exec_sane hbefore) hwindow hpolls hzero
  have halarmed := alarmed_iff hwindow hheld hdrained
  refine ⟨⟨fun h => ?_, fun h => halarmed.mpr h.2⟩, harmed,
    fun _ _ _ _ _ _ _ halarm hstep hon => halarm.reconciles hstep hon⟩
  have hlast := halarmed.mp h
  refine ⟨harmed.mpr ?_, hlast⟩
  rcases hlast with htaken | ⟨k, signal, hwaits, hsignal, _⟩
  · exact Or.inl htaken
  · exact Or.inr ⟨signal, List.mem_of_getElem? hwaits, hsignal⟩

/-! ## Orders that vanish -/

/-- What `main` passes to the checker of the live symbol. -/
def liveChecker : OpenOrdersCheckerConfig := ⟨"BTC-USD", 2, 240, 1, by decide⟩

/-- A poll without orders at a full second. -/
def zeroPoll (n : Nat) : Event := .poll [] (n * 1000000000) (n * 1000000000)

/-- The locals of the checker after some polls without orders. -/
def staleFor (n : Nat) : OpenOrdersChecker := ⟨n, true, "0 orders", fun _ => none⟩

/-- A poll without orders that brings no signal. -/
theorem step_zeroPoll_silent {n : Nat} {c : OpenOrdersChecker} {app : App}
    {channel : List App.ClearOrdersSignal} (k : Nat)
    (hcount : wrappingAdd32 c.consecutiveStaleCount 1 = n)
    (hsilent : ¬ (liveChecker.debounceCount ≤ n ∧ (c.lastWasStale = false ∨
      n = liveChecker.debounceCount ∨ "0 orders" ≠ c.lastStaleReason))) :
    step liveChecker ⟨c, channel, app⟩ (zeroPoll k) = some ⟨staleFor n, channel, app⟩ := by
  subst hcount
  simp only [step, zeroPoll, OpenOrdersChecker.onPoll_nil]
  rw [if_neg hsilent]
  rfl

/-- The second poll without orders is signalled. -/
theorem exec_firstPolls (app : App) : Runs.exec (step liveChecker) (new app) [zeroPoll 3, zeroPoll 6] =
    some ⟨staleFor 2, [clearSignal "BTC-USD" "0 orders" 2 false], app⟩ := by
  have hfirst : step liveChecker (new app) (zeroPoll 3) = some ⟨staleFor 1, [], app⟩ :=
    step_zeroPoll_silent 3 rfl (by decide)
  have hsecond : step liveChecker ⟨staleFor 1, [], app⟩ (zeroPoll 6) =
      some ⟨staleFor 2, [clearSignal "BTC-USD" "0 orders" 2 false], app⟩ := by
    simp only [step, zeroPoll, OpenOrdersChecker.onPoll_nil]
    rw [if_pos (by decide)]
    rfl
  rw [Runs.exec_cons, hfirst, Option.bind_some, Runs.exec_singleton, hsecond]

/-- The third and the fourth are not. -/
theorem exec_laterPolls (app : App) :
    Runs.exec (step liveChecker) ⟨staleFor 2, [], app⟩ [zeroPoll 9, zeroPoll 12] =
      some ⟨staleFor 4, [], app⟩ := by
  have hthird : step liveChecker ⟨staleFor 2, [], app⟩ (zeroPoll 9) = some ⟨staleFor 3, [], app⟩ :=
    step_zeroPoll_silent 9 rfl (by decide)
  have hfourth : step liveChecker ⟨staleFor 3, [], app⟩ (zeroPoll 12) = some ⟨staleFor 4, [], app⟩ :=
    step_zeroPoll_silent 12 rfl (by decide)
  rw [Runs.exec_cons, hthird, Option.bind_some, Runs.exec_singleton, hfourth]

theorem zeroPolls_two (m n : Nat) : ZeroPolls [zeroPoll m, zeroPoll n] := by
  intro openOrders nowNs observedAtNs hmem
  simp only [zeroPoll, List.mem_cons, Event.poll.injEq, List.not_mem_nil, or_false] at hmem
  rcases hmem with ⟨h, _⟩ | ⟨h, _⟩ <;> exact h

/-- Polls leave the application alone. -/
theorem exec_polls_app {es : List Event} (hes : ∀ e ∈ es, e.isPoll = true)
    (hrun : Runs.exec (step config) s es = some t) : t.app = s.app := by
  induction es generalizing s with
  | nil => rw [Option.some.inj hrun]
  | cons e es ih =>
    obtain ⟨v, hstep, hrest⟩ := Runs.exec_cons_some hrun
    have hsame : v.app = s.app := by
      cases e with
      | poll openOrders nowNs observedAtNs =>
        simp only [step] at hstep
        split at hstep
        · cases hstep; rfl
        · obtain ⟨channel, _, rfl⟩ := Option.map_eq_some_iff.mp hstep
          rfl
      | receive | foreign | evolve => cases hes _ List.mem_cons_self
    rw [ih (fun e' he' => hes e' (List.mem_cons_of_mem e he')) hrest, hsame]

/-- The first bid is in its slot. -/
theorem quoting_tracks : App.quoting.hasManager "BTC-USD" = true ∧
    ∃ i o, (App.quoting.managers "BTC-USD").orders i = some o := by
  have hbid : ((App.quoting.managers "BTC-USD").orders (.buy, 0)).isSome = true := by decide +kernel
  obtain ⟨o, ho⟩ := Option.isSome_iff_exists.mp hbid
  exact ⟨by decide +kernel, (.buy, 0), o, ho⟩

/-- Two polls without orders, with the first orders in their slots all the while. -/
theorem held_quoting (c : OpenOrdersChecker) (channel : List App.ClearOrdersSignal) (m n : Nat) :
    HeldThroughout liveChecker ⟨c, channel, App.quoting⟩ [zeroPoll m, zeroPoll n] := by
  intro before after t hsplit hbefore
  have hpolls : ∀ x ∈ before, x.isPoll = true := by
    intro x hx
    have hmem : x ∈ [zeroPoll m, zeroPoll n] := by
      rw [hsplit]
      exact List.mem_append_left after hx
    simp only [List.mem_cons, List.not_mem_nil, or_false] at hmem
    rcases hmem with rfl | rfl <;> rfl
  rw [exec_polls_app hpolls hbefore]
  exact quoting_tracks

/-- From the start of the checker the orders are missed for six seconds, and the alarm is raised. -/
theorem alarm_iff_armed_first_orders :
    Alarmed liveChecker (new App.quoting) [zeroPoll 3, zeroPoll 6, .receive (App.atSecond 7)] := by
  have h := alarm_iff_armed liveChecker App.quoting [] [zeroPoll 3, zeroPoll 6] [.receive (App.atSecond 7)]
    (new App.quoting) _ rfl (exec_firstPolls App.quoting) rfl (zeroPolls_two 3 6) (held_quoting {} [] 3 6) rfl
  obtain ⟨hmanager, i, o, ho⟩ := quoting_tracks
  exact h.1.mpr ⟨Or.inr ⟨by decide, Or.inl (by decide)⟩, Or.inr ⟨0, _, rfl,
    clearSignal_isZeroOrders "BTC-USD" 2, [], _, [], _, rfl, rfl, rfl, rfl,
    App.holdsOrders_of_tracked hmanager ho⟩⟩

/-- Two polls during warm-up, the reception of what they bring, and the first orders. -/
def warmUp : List Event := [zeroPoll 3, zeroPoll 6, .receive (App.atSecond 7), .evolve App.quoting]

/-- **An alarm lost.**  Two polls during warm-up find no order; their signal comes while the manager
    holds none and is dropped.  The first orders are sent and never appear on the exchange: two more
    polls find none, nothing is sent, no reconciliation is pending and no alarm is ever handled. -/
theorem alarm_lost :
    Runs.exec App.step App.live App.firstOrders = some App.quoting ∧
    Runs.exec (step liveChecker) (new App.live) warmUp = some ⟨staleFor 2, [], App.quoting⟩ ∧
    Runs.exec (step liveChecker) ⟨staleFor 2, [], App.quoting⟩ [zeroPoll 9, zeroPoll 12]
      = some ⟨staleFor 4, [], App.quoting⟩ ∧
    ZeroPolls [zeroPoll 9, zeroPoll 12] ∧
    HeldThroughout liveChecker ⟨staleFor 2, [], App.quoting⟩ [zeroPoll 9, zeroPoll 12] ∧
    App.quoting.reconciliationPending = false ∧
    ¬ Alarmed liveChecker (new App.live) (warmUp ++ [zeroPoll 9, zeroPoll 12]) := by
  refine ⟨App.exec_after .., ?_, exec_laterPolls App.quoting, zeroPolls_two 9 12,
    held_quoting _ _ 9 12, by decide +kernel, ?_⟩
  · rw [show warmUp = [zeroPoll 3, zeroPoll 6] ++ [.receive (App.atSecond 7), .evolve App.quoting] from rfl,
      Runs.exec_append, exec_firstPolls, Option.bind_some]
    rfl
  · rintro ⟨before, e, after, t, hsplit, hbefore, hreceive, hholds, _⟩
    have hlength := congrArg List.length hsplit
    -- the only reception is the third event, and the manager holds no order then
    have hthird : before.length = 2 := by
      have hget : (warmUp ++ [zeroPoll 9, zeroPoll 12])[before.length]? = some e := by
        rw [hsplit, List.getElem?_append_right (Nat.le_refl _), Nat.sub_self]
        rfl
      simp only [warmUp, List.cons_append, List.nil_append, List.length_cons, List.length_nil,
        List.length_append] at hlength
      have hlt : before.length < 6 := by omega
      generalize before.length = n at hget hlt
      match n, hlt, hget with
      | 0, _, hget | 1, _, hget | 3, _, hget | 4, _, hget | 5, _, hget =>
        cases hget
        cases hreceive
      | 2, _, _ => rfl
    have htake : before = [zeroPoll 3, zeroPoll 6] := by
      have := congrArg (List.take 2) hsplit
      rw [← hthird, List.take_append_of_le_length (Nat.le_refl _), List.take_length, hthird] at this
      exact this.symm
    rw [htake, exec_firstPolls] at hbefore
    cases hbefore
    exact absurd hholds (by decide +kernel)

end OrderWatch

end MarketMaker
