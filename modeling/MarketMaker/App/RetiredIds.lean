import MarketMaker.App.State
import MarketMaker.Trading.Pauses
import MarketMaker.Trading.SlotLifecycle

/-!
# Retired client ids

An id carries the generation it was issued under; `finish_reconciliation` retires every
generation before the current one.  `Issuance` is a manager with the ids its Sends obtained from
`generate_cl_ord_id`, each next to the number of reconciliations that had finished by then.

* `isRetiredClientId_format`, `extractSymbol_format` — the two parsers read the fields back.
* `Traced.apply` — the step lemma: an id is below the retired generation exactly when a
  reconciliation has finished since, because the pause that precedes it moves the generation on.
* `retired_iff_finished` — along every run with fewer than `2 ^ 64` bumps and at most `2 ^ 64` ids.
* `retired_missed` — after `2 ^ 64 - 1` bumps the next one wraps and a cleared id is not retired.
-/

set_option autoImplicit false

namespace MarketMaker

/-! ## Reading an id back -/

/-- The client id of a Send. -/
def OrderDecision.sentId : OrderDecision → Option String
  | .send _ _ _ _ clOrdId => some clOrdId
  | _ => none

namespace OrderManager

open Word64

theorem formatClOrdId_toList (session : String) (level : Level) (generation seq : Nat) :
    (formatClOrdId session level generation seq).toList =
      (session ++ "_").toList ++ ((toString level.val).toList ++ '_' ::
        ((toString generation).toList ++ '_' :: (toString seq).toList)) := by
  simp [formatClOrdId, String.toList_append, List.append_assoc]

/-- `is_retired_client_id` compares the generation of an id of this session. -/
theorem isRetiredClientId_format (m : OrderManager) (level : Level) {generation : Nat} (seq : Nat)
    (hgeneration : generation < size) :
    m.isRetiredClientId (formatClOrdId m.sessionPrefix level generation seq)
      = decide (generation < m.retiredGeneration) := by
  have hfield : ((((toString level.val).toList ++ '_' ::
      ((toString generation).toList ++ '_' :: (toString seq).toList)).splitOn '_')[1]?.bind
      Text.parseU64) = some generation := by
    rw [Text.splitOn_second (Text.underscore_notMem_toString _) (Text.underscore_notMem_toString _)]
    exact Text.parseU64_toString hgeneration
  simp only [isRetiredClientId, formatClOrdId_toList, Text.stripLeading_append, hfield]

/-- `extract_symbol_from_cl_ord_id` reads the symbol of a session back. -/
theorem extractSymbol_format {config : OrderManagerConfig} (hsymbol : '_' ∉ config.symbol.toList)
    (startMs : Int) (level : Level) (generation seq : Nat) :
    extractSymbolFromClOrdId (formatClOrdId (new config startMs).sessionPrefix level generation seq)
      = some config.symbol := by
  obtain ⟨rest, hrest⟩ : ∃ rest, (formatClOrdId (new config startMs).sessionPrefix level generation
      seq).toList = "mm_".toList ++ (config.symbol.toList ++ '_' :: rest) :=
    ⟨_, by simp only [formatClOrdId, new, String.toList_append, List.append_assoc]; rfl⟩
  have htake : (config.symbol.toList ++ '_' :: rest).takeWhile (fun c => decide (c ≠ '_'))
      = config.symbol.toList := by
    rw [List.takeWhile_append_of_pos]
    · simp
    · intro c hc
      have : c ≠ '_' := fun heq => hsymbol (heq ▸ hc)
      simpa using this
  have hmem : '_' ∈ config.symbol.toList ++ '_' :: rest := by simp
  unfold extractSymbolFromClOrdId
  rw [hrest, Text.stripLeading_append]
  simp only [if_pos hmem, htake, String.ofList_toList]

/-! ## The ids a run issues -/

/-- The client ids of the Sends among some decisions. -/
def sentIds (ds : List OrderDecision) : List String := ds.filterMap OrderDecision.sentId

theorem length_sentIds (ds : List OrderDecision) : (sentIds ds).length = sends ds := by
  unfold sentIds sends
  rw [List.length_filterMap_eq_countP]
  refine List.countP_congr fun d _ => ?_
  cases d <;> simp [OrderDecision.sentId, OrderDecision.isSend]

/-- An id and the number of reconciliations that had finished when it was generated. -/
structure IssuedId where
  clOrdId : String
  finished : Nat
  deriving DecidableEq

/-- A manager, the reconciliations it has finished, the ids it has issued, oldest first, and how
    often its generation was bumped. -/
structure Issuance where
  manager : OrderManager
  finished : Nat
  issued : List IssuedId
  bumped : Nat

/-- A reconciliation is finished under its own pause only; all else is possible at any time. -/
def Operation.admitted (m : OrderManager) : Operation → Bool
  | .finishReconciliation => m.hasPauseReason .reconciliation
  | _ => true

/-- How many reconciliations an operation finishes. -/
def Operation.finishes : Operation → Nat
  | .finishReconciliation => 1
  | _ => 0

/-- The bumps between two readings of the generation, fewer than `2 ^ 64`. -/
def bumpsBetween (s s' : ExecutionState) : Nat := (s'.generation + size - s.generation) % size

/-! ## What one operation does -/

/-- An operation bumps the generation a few times, and at least once if it closes an open
    execution. -/
structure Bumped (s s' : ExecutionState) (k : Nat) : Prop where
  generation : s'.generation = (s.generation + k) % size
  closing : s.Open → ¬ s'.Open → 0 < k

theorem apply_bumped {m : OrderManager} (hm : m.execution.generation < size) (op : Operation) :
    ∃ k ≤ op.bumps, Bumped m.execution (m.apply op).1.execution k := by
  refine apply_execution_counted (n := 0)
    (fun n s => ∃ k, k + n ≤ op.bumps ∧ Bumped m.execution s k) ?_ ?_ ?_ ?_
    ⟨0, by omega, (Nat.mod_eq_of_lt hm).symm, fun hopen hclosed => absurd hopen hclosed⟩
  · rintro n s ⟨k, hle, hk⟩
    exact ⟨k, by omega, hk⟩
  · rintro n s r - ⟨k, hle, hk⟩
    unfold ExecutionState.setPauseReason
    split
    · rename_i hset
      have hclosed : ¬ s.Open := fun hopen => ExecutionState.pauseReasons_ne_zero hset hopen.2
      exact ⟨k, by omega, hk.generation, fun hopen _ => hk.closing hopen hclosed⟩
    · refine ⟨k + 1, by omega, ?_, fun _ _ => Nat.succ_pos k⟩
      show wrappingAdd s.generation 1 = _
      rw [hk.generation, wrappingAdd, Nat.mod_add_mod, Nat.add_assoc]
  · rintro n s r - ⟨k, hle, hk⟩
    refine ⟨k, hle, hk.generation, fun hopen hclosed => hk.closing hopen fun hs => ?_⟩
    exact absurd ((s.advances_clearPauseReason r).closing hs hclosed) (Nat.lt_irrefl _)
  · rintro n s ⟨k, hle, hk⟩
    refine ⟨k + 1, by omega, ?_, fun _ _ => Nat.succ_pos k⟩
    show wrappingAdd s.generation 1 = _
    rw [hk.generation, wrappingAdd, Nat.mod_add_mod, Nat.add_assoc]

theorem Bumped.between {s s' : ExecutionState} {k : Nat} (h : Bumped s s' k)
    (hs : s.generation < size) (hk : k < size) : bumpsBetween s s' = k := by
  rw [bumpsBetween, h.generation]
  unfold size at *
  omega

theorem onQuoteInto_retired (m : OrderManager) (position limit : ℚ) (quote : Quote) (now : Int) :
    (m.onQuoteInto position limit quote now).1.retiredGeneration = m.retiredGeneration := by
  refine onQuoteInto_rule (I := fun m' _ => m'.retiredGeneration = m.retiredGeneration) rfl rfl ?_
  intro m' ds t i r hI hr
  cases hr <;> exact hI

/-- Only `finish_reconciliation` retires a generation. -/
theorem apply_retired (m : OrderManager) {op : Operation} (hop : op.finishes = 0) :
    (m.apply op).1.retiredGeneration = m.retiredGeneration := by
  by_cases hevent : op.IsEvent
  · refine (apply_eventFrame hevent).retired ?_
    rintro rfl
    cases hop
  · cases op with
    | quote position limit quote now => exact m.onQuoteInto_retired position limit quote now
    | _ => exact absurd trivial hevent

/-! ## The ids of a quote -/

/-- The level loop after some decisions, against the manager `m₀` the quote found: the ids of its
    Sends are the next ones, under the generation in force, and nothing else is newly tracked. -/
structure LoopIssued (session : String) (n : Nat) (m₀ m : OrderManager) (ds : List OrderDecision) :
    Prop where
  ofSession : m.sessionPrefix = session
  counter : m.clOrdIdCounter = (1 + (n + (sentIds ds).length)) % size
  texts : ∀ j id, (sentIds ds)[j]? = some id →
    ∃ level, id = issuedId session level m.execution.generation (n + j)
  origin : ∀ i o, m.orders i = some o →
    (∃ oi, m₀.orders i = some oi ∧ oi.clOrdId = o.clOrdId) ∨ o.clOrdId ∈ sentIds ds

/-- A cancel sends nothing and leaves every order its id. -/
theorem LoopIssued.setOrderCanceling {session : String} {n : Nat} {m₀ m m' : OrderManager}
    {ds : List OrderDecision} {d : OrderDecision} (h : LoopIssued session n m₀ m ds) {i : Slot}
    {now : Int} (hd : d.sentId = none) (hframe : SlotFrame (m.setOrderCanceling i now) m')
    (hgeneration : m'.execution.generation = m.execution.generation) :
    LoopIssued session n m₀ m' (ds ++ [d]) := by
  have hids : sentIds (ds ++ [d]) = sentIds ds := by simp [sentIds, hd]
  refine ⟨hframe.session.trans h.ofSession, ?_, ?_, ?_⟩
  · rw [hids]
    exact hframe.counter.trans h.counter
  · rw [hids, hgeneration]
    exact h.texts
  · rw [hids, hframe.orders]
    intro j o hj
    have horders : (m.setOrderCanceling i now).orders
        = Function.update m.orders i ((m.orders i).map (·.beginCancel now)) := rfl
    rw [horders] at hj
    by_cases hji : j = i
    · subst hji
      rw [Function.update_self] at hj
      obtain ⟨oj, hoj, rfl⟩ := Option.map_eq_some_iff.mp hj
      exact h.origin j oj hoj
    · rw [Function.update_of_ne hji] at hj
      exact h.origin j o hj

theorem LoopIssued.step {session : String} {n : Nat} {m₀ m : OrderManager} {t : QuoteTerms}
    {ds : List OrderDecision} {now : Int} {i : Slot} {r : OrderManager × Option OrderDecision}
    (h : LoopIssued session n m₀ m ds) (hr : LevelOutcome m t now i r) :
    LoopIssued session n m₀ r.1 (ds ++ r.2.toList) := by
  cases hr with
  | keep => simpa using h
  | cancel o ho hs => exact h.setOrderCanceling rfl (.refl _) rfl
  | replace o price qty ho hs => exact h.setOrderCanceling rfl ⟨rfl, rfl, rfl⟩ rfl
  | place price hnone hprice hqty =>
    generalize permittedQty m.config (m.budget t i) price t.mid t.quantity = qty
    have hid : (m.generateClOrdId i.2).1
        = issuedId session i.2 m.execution.generation (n + (sentIds ds).length) := by
      simp only [generateClOrdId, issuedId, h.ofSession, h.counter]
    have hids : sentIds (ds ++ (some (m.placeOrder i price qty now).2).toList)
        = sentIds ds ++ [(m.generateClOrdId i.2).1] := by
      simp only [sentIds, List.filterMap_append]
      rfl
    dsimp only
    refine ⟨h.ofSession, ?_, ?_, ?_⟩
    · rw [hids]
      show wrappingAdd m.clOrdIdCounter 1 = _
      rw [h.counter, wrappingAdd, Nat.mod_add_mod, List.length_append]
      rfl
    · rw [hids]
      intro j id hj
      rcases Nat.lt_or_ge j (sentIds ds).length with hlt | hge
      · rw [List.getElem?_append_left hlt] at hj
        exact h.texts j id hj
      · rw [List.getElem?_append_right hge, List.getElem?_singleton] at hj
        split at hj
        · obtain rfl : j = (sentIds ds).length := by omega
          exact ⟨i.2, (Option.some.inj hj).symm.trans hid⟩
        · cases hj
    · rw [hids, placeOrder_orders]
      intro j o hj
      by_cases hji : j = i
      · subst hji
        rw [Function.update_self] at hj
        refine Or.inr (List.mem_append_right _ ?_)
        rw [← Option.some.inj hj]
        exact List.mem_singleton_self _
      · rw [Function.update_of_ne hji] at hj
        exact (h.origin j o hj).imp_right (List.mem_append_left _)

theorem LoopIssued.start {session : String} {n : Nat} {m m' : OrderManager}
    (h : Tracked session n m) (hframe : SlotFrame m m') : LoopIssued session n m m' [] :=
  ⟨hframe.session.trans h.ofSession, hframe.counter.trans h.counter, by simp [sentIds],
   fun i o ho => Or.inl ⟨o, hframe.orders ▸ ho, rfl⟩⟩

theorem onQuoteInto_issued {session : String} {n : Nat} {m : OrderManager} (h : Tracked session n m)
    (position limit : ℚ) (quote : Quote) (now : Int) :
    LoopIssued session n m (m.onQuoteInto position limit quote now).1
      (m.onQuoteInto position limit quote now).2 :=
  onQuoteInto_rule (I := fun m' ds => LoopIssued session n m m' ds) (.start h (.refl m))
    (.start h ⟨rfl, rfl, rfl⟩) fun hI hr => hI.step hr

/-- A quote that sends found the execution open and left it as it was. -/
theorem onQuoteInto_sends_open (m : OrderManager) (position limit : ℚ) (quote : Quote) (now : Int)
    (hsends : sentIds (m.onQuoteInto position limit quote now).2 ≠ []) :
    m.execution.Open ∧ (m.onQuoteInto position limit quote now).1.execution = m.execution := by
  by_cases hopen : m.Unpaused
  · rcases m.onQuoteInto_execution position limit quote now with hsame | ⟨_, _, hnone⟩
    · exact ⟨hopen, hsame⟩
    · refine absurd ?_ hsends
      rw [← List.length_eq_zero_iff, length_sentIds]
      exact List.countP_eq_zero.mpr fun d hd => by simp [hnone d hd]
  · rw [onQuoteInto_paused hopen] at hsends
    exact absurd rfl hsends

namespace Issuance

/-- A fresh manager. -/
def new (config : OrderManagerConfig) (startMs : Int) : Issuance :=
  ⟨.new config startMs, 0, [], 0⟩

/-- What an operation makes of the issuance. -/
def after (s : Issuance) (op : Operation) : Issuance where
  manager := (s.manager.apply op).1
  finished := s.finished + op.finishes
  issued := s.issued ++ (sentIds (s.manager.apply op).2).map (⟨·, s.finished⟩)
  bumped := s.bumped + bumpsBetween s.manager.execution (s.manager.apply op).1.execution

def step (s : Issuance) (op : Operation) : Option Issuance :=
  if op.admitted s.manager then some (s.after op) else none

/-! ## The invariant -/

/-- Where the generation an id was issued under stands. -/
structure Standing (s : Issuance) (x : IssuedId) (generation : Nat) : Prop where
  generation_le : generation ≤ s.manager.execution.generation
  finished_le : x.finished ≤ s.finished
  retired : generation < s.manager.retiredGeneration ↔ x.finished < s.finished
  -- closing the execution moves the generation past every id issued while it was open
  passed : ¬ s.manager.execution.Open → generation < s.manager.execution.generation

structure Traced (session : String) (s : Issuance) : Prop where
  tracked : Tracked session s.issued.length s.manager
  counted : s.manager.execution.generation = s.bumped
  retired_le : s.manager.retiredGeneration ≤ s.manager.execution.generation
  issuedAt : ∀ k x, s.issued[k]? = some x → ∃ level generation,
    x.clOrdId = issuedId session level generation k ∧ s.Standing x generation
  current : ∀ i o, s.manager.orders i = some o →
    ∃ x ∈ s.issued, x.clOrdId = o.clOrdId ∧ x.finished = s.finished

theorem traced_new (config : OrderManagerConfig) (startMs : Int) :
    Traced (OrderManager.new config startMs).sessionPrefix (new config startMs) :=
  ⟨tracked_new config startMs, rfl, Nat.le_refl 0, by simp [new],
   fun i o ho => by cases (show none = some o from ho)⟩

/-- What an operation other than a finish makes of an id issued before. -/
theorem Standing.after {s : Issuance} {op : Operation} {x : IssuedId} {generation k : Nat}
    (h : s.Standing x generation) (hop : op.finishes = 0)
    (hk : Bumped s.manager.execution (s.manager.apply op).1.execution k)
    (hgeneration : (s.manager.apply op).1.execution.generation = s.manager.execution.generation + k) :
    (s.after op).Standing x generation := by
  have hfinished : (s.after op).finished = s.finished := by simp [Issuance.after, hop]
  have hretired : (s.after op).manager.retiredGeneration = s.manager.retiredGeneration :=
    apply_retired s.manager hop
  have hlater : (s.after op).manager.execution.generation = s.manager.execution.generation + k :=
    hgeneration
  refine ⟨?_, ?_, ?_, ?_⟩
  · have := h.generation_le
    omega
  · rw [hfinished]
    exact h.finished_le
  · rw [hretired, hfinished]
    exact h.retired
  · intro hclosed
    have hle := h.generation_le
    by_cases hopen : s.manager.execution.Open
    · have := hk.closing hopen hclosed
      omega
    · have := h.passed hopen
      omega

/-- A finish retires every id issued before. -/
theorem Standing.finish {s : Issuance} {x : IssuedId} {generation : Nat} (h : s.Standing x generation)
    (hpaused : s.manager.hasPauseReason .reconciliation = true) :
    (s.after .finishReconciliation).Standing x generation := by
  have hclosed : ¬ s.manager.execution.Open := fun hopen =>
    ExecutionState.pauseReasons_ne_zero hpaused hopen.2
  have hpassed := h.passed hclosed
  have hfinished := h.finished_le
  refine ⟨h.generation_le, ?_, ?_, fun _ => hpassed⟩
  · show x.finished ≤ s.finished + 1
    omega
  · show generation < s.manager.execution.generation ↔ x.finished < s.finished + 1
    omega

theorem after_finished_le (s : Issuance) (op : Operation) : s.finished ≤ (s.after op).finished :=
  Nat.le_add_right _ _

theorem after_issued (s : Issuance) (op : Operation) :
    (s.after op).issued = s.issued ++ (sentIds (s.manager.apply op).2).map (⟨·, s.finished⟩) := rfl

/-- An event issues nothing. -/
theorem after_issued_event {s : Issuance} {op : Operation} (hop : op.IsEvent) :
    (s.after op).issued = s.issued := by
  have hnone : sentIds (s.manager.apply op).2 = [] := by
    rw [← List.length_eq_zero_iff, length_sentIds, apply_event_sends hop]
  rw [after_issued, hnone, List.map_nil, List.append_nil]

/-- The ids of a quote are issued under the generation in force, which the quote leaves open. -/
theorem Traced.quoted {session : String} {s : Issuance} (h : Traced session s)
    {position limit : ℚ} {quote : Quote} {now : Int} {j : Nat} {id : String}
    (hj : (sentIds (s.manager.onQuoteInto position limit quote now).2)[j]? = some id) :
    ∃ level generation, id = issuedId session level generation (s.issued.length + j) ∧
      (s.after (.quote position limit quote now)).Standing ⟨id, s.finished⟩ generation := by
  obtain ⟨level, hid⟩ := (onQuoteInto_issued h.tracked position limit quote now).texts j id hj
  have hne : sentIds (s.manager.onQuoteInto position limit quote now).2 ≠ [] := by
    intro hnil
    rw [hnil] at hj
    cases hj
  obtain ⟨hopen, hsame⟩ := s.manager.onQuoteInto_sends_open position limit quote now hne
  have hexecution : (s.after (.quote position limit quote now)).manager.execution
      = s.manager.execution := hsame
  have hretired : (s.after (.quote position limit quote now)).manager.retiredGeneration
      = s.manager.retiredGeneration := s.manager.onQuoteInto_retired position limit quote now
  have hle := h.retired_le
  refine ⟨level, _, hid, Nat.le_refl _, Nat.le_refl _, ?_, ?_⟩
  · rw [hretired, hsame]
    exact ⟨fun hlt => absurd hlt (by omega), fun hlt => absurd hlt (Nat.lt_irrefl _)⟩
  · rw [hexecution]
    exact fun hclosed => absurd hopen hclosed

/-- Every tracked order carries an id issued since the last finish. -/
theorem Traced.current_after {session : String} {s : Issuance} (h : Traced session s) {op : Operation}
    (hop : op.finishes = 0) {i : Slot} {o : LiveOrder} (ho : (s.after op).manager.orders i = some o) :
    ∃ x ∈ (s.after op).issued, x.clOrdId = o.clOrdId ∧ x.finished = s.finished := by
  have old : ∀ {oi}, s.manager.orders i = some oi → oi.clOrdId = o.clOrdId →
      ∃ x ∈ (s.after op).issued, x.clOrdId = o.clOrdId ∧ x.finished = s.finished := by
    intro oi hoi hid
    obtain ⟨x, hx, hxid, hxf⟩ := h.current i oi hoi
    exact ⟨x, List.mem_append_left _ hx, hxid.trans hid, hxf⟩
  by_cases hevent : op.IsEvent
  · obtain ⟨oi, hoi, hsame, _⟩ := SlotFate.origin
      (ho ▸ apply_fate hevent h.tracked.nonzero (fun _ => False) i)
    exact old hoi hsame.clOrdId.symm
  · cases op with
    | quote position limit quote now =>
      rcases (onQuoteInto_issued h.tracked position limit quote now).origin i o ho
        with ⟨oi, hoi, hid⟩ | hsent
      · exact old hoi hid
      · exact ⟨⟨o.clOrdId, s.finished⟩, List.mem_append_right _ (List.mem_map.mpr ⟨_, hsent, rfl⟩),
          rfl, rfl⟩
    | _ => exact absurd trivial hevent

/-- **Step.**  Every admitted operation keeps the invariant, as long as neither the generation nor
    the ids wrap. -/
theorem Traced.apply {session : String} {s : Issuance} (h : Traced session s) {op : Operation}
    (hadmitted : op.admitted s.manager = true) (hbumped : (s.after op).bumped < size)
    (hissued : (s.after op).issued.length ≤ size) : Traced session (s.after op) := by
  have hlength : (s.after op).issued.length = s.issued.length + sends (s.manager.apply op).2 := by
    rw [after_issued, List.length_append, List.length_map, length_sentIds]
  have htracked : Tracked session (s.after op).issued.length (s.after op).manager := by
    rw [hlength] at hissued ⊢
    exact h.tracked.apply op hissued
  -- the bumps counted are the bumps made
  have hbefore : s.bumped ≤ (s.after op).bumped := Nat.le_add_right _ _
  have hsize : s.manager.execution.generation < size := by
    have := h.counted
    omega
  obtain ⟨k, hk, hkb⟩ := apply_bumped hsize op
  have hksmall : op.bumps ≤ 2 := by cases op <;> simp [Operation.bumps]
  have hbetween : (s.after op).bumped = s.bumped + k := by
    show s.bumped + bumpsBetween _ _ = _
    rw [hkb.between hsize (by unfold size; omega)]
  have hgeneration : (s.manager.apply op).1.execution.generation
      = s.manager.execution.generation + k := by
    rw [hkb.generation, h.counted]
    exact Nat.mod_eq_of_lt (by omega)
  have hcounted : (s.after op).manager.execution.generation = (s.after op).bumped := by
    rw [hbetween, ← h.counted]
    exact hgeneration
  rcases Nat.eq_zero_or_pos op.finishes with hop | hop
  · refine ⟨htracked, hcounted, ?_, ?_, ?_⟩
    · have hretired : (s.after op).manager.retiredGeneration = s.manager.retiredGeneration :=
        apply_retired s.manager hop
      have hle := h.retired_le
      have hcount := h.counted
      omega
    · intro j x hj
      rcases Nat.lt_or_ge j s.issued.length with hlt | hge
      · rw [after_issued, List.getElem?_append_left hlt] at hj
        obtain ⟨level, generation, hid, hstanding⟩ := h.issuedAt j x hj
        exact ⟨level, generation, hid, hstanding.after hop hkb hgeneration⟩
      · -- only a quote issues
        by_cases hevent : op.IsEvent
        · rw [after_issued_event hevent, List.getElem?_eq_none hge] at hj
          cases hj
        · cases op with
          | quote position limit quote now =>
            rw [after_issued, List.getElem?_append_right hge, List.getElem?_map] at hj
            obtain ⟨id, hid, rfl⟩ := Option.map_eq_some_iff.mp hj
            have := h.quoted hid
            rwa [Nat.add_sub_cancel' hge] at this
          | _ => exact absurd trivial hevent
    · intro i o ho
      obtain ⟨x, hx, hid, hxf⟩ := h.current_after hop ho
      refine ⟨x, hx, hid, ?_⟩
      rw [hxf]
      simp [Issuance.after, hop]
  · cases op with
    | finishReconciliation =>
      refine ⟨htracked, hcounted, Nat.le_refl _, ?_, fun i o ho => ?_⟩
      · intro j x hj
        rw [after_issued_event (show Operation.IsEvent .finishReconciliation from trivial)] at hj
        obtain ⟨level, generation, hid, hstanding⟩ := h.issuedAt j x hj
        exact ⟨level, generation, hid, hstanding.finish hadmitted⟩
      · cases (show none = some o from ho)
    | _ => exact absurd hop (Nat.lt_irrefl 0)

/-! ## Runs -/

theorem step_eq {s s' : Issuance} {op : Operation} (hstep : s.step op = some s') :
    op.admitted s.manager = true ∧ s' = s.after op := by
  unfold step at hstep
  split at hstep
  · rename_i hadmitted
    exact ⟨hadmitted, (Option.some.inj hstep).symm⟩
  · cases hstep

theorem traced_exec {config : OrderManagerConfig} {startMs : Int} {ops : List Operation} {s : Issuance}
    (hrun : Runs.exec step (new config startMs) ops = some s) (hbumped : s.bumped < size)
    (hissued : s.issued.length ≤ size) :
    Traced (OrderManager.new config startMs).sessionPrefix s := by
  refine Runs.exec_invariant
    (fun s => s.bumped < size → s.issued.length ≤ size →
      Traced (OrderManager.new config startMs).sessionPrefix s)
    ?_ (fun _ _ => traced_new config startMs) hrun hbumped hissued
  intro t op t' ht hstep hbumped hissued
  obtain ⟨hadmitted, rfl⟩ := step_eq hstep
  have hbefore : t.bumped ≤ (t.after op).bumped := Nat.le_add_right _ _
  have hlength : t.issued.length ≤ (t.after op).issued.length := by
    rw [after_issued, List.length_append]
    exact Nat.le_add_right _ _
  exact (ht (by omega) (by omega)).apply hadmitted hbumped hissued

/-- What is issued stays issued, and the count of finishes only grows. -/
theorem exec_grows {s s' : Issuance} {ops : List Operation} (hrun : Runs.exec step s ops = some s') :
    s.bumped ≤ s'.bumped ∧ s.finished ≤ s'.finished ∧ s.issued <+: s'.issued := by
  refine Runs.exec_rel
    (fun t t' => t.bumped ≤ t'.bumped ∧ t.finished ≤ t'.finished ∧ t.issued <+: t'.issued) ?_ ?_ ?_ hrun
  · exact fun t => ⟨Nat.le_refl _, Nat.le_refl _, List.prefix_rfl⟩
  · intro t u v ⟨hbumped, hfinished, hissued⟩ ⟨hbumped', hfinished', hissued'⟩
    exact ⟨hbumped.trans hbumped', hfinished.trans hfinished', hissued.trans hissued'⟩
  intro t op t' hstep
  obtain ⟨_, rfl⟩ := step_eq hstep
  exact ⟨Nat.le_add_right _ _, t.after_finished_le op, List.prefix_append _ _⟩

/-- The symbol and the verdict of `is_retired_client_id`, read from the text of an id. -/
theorem Traced.reads {config : OrderManagerConfig} {startMs : Int} {s : Issuance}
    (h : Traced (OrderManager.new config startMs).sessionPrefix s) (hbumped : s.bumped < size)
    (hsymbol : '_' ∉ config.symbol.toList) {x : IssuedId} (hx : x ∈ s.issued) :
    (s.manager.isRetiredClientId x.clOrdId = true ↔ x.finished < s.finished) ∧
      extractSymbolFromClOrdId x.clOrdId = some config.symbol := by
  obtain ⟨k, hk⟩ := List.mem_iff_getElem?.mp hx
  obtain ⟨level, generation, hid, hstanding⟩ := h.issuedAt k x hk
  have hsize : generation < size := by
    have hle := hstanding.generation_le
    have hcounted := h.counted
    omega
  rw [hid]
  refine ⟨?_, extractSymbol_format hsymbol ..⟩
  rw [issuedId, ← h.tracked.ofSession, isRetiredClientId_format _ _ _ hsize, decide_eq_true_iff]
  exact hstanding.retired

/-- No two ids are the same. -/
theorem Traced.nodup {session : String} {s : Issuance} (h : Traced session s)
    (hissued : s.issued.length ≤ size) : (s.issued.map IssuedId.clOrdId).Nodup := by
  rw [List.Nodup, List.pairwise_map, List.pairwise_iff_getElem]
  intro i j hi hj hij heq
  obtain ⟨level, generation, hid, _⟩ := h.issuedAt i _ (List.getElem?_eq_getElem hi)
  obtain ⟨level', generation', hid', _⟩ := h.issuedAt j _ (List.getElem?_eq_getElem hj)
  have := issuedId_inj (by omega) (by omega) (hid.symm.trans (heq.trans hid'))
  omega

end Issuance

end OrderManager

/-! ## The filter of the main loop -/

/-- An acceptance or a rejection under a retired id of its manager changes nothing. -/
theorem App.onOrderEvent_retired {app : App} {clOrdId : String} (h : app.isRetired clOrdId = true)
    (orderId : Int) (reason : String) (now : Clocks) :
    app.onOrderEvent (.orderAccepted clOrdId orderId) now = app ∧
      app.onOrderEvent (.orderRejected clOrdId reason) now = app :=
  ⟨if_pos h, if_pos h⟩

theorem App.isRetired_eq {app : App} {symbol clOrdId : String} (hmanager : app.hasManager symbol = true)
    (hsymbol : OrderManager.extractSymbolFromClOrdId clOrdId = some symbol) :
    app.isRetired clOrdId = (app.managers symbol).isRetiredClientId clOrdId := by
  simp [App.isRetired, hsymbol, hmanager]

namespace OrderManager

open Word64 Issuance

/-- **Late responses to cleared orders are recognised, fresh ones are not.**  In every run with
    fewer than `2 ^ 64` bumps and at most `2 ^ 64` ids, an id is retired exactly when a
    reconciliation has finished since it was generated, all ids differ and carry the manager's
    symbol.  So the main loop drops the acceptance and the rejection of every order a finish
    cleared, and never an event of a tracked order. -/
theorem retired_iff_finished (config : OrderManagerConfig) (startMs : Int)
    (hsymbol : '_' ∉ config.symbol.toList) (ops : List Operation) (s : Issuance)
    (hrun : Runs.exec step (.new config startMs) ops = some s) (hbumped : s.bumped < 2 ^ 64)
    (hissued : s.issued.length ≤ 2 ^ 64) :
    (∀ x ∈ s.issued, (s.manager.isRetiredClientId x.clOrdId = true ↔ x.finished < s.finished) ∧
      extractSymbolFromClOrdId x.clOrdId = some config.symbol) ∧
    (s.issued.map IssuedId.clOrdId).Nodup ∧
    (∀ app : App, app.hasManager config.symbol = true → app.managers config.symbol = s.manager →
      (∀ before after t i o, ops = before ++ .finishReconciliation :: after →
        Runs.exec step (.new config startMs) before = some t → t.manager.orders i = some o →
        ∀ orderId reason now, app.onOrderEvent (.orderAccepted o.clOrdId orderId) now = app ∧
          app.onOrderEvent (.orderRejected o.clOrdId reason) now = app) ∧
      ∀ i o, s.manager.orders i = some o → app.isRetired o.clOrdId = false) := by
  rw [← size_eq] at hbumped hissued
  have htraced := traced_exec hrun hbumped hissued
  have hreads := fun x hx => htraced.reads hbumped hsymbol (x := x) hx
  refine ⟨hreads, htraced.nodup hissued, ?_⟩
  intro app hmanager hof
  have hverdict : ∀ x ∈ s.issued, (app.isRetired x.clOrdId = true ↔ x.finished < s.finished) := by
    intro x hx
    rw [App.isRetired_eq hmanager (hreads x hx).2, hof]
    exact (hreads x hx).1
  constructor
  · rintro before after t i o rfl hbefore ho orderId reason now
    obtain ⟨t', ht', hrest⟩ := Runs.exec_append_some hrun
    obtain rfl := Option.some.inj (hbefore.symm.trans ht')
    obtain ⟨u, hfinish, hafter⟩ := Runs.exec_cons_some hrest
    obtain ⟨_, rfl⟩ := step_eq hfinish
    obtain ⟨_, hfinished, _⟩ := exec_grows hafter
    -- the cleared order's id was issued before this finish
    have hgrown : t.bumped ≤ s.bumped ∧ t.issued <+: s.issued :=
      ⟨(exec_grows hrest).1, (exec_grows hrest).2.2⟩
    have hlength := hgrown.2.length_le
    obtain ⟨x, hx, hid, hxf⟩ := (traced_exec hbefore (by omega) (by omega)).current i o ho
    have hlast : t.finished + 1 ≤ s.finished := hfinished
    have hretired := (hverdict x (hgrown.2.subset hx)).mpr (by omega)
    rw [hid] at hretired
    exact App.onOrderEvent_retired hretired orderId reason now
  · intro i o ho
    obtain ⟨x, hx, hid, hxf⟩ := htraced.current i o ho
    rw [← hid, Bool.eq_false_iff]
    intro hretired
    have := (hverdict x hx).mp hretired
    omega

/-! ## Bids of the default manager -/

/-- A bid and the pause of a reconciliation. -/
def bidAndPause : List Operation := [.quote 0 1000 bidOnly 0, .setPauseReason .reconciliation]

/-- A market data pause that comes and goes. -/
def toggle : List Operation := [.setPauseReason .marketData, .clearPauseReason .marketData]

/-- The default manager after `n` toggles. -/
def afterToggles (n : Nat) : Issuance :=
  ⟨{ new .default 7 with execution := ⟨0#8, false, n % size⟩ }, 0, [], n⟩

/-- The default manager with a bid placed after `n` toggles and a reconciliation pending. -/
def pending (n : Nat) : Issuance :=
  ⟨((afterToggles n).manager.placeOrder (.buy, 0) 99 1 0).1.setPauseReason .reconciliation, 0,
    [⟨formatClOrdId "mm_TEST-USD_7" 0 (n % size) 1, 0⟩], n + 1⟩

/-- The bid cleared. -/
def cleared (n : Nat) : Issuance :=
  { pending n with manager := (pending n).manager.finishReconciliation, finished := 1 }

theorem bumpsBetween_bump {s s' : ExecutionState} (hs : s.generation < size)
    (h : s'.generation = (s.generation + 1) % size) : bumpsBetween s s' = 1 :=
  Bumped.between ⟨h, fun _ _ => Nat.one_pos⟩ hs (by decide)

theorem bumpsBetween_same {s s' : ExecutionState} (h : s'.generation = s.generation) :
    bumpsBetween s s' = 0 := by
  rw [bumpsBetween, h]
  unfold size at *
  omega

theorem openAt_set (g : Nat) (r : PauseReason) :
    (⟨0#8, false, g⟩ : ExecutionState).setPauseReason r = ⟨r.bits, false, wrappingAdd g 1⟩ := by
  simp [ExecutionState.setPauseReason, ExecutionState.hasPauseReason, ExecutionState.fetchOrPause,
    ExecutionState.bumpGeneration, Flags.set]

theorem pausedAt_clear (g : Nat) (r : PauseReason) :
    (⟨r.bits, false, g⟩ : ExecutionState).clearPauseReason r = ⟨0#8, false, g⟩ := by
  simp only [ExecutionState.clearPauseReason, Flags.clear, BitVec.and_not_self]
  rfl

theorem afterToggles_toggle (n : Nat) :
    Runs.exec step (afterToggles n) toggle = some (afterToggles (n + 1)) := by
  have hsize : ∀ n, n % size < size := fun n => Nat.mod_lt _ (by decide)
  have hnext : wrappingAdd (n % size) 1 = (n + 1) % size := by rw [wrappingAdd, Nat.mod_add_mod]
  have hset : step (afterToggles n) (.setPauseReason .marketData) = some ⟨{ new .default 7 with
      execution := ⟨PauseReason.marketData.bits, false, (n + 1) % size⟩ }, 0, [], n + 1⟩ := by
    have hmanager : ((afterToggles n).manager.apply (.setPauseReason .marketData)).1
        = { new .default 7 with execution := ⟨PauseReason.marketData.bits, false, (n + 1) % size⟩ } := by
      rw [← hnext, ← openAt_set]
      rfl
    have hbumps : bumpsBetween (afterToggles n).manager.execution
        ⟨PauseReason.marketData.bits, false, (n + 1) % size⟩ = 1 :=
      bumpsBetween_bump (hsize n) (Nat.mod_add_mod ..).symm
    simp only [step, Issuance.after, Operation.admitted, hmanager, hbumps, if_true]
    rfl
  have hclear : step ⟨{ new .default 7 with
      execution := ⟨PauseReason.marketData.bits, false, (n + 1) % size⟩ }, 0, [], n + 1⟩
      (.clearPauseReason .marketData) = some (afterToggles (n + 1)) := by
    have hmanager : (({ new .default 7 with execution :=
        ⟨PauseReason.marketData.bits, false, (n + 1) % size⟩ } : OrderManager).apply
        (.clearPauseReason .marketData)).1 = (afterToggles (n + 1)).manager := by
      rw [afterToggles, ← pausedAt_clear _ .marketData]
      rfl
    have hbumps : bumpsBetween ⟨PauseReason.marketData.bits, false, (n + 1) % size⟩
        (afterToggles (n + 1)).manager.execution = 0 := bumpsBetween_same rfl
    simp only [step, Issuance.after, Operation.admitted, hmanager, hbumps, if_true]
    rfl
  rw [toggle, Runs.exec_cons, hset, Option.bind_some, Runs.exec_singleton, hclear]

theorem pending_execution (n : Nat) : (pending n).manager.execution
    = ⟨PauseReason.reconciliation.bits, false, wrappingAdd (n % size) 1⟩ := openAt_set _ _

theorem afterToggles_bidAndPause (n : Nat) :
    Runs.exec step (afterToggles n) bidAndPause = some (pending n) := by
  have hsize : n % size < size := Nat.mod_lt _ (by decide)
  let placed : OrderManager := ((afterToggles n).manager.placeOrder (.buy, 0) 99 1 0).1
  let id : IssuedId := ⟨formatClOrdId "mm_TEST-USD_7" 0 (n % size) 1, 0⟩
  have hquote : step (afterToggles n) (.quote 0 1000 bidOnly 0) = some ⟨placed, 0, [id], n⟩ := by
    have hbid := quote_first_bid (m := (afterToggles n).manager) rfl ⟨rfl, rfl⟩ rfl
    have hbumps : bumpsBetween (afterToggles n).manager.execution placed.execution = 0 :=
      bumpsBetween_same rfl
    simp only [step, Issuance.after, Operation.admitted, apply, hbid, if_true]
    rw [hbumps]
    rfl
  have hset : step ⟨placed, 0, [id], n⟩ (.setPauseReason .reconciliation) = some (pending n) := by
    have hbumps : bumpsBetween placed.execution (placed.setPauseReason .reconciliation).execution = 1 := by
      rw [show (placed.setPauseReason .reconciliation).execution = _ from pending_execution n]
      exact bumpsBetween_bump hsize rfl
    simp only [step, Issuance.after, Operation.admitted, apply, hbumps, if_true]
    rfl
  rw [bidAndPause, Runs.exec_cons, hquote, Option.bind_some, Runs.exec_singleton, hset]

theorem pending_finish (n : Nat) : step (pending n) .finishReconciliation = some (cleared n) := by
  have hpaused : (pending n).manager.hasPauseReason .reconciliation = true :=
    ExecutionState.hasPauseReason_set_self ..
  have hbumps : bumpsBetween (pending n).manager.execution
      (pending n).manager.finishReconciliation.execution = 0 := bumpsBetween_same rfl
  simp only [step, Issuance.after, Operation.admitted, hpaused, apply, hbumps, if_true]
  rfl

theorem cleared_retiredGeneration (n : Nat) :
    (cleared n).manager.retiredGeneration = wrappingAdd (n % size) 1 :=
  congrArg ExecutionState.generation (pending_execution n)

theorem afterToggles_cleared (n : Nat) :
    Runs.exec step (afterToggles n) (bidAndPause ++ [.finishReconciliation]) = some (cleared n) := by
  rw [Runs.exec_append, afterToggles_bidAndPause, Option.bind_some, Runs.exec_singleton, pending_finish]

/-- The application around the manager whose first bid was cleared. -/
def appCleared : App :=
  { App.live with
    config := { AppConfig.default with symbols := ["TEST-USD"] }
    managers := fun _ => (cleared 0).manager }

/-- A late acceptance of the first bid changes nothing. -/
theorem retired_iff_finished_first_bid :
    appCleared.onOrderEvent (.orderAccepted (formatClOrdId "mm_TEST-USD_7" 0 0 1) 5) (App.atSecond 1)
      = appCleared := by
  have hstart : afterToggles 0 = .new .default 7 := rfl
  have hpending := afterToggles_bidAndPause 0
  have hcleared := afterToggles_cleared 0
  rw [hstart] at hpending hcleared
  obtain ⟨_, _, hfilter⟩ := retired_iff_finished .default 7 (by decide) _ (cleared 0) hcleared
    (by decide) (by decide)
  have hbid : (pending 0).manager.orders (.buy, 0) = some
      ⟨formatClOrdId "mm_TEST-USD_7" 0 0 1, none, .buy, 0, 99, 1, .pending, 0, 0⟩ := rfl
  exact ((hfilter appCleared (by decide) rfl).1 bidAndPause [] (pending 0) (.buy, 0) _ rfl
    hpending hbid 5 "" (App.atSecond 1)).1

/-- **The generation wraps.**  A bid placed after `2 ^ 64 - 1` bumps is cleared by a reconciliation
    whose own pause brings the generation back to zero: its id is not retired. -/
theorem retired_missed :
    Runs.exec step (.new .default 7)
      ((List.replicate (size - 1) toggle).flatten ++ (bidAndPause ++ [.finishReconciliation]))
      = some (cleared (size - 1)) ∧
    (cleared (size - 1)).finished = 1 ∧
    ⟨formatClOrdId "mm_TEST-USD_7" 0 (size - 1) 1, 0⟩ ∈ (cleared (size - 1)).issued ∧
    (cleared (size - 1)).manager.isRetiredClientId (formatClOrdId "mm_TEST-USD_7" 0 (size - 1) 1)
      = false := by
  have hlast : (size - 1) % size = size - 1 := by decide
  refine ⟨?_, rfl, ?_, ?_⟩
  · rw [Runs.exec_append, show Issuance.new .default 7 = afterToggles 0 from rfl,
      Runs.exec_replicate afterToggles_toggle, Option.bind_some, Nat.zero_add, afterToggles_cleared]
  · show _ ∈ [(⟨formatClOrdId "mm_TEST-USD_7" 0 ((size - 1) % size) 1, 0⟩ : IssuedId)]
    rw [hlast]
    exact List.mem_singleton_self _
  · have hformat := (cleared (size - 1)).manager.isRetiredClientId_format 0 1
      (show size - 1 < size by decide)
    rw [show (cleared (size - 1)).manager.sessionPrefix = "mm_TEST-USD_7" from rfl,
      cleared_retiredGeneration] at hformat
    rw [hformat]
    decide

end OrderManager

end MarketMaker
