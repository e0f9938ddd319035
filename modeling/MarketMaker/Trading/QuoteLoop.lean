import MarketMaker.Base.Visits
import MarketMaker.Trading.Headroom

/-!
# The quote loop, slot by slot

A visit of the level loop writes its own slot only, so `on_quote_into` can be read slot by slot:
`emissions` lists its decisions with the slots they are emitted at, and `SlotEffect` says what the
call did to one slot and what it emitted there.

* `onQuoteInto_decisions` — the decisions are the emissions, without their slots.
* `onQuoteInto_effect` — one `SlotEffect` for every slot.
* `placed_ids_ne` — the orders one call places have different client ids.
-/

set_option autoImplicit false

namespace MarketMaker.OrderManager

open Word64

/-! ## Visits -/

theorem sweep_eq_visits (f : OrderManager → Slot → OrderManager × Option OrderDecision) (m : OrderManager)
    (is : List Slot) : sweep f m is = (Visits.after f m is, (Visits.emissions f m is).map Prod.snd) := by
  induction is generalizing m with
  | nil => rfl
  | cons i is ih => simp [sweep, Visits.after, Visits.emissions, ih]

theorem LevelOutcome.orders_of_ne {m : OrderManager} {t : QuoteTerms} {now : Int} {i j : Slot}
    {r : OrderManager × Option OrderDecision} (h : LevelOutcome m t now i r) (hj : j ≠ i) :
    r.1.orders j = m.orders j := by
  cases h with
  | keep => rfl
  | cancel o _ _ => exact Function.update_of_ne hj _ _
  | replace o _ _ _ _ => exact Function.update_of_ne hj _ _
  | place price _ _ _ => exact Function.update_of_ne hj _ _

theorem quoteLevel_local (t : QuoteTerms) (now : Int) :
    Visits.Local (fun m i => quoteLevel m t now i) OrderManager.orders := fun m i _ hj =>
  (m.quoteLevel_outcome t now i).orders_of_ne hj

theorem cancelSlot_local (now : Int) : Visits.Local (cancelSlot now) OrderManager.orders :=
  fun m i _ hj =>
  (cancelSlot_outcome m ⟨fun _ => none, 0, 0, 0, 0, 0⟩ now i).orders_of_ne hj

theorem slotsBySide_nodup : slotsBySide.Nodup := by decide

theorem quotedSlots_nodup (m : OrderManager) (quote : Quote) : (m.quotedSlots quote).Nodup := by
  have hlevels : ((List.finRange MAX_ORDER_LEVELS).take (min m.config.numLevels quote.numLevels)).Nodup :=
    (List.nodup_finRange _).sublist (List.take_sublist _ _)
  have hside : ∀ side : Side, (((List.finRange MAX_ORDER_LEVELS).take
      (min m.config.numLevels quote.numLevels)).map fun level => ((side, level) : Slot)).Nodup :=
    fun side => hlevels.map fun _ _ h => congrArg Prod.snd h
  unfold quotedSlots
  simp only [List.flatMap_cons, List.flatMap_nil, List.append_nil]
  refine (hside .buy).append (hside .sell) fun i hbuy hsell => ?_
  obtain ⟨_, _, rfl⟩ := List.mem_map.mp hbuy
  obtain ⟨_, _, h⟩ := List.mem_map.mp hsell
  cases congrArg Prod.fst h

/-! ## The call -/

/-- What the checks of `on_quote_into` before the loop decide. -/
inductive QuoteGate where
  | closed
  | invalidLimit
  | quoted (mid quantity baseline : ℚ)

/-- The checks of `on_quote_into` before the loop. -/
def quoteGate (m : OrderManager) (limit : ℚ) (quote : Quote) : QuoteGate :=
  if m.execution.shutdown || m.execution.pauseReasons != 0#8 then .closed
  else if !quote.validForTrading then .closed
  else match quote.midPrice, quote.quantity with
    | some mid, some quantity =>
      if mid ≤ 0 ∨ quantity ≤ 0 then .closed
      else if limit ≤ 0 then .invalidLimit
      else match m.limitBaseline with
        | none => .closed
        | some baseline => .quoted mid quantity baseline
    | _, _ => .closed

/-- The call after the checks. -/
theorem onQuoteInto_eq (m : OrderManager) (position limit : ℚ) (quote : Quote) (now : Int) :
    m.onQuoteInto position limit quote now = match m.quoteGate limit quote with
      | .closed => (m, [])
      | .invalidLimit => (m.setPauseReason .riskData).cancelExposure now
      | .quoted mid quantity baseline =>
        sweep (fun m => m.quoteLevel ⟨quote.price, quantity, mid, position, limit, baseline⟩ now) m
          (m.quotedSlots quote) := by
  unfold onQuoteInto quoteGate
  cases quote.midPrice with
  | none => split_ifs <;> rfl
  | some mid =>
    cases quote.quantity with
    | none => split_ifs <;> rfl
    | some quantity => cases m.limitBaseline <;> dsimp only <;> split_ifs <;> rfl

/-- An unusable limit sets `RiskData`, and no other quote touches the pause state. -/
theorem onQuoteInto_execution_invalidLimit {m : OrderManager} {limit : ℚ} {quote : Quote}
    (hgate : m.quoteGate limit quote = .invalidLimit) (position : ℚ) (now : Int) :
    (m.onQuoteInto position limit quote now).1.execution = m.execution.setPauseReason .riskData := by
  rw [onQuoteInto_eq, hgate]
  refine sweep_rule (I := fun m' _ => m'.execution = m.execution.setPauseReason .riskData) ?_ slotsBySide rfl
  intro m' ds i h
  exact ((cancelSlot_outcome m' ⟨fun _ => none, 0, 0, 0, 0, 0⟩ now i).execution).trans h

theorem onQuoteInto_execution_of_ne {m : OrderManager} {limit : ℚ} {quote : Quote}
    (hgate : m.quoteGate limit quote ≠ .invalidLimit) (position : ℚ) (now : Int) :
    (m.onQuoteInto position limit quote now).1.execution = m.execution := by
  rw [onQuoteInto_eq]
  cases h : m.quoteGate limit quote with
  | closed => rfl
  | invalidLimit => exact absurd h hgate
  | quoted mid quantity baseline =>
    refine sweep_rule (I := fun m' _ => m'.execution = m.execution) ?_ (m.quotedSlots quote) rfl
    intro m' ds i h
    exact (m'.quoteLevel_outcome _ now i).execution.trans h

/-- The decisions of `on_quote_into` with the slots they are emitted at. -/
def emissions (m : OrderManager) (position limit : ℚ) (quote : Quote) (now : Int) :
    List (Slot × OrderDecision) :=
  match m.quoteGate limit quote with
  | .closed => []
  | .invalidLimit => Visits.emissions (cancelSlot now) (m.setPauseReason .riskData) slotsBySide
  | .quoted mid quantity baseline =>
    Visits.emissions
      (fun m => m.quoteLevel ⟨quote.price, quantity, mid, position, limit, baseline⟩ now) m
      (m.quotedSlots quote)

theorem onQuoteInto_decisions (m : OrderManager) (position limit : ℚ) (quote : Quote) (now : Int) :
    (m.onQuoteInto position limit quote now).2 = (m.emissions position limit quote now).map Prod.snd := by
  rw [onQuoteInto_eq, emissions]
  cases m.quoteGate limit quote with
  | closed => rfl
  | invalidLimit => exact congrArg Prod.snd (sweep_eq_visits _ _ _)
  | quoted mid quantity baseline => exact congrArg Prod.snd (sweep_eq_visits _ _ _)

/-- What is emitted at one slot. -/
def emittedAt (m : OrderManager) (position limit : ℚ) (quote : Quote) (now : Int) (i : Slot) :
    List OrderDecision :=
  ((m.emissions position limit quote now).filter fun e => decide (e.1 = i)).map Prod.snd

/-! ## One slot -/

/-- What a call does to one slot: the order before, the order after and what is emitted there. -/
inductive SlotEffect (now : Int) (i : Slot) :
    Option LiveOrder → Option LiveOrder → List OrderDecision → Prop
  | keep (x : Option LiveOrder) : SlotEffect now i x x []
  | cancel (o : LiveOrder) : o.state ≠ .canceling →
      SlotEffect now i (some o) (some (o.beginCancel now)) [.cancel o.clOrdId]
  | replace (o : LiveOrder) (price qty : ℚ) : o.state = .live →
      SlotEffect now i (some o) (some (o.beginCancel now)) [.cancelAndReplace o.clOrdId i.2 price qty]
  | place (o : LiveOrder) (price qty : ℚ) : o.sentAtNs = now →
      SlotEffect now i none (some o) [.send i.1 i.2 price qty o.clOrdId]

theorem LevelOutcome.effect {m : OrderManager} {t : QuoteTerms} {now : Int} {i : Slot}
    {r : OrderManager × Option OrderDecision} (h : LevelOutcome m t now i r) :
    SlotEffect now i (m.orders i) (r.1.orders i) r.2.toList := by
  cases h with
  | keep => exact .keep _
  | cancel o ho hs =>
    rw [setOrderCanceling_some now ho, if_pos rfl, ho]
    exact .cancel o hs
  | replace o price qty ho hs =>
    have hafter : (m.repriceOrder i now).orders i = some (o.beginCancel now) := by
      rw [show (m.repriceOrder i now).orders = (m.setOrderCanceling i now).orders from rfl,
        setOrderCanceling_some now ho, if_pos rfl]
    rw [hafter, ho]
    exact .replace o price qty hs
  | place price hnone _ _ =>
    rw [placeOrder_orders, Function.update_self, hnone]
    exact .place _ _ _ rfl

theorem sweep_effect {f : OrderManager → Slot → OrderManager × Option OrderDecision} {now : Int}
    {is : List Slot} (hf : ∀ m i, ∃ t, LevelOutcome m t now i (f m i)) (hnodup : is.Nodup)
    (m : OrderManager) (i : Slot) :
    SlotEffect now i (m.orders i) ((sweep f m is).1.orders i)
      (((Visits.emissions f m is).filter fun e => decide (e.1 = i)).map Prod.snd) := by
  have hlocal : Visits.Local f OrderManager.orders := by
    intro m i j hj
    obtain ⟨t, ht⟩ := hf m i
    exact ht.orders_of_ne hj
  rw [sweep_eq_visits]
  by_cases hi : i ∈ is
  · obtain ⟨t, ht⟩ := hf (Visits.before f m is i) i
    have hvisit := ht.effect
    rw [Visits.get_before hlocal] at hvisit
    have hemitted : (((Visits.emissions f m is).filter fun e => decide (e.1 = i)).map Prod.snd) =
        (f (Visits.before f m is i) i).2.toList := by
      rw [Visits.emissions_at hnodup hi]
      simp
    rw [hemitted]
    dsimp only
    rwa [Visits.get_after hlocal hnodup hi]
  · rw [Visits.emissions_of_not_mem hi]
    dsimp only
    rw [Visits.get_after_of_not_mem hlocal hi]
    exact .keep _

/-- **One slot of a quote.** -/
theorem onQuoteInto_effect (m : OrderManager) (position limit : ℚ) (quote : Quote) (now : Int)
    (i : Slot) :
    SlotEffect now i (m.orders i) ((m.onQuoteInto position limit quote now).1.orders i)
      (m.emittedAt position limit quote now i) := by
  rw [onQuoteInto_eq, emittedAt, emissions]
  cases m.quoteGate limit quote with
  | closed => exact .keep _
  | invalidLimit =>
    exact sweep_effect (fun m i => ⟨_, cancelSlot_outcome m ⟨fun _ => none, 0, 0, 0, 0, 0⟩ now i⟩)
      slotsBySide_nodup (m.setPauseReason .riskData) i
  | quoted mid quantity baseline =>
    exact sweep_effect (fun m i => ⟨_, m.quoteLevel_outcome _ now i⟩) (m.quotedSlots_nodup quote) m i

theorem mem_emittedAt {m : OrderManager} {position limit : ℚ} {quote : Quote} {now : Int} {i : Slot}
    {d : OrderDecision} (h : (i, d) ∈ m.emissions position limit quote now) :
    d ∈ m.emittedAt position limit quote now i :=
  List.mem_map.mpr ⟨(i, d), List.mem_filter.mpr ⟨h, decide_eq_true rfl⟩, rfl⟩

/-- A Send names the slot it is emitted at. -/
theorem SlotEffect.slot_of_send {now : Int} {i : Slot} {x y : Option LiveOrder} {ds : List OrderDecision}
    (h : SlotEffect now i x y ds) {side : Side} {level : Level} {price qty : ℚ} {clOrdId : String}
    (hmem : .send side level price qty clOrdId ∈ ds) : i = (side, level) := by
  cases h with
  | keep => cases hmem
  | cancel o _ => simp at hmem
  | replace o _ _ _ => simp at hmem
  | place o price' qty' =>
    simp only [List.mem_singleton, OrderDecision.send.injEq] at hmem
    exact Prod.ext hmem.1.symm hmem.2.1.symm

/-- The slots of the emissions are different. -/
theorem emissions_slots_nodup (m : OrderManager) (position limit : ℚ) (quote : Quote) (now : Int) :
    ((m.emissions position limit quote now).map Prod.fst).Nodup := by
  unfold emissions
  cases m.quoteGate limit quote with
  | closed => exact List.nodup_nil
  | invalidLimit => exact slotsBySide_nodup.sublist (Visits.emissions_indices _ _)
  | quoted mid quantity baseline => exact (m.quotedSlots_nodup quote).sublist (Visits.emissions_indices _ _)

/-! ## The ids of one call -/

/-- The sequence number after `k` Sends. -/
def sequenceNumber (counter k : Nat) : Nat := if k = 0 then counter else (counter + k) % size

theorem sequenceNumber_succ (counter k : Nat) :
    wrappingAdd (sequenceNumber counter k) 1 = sequenceNumber counter (k + 1) := by
  unfold sequenceNumber wrappingAdd
  cases k with
  | zero => rfl
  | succ k => simp [Nat.add_assoc]

theorem sequenceNumber_ne {counter j k : Nat} (hjk : j < k) (hk : k < size) :
    sequenceNumber counter j ≠ sequenceNumber counter k := by
  unfold sequenceNumber
  unfold size at *
  split <;> split <;> omega

/-- The orders placed since `m₀` carry different numbers below the counter, after at most `n` Sends. -/
def PlacedApart (m₀ : OrderManager) (n : Nat) (m : OrderManager) : Prop :=
  n ≤ size → ∃ k ≤ n, m.clOrdIdCounter = sequenceNumber m₀.clOrdIdCounter k ∧
    (∀ i o, m.orders i = some o → m₀.orders i = none → ∃ j < k, ∃ session level generation,
      o.clOrdId = formatClOrdId session level generation (sequenceNumber m₀.clOrdIdCounter j)) ∧
    ∀ i j oi oj, m.orders i = some oi → m.orders j = some oj → m₀.orders i = none → m₀.orders j = none →
      oi.clOrdId = oj.clOrdId → i = j

theorem placedApart_self (m : OrderManager) : PlacedApart m 0 m := fun _ =>
  ⟨0, Nat.le_refl 0, rfl, fun _ _ ho hnone => absurd (hnone.symm.trans ho) nofun,
    fun _ _ _ _ ho _ hnone _ _ => absurd (hnone.symm.trans ho) nofun⟩

/-- A visit that keeps the counter and gives no slot a new client id. -/
theorem PlacedApart.kept {m₀ m m' : OrderManager} {n : Nat} (h : PlacedApart m₀ n m)
    (hcounter : m'.clOrdIdCounter = m.clOrdIdCounter)
    (horders : ∀ i o', m'.orders i = some o' → ∃ o, m.orders i = some o ∧ o.clOrdId = o'.clOrdId) :
    PlacedApart m₀ (n + 1) m' := by
  intro hn
  obtain ⟨k, hk, hnumber, hissued, hapart⟩ := h (by omega)
  refine ⟨k, by omega, hcounter.trans hnumber, fun i o' ho' hnone => ?_,
    fun i j oi' oj' hi' hj' hni hnj heq => ?_⟩
  · obtain ⟨o, ho, hid⟩ := horders i o' ho'
    rw [← hid]
    exact hissued i o ho hnone
  · obtain ⟨oi, hi, hidi⟩ := horders i oi' hi'
    obtain ⟨oj, hj, hidj⟩ := horders j oj' hj'
    exact hapart i j oi oj hi hj hni hnj (hidi.trans (heq.trans hidj.symm))

theorem setOrderCanceling_ids {m : OrderManager} {i j : Slot} {o' : LiveOrder} {now : Int}
    (h : (m.setOrderCanceling i now).orders j = some o') :
    ∃ o, m.orders j = some o ∧ o.clOrdId = o'.clOrdId := by
  cases ho : m.orders j with
  | none => exact absurd (((setOrderCanceling_none_iff m i j now).mpr ho).symm.trans h) nofun
  | some o =>
    rw [setOrderCanceling_some now ho] at h
    refine ⟨o, rfl, ?_⟩
    rw [← Option.some.inj h]
    split <;> rfl

theorem PlacedApart.visit {m₀ m : OrderManager} {t : QuoteTerms} {now : Int} {i : Slot} {n : Nat}
    {r : OrderManager × Option OrderDecision} (h : PlacedApart m₀ n m) (hr : LevelOutcome m t now i r) :
    PlacedApart m₀ (n + 1) r.1 := by
  cases hr with
  | keep => exact h.kept rfl fun j o ho => ⟨o, ho, rfl⟩
  | cancel o _ _ => exact h.kept rfl fun j o' ho' => setOrderCanceling_ids ho'
  | replace o _ _ _ _ =>
    refine h.kept rfl fun j o' ho' => ?_
    rw [show (m.repriceOrder i now).orders = (m.setOrderCanceling i now).orders from rfl] at ho'
    exact setOrderCanceling_ids ho'
  | place price hnone _ _ =>
    intro hn
    obtain ⟨k, hk, hnumber, hissued, hapart⟩ := h (by omega)
    have slot : ∀ {j oj}, (m.placeOrder i price (permittedQty m.config (m.budget t i) price t.mid t.quantity)
        now).1.orders j = some oj → (j = i ∧ oj.clOrdId = (m.generateClOrdId i.2).1) ∨
        (j ≠ i ∧ m.orders j = some oj) := by
      intro j oj hj
      rw [placeOrder_orders] at hj
      by_cases hji : j = i
      · subst hji
        rw [Function.update_self] at hj
        exact Or.inl ⟨rfl, by rw [← Option.some.inj hj]⟩
      · rw [Function.update_of_ne hji] at hj
        exact Or.inr ⟨hji, hj⟩
    have hid : (m.generateClOrdId i.2).1 = formatClOrdId m.sessionPrefix i.2 m.execution.generation
        (sequenceNumber m₀.clOrdIdCounter k) := by
      rw [generateClOrdId, hnumber]
    -- the orders placed before carry smaller numbers
    have fresh : ∀ j oj, m.orders j = some oj → m₀.orders j = none →
        oj.clOrdId ≠ (m.generateClOrdId i.2).1 := by
      intro j oj hj hnone' heq
      obtain ⟨l, hl, session, level, generation, hissued⟩ := hissued j oj hj hnone'
      rw [hissued, hid] at heq
      exact sequenceNumber_ne hl (by omega) (Text.last_number_inj heq)
    refine ⟨k + 1, by omega, ?_, fun j oj hj hnone' => ?_, fun j l oj ol hj hl hnj hnl heq => ?_⟩
    · show wrappingAdd m.clOrdIdCounter 1 = _
      rw [hnumber, sequenceNumber_succ]
    · rcases slot hj with ⟨rfl, hnew⟩ | ⟨_, hold⟩
      · exact ⟨k, by omega, _, _, _, hnew.trans hid⟩
      · obtain ⟨l, hl, hissued⟩ := hissued j oj hold hnone'
        exact ⟨l, by omega, hissued⟩
    · rcases slot hj with ⟨rfl, hnewj⟩ | ⟨_, holdj⟩ <;> rcases slot hl with ⟨rfl, hnewl⟩ | ⟨_, holdl⟩
      · rfl
      · exact absurd (heq.symm.trans hnewj) (fresh l ol holdl hnl)
      · exact absurd (heq.trans hnewl) (fresh j oj holdj hnj)
      · exact hapart j l oj ol holdj holdl hnj hnl heq

/-- The orders one call places carry different client ids. -/
theorem placed_ids_ne (m : OrderManager) (position limit : ℚ) (quote : Quote) (now : Int) {i j : Slot}
    {oi oj : LiveOrder} (hi : (m.onQuoteInto position limit quote now).1.orders i = some oi)
    (hj : (m.onQuoteInto position limit quote now).1.orders j = some oj) (hni : m.orders i = none)
    (hnj : m.orders j = none) (heq : oi.clOrdId = oj.clOrdId) : i = j := by
  rw [onQuoteInto_eq] at hi hj
  cases hgate : m.quoteGate limit quote with
  | closed =>
    rw [hgate] at hi
    exact absurd (hni.symm.trans hi) nofun
  | invalidLimit =>
    rw [hgate] at hi hj
    dsimp only [cancelExposure] at hi hj
    rw [sweep_eq_visits] at hi hj
    have hapart : PlacedApart (m.setPauseReason .riskData) (0 + 4) _ := Visits.after_counted slotsBySide
      (fun n m' i _ h => h.visit (cancelSlot_outcome m' ⟨fun _ => none, 0, 0, 0, 0, 0⟩ now i))
      (placedApart_self (m.setPauseReason .riskData))
    obtain ⟨_, _, _, _, hne⟩ := hapart (by decide)
    exact hne i j oi oj hi hj hni hnj heq
  | quoted mid quantity baseline =>
    rw [hgate] at hi hj
    dsimp only at hi hj
    rw [sweep_eq_visits] at hi hj
    have hapart := Visits.after_counted (I := PlacedApart m) (m.quotedSlots quote)
      (fun n m' i _ h => h.visit (m'.quoteLevel_outcome ⟨quote.price, quantity, mid, position, limit, baseline⟩
        now i)) (placedApart_self m)
    have hlength : 0 + (m.quotedSlots quote).length ≤ size := by
      have hcard := (m.quotedSlots_nodup quote).length_le_card
      have : Fintype.card Slot = 4 := by decide
      unfold size
      omega
    obtain ⟨_, _, _, _, hne⟩ := hapart hlength
    exact hne i j oi oj hi hj hni hnj heq

/-! ## When the loop runs -/

/-- The checks of `on_quote_into` pass, but for the sign of the quantity, and every price the loop reads
    is finite and positive. -/
structure Quotable (m : OrderManager) (limit : ℚ) (quote : Quote) (mid quantity baseline : ℚ) : Prop where
  unpaused : m.Unpaused
  valid : quote.validForTrading = true
  midPrice_eq : quote.midPrice = some mid
  mid_pos : 0 < mid
  quantity_eq : quote.quantity = some quantity
  limit_pos : 0 < limit
  limitBaseline_eq : m.limitBaseline = some baseline
  prices : ∀ i ∈ m.quotedSlots quote, ∃ price, quote.price i = some price ∧ 0 < price

/-- What the loop is given. -/
abbrev loopTerms (quote : Quote) (mid quantity position limit baseline : ℚ) : QuoteTerms :=
  ⟨quote.price, quantity, mid, position, limit, baseline⟩

/-- The manager when the loop comes to a slot. -/
def reached (m : OrderManager) (quote : Quote) (t : QuoteTerms) (now : Int) (i : Slot) : OrderManager :=
  Visits.before (fun m => m.quoteLevel t now) m (m.quotedSlots quote) i

/-- The loop comes to a slot as the call found it. -/
theorem reached_orders (m : OrderManager) (quote : Quote) (t : QuoteTerms) (now : Int) (i : Slot) :
    (m.reached quote t now i).orders i = m.orders i :=
  Visits.get_before (quoteLevel_local t now) m (m.quotedSlots quote) i

theorem LevelOutcome.config {m : OrderManager} {t : QuoteTerms} {now : Int} {i : Slot}
    {r : OrderManager × Option OrderDecision} (h : LevelOutcome m t now i r) : r.1.config = m.config := by
  cases h <;> rfl

theorem LevelOutcome.positionBaseline {m : OrderManager} {t : QuoteTerms} {now : Int} {i : Slot}
    {r : OrderManager × Option OrderDecision} (h : LevelOutcome m t now i r) :
    r.1.positionBaseline = m.positionBaseline := by
  cases h <;> rfl

theorem reached_config (m : OrderManager) (quote : Quote) (t : QuoteTerms) (now : Int) (i : Slot) :
    (m.reached quote t now i).config = m.config :=
  Visits.before_invariant (I := fun m' : OrderManager => m'.config = m.config) (m.quotedSlots quote)
    (fun m' j _ hm' => (m'.quoteLevel_outcome t now j).config.trans hm') rfl i

/-- What the visit of a slot did is what the call did there. -/
theorem visited_of_gate {m : OrderManager} {limit mid quantity baseline : ℚ} {quote : Quote}
    (hgate : m.quoteGate limit quote = .quoted mid quantity baseline) {i : Slot}
    (hi : i ∈ m.quotedSlots quote) (position : ℚ) (now : Int) {t : QuoteTerms}
    (ht : t = loopTerms quote mid quantity position limit baseline) :
    (m.onQuoteInto position limit quote now).1.orders i =
        ((m.reached quote t now i).quoteLevel t now i).1.orders i ∧
      m.emittedAt position limit quote now i = ((m.reached quote t now i).quoteLevel t now i).2.toList := by
  have hlocal := quoteLevel_local t now
  have hnodup := m.quotedSlots_nodup quote
  subst ht
  constructor
  · rw [onQuoteInto_eq, hgate]
    dsimp only
    rw [sweep_eq_visits]
    exact Visits.get_after hlocal hnodup hi m
  · rw [emittedAt, emissions, hgate]
    dsimp only
    rw [Visits.emissions_at hnodup hi, List.map_map]
    exact List.map_id _

/-- Nothing happens at a slot the loop does not visit. -/
theorem unvisited_of_gate {m : OrderManager} {limit mid quantity baseline : ℚ} {quote : Quote}
    (hgate : m.quoteGate limit quote = .quoted mid quantity baseline) {i : Slot}
    (hi : i ∉ m.quotedSlots quote) (position : ℚ) (now : Int) :
    (m.onQuoteInto position limit quote now).1.orders i = m.orders i ∧
      m.emittedAt position limit quote now i = [] := by
  rw [onQuoteInto_eq, emittedAt, emissions, hgate]
  dsimp only
  rw [sweep_eq_visits, Visits.emissions_of_not_mem hi]
  exact ⟨Visits.get_after_of_not_mem (quoteLevel_local _ now) hi m, rfl⟩

section Loop

variable {m : OrderManager} {limit mid quantity baseline : ℚ} {quote : Quote} {i : Slot}

theorem Quotable.gate (h : Quotable m limit quote mid quantity baseline) (hq : 0 < quantity) :
    m.quoteGate limit quote = .quoted mid quantity baseline := by
  have hpositive : ¬ (mid ≤ 0 ∨ quantity ≤ 0) := not_or.mpr ⟨not_le.mpr h.mid_pos, not_le.mpr hq⟩
  unfold quoteGate
  simp [h.unpaused.1, h.unpaused.2, h.valid, h.midPrice_eq, h.quantity_eq, hpositive,
    not_le.mpr h.limit_pos, h.limitBaseline_eq]

/-- A visited slot: what its visit did is what the call did. -/
theorem Quotable.visited (h : Quotable m limit quote mid quantity baseline) (hq : 0 < quantity)
    (hi : i ∈ m.quotedSlots quote) (position : ℚ) (now : Int) {t : QuoteTerms}
    (ht : t = loopTerms quote mid quantity position limit baseline) :
    (m.onQuoteInto position limit quote now).1.orders i =
        ((m.reached quote t now i).quoteLevel t now i).1.orders i ∧
      m.emittedAt position limit quote now i = ((m.reached quote t now i).quoteLevel t now i).2.toList :=
  visited_of_gate (h.gate hq) hi position now ht

theorem Quotable.unvisited (h : Quotable m limit quote mid quantity baseline) (hq : 0 < quantity)
    (hi : i ∉ m.quotedSlots quote) (position : ℚ) (now : Int) :
    (m.onQuoteInto position limit quote now).1.orders i = m.orders i ∧
      m.emittedAt position limit quote now i = [] :=
  unvisited_of_gate (h.gate hq) hi position now

/-- What the checks read is as it was. -/
theorem Quotable.after (h : Quotable m limit quote mid quantity baseline) (hq : 0 < quantity)
    (position : ℚ) (now : Int) :
    (m.onQuoteInto position limit quote now).1.config = m.config ∧
    Quotable (m.onQuoteInto position limit quote now).1 limit quote mid quantity baseline := by
  rw [onQuoteInto_eq, h.gate hq]
  dsimp only
  rw [sweep_eq_visits]
  obtain ⟨hconfig, hexecution, hbaseline⟩ := Visits.after_invariant
    (I := fun m' : OrderManager => m'.config = m.config ∧ m'.execution = m.execution ∧
      m'.positionBaseline = m.positionBaseline) (m.quotedSlots quote)
    (fun m' i _ hm' => by
      have houtcome := m'.quoteLevel_outcome (loopTerms quote mid quantity position limit baseline) now i
      exact ⟨houtcome.config.trans hm'.1, houtcome.execution.trans hm'.2.1,
        houtcome.positionBaseline.trans hm'.2.2⟩)
    (s := m) ⟨rfl, rfl, rfl⟩
  refine ⟨hconfig, ?_, h.valid, h.midPrice_eq, h.mid_pos, h.quantity_eq, h.limit_pos, ?_, ?_⟩
  · rw [Unpaused, hexecution]
    exact h.unpaused
  · rw [limitBaseline, hconfig, hbaseline]
    exact h.limitBaseline_eq
  · rw [quotedSlots, hconfig]
    exact h.prices

end Loop

end MarketMaker.OrderManager
