import MarketMaker.Base.Run
import MarketMaker.Trading.Operations

/-!
# The life of an order in its slot

## Results

* `Tracked` — the invariant: slots, client ids and exchange ids identify each other, and every
  client id was issued by the counter.  `Tracked.apply` is its step lemma.
* `History.exec_keeps`, `History.exec_gone` — along a run an order stays until a terminal event
  of its own, and an id that left does not return.
* `slot_lifecycle` — with at most `2 ^ 64` Sends, tracked exposure is neither duplicated nor lost.
* `client_id_reused` — the `u64` in the id wraps: after `2 ^ 64` Sends an id comes back.
-/

set_option autoImplicit false

namespace MarketMaker.OrderManager

open Word64

/-! ## The invariant -/

/-- The id of the `k`-th Send of a session, counted from zero: the counter starts at 1 and wraps. -/
def issuedId (session : String) (level : Level) (generation k : Nat) : String :=
  formatClOrdId session level generation ((1 + k) % size)

/-- Fewer than `2 ^ 64` Sends have different ids. -/
theorem issuedId_inj {session session' : String} {level level' : Level}
    {generation generation' k k' : Nat} (hk : k < size) (hk' : k' < size)
    (h : issuedId session level generation k = issuedId session' level' generation' k') : k = k' := by
  have := Text.last_number_inj h
  unfold size at *
  omega

/-- Slots, client ids and exchange ids identify each other after `n` Sends. -/
structure Tracked (session : String) (n : Nat) (m : OrderManager) : Prop where
  ofSession : m.sessionPrefix = session
  counter : m.clOrdIdCounter = (1 + n) % size
  placed : ∀ i o, m.orders i = some o → o.side = i.1 ∧ o.level = i.2
  issued : ∀ i o, m.orders i = some o →
    ∃ k generation, k < n ∧ o.clOrdId = issuedId session i.2 generation k
  clOrdIds : ∀ i j oi oj, m.orders i = some oi → m.orders j = some oj →
    oi.clOrdId = oj.clOrdId → i = j
  exchangeIds : ∀ i j oi oj x, m.orders i = some oi → m.orders j = some oj →
    oi.orderId = some x → oj.orderId = some x → i = j
  nonzero : m.ExchangeIdsNonzero

theorem tracked_new (config : OrderManagerConfig) (startMs : Int) :
    Tracked (new config startMs).sessionPrefix 0 (new config startMs) := by
  refine ⟨rfl, rfl, ?_, ?_, ?_, ?_, ?_⟩ <;> intro <;> simp_all [new]

/-- An order after an event was there before, on the same terms. -/
theorem SlotFate.origin {m : OrderManager} {op : Operation} {x : Option LiveOrder} {o' : LiveOrder}
    (h : SlotFate m op (fun _ => False) x (some o')) :
    ∃ o, x = some o ∧ SameTerms o o' ∧ (o'.orderId = o.orderId ∨ ∃ x, NewBinding m op o o' x) := by
  cases h with
  | kept o _ hsame hid => exact ⟨o, rfl, hsame, hid⟩
  | placed _ hfresh => exact hfresh.elim

/-- What every slot's fate respects, the invariant respects. -/
theorem Tracked.of_fates {session : String} {n : Nat} {m m' : OrderManager} (op : Operation)
    (h : Tracked session n m) (hfate : ∀ i, SlotFate m op (fun _ => False) (m.orders i) (m'.orders i))
    (hcounter : m'.clOrdIdCounter = m.clOrdIdCounter) (hsession : m'.sessionPrefix = m.sessionPrefix) :
    Tracked session n m' := by
  have origin : ∀ {i o'}, m'.orders i = some o' → ∃ o, m.orders i = some o ∧ SameTerms o o' ∧
      (o'.orderId = o.orderId ∨ ∃ x, NewBinding m op o o' x) := fun {i o'} ho =>
    SlotFate.origin (ho ▸ hfate i)
  refine ⟨hsession.trans h.ofSession, hcounter.trans h.counter, ?_, ?_, ?_, ?_, ?_⟩
  · intro i o' ho'
    obtain ⟨o, ho, hsame, _⟩ := origin ho'
    rw [hsame.side, hsame.level]
    exact h.placed i o ho
  · intro i o' ho'
    obtain ⟨o, ho, hsame, _⟩ := origin ho'
    rw [hsame.clOrdId]
    exact h.issued i o ho
  · intro i j oi' oj' hi' hj' heq
    obtain ⟨oi, hi, hsi, _⟩ := origin hi'
    obtain ⟨oj, hj, hsj, _⟩ := origin hj'
    exact h.clOrdIds i j oi oj hi hj (by rw [← hsi.clOrdId, heq, hsj.clOrdId])
  · intro i j oi' oj' x hi' hj' hxi hxj
    obtain ⟨oi, hi, hsi, hbi⟩ := origin hi'
    obtain ⟨oj, hj, hsj, hbj⟩ := origin hj'
    rcases hbi with hbi | ⟨y, hbi⟩
    · rcases hbj with hbj | ⟨y, hbj⟩
      · exact h.exchangeIds i j oi oj x hi hj (hbi ▸ hxi) (hbj ▸ hxj)
      · -- `j` was newly bound to `x`, which `i` already carried: they have one client id
        obtain rfl : y = x := Option.some.inj (hbj.bound.symm.trans hxj)
        exact h.clOrdIds i j oi oj hi hj (hbj.onlyId i oi hi (hbi ▸ hxi))
    · obtain rfl : y = x := Option.some.inj (hbi.bound.symm.trans hxi)
      rcases hbj with hbj | ⟨z, hbj⟩
      · exact (h.clOrdIds j i oj oi hj hi (hbi.onlyId j oj hj (hbj ▸ hxj))).symm
      · have := hbi.accepted.symm.trans hbj.accepted
        injection this with hcl _
        exact h.clOrdIds i j oi oj hi hj hcl
  · intro i o' ho' hzero
    obtain ⟨o, ho, _, hid | ⟨y, hbind⟩⟩ := origin ho'
    · exact h.nonzero i o ho (hid ▸ hzero)
    · exact hbind.nonzero (Option.some.inj (hbind.bound.symm.trans hzero))

/-! ## Quotes -/

theorem Tracked.congr {session : String} {n : Nat} {m m' : OrderManager} (h : Tracked session n m)
    (hframe : SlotFrame m m') : Tracked session n m' :=
  h.of_fates .shutdown (fun _ => hframe.orders ▸ .same ..) hframe.counter hframe.session

theorem Tracked.setOrderCanceling {session : String} {n : Nat} {m : OrderManager}
    (h : Tracked session n m) (i : Slot) (now : Int) : Tracked session n (m.setOrderCanceling i now) :=
  h.of_fates .shutdown
    (modifySlot_fate (f := fun o => o.beginCancel now) _ i rfl (fun _ => ⟨rfl, rfl, rfl, rfl, rfl⟩)
      fun _ => rfl) rfl rfl

/-- A placed order carries the next id, which no earlier order carries. -/
theorem Tracked.placeOrder {session : String} {n : Nat} {m : OrderManager} (h : Tracked session n m)
    (hn : n + 1 ≤ size) {i : Slot} (price qty : ℚ) (now : Int) :
    Tracked session (n + 1) (m.placeOrder i price qty now).1 := by
  have hid : (m.generateClOrdId i.2).1 = issuedId session i.2 m.execution.generation n := by
    simp only [generateClOrdId, issuedId, h.ofSession, h.counter]
  have slot : ∀ {j oj}, (m.placeOrder i price qty now).1.orders j = some oj →
      (j = i ∧ oj = ⟨issuedId session i.2 m.execution.generation n, none, i.1, i.2, price, qty,
        .pending, now, 0⟩) ∨ (j ≠ i ∧ m.orders j = some oj) := by
    intro j oj hj
    rw [placeOrder_orders, hid] at hj
    by_cases hji : j = i
    · subst hji
      rw [Function.update_self] at hj
      exact Or.inl ⟨rfl, (Option.some.inj hj).symm⟩
    · rw [Function.update_of_ne hji] at hj
      exact Or.inr ⟨hji, hj⟩
  -- ids issued earlier have a smaller index
  have fresh : ∀ j oj, m.orders j = some oj →
      oj.clOrdId ≠ issuedId session i.2 m.execution.generation n := by
    intro j oj hj heq
    obtain ⟨k, generation, hk, hissued⟩ := h.issued j oj hj
    have := issuedId_inj (by omega) (by omega) (hissued.symm.trans heq)
    omega
  refine ⟨h.ofSession, ?_, ?_, ?_, ?_, ?_, ?_⟩
  · show wrappingAdd m.clOrdIdCounter 1 = _
    rw [h.counter, wrappingAdd, Nat.mod_add_mod, Nat.add_assoc]
  · intro j oj hj
    rcases slot hj with ⟨rfl, rfl⟩ | ⟨_, hj⟩
    · exact ⟨rfl, rfl⟩
    · exact h.placed j oj hj
  · intro j oj hj
    rcases slot hj with ⟨rfl, rfl⟩ | ⟨_, hj⟩
    · exact ⟨n, m.execution.generation, by omega, rfl⟩
    · obtain ⟨k, generation, hk, hissued⟩ := h.issued j oj hj
      exact ⟨k, generation, by omega, hissued⟩
  · intro j k oj ok hj hk heq
    rcases slot hj with ⟨rfl, rfl⟩ | ⟨_, hoj⟩ <;> rcases slot hk with ⟨rfl, rfl⟩ | ⟨_, hok⟩
    · rfl
    · exact absurd heq.symm (fresh k ok hok)
    · exact absurd heq (fresh j oj hoj)
    · exact h.clOrdIds j k oj ok hoj hok heq
  · intro j k oj ok x hj hk hxj hxk
    rcases slot hj with ⟨rfl, rfl⟩ | ⟨_, hoj⟩
    · cases hxj
    · rcases slot hk with ⟨rfl, rfl⟩ | ⟨_, hok⟩
      · cases hxk
      · exact h.exchangeIds j k oj ok x hoj hok hxj hxk
  · intro j oj hj
    rcases slot hj with ⟨rfl, rfl⟩ | ⟨_, hj⟩
    · simp
    · exact h.nonzero j oj hj

/-- What a slot of `m₀` has become in the course of a quote: its order is still there, and a
    cancel once begun stays begun. -/
def StillThere (o o' : LiveOrder) : Prop :=
  SameTerms o o' ∧ o'.orderId = o.orderId ∧ (o.state = .canceling → o'.state = .canceling)

theorem StillThere.refl (o : LiveOrder) : StillThere o o := ⟨.refl o, rfl, id⟩

theorem StillThere.beginCancel {o o' : LiveOrder} (h : StillThere o o') (now : Int) :
    StillThere o (o'.beginCancel now) :=
  ⟨h.1.trans ⟨rfl, rfl, rfl, rfl, rfl⟩, h.2.1, fun _ => rfl⟩

/-- The quote loop's invariant against the manager `m₀` the quote found. -/
structure LoopTracked (session : String) (n : Nat) (m₀ m : OrderManager) (ds : List OrderDecision) :
    Prop where
  tracked : Tracked session (n + sends ds) m
  kept : ∀ i o, m₀.orders i = some o → ∃ o', m.orders i = some o' ∧ StillThere o o'
  fresh : ∀ i o', m.orders i = some o' → m₀.orders i = none →
    ∃ k generation, n ≤ k ∧ k < n + sends ds ∧ o'.clOrdId = issuedId session i.2 generation k
  sent : ∀ side level price qty clOrdId, .send side level price qty clOrdId ∈ ds →
    m₀.orders (side, level) = none
  cancels : ∀ d ∈ ds, ∀ i o, m₀.orders i = some o → d.cancelOf = some o.clOrdId → o.state ≠ .canceling

/-- A cancel of the order in slot `i` is not a cancel of an order that was canceling before. -/
theorem LoopTracked.cancel_fresh {session : String} {n : Nat} {m₀ m : OrderManager}
    {ds : List OrderDecision} (h : LoopTracked session n m₀ m ds) {i j : Slot} {o oj : LiveOrder}
    (ho : m.orders i = some o) (hs : o.state ≠ .canceling) (hj : m₀.orders j = some oj)
    (hid : o.clOrdId = oj.clOrdId) : oj.state ≠ .canceling := by
  intro hcanceling
  obtain ⟨o', ho', hsame, _, hstate⟩ := h.kept j oj hj
  obtain rfl := h.tracked.clOrdIds i j o o' ho ho' (hid.trans hsame.clOrdId.symm)
  rw [ho] at ho'
  cases ho'
  exact hs (hstate hcanceling)

theorem LoopTracked.setOrderCanceling {session : String} {n : Nat} {m₀ m m' : OrderManager}
    {ds : List OrderDecision} {d : OrderDecision} {i : Slot} {o : LiveOrder} {now : Int}
    (h : LoopTracked session n m₀ m ds) (ho : m.orders i = some o) (hs : o.state ≠ .canceling)
    (hd : d.cancelOf = some o.clOrdId) (hnosend : d.isSend = false)
    (hframe : SlotFrame (m.setOrderCanceling i now) m') : LoopTracked session n m₀ m' (ds ++ [d]) := by
  have hcount : sends (ds ++ [d]) = sends ds := by simp [sends, hnosend]
  refine ⟨?_, ?_, ?_, ?_, ?_⟩
  · rw [hcount]
    exact (h.tracked.setOrderCanceling i now).congr hframe
  · intro j oj hj
    obtain ⟨o', ho', hstill⟩ := h.kept j oj hj
    refine ⟨_, by rw [hframe.orders]; exact setOrderCanceling_some now ho', ?_⟩
    split
    · exact hstill.beginCancel now
    · exact hstill
  · intro j o' hj hnone
    rw [hframe.orders] at hj
    obtain ⟨oj, hoj⟩ : ∃ oj, m.orders j = some oj := by
      cases hmj : m.orders j with
      | none => exact absurd ((setOrderCanceling_none_iff m i j now).mpr hmj) (by simp [hj])
      | some oj => exact ⟨oj, rfl⟩
    rw [setOrderCanceling_some now hoj, Option.some.injEq] at hj
    have := h.fresh j oj hoj hnone
    rw [← hj, hcount]
    split <;> exact this
  · intro side level price qty clOrdId hmem
    rcases List.mem_append.mp hmem with hmem | hmem
    · exact h.sent side level price qty clOrdId hmem
    · rw [List.mem_singleton] at hmem
      subst hmem
      cases hnosend
  · intro d' hd' j oj hj hid
    rcases List.mem_append.mp hd' with hd' | hd'
    · exact h.cancels d' hd' j oj hj hid
    · rw [List.mem_singleton] at hd'
      subst hd'
      exact h.cancel_fresh ho hs hj (Option.some.inj (hd.symm.trans hid))

/-- One visit of the level loop keeps the invariant, as long as the ids do not wrap. -/
theorem LoopTracked.step {session : String} {n : Nat} {m₀ m : OrderManager} {t : QuoteTerms}
    {ds : List OrderDecision} {now : Int} {i : Slot} {r : OrderManager × Option OrderDecision}
    (h : LoopTracked session n m₀ m ds) (hr : LevelOutcome m t now i r)
    (hn : n + sends (ds ++ r.2.toList) ≤ size) :
    LoopTracked session n m₀ r.1 (ds ++ r.2.toList) := by
  cases hr with
  | keep => simpa using h
  | cancel o ho hs => exact h.setOrderCanceling ho hs rfl rfl (.refl _)
  | replace o price qty ho hs =>
    exact h.setOrderCanceling ho (by simp [hs]) rfl rfl ⟨rfl, rfl, rfl⟩
  | place price hnone hprice hqty =>
    dsimp only at hn ⊢
    generalize permittedQty m.config (m.budget t i) price t.mid t.quantity = qty at hn hqty ⊢
    have hcount : sends (ds ++ (some (m.placeOrder i price qty now).2).toList) = sends ds + 1 := by
      simp [sends, placeOrder, OrderDecision.isSend]
    rw [hcount] at hn
    have hempty : m₀.orders i = none := by
      cases hi : m₀.orders i with
      | none => rfl
      | some o =>
        obtain ⟨o', ho', _⟩ := h.kept i o hi
        rw [hnone] at ho'; cases ho'
    refine ⟨?_, ?_, ?_, ?_, ?_⟩
    · rw [hcount]
      exact h.tracked.placeOrder (by omega) price qty now
    · intro j oj hj
      obtain ⟨o', ho', hstill⟩ := h.kept j oj hj
      have hji : j ≠ i := by
        rintro rfl
        rw [hempty] at hj; cases hj
      exact ⟨o', by rw [placeOrder_orders, Function.update_of_ne hji]; exact ho', hstill⟩
    · intro j o' hj hnone'
      rw [placeOrder_orders] at hj
      by_cases hji : j = i
      · subst hji
        rw [Function.update_self, Option.some.injEq] at hj
        refine ⟨n + sends ds, m.execution.generation, by omega, by omega, ?_⟩
        rw [← hj]
        simp only [generateClOrdId, issuedId, h.tracked.ofSession, h.tracked.counter]
      · rw [Function.update_of_ne hji] at hj
        obtain ⟨k, generation, hle, hlt, hid⟩ := h.fresh j o' hj hnone'
        exact ⟨k, generation, hle, by omega, hid⟩
    · intro side level price' qty' clOrdId hmem
      rcases List.mem_append.mp hmem with hmem | hmem
      · exact h.sent side level price' qty' clOrdId hmem
      · simp only [placeOrder, Option.toList_some, List.mem_singleton, OrderDecision.send.injEq] at hmem
        rw [hmem.1, hmem.2.1]
        exact hempty
    · intro d hd j oj hj hid
      rcases List.mem_append.mp hd with hd | hd
      · exact h.cancels d hd j oj hj hid
      · simp only [placeOrder, Option.toList_some, List.mem_singleton] at hd
        subst hd
        cases hid

/-- Before the loop nothing has happened. -/
theorem LoopTracked.start {session : String} {n : Nat} {m m' : OrderManager}
    (h : Tracked session n m) (hframe : SlotFrame m m') : LoopTracked session n m m' [] :=
  ⟨h.congr hframe, fun i o ho => ⟨o, by rw [hframe.orders, ho], .refl o⟩,
   fun i o' ho' hnone => absurd (hframe.orders ▸ ho') (by simp [hnone]), by simp, by simp⟩

/-- **What a quote does to tracked exposure.** -/
theorem onQuoteInto_tracked {session : String} {n : Nat} {m : OrderManager}
    (h : Tracked session n m) (position limit : ℚ) (quote : Quote) (now : Int)
    (hn : n + sends (m.onQuoteInto position limit quote now).2 ≤ size) :
    LoopTracked session n m (m.onQuoteInto position limit quote now).1
      (m.onQuoteInto position limit quote now).2 := by
  -- the invariant of the loop is assumed only while the ids have not wrapped
  refine onQuoteInto_rule (I := fun m' ds => n + sends ds ≤ size → LoopTracked session n m m' ds)
    (fun _ => .start h (.refl m)) (fun _ => .start h ⟨rfl, rfl, rfl⟩) ?_ hn
  intro m' ds t i r hI hr hle
  exact (hI ((Nat.add_le_add_left (sends_le_append ds _) n).trans hle)).step hr hle

/-! ## Runs -/

/-- Every operation keeps the invariant, as long as the ids do not wrap. -/
theorem Tracked.apply {session : String} {n : Nat} {m : OrderManager} (h : Tracked session n m)
    (op : Operation) (hn : n + sends (m.apply op).2 ≤ size) :
    Tracked session (n + sends (m.apply op).2) (m.apply op).1 := by
  by_cases hop : op.IsEvent
  · rw [apply_event_sends hop]
    exact h.of_fates op (apply_fate hop h.nonzero _) (apply_eventFrame hop).counter
      (apply_eventFrame hop).session
  · cases op with
    | quote position limit quote now => exact (onQuoteInto_tracked h position limit quote now hn).tracked
    | _ => exact absurd trivial hop

/-- The order is still in place: same terms, and an exchange id once bound stays bound. -/
structure KeepsOrder (o o' : LiveOrder) : Prop where
  terms : SameTerms o o'
  orderId : ∀ x, o.orderId = some x → o'.orderId = some x

theorem KeepsOrder.refl (o : LiveOrder) : KeepsOrder o o := ⟨.refl o, fun _ h => h⟩

theorem KeepsOrder.trans {o o' o'' : LiveOrder} (h : KeepsOrder o o') (h' : KeepsOrder o' o'') :
    KeepsOrder o o'' :=
  ⟨h.terms.trans h'.terms, fun x hx => h'.orderId x (h.orderId x hx)⟩

/-- An order leaves its slot on a terminal event of its own only. -/
theorem Tracked.apply_keeps {session : String} {n : Nat} {m : OrderManager} (h : Tracked session n m)
    (op : Operation) (hn : n + sends (m.apply op).2 ≤ size) {i : Slot} {o : LiveOrder}
    (ho : m.orders i = some o) :
    (∃ o', (m.apply op).1.orders i = some o' ∧ KeepsOrder o o') ∨ Terminal op o := by
  by_cases hop : op.IsEvent
  · have hfate := apply_fate hop h.nonzero (fun _ => False) i
    rw [ho] at hfate
    generalize (m.apply op).1.orders i = x at hfate
    cases hfate with
    | kept _ o' hsame hid =>
      refine Or.inl ⟨o', rfl, hsame, fun x hx => ?_⟩
      rcases hid with hid | ⟨y, hbind⟩
      · rw [hid, hx]
      · have hx0 : x ≠ 0 := fun h0 => h.nonzero i o ho (h0 ▸ hx)
        rw [hbind.bound, hbind.unbound x hx0 hx]
    | freed _ hterminal => exact Or.inr hterminal
  · cases op with
    | quote position limit quote now =>
      obtain ⟨o', ho', hsame, hid, _⟩ := (onQuoteInto_tracked h position limit quote now hn).kept i o ho
      exact Or.inl ⟨o', ho', hsame, fun x hx => by rw [hid, hx]⟩
    | _ => exact absurd trivial hop

/-- A client id issued before and not tracked now is not tracked after an operation. -/
theorem Tracked.apply_gone {session : String} {n : Nat} {m : OrderManager} (h : Tracked session n m)
    (op : Operation) (hn : n + sends (m.apply op).2 ≤ size) {clOrdId : String} {level : Level}
    {generation k : Nat} (hk : k < n) (hissued : clOrdId = issuedId session level generation k)
    (hgone : ∀ i o, m.orders i = some o → o.clOrdId ≠ clOrdId) :
    ∀ i o, (m.apply op).1.orders i = some o → o.clOrdId ≠ clOrdId := by
  intro i o' ho' heq
  by_cases hop : op.IsEvent
  · obtain ⟨o, ho, hsame, _⟩ := SlotFate.origin (ho' ▸ apply_fate hop h.nonzero (fun _ => False) i)
    exact hgone i o ho (hsame.clOrdId.symm.trans heq)
  · cases op with
    | quote position limit quote now =>
      have hloop := onQuoteInto_tracked h position limit quote now hn
      cases ho : m.orders i with
      | some o =>
        obtain ⟨o'', ho'', hsame, _⟩ := hloop.kept i o ho
        obtain rfl : o'' = o' := Option.some.inj (ho''.symm.trans ho')
        exact hgone i o ho (hsame.clOrdId.symm.trans heq)
      | none =>
        obtain ⟨k', generation', hle, hlt, hid⟩ := hloop.fresh i o' ho' ho
        have := issuedId_inj (lt_of_lt_of_le hlt hn) (by omega) (hid.symm.trans (heq.trans hissued))
        omega
    | _ => exact absurd trivial hop

namespace History

/-- `Tracked` along a history, while its ids have not wrapped. -/
def Good (session : String) (h : History) : Prop := h.sent ≤ size → Tracked session h.sent h.manager

theorem step_eq {h h' : History} {op : Operation} (hstep : h.step op = some h') :
    h'.manager = (h.manager.apply op).1 ∧ h'.sent = h.sent + sends (h.manager.apply op).2 := by
  simp only [step, Option.some.injEq] at hstep
  subst hstep
  exact ⟨rfl, rfl⟩

theorem Good.step {session : String} {h h' : History} {op : Operation} (hg : Good session h)
    (hstep : h.step op = some h') : Good session h' := by
  obtain ⟨hm, hs⟩ := step_eq hstep
  intro hle
  rw [hs] at hle ⊢
  rw [hm]
  exact (hg (by omega)).apply op hle

theorem good_exec {config : OrderManagerConfig} {startMs : Int} {ops : List Operation} {h : History}
    (hrun : Runs.exec step (.new config startMs) ops = some h) :
    Good (OrderManager.new config startMs).sessionPrefix h :=
  Runs.exec_invariant (Good _) (fun _ _ _ => Good.step) (fun _ => tracked_new config startMs) hrun

theorem sent_mono {h h' : History} {ops : List Operation} (hrun : Runs.exec step h ops = some h') :
    h.sent ≤ h'.sent :=
  Runs.exec_rel (fun s s' => s.sent ≤ s'.sent) (fun _ => le_rfl) (fun _ _ _ => le_trans)
    (fun s op s' hstep => by rw [(step_eq hstep).2]; omega) hrun

/-- **An order stays until its own terminal event.** -/
theorem exec_keeps {session : String} {h h' : History} {ops : List Operation} (hg : Good session h)
    (hrun : Runs.exec step h ops = some h') (hsent : h'.sent ≤ size) {i : Slot} {o : LiveOrder}
    (ho : h.manager.orders i = some o) :
    (∃ o', h'.manager.orders i = some o' ∧ KeepsOrder o o') ∨
    ∃ pre op post t o', ops = pre ++ op :: post ∧ Runs.exec step h pre = some t ∧
      t.manager.orders i = some o' ∧ KeepsOrder o o' ∧ Terminal op o' := by
  have hunless := Runs.exec_unless
    (fun t => Good session t ∧ (t.sent ≤ size → ∃ o', t.manager.orders i = some o' ∧ KeepsOrder o o'))
    (fun t op => ∃ o', t.manager.orders i = some o' ∧ KeepsOrder o o' ∧ Terminal op o')
    ?_ ⟨hg, fun _ => ⟨o, ho, .refl o⟩⟩ hrun
  · rcases hunless with ⟨_, hP⟩ | ⟨pre, op, post, t, heq, hpre, _, o', ho', hkeeps, hterminal⟩
    · exact Or.inl (hP hsent)
    · exact Or.inr ⟨pre, op, post, t, o', heq, hpre, ho', hkeeps, hterminal⟩
  · intro t op t' ⟨hgt, hP⟩ hstep
    obtain ⟨hm, hs⟩ := step_eq hstep
    by_cases hle : t'.sent ≤ size
    · rw [hs] at hle
      obtain ⟨ot, hot, hkeeps⟩ := hP (by omega)
      rcases (hgt (by omega)).apply_keeps op hle hot with ⟨o', ho', hk⟩ | hterminal
      · exact Or.inl ⟨hgt.step hstep, fun _ => ⟨o', by rw [hm]; exact ho', hkeeps.trans hk⟩⟩
      · exact Or.inr ⟨ot, hot, hkeeps, hterminal⟩
    · exact Or.inl ⟨hgt.step hstep, fun h => absurd h hle⟩

/-- **A client id that has left never returns.** -/
theorem exec_gone {session : String} {h h' : History} {ops : List Operation} (hg : Good session h)
    (hrun : Runs.exec step h ops = some h') (hsent : h'.sent ≤ size) {clOrdId : String} {level : Level}
    {generation k : Nat} (hk : k < h.sent) (hissued : clOrdId = issuedId session level generation k)
    (hgone : ∀ i o, h.manager.orders i = some o → o.clOrdId ≠ clOrdId) :
    ∀ i o, h'.manager.orders i = some o → o.clOrdId ≠ clOrdId := by
  have hinv := Runs.exec_invariant
    (fun t => Good session t ∧ k < t.sent ∧
      (t.sent ≤ size → ∀ i o, t.manager.orders i = some o → o.clOrdId ≠ clOrdId))
    ?_ ⟨hg, hk, fun _ => hgone⟩ hrun
  · exact hinv.2.2 hsent
  · intro t op t' ⟨hgt, hkt, hgt'⟩ hstep
    obtain ⟨hm, hs⟩ := step_eq hstep
    refine ⟨hgt.step hstep, by omega, fun hle => ?_⟩
    rw [hs] at hle
    rw [hm]
    exact (hgt (by omega)).apply_gone op hle hkt hissued (hgt' (by omega))

end History

/-- Slots, client ids and exchange ids identify each other. -/
structure WellTracked (m : OrderManager) : Prop where
  placed : ∀ i o, m.orders i = some o → o.side = i.1 ∧ o.level = i.2
  clOrdIds : ∀ i j oi oj, m.orders i = some oi → m.orders j = some oj →
    oi.clOrdId = oj.clOrdId → i = j
  exchangeIds : ∀ i j oi oj x, m.orders i = some oi → m.orders j = some oj →
    oi.orderId = some x → oj.orderId = some x → i = j
  nonzero : m.ExchangeIdsNonzero

/-- The client id occupies a slot. -/
def Occupies (m : OrderManager) (clOrdId : String) : Prop :=
  ∃ i o, m.orders i = some o ∧ o.clOrdId = clOrdId

/-! ## Bids of the default manager -/

/-- A quote and the reconciliation that clears its order. -/
def placeAndClear : List Operation := [.quote 0 1000 bidOnly 0, .finishReconciliation]

/-- The default manager after `n` rounds of `placeAndClear`. -/
def afterRounds (n : Nat) : History :=
  ⟨{ new .default 7 with clOrdIdCounter := (1 + n) % size, stats := { ordersSent := n } }, n⟩

/-- The history with the `n`-th bid in its slot. -/
def withBid (n : Nat) : History :=
  ⟨((afterRounds n).manager.placeOrder (.buy, 0) 99 1 0).1, n + 1⟩

theorem afterRounds_quote (n : Nat) :
    (afterRounds n).step (.quote 0 1000 bidOnly 0) = some (withBid n) := by
  have hquote := quote_first_bid (m := (afterRounds n).manager) rfl ⟨rfl, rfl⟩ rfl
  simp only [History.step, apply, hquote]
  rfl

theorem withBid_finish (n : Nat) :
    (withBid n).step .finishReconciliation = some (afterRounds (n + 1)) := by
  have hcounter : wrappingAdd ((1 + n) % size) 1 = (1 + (n + 1)) % size := by
    rw [wrappingAdd, Nat.mod_add_mod, Nat.add_assoc]
  have hexecution : ((ExecutionState.default.clearPauseReason .safety).clearPauseReason
      .circuitBreaker).clearPauseReason .reconciliation = .default := by decide
  simp only [History.step, apply, withBid, afterRounds, placeOrder, generateClOrdId, new,
    finishReconciliation, clearAllOrders, clearPauseReason, setOrderPending, setSlot, hexecution,
    hcounter]
  rfl

theorem afterRounds_placeAndClear (n : Nat) :
    Runs.exec History.step (afterRounds n) placeAndClear = some (afterRounds (n + 1)) := by
  rw [placeAndClear, Runs.exec_cons, afterRounds_quote, Option.bind_some, Runs.exec_singleton,
    withBid_finish]

theorem withBid_occupies (n : Nat) : (withBid n).manager.Occupies
    (formatClOrdId "mm_TEST-USD_7" 0 0 ((1 + n) % size)) :=
  ⟨(.buy, 0), _, rfl, rfl⟩

/-! ## Main theorem -/

/-- **Tracked exposure is neither duplicated nor lost.**  Take any run of a fresh manager to `h`,
    any operation to `h'` and any further run to `h''`, with at most `2 ^ 64` Sends in all.  Then
    the ids identify the slots; an order stays put until a terminal event of its own; an id that
    left never returns; a Send goes to an empty slot only, and no quote cancels an order that is
    already canceling. -/
theorem slot_lifecycle (config : OrderManagerConfig) (startMs : Int) (before after : List Operation)
    (op : Operation) (h h' h'' : History)
    (hbefore : Runs.exec History.step (.new config startMs) before = some h)
    (hop : h.step op = some h') (hafter : Runs.exec History.step h' after = some h'')
    (hsent : h''.sent ≤ 2 ^ 64) :
    h.manager.WellTracked ∧
    (∀ i o, h.manager.orders i = some o →
      (∃ o', h''.manager.orders i = some o' ∧ KeepsOrder o o') ∨
      ∃ pre e post t o', op :: after = pre ++ e :: post ∧ Runs.exec History.step h pre = some t ∧
        t.manager.orders i = some o' ∧ KeepsOrder o o' ∧ Terminal e o') ∧
    (∀ clOrdId, h.manager.Occupies clOrdId → ¬ h'.manager.Occupies clOrdId →
      ¬ h''.manager.Occupies clOrdId) ∧
    (∀ side level price qty clOrdId, .send side level price qty clOrdId ∈ (h.manager.apply op).2 →
      h.manager.orders (side, level) = none) ∧
    (∀ position limit quote now, op = .quote position limit quote now →
      ∀ d ∈ (h.manager.apply op).2, ∀ i o, h.manager.orders i = some o →
        d.cancelOf = some o.clOrdId → o.state ≠ .canceling) := by
  have hle : h''.sent ≤ size := by rw [size_eq]; exact hsent
  have hg := History.good_exec hbefore
  obtain ⟨hm, hs⟩ := History.step_eq hop
  have hmono := History.sent_mono hafter
  have ht := hg (by omega)
  refine ⟨⟨ht.placed, ht.clOrdIds, ht.exchangeIds, ht.nonzero⟩, ?_, ?_, ?_, ?_⟩
  · intro i o ho
    exact History.exec_keeps hg (by rw [Runs.exec_cons, hop]; exact hafter) hle ho
  · rintro clOrdId ⟨i, o, ho, rfl⟩ hleft
    obtain ⟨k, generation, hk, hissued⟩ := ht.issued i o ho
    have hgone := History.exec_gone (hg.step hop) hafter hle (by omega) hissued
      fun j oj hj heq => hleft ⟨j, oj, hj, heq⟩
    rintro ⟨j, oj, hj, heq⟩
    exact hgone j oj hj heq
  · intro side level price qty clOrdId hmem
    by_cases hop' : op.IsEvent
    · have := apply_event_sends (m := h.manager) hop'
      exact absurd (List.countP_eq_zero.mp this _ hmem) (by simp [OrderDecision.isSend])
    · cases op with
      | quote position limit quote now =>
        exact (onQuoteInto_tracked ht position limit quote now (by rw [hs] at hmono; exact hmono.trans hle)).sent
          side level price qty clOrdId hmem
      | _ => exact absurd trivial hop'
  · rintro position limit quote now rfl d hd i o ho hid
    exact (onQuoteInto_tracked ht position limit quote now
      (by rw [hs] at hmono; exact hmono.trans hle)).cancels d hd i o ho hid

/-- A bid, its clearing and the next bid: the first id does not come back. -/
theorem slot_lifecycle_two_bids :
    (withBid 0).manager.WellTracked ∧
      ∀ clOrdId, (withBid 0).manager.Occupies clOrdId → ¬ (afterRounds 1).manager.Occupies clOrdId →
        ¬ (withBid 1).manager.Occupies clOrdId := by
  obtain ⟨hwell, _, hgone, _⟩ := slot_lifecycle .default 7 [.quote 0 1000 bidOnly 0]
    [.quote 0 1000 bidOnly 0] .finishReconciliation (withBid 0) (afterRounds 1) (withBid 1)
    (by rw [Runs.exec_singleton]; exact afterRounds_quote 0) (withBid_finish 0)
    (by rw [Runs.exec_singleton]; exact afterRounds_quote 1) (by decide)
  exact ⟨hwell, hgone⟩

/-- **An id comes back.**  The first bid is cleared; after `2 ^ 64 - 1` more bids, each cleared
    in turn, the next bid occupies its slot under the first one's id. -/
theorem client_id_reused :
    Runs.exec History.step (.new .default 7) [.quote 0 1000 bidOnly 0] = some (withBid 0) ∧
    (withBid 0).step .finishReconciliation = some (afterRounds 1) ∧
    Runs.exec History.step (afterRounds 1) ((List.replicate (size - 1) placeAndClear).flatten ++
      [.quote 0 1000 bidOnly 0]) = some (withBid size) ∧
    (withBid 0).manager.Occupies (formatClOrdId "mm_TEST-USD_7" 0 0 1) ∧
    ¬ (afterRounds 1).manager.Occupies (formatClOrdId "mm_TEST-USD_7" 0 0 1) ∧
    (withBid size).manager.Occupies (formatClOrdId "mm_TEST-USD_7" 0 0 1) := by
  refine ⟨afterRounds_quote 0, withBid_finish 0, ?_, withBid_occupies 0, ?_, ?_⟩
  · rw [Runs.exec_append, Runs.exec_replicate afterRounds_placeAndClear, Option.bind_some,
      Nat.add_sub_cancel' (by decide), Runs.exec_singleton, afterRounds_quote]
  · rintro ⟨i, o, ho, _⟩
    cases ho
  · have := withBid_occupies size
    rwa [Nat.add_mod_right] at this

end MarketMaker.OrderManager
