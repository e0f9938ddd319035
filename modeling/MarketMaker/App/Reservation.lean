import MarketMaker.App.Venue
import MarketMaker.Trading.Pauses
import MarketMaker.Trading.SlotLifecycle

/-!
# Every Send holds its slot or needs none

The invariant of a desk (`Desk.Inv`) and the calls of the application that keep it.  A slot may
be freed once its Send cannot be executed any more and its fills are *covered*: in the published
position, or in one the manager is paused for (`Covered`).

* `onQuoteInto_booked` — a quote sends into empty slots only, under ids that are all different.
* `Inv.apply_event` — what an event must respect to keep the invariant, and `Inv.frees`, that an
  honest notice frees no slot that is needed: a rejected order has no fills, a full fill makes the
  manager wait for two publications, and a cancel confirmation must find its fills covered.
* `Inv.quote`, `Inv.event` — quotes and honest events keep the invariant.
-/

set_option autoImplicit false

namespace MarketMaker

open Word64
open Ledger (Poller Lags Awaits)
open OrderManager

/-! ## The Sends of a quote -/

namespace OrderManager

/-- The Sends of the quote loop against the manager `m₀` the quote found: each fills a slot that
    was empty with its own terms, and no two share a client id. -/
structure LoopBooked (session : String) (n : Nat) (m₀ m : OrderManager) (ds : List OrderDecision) :
    Prop where
  tracked : LoopTracked session n m₀ m ds
  placed : ∀ i o, m.orders i = some o → m₀.orders i = none → o.orderId = none ∧ 0 < o.quantity
  occupies : ∀ side level price qty clOrdId, .send side level price qty clOrdId ∈ ds →
    ∃ o, m.orders (side, level) = some o ∧ o.clOrdId = clOrdId ∧ o.price = price ∧ o.quantity = qty
  nodup : (ds.filterMap OrderDecision.sendOf).Nodup

theorem LoopBooked.setOrderCanceling {session : String} {n : Nat} {m₀ m m' : OrderManager}
    {ds : List OrderDecision} {d : OrderDecision} {i : Slot} {now : Int}
    (h : LoopBooked session n m₀ m ds) (htracked : LoopTracked session n m₀ m' (ds ++ [d]))
    (hd : d.sendOf = none) (horders : m'.orders = (m.setOrderCanceling i now).orders) :
    LoopBooked session n m₀ m' (ds ++ [d]) := by
  refine ⟨htracked, ?_, ?_, ?_⟩
  · intro j o' ho' hnone
    rw [horders] at ho'
    cases ho : m.orders j with
    | none =>
      rw [(setOrderCanceling_none_iff m i j now).mpr ho] at ho'
      cases ho'
    | some o =>
      rw [setOrderCanceling_some now ho, Option.some.injEq] at ho'
      rw [← ho']
      split <;> exact h.placed j o ho hnone
  · intro side level price qty clOrdId hmem
    rcases List.mem_append.mp hmem with hmem | hmem
    · obtain ⟨o, ho, hterms⟩ := h.occupies side level price qty clOrdId hmem
      refine ⟨_, by rw [horders]; exact setOrderCanceling_some now ho, ?_⟩
      split <;> exact hterms
    · rw [List.mem_singleton] at hmem
      subst hmem
      cases hd
  · rw [List.filterMap_append, List.filterMap_cons_none hd, List.filterMap_nil, List.append_nil]
    exact h.nodup

theorem LoopBooked.step {session : String} {n : Nat} {m₀ m : OrderManager} {t : QuoteTerms}
    {ds : List OrderDecision} {now : Int} {i : Slot} {r : OrderManager × Option OrderDecision}
    (h : LoopBooked session n m₀ m ds) (hr : LevelOutcome m t now i r)
    (hn : n + sends (ds ++ r.2.toList) ≤ size) :
    LoopBooked session n m₀ r.1 (ds ++ r.2.toList) := by
  have htracked := h.tracked.step hr hn
  cases hr with
  | keep => simpa using h
  | cancel o ho hs => exact h.setOrderCanceling htracked rfl rfl
  | replace o price qty ho hs => exact h.setOrderCanceling htracked rfl rfl
  | place price hnone hprice hqty =>
    dsimp only at htracked ⊢
    generalize permittedQty m.config (m.budget t i) price t.mid t.quantity = qty at htracked hqty ⊢
    have hother : ∀ {j}, j ≠ i → (m.placeOrder i price qty now).1.orders j = m.orders j := by
      intro j hj
      rw [placeOrder_orders, Function.update_of_ne hj]
    have hself : (m.placeOrder i price qty now).1.orders i = some ⟨(m.generateClOrdId i.2).1, none,
        i.1, i.2, price, qty, .pending, now, 0⟩ := by
      rw [placeOrder_orders, Function.update_self]
    -- a slot that an earlier Send filled is not the empty slot visited now
    have hearlier : ∀ side level price' qty' clOrdId, .send side level price' qty' clOrdId ∈ ds →
        (side, level) ≠ i := by
      rintro side level price' qty' clOrdId hmem rfl
      obtain ⟨o, ho, _⟩ := h.occupies side level price' qty' clOrdId hmem
      rw [hnone] at ho
      cases ho
    refine ⟨htracked, ?_, ?_, ?_⟩
    · intro j o ho hempty
      by_cases hj : j = i
      · subst hj
        rw [hself, Option.some.injEq] at ho
        subst ho
        exact ⟨rfl, hqty⟩
      · rw [hother hj] at ho
        exact h.placed j o ho hempty
    · intro side level price' qty' clOrdId hmem
      rcases List.mem_append.mp hmem with hmem | hmem
      · rw [hother (hearlier side level price' qty' clOrdId hmem)]
        exact h.occupies side level price' qty' clOrdId hmem
      · simp only [placeOrder, Option.toList_some, List.mem_singleton, OrderDecision.send.injEq] at hmem
        obtain ⟨rfl, rfl, rfl, rfl, rfl⟩ := hmem
        exact ⟨_, hself, rfl, rfl, rfl⟩
    · rw [List.filterMap_append, List.nodup_append]
      refine ⟨h.nodup, by simp [placeOrder, OrderDecision.sendOf], ?_⟩
      intro clOrdId hold clOrdId' hnew heq
      obtain ⟨d, hd, hid⟩ := List.mem_filterMap.mp hold
      have hnew' : clOrdId' = (m.generateClOrdId i.2).1 := by
        simpa [placeOrder, OrderDecision.sendOf, eq_comm] using hnew
      cases d with
      | send side level price' qty' _ =>
        cases hid
        obtain ⟨o, ho, hoid, _⟩ := h.occupies side level price' qty' clOrdId hd
        have hne := hearlier side level price' qty' clOrdId hd
        refine hne (htracked.tracked.clOrdIds _ i o _ (by rw [hother hne]; exact ho) hself ?_)
        rw [hoid, heq, hnew']
      | noAction | cancel | cancelAndReplace => cases hid

theorem onQuoteInto_booked {session : String} {n : Nat} {m : OrderManager}
    (h : Tracked session n m) (position limit : ℚ) (quote : Quote) (now : Int)
    (hn : n + sends (m.onQuoteInto position limit quote now).2 ≤ size) :
    LoopBooked session n m (m.onQuoteInto position limit quote now).1
      (m.onQuoteInto position limit quote now).2 := by
  have start : ∀ m', SlotFrame m m' → LoopBooked session n m m' [] := fun m' hframe =>
    ⟨.start h hframe, fun i o ho hnone => absurd (hframe.orders ▸ ho) (by simp [hnone]), by simp, by simp⟩
  refine onQuoteInto_rule (I := fun m' ds => n + sends ds ≤ size → LoopBooked session n m m' ds)
    (fun _ => start m (.refl m)) (fun _ => start _ ⟨rfl, rfl, rfl⟩) ?_ hn
  intro m' ds t i r hI hr hle
  exact (hI ((Nat.add_le_add_left (sends_le_append ds _) n).trans hle)).step hr hle

end OrderManager

/-! ## The ledger of the venue -/

/-- A Send is one entry, its fills stay within its quantity and it is closed when they reach it;
    the published position is the one of an earlier ledger. -/
structure Venue.Consistent (v : Venue) : Prop where
  nodup : (v.sent.map (·.clOrdId)).Nodup
  lags : Lags v.fills v.published v.poller
  nonneg : ∀ clOrdId, 0 ≤ v.published clOrdId
  unsent : ∀ clOrdId, (∀ e ∈ v.sent, e.clOrdId ≠ clOrdId) → v.fills clOrdId = 0
  waiting : ∀ e ∈ v.sent, e.stage.waiting = true → v.fills e.clOrdId = 0
  filled : ∀ e ∈ v.sent, v.fills e.clOrdId ≤ e.quantity
  unfilled : ∀ e ∈ v.sent, e.stage ≠ .closed → v.fills e.clOrdId < e.quantity
  position : v.position.position = v.positionAt v.published

namespace Venue

theorem find_some {v : Venue} {clOrdId : String} {e : Sent} (h : v.find clOrdId = some e) :
    e ∈ v.sent ∧ e.clOrdId = clOrdId :=
  ⟨List.mem_of_find?_eq_some h, by simpa using List.find?_some h⟩

/-- Entries of one client id are one entry. -/
theorem Consistent.eq_of_id {v : Venue} (h : v.Consistent) {e e' : Sent} (he : e ∈ v.sent)
    (he' : e' ∈ v.sent) (hid : e.clOrdId = e'.clOrdId) : e = e' :=
  List.inj_on_of_nodup_map h.nodup he he' hid

theorem Consistent.published_le {v : Venue} (h : v.Consistent) (clOrdId : String) :
    v.published clOrdId ≤ v.fills clOrdId := h.lags.le_source clOrdId

/-- What has no fills has none published. -/
theorem Consistent.published_zero {v : Venue} (h : v.Consistent) {clOrdId : String}
    (hzero : v.fills clOrdId = 0) : v.published clOrdId = 0 :=
  le_antisymm (hzero ▸ h.published_le clOrdId) (h.nonneg clOrdId)

/-- An entry after `setStage` is an old one, but for the stage under that client id. -/
theorem mem_setStage {v : Venue} {clOrdId : String} {stage : Stage} {e' : Sent}
    (h : e' ∈ (v.setStage clOrdId stage).sent) :
    ∃ e ∈ v.sent, (e.clOrdId = clOrdId ∧ e' = { e with stage := stage }) ∨ e' = e := by
  obtain ⟨e, he, heq⟩ := List.mem_map.mp h
  refine ⟨e, he, ?_⟩
  split at heq
  · rename_i hid
    exact Or.inl ⟨hid, heq.symm⟩
  · exact Or.inr heq.symm

theorem mem_setStage_self {v : Venue} {e : Sent} (he : e ∈ v.sent) (stage : Stage) :
    { e with stage := stage } ∈ (v.setStage e.clOrdId stage).sent :=
  List.mem_map.mpr ⟨e, he, if_pos rfl⟩

theorem Consistent.of_mem_setStage {v : Venue} (h : v.Consistent) {e e' : Sent} (he : e ∈ v.sent)
    {stage : Stage} (he' : e' ∈ (v.setStage e.clOrdId stage).sent) :
    e' = { e with stage := stage } ∨ e' ∈ v.sent := by
  obtain ⟨e₀, he₀, ⟨hid, rfl⟩ | rfl⟩ := mem_setStage he'
  · rw [h.eq_of_id he₀ he hid]
    exact Or.inl rfl
  · exact Or.inr he₀

theorem setStage_ids (v : Venue) (clOrdId : String) (stage : Stage) :
    (v.setStage clOrdId stage).sent.map (·.clOrdId) = v.sent.map (·.clOrdId) := by
  simp only [setStage, List.map_map]
  refine List.map_congr_left fun e _ => ?_
  simp only [Function.comp]
  split <;> rfl

theorem setStage_positionAt (v : Venue) (clOrdId : String) (stage : Stage) (fills : Fills) :
    (v.setStage clOrdId stage).positionAt fills = v.positionAt fills := by
  simp only [positionAt, setStage, List.map_map]
  congr 2
  refine List.map_congr_left fun e _ => ?_
  simp only [Function.comp]
  split <;> rfl

/-- Moving a Send on keeps the ledger consistent, unless it reopens a full order or starts a
    filled one over. -/
theorem Consistent.setStage {v : Venue} (h : v.Consistent) {e : Sent} (he : e ∈ v.sent)
    {stage : Stage} (hopen : stage ≠ .closed → e.stage ≠ .closed)
    (hwaiting : stage.waiting = true → e.stage.waiting = true) :
    (v.setStage e.clOrdId stage).Consistent := by
  have moved : ∀ {e'}, e' ∈ (v.setStage e.clOrdId stage).sent →
      e' = { e with stage := stage } ∨ e' ∈ v.sent := h.of_mem_setStage he
  refine ⟨?_, h.lags, h.nonneg, ?_, ?_, ?_, ?_, ?_⟩
  · rw [setStage_ids]
    exact h.nodup
  · intro clOrdId hnone
    refine h.unsent clOrdId fun e₀ he₀ hid => ?_
    have hmem : clOrdId ∈ (v.setStage e.clOrdId stage).sent.map (·.clOrdId) := by
      rw [setStage_ids, ← hid]
      exact List.mem_map_of_mem he₀
    obtain ⟨e', he', hid'⟩ := List.mem_map.mp hmem
    exact hnone e' he' hid'
  · intro e' he' hw
    rcases moved he' with rfl | he'
    · exact h.waiting e he (hwaiting hw)
    · exact h.waiting e' he' hw
  · intro e' he'
    rcases moved he' with rfl | he'
    · exact h.filled e he
    · exact h.filled e' he'
  · intro e' he' hopen'
    rcases moved he' with rfl | he'
    · exact h.unfilled e he (hopen hopen')
    · exact h.unfilled e' he' hopen'
  · rw [setStage_positionAt]
    exact h.position

end Venue

/-! ## What a Send is covered by -/

namespace Desk

/-- The slot of a Send holds its order. -/
def Reserves (m : OrderManager) (e : Sent) : Prop :=
  ∃ level o, m.orders (e.side, level) = some o ∧ o.clOrdId = e.clOrdId ∧ o.price = e.price ∧
    o.quantity = e.quantity

/-- The fills under a client id are in the published position, or the manager is paused for a
    publication that will contain them. -/
def Covered (m : OrderManager) (v : Venue) (clOrdId : String) : Prop :=
  v.fills clOrdId ≤ v.published clOrdId ∨
    m.hasPauseReason .riskData = true ∧ ∃ r ∈ m.resumeAfterPositionVersion,
      Awaits (fun fills => v.fills clOrdId ≤ fills clOrdId) r v.position.updateVersion v.poller

instance (m : OrderManager) (v : Venue) (clOrdId : String) : Decidable (Covered m v clOrdId) :=
  inferInstanceAs (Decidable (_ ∨ _))

/-- The slot of the Send is not needed any more. -/
def Released (m : OrderManager) (v : Venue) (e : Sent) : Prop :=
  ¬ e.Live m.execution.generation ∧ Covered m v e.clOrdId

/-- Whoever is paused for a publication still to come goes on waiting for it. -/
def KeepsWaiting (v : Venue) (m m' : OrderManager) : Prop :=
  ∀ r, v.position.updateVersion < r → m.hasPauseReason .riskData = true →
    m.resumeAfterPositionVersion = some r →
    m'.hasPauseReason .riskData = true ∧ ∃ r', m'.resumeAfterPositionVersion = some r' ∧ r ≤ r'

theorem Covered.keep {m m' : OrderManager} {v : Venue} {clOrdId : String}
    (h : Covered m v clOrdId) (hkeeps : KeepsWaiting v m m') : Covered m' v clOrdId := by
  rcases h with h | ⟨hrisk, r, hr, hawaits⟩
  · exact Or.inl h
  · obtain ⟨hrisk', r', hr', hle⟩ := hkeeps r hawaits.lt hrisk hr
    exact Or.inr ⟨hrisk', r', hr', hawaits.mono hle⟩

/-- A closed Send without fills needs no slot. -/
theorem released_of_unfilled {v : Venue} (h : v.Consistent) (m : OrderManager) {e : Sent}
    (hclosed : e.stage = .closed) (hzero : v.fills e.clOrdId = 0) : Released m v e := by
  refine ⟨by simp [Sent.Live, hclosed], Or.inl ?_⟩
  rw [hzero]
  exact h.nonneg e.clOrdId

/-- **The invariant of a desk.**  Every Send holds its slot or needs none; slots carry the ids of
    their own orders; a queued Send is of an earlier generation as soon as the manager is paused;
    and while a reconciliation runs the manager is paused. -/
structure Inv (x : Market) (session : String) (s : Desk) : Prop where
  consistent : s.venue.Consistent
  count : s.venue.sent.length ≤ size
  tracked : Tracked session s.venue.sent.length s.manager
  positive : ∀ i o, s.manager.orders i = some o → 0 < o.quantity
  bound : ∀ i o y, s.manager.orders i = some o → o.orderId = some y → y = x.orderId o.clOrdId
  issued : ∀ e ∈ s.venue.sent, ∃ level generation k, k < s.venue.sent.length ∧
    e.clOrdId = issuedId session level generation k
  reserved : ∀ e ∈ s.venue.sent, Reserves s.manager e ∨ Released s.manager s.venue e
  tags : ∀ e ∈ s.venue.sent, ∀ g, e.stage = .queued g → g ≤ s.manager.execution.generation ∧
    (¬ s.manager.execution.Open → g < s.manager.execution.generation)
  paused : s.venue.cleanup ≠ .idle → s.manager.hasPauseReason .reconciliation = true
  drained : s.venue.cleanup = .verified → s.venue.drained = true

theorem inv_start (x : Market) (config : OrderManagerConfig) (startMs : Int) (position : SharedPosition) :
    Inv x (OrderManager.new config startMs).sessionPrefix (start config startMs position) := by
  refine ⟨⟨List.nodup_nil, .start _, fun _ => le_rfl, fun _ _ => rfl, ?_, ?_, ?_, ?_⟩,
    Nat.zero_le _, tracked_new config startMs, ?_, ?_, ?_, ?_, ?_, ?_, ?_⟩
  · intro e he; cases he
  · intro e he; cases he
  · intro e he; cases he
  · exact (add_zero position.position).symm
  · intro i o ho; cases ho
  · intro i o y ho; cases ho
  · intro e he; cases he
  · intro e he; cases he
  · intro e he; cases he
  · intro hidle; exact absurd rfl hidle
  · intro hverified; cases hverified

/-- What is not live stays so: its tag is an earlier generation. -/
theorem Inv.not_live {x : Market} {session : String} {s : Desk} (h : Inv x session s) {e : Sent}
    (he : e ∈ s.venue.sent) (hlive : ¬ e.Live s.manager.execution.generation) {generation : Nat}
    (hle : s.manager.execution.generation ≤ generation) : ¬ e.Live generation := by
  unfold Sent.Live at *
  split at hlive
  · rename_i g hg
    have := (h.tags e he g hg).1
    show ¬ g = generation
    omega
  · exact absurd trivial hlive
  · exact absurd trivial hlive
  · exact hlive

theorem Inv.released_keep {x : Market} {session : String} {m m' : OrderManager} {v : Venue}
    (h : Inv x session ⟨m, v⟩) {e : Sent} (he : e ∈ v.sent) (hreleased : Released m v e)
    (hle : m.execution.generation ≤ m'.execution.generation) (hkeeps : KeepsWaiting v m m') :
    Released m' v e :=
  ⟨h.not_live he hreleased.1 hle, hreleased.2.keep hkeeps⟩

/-- The tags stay below a generation that advances. -/
theorem tag_advances {s s' : ExecutionState} (h : s.Advances s') {g : Nat}
    (hg : g ≤ s.generation ∧ (¬ s.Open → g < s.generation)) :
    g ≤ s'.generation ∧ (¬ s'.Open → g < s'.generation) := by
  refine ⟨hg.1.trans h.generation_le, fun hclosed => ?_⟩
  by_cases hopen : s.Open
  · exact lt_of_le_of_lt hg.1 (h.closing hopen hclosed)
  · exact lt_of_lt_of_le (hg.2 hopen) h.generation_le

/-! ## Calls that are not quotes -/

/-- From `m` the manager has gone on to `m'`: the invariant holds, and the generation has advanced
    by `n` at most. -/
structure Onward (x : Market) (session : String) (v : Venue) (n : Nat) (m m' : OrderManager) : Prop where
  inv : Inv x session ⟨m', v⟩
  generation_le : m.execution.generation ≤ m'.execution.generation
  le_generation : m'.execution.generation ≤ m.execution.generation + n

theorem Inv.onward {x : Market} {session : String} {m : OrderManager} {v : Venue}
    (h : Inv x session ⟨m, v⟩) (n : Nat) : Onward x session v n m m :=
  ⟨h, le_rfl, Nat.le_add_right _ n⟩

theorem Onward.trans {x : Market} {session : String} {v v' : Venue} {n n' : Nat} {m m' m'' : OrderManager}
    (h : Onward x session v n m m') (h' : Onward x session v' n' m' m'') :
    Onward x session v' (n + n') m m'' := by
  refine ⟨h'.inv, h.generation_le.trans h'.generation_le, ?_⟩
  have := h.le_generation
  have := h'.le_generation
  omega

theorem Onward.mono {x : Market} {session : String} {v : Venue} {n n' : Nat} {m m' : OrderManager}
    (h : Onward x session v n m m') (hn : n ≤ n') : Onward x session v n' m m' :=
  { h with le_generation := h.le_generation.trans (Nat.add_le_add_left hn _) }

/-- An event keeps the invariant if it binds the exchange's ids, opens no gate early, and frees
    only slots that are not needed. -/
theorem Inv.apply_event {x : Market} {session : String} {m : OrderManager} {v : Venue}
    (h : Inv x session ⟨m, v⟩) (op : Operation) (hop : op.IsEvent)
    (hgeneration : m.execution.generation + op.bumps ≤ maxValue)
    (hbinds : ∀ clOrdId y, op = .accepted clOrdId y → y ≠ 0 → y = x.orderId clOrdId)
    (hkeeps : KeepsWaiting v m (m.apply op).1)
    (hreconciling : op.Clears .reconciliation → v.cleanup = .idle)
    (hfrees : ∀ i o, m.orders i = some o → Terminal op o → ∀ e ∈ v.sent, e.clOrdId = o.clOrdId →
      Released (m.apply op).1 v e) :
    Onward x session v op.bumps m (m.apply op).1 := by
  have hsends : sends (m.apply op).2 = 0 := apply_event_sends hop
  have hids : v.sent.length + sends (m.apply op).2 ≤ size := by
    rw [hsends]
    exact h.count
  obtain ⟨hadvances, hspent⟩ := apply_advances hgeneration
  have origin : ∀ {i o'}, (m.apply op).1.orders i = some o' → ∃ o, m.orders i = some o ∧ SameTerms o o' ∧
      (o'.orderId = o.orderId ∨ ∃ y, NewBinding m op o o' y) := fun {i o'} ho' =>
    SlotFate.origin (ho' ▸ apply_fate hop h.tracked.nonzero (fun _ => False) i)
  refine ⟨⟨h.consistent, h.count, ?_, ?_, ?_, h.issued, ?_, ?_, ?_, h.drained⟩,
    hadvances.generation_le, hspent⟩
  · have := h.tracked.apply op hids
    rwa [hsends] at this
  · intro i o' ho'
    obtain ⟨o, ho, hsame, _⟩ := origin ho'
    rw [hsame.quantity]
    exact h.positive i o ho
  · intro i o' y ho' hy
    obtain ⟨o, ho, hsame, hid | ⟨z, hbinding⟩⟩ := origin ho'
    · rw [hsame.clOrdId]
      exact h.bound i o y ho (hid ▸ hy)
    · obtain rfl : z = y := Option.some.inj (hbinding.bound.symm.trans hy)
      rw [hsame.clOrdId]
      exact hbinds _ _ hbinding.accepted hbinding.nonzero
  · intro e he
    rcases h.reserved e he with ⟨level, o, ho, hid, hprice, hquantity⟩ | hreleased
    · rcases h.tracked.apply_keeps op hids ho with ⟨o', ho', hsame, _⟩ | hterminal
      · exact Or.inl ⟨level, o', ho', hsame.clOrdId.trans hid, hsame.price.trans hprice,
          hsame.quantity.trans hquantity⟩
      · exact Or.inr (hfrees _ o ho hterminal e he hid.symm)
    · exact Or.inr (h.released_keep he hreleased hadvances.generation_le hkeeps)
  · intro e he g hg
    exact tag_advances hadvances (h.tags e he g hg)
  · intro hcleanup
    exact apply_keeps_reason (fun hclears => hcleanup (hreconciling hclears)) (h.paused hcleanup)

/-! ## Quotes -/

theorem mem_sentOf {generation : Nat} {ds : List OrderDecision} {e : Sent}
    (h : e ∈ ds.filterMap (sentOf generation)) :
    e.stage = .queued generation ∧
      ∃ level, .send e.side level e.price e.quantity e.clOrdId ∈ ds := by
  obtain ⟨d, hd, hsent⟩ := List.mem_filterMap.mp h
  cases d with
  | send side level price qty clOrdId =>
    cases hsent
    exact ⟨rfl, level, hd⟩
  | noAction | cancel | cancelAndReplace => cases hsent

theorem map_sentOf (generation : Nat) (ds : List OrderDecision) :
    (ds.filterMap (sentOf generation)).map (·.clOrdId) = ds.filterMap OrderDecision.sendOf := by
  induction ds with
  | nil => rfl
  | cons d ds ih =>
    cases d with
    | send => exact congrArg _ ih
    | noAction | cancel | cancelAndReplace => exact ih

theorem length_sentOf (generation : Nat) (ds : List OrderDecision) :
    (ds.filterMap (sentOf generation)).length = sends ds := by
  induction ds with
  | nil => rfl
  | cons d ds ih =>
    cases d with
    | send => simpa [sends, sentOf, OrderDecision.isSend, List.countP_cons] using ih
    | noAction | cancel | cancelAndReplace => exact ih

/-- The new Sends of a quote: fresh ids, nothing filled, each in a slot that was empty. -/
structure Fresh (session : String) (v : Venue) (m' : OrderManager) (new : List Sent) : Prop where
  ids : ∀ e ∈ new, ∃ level generation k, v.sent.length ≤ k ∧ k < v.sent.length + new.length ∧
    e.clOrdId = issuedId session level generation k
  nodup : (new.map (·.clOrdId)).Nodup
  positive : ∀ e ∈ new, 0 < e.quantity
  reserved : ∀ e ∈ new, Reserves m' e
  queued : ∀ e ∈ new, e.stage = .queued m'.execution.generation

theorem fresh_of_booked {session : String} {m m' : OrderManager} {v : Venue} {ds : List OrderDecision}
    (h : LoopBooked session v.sent.length m m' ds) :
    Fresh session v m' (ds.filterMap (sentOf m'.execution.generation)) := by
  have slot : ∀ {e}, e ∈ ds.filterMap (sentOf m'.execution.generation) → ∃ level o,
      m.orders (e.side, level) = none ∧ m'.orders (e.side, level) = some o ∧ o.clOrdId = e.clOrdId ∧
      o.price = e.price ∧ o.quantity = e.quantity := by
    intro e he
    obtain ⟨_, level, hsend⟩ := mem_sentOf he
    obtain ⟨o, ho, hterms⟩ := h.occupies e.side level e.price e.quantity e.clOrdId hsend
    exact ⟨level, o, h.tracked.sent _ _ _ _ _ hsend, ho, hterms⟩
  refine ⟨?_, ?_, ?_, ?_, fun e he => (mem_sentOf he).1⟩
  · intro e he
    obtain ⟨level, o, hnone, ho, hid, _⟩ := slot he
    obtain ⟨k, generation, hle, hlt, hissued⟩ := h.tracked.fresh _ o ho hnone
    rw [length_sentOf]
    exact ⟨level, generation, k, hle, hlt, hid.symm.trans hissued⟩
  · rw [map_sentOf]
    exact h.nodup
  · intro e he
    obtain ⟨level, o, hnone, ho, _, _, hquantity⟩ := slot he
    rw [← hquantity]
    exact (h.placed _ o ho hnone).2
  · intro e he
    obtain ⟨level, o, _, ho, hterms⟩ := slot he
    exact ⟨level, o, ho, hterms⟩

/-- New entries with new ids and nothing filled keep the ledger consistent. -/
theorem consistent_append {v : Venue} (h : v.Consistent) {new : List Sent}
    (hnodup : (new.map (·.clOrdId)).Nodup) (hnew : ∀ e ∈ new, ∀ e' ∈ v.sent, e'.clOrdId ≠ e.clOrdId)
    (hpositive : ∀ e ∈ new, 0 < e.quantity) :
    { v with sent := v.sent ++ new }.Consistent := by
  have hzero : ∀ e ∈ new, v.fills e.clOrdId = 0 := fun e he => h.unsent _ (hnew e he)
  refine ⟨?_, h.lags, h.nonneg, ?_, ?_, ?_, ?_, ?_⟩
  · rw [List.map_append, List.nodup_append]
    refine ⟨h.nodup, hnodup, ?_⟩
    intro clOrdId hold clOrdId' hfresh heq
    obtain ⟨e', he', rfl⟩ := List.mem_map.mp hold
    obtain ⟨e, he, rfl⟩ := List.mem_map.mp hfresh
    exact hnew e he e' he' heq
  · intro clOrdId hnone
    exact h.unsent clOrdId fun e he => hnone e (List.mem_append_left _ he)
  · intro e he hw
    rcases List.mem_append.mp he with he | he
    · exact h.waiting e he hw
    · exact hzero e he
  · intro e he
    rcases List.mem_append.mp he with he | he
    · exact h.filled e he
    · rw [hzero e he]
      exact (hpositive e he).le
  · intro e he hopen
    rcases List.mem_append.mp he with he | he
    · exact h.unfilled e he hopen
    · rw [hzero e he]
      exact hpositive e he
  · have hnone : (new.map fun e => e.side.sign * v.published e.clOrdId).sum = 0 := by
      refine List.sum_eq_zero fun q hq => ?_
      obtain ⟨e, he, rfl⟩ := List.mem_map.mp hq
      rw [h.published_zero (hzero e he), mul_zero]
    have hposition := h.position
    unfold Venue.positionAt at *
    rw [List.map_append, List.sum_append, hnone, add_zero]
    exact hposition

/-- **A quote keeps the invariant**: what it sends it reserves. -/
theorem Inv.quote {x : Market} {session : String} {m : OrderManager} {v : Venue}
    (h : Inv x session ⟨m, v⟩) (position limit : ℚ) (quote : Quote) (now : Int)
    (hcount : v.sent.length + 4 ≤ size) (hgeneration : m.execution.generation + 1 ≤ maxValue) :
    Onward x session { v with
      sent := v.sent ++ (m.onQuoteInto position limit quote now).2.filterMap
        (sentOf (m.onQuoteInto position limit quote now).1.execution.generation) } 1 m
      (m.onQuoteInto position limit quote now).1 := by
  have hlength := m.onQuoteInto_length position limit quote now
  have hsends : sends (m.onQuoteInto position limit quote now).2 ≤ 4 :=
    List.countP_le_length.trans hlength
  have hbooked := onQuoteInto_booked h.tracked position limit quote now
    ((Nat.add_le_add_left hsends _).trans hcount)
  obtain ⟨hadvances, hspent⟩ : m.execution.Advances (m.apply (.quote position limit quote now)).1.execution ∧
      (m.apply (.quote position limit quote now)).1.execution.generation ≤ m.execution.generation + 1 :=
    apply_advances hgeneration
  have hkeeps : KeepsWaiting v m (m.apply (.quote position limit quote now)).1 := fun r _ hrisk hr =>
    apply_keeps_waiting id (fun _ heq => by cases heq) hrisk hr
  have hpaused : ∀ r, m.hasPauseReason r = true →
      (m.apply (.quote position limit quote now)).1.hasPauseReason r = true := fun r hr =>
    apply_keeps_reason id hr
  have hquiet : ¬ m.Unpaused → m.onQuoteInto position limit quote now = (m, []) := fun hclosed =>
    onQuoteInto_paused hclosed position limit quote now
  have hexecution := m.onQuoteInto_execution position limit quote now
  simp only [apply] at hadvances hspent hkeeps hpaused
  generalize m.onQuoteInto position limit quote now = r at *
  obtain ⟨m', ds⟩ := r
  dsimp only at *
  have hfresh := fresh_of_booked hbooked
  have hlen : (ds.filterMap (sentOf m'.execution.generation)).length = sends ds := length_sentOf _ ds
  -- a quote that sends leaves the manager open
  have hopen : ∀ e ∈ ds.filterMap (sentOf m'.execution.generation), m'.execution.Open := by
    intro e he
    obtain ⟨_, level, hsend⟩ := mem_sentOf he
    rcases hexecution with hsame | ⟨_, _, hnosend⟩
    · by_contra hclosed
      have hidle := hquiet (by rw [hsame] at hclosed; exact hclosed)
      rw [Prod.mk.injEq] at hidle
      rw [hidle.2] at hsend
      cases hsend
    · exact absurd (hnosend _ hsend) (by simp [OrderDecision.isSend])
  generalize ds.filterMap (sentOf m'.execution.generation) = new at *
  have hnew : ∀ e ∈ new, ∀ e' ∈ v.sent, e'.clOrdId ≠ e.clOrdId := by
    intro e he e' he' heq
    obtain ⟨_, _, k, hle, hlt, hid⟩ := hfresh.ids e he
    obtain ⟨_, _, k', hlt', hid'⟩ := h.issued e' he'
    have := issuedId_inj (by dsimp only at hlt'; omega) (by omega) (hid'.symm.trans (heq.trans hid))
    dsimp only at hlt'
    omega
  have kept : ∀ {i o'}, m'.orders i = some o' → (∃ o, m.orders i = some o ∧ StillThere o o') ∨
      o'.orderId = none ∧ 0 < o'.quantity := by
    intro i o' ho'
    cases ho : m.orders i with
    | none => exact Or.inr (hbooked.placed i o' ho' ho)
    | some o =>
      obtain ⟨o'', ho'', hstill⟩ := hbooked.tracked.kept i o ho
      obtain rfl : o'' = o' := Option.some.inj (ho''.symm.trans ho')
      exact Or.inl ⟨o, rfl, hstill⟩
  refine ⟨⟨consistent_append h.consistent hfresh.nodup hnew hfresh.positive, ?_, ?_, ?_, ?_, ?_, ?_, ?_, ?_, ?_⟩,
    hadvances.generation_le, hspent⟩
  · rw [List.length_append]
    omega
  · rw [List.length_append, hlen]
    exact hbooked.tracked.tracked
  · intro i o' ho'
    rcases kept ho' with ⟨o, ho, hstill⟩ | ⟨_, hpositive⟩
    · rw [hstill.1.quantity]
      exact h.positive i o ho
    · exact hpositive
  · intro i o' y ho' hy
    rcases kept ho' with ⟨o, ho, hstill⟩ | ⟨hnone, _⟩
    · rw [hstill.1.clOrdId]
      exact h.bound i o y ho (hstill.2.1 ▸ hy)
    · rw [hnone] at hy
      cases hy
  · intro e he
    rw [List.length_append]
    rcases List.mem_append.mp he with he | he
    · obtain ⟨level, generation, k, hlt, hid⟩ := h.issued e he
      exact ⟨level, generation, k, Nat.lt_add_right _ hlt, hid⟩
    · obtain ⟨level, generation, k, _, hlt, hid⟩ := hfresh.ids e he
      exact ⟨level, generation, k, hlt, hid⟩
  · intro e he
    rcases List.mem_append.mp he with he | he
    · rcases h.reserved e he with ⟨level, o, ho, hid, hprice, hquantity⟩ | hreleased
      · obtain ⟨o', ho', hsame, _⟩ := hbooked.tracked.kept _ o ho
        exact Or.inl ⟨level, o', ho', hsame.clOrdId.trans hid, hsame.price.trans hprice,
          hsame.quantity.trans hquantity⟩
      · exact Or.inr (h.released_keep he hreleased hadvances.generation_le hkeeps)
    · exact Or.inl (hfresh.reserved e he)
  · intro e he g hg
    rcases List.mem_append.mp he with he | he
    · exact tag_advances hadvances (h.tags e he g hg)
    · cases (hfresh.queued e he).symm.trans hg
      exact ⟨le_rfl, fun hclosed => absurd (hopen e he) hclosed⟩
  · intro hcleanup
    exact hpaused _ (h.paused hcleanup)
  · intro hverified
    refine List.all_eq_true.mpr fun e he => ?_
    rcases List.mem_append.mp he with he | he
    · exact List.all_eq_true.mp (h.drained hverified) e he
    · simp [hfresh.queued e he]

/-! ## Honest calls -/

/-- The client ids an event confirms canceled. -/
def confirmed (x : Market) (v : Venue) : Event → List String
  | .call (.canceledByClOrdId clOrdId) => [clOrdId]
  | .call (.canceled orderId) =>
    (v.sent.filter fun e => x.orderId e.clOrdId == orderId).map (·.clOrdId)
  | _ => []

/-- A cancel confirmation frees its slot with the order's fills in the published position, or in
    one the manager is paused for. -/
def ConfirmsCovered (x : Market) (s : Desk) (e : Event) : Prop :=
  ∀ clOrdId ∈ confirmed x s.venue e, s.manager.hasTrackedOrder clOrdId = true →
    Covered s.manager s.venue clOrdId

instance (x : Market) (s : Desk) (e : Event) : Decidable (ConfirmsCovered x s e) :=
  inferInstanceAs (Decidable (∀ _ ∈ _, _))

theorem confirmsCovered_of_nil {x : Market} {s : Desk} {e : Event} (h : confirmed x s.venue e = []) :
    ConfirmsCovered x s e := by
  intro clOrdId hmem
  rw [h] at hmem
  cases hmem

theorem hasTrackedOrder_of_slot {m : OrderManager} {i : Slot} {o : LiveOrder}
    (ho : m.orders i = some o) : m.hasTrackedOrder o.clOrdId = true := by
  unfold hasTrackedOrder findOrder
  cases hslot : m.findSlot fun o' => o'.clOrdId == o.clOrdId with
  | none => exact absurd (findSlot_none hslot ho) (by simp)
  | some j =>
    obtain ⟨oj, hoj, _⟩ := findSlot_some hslot
    simp [hoj]

/-- A fill that matches an order leaves the manager paused for two publications. -/
theorem onOrderFill_waits {m : OrderManager} {i : Slot} {o : LiveOrder} (ho : m.orders i = some o)
    (position : SharedPosition) {orderId : Int} {clOrdId : Option String}
    (hmatches : fillMatches orderId clOrdId o = true) (fullyFilled : Bool) :
    (m.onOrderFill position orderId clOrdId fullyFilled).2.hasPauseReason .riskData = true ∧
      ∃ r, (m.onOrderFill position orderId clOrdId fullyFilled).2.resumeAfterPositionVersion = some r ∧
        requiredVersion position ≤ r := by
  obtain ⟨r, hr, hle, _⟩ := m.requirePositionRefresh_resume position
  have hrisk := m.requirePositionRefresh_riskData position
  unfold onOrderFill
  split
  · rename_i hnone
    rw [findSlot_none hnone ho] at hmatches
    cases hmatches
  · cases fullyFilled <;> exact ⟨hrisk, r, hr, hle⟩

theorem honest_clears {x : Market} {v : Venue} {op : Operation} (h : honest x v op = true)
    {r : PauseReason} (hr : r = .riskData ∨ r = .reconciliation) : ¬ op.Clears r := by
  intro hclears
  cases op with
  | clearPauseReason reason =>
    cases hclears
    rcases hr with rfl | rfl <;> simp [honest] at h
  | finishReconciliation => simp [honest] at h
  | resetCircuitBreaker =>
    cases hclears
    rcases hr with hr | hr <;> cases hr
  | _ => exact hclears

theorem honest_keepsWaiting {x : Market} {v : Venue} {op : Operation} (h : honest x v op = true)
    (m : OrderManager) : KeepsWaiting v m (m.apply op).1 := by
  intro r hpending hrisk hr
  refine apply_keeps_waiting (honest_clears h (Or.inl rfl)) ?_ hrisk hr
  rintro position rfl
  have hread : position = v.position := by simpa [honest] using h
  rw [hread]
  exact hpending

/-- What a notice says of the Send in a slot it frees. -/
theorem Inv.frees {x : Market} {session : String} {m : OrderManager} {v : Venue} {op : Operation}
    (h : Inv x session ⟨m, v⟩) (hhonest : honest x v op = true)
    (hcovers : ConfirmsCovered x ⟨m, v⟩ (.call op)) (hversion : v.position.updateVersion + 2 ≤ maxValue)
    {i : Slot} {o : LiveOrder} (ho : m.orders i = some o) (hterminal : Terminal op o) {e : Sent}
    (he : e ∈ v.sent) (hid : e.clOrdId = o.clOrdId) : Released (m.apply op).1 v e := by
  have htracked := hasTrackedOrder_of_slot ho
  have hkeeps := honest_keepsWaiting hhonest m
  -- the entry the notice speaks of is this one
  have same : ∀ {e'}, e' ∈ v.sent → e'.clOrdId = e.clOrdId → e' = e := fun he' hid' =>
    h.consistent.eq_of_id he' he hid'
  have closed : e.stage = .closed → ¬ e.Live (m.apply op).1.execution.generation := by
    intro hclosed
    simp [Sent.Live, hclosed]
  have bound : ∀ {orderId}, o.orderId = some orderId → orderId = x.orderId e.clOrdId := fun hy =>
    (h.bound i o _ ho hy).trans (by rw [hid])
  cases op with
  | rejected clOrdId nowMs =>
    obtain rfl : o.clOrdId = clOrdId := hterminal
    simp only [honest, Bool.and_eq_true, beq_iff_eq, List.any_eq_true] at hhonest
    obtain ⟨hzero, e', he', hid', hclosed⟩ := hhonest
    obtain rfl := same he' (hid'.trans hid.symm)
    exact released_of_unfilled h.consistent _ hclosed (by rw [hid]; exact hzero)
  | canceled orderId =>
    obtain ⟨_, hbound⟩ := hterminal
    simp only [honest, Bool.and_eq_true, beq_iff_eq, List.any_eq_true] at hhonest
    obtain ⟨e', he', hid', hclosed⟩ := hhonest
    have horder := bound hbound
    obtain rfl := same he' (x.orderId_inj (hid'.trans horder))
    have hconfirmed : e'.clOrdId ∈ confirmed x v (.call (.canceled orderId)) :=
      List.mem_map_of_mem (List.mem_filter.mpr ⟨he', by simpa using hid'⟩)
    exact ⟨closed hclosed, (hcovers e'.clOrdId hconfirmed (by rw [hid]; exact htracked)).keep hkeeps⟩
  | canceledByClOrdId clOrdId =>
    obtain rfl : o.clOrdId = clOrdId := hterminal
    simp only [honest, Bool.and_eq_true, beq_iff_eq, List.any_eq_true] at hhonest
    obtain ⟨e', he', hid', hclosed⟩ := hhonest
    obtain rfl := same he' (hid'.trans hid.symm)
    have hcovered := hcovers o.clOrdId List.mem_cons_self htracked
    rw [← hid] at hcovered
    exact ⟨closed hclosed, hcovered.keep hkeeps⟩
  | filled position orderId clOrdId fullyFilled =>
    obtain ⟨rfl, hnames⟩ := hterminal
    simp only [honest, Bool.and_eq_true, Bool.or_eq_true, beq_iff_eq, List.any_eq_true,
      decide_eq_true_eq, Bool.not_true, Bool.false_eq_true, false_or] at hhonest
    obtain ⟨rfl, e', he', ⟨⟨horder, hname⟩, _⟩, hfull⟩ := hhonest
    have hmatches : fillMatches orderId clOrdId o = true := by
      simpa [fillMatches] using hnames
    have hsame : e'.clOrdId = e.clOrdId := by
      rcases hnames with ⟨hne, hbound⟩ | rfl
      · rcases horder with horder | horder
        · exact absurd horder hne
        · exact x.orderId_inj (horder.symm.trans (bound hbound))
      · have hname' : o.clOrdId = e'.clOrdId := by simpa using hname
        rw [hid, hname']
    obtain rfl := same he' hsame
    have hclosed : e'.stage = .closed := by
      by_contra hopen
      exact absurd hfull (h.consistent.unfilled e' he' hopen).ne
    obtain ⟨hrisk, r, hr, hle⟩ := onOrderFill_waits ho v.position hmatches true
    refine ⟨closed hclosed, Or.inr ⟨hrisk, r, hr, Or.inl ?_⟩⟩
    rw [requiredVersion, saturatingAdd_of_le hversion] at hle
    exact hle
  | dispatchFailed decision =>
    cases decision with
    | send => simp [honest, OrderDecision.isSend] at hhonest
    | noAction | cancel | cancelAndReplace => exact hterminal.elim
  | finishReconciliation => simp [honest] at hhonest
  | _ => exact hterminal.elim

/-- **An honest call keeps the invariant**, if what it confirms canceled is covered. -/
theorem Inv.event {x : Market} {session : String} {m : OrderManager} {v : Venue}
    (h : Inv x session ⟨m, v⟩) (op : Operation) (hop : op.IsEvent) (hhonest : honest x v op = true)
    (hcovers : ConfirmsCovered x ⟨m, v⟩ (.call op)) (hversion : v.position.updateVersion + 2 ≤ maxValue)
    (hgeneration : m.execution.generation + op.bumps ≤ maxValue) :
    Onward x session v op.bumps m (m.apply op).1 := by
  refine h.apply_event op hop hgeneration ?_ (honest_keepsWaiting hhonest m)
    (fun hclears => absurd hclears (honest_clears hhonest (Or.inr rfl)))
    fun i o ho hterminal e he hid => h.frees hhonest hcovers hversion ho hterminal he hid
  rintro clOrdId y rfl hy
  simp only [honest, Bool.and_eq_true, Bool.or_eq_true, beq_iff_eq] at hhonest
  exact hhonest.1.resolve_left hy

end Desk

end MarketMaker
