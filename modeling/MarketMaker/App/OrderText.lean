import MarketMaker.App.TickFence
import MarketMaker.Trading.OrderRequest

/-!
# The text on the wire

A decision is computed with one tick and one lot size and turned into text with those the executor
reads later.  The fence makes them the same, so the text rounds nothing away.

* `Sized.step` — every decision under way is of whole ticks and whole lots of the sizes it carries.
* `written_request_says` — every order on the socket is read as the price and the quantity that were
  decided.
-/

set_option autoImplicit false

namespace MarketMaker

open Grid Word64 Runs

open App (TickSizeChangedSignal)

/-- `update` quotes with the tick size it reads. -/
theorem ObiStrategy.update_onGrid {sqrt : ℚ → ℚ} {s s' : ObiStrategy} {tick lot : ℚ}
    {equity : Option SharedEquity} {binance : Option SharedAlpha} {nowMs : Nat} {b : OrderbookSnapshot}
    {quote : Quote} (h : s.update sqrt ⟨some (tick, lot), equity, binance, nowMs⟩ b = some (s', some quote))
    (i : Slot) : ∀ price ∈ quote.price i, OnGrid tick price := by
  unfold update at h
  split at h
  · cases h
  · split at h
    · obtain ⟨observed, -, hrequote⟩ := Option.map_eq_some_iff.mp h
      unfold requote at hrequote
      split at hrequote
      · cases hrequote
      · dsimp only at hrequote
        split at hrequote
        · cases hrequote
        · exact calculateQuote_onGrid (Prod.ext_iff.mp hrequote).2 i
    · cases h

/-- Both sizes are among those the API can give. -/
def Precision.IsDecimal (p : Precision) : Prop := IsDecimalStep p.tickSize ∧ IsDecimalStep p.lotSize

/-- A Send is for whole ticks of the sizes it was quoted with and whole lots of those it was permitted
    with. -/
structure OrderDecision.OnSizes (d : OrderDecision) (quoted permitted : Precision) : Prop where
  quotedSizes : quoted.IsDecimal
  permittedSizes : permitted.IsDecimal
  send : ∀ side level price qty clOrdId, d = .send side level price qty clOrdId →
    OnGrid quoted.tickSize price ∧ OnGrid permitted.lotSize qty ∧ 0 < price ∧ 0 < qty

def Tagged.OnSizes (x : Tagged) : Prop := x.decision.OnSizes x.quoted x.permitted

/-- The action stores sizes of the API, or dispatches what is on its sizes. -/
def Action.OnSizes : Action → Prop
  | .storeTickSize tick => IsDecimalStep tick
  | .storeLotSize lot => IsDecimalStep lot
  | .setPrecision signal => IsDecimalStep signal.newTickSize ∧ IsDecimalStep signal.newLotSize
  | .dispatch d quoted permitted => d.OnSizes quoted permitted
  | _ => True

/-- The Send the executor has taken out and not yet disposed of. -/
def SendState.held : SendState → Option Tagged
  | .idle => none
  | .received x | .tickRead x _ | .checking x _ _ _ | .writing x _ _ => some x

/-- The request of a written order. -/
def Written.request (symbol : String) (w : Written) : Option NewOrderRequest :=
  executorRequest symbol w.formatted.tickSize w.formatted.lotSize w.decision.decision

namespace TickFence

/-- A signal of the poller: its sizes are those of an answer of the API. -/
def Event.FromApi : Event → Prop
  | .arm (.tickSizeChanged signal _) => IsDecimalStep signal.newTickSize ∧ IsDecimalStep signal.newLotSize
  | _ => True

/-- What is under way is on its sizes, and the executor is at work on Sends only. -/
structure Sized (s : TickFence) : Prop where
  info : s.info.precision.IsDecimal
  manager : s.manager.precision.IsDecimal
  todo : ∀ a ∈ s.todo, a.OnSizes
  channel : ∀ x ∈ s.channel, x.OnSizes
  held : ∀ x ∈ s.executor.held, x.OnSizes ∧ x.decision.isSend = true
  written : ∀ w ∈ s.written, w.decision.OnSizes ∧ w.decision.decision.isSend = true

variable {s s' : TickFence}

theorem sized_new {info : SharedSymbolInfo} (hinfo : info.precision.IsDecimal) (config : OrderManagerConfig)
    (hlot : 0 < info.lotSize) (strategy : ObiStrategy) (startMs : Int) :
    Sized (new info config hlot strategy startMs) where
  info := hinfo
  manager := hinfo
  todo _ h := by cases h
  channel _ h := by cases h
  held _ h := by cases h
  written _ h := by cases h

/-! ### The main loop -/

/-- An arm that leaves the sizes and the channel alone and sets out to do what is on its sizes. -/
theorem Sized.enter (h : Sized s) {todo : List Action} (reconciliationPending : Bool)
    (htodo : ∀ a ∈ todo, a.OnSizes) :
    Sized { s with reconciliationPending := reconciliationPending, todo := todo } :=
  { h with todo := htodo }

theorem beginActions_onSizes (s : TickFence) (position : SharedPosition) :
    ∀ a ∈ s.beginActions position, a.OnSizes := by
  intro a ha
  unfold beginActions at ha
  split at ha
  · cases ha
  · split at ha <;> simp only [List.mem_cons, List.not_mem_nil, or_false] at ha
    · subst ha
      trivial
    · rcases ha with rfl | rfl | rfl <;> trivial

theorem tickActions_onSizes {signal : TickSizeChangedSignal}
    (h : IsDecimalStep signal.newTickSize ∧ IsDecimalStep signal.newLotSize) :
    ∀ a ∈ tickActions signal, a.OnSizes := by
  intro a ha
  simp only [tickActions, List.mem_cons, List.not_mem_nil, or_false] at ha
  rcases ha with rfl | rfl | rfl | rfl | rfl | rfl
  · trivial
  · exact h.1
  · exact h.2
  · exact h
  · trivial
  · trivial

/-- A quote with prices of whole ticks dispatches on its sizes. -/
theorem Sized.quote (h : Sized s) (position limit : ℚ) {quote : Quote} (now : Clocks)
    (hquote : ∀ i, ∀ price ∈ quote.price i, OnGrid s.info.tickSize price) :
    Sized (s.quote position limit quote now) := by
  let m := s.manager.clearPauseReason .marketData
  have hsends := m.onQuoteInto_sendsOnGrid position limit quote now.unixNs
  refine { h with manager := ?_, todo := fun a ha => ?_ }
  · show OrderManager.precision { (m.onQuoteInto position limit quote now.unixNs).1 with
      execution := m.execution } |>.IsDecimal
    unfold OrderManager.precision
    dsimp only
    rw [onQuoteInto_config]
    exact h.manager
  · rcases List.mem_append.mp ha with ha | ha
    · split at ha
      · rw [List.mem_singleton.mp ha]
        trivial
      · cases ha
    · obtain ⟨d, hd, rfl⟩ := List.mem_map.mp ha
      refine ⟨h.info, h.manager, ?_⟩
      intro side level price qty clOrdId heq
      obtain ⟨hprice, hqty, hpos⟩ := hsends d hd side level price qty clOrdId heq
      exact ⟨hquote _ price hprice, hqty, hpos⟩

theorem Sized.start {sqrt : ℚ → ℚ} {a : Arm} (h : Sized s) (ha : (Event.arm a).FromApi)
    (hs : s.start sqrt a = some s') : Sized s' := by
  cases a with
  | pause r =>
    cases hs
    exact h.enter _ fun a ha => by rw [List.mem_singleton.mp ha]; trivial
  | unpause r =>
    simp only [TickFence.start] at hs
    split at hs
    · cases hs
    · cases hs
      exact h.enter _ fun a ha => by rw [List.mem_singleton.mp ha]; trivial
  | shutdown =>
    cases hs
    refine h.enter _ fun a ha => ?_
    simp only [List.mem_cons, List.not_mem_nil, or_false] at ha
    rcases ha with rfl | rfl <;> trivial
  | work m =>
    cases hs
    exact { h with }
  | beginReconciliation position =>
    cases hs
    exact h.enter _ (s.beginActions_onSizes position)
  | finishReconciliation position =>
    cases hs
    refine h.enter _ fun a ha => ?_
    simp only [List.mem_cons, List.not_mem_nil, or_false] at ha
    rcases ha with rfl | rfl | rfl | rfl | rfl | rfl <;> trivial
  | depthBook book position equity binance now =>
    simp only [TickFence.start, depthBook, Option.map_eq_some_iff] at hs
    obtain ⟨⟨strategy, quote⟩, hupdate, rfl⟩ := hs
    have hfed : Sized { s with strategy := strategy } := { h with }
    cases quote with
    | none => exact hfed
    | some quote =>
      dsimp only
      split
      · exact hfed.quote position _ now fun i => ObiStrategy.update_onGrid hupdate i
      · exact hfed
  | tickSizeChanged signal position =>
    cases hs
    refine h.enter _ fun a hmem => ?_
    rcases List.mem_append.mp hmem with hmem | hmem
    · exact s.beginActions_onSizes position a hmem
    · exact tickActions_onSizes ha a hmem

theorem Sized.main {a : Action} {rest : List Action} (h : Sized s) (htodo : s.todo = a :: rest)
    (reaches : Bool) : Sized (s.perform reaches rest a) := by
  have hall := h.todo
  rw [htodo] at hall
  have ha := hall a List.mem_cons_self
  have hrest : ∀ b ∈ rest, b.OnSizes := fun b hb => hall b (List.mem_cons_of_mem _ hb)
  cases a with
  | fetchOr r =>
    refine { h with todo := fun b hb => ?_ }
    dsimp only [perform] at hb
    split at hb
    · exact hrest b hb
    · rcases List.mem_cons.mp hb with rfl | hb
      · trivial
      · exact hrest b hb
  | bump | fetchAnd | storeShutdown | awaitPositions | settle | storeMinOrderQty | resetStrategy =>
    exact { h with todo := hrest }
  | storeTickSize tick => exact { h with info := ⟨ha, h.info.2⟩, todo := hrest }
  | storeLotSize lot => exact { h with info := ⟨h.info.1, ha⟩, todo := hrest }
  | setPrecision signal => exact { h with manager := ha, todo := hrest }
  | dispatch d quoted permitted =>
    cases reaches with
    | true =>
      refine { h with todo := hrest, channel := fun x hx => ?_ }
      rcases List.mem_append.mp hx with hx | hx
      · exact h.channel x hx
      · rw [List.mem_singleton.mp hx]
        exact ha
    | false =>
      refine { h with todo := hrest, manager := ?_ }
      show (s.manager.onDispatchFailed d).precision.IsDecimal
      rw [onDispatchFailed_precision]
      exact h.manager

/-! ### The executor -/

/-- The executor goes on with what it holds, or lets go of it. -/
theorem Sized.executor (h : Sized s) {executor : SendState} (hheld : ∀ x ∈ executor.held, x ∈ s.executor.held) :
    Sized { s with executor := executor } :=
  { h with held := fun x hx => h.held x (hheld x hx) }

theorem held_check (s : TickFence) (x : Tagged) (read : Precision) (second : Bool) (load : Load) :
    ∀ y ∈ (s.check x read second load).held, y = x := by
  intro y hy
  cases load <;> simp only [check] at hy <;> split at hy
  all_goals first
    | cases hy; done
    | exact (Option.some.inj hy).symm
    | skip
  split at hy <;> exact (Option.some.inj hy).symm

/-- **One step.** -/
theorem Sized.step {sqrt : ℚ → ℚ} {e : Event} (h : Sized s) (he : e.FromApi) (hs : s.step sqrt e = some s') :
    Sized s' := by
  cases e with
  | arm a =>
    simp only [TickFence.step] at hs
    split at hs
    · exact h.start he hs
    · cases hs
  | main reaches =>
    simp only [TickFence.step] at hs
    split at hs
    · next a rest htodo =>
      cases hs
      exact h.main htodo reaches
    · cases hs
  | receive =>
    simp only [TickFence.step] at hs
    split at hs
    · next x rest _ hchannel =>
      cases hs
      have hall := h.channel
      rw [hchannel] at hall
      refine { h with channel := fun y hy => hall y (List.mem_cons_of_mem _ hy), held := fun y hy => ?_ }
      dsimp only at hy
      split at hy
      · next hsend =>
        cases hy
        exact ⟨hall x List.mem_cons_self, hsend⟩
      · cases hy
    · cases hs
  | loadTickSize | loadLotSize =>
    simp only [TickFence.step] at hs
    split at hs
    · next hx =>
      cases hs
      refine h.executor fun y hy => ?_
      rw [hx]
      exact hy
    · cases hs
  | load =>
    simp only [TickFence.step] at hs
    split at hs
    · next x read second load hx =>
      cases hs
      refine h.executor fun y hy => ?_
      rw [hx, s.held_check x read second load y hy]
      rfl
    · cases hs
  | fail =>
    cases hs
    exact h.executor fun y hy => by cases hy
  | write =>
    simp only [TickFence.step] at hs
    split at hs
    · next x read checkedAt hx =>
      cases hs
      have hheld := h.held x (by rw [hx]; rfl)
      refine { h with held := fun y hy => ?_, written := fun w hw => ?_ }
      · cases hy
      · rcases List.mem_cons.mp hw with rfl | hw
        · exact hheld
        · exact h.written w hw
    · cases hs

theorem exec_sized {sqrt : ℚ → ℚ} {es : List Event} (hs : Sized s) (hes : ∀ e ∈ es, e.FromApi)
    (h : exec (step sqrt) s es = some s') : Sized s' :=
  exec_invariant_of Sized (fun _ e => e.FromApi) (fun _ _ _ hs he hstep => hs.step he hstep) hs
    (along_of_forall hes) h

/-- **What is on the wire is what was decided.**  Over every interleaving, the request of an order on
    the socket is a post-only limit order whose texts are read as the decided price and quantity, both
    positive, if these are finite and fewer than `2 ^ 64` bumps came between dispatch and check. -/
theorem written_request_says (sqrt : ℚ → ℚ) (symbol : String) (info : SharedSymbolInfo)
    (config : OrderManagerConfig) (hlot : 0 < info.lotSize) (strategy : ObiStrategy) (startMs : Int)
    (es : List Event) (s : TickFence) (hinfo : info.precision.IsDecimal) (hes : ∀ e ∈ es, e.FromApi)
    (h : exec (step sqrt) (new info config hlot strategy startMs) es = some s) :
    ∀ w ∈ s.written, w.checkedAt < w.decision.dispatchedAt + 2 ^ 64 →
      ∃ side level price qty clOrdId, w.decision.decision = .send side level price qty clOrdId ∧
        0 < price ∧ 0 < qty ∧
        (price ≤ f64Max → qty ≤ f64Max →
          ∃ r, w.request symbol = some r ∧ r.Says symbol side price qty clOrdId) := by
  intro w hw hround
  have hinv : Inv s :=
    exec_invariant Inv (fun _ _ _ hinv hs => hinv.step hs) (inv_new info config hlot strategy startMs) h
  obtain ⟨hsized, hsend⟩ := (exec_sized (sized_new hinfo config hlot strategy startMs) hes h).written w hw
  obtain ⟨hquoted, hpermitted⟩ := hinv.written w hw hround
  unfold Written.request
  cases hd : w.decision.decision with
  | send side level price qty clOrdId =>
    obtain ⟨hprice, hqty, hpricePos, hqtyPos⟩ := hsized.send side level price qty clOrdId hd
    refine ⟨side, level, price, qty, clOrdId, rfl, hpricePos, hqtyPos, fun hpriceMax hqtyMax => ?_⟩
    rw [← hquoted] at hprice
    rw [← hpermitted] at hqty
    have hsizes : w.formatted.IsDecimal := hquoted ▸ hsized.quotedSizes
    exact executorRequest_says hsizes.1 hsizes.2 hprice hqty (by rwa [abs_of_pos hpricePos])
      (by rwa [abs_of_pos hqtyPos])
  | noAction | cancel | cancelAndReplace =>
    rw [hd] at hsend
    cases hsend

/-- What a Send is for. -/
def terms : OrderDecision → Option (Side × ℚ × ℚ)
  | .send side _ price qty _ => some (side, price, qty)
  | _ => none

/-- The first bid of the flat market, 1.8 at 99.98, is on the wire as these numbers. -/
theorem written_request_says_firstBid :
    ∃ s w r clOrdId, exec (step Trader.sqrtFlat) started (firstQuote ++ sendEvents) = some s ∧ w ∈ s.written ∧
      w.request "BTC-USD" = some r ∧ r.Says "BTC-USD" .buy (9998 / 100) (18 / 10) clOrdId := by
  have hrun : (exec (step Trader.sqrtFlat) started (firstQuote ++ sendEvents)).any (fun s =>
      s.written.any fun w => decide (w.checkedAt < w.decision.dispatchedAt + 2 ^ 64) &&
        decide (terms w.decision.decision = some (.buy, 9998 / 100, 18 / 10))) = true := by
    decide +kernel
  obtain ⟨s, hexec, hany⟩ := (Option.any_eq_true _ _).mp hrun
  obtain ⟨w, hw, hcheck⟩ := List.any_eq_true.mp hany
  simp only [Bool.and_eq_true, decide_eq_true_eq] at hcheck
  have hsizes : SharedSymbolInfo.precision ⟨1 / 100, 1 / 1000, 1 / 1000⟩ |>.IsDecimal :=
    ⟨⟨2, by norm_num, by norm_num [SharedSymbolInfo.precision]⟩,
      ⟨3, by norm_num, by norm_num [SharedSymbolInfo.precision]⟩⟩
  have hevents : ∀ e ∈ firstQuote ++ sendEvents, e.FromApi := by
    intro e he
    simp only [firstQuote, sendEvents, List.mem_append, List.mem_map, List.mem_cons, List.not_mem_nil,
      or_false] at he
    rcases he with ((((rfl | rfl | rfl | rfl) | ⟨n, -, rfl⟩) | rfl | rfl) |
      rfl | rfl | rfl | rfl | rfl | rfl | rfl | rfl | rfl | rfl) <;> trivial
  obtain ⟨side, level, price, qty, clOrdId, hd, -, -, hsays⟩ :=
    written_request_says Trader.sqrtFlat "BTC-USD" ⟨1 / 100, 1 / 1000, 1 / 1000⟩ .default (by norm_num)
      (.new Trader.fourASecond 1 5) 0 (firstQuote ++ sendEvents) s hsizes hevents hexec w hw hcheck.1
  have hdecided := hcheck.2
  rw [hd] at hdecided
  cases hdecided
  obtain ⟨r, hr, hsaid⟩ := hsays (by decide +kernel) (by decide +kernel)
  exact ⟨s, w, r, clOrdId, hexec, hw, hr, hsaid⟩

end TickFence

end MarketMaker
