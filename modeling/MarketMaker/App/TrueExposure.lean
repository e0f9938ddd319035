import Mathlib.Logic.Equiv.List
import Mathlib.Tactic.LinearCombination
import MarketMaker.App.DeskStep

/-!
# True exposure

The published position lags behind the exchange, and a slot reserves the whole quantity of an
order that may be half executed.  Together they still bound the true exposure, as long as every
fill that is not published is in its slot or keeps the manager paused.

## Results

* `Inv.exposure_le` — without a pause for the position, published position and slots bound the
  true position and the open orders.
* `not_live_not_executed` — a Send whose generation is over is never executed, so only live Sends
  count as open.
* `true_exposure_within_limit` — every Send of a timely run leaves its side within the limit.
* `unpublished_fill_exceeds_limit` — a cancel confirmation that overtakes its fill frees the slot
  with nobody waiting for the position: the next Send exceeds the limit.
-/

set_option autoImplicit false

namespace MarketMaker

open Word64
open OrderManager

namespace Desk

variable {x : Market} {session : String} {m : OrderManager}

/-! ## Accounting -/

/-- What a Send adds to the exposure of a side beyond the published position: its unpublished
    fills and, while it is live, what it has not executed. -/
def gain (x : Market) (s : Desk) (side : Side) (e : Sent) : ℚ :=
  side.sign * (e.side.sign * (s.venue.fills e.clOrdId - s.venue.published e.clOrdId)) * x.mid +
    if e.side = side ∧ e.Live s.manager.execution.generation then
      (e.quantity - s.venue.fills e.clOrdId) * max e.price x.mid else 0

theorem Inv.exposure_eq {s : Desk} (h : Inv x session s) (side : Side) :
    s.exposure x side =
      side.sign * s.venue.position.position * x.mid + (s.venue.sent.map (gain x s side)).sum := by
  have split : ∀ sent : List Sent,
      side.sign * (s.venue.start + (sent.map fun e => e.side.sign * s.venue.fills e.clOrdId).sum) * x.mid +
        (sent.map fun e => if e.side = side ∧ e.Live s.manager.execution.generation then
          (e.quantity - s.venue.fills e.clOrdId) * max e.price x.mid else 0).sum =
      side.sign * (s.venue.start + (sent.map fun e => e.side.sign * s.venue.published e.clOrdId).sum) *
        x.mid + (sent.map (gain x s side)).sum := by
    intro sent
    induction sent with
    | nil => rfl
    | cons e sent ih =>
      simp only [List.map_cons, List.sum_cons, gain] at ih ⊢
      linear_combination ih
  rw [h.consistent.position]
  exact split s.venue.sent

theorem sign_mul_sign {side side' : Side} : side.sign * side'.sign = if side' = side then 1 else -1 := by
  cases side <;> cases side' <;> simp [Side.sign]

/-- A Send in its slot adds at most what the slot reserves. -/
theorem gain_le_reserved {s : Desk} (h : Inv x session s) (hmid : 0 ≤ x.mid) {side : Side} {e : Sent}
    (he : e ∈ s.venue.sent) (hside : e.side = side) :
    gain x s side e ≤ e.quantity * max e.price x.mid := by
  have hnonneg := h.consistent.nonneg e.clOrdId
  have hfilled := h.consistent.filled e he
  have hpublished := h.consistent.published_le e.clOrdId
  have hmax : x.mid ≤ max e.price x.mid := le_max_right _ _
  have hfills : (s.venue.fills e.clOrdId - s.venue.published e.clOrdId) * x.mid
      ≤ s.venue.fills e.clOrdId * max e.price x.mid :=
    mul_le_mul (by linarith) hmax hmid (hnonneg.trans hpublished)
  have hopen : (e.quantity - s.venue.fills e.clOrdId) * max e.price x.mid ≥ 0 :=
    mul_nonneg (by linarith) (hmid.trans hmax)
  unfold gain
  rw [← mul_assoc, sign_mul_sign, if_pos hside, one_mul]
  split <;> linarith

/-- A Send on the other side, or one that needs no slot, adds nothing. -/
theorem gain_le_zero {s : Desk} (h : Inv x session s) (hmid : 0 ≤ x.mid) {side : Side} {e : Sent}
    (hquiet : e.side ≠ side ∨ ¬ e.Live s.manager.execution.generation ∧
      s.venue.fills e.clOrdId ≤ s.venue.published e.clOrdId) :
    gain x s side e ≤ 0 := by
  have hpublished := h.consistent.published_le e.clOrdId
  unfold gain
  rcases hquiet with hside | ⟨hdead, hle⟩
  · have : 0 ≤ (s.venue.fills e.clOrdId - s.venue.published e.clOrdId) * x.mid :=
      mul_nonneg (by linarith) hmid
    rw [← mul_assoc, sign_mul_sign, if_neg hside, if_neg fun hboth => hside hboth.1]
    linarith
  · have hzero : s.venue.fills e.clOrdId - s.venue.published e.clOrdId = 0 := by linarith
    rw [if_neg fun hboth => hdead hboth.2, hzero]
    simp

/-- **Without a pause for the position, the slots cover the true exposure**: it is at most the
    published position and what the side's slots reserve. -/
theorem Inv.exposure_le {s : Desk} (h : Inv x session s) (hmid : 0 ≤ x.mid)
    (hrisk : s.manager.hasPauseReason .riskData = false) (side : Side) :
    s.exposure x side ≤
      side.sign * s.venue.position.position * x.mid + s.manager.sideExposure side x.mid := by
  rw [h.exposure_eq]
  refine add_le_add_right ?_ _
  have hslots : ∀ level, 0 ≤ s.manager.slotExposure x.mid (side, level) := by
    intro level
    unfold slotExposure
    cases ho : s.manager.orders (side, level) with
    | none => exact le_rfl
    | some o => exact mul_nonneg (h.positive _ o ho).le (hmid.trans (le_max_right _ _))
  refine Ledger.sum_le_of_charged (fun level => (s.manager.orders (side, level)).map (·.clOrdId))
    hslots h.consistent.nodup ?_
  intro e he
  by_cases hside : e.side = side
  · rcases h.reserved e he with ⟨level, o, ho, hid, hprice, hquantity⟩ | ⟨hdead, hcovered⟩
    · subst hside
      refine Or.inr ⟨level, Finset.mem_univ level, by simp [ho, hid], ?_⟩
      have hreserved := gain_le_reserved h hmid he rfl
      simpa [slotExposure, ho, LiveOrder.exposure, hprice, hquantity] using hreserved
    · rcases hcovered with hle | ⟨hset, _⟩
      · exact Or.inl (gain_le_zero h hmid (Or.inr ⟨hdead, hle⟩))
      · rw [hrisk] at hset
        cases hset
  · exact Or.inl (gain_le_zero h hmid (Or.inl hside))

/-! ## Main theorem -/

theorem inv_exec {config : OrderManagerConfig} {startMs : Int} {position : SharedPosition}
    {es : List Event} {s : Desk} (hrun : Runs.exec (step x) (start config startMs position) es = some s)
    (htimely : Runs.Along (step x) (Timely x) (start config startMs position) es) :
    Inv x (OrderManager.new config startMs).sessionPrefix s :=
  Runs.exec_invariant_of _ (Timely x) (fun _ _ _ h hok hs => (h.step hok hs).inv)
    (inv_start x config startMs position) htimely hrun

/-- **What is not live is never executed**: a Send whose generation is over, or that is closed,
    keeps the fills it has. -/
theorem not_live_not_executed {config : OrderManagerConfig} {startMs : Int} {position : SharedPosition}
    {es es' : List Event} {s s' : Desk}
    (hrun : Runs.exec (step x) (start config startMs position) es = some s)
    (hrest : Runs.exec (step x) s es' = some s')
    (htimely : Runs.Along (step x) (Timely x) (start config startMs position) (es ++ es'))
    {e : Sent} (he : e ∈ s.venue.sent) (hdead : ¬ e.Live s.manager.execution.generation) :
    s'.venue.fills e.clOrdId = s.venue.fills e.clOrdId := by
  obtain ⟨hbefore, hafter⟩ := Runs.along_append htimely hrun
  have hkept := Runs.exec_invariant_of (fun t : Desk =>
      Inv x (OrderManager.new config startMs).sessionPrefix t ∧
        t.venue.fills e.clOrdId = s.venue.fills e.clOrdId ∧
        ∃ e₁ ∈ t.venue.sent, e₁.clOrdId = e.clOrdId ∧ ¬ e₁.Live t.manager.execution.generation)
    (Timely x) ?_ ⟨inv_exec hrun hbefore, rfl, e, he, rfl, hdead⟩ hafter hrest
  · exact hkept.2.1
  · rintro t event t' ⟨hinv, hfills, e₁, he₁, hid, hdead₁⟩ hok hs
    obtain ⟨hsame, e₂, he₂, hid₂, hdead₂⟩ := hinv.step_dead hok hs he₁ hdead₁
    rw [hid] at hsame hid₂
    exact ⟨(hinv.step hok hs).inv, hsame.trans hfills, e₂, he₂, hid₂, hdead₂⟩

/-- A quote that sends was made unpaused, at a positive mid price, and leaves the manager unpaused. -/
theorem onQuoteInto_sends_open {position limit : ℚ} {quote : Quote} {now : Int} {d : OrderDecision}
    (hd : d ∈ (m.onQuoteInto position limit quote now).2) (hsend : d.isSend = true) :
    (m.onQuoteInto position limit quote now).1.execution = m.execution ∧ m.Unpaused ∧
      ∃ mid, quote.midPrice = some mid ∧ 0 < mid := by
  have hexecution := m.onQuoteInto_execution position limit quote now
  have houtcome := m.onQuoteInto_outcome position limit quote now
  generalize m.onQuoteInto position limit quote now = r at *
  cases houtcome with
  | idle => cases hd
  | invalidLimit _ =>
    rw [cancelExposure_isSend _ now d hd] at hsend
    cases hsend
  | quoted mid quantity baseline hopen hmid _ hpos _ _ =>
    refine ⟨?_, hopen, mid, hmid, hpos⟩
    rcases hexecution with hsame | ⟨_, _, hnosend⟩
    · exact hsame
    · rw [hnosend d hd] at hsend
      cases hsend

/-- **True exposure stays within the limit**, at every Send of a run whose cancel confirmations
    are timely: the exchange's position and everything the side's live Sends may still add, marked
    at `max(price, mid)`, for every interleaving of the manager, the executor, the exchange, the
    poller and the reconciliations. -/
theorem true_exposure_within_limit (x : Market) (config : OrderManagerConfig) (startMs : Int)
    (position : SharedPosition) (es : List Event) (op : Operation) (s s' : Desk)
    (hrun : Runs.exec (step x) (start config startMs position) es = some s)
    (hop : step x s (.call op) = some s')
    (htimely : Runs.Along (step x) (Timely x) (start config startMs position) (es ++ [.call op]))
    (side : Side) (level : Level) (price qty : ℚ) (clOrdId : String)
    (hsend : .send side level price qty clOrdId ∈ (s.manager.apply op).2) :
    s'.exposure x side ≤ x.limit := by
  obtain ⟨hbefore, hlast⟩ := Runs.along_append htimely hrun
  have hinv := inv_exec hrun hbefore
  have hinv' := (hinv.step hlast.1 hop).inv
  simp only [Desk.step] at hop
  split at hop
  · rename_i hhonest
    by_cases hevent : op.IsEvent
    · have hnone := List.countP_eq_zero.mp (apply_event_sends (m := s.manager) hevent) _ hsend
      exact absurd rfl hnone
    · cases op with
      | quote position' limit quote now =>
        simp only [honest, Bool.and_eq_true, beq_iff_eq] at hhonest
        obtain ⟨⟨rfl, rfl⟩, hmid⟩ := hhonest
        obtain ⟨hexecution, hopen, mid, hmid', hpos⟩ := onQuoteInto_sends_open hsend rfl
        obtain ⟨mid', _, _, hmid'', _, _, hle, _⟩ := send_within_headroom _ _ _ _ _ _ _ _ _ _ hsend
        obtain rfl : x.mid = mid := Option.some.inj (hmid.symm.trans hmid')
        obtain rfl : x.mid = mid' := Option.some.inj (hmid.symm.trans hmid'')
        have hrisk : ((s.manager.onQuoteInto s.venue.position.position x.limit quote now).1).hasPauseReason
            .riskData = false := by
          show ExecutionState.hasPauseReason _ _ = false
          rw [hexecution]
          exact ExecutionState.Open.no_reason hopen .riskData
        cases hop
        exact (hinv'.exposure_le hpos.le hrisk side).trans hle
      | _ => exact absurd trivial hevent
  · cases hop

/-! ## Two bids -/

/-- A market around 100 with a limit of 1000 dollars. -/
def aroundHundred : Market where
  mid := 100
  limit := 1000
  orderId clOrdId := Encodable.encode (clOrdId.toList.map Char.toNat) + 1
  orderId_ne_zero clOrdId := by omega
  orderId_inj a b h := by
    have hcodes : a.toList.map Char.toNat = b.toList.map Char.toNat :=
      Encodable.encode_injective (by simpa using h)
    exact String.toList_injective ((List.map_injective_iff.mpr fun _ _ => Char.toNat_inj.mp) hcodes)

/-- A bid that takes what the position leaves of the limit. -/
def bidAt (price position : ℚ) : Operation :=
  .quote position 1000 (.oneLevel (some price) none 20 100) 0

def firstId : String := "mm_TEST-USD_7_0_0_1"

/-- The first bid, for 10 units, is half executed when the price moves; the exchange cancels the
    rest. -/
def halfFilled : List Event :=
  [.call (bidAt 99 0), .take firstId, .write firstId, .call (.accepted firstId 0), .fill firstId 5,
   .call (bidAt 98 0), .close firstId]

/-- The position is published before the cancel confirmation arrives. -/
def halfFilledPublished : List Event :=
  halfFilled ++ [.queryPosition, .samplePosition, .publishPosition 1,
    .call (.canceledByClOrdId firstId)]

/-- The cancel confirmation arrives before the fill notice and the position. -/
def halfFilledConfirmed : List Event := halfFilled ++ [.call (.canceledByClOrdId firstId)]

/-- The manager at the start. -/
def atStart : Desk := start .default 7 .new

/-- Run the events and then the bid: the desk before it and the desk after it. -/
def thenBid (es : List Event) (position : ℚ) : Option (Desk × Desk) :=
  (Runs.exec (step aroundHundred) atStart es).bind fun s =>
    (step aroundHundred s (.call (bidAt 98 position))).map (s, ·)

theorem thenBid_some {es : List Event} {position : ℚ} {r : Desk × Desk}
    (h : thenBid es position = some r) :
    Runs.exec (step aroundHundred) atStart es = some r.1 ∧
      step aroundHundred r.1 (.call (bidAt 98 position)) = some r.2 := by
  obtain ⟨s, hs, hstep⟩ := Option.bind_eq_some_iff.mp h
  obtain ⟨s', hs', rfl⟩ := Option.map_eq_some_iff.mp hstep
  exact ⟨hs, hs'⟩

/-- With 5 units in the published position the next bid is for 5 units. -/
theorem true_exposure_within_limit_published :
    ∃ s s', Runs.exec (step aroundHundred) atStart halfFilledPublished = some s ∧
      step aroundHundred s (.call (bidAt 98 5)) = some s' ∧ s'.exposure aroundHundred .buy ≤ 1000 := by
  have hsend : (thenBid halfFilledPublished 5).any (fun r => decide
      (.send .buy 0 98 5 "mm_TEST-USD_7_0_0_2" ∈ (r.1.manager.apply (bidAt 98 5)).2)) = true := by
    decide +kernel
  have htimely : Runs.Along (step aroundHundred) (Timely aroundHundred) atStart
      (halfFilledPublished ++ [.call (bidAt 98 5)]) := by
    decide +kernel
  obtain ⟨⟨s, s'⟩, hr, hmem⟩ := (Option.any_eq_true _ _).mp hsend
  obtain ⟨hrun, hstep⟩ := thenBid_some hr
  exact ⟨s, s', hrun, hstep, true_exposure_within_limit aroundHundred .default 7 .new
    halfFilledPublished (bidAt 98 5) s s' hrun hstep htimely .buy 0 98 5 "mm_TEST-USD_7_0_0_2"
    (of_decide_eq_true hmem)⟩

/-- **A fill that is not published yet breaks the limit.**  The cancel of a half executed bid is
    confirmed before its fill: the slot is free, nobody waits for a position, and the next bid is
    for the whole limit again. -/
theorem unpublished_fill_exceeds_limit :
    ∃ s s', Runs.exec (step aroundHundred) atStart halfFilledConfirmed = some s ∧
      step aroundHundred s (.call (bidAt 98 0)) = some s' ∧
      .send .buy 0 98 10 "mm_TEST-USD_7_0_0_2" ∈ (s.manager.apply (bidAt 98 0)).2 ∧
      aroundHundred.limit < s'.exposure aroundHundred .buy := by
  have hexceeds : (thenBid halfFilledConfirmed 0).any (fun r => decide
      (.send .buy 0 98 10 "mm_TEST-USD_7_0_0_2" ∈ (r.1.manager.apply (bidAt 98 0)).2 ∧
        aroundHundred.limit < r.2.exposure aroundHundred .buy)) = true := by
    decide +kernel
  obtain ⟨⟨s, s'⟩, hr, hholds⟩ := (Option.any_eq_true _ _).mp hexceeds
  obtain ⟨hrun, hstep⟩ := thenBid_some hr
  exact ⟨s, s', hrun, hstep, of_decide_eq_true hholds⟩

end Desk

end MarketMaker
