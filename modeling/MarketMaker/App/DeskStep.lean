import MarketMaker.App.Reservation

/-!
# Every event of a desk keeps the invariant

The arms of the application, the Sends on their way, the exchange and the poller, each with the
lemma that it keeps `Desk.Inv`.

* `Timely` — the side condition: no 64-bit counter is about to wrap, and a cancel confirmation
  finds the fills of its order covered.
* `Inv.step` — every timely event keeps the invariant, and the generation does not go back.
* `Inv.step_dead` — a Send that is not live is not executed and does not come alive.
-/

set_option autoImplicit false

namespace MarketMaker

open Word64
open Ledger (Poller Lags Awaits)
open OrderManager

namespace Desk

variable {x : Market} {session : String} {m : OrderManager} {v : Venue}

/-! ## The arms of the application -/

theorem Inv.withCleanup (h : Inv x session ⟨m, v⟩) {cleanup : CleanupStage}
    (hpaused : cleanup ≠ .idle → m.hasPauseReason .reconciliation = true)
    (hdrained : cleanup = .verified → v.drained = true) :
    Inv x session ⟨m, { v with cleanup := cleanup }⟩ :=
  { h with
    consistent := { h.consistent with position := h.consistent.position }
    paused := hpaused
    drained := hdrained }

theorem positionRefresh_answer (m : OrderManager) (position : SharedPosition)
    (h : (m.positionRefreshAfterFillComplete position).1 = true) :
    (m.positionRefreshAfterFillComplete position).2.resumeAfterPositionVersion = none := by
  cases hresume : m.resumeAfterPositionVersion with
  | none => simp [positionRefreshAfterFillComplete, hresume]
  | some required =>
    simp only [positionRefreshAfterFillComplete, hresume] at h ⊢
    split at h
    · cases h
    · rename_i hcome
      rw [if_neg hcome]

/-- The risk check clears `RiskData` only when the awaited publication has come. -/
theorem Inv.checkRisk (h : Inv x session ⟨m, v⟩) (hversion : v.position.updateVersion + 2 ≤ maxValue)
    (hgeneration : m.execution.generation + 2 ≤ maxValue) (sourcesFresh : Bool) :
    Onward x session v 2 m (App.refreshRiskPause m v.position sourcesFresh).2 := by
  have hread : Onward x session v 0 m (m.positionRefreshAfterFillComplete v.position).2 :=
    h.event (.positionRefreshComplete v.position) trivial (by simp [honest])
      (confirmsCovered_of_nil rfl) hversion (by simp [Operation.bumps]; omega)
  have hanswer := positionRefresh_answer m v.position
  unfold App.refreshRiskPause
  generalize m.positionRefreshAfterFillComplete v.position = r at *
  obtain ⟨current, m'⟩ := r
  dsimp only at *
  have hbound := hread.le_generation
  split
  · rename_i hclear
    have hnone := hanswer (by simpa using (Bool.and_eq_true_iff.mp hclear).2)
    have hbaseline : Onward x session v 0 m' (m'.initializePositionBaseline v.position) :=
      hread.inv.event (.initializePositionBaseline v.position) trivial (by simp [honest])
        (confirmsCovered_of_nil rfl) hversion (by simp [Operation.bumps]; omega)
    have hnone' : (m'.initializePositionBaseline v.position).resumeAfterPositionVersion = none := by
      unfold initializePositionBaseline
      split <;> exact hnone
    have hbound' := hbaseline.le_generation
    have hcleared : Onward x session v 2 (m'.initializePositionBaseline v.position)
        ((m'.initializePositionBaseline v.position).clearPauseReason .riskData) := by
      have hclears := hbaseline.inv.apply_event (.clearPauseReason .riskData) trivial
        (by simp [Operation.bumps]; omega) (fun _ _ heq => by cases heq)
        (fun r _ _ hr => by rw [hnone'] at hr; cases hr) (fun hclears => by cases hclears)
        (fun _ _ _ hterminal => hterminal.elim)
      exact ⟨hclears.inv, le_rfl, Nat.le_add_right _ 2⟩
    exact (hread.trans hbaseline).trans hcleared
  · have hset : Onward x session v 1 m' (m'.setPauseReason .riskData) :=
      hread.inv.event (.setPauseReason .riskData) trivial rfl (confirmsCovered_of_nil rfl) hversion
        (by simp [Operation.bumps]; omega)
    have hbound' := hset.le_generation
    split
    · have hbegun : Onward x session v 1 (m'.setPauseReason .riskData)
          (m'.setPauseReason .riskData).beginReconciliation :=
        hset.inv.event (.setPauseReason .reconciliation) trivial rfl (confirmsCovered_of_nil rfl)
          hversion (by simp [Operation.bumps]; omega)
      exact (hread.trans hset).trans hbegun
    · exact (hread.trans hset).trans (hset.inv.onward 1)

theorem Inv.requirePositionRefresh (h : Inv x session ⟨m, v⟩)
    (hversion : v.position.updateVersion + 2 ≤ maxValue)
    (hgeneration : m.execution.generation + 1 ≤ maxValue) :
    Onward x session v 1 m (m.requirePositionRefreshAfterFill v.position) :=
  h.event (.requirePositionRefresh v.position) trivial (by simp [honest]) (confirmsCovered_of_nil rfl)
    hversion (by simpa [Operation.bumps] using hgeneration)

theorem Inv.enterReconciliation (h : Inv x session ⟨m, v⟩)
    (hversion : v.position.updateVersion + 2 ≤ maxValue)
    (hgeneration : m.execution.generation + 2 ≤ maxValue) :
    Onward x session { v with cleanup := .running } 2 m (App.enterReconciliation m v.position) := by
  have begun : ∀ m', Inv x session ⟨m', v⟩ → m'.execution.generation + 1 ≤ maxValue →
      Onward x session { v with cleanup := .running } 1 m' m'.beginReconciliation := by
    intro m' h' hbound
    have hset := h'.event (.setPauseReason .reconciliation) trivial rfl (confirmsCovered_of_nil rfl)
      hversion (by simpa [Operation.bumps] using hbound)
    exact { hset with
      inv := hset.inv.withCleanup (fun _ => ExecutionState.hasPauseReason_set_self _ _) fun h => by cases h }
  unfold App.enterReconciliation
  split
  · exact (h.onward 1).trans (begun m h (by omega))
  · have hrequired := h.requirePositionRefresh hversion (by omega)
    have hbound := hrequired.le_generation
    exact hrequired.trans (begun _ hrequired.inv (by omega))

/-- The end of a verified cleanup frees every slot, with nothing open and everyone waiting. -/
theorem Inv.finishReconciliation (h : Inv x session ⟨m, v⟩) (hverified : v.cleanup = .verified)
    (hversion : v.position.updateVersion + 2 ≤ maxValue)
    (hgeneration : m.execution.generation + 1 ≤ maxValue) :
    Onward x session { v with cleanup := .idle } 1 m
      (m.requirePositionRefreshAfterFill v.position).finishReconciliation := by
  have hrequired := h.requirePositionRefresh hversion hgeneration
  obtain ⟨r, hr, hle, _⟩ := m.requirePositionRefresh_resume v.position
  have hrisk := m.requirePositionRefresh_riskData v.position
  generalize m.requirePositionRefreshAfterFill v.position = m' at *
  have hbound := hrequired.le_generation
  have hreconciling := hrequired.inv.paused (by rw [hverified]; simp)
  have hclosed : ¬ m'.execution.Open := not_unpaused_of_reason hreconciling
  have hkeeps : KeepsWaiting v m' (m'.apply .finishReconciliation).1 := fun r' _ hrisk' hr' =>
    apply_keeps_waiting (by rintro (h | h | h) <;> cases h) (fun _ heq => by cases heq) hrisk' hr'
  have hidle : Inv x session ⟨m', { v with cleanup := .idle }⟩ :=
    hrequired.inv.withCleanup (fun h => absurd rfl h) (fun h => by cases h)
  refine hrequired.trans (hidle.apply_event .finishReconciliation trivial
    (by simp [Operation.bumps]; omega) (fun _ _ heq => by cases heq) hkeeps (fun _ => rfl) ?_)
  intro i o _ _ e he _
  have hlive : ¬ e.Live m'.execution.generation := by
    have hstage := List.all_eq_true.mp (h.drained hverified) e he
    unfold Sent.Live
    split
    · rename_i g hg
      exact ((hrequired.inv.tags e he g hg).2 hclosed).ne
    · rename_i hstage'
      simp [hstage'] at hstage
    · rename_i hstage'
      simp [hstage'] at hstage
    · exact id
  have hcovered : Covered m' v e.clOrdId := by
    rw [requiredVersion, saturatingAdd_of_le hversion] at hle
    exact Or.inr ⟨hrisk, r, hr, Or.inl hle⟩
  exact hidle.released_keep he ⟨hlive, hcovered⟩ le_rfl hkeeps

theorem Inv.confirmOrders {symbol : String} (hversion : v.position.updateVersion + 2 ≤ maxValue)
    {os : List App.ObservedOpenOrder}
    (hhonest : ∀ o ∈ os, ∀ clOrdId, o.clOrdId = some clOrdId →
      honest x v (.accepted clOrdId o.orderId) = true)
    {m : OrderManager} (h : Inv x session ⟨m, v⟩) (hgeneration : m.execution.generation + 1 ≤ maxValue)
    (confirmed : Nat) :
    Onward x session v 1 m (App.confirmOrders symbol v.position m confirmed os).1 := by
  induction os generalizing m confirmed with
  | nil => exact h.onward 1
  | cons o os ih =>
    have hrest := fun {m} => ih (fun o' ho' => hhonest o' (List.mem_cons_of_mem o ho')) (m := m)
    unfold App.confirmOrders
    split
    · exact h.onward 1
    · rename_i clOrdId hid
      split
      · exact hrest h hgeneration confirmed
      · split
        · exact h.requirePositionRefresh hversion hgeneration
        · have haccepted : Onward x session v 0 m (m.onOrderAccepted clOrdId o.orderId).2 :=
            h.event (.accepted clOrdId o.orderId) trivial (hhonest o List.mem_cons_self clOrdId hid)
              (confirmsCovered_of_nil rfl) hversion (by simp [Operation.bumps]; omega)
          have hbound := haccepted.le_generation
          dsimp only
          split
          · exact haccepted.trans (hrest haccepted.inv (by omega) (confirmed + 1))
          · exact haccepted.trans (haccepted.inv.onward 1)

/-- A snapshot confirms, waits for the position, or does nothing. -/
theorem Inv.openOrders (h : Inv x session ⟨m, v⟩) {snapshot : App.OpenOrdersSnapshot}
    (hhonest : honestSnapshot x v snapshot = true)
    (hversion : v.position.updateVersion + 2 ≤ maxValue)
    (hgeneration : m.execution.generation + 1 ≤ maxValue) :
    Onward x session v 1 m (App.applySnapshot m v.position snapshot).1 := by
  unfold App.applySnapshot
  split
  · exact h.onward 1
  · split
    · exact h.requirePositionRefresh hversion hgeneration
    · split
      · exact h.requirePositionRefresh hversion hgeneration
      · refine h.confirmOrders hversion ?_ hgeneration 0
        intro o ho clOrdId hid
        have := List.all_eq_true.mp hhonest o ho
        simpa [hid] using this

/-! ## Sends on their way -/

/-- A live Send moves on, or any Send closes; its slot stays. -/
theorem Inv.setStage (h : Inv x session ⟨m, v⟩) {e : Sent} (he : e ∈ v.sent) {stage : Stage}
    (hlive : stage ≠ .closed → e.Live m.execution.generation ∧ v.cleanup ≠ .verified)
    (hwaiting : stage.waiting = true → e.stage.waiting = true) (hqueued : ∀ g, stage ≠ .queued g) :
    Inv x session ⟨m, v.setStage e.clOrdId stage⟩ := by
  have hlength : (v.setStage e.clOrdId stage).sent.length = v.sent.length := List.length_map _
  have hopen : stage ≠ .closed → e.stage ≠ .closed := by
    intro hstage hclosed
    have := (hlive hstage).1
    simp [Sent.Live, hclosed] at this
  have moved : ∀ {e'}, e' ∈ (v.setStage e.clOrdId stage).sent →
      e' = { e with stage := stage } ∨ e' ∈ v.sent := h.consistent.of_mem_setStage he
  refine ⟨h.consistent.setStage he hopen hwaiting, ?_, ?_, h.positive, h.bound, ?_, ?_, ?_, h.paused, ?_⟩
  · rw [hlength]
    exact h.count
  · rw [hlength]
    exact h.tracked
  · intro e' he'
    rw [hlength]
    rcases moved he' with rfl | he'
    · exact h.issued e he
    · exact h.issued e' he'
  · intro e' he'
    rcases moved he' with rfl | he'
    · rcases h.reserved e he with hreserved | ⟨hdead, hcovered⟩
      · exact Or.inl hreserved
      · by_cases hstage : stage = .closed
        · subst hstage
          exact Or.inr ⟨id, hcovered⟩
        · exact absurd (hlive hstage).1 hdead
    · exact h.reserved e' he'
  · intro e' he' g hg
    rcases moved he' with rfl | he'
    · exact absurd hg (hqueued g)
    · exact h.tags e' he' g hg
  · intro hverified
    refine List.all_eq_true.mpr fun e' he' => ?_
    rcases moved he' with rfl | he'
    · by_cases hstage : stage = .closed
      · subst hstage
        rfl
      · exact absurd hverified (hlive hstage).2
    · exact List.all_eq_true.mp (h.drained hverified) e' he'

/-- While a cleanup is verified no live Send is about to move. -/
theorem Inv.not_verified (h : Inv x session ⟨m, v⟩) {e : Sent} (he : e ∈ v.sent)
    (hmoves : e.stage = .inHand ∨ e.stage = .written ∨ m.execution.Open) :
    v.cleanup ≠ .verified := by
  intro hverified
  have hdrained := List.all_eq_true.mp (h.drained hverified) e he
  rcases hmoves with hstage | hstage | hopen
  · simp [hstage] at hdrained
  · simp [hstage] at hdrained
  · exact not_unpaused_of_reason (h.paused (by rw [hverified]; simp)) hopen

theorem Inv.close (h : Inv x session ⟨m, v⟩) {e : Sent} (he : e ∈ v.sent) :
    Inv x session ⟨m, v.setStage e.clOrdId .closed⟩ :=
  h.setStage he (fun hne => absurd rfl hne) (fun hw => by cases hw) (fun g hg => by cases hg)

/-- The executor takes what its generation permits and drops the rest. -/
theorem Inv.take (h : Inv x session ⟨m, v⟩) {e : Sent} (he : e ∈ v.sent) {g : Nat}
    (hg : e.stage = .queued g) :
    Inv x session ⟨m, v.setStage e.clOrdId (if m.execution.permits g then .inHand else .closed)⟩ := by
  split
  · rename_i hpermits
    obtain ⟨hopen, rfl⟩ := (ExecutionState.permits_iff _ _).mp hpermits
    refine h.setStage he (fun _ => ⟨by simp [Sent.Live, hg], h.not_verified he (Or.inr (Or.inr hopen))⟩)
      (fun _ => ?_) (fun g' hg' => by cases hg')
    rw [hg]
    rfl
  · exact h.close he

/-- A Send that `try_send` refused is closed, and its slot freed. -/
theorem Inv.undelivered (h : Inv x session ⟨m, v⟩) (side : Side) (level : Level) (price qty : ℚ)
    {clOrdId : String} {e : Sent} (he : v.find clOrdId = some e) (hwaiting : e.stage.waiting = true)
    (hgeneration : m.execution.generation ≤ maxValue) :
    Onward x session (v.setStage clOrdId .closed) 0 m
      (m.onDispatchFailed (.send side level price qty clOrdId)) := by
  obtain ⟨hmem, rfl⟩ := Venue.find_some he
  have hclosed := h.close hmem
  refine hclosed.apply_event (.dispatchFailed (.send side level price qty e.clOrdId)) trivial
    (by simpa [Operation.bumps] using hgeneration) (fun _ _ heq => by cases heq) ?_
    (fun hclears => hclears.elim) ?_
  · intro r _ hrisk hr
    exact apply_keeps_waiting id (fun _ heq => by cases heq) hrisk hr
  · intro i o _ hterminal e' he' hid
    have hnamed : e'.clOrdId = e.clOrdId := hid.trans hterminal
    obtain rfl := hclosed.consistent.eq_of_id he' (Venue.mem_setStage_self hmem .closed) hnamed
    exact released_of_unfilled hclosed.consistent _ rfl (h.consistent.waiting e hmem hwaiting)

/-! ## The exchange and the poller -/

/-- An order whose slot holds it fills up. -/
theorem Inv.fill (h : Inv x session ⟨m, v⟩) {e : Sent} (he : e ∈ v.sent) (hreserved : Reserves m e)
    (hwritten : e.stage.waiting = false) {total : ℚ} (hgrows : v.fills e.clOrdId ≤ total)
    (hle : total ≤ e.quantity) (hopen : e.stage ≠ .closed → total < e.quantity) :
    Inv x session ⟨m, { v with fills := Function.update v.fills e.clOrdId total }⟩ := by
  have other : ∀ {e'}, e' ∈ v.sent → e' ≠ e → e'.clOrdId ≠ e.clOrdId := fun he' hne hid =>
    hne (h.consistent.eq_of_id he' he hid)
  refine { h with
    consistent := ⟨h.consistent.nodup, h.consistent.lags.grow ?_, h.consistent.nonneg, ?_, ?_, ?_, ?_,
      h.consistent.position⟩, reserved := ?_ }
  · exact le_update_self_iff.mpr hgrows
  · intro clOrdId hnone
    dsimp only
    rw [Function.update_of_ne fun heq => hnone e he heq.symm]
    exact h.consistent.unsent clOrdId hnone
  · intro e' he' hwaiting
    have hne : e' ≠ e := by
      rintro rfl
      rw [hwritten] at hwaiting
      cases hwaiting
    dsimp only
    rw [Function.update_of_ne (other he' hne)]
    exact h.consistent.waiting e' he' hwaiting
  · intro e' he'
    by_cases hne : e' = e
    · subst hne
      dsimp only
      rw [Function.update_self]
      exact hle
    · dsimp only
      rw [Function.update_of_ne (other he' hne)]
      exact h.consistent.filled e' he'
  · intro e' he' hstage
    by_cases hne : e' = e
    · subst hne
      dsimp only
      rw [Function.update_self]
      exact hopen hstage
    · dsimp only
      rw [Function.update_of_ne (other he' hne)]
      exact h.consistent.unfilled e' he' hstage
  · intro e' he'
    by_cases hne : e' = e
    · subst hne
      exact Or.inl hreserved
    · have hsame : Function.update v.fills e.clOrdId total e'.clOrdId = v.fills e'.clOrdId :=
        Function.update_of_ne (other he' hne) _ _
      rcases h.reserved e' he' with hslot | ⟨hdead, hcovered⟩
      · exact Or.inl hslot
      · refine Or.inr ⟨hdead, ?_⟩
        unfold Covered at *
        dsimp only at hcovered ⊢
        rw [hsame]
        exact hcovered

/-- An open order is executed in part, or in full and then closed. -/
theorem Inv.execute (h : Inv x session ⟨m, v⟩) {e : Sent} (he : e ∈ v.sent)
    (hwritten : e.stage = .written) {total : ℚ} (hgrows : v.fills e.clOrdId ≤ total)
    (hle : total ≤ e.quantity) :
    Inv x session ⟨m, { v.setStage e.clOrdId (if total = e.quantity then .closed else .written) with
      fills := Function.update v.fills e.clOrdId total }⟩ := by
  have hlive : e.Live m.execution.generation := by simp [Sent.Live, hwritten]
  have hreserved : Reserves m e := (h.reserved e he).resolve_right fun hreleased => hreleased.1 hlive
  by_cases hfull : total = e.quantity
  · rw [if_pos hfull]
    exact (h.close he).fill (Venue.mem_setStage_self he _) hreserved rfl hgrows hle fun hne => absurd rfl hne
  · rw [if_neg hfull]
    have hmoved : Inv x session ⟨m, v.setStage e.clOrdId .written⟩ := h.setStage he
      (fun _ => ⟨hlive, h.not_verified he (Or.inr (Or.inl hwritten))⟩) (fun hw => by cases hw)
      (fun g hg => by cases hg)
    exact hmoved.fill (Venue.mem_setStage_self he _) hreserved rfl hgrows hle
      fun _ => lt_of_le_of_ne hle hfull

/-- A step of the poller that publishes nothing. -/
theorem Inv.poll (h : Inv x session ⟨m, v⟩) {poller : Poller Fills}
    (hlags : Lags v.fills v.published poller)
    (hawaits : ∀ clOrdId r version,
      Awaits (fun fills => v.fills clOrdId ≤ fills clOrdId) r version v.poller →
      Awaits (fun fills => v.fills clOrdId ≤ fills clOrdId) r version poller) :
    Inv x session ⟨m, { v with poller := poller }⟩ := by
  refine { h with
    consistent := { h.consistent with lags := hlags, position := h.consistent.position }
    reserved := ?_ }
  intro e he
  rcases h.reserved e he with hslot | ⟨hdead, hcovered | ⟨hrisk, r, hr, hwaits⟩⟩
  · exact Or.inl hslot
  · exact Or.inr ⟨hdead, Or.inl hcovered⟩
  · exact Or.inr ⟨hdead, Or.inr ⟨hrisk, r, hr, hawaits _ _ _ hwaits⟩⟩

theorem Inv.giveUp (h : Inv x session ⟨m, v⟩) (poller : Poller Fills) (hp : ∀ P, poller.InHand P) :
    Inv x session ⟨m, { v with poller := poller }⟩ :=
  h.poll (h.consistent.lags.drop hp) fun _ _ _ hwaits => hwaits.drop hp

/-- A publication brings the fills someone waits for, or is not the last one to wait for. -/
theorem Inv.publish (h : Inv x session ⟨m, v⟩) {fills : Fills} (hpoller : v.poller = .sampled fills)
    (hversion : v.position.updateVersion + 2 ≤ maxValue) (nowMs : Nat) :
    Inv x session ⟨m, { v with
      position := v.position.set (v.positionAt fills) nowMs
      published := fills
      poller := .idle }⟩ := by
  have hlags := h.consistent.lags
  rw [hpoller] at hlags
  have hcount : (v.position.set (v.positionAt fills) nowMs).updateVersion
      = v.position.updateVersion + 1 := by
    refine wrappingAdd_of_lt ?_
    unfold maxValue at hversion
    unfold size
    omega
  refine { h with
    consistent := { h.consistent with
      lags := hlags.publish
      nonneg := fun clOrdId => (h.consistent.nonneg clOrdId).trans (hlags.inHand.1 clOrdId)
      position := rfl }
    reserved := ?_ }
  intro e he
  rcases h.reserved e he with hslot | ⟨hdead, hcovered | ⟨hrisk, r, hr, hwaits⟩⟩
  · exact Or.inl hslot
  · exact Or.inr ⟨hdead, Or.inl (hcovered.trans (hlags.inHand.1 e.clOrdId))⟩
  · dsimp only at hwaits
    rw [hpoller] at hwaits
    rcases hwaits.publish with hcontains | hwaits
    · exact Or.inr ⟨hdead, Or.inl hcontains⟩
    · refine Or.inr ⟨hdead, Or.inr ⟨hrisk, r, hr, ?_⟩⟩
      dsimp only
      rw [hcount]
      exact hwaits

/-! ## Runs -/

/-- No 64-bit counter is about to wrap: neither the ids, nor the pause generation, nor the count
    of publications. -/
def Unwrapped (s : Desk) : Prop :=
  s.venue.sent.length + 4 ≤ size ∧ s.manager.execution.generation + 2 ≤ maxValue ∧
    s.venue.position.updateVersion + 2 ≤ maxValue

instance (s : Desk) : Decidable s.Unwrapped := inferInstanceAs (Decidable (_ ∧ _))

/-- The event wraps no counter and confirms no cancel of an order with fills that the manager
    neither knows nor waits for. -/
def Timely (x : Market) (s : Desk) (e : Event) : Prop := s.Unwrapped ∧ ConfirmsCovered x s e

instance (x : Market) (s : Desk) (e : Event) : Decidable (Timely x s e) :=
  inferInstanceAs (Decidable (_ ∧ _))

theorem bumps_le (op : Operation) : op.bumps ≤ 2 := by
  cases op <;> simp [Operation.bumps]

theorem Inv.call (h : Inv x session ⟨m, v⟩) {op : Operation} (hhonest : honest x v op = true)
    (htimely : Timely x ⟨m, v⟩ (.call op)) :
    Onward x session { v with
      sent := v.sent ++ (m.apply op).2.filterMap (sentOf (m.apply op).1.execution.generation) } 2 m
      (m.apply op).1 := by
  obtain ⟨⟨hcount, hgeneration, hversion⟩, hcovers⟩ := htimely
  have hbumps := bumps_le op
  dsimp only at hcount hgeneration hversion
  by_cases hop : op.IsEvent
  · have hnone : (m.apply op).2.filterMap (sentOf (m.apply op).1.execution.generation) = [] :=
      List.eq_nil_of_length_eq_zero ((length_sentOf _ _).trans (apply_event_sends hop))
    rw [hnone, List.append_nil]
    exact (h.event op hop hhonest hcovers hversion (by omega)).mono hbumps
  · cases op with
    | quote position limit quote now => exact (h.quote position limit quote now hcount (by omega)).mono (by omega)
    | _ => exact absurd trivial hop

/-- **Every timely event keeps the invariant.** -/
theorem Inv.step {s s' : Desk} {e : Event} (h : Inv x session s) (htimely : Timely x s e)
    (hs : step x s e = some s') :
    Onward x session s'.venue 2 s.manager s'.manager := by
  obtain ⟨m, v⟩ := s
  have hunwrapped := htimely.1
  obtain ⟨hcount, hgeneration, hversion⟩ := hunwrapped
  dsimp only at hcount hgeneration hversion
  cases e with
  | call op =>
    simp only [Desk.step] at hs
    split at hs
    · rename_i hhonest
      cases hs
      exact h.call hhonest htimely
    · cases hs
  | openOrders snapshot =>
    simp only [Desk.step] at hs
    split at hs
    · rename_i hhonest
      cases hs
      exact (h.openOrders hhonest hversion (by omega)).mono (by omega)
    · cases hs
  | checkRisk sourcesFresh =>
    cases hs
    exact h.checkRisk hversion hgeneration sourcesFresh
  | undelivered decision =>
    cases decision with
    | send side level price qty clOrdId =>
      simp only [Desk.step] at hs
      split at hs
      · rename_i hfind
        cases hs
        exact (h.undelivered side level price qty hfind rfl (by omega)).mono (by omega)
      · cases hs
    | noAction | cancel | cancelAndReplace => cases hs
  | beginReconciliation =>
    simp only [Desk.step] at hs
    split at hs
    · cases hs
      exact h.enterReconciliation hversion hgeneration
    · cases hs
  | verifyCleanup =>
    simp only [Desk.step] at hs
    split at hs
    · rename_i hready
      cases hs
      exact (h.withCleanup (fun _ => h.paused (by rw [hready.1]; simp)) fun _ => hready.2).onward 2
    · cases hs
  | finishReconciliation =>
    simp only [Desk.step] at hs
    split at hs
    · rename_i hverified
      cases hs
      exact (h.finishReconciliation hverified hversion (by omega)).mono (by omega)
    · cases hs
  | take clOrdId =>
    simp only [Desk.step] at hs
    split at hs
    · rename_i hfind
      obtain ⟨hmem, rfl⟩ := Venue.find_some hfind
      cases hs
      exact (h.take hmem rfl).onward 2
    · cases hs
  | write clOrdId =>
    simp only [Desk.step] at hs
    split at hs
    · rename_i hfind
      obtain ⟨hmem, rfl⟩ := Venue.find_some hfind
      cases hs
      exact (h.setStage hmem (fun _ => ⟨trivial, h.not_verified hmem (Or.inl rfl)⟩)
        (fun hw => by cases hw) (fun g hg => by cases hg)).onward 2
    · cases hs
  | discard clOrdId =>
    simp only [Desk.step] at hs
    split at hs
    · rename_i hfind
      obtain ⟨hmem, rfl⟩ := Venue.find_some hfind
      cases hs
      exact (h.close hmem).onward 2
    · cases hs
  | fill clOrdId quantity =>
    simp only [Desk.step] at hs
    split at hs
    · rename_i hfind
      obtain ⟨hmem, rfl⟩ := Venue.find_some hfind
      split at hs
      · rename_i hfills
        cases hs
        exact (h.execute hmem rfl (le_add_of_nonneg_right hfills.1.le) hfills.2).onward 2
      · cases hs
    · cases hs
  | close clOrdId =>
    simp only [Desk.step] at hs
    split at hs
    · rename_i hfind
      obtain ⟨hmem, rfl⟩ := Venue.find_some hfind
      cases hs
      exact (h.close hmem).onward 2
    · cases hs
  | queryPosition =>
    simp only [Desk.step] at hs
    split at hs
    · cases hs
      exact (h.giveUp .querying fun _ => trivial).onward 2
    · cases hs
  | samplePosition =>
    simp only [Desk.step] at hs
    split at hs
    · cases hs
      exact (h.poll h.consistent.lags.sample fun _ _ _ hwaits => hwaits.sample le_rfl).onward 2
    · cases hs
  | dropPoll =>
    cases hs
    exact (h.giveUp .idle fun _ => trivial).onward 2
  | publishPosition nowMs =>
    simp only [Desk.step] at hs
    split at hs
    · rename_i hpoller
      cases hs
      exact (h.publish hpoller hversion nowMs).onward 2
    · cases hs

/-- Only live Sends move on; the others stay dead. -/
theorem Inv.dead_setStage {s : Desk} (h : Inv x session s) {e e' : Sent} (he : e ∈ s.venue.sent)
    (he' : e' ∈ s.venue.sent) {stage : Stage} {generation : Nat}
    (hlive : stage ≠ .closed → e'.Live generation) (hdead : ¬ e.Live generation) :
    ∃ e₁ ∈ (s.venue.setStage e'.clOrdId stage).sent, e₁.clOrdId = e.clOrdId ∧ ¬ e₁.Live generation := by
  by_cases heq : e = e'
  · subst heq
    have hstage : stage = .closed := by
      by_contra hne
      exact hdead (hlive hne)
    subst hstage
    exact ⟨_, Venue.mem_setStage_self he _, rfl, id⟩
  · have hid : e.clOrdId ≠ e'.clOrdId := fun hid => heq (h.consistent.eq_of_id he he' hid)
    exact ⟨e, List.mem_map.mpr ⟨e, he, if_neg hid⟩, rfl, hdead⟩

/-- A Send that is not live is not executed, and does not come alive. -/
theorem Inv.step_dead {s s' : Desk} {event : Event} (h : Inv x session s) (htimely : Timely x s event)
    (hs : Desk.step x s event = some s') {e : Sent} (he : e ∈ s.venue.sent)
    (hdead : ¬ e.Live s.manager.execution.generation) :
    s'.venue.fills e.clOrdId = s.venue.fills e.clOrdId ∧
      ∃ e₁ ∈ s'.venue.sent, e₁.clOrdId = e.clOrdId ∧ ¬ e₁.Live s'.manager.execution.generation := by
  have hdead' := h.not_live he hdead (h.step htimely hs).generation_le
  obtain ⟨m, v⟩ := s
  cases event with
  | call op =>
    simp only [Desk.step] at hs
    split at hs
    · cases hs
      exact ⟨rfl, e, List.mem_append_left _ he, rfl, hdead'⟩
    · cases hs
  | undelivered decision =>
    cases decision with
    | send side level price qty clOrdId =>
      simp only [Desk.step] at hs
      split at hs
      · rename_i hfind
        obtain ⟨hmem, rfl⟩ := Venue.find_some hfind
        cases hs
        exact ⟨rfl, h.dead_setStage he hmem (fun hne => absurd rfl hne) hdead'⟩
      · cases hs
    | noAction | cancel | cancelAndReplace => cases hs
  | take clOrdId =>
    simp only [Desk.step] at hs
    split at hs
    · rename_i g hfind
      obtain ⟨hmem, rfl⟩ := Venue.find_some hfind
      cases hs
      refine ⟨rfl, h.dead_setStage he hmem (fun hne => ?_) hdead'⟩
      by_contra hlive
      have hrefused : ¬ m.execution.permits g = true := fun hpermits =>
        hlive ((ExecutionState.permits_iff _ _).mp hpermits).2
      exact hne (if_neg hrefused)
    · cases hs
  | write clOrdId | discard clOrdId | close clOrdId =>
    simp only [Desk.step] at hs
    split at hs
    · rename_i hfind
      obtain ⟨hmem, rfl⟩ := Venue.find_some hfind
      cases hs
      exact ⟨rfl, h.dead_setStage he hmem (fun _ => trivial) hdead'⟩
    · cases hs
  | fill clOrdId quantity =>
    simp only [Desk.step] at hs
    split at hs
    · rename_i hfind
      obtain ⟨hmem, rfl⟩ := Venue.find_some hfind
      split at hs
      · cases hs
        refine ⟨Function.update_of_ne ?_ _ _, h.dead_setStage he hmem (fun _ => trivial) hdead'⟩
        intro hid
        obtain rfl := h.consistent.eq_of_id he hmem hid
        exact hdead trivial
      · cases hs
    · cases hs
  | checkRisk sourcesFresh =>
    cases hs
    exact ⟨rfl, e, he, rfl, hdead'⟩
  | dropPoll =>
    cases hs
    exact ⟨rfl, e, he, rfl, hdead'⟩
  | openOrders | beginReconciliation | verifyCleanup | finishReconciliation | queryPosition
  | samplePosition | publishPosition =>
    simp only [Desk.step] at hs
    split at hs
    · cases hs
      exact ⟨rfl, e, he, rfl, hdead'⟩
    · cases hs

end Desk

end MarketMaker
