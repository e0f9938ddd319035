import MarketMaker.Trading.OrderChannel

/-!
# Request ids

A request id numbers one request: as long as fewer than `2 ^ 64` ids have been drawn, no two
requests have the same one, and whatever the client or the exchange keeps under an id belongs to
the request that was given it.

## Results

* `reachable_numbered` — the invariant of every reachable state.
* `Numbered.unique` — requests with the same id are the same request.
* `Numbered.pending_operation` — the entry under the id of a request is the request's own.
-/

set_option autoImplicit false

namespace MarketMaker

open Runs Word64

theorem formatRequestId_inj {sessionId : String} {n m : Nat}
    (h : formatRequestId sessionId n = formatRequestId sessionId m) : n = m := Text.last_number_inj h

/-- The request whose id the executor holds. -/
def Executor.request : Executor → Option Request
  | .numbered clOrdId _ id | .permitted clOrdId id | .writing clOrdId id => some ⟨id, .new clOrdId⟩
  | .cancelNumbered clOrdId id | .cancelWriting clOrdId id | .cancelWritten clOrdId id _ =>
    some ⟨id, .cancelByClientId clOrdId⟩
  | _ => none

namespace OrderChannel

/-- What bears a request id was given it when the request was made. -/
structure Numbered (s : OrderChannel) : Prop where
  counter : s.client.messageCounter = s.idsTaken % size
  drawn : ∀ q ∈ s.issued, ∃ n < s.idsTaken, q.id = formatRequestId s.client.sessionId n
  distinct : s.idsTaken ≤ size → (s.issued.map (·.id)).Nodup
  byClientId : ∀ q ∈ s.issued, ∃ c, q.operation = .new c ∨ q.operation = .cancelByClientId c
  pending : ∀ e ∈ s.client.tracking.pendingRequests, (⟨e.1, e.2⟩ : Request) ∈ s.issued
  unanswered : ∀ q ∈ s.unanswered, q ∈ s.issued
  executor : ∀ q, s.executor.request = some q → q ∈ s.issued

namespace Numbered

variable {s s' : OrderChannel}

theorem unique (h : Numbered s) (hids : s.idsTaken ≤ size) {p q : Request} (hp : p ∈ s.issued)
    (hq : q ∈ s.issued) (hid : p.id = q.id) : p = q :=
  List.inj_on_of_nodup_map (h.distinct hids) hp hq hid

theorem pending_operation (h : Numbered s) (hids : s.idsTaken ≤ size) {q : Request}
    (hq : q ∈ s.issued) {p : PendingRequest}
    (hp : (q.id, p) ∈ s.client.tracking.pendingRequests) : p = q.operation := by
  have := h.unique hids (h.pending _ hp) hq rfl
  rw [← this]

/-- No request is made, and nothing new is kept under an id. -/
theorem frame (h : Numbered s) (hsession : s'.client.sessionId = s.client.sessionId)
    (hcounter : s'.client.messageCounter = s.client.messageCounter)
    (hids : s'.idsTaken = s.idsTaken) (hissued : s'.issued = s.issued)
    (hpending : s'.client.tracking.pendingRequests ⊆ s.client.tracking.pendingRequests)
    (hunanswered : s'.unanswered ⊆ s.unanswered)
    (hexecutor : ∀ q, s'.executor.request = some q → s.executor.request = some q) : Numbered s' where
  counter := by rw [hcounter, hids]; exact h.counter
  drawn := by rw [hissued, hids, hsession]; exact h.drawn
  distinct := by rw [hissued, hids]; exact h.distinct
  byClientId := by rw [hissued]; exact h.byClientId
  pending e he := by rw [hissued]; exact h.pending e (hpending he)
  unanswered q hq := by rw [hissued]; exact h.unanswered q (hunanswered hq)
  executor q hq := by rw [hissued]; exact h.executor q (hexecutor q hq)

/-- The maps and the program counters change; no entry and no request is made. -/
theorem keep (h : Numbered s) (hclient : s'.client = s.client) (hids : s'.idsTaken = s.idsTaken)
    (hissued : s'.issued = s.issued) (hunanswered : s'.unanswered = s.unanswered)
    (hexecutor : s'.executor.request = s.executor.request) : Numbered s' :=
  h.frame (by rw [hclient]) (by rw [hclient]) hids hissued (by rw [hclient]; exact List.Subset.refl _)
    (by rw [hunanswered]; exact List.Subset.refl _) (by rw [hexecutor]; exact fun _ => id)

/-- An id is drawn and thrown away, as for a login. -/
theorem login (h : Numbered s) :
    Numbered { s with client := s.client.nextRequestId.2, idsTaken := s.idsTaken + 1 } where
  counter := by
    show wrappingAdd s.client.messageCounter 1 = (s.idsTaken + 1) % size
    rw [h.counter, wrappingAdd, Nat.mod_add_mod]
  drawn q hq := by
    obtain ⟨n, hn, hid⟩ := h.drawn q hq
    exact ⟨n, Nat.lt_succ_of_lt hn, hid⟩
  distinct hids := h.distinct (Nat.le_of_succ_le hids)
  byClientId := h.byClientId
  pending := h.pending
  unanswered := h.unanswered
  executor := h.executor

/-- The id a request draws belongs to no earlier request. -/
theorem drawId (h : Numbered s) {operation : PendingRequest}
    (hclient : ∃ c, operation = .new c ∨ operation = .cancelByClientId c) :
    Numbered (s.drawId operation).2 where
  counter := h.login.counter
  drawn q hq := by
    obtain rfl | hq := List.mem_cons.mp hq
    · by_cases hids : s.idsTaken < size
      · refine ⟨s.idsTaken, Nat.lt_succ_self _, ?_⟩
        show formatRequestId _ s.client.messageCounter = _
        rw [h.counter, Nat.mod_eq_of_lt hids]
        rfl
      · refine ⟨s.idsTaken % size, ?_, ?_⟩
        · exact Nat.lt_succ_of_le (Nat.mod_le _ _)
        · show formatRequestId _ s.client.messageCounter = _
          rw [h.counter]
          rfl
    · exact h.login.drawn q hq
  distinct hids := by
    have hlt : s.idsTaken < size := hids
    refine List.nodup_cons.mpr ⟨?_, h.distinct (Nat.le_of_lt hlt)⟩
    intro hmem
    obtain ⟨q, hq, hid⟩ := List.mem_map.mp hmem
    obtain ⟨n, hn, hnid⟩ := h.drawn q hq
    have hfresh : q.id = formatRequestId s.client.sessionId s.idsTaken := by
      rw [hid]
      show formatRequestId _ s.client.messageCounter = _
      rw [h.counter, Nat.mod_eq_of_lt hlt]
    have : n = s.idsTaken := formatRequestId_inj (hnid.symm.trans hfresh)
    omega
  byClientId q hq := by
    obtain rfl | hq := List.mem_cons.mp hq
    · exact hclient
    · exact h.byClientId q hq
  pending e he := List.mem_cons_of_mem _ (h.pending e he)
  unanswered q hq := List.mem_cons_of_mem _ (h.unanswered q hq)
  executor q hq := List.mem_cons_of_mem _ (h.executor q hq)

theorem insertRequest (h : Numbered s) {q : Request} (hq : q ∈ s.issued) :
    Numbered (s.setTracking (s.client.tracking.insertRequest q.id q.operation)) where
  counter := h.counter
  drawn := h.drawn
  distinct := h.distinct
  byClientId := h.byClientId
  pending e he := by
    obtain rfl | he := List.mem_cons.mp he
    · exact hq
    · exact h.pending e (List.mem_filter.mp he).1
  unanswered := h.unanswered
  executor := h.executor

theorem transmit (h : Numbered s) {q : Request} (hq : q ∈ s.issued) (reached : Bool) :
    Numbered (s.transmit q reached) where
  counter := h.counter
  drawn := h.drawn
  distinct := h.distinct
  byClientId := h.byClientId
  pending := h.pending
  unanswered p hp := by
    cases reached with
    | false => exact h.unanswered p hp
    | true =>
      obtain rfl | hp := List.mem_cons.mp hp
      · exact hq
      · exact h.unanswered p hp
  executor := h.executor

/-- Entries are only taken out of the maps. -/
theorem setTracking (h : Numbered s) {t : Tracking}
    (ht : t.pendingRequests ⊆ s.client.tracking.pendingRequests) : Numbered (s.setTracking t) :=
  h.frame rfl rfl rfl rfl ht (List.Subset.refl _) fun _ => id

/-- The executor moves to a place where it holds a request that was made. -/
theorem setExecutor (h : Numbered s) (x : Executor) (hx : ∀ q, x.request = some q → q ∈ s.issued) :
    Numbered { s with executor := x } where
  counter := h.counter
  drawn := h.drawn
  distinct := h.distinct
  byClientId := h.byClientId
  pending := h.pending
  unanswered := h.unanswered
  executor := hx

end Numbered

theorem removeRequest_subset (t : Tracking) (id : String) :
    (t.removeRequest id).pendingRequests ⊆ t.pendingRequests := List.filter_subset_self _

theorem dropNew_subset (t : Tracking) (p : String → Bool) :
    (t.dropNew p).pendingRequests ⊆ t.pendingRequests := List.filter_subset_self _

variable {s s' : OrderChannel}

theorem executorStep_numbered (h : Numbered s) {ok reached : Bool}
    (hs : s.executorStep ok reached = some s') : Numbered s' := by
  have nothing : ∀ x : Executor, x.request = none → ∀ q, x.request = some q → q ∈ s.issued := by
    intro x hx q hq
    rw [hx] at hq
    exact absurd hq (by simp)
  unfold executorStep at hs
  split at hs
  case h_1 => exact absurd hs (by simp)
  case h_2 =>
    split at hs
    · exact absurd hs (by simp)
    · split at hs <;> cases hs
      · exact (h.setExecutor _ (nothing (.admitted _ _) rfl)).keep rfl rfl rfl rfl rfl
      · exact h.setExecutor _ (nothing _ rfl)
  case h_3 clOrdId generation hx =>
    split at hs <;> cases hs
    · refine (h.drawId ⟨clOrdId, .inl rfl⟩).setExecutor _ ?_
      rintro q ⟨⟩
      exact List.mem_cons_self
    · exact (h.setExecutor .idle (nothing _ rfl)).keep rfl rfl rfl rfl rfl
  case h_4 clOrdId generation id hx =>
    split at hs <;> cases hs
    · exact h.setExecutor _ fun q hq => h.executor q (by rw [hx]; exact hq)
    · exact (h.setExecutor .idle (nothing _ rfl)).keep rfl rfl rfl rfl rfl
  case h_5 clOrdId id hx =>
    cases hs
    have hq : (⟨id, .new clOrdId⟩ : Request) ∈ s.issued := h.executor _ (by rw [hx]; rfl)
    refine (h.insertRequest hq).setExecutor _ ?_
    rintro q ⟨⟩
    exact hq
  case h_6 clOrdId id hx =>
    cases hs
    have hq : (⟨id, .new clOrdId⟩ : Request) ∈ s.issued := h.executor _ (by rw [hx]; rfl)
    exact ((h.transmit hq reached).setExecutor .written (nothing _ rfl)).keep rfl rfl rfl rfl rfl
  case h_7 =>
    cases hs
    exact (h.setExecutor .idle (nothing _ rfl)).keep rfl rfl rfl rfl rfl
  case h_8 clOrdId hx =>
    cases hs
    exact (h.setTracking (t := s.client.tracking.markCancel clOrdId) (List.Subset.refl _)).setExecutor _
      (nothing _ rfl)
  case h_9 clOrdId hx =>
    split at hs <;> cases hs
    · refine (h.drawId ⟨clOrdId, .inr rfl⟩).setExecutor _ ?_
      rintro q ⟨⟩
      exact List.mem_cons_self
    · exact h.setExecutor _ (nothing _ rfl)
  case h_10 clOrdId id hx =>
    cases hs
    have hq : (⟨id, .cancelByClientId clOrdId⟩ : Request) ∈ s.issued := h.executor _ (by rw [hx]; rfl)
    refine (h.insertRequest hq).setExecutor _ ?_
    rintro q ⟨⟩
    exact hq
  case h_11 clOrdId id hx =>
    have hq : (⟨id, .cancelByClientId clOrdId⟩ : Request) ∈ s.issued := h.executor _ (by rw [hx]; rfl)
    split at hs <;> cases hs
    · refine (h.transmit hq reached).setExecutor _ ?_
      rintro q ⟨⟩
      exact hq
    · refine h.setExecutor _ ?_
      rintro q ⟨⟩
      exact hq
  case h_12 clOrdId id sent hx =>
    split at hs <;> cases hs
    · exact h.setExecutor _ (nothing _ rfl)
    · exact (h.setTracking (removeRequest_subset _ _)).setExecutor (.cancelFailed clOrdId) (nothing _ rfl)
  case h_13 clOrdId hx =>
    cases hs
    exact (h.setTracking (t := s.client.tracking.unmarkCancel clOrdId) (List.Subset.refl _)).setExecutor _
      (nothing _ rfl)

/-- The reader only takes entries out of the maps. -/
theorem reader_step_subset (t : Tracking) (reader : Reader) :
    (reader.step t).1.pendingRequests ⊆ t.pendingRequests := by
  cases reader with
  | received r =>
    simp only [Reader.step]
    split
    · split
      · exact removeRequest_subset _ _
      · exact List.Subset.refl _
    · exact List.Subset.refl _
  | correlated p code r => cases p <;> exact List.Subset.refl _
  | unmatched r => simp only [Reader.step]; split <;> exact List.Subset.refl _
  | settling r clOrdId => exact dropNew_subset _ _
  | _ => exact List.Subset.refl _

theorem receive_numbered (h : Numbered s) {answers : Option Request} {r : WsResponse}
    (hs : s.receive answers r = some s') : Numbered s' := by
  unfold receive at hs
  split at hs
  · simp only at hs
    split at hs
    · cases hs
      refine h.frame rfl rfl rfl rfl (List.Subset.refl _) ?_ fun _ => id
      cases answers with
      | none => exact List.Subset.refl _
      | some q => exact List.erase_subset
    · exact absurd hs (by simp)
  · exact absurd hs (by simp)

theorem cleanupStep_numbered (h : Numbered s) {answer : RestAnswer}
    (hs : s.cleanupStep answer = some s') : Numbered s' := by
  unfold cleanupStep at hs
  split at hs
  case h_1 => exact absurd hs (by simp)
  case h_2 =>
    split at hs
    · exact absurd hs (by simp)
    · cases hs; exact h.keep rfl rfl rfl rfl rfl
  case h_4 =>
    cases hs
    exact (h.setTracking (dropNew_subset _ _)).keep rfl rfl rfl rfl rfl
  case h_7 =>
    split at hs <;> cases hs
    · exact h.keep rfl rfl rfl rfl rfl
    · exact (h.setTracking (dropNew_subset _ _)).keep rfl rfl rfl rfl rfl
  all_goals
    try split at hs
    all_goals try split at hs
    all_goals cases hs; exact h.keep rfl rfl rfl rfl rfl

theorem whenReady_some {t : Option OrderChannel} (h : s.whenReady t = some s') :
    s.main = .ready ∧ t = some s' := by
  unfold whenReady at h
  split at h
  · exact ⟨‹_›, h⟩
  · exact absurd h (by simp)

theorem betweenMessages_some {t : Option OrderChannel} (h : s.betweenMessages t = some s') :
    s.reader = .idle ∧ t = some s' := by
  unfold betweenMessages at h
  split at h
  · exact ⟨‹_›, h⟩
  · exact absurd h (by simp)

theorem numbered_step {e : Event} (h : Numbered s) (hs : s.step e = some s') : Numbered s' := by
  cases e with
  | place | cancel =>
    simp only [step] at hs
    split at hs <;> cases hs
    refine h.setExecutor _ ?_
    rintro q ⟨⟩
  | executor ok reached => exact executorStep_numbered h hs
  | receive answers r => exact receive_numbered h hs
  | reader =>
    cases hs
    exact (h.setTracking (reader_step_subset _ _)).keep rfl rfl rfl rfl rfl
  | connection connected authenticated writer =>
    obtain ⟨-, ⟨⟩⟩ := betweenMessages_some hs
    exact h.frame rfl rfl rfl rfl (List.Subset.refl _) (List.Subset.refl _) fun _ => id
  | login =>
    obtain ⟨-, ⟨⟩⟩ := betweenMessages_some hs
    exact h.login
  | reconnect =>
    obtain ⟨-, ⟨⟩⟩ := betweenMessages_some hs
    exact h.setTracking (List.Subset.refl _)
  | pause | shutdown =>
    obtain ⟨-, ⟨⟩⟩ := whenReady_some hs
    exact h.keep rfl rfl rfl rfl rfl
  | resume r =>
    simp only [step] at hs
    split at hs
    · exact absurd hs (by simp)
    · obtain ⟨-, ⟨⟩⟩ := whenReady_some hs
      exact h.keep rfl rfl rfl rfl rfl
  | begin =>
    obtain ⟨-, ⟨⟩⟩ := whenReady_some hs
    unfold OrderChannel.begin
    split
    · exact h
    · exact h.keep rfl rfl rfl rfl rfl
  | snapshot clOrdIds free =>
    obtain ⟨-, ⟨⟩⟩ := whenReady_some hs
    unfold OrderChannel.snapshot
    cases free with
    | false => exact h.keep rfl rfl rfl rfl rfl
    | true => exact (h.setTracking (dropNew_subset _ _)).keep rfl rfl rfl rfl rfl
  | deliver =>
    obtain ⟨-, hs⟩ := whenReady_some hs
    unfold OrderChannel.deliver at hs
    split at hs
    · split at hs <;> cases hs <;> exact h.keep rfl rfl rfl rfl rfl
    · exact absurd hs (by simp)
  | resultArm =>
    simp only [step, OrderChannel.resultArmStep] at hs
    split at hs
    · cases hs
      exact (h.setTracking (t := { s.client.tracking with pendingCancels := ∅ })
        (List.Subset.refl _)).keep rfl rfl rfl rfl rfl
    · cases hs
      exact (h.setTracking (t := { s.client.tracking with pendingRequests := [] })
        (List.nil_subset _)).keep rfl rfl rfl rfl rfl
    · cases hs; exact h.keep rfl rfl rfl rfl rfl
    · exact absurd hs (by simp)
  | takeRequest | report =>
    simp only [step] at hs
    split at hs <;> cases hs
    exact h.keep rfl rfl rfl rfl rfl
  | attempt =>
    simp only [step] at hs
    split at hs <;> cases hs
    exact h.keep rfl rfl rfl rfl rfl
  | cleanup answer => exact cleanupStep_numbered h hs

theorem new_numbered (sessionId : String) : Numbered (new sessionId) := by
  constructor <;> simp [new, Executor.request]

/-- Every reachable state is numbered. -/
theorem reachable_numbered {sessionId : String} {es : List Event}
    (h : exec step (new sessionId) es = some s) : Numbered s :=
  exec_invariant Numbered (fun _ _ _ => numbered_step) (new_numbered sessionId) h

/-! ## What a step leaves alone -/

/-- An event of the reader. -/
def Event.OfReader : Event → Prop
  | .receive .. | .reader => True
  | _ => False

/-- The records only grow, and only the reader moves the reader. -/
structure Frame (s : OrderChannel) (e : Event) (s' : OrderChannel) : Prop where
  idsTaken : s.idsTaken ≤ s'.idsTaken
  issued : s.issued ⊆ s'.issued
  put : s.put ⊆ s'.put
  evidence : s.evidence ⊆ s'.evidence
  reader : ¬e.OfReader → s'.reader = s.reader ∧ s'.handling = s.handling ∧ s'.emitted = s.emitted

/-- A step that keeps the records and the reader. -/
theorem Frame.keep {e : Event} (hids : s'.idsTaken = s.idsTaken) (hissued : s'.issued = s.issued)
    (hput : s'.put = s.put) (hevidence : s'.evidence = s.evidence) (hreader : s'.reader = s.reader)
    (hhandling : s'.handling = s.handling) (hemitted : s'.emitted = s.emitted) : Frame s e s' where
  idsTaken := Nat.le_of_eq hids.symm
  issued := by rw [hissued]; exact List.Subset.refl _
  put := by rw [hput]; exact List.Subset.refl _
  evidence := by rw [hevidence]; exact List.Subset.refl _
  reader _ := ⟨hreader, hhandling, hemitted⟩

theorem executorStep_frame {ok reached : Bool} (hs : s.executorStep ok reached = some s') :
    Frame s (.executor ok reached) s' := by
  have drawn : ∀ operation x, Frame s (.executor ok reached)
      { (s.drawId operation).2 with executor := x } := fun operation x =>
    ⟨Nat.le_succ _, List.subset_cons_self _ _, List.Subset.refl _, List.Subset.refl _,
      fun _ => ⟨rfl, rfl, rfl⟩⟩
  unfold executorStep at hs
  split at hs
  case h_2 =>
    split at hs
    · exact absurd hs (by simp)
    · split at hs <;> cases hs <;> exact .keep rfl rfl rfl rfl rfl rfl rfl
  case h_3 | h_9 =>
    split at hs <;> cases hs
    · exact drawn _ _
    · exact .keep rfl rfl rfl rfl rfl rfl rfl
  case h_6 =>
    cases hs
    exact ⟨Nat.le_refl _, List.Subset.refl _, List.subset_cons_self _ _, List.Subset.refl _,
      fun _ => ⟨rfl, rfl, rfl⟩⟩
  all_goals
    try split at hs
    all_goals cases hs <;> exact .keep rfl rfl rfl rfl rfl rfl rfl

theorem cleanupStep_frame {answer : RestAnswer} (hs : s.cleanupStep answer = some s') :
    Frame s (.cleanup answer) s' := by
  have seen : ∀ evidence cleanup, Frame s (.cleanup answer)
      { s with cleanup := cleanup, evidence := evidence :: s.evidence } := fun evidence cleanup =>
    ⟨Nat.le_refl _, List.Subset.refl _, List.Subset.refl _, List.subset_cons_self _ _,
      fun _ => ⟨rfl, rfl, rfl⟩⟩
  unfold cleanupStep at hs
  split at hs
  case h_3 =>
    split at hs <;> cases hs
    · exact seen _ _
    · exact .keep rfl rfl rfl rfl rfl rfl rfl
  case h_6 =>
    split at hs
    · split at hs <;> cases hs
      · exact seen _ _
      · exact .keep rfl rfl rfl rfl rfl rfl rfl
    · cases hs
      exact .keep rfl rfl rfl rfl rfl rfl rfl
  all_goals
    try split at hs
    all_goals cases hs <;> exact .keep rfl rfl rfl rfl rfl rfl rfl

theorem receive_frame {answers : Option Request} {r : WsResponse} (hs : s.receive answers r = some s') :
    Frame s (.receive answers r) s' := by
  unfold receive at hs
  split at hs
  · simp only at hs
    split at hs <;> cases hs
    refine ⟨Nat.le_refl _, List.Subset.refl _, List.Subset.refl _, ?_, fun h => absurd trivial h⟩
    dsimp only
    split
    · exact List.subset_cons_self _ _
    · exact List.Subset.refl _
  · exact absurd hs (by simp)

theorem step_frame {e : Event} (hs : s.step e = some s') : Frame s e s' := by
  cases e with
  | executor ok reached => exact executorStep_frame hs
  | receive answers r => exact receive_frame hs
  | cleanup answer => exact cleanupStep_frame hs
  | reader =>
    cases hs
    exact ⟨Nat.le_refl _, List.Subset.refl _, List.Subset.refl _, List.Subset.refl _,
      fun h => absurd trivial h⟩
  | login =>
    obtain ⟨-, ⟨⟩⟩ := betweenMessages_some hs
    exact ⟨Nat.le_succ _, List.Subset.refl _, List.Subset.refl _, List.Subset.refl _,
      fun _ => ⟨rfl, rfl, rfl⟩⟩
  | connection | reconnect =>
    obtain ⟨-, ⟨⟩⟩ := betweenMessages_some hs
    exact .keep rfl rfl rfl rfl rfl rfl rfl
  | pause | shutdown =>
    obtain ⟨-, ⟨⟩⟩ := whenReady_some hs
    exact .keep rfl rfl rfl rfl rfl rfl rfl
  | begin =>
    obtain ⟨-, ⟨⟩⟩ := whenReady_some hs
    unfold OrderChannel.begin
    split <;> exact .keep rfl rfl rfl rfl rfl rfl rfl
  | snapshot clOrdIds free =>
    obtain ⟨-, ⟨⟩⟩ := whenReady_some hs
    cases free <;>
      exact ⟨Nat.le_refl _, List.Subset.refl _, List.Subset.refl _, List.subset_cons_self _ _,
        fun _ => ⟨rfl, rfl, rfl⟩⟩
  | resume r =>
    simp only [step] at hs
    split at hs
    · exact absurd hs (by simp)
    · obtain ⟨-, ⟨⟩⟩ := whenReady_some hs
      exact .keep rfl rfl rfl rfl rfl rfl rfl
  | deliver =>
    obtain ⟨-, hs⟩ := whenReady_some hs
    unfold OrderChannel.deliver at hs
    split at hs
    · split at hs <;> cases hs <;> exact .keep rfl rfl rfl rfl rfl rfl rfl
    · exact absurd hs (by simp)
  | place | cancel | resultArm | takeRequest | attempt | report =>
    simp only [step, OrderChannel.resultArmStep] at hs
    split at hs <;> cases hs <;> exact .keep rfl rfl rfl rfl rfl rfl rfl

theorem idsTaken_exec {es : List Event} (h : exec step s es = some s') : s.idsTaken ≤ s'.idsTaken :=
  exec_rel (fun s s' => s.idsTaken ≤ s'.idsTaken) (fun _ => Nat.le_refl _)
    (fun _ _ _ => Nat.le_trans) (fun _ _ _ hs => (step_frame hs).idsTaken) h

end OrderChannel

end MarketMaker
