import MarketMaker.Trading.SubmissionLock

/-!
# The cleanup barrier

A cleanup attempt that returns `Ok(true)` leaves no order behind that nobody has accounted for: the
entry of a new order leaves `pending_requests` only with evidence that names the order, and between
the settlement check and the end of the result arm no order is written.

## Results

* `accounted_step` — what takes an entry out of `pending_requests`.
* `barrier_step` — what every step preserves.
* `cleanup_is_a_barrier` — a verified attempt, over every interleaving.
* `wrapped_id_drops_order` — a request id that comes back drops an unresolved order.
-/

set_option autoImplicit false

namespace MarketMaker

open Runs Word64

/-! ## Evidence -/

/-- The evidence names the order of a request. -/
def Evidence.Names (v : Evidence) (q : Request) : Prop :=
  match v with
  | .response requestId clOrdId =>
    requestId = some q.id ∨ ∃ c, clOrdId = some c ∧ q.operation = .new c
  | .listing clOrdIds => ∃ c ∈ clOrdIds, q.operation = .new c
  | .queried c => q.operation = .new c

/-- Some evidence names the order of a request. -/
def Resolved (evidence : List Evidence) (q : Request) : Prop := ∃ v ∈ evidence, v.Names q

theorem Resolved.mono {evidence evidence' : List Evidence} {q : Request} (h : Resolved evidence q)
    (hsub : evidence ⊆ evidence') : Resolved evidence' q := by
  obtain ⟨v, hv, hnames⟩ := h
  exact ⟨v, hsub hv, hnames⟩

/-- What the reader acts on has been recorded. -/
def Reader.Logged (evidence : List Evidence) : Reader → Prop
  | .received r | .unmatched r => r.code.isSome = true →
    .response r.requestId (r.payload.bind Json.extractClOrdId) ∈ evidence
  | .settling r clOrdId => .response r.requestId (some clOrdId) ∈ evidence
  | _ => True

/-- What the attempt acts on has been recorded. -/
def Cleanup.Logged (evidence : List Evidence) : Cleanup → Prop
  | .retaining listed => .listing listed ∈ evidence
  | .confirming clOrdId _ => .queried clOrdId ∈ evidence
  | _ => True

theorem Reader.Logged.mono {evidence evidence' : List Evidence} {reader : Reader}
    (h : reader.Logged evidence) (hsub : evidence ⊆ evidence') : reader.Logged evidence' := by
  cases reader with
  | received | unmatched => exact fun hcode => hsub (h hcode)
  | settling => exact hsub h
  | _ => trivial

theorem Cleanup.Logged.mono {evidence evidence' : List Evidence} {cleanup : Cleanup}
    (h : cleanup.Logged evidence) (hsub : evidence ⊆ evidence') : cleanup.Logged evidence' := by
  cases cleanup with
  | retaining | confirming => exact hsub h
  | _ => trivial

theorem Cleanup.next_logged (evidence : List Evidence) (clOrdIds : List String) :
    (Cleanup.next clOrdIds).Logged evidence := by
  cases clOrdIds <;> trivial

theorem Reader.step_logged {evidence : List Evidence} {reader : Reader} (h : reader.Logged evidence)
    (t : Tracking) : (reader.step t).2.1.Logged evidence := by
  cases reader with
  | received r =>
    have hafter : (afterLookup r).Logged evidence := by
      unfold afterLookup
      split
      · trivial
      · exact h
    simp only [Reader.step]
    split
    · split
      · trivial
      · exact hafter
    · exact hafter
  | correlated p code r => cases p <;> trivial
  | unmatched r =>
    simp only [Reader.step]
    split
    · next clOrdId hsettles =>
      dsimp only
      split
      · trivial
      · unfold settlesId at hsettles
        split at hsettles
        · next hcode =>
          have hlogged := h hcode.1
          rw [hsettles] at hlogged
          exact hlogged
        · exact absurd hsettles (by simp)
    · trivial
  | routing r =>
    simp only [Reader.step, Reader.route, Reader.routeBare]
    repeat' split
    all_goals trivial
  | _ => trivial

namespace OrderChannel

variable {s s' : OrderChannel}

structure Logged (s : OrderChannel) : Prop where
  reader : s.reader.Logged s.evidence
  cleanup : s.cleanup.Logged s.evidence

theorem cleanupStep_logged {answer : RestAnswer}
    (hs : s.cleanupStep answer = some s') : s'.cleanup.Logged s'.evidence := by
  unfold cleanupStep at hs
  split at hs
  case h_1 => exact absurd hs (by simp)
  case h_2 | h_9 | h_10 => split at hs <;> cases hs <;> trivial
  case h_3 =>
    split at hs <;> cases hs
    · exact List.mem_cons_self
    · trivial
  case h_4 | h_8 => cases hs; trivial
  case h_5 => cases hs; exact Cleanup.next_logged _ _
  case h_6 =>
    split at hs
    · split at hs <;> cases hs
      · exact List.mem_cons_self
      · exact Cleanup.next_logged _ _
    · cases hs
      exact Cleanup.next_logged _ _
  case h_7 => split at hs <;> cases hs <;> exact Cleanup.next_logged _ _

theorem receive_logged {answers : Option Request} {r : WsResponse}
    (hs : s.receive answers r = some s') : s'.reader.Logged s'.evidence := by
  unfold receive at hs
  split at hs
  · simp only at hs
    split at hs <;> cases hs
    intro hcode
    simp only [if_pos hcode]
    exact List.mem_cons_self
  · exact absurd hs (by simp)

theorem logged_step {e : Event} (h : Logged s) (hs : s.step e = some s') : Logged s' := by
  have hframe := step_frame hs
  have hreader : ¬e.OfReader → s'.reader.Logged s'.evidence := by
    intro hother
    rw [(hframe.reader hother).1]
    exact h.reader.mono hframe.evidence
  have hkept : s'.cleanup = s.cleanup → s'.cleanup.Logged s'.evidence := by
    intro heq
    rw [heq]
    exact h.cleanup.mono hframe.evidence
  cases e with
  | executor ok reached => exact ⟨hreader (by simp [Event.OfReader]), hkept (executorStep_keeps hs).2.1⟩
  | cleanup answer => exact ⟨hreader (by simp [Event.OfReader]), cleanupStep_logged hs⟩
  | receive answers r =>
    obtain ⟨-, -, -, hcleanup, -⟩ := readerEvent_keeps (by trivial) hs
    exact ⟨receive_logged hs, hkept hcleanup⟩
  | reader =>
    cases hs
    exact ⟨Reader.step_logged h.reader _, h.cleanup⟩
  | _ =>
    refine ⟨hreader (by simp [Event.OfReader]), ?_⟩
    obtain hcleanup | hcleanup | hcleanup := (outside_step (by trivial) hs).cleanup
    · exact hkept hcleanup
    · rw [hcleanup]; trivial
    · rw [hcleanup]; trivial

/-! ## What takes an entry out -/

/-- The order of a request is still tracked, or accounted for. -/
def Accounted (s : OrderChannel) (q : Request) : Prop :=
  (q.id, q.operation) ∈ s.client.tracking.pendingRequests ∨ Resolved s.evidence q

theorem Accounted.keep {q : Request} (h : Accounted s q)
    (hpending : s'.client.tracking.pendingRequests = s.client.tracking.pendingRequests)
    (hevidence : s.evidence ⊆ s'.evidence) : Accounted s' q := by
  obtain hentry | hresolved := h
  · exact .inl (by rw [hpending]; exact hentry)
  · exact .inr (hresolved.mono hevidence)

/-- Client ids are dropped with evidence that names their orders. -/
theorem accounted_dropNew {q : Request} {p : String → Bool} (h : Accounted s q)
    (hpending : s'.client.tracking = s.client.tracking.dropNew p)
    (hevidence : s.evidence ⊆ s'.evidence)
    (hnames : ∀ c, p c = true → q.operation = .new c → Resolved s'.evidence q) : Accounted s' q := by
  obtain hentry | hresolved := h
  · cases hdropped : q.operation.newId.any p with
    | false =>
      refine .inl ?_
      rw [hpending]
      exact List.mem_filter.mpr ⟨hentry, by simp [hdropped]⟩
    | true =>
      obtain ⟨c, hc, hp⟩ := (Option.any_eq_true _ _).mp hdropped
      refine .inr (hnames c hp ?_)
      cases hop : q.operation <;> rw [hop] at hc <;> cases hc
      rfl
  · exact .inr (hresolved.mono hevidence)

/-- The entry of another request is replaced or taken out. -/
theorem accounted_other {q : Request} {id : String} (h : Accounted s q) (hid : q.id ≠ id)
    (hpending : ∀ e ∈ s.client.tracking.pendingRequests, e.1 ≠ id →
      e ∈ s'.client.tracking.pendingRequests)
    (hevidence : s.evidence ⊆ s'.evidence) : Accounted s' q := by
  obtain hentry | hresolved := h
  · exact .inl (hpending _ hentry hid)
  · exact .inr (hresolved.mono hevidence)

theorem executorStep_accounted (h : Numbered s) (hids : s.idsTaken ≤ size) {ok reached : Bool}
    (hs : s.executorStep ok reached = some s') {q : Request} (hq : q ∈ s.issued)
    (hnew : q.operation.isNew = true) (hacc : Accounted s q) : Accounted s' q := by
  have hkeeps := executorStep_keeps hs
  have hevidence : s.evidence ⊆ s'.evidence := (executorStep_frame hs).evidence
  unfold executorStep at hs
  split at hs
  case h_1 => exact absurd hs (by simp)
  case h_2 =>
    split at hs
    · exact absurd hs (by simp)
    · split at hs <;> cases hs <;> exact hacc.keep rfl hevidence
  case h_5 clOrdId id hx =>
    cases hs
    by_cases hid : q.id = id
    · have hmade : (⟨id, .new clOrdId⟩ : Request) ∈ s.issued := h.executor _ (by rw [hx]; rfl)
      obtain rfl := h.unique hids hq hmade hid
      exact .inl List.mem_cons_self
    · exact accounted_other hacc hid
        (fun e he hne => List.mem_cons_of_mem _ (List.mem_filter.mpr ⟨he, by simpa using hne⟩)) hevidence
  case h_10 clOrdId id hx =>
    cases hs
    have hmade : (⟨id, .cancelByClientId clOrdId⟩ : Request) ∈ s.issued := h.executor _ (by rw [hx]; rfl)
    have hid : q.id ≠ id := by
      intro hid
      obtain rfl := h.unique hids hq hmade hid
      exact absurd hnew (by simp [PendingRequest.isNew])
    exact accounted_other hacc hid
      (fun e he hne => List.mem_cons_of_mem _ (List.mem_filter.mpr ⟨he, by simpa using hne⟩)) hevidence
  case h_12 clOrdId id sent hx =>
    split at hs <;> cases hs
    · exact hacc.keep rfl hevidence
    · have hmade : (⟨id, .cancelByClientId clOrdId⟩ : Request) ∈ s.issued :=
        h.executor _ (by rw [hx]; rfl)
      have hid : q.id ≠ id := by
        intro hid
        obtain rfl := h.unique hids hq hmade hid
        exact absurd hnew (by simp [PendingRequest.isNew])
      exact accounted_other hacc hid
        (fun e he hne => List.mem_filter.mpr ⟨he, by simpa using hne⟩) hevidence
  all_goals
    try split at hs
    all_goals cases hs; exact hacc.keep rfl hevidence

theorem readerStep_accounted (hlog : s.reader.Logged s.evidence) {q : Request} (hacc : Accounted s q) :
    Accounted s.readerStep q := by
  have hsub : s.evidence ⊆ s.readerStep.evidence := List.Subset.refl _
  cases hreader : s.reader with
  | received r =>
    rw [hreader] at hlog
    have hpending : s.readerStep.client.tracking = (Reader.step s.client.tracking (.received r)).1 := by
      simp only [readerStep, hreader, setTracking]
    simp only [Reader.step] at hpending
    split at hpending
    · next code id hcode hid =>
      split at hpending
      · by_cases hqid : q.id = id
        · refine .inr ⟨_, hlog (by simp [hcode]), .inl ?_⟩
          rw [hid, hqid]
        · refine accounted_other hacc hqid (fun e he hne => ?_) hsub
          rw [hpending]
          exact List.mem_filter.mpr ⟨he, by simpa using hne⟩
      · exact hacc.keep (by rw [hpending]) hsub
    · exact hacc.keep (by rw [hpending]) hsub
  | settling r clOrdId =>
    rw [hreader] at hlog
    refine accounted_dropNew hacc (p := (· == clOrdId))
      (by simp [readerStep, hreader, setTracking, Reader.step]) hsub ?_
    intro c hc hop
    obtain rfl : c = clOrdId := by simpa using hc
    exact ⟨_, hlog, .inr ⟨c, rfl, hop⟩⟩
  | correlated p code r =>
    refine hacc.keep ?_ hsub
    cases p <;> simp [readerStep, hreader, setTracking, Reader.step, Tracking.unmarkCancel]
  | unmatched r =>
    refine hacc.keep ?_ hsub
    simp only [readerStep, hreader, setTracking, Reader.step]
    split <;> rfl
  | idle | routing | unmarking =>
    refine hacc.keep ?_ hsub
    simp [readerStep, hreader, setTracking, Reader.step, Tracking.unmarkCancel]

theorem cleanupStep_accounted (hlog : s.cleanup.Logged s.evidence) {answer : RestAnswer}
    (hs : s.cleanupStep answer = some s') {q : Request} (hacc : Accounted s q) : Accounted s' q := by
  have hsub : s.evidence ⊆ s'.evidence := (cleanupStep_frame hs).evidence
  unfold cleanupStep at hs
  split at hs
  case h_1 => exact absurd hs (by simp)
  case h_4 listed hx =>
    cases hs
    rw [hx] at hlog
    refine accounted_dropNew hacc rfl hsub ?_
    intro c hc hop
    exact ⟨_, hlog, c, by simpa using hc, hop⟩
  case h_6 =>
    split at hs
    · split at hs <;> cases hs <;> exact hacc.keep rfl hsub
    · cases hs
      exact hacc.keep rfl hsub
  case h_7 clOrdId rest hx =>
    rw [hx] at hlog
    split at hs <;> cases hs
    · exact hacc.keep rfl hsub
    · refine accounted_dropNew hacc rfl hsub ?_
      intro c hc hop
      obtain rfl : c = clOrdId := by simpa using hc
      exact ⟨_, hlog, hop⟩
  all_goals
    try split at hs
    all_goals cases hs <;> exact hacc.keep rfl hsub

/-- An order that is accounted for stays so, but for the end of a reconciliation. -/
theorem accounted_step (h : Numbered s) (hlog : Logged s) (hids : s'.idsTaken ≤ size) {e : Event}
    (hs : s.step e = some s') {q : Request} (hq : q ∈ s.issued) (hnew : q.operation.isNew = true)
    (hclear : e = .resultArm → s.main = .clearingRequests → Resolved s.evidence q)
    (hacc : Accounted s q) : Accounted s' q := by
  have hframe := step_frame hs
  cases e with
  | executor ok reached =>
    exact executorStep_accounted h (hframe.idsTaken.trans hids) hs hq hnew hacc
  | reader =>
    cases hs
    exact readerStep_accounted hlog.reader hacc
  | receive answers r =>
    refine hacc.keep ?_ hframe.evidence
    simp only [step, OrderChannel.receive] at hs
    split at hs
    · split at hs <;> cases hs
      rfl
    · exact absurd hs (by simp)
  | cleanup answer => exact cleanupStep_accounted hlog.cleanup hs hacc
  | _ =>
    obtain hpending | ⟨clOrdIds, hlisting, hpending⟩ | ⟨harm, hmain⟩ :=
      (outside_step (by trivial) hs).pending
    · exact hacc.keep hpending hframe.evidence
    · refine accounted_dropNew hacc hpending hframe.evidence ?_
      intro c hc hop
      exact ⟨_, hlisting, c, by simpa using hc, hop⟩
    · exact .inr ((hclear harm hmain).mono hframe.evidence)

/-! ## The barrier -/

/-- The attempt has found every submission settled. -/
def Settled (s : OrderChannel) : Prop := s.cleanup = .canceling true ∨ s.cleanup = .verifying true

/-- What holds in every reachable state.  Every order written is tracked or accounted for; once an
    attempt has found the submissions settled they are all accounted for, and no order is on its
    way until its reconciliation ends. -/
structure Barrier (s : OrderChannel) : Prop where
  numbered : Numbered s
  ordered : Ordered s
  logged : Logged s
  written : ∀ q ∈ s.put, q ∈ s.issued ∧ q.operation.isNew = true
  accounted : ∀ q ∈ s.put, Accounted s q
  writing : ∀ clOrdId id, s.executor = .writing clOrdId id → Accounted s ⟨id, .new clOrdId⟩
  settled : Settled s → ∀ q ∈ s.put, Resolved s.evidenceAtSettlement q
  sealed : Sealing s → s.executor.inSection = false ∧ ∀ q ∈ s.put, Resolved s.evidence q

/-- Where all submissions are settled, every order written is accounted for. -/
theorem Barrier.resolved_of_settled (h : Barrier s)
    (hsettled : s.client.tracking.submissionsSettled = true) {q : Request} (hq : q ∈ s.put) :
    Resolved s.evidence q := by
  obtain hentry | hresolved := h.accounted q hq
  · simp only [Tracking.submissionsSettled, Bool.not_eq_true', List.any_eq_false] at hsettled
    exact absurd (h.written q hq).2 (hsettled _ hentry)
  · exact hresolved

theorem Barrier.fenced (h : Barrier s) (hsealing : Sealing s) : Fenced s := by
  obtain hcleanup | hcleanup | ⟨hmain, hway⟩ := hsealing
  · exact h.ordered.fenced_of_attempt (by rw [hcleanup]; decide)
  · exact h.ordered.fenced_of_attempt (by rw [hcleanup]; decide)
  · refine h.ordered.fenced_of_underWay fun _ => ?_
    unfold underWay
    obtain ⟨hbusy, -⟩ | hresults | harm := hway
    · rw [hbusy]
      simp
    · have := List.length_pos_of_ne_nil hresults
      omega
    · rw [harm]
      simp

theorem next_not_settled {clOrdIds : List String} (hs : s'.cleanup = .next clOrdIds) : ¬Settled s' := by
  unfold Settled
  rw [hs]
  cases clOrdIds <;> simp [Cleanup.next]

/-- The settlement check is what settles. -/
theorem cleanupStep_settled {answer : RestAnswer} (hs : s.cleanupStep answer = some s')
    (hsettled : Settled s') :
    Settled s ∧ s'.evidenceAtSettlement = s.evidenceAtSettlement ∨
    s.cleanup.inSection = true ∧ s.client.tracking.submissionsSettled = true ∧
      s'.evidenceAtSettlement = s.evidence := by
  unfold cleanupStep at hs
  split at hs
  case h_1 => exact absurd hs (by simp)
  case h_2 | h_3 =>
    split at hs <;> cases hs <;> exact absurd hsettled (by simp [Settled, endAttempt])
  case h_4 =>
    cases hs
    exact absurd hsettled (by simp [Settled])
  case h_5 =>
    cases hs
    exact absurd hsettled (next_not_settled rfl)
  case h_6 =>
    split at hs
    · split at hs <;> cases hs
      · exact absurd hsettled (by simp [Settled])
      · exact absurd hsettled (next_not_settled rfl)
    · cases hs
      exact absurd hsettled (next_not_settled rfl)
  case h_7 => split at hs <;> cases hs <;> exact absurd hsettled (next_not_settled rfl)
  case h_8 hx =>
    cases hs
    exact .inr ⟨by rw [hx]; rfl, by simpa [Settled] using hsettled, rfl⟩
  case h_9 settled hx =>
    split at hs <;> cases hs
    · obtain rfl : settled = true := by simpa [Settled] using hsettled
      exact .inl ⟨.inl hx, rfl⟩
    · exact absurd hsettled (by simp [Settled, endAttempt])
  case h_10 => split at hs <;> cases hs <;> exact absurd hsettled (by simp [Settled, endAttempt])

/-- A settlement check in the section of an attempt finds every submission settled. -/
def FindsSettled (s : OrderChannel) : Prop :=
  s.cleanup.inSection = true ∧ s.client.tracking.submissionsSettled = true

/-- Only the settlement check seals. -/
theorem cleanupStep_sealing {answer : RestAnswer} (hs : s.cleanupStep answer = some s')
    (hsealing : Sealing s') : Sealing s ∨ FindsSettled s := by
  have of_settled : Settled s' → Sealing s ∨ FindsSettled s := by
    intro hsettled
    obtain ⟨hbefore, -⟩ | ⟨hsection, hnow, -⟩ := cleanupStep_settled hs hsettled
    · exact .inl (hbefore.imp id .inl)
    · exact .inr ⟨hsection, hnow⟩
  obtain ⟨-, -, hmain, -, hresults, -⟩ := cleanupStep_keeps hs
  obtain hcleanup | hcleanup | hway := hsealing
  · exact of_settled (.inl hcleanup)
  · exact of_settled (.inr hcleanup)
  · rw [hmain, hresults] at hway
    cases cleanupStep_moves hs with
    | enter _ _ _ _ hworker | stay _ _ _ hworker =>
      rw [hworker] at hway
      exact .inl (.inr (.inr hway))
    | leave _ _ _ hworker =>
      obtain hworker | ⟨⟨hverified, -⟩, -⟩ := hworker
      · rw [hworker] at hway
        exact .inl (.inr (.inr hway))
      · exact .inl (.inr (.inl hverified))

/-- What seals: an earlier settlement check, or the one this step makes. -/
theorem sealing_step {e : Event} (hs : s.step e = some s') (hsealing : Sealing s') :
    Sealing s ∨ FindsSettled s := by
  cases e with
  | executor ok reached =>
    obtain ⟨-, hcleanup, hworker, hmain, -, hresults, -⟩ := executorStep_keeps hs
    rw [Sealing, hcleanup, hworker, hmain, hresults] at hsealing
    exact .inl hsealing
  | receive | reader =>
    obtain ⟨-, -, -, hcleanup, hworker, hmain, hresults, -⟩ := readerEvent_keeps (by trivial) hs
    rw [Sealing, hcleanup, hworker, hmain, hresults] at hsealing
    exact .inl hsealing
  | cleanup answer => exact cleanupStep_sealing hs hsealing
  | _ => exact .inl ((outside_step (by trivial) hs).sealing hsealing)

theorem settled_step {e : Event} (hs : s.step e = some s') (hsettled : Settled s') :
    Settled s ∧ s'.evidenceAtSettlement = s.evidenceAtSettlement ∨
    FindsSettled s ∧ s'.evidenceAtSettlement = s.evidence := by
  cases e with
  | executor ok reached =>
    obtain ⟨-, hcleanup, -, -, -, -, -, -, hsettlement⟩ := executorStep_keeps hs
    rw [Settled, hcleanup] at hsettled
    exact .inl ⟨hsettled, hsettlement⟩
  | receive | reader =>
    obtain ⟨-, -, -, hcleanup, -, -, -, hsettlement⟩ := readerEvent_keeps (by trivial) hs
    rw [Settled, hcleanup] at hsettled
    exact .inl ⟨hsettled, hsettlement⟩
  | cleanup answer =>
    exact (cleanupStep_settled hs hsettled).imp id fun h => ⟨⟨h.1, h.2.1⟩, h.2.2⟩
  | _ =>
    have hmove := outside_step (by trivial) hs
    obtain hcleanup | hcleanup | hcleanup := hmove.cleanup
    · rw [Settled, hcleanup] at hsettled
      exact .inl ⟨hsettled, hmove.atSettlement⟩
    · exact absurd hsettled (by simp [Settled, hcleanup])
    · exact absurd hsettled (by simp [Settled, hcleanup])

/-- What is written is the order the executor was about to write. -/
theorem written_step {e : Event} (hs : s.step e = some s') {q : Request} (hq : q ∈ s'.put) :
    q ∈ s.put ∨ ∃ clOrdId id, s.executor = .writing clOrdId id ∧ q = ⟨id, .new clOrdId⟩ := by
  cases e with
  | executor ok reached =>
    cases executorStep_moves hs with
    | stay hput | enter _ hput | leave hput =>
      rw [hput] at hq
      exact .inl hq
    | write clOrdId id hat hput =>
      rw [hput] at hq
      obtain rfl | hq := List.mem_cons.mp hq
      · exact .inr ⟨clOrdId, id, hat, rfl⟩
      · exact .inl hq
  | receive | reader =>
    obtain ⟨-, hput, -⟩ := readerEvent_keeps (by trivial) hs
    rw [hput] at hq
    exact .inl hq
  | cleanup answer =>
    obtain ⟨-, -, -, -, -, -, hput⟩ := cleanupStep_keeps hs
    rw [hput] at hq
    exact .inl hq
  | _ =>
    rw [(outside_step (by trivial) hs).put] at hq
    exact .inl hq

theorem executorStep_writing {ok reached : Bool} (hs : s.executorStep ok reached = some s')
    {clOrdId id : String} (hx : s'.executor = .writing clOrdId id) :
    (id, .new clOrdId) ∈ s'.client.tracking.pendingRequests := by
  unfold executorStep at hs
  split at hs
  case h_1 => exact absurd hs (by simp)
  case h_2 =>
    split at hs
    · exact absurd hs (by simp)
    · split at hs <;> cases hs <;> exact absurd hx (by simp)
  case h_5 =>
    cases hs
    cases hx
    exact List.mem_cons_self
  all_goals
    try split at hs
    all_goals cases hs; exact absurd hx (by simp [endPlacing])

/-- An order is about to be written only after its entry has been made. -/
theorem writing_step {e : Event} (hs : s.step e = some s') {clOrdId id : String}
    (hx : s'.executor = .writing clOrdId id) :
    s.executor = .writing clOrdId id ∨ (id, .new clOrdId) ∈ s'.client.tracking.pendingRequests := by
  cases e with
  | executor ok reached => exact .inr (executorStep_writing hs hx)
  | receive | reader =>
    obtain ⟨hexecutor, -⟩ := readerEvent_keeps (by trivial) hs
    rw [hexecutor] at hx
    exact .inl hx
  | cleanup answer =>
    obtain ⟨-, hexecutor, -⟩ := cleanupStep_keeps hs
    rw [hexecutor] at hx
    exact .inl hx
  | _ =>
    have hmove := outside_step (by trivial) hs
    rw [hmove.executor (by rw [hx]; rfl)] at hx
    exact .inl hx

/-- Once the submissions are settled, nothing is written. -/
theorem Barrier.quiet (h : Barrier s) {e : Event} (hs : s.step e = some s')
    (hsealed : Sealing s ∨ FindsSettled s) :
    (s'.executor.inSection = false ∧ s'.put = s.put) ∧ ∀ q ∈ s.put, Resolved s.evidence q := by
  obtain hsealing | ⟨hsection, hsettled⟩ := hsealed
  · obtain ⟨houtside, hresolved⟩ := h.sealed hsealing
    exact ⟨quiet_step (h.fenced hsealing) houtside hs, hresolved⟩
  · have hattempt : s.cleanup ≠ .idle := by
      intro hidle
      rw [hidle] at hsection
      exact absurd hsection (by decide)
    exact ⟨quiet_step (h.ordered.fenced_of_attempt hattempt) (h.ordered.exclusive hsection) hs,
      fun q hq => h.resolved_of_settled hsettled hq⟩

/-- **One step.**  The barrier holds after every step. -/
theorem barrier_step {e : Event} (h : Barrier s) (hids : s'.idsTaken ≤ size)
    (hs : s.step e = some s') : Barrier s' := by
  have hframe := step_frame hs
  -- At the end of a reconciliation nothing is on its way and everything is accounted for.
  have hcleared : s.main = .clearingRequests → Sealing s := fun hmain =>
    .inr (.inr (by simp [hmain, MainState.inArm]))
  have hput : ∀ q ∈ s.put, Accounted s' q := fun q hq =>
    accounted_step h.numbered h.logged hids hs (h.written q hq).1 (h.written q hq).2
      (fun _ hmain => (h.sealed (hcleared hmain)).2 q hq) (h.accounted q hq)
  have hissued : ∀ clOrdId id, s.executor = .writing clOrdId id →
      (⟨id, .new clOrdId⟩ : Request) ∈ s.issued := fun clOrdId id hx =>
    h.numbered.executor _ (by rw [hx]; rfl)
  have hwriting : ∀ clOrdId id, s.executor = .writing clOrdId id → Accounted s' ⟨id, .new clOrdId⟩ := by
    intro clOrdId id hx
    refine accounted_step h.numbered h.logged hids hs (hissued clOrdId id hx) rfl ?_
      (h.writing clOrdId id hx)
    intro _ hmain
    have houtside := (h.sealed (hcleared hmain)).1
    rw [hx] at houtside
    exact absurd houtside (by simp [Executor.inSection])
  exact
    { numbered := numbered_step h.numbered hs
      ordered := ordered_step h.ordered hs
      logged := logged_step h.logged hs
      written := by
        intro q hq
        obtain hold | ⟨clOrdId, id, hx, rfl⟩ := written_step hs hq
        · exact ⟨hframe.issued (h.written q hold).1, (h.written q hold).2⟩
        · exact ⟨hframe.issued (hissued clOrdId id hx), rfl⟩
      accounted := by
        intro q hq
        obtain hold | ⟨clOrdId, id, hx, rfl⟩ := written_step hs hq
        · exact hput q hold
        · exact hwriting clOrdId id hx
      writing := by
        intro clOrdId id hx
        obtain hold | hentry := writing_step hs hx
        · exact hwriting clOrdId id hold
        · exact .inl hentry
      settled := by
        intro hsettled q hq
        obtain ⟨hbefore, hsettlement⟩ | ⟨hfinds, hsettlement⟩ := settled_step hs hsettled
        · rw [((h.quiet hs (.inl (hbefore.imp id .inl))).1).2] at hq
          rw [hsettlement]
          exact h.settled hbefore q hq
        · obtain ⟨⟨-, hsame⟩, hresolved⟩ := h.quiet hs (.inr hfinds)
          rw [hsame] at hq
          rw [hsettlement]
          exact hresolved q hq
      sealed := by
        intro hsealing
        obtain ⟨⟨houtside, hsame⟩, hresolved⟩ := h.quiet hs (sealing_step hs hsealing)
        refine ⟨houtside, fun q hq => ?_⟩
        rw [hsame] at hq
        exact (hresolved q hq).mono hframe.evidence }

theorem new_barrier (sessionId : String) : Barrier (new sessionId) where
  numbered := new_numbered sessionId
  ordered := new_ordered sessionId
  logged := ⟨trivial, trivial⟩
  written := by simp [new]
  accounted := by simp [new]
  writing := by simp [new]
  settled := by simp [new]
  sealed := by simp [new, Executor.inSection]

theorem exec_barrier {es : List Event} (h : Barrier s) (hids : s'.idsTaken ≤ size)
    (hrun : exec step s es = some s') : Barrier s' := by
  induction es generalizing s with
  | nil =>
    cases hrun
    exact h
  | cons e es ih =>
    obtain ⟨t, ht, hrest⟩ := exec_cons_some hrun
    exact ih (barrier_step h ((idsTaken_exec hrest).trans hids) ht) hrest

/-! ## A request id that comes back -/

theorem exec_logins (hreader : s.reader = .idle) (hcounter : s.client.messageCounter < size) (n : Nat) :
    exec step s (List.replicate n .login) = some { s with
      client := { s.client with messageCounter := (s.client.messageCounter + n) % size }
      idsTaken := s.idsTaken + n } := by
  induction n with
  | zero => simp [Nat.mod_eq_of_lt hcounter]
  | succ n ih =>
    rw [List.replicate_succ', exec_append, ih, Option.bind_some, exec_singleton]
    simp only [step, betweenMessages, hreader, OrderWsClient.nextRequestId, wrappingAdd, Nat.mod_add_mod,
      Nat.add_assoc]

/-- An order is put on a socket that fails. -/
def unresolvedWrite : List Event :=
  [.connection true true true, .place "ord_1" 0] ++ List.replicate 6 (.executor true false)

/-- A cancel draws a request id, and an attempt is made. -/
def cancelAndAttempt : List Event :=
  .cancel "ord_0" :: List.replicate 5 (.executor true true) ++ [.begin, .takeRequest, .attempt] ++
    [.cleanup .done, .cleanup (.orders []), .cleanup .done, .cleanup .done, .cleanup .done,
     .cleanup .done]

/-- An order is written and answered, and an attempt is made. -/
def answeredAttempt : List Event :=
  [.connection true true true, .place "ord_1" 0] ++ List.replicate 6 (.executor true true) ++
    [.receive (some ⟨"req_session_1_0", .new "ord_1"⟩)
      { code := some 0, requestId := some "req_session_1_0" }, .reader, .reader] ++
    [.begin, .takeRequest, .attempt, .cleanup .done, .cleanup (.orders []), .cleanup .done,
     .cleanup .done, .cleanup .done, .cleanup .done]

/-- **The barrier.**  Over every interleaving in which fewer than `2 ^ 64` request ids are drawn:
    when an attempt returns `Ok(true)`, every order ever written had been accounted for, by evidence
    that names it, at the settlement check before its `cancel_all_orders`; and from a settlement
    check on no order is written before a result arm ends. -/
theorem cleanup_is_a_barrier {sessionId : String} {es : List Event}
    (hrun : exec step (new sessionId) es = some s) (hids : s.idsTaken ≤ size) :
    (∀ answer, ReturnsTrue s answer → ∀ q ∈ s.put, Resolved s.evidenceAtSettlement q) ∧
    (s.cleanup = .settling → ∀ es' s', exec step s es' = some s' → s'.put = s.put ∨
      ∃ pre post t, es' = pre ++ .resultArm :: post ∧ exec step s pre = some t ∧ t.put = s.put ∧
        t.main = .finishing) := by
  have hbarrier := exec_barrier (new_barrier sessionId) hids hrun
  refine ⟨fun answer hreturns => hbarrier.settled (.inr hreturns.1), fun hsettling es' s' hrun' => ?_⟩
  exact no_write_until_finish hbarrier.ordered (by rw [hsettling]; rfl) hrun'

theorem cleanup_is_a_barrier_answered : ∃ s, exec step (new "session_1") answeredAttempt = some s ∧
    ReturnsTrue s (.orders []) ∧ s.put = [⟨"req_session_1_0", .new "ord_1"⟩] ∧
    ∀ q ∈ s.put, Resolved s.evidenceAtSettlement q := by
  refine ⟨_, rfl, ⟨rfl, rfl⟩, rfl, ?_⟩
  have hrun : exec step (new "session_1") answeredAttempt = some _ := rfl
  exact (cleanup_is_a_barrier hrun (by decide)).1 (.orders []) ⟨rfl, rfl⟩

/-- After `2 ^ 64` request ids an unresolved order loses its entry to a cancel, and the attempt is
    verified. -/
theorem wrapped_id_drops_order : ∃ es s, exec step (new "session_1") es = some s ∧
    ReturnsTrue s (.orders []) ∧ ∃ q ∈ s.put, ¬Resolved s.evidenceAtSettlement q := by
  refine ⟨unresolvedWrite ++ (List.replicate (size - 1) .login ++ cancelAndAttempt), ?_⟩
  have hwrite : exec step (new "session_1") unresolvedWrite = some
      (((exec step (new "session_1") unresolvedWrite).getD (new "session_1"))) := rfl
  rw [exec_append, hwrite, Option.bind_some, exec_append, exec_logins rfl (by decide), Option.bind_some]
  refine ⟨_, rfl, ⟨rfl, rfl⟩, ⟨"req_session_1_0", .new "ord_1"⟩, by decide, ?_⟩
  rintro ⟨v, hv, hnames⟩
  obtain rfl : v = .listing [] := List.mem_singleton.mp hv
  obtain ⟨c, hc, -⟩ := hnames
  exact absurd hc (by simp)

end OrderChannel

end MarketMaker
