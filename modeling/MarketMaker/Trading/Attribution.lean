import MarketMaker.Trading.RequestIds

/-!
# Which request a reply is for

A reply that carries the request id, or the method, is attributed by it.  A bare reply carries only
the client id, and `handle_response` reads it by membership in `pending_cancels`: a member has been
canceled, anything else has been accepted or rejected.  An order that is still pending can be
canceled too, so the reply to its `order:new` may find its client id there.

## Results

* `replies_attributed` — over every interleaving, all events are sound if and only if every bare
  reply was read while `pending_cancels` agreed with the request it answers.
* `acceptance_read_as_cancel` — the acceptance of an order, sent on as its cancellation.
-/

set_option autoImplicit false

namespace MarketMaker

open Runs Word64

/-! ## Soundness of an event -/

/-- An acknowledgement or an ambiguous response: it names no order. -/
def OrderEvent.NamesNoOrder : OrderEvent → Prop
  | .orderSubmissionAcknowledged | .cancelSubmissionAcknowledged | .ambiguousResponse .. => True
  | _ => False

open OrderChannel in
/-- The reply could as well be the answer to another operation. -/
def Handling.Doubtful (h : Handling) : Prop :=
  ∃ q ∈ h.answers, ∃ q' ∈ h.rivals, Answers q' h.response ∧ q'.operation ≠ q.operation

/-- A cancellation comes from a cancel with code zero, a rejection from a new order with another
    code, and a reply that cannot be attributed names no order. -/
@[mk_iff]
structure Emission.Sound (e : Emission) : Prop where
  canceled : ∀ orderId c, e.event = .orderCanceled orderId (some c) →
    ∃ q ∈ e.handling.answers, q.operation = .cancelByClientId c ∧ e.handling.response.code = some 0
  rejected : ∀ c reason, e.event = .orderRejected c reason →
    ∃ q ∈ e.handling.answers, q.operation = .new c ∧ ∃ k, e.handling.response.code = some k ∧ k ≠ 0
  doubtful : e.handling.Doubtful → e.event.NamesNoOrder

/-- What is not an answer: a message without a code, or a fill notice, which echoes no request
    id. -/
def Notice (r : WsResponse) : Prop :=
  r.code = none ∨ (r.method = some "order:fill" ∨ r.method = some "order:filled") ∧ r.requestId = none

/-- A bare reply finds `pending_cancels` in agreement with the request it answers. -/
def Handling.Readable (h : Handling) (pendingCancels : Finset String) : Prop :=
  ∀ q ∈ h.answers, ∀ data code c, h.response.method = none → h.response.payload = some data →
    h.response.code = some code → data.extractClOrdId = some c →
    (c ∈ pendingCancels → ¬h.Doubtful ∧ (code = 0 → q.operation = .cancelByClientId c)) ∧
    (c ∉ pendingCancels → c ≠ "" →
      (code ≠ 0 → ¬h.Doubtful ∧ q.operation = .new c) ∧
      (code = 0 → data.extractOrderId.getD 0 ≠ 0 → ¬h.Doubtful))

/-- The event the reader has still to send. -/
def Reader.held : Reader → List OrderEvent
  | .unmarking _ event => [event]
  | _ => []

namespace OrderChannel

/-- The exchange answers a request with an honest answer to it, and sends notices. -/
def HonestReceipt : Event → Prop
  | .receive (some q) r => Answers q r
  | .receive none r => Notice r
  | _ => True

/-- A response that is about to be routed is readable. -/
def RoutesReadable (s : OrderChannel) : Event → Prop
  | .reader => ∀ r, s.reader = .routing r → s.handling.Readable s.client.tracking.pendingCancels
  | _ => True

end OrderChannel

open OrderChannel

/-- A reply in hand is an honest answer to a request that was made. -/
structure Handling.Honest (h : Handling) (issued : List Request) : Prop where
  answers : ∀ q ∈ h.answers, Answers q h.response ∧ q ∈ issued
  notice : h.answers = none → Notice h.response
  rivals : ∀ q ∈ h.rivals, q ∈ issued

theorem Handling.Honest.mono {h : Handling} {issued issued' : List Request} (hh : h.Honest issued)
    (hsub : issued ⊆ issued') : h.Honest issued' where
  answers q hq := ⟨(hh.answers q hq).1, hsub (hh.answers q hq).2⟩
  notice := hh.notice
  rivals q hq := hsub (hh.rivals q hq)

section Routing

variable {h : Handling} {s : OrderChannel} {q : Request} {t : Tracking}

/-- Nothing else could be answered by a reply with a request id. -/
theorem not_doubtful_of_requestId (hs : Numbered s) (hids : s.idsTaken ≤ size)
    (hh : h.Honest s.issued) {id : String} (hid : h.response.requestId = some id) : ¬h.Doubtful := by
  rintro ⟨q, hq, q', hq', hans, hne⟩
  obtain ⟨hanswers, hissued⟩ := hh.answers q hq
  have hsame : q'.id = q.id := (hans.requestId id hid).symm.trans (hanswers.requestId id hid)
  exact hne (by rw [hs.unique hids (hh.rivals q' hq') hissued hsame])

/-- A reply with a client id answers a request of that client id. -/
theorem operation_of_clOrdId (hs : Numbered s) {r : WsResponse} (hq : q ∈ s.issued)
    (hans : Answers q r) {data : Json} (hdata : r.payload = some data) :
    ∃ c, data.extractClOrdId = some c ∧
      (q.operation = .new c ∨ q.operation = .cancelByClientId c) := by
  obtain ⟨c, hc⟩ := hs.byClientId q hq
  refine ⟨c, ?_, hc⟩
  rw [hans.clOrdId data hdata]
  obtain hc | hc := hc <;> rw [hc] <;> rfl

/-- Nothing else could be answered by a reply with a method and a client id. -/
theorem not_doubtful_of_method (hs : Numbered s) (hh : h.Honest s.issued) {m : String}
    (hm : h.response.method = some m) {data : Json} (hdata : h.response.payload = some data) :
    ¬h.Doubtful := by
  rintro ⟨q, hq, q', hq', hans, hne⟩
  obtain ⟨hanswers, hissued⟩ := hh.answers q hq
  obtain ⟨c, hc, hop⟩ := operation_of_clOrdId hs hissued hanswers hdata
  obtain ⟨c', hc', hop'⟩ := operation_of_clOrdId hs (hh.rivals q' hq') hans hdata
  have hcc : c' = c := Option.some_inj.mp (hc'.symm.trans hc)
  have hmethod : q'.operation.method = q.operation.method :=
    (hans.method m hm).symm.trans (hanswers.method m hm)
  subst hcc
  obtain hop | hop := hop <;> obtain hop' | hop' := hop' <;> rw [hop, hop'] at hmethod hne
  · exact hne rfl
  · exact absurd hmethod (by simp [PendingRequest.method])
  · exact absurd hmethod (by simp [PendingRequest.method])
  · exact hne rfl

/-! ### Soundness, event by event -/

theorem sound_of_namesNoOrder {event : OrderEvent} (he : event.NamesNoOrder) :
    (⟨h, event⟩ : Emission).Sound where
  canceled orderId c hc := by
    simp only at hc
    rw [hc] at he
    exact he.elim
  rejected c reason hc := by
    simp only at hc
    rw [hc] at he
    exact he.elim
  doubtful _ := he

theorem sound_accepted {c : String} {orderId : Int} :
    (⟨h, .orderAccepted c orderId⟩ : Emission).Sound ↔ ¬h.Doubtful := by
  simp [Emission.sound_iff, OrderEvent.NamesNoOrder]

theorem sound_cancelFailed {orderId : Int} {reason : String} :
    (⟨h, .cancelFailed orderId reason⟩ : Emission).Sound ↔ ¬h.Doubtful := by
  simp [Emission.sound_iff, OrderEvent.NamesNoOrder]

theorem sound_filled {orderId : Int} {c status : Option String} {qty price : String} :
    (⟨h, .orderFilled orderId c status qty price⟩ : Emission).Sound ↔ ¬h.Doubtful := by
  simp [Emission.sound_iff, OrderEvent.NamesNoOrder]

theorem sound_rejected {c reason : String} {code : Int} (hcode : h.response.code = some code) :
    (⟨h, .orderRejected c reason⟩ : Emission).Sound ↔
      ¬h.Doubtful ∧ code ≠ 0 ∧ ∃ q ∈ h.answers, q.operation = .new c := by
  simp only [Emission.sound_iff, OrderEvent.NamesNoOrder, hcode]
  constructor
  · rintro ⟨-, hrejected, hdoubtful⟩
    obtain ⟨q, hq, hop, k, ⟨⟩, hk⟩ := hrejected c reason rfl
    exact ⟨hdoubtful, hk, q, hq, hop⟩
  · rintro ⟨hdoubtful, hk, q, hq, hop⟩
    refine ⟨by simp, ?_, hdoubtful⟩
    rintro c' reason' ⟨⟩
    exact ⟨q, hq, hop, code, rfl, hk⟩

theorem sound_canceled {orderId : Int} {c : String} {code : Int}
    (hcode : h.response.code = some code) :
    (⟨h, .orderCanceled orderId (some c)⟩ : Emission).Sound ↔
      ¬h.Doubtful ∧ code = 0 ∧ ∃ q ∈ h.answers, q.operation = .cancelByClientId c := by
  simp only [Emission.sound_iff, OrderEvent.NamesNoOrder, hcode]
  constructor
  · rintro ⟨hcanceled, -, hdoubtful⟩
    obtain ⟨q, hq, hop, ⟨⟩⟩ := hcanceled orderId c rfl
    exact ⟨hdoubtful, rfl, q, hq, hop⟩
  · rintro ⟨hdoubtful, rfl, q, hq, hop⟩
    refine ⟨?_, by simp, hdoubtful⟩
    rintro orderId' c' ⟨⟩
    exact ⟨q, hq, hop, rfl⟩

theorem handleOrderResponse_sound {data : Json} {code : Int} {message : Option String}
    (hcode : h.response.code = some code) {c : String} (hc : data.extractClOrdId = some c) :
    (⟨h, handleOrderResponse data code message⟩ : Emission).Sound ↔
      (c ≠ "" → (code ≠ 0 → ¬h.Doubtful ∧ ∃ q ∈ h.answers, q.operation = .new c) ∧
        (code = 0 → data.extractOrderId.getD 0 ≠ 0 → ¬h.Doubtful)) := by
  unfold handleOrderResponse
  rw [hc, Option.getD_some]
  dsimp only
  split
  · next hzero =>
    split
    · next hunnamed =>
      refine iff_of_true (sound_of_namesNoOrder trivial) ?_
      intro hne
      exact ⟨fun hk => absurd hzero hk, fun _ ho => absurd hunnamed (by simp [hne, ho])⟩
    · next hnamed =>
      obtain ⟨hne, ho⟩ := not_or.mp hnamed
      rw [sound_accepted]
      simp [hne, ho, hzero]
  · next hk =>
    split
    · next hempty => exact iff_of_true (sound_of_namesNoOrder trivial) fun hne => absurd hempty hne
    · next hne =>
      rw [sound_rejected hcode]
      simp [hne, hk]

theorem handleCancelResponse_sound {data : Json} {code : Int} {message : Option String}
    (hcode : h.response.code = some code) {c : String} (hc : data.extractClOrdId = some c) :
    (⟨h, handleCancelResponse data code message⟩ : Emission).Sound ↔
      ¬h.Doubtful ∧ (code = 0 → ∃ q ∈ h.answers, q.operation = .cancelByClientId c) := by
  unfold handleCancelResponse
  rw [hc]
  dsimp only
  split
  · next hzero =>
    rw [if_neg (by simp), sound_canceled hcode]
    simp [hzero]
  · next hk =>
    rw [if_neg (by simp), sound_cancelFailed]
    simp [hk]

/-! ### The routes -/

theorem not_doubtful_of_notice (hnone : h.answers = none) : ¬h.Doubtful := by
  rintro ⟨q, hq, -⟩
  rw [hnone] at hq
  exact absurd hq (by simp)

theorem orderFillEvent_sound (hnone : h.answers = none) (r : WsResponse) :
    (⟨h, orderFillEvent r⟩ : Emission).Sound := by
  unfold orderFillEvent
  split
  · exact sound_filled.mpr (not_doubtful_of_notice hnone)
  · exact sound_of_namesNoOrder trivial

/-- Notices free no slot. -/
theorem route_notice_sound (hnone : h.answers = none) (hnotice : Notice h.response) {event : OrderEvent}
    (he : event ∈ (Reader.route t h.response).1.held ++ (Reader.route t h.response).2) :
    (⟨h, event⟩ : Emission).Sound := by
  obtain hcode | hfill := hnotice
  · unfold Reader.route at he
    dsimp only at he
    split at he
    · rw [orderNewEvent, hcode] at he
      obtain rfl := List.mem_singleton.mp he
      exact sound_of_namesNoOrder trivial
    · split at he
      · rw [orderCancelEvent, hcode] at he
        obtain rfl := List.mem_singleton.mp he
        exact sound_of_namesNoOrder trivial
      · split at he
        · obtain rfl := List.mem_singleton.mp he
          exact orderFillEvent_sound hnone _
        · unfold Reader.routeBare at he
          rw [hcode] at he
          split at he
          · rw [if_neg (by simp)] at he
            obtain rfl := List.mem_singleton.mp he
            exact sound_of_namesNoOrder trivial
          · obtain rfl := List.mem_singleton.mp he
            exact sound_of_namesNoOrder trivial
          · next heq => exact absurd heq (by simp)
  · have hroute : Reader.route t h.response = (.idle, [orderFillEvent h.response]) := by
      obtain hfill | hfill := hfill.1 <;> simp [Reader.route, hfill]
    rw [hroute] at he
    obtain rfl := List.mem_singleton.mp he
    exact orderFillEvent_sound hnone _

theorem code_of_answers (hh : h.Honest s.issued) (hq : q ∈ h.answers) :
    ∃ code, h.response.code = some code := Option.isSome_iff_exists.mp (hh.answers q hq).1.code

/-- A reply with a method is sound. -/
theorem route_method_sound (hs : Numbered s) (hh : h.Honest s.issued) (hq : q ∈ h.answers)
    {m : String} (hm : h.response.method = some m) {event : OrderEvent}
    (he : event ∈ (Reader.route t h.response).1.held ++ (Reader.route t h.response).2) :
    (⟨h, event⟩ : Emission).Sound := by
  obtain ⟨hans, hissued⟩ := hh.answers q hq
  obtain ⟨code, hcode⟩ := code_of_answers hh hq
  obtain ⟨c, hop⟩ := hs.byClientId q hissued
  have hmethod : m = q.operation.method := hans.method m hm
  have hclOrdId : ∀ data, h.response.payload = some data → data.extractClOrdId = some c := by
    intro data hdata
    rw [hans.clOrdId data hdata]
    obtain hop | hop := hop <;> rw [hop] <;> rfl
  obtain hop | hop := hop
  · have hroute : Reader.route t h.response = (.idle, [orderNewEvent h.response]) := by
      simp [Reader.route, hm, hmethod, hop, PendingRequest.method]
    rw [hroute] at he
    obtain rfl := List.mem_singleton.mp he
    unfold orderNewEvent
    rw [hcode]
    split
    · exact sound_of_namesNoOrder trivial
    · next code' data heq hdata =>
      cases heq
      rw [handleOrderResponse_sound hcode (hclOrdId data hdata)]
      have := not_doubtful_of_method hs hh hm hdata
      exact fun _ => ⟨fun _ => ⟨this, q, hq, hop⟩, fun _ _ => this⟩
    · split <;> exact sound_of_namesNoOrder trivial
  · have hevent : event = orderCancelEvent h.response := by
      simp only [Reader.route, hm, hmethod, hop, PendingRequest.method, Option.getD_some] at he
      rw [if_neg (by decide), if_pos trivial] at he
      split at he <;> exact List.mem_singleton.mp he
    rw [hevent]
    unfold orderCancelEvent
    rw [hcode]
    split
    · exact sound_of_namesNoOrder trivial
    · next code' data heq hdata =>
      cases heq
      rw [handleCancelResponse_sound hcode (hclOrdId data hdata)]
      exact ⟨not_doubtful_of_method hs hh hm hdata, fun _ => ⟨q, hq, hop⟩⟩
    · split <;> exact sound_of_namesNoOrder trivial

/-- The only request a response answers. -/
theorem exists_answers_iff (hq : q ∈ h.answers) {P : Request → Prop} :
    (∃ q' ∈ h.answers, P q') ↔ P q := by
  constructor
  · rintro ⟨q', hq', hP⟩
    rwa [Option.mem_unique hq hq']
  · intro hP
    exact ⟨q, hq, hP⟩

theorem classifyBare_sound (t : Tracking) (r : WsResponse) :
    (⟨h, (Reader.classifyBare t).getD (unattributedEvent r)⟩ : Emission).Sound := by
  refine sound_of_namesNoOrder ?_
  unfold Reader.classifyBare
  dsimp only
  split
  · trivial
  · split <;> trivial

/-- A bare reply is sound if and only if it is readable. -/
theorem routeBare_sound_iff (hs : Numbered s) (hh : h.Honest s.issued) (hq : q ∈ h.answers)
    (hm : h.response.method = none) :
    (∀ event ∈ (Reader.routeBare t h.response).1.held ++ (Reader.routeBare t h.response).2,
      (⟨h, event⟩ : Emission).Sound) ↔ h.Readable t.pendingCancels := by
  obtain ⟨hans, hissued⟩ := hh.answers q hq
  obtain ⟨code, hcode⟩ := code_of_answers hh hq
  unfold Reader.routeBare
  rw [hcode]
  split
  · next k hnone =>
    refine iff_of_true ?_ ?_
    · split <;> intro event he <;> obtain rfl := List.mem_singleton.mp he
      · exact classifyBare_sound t _
      · exact sound_of_namesNoOrder trivial
    · intro q' _ data code' c _ hdata
      rw [hnone] at hdata
      exact absurd hdata (by simp)
  · next heq => exact absurd heq (by simp)
  · next data code' hdata heq =>
    cases heq
    obtain ⟨c, hc, hop⟩ := operation_of_clOrdId hs hissued hans hdata
    have hreadable : h.Readable t.pendingCancels ↔
        (c ∈ t.pendingCancels → ¬h.Doubtful ∧ (code = 0 → q.operation = .cancelByClientId c)) ∧
        (c ∉ t.pendingCancels → c ≠ "" → (code ≠ 0 → ¬h.Doubtful ∧ q.operation = .new c) ∧
          (code = 0 → data.extractOrderId.getD 0 ≠ 0 → ¬h.Doubtful)) := by
      constructor
      · exact fun hr => hr q hq data code c hm hdata hcode hc
      · intro hr q' hq' data' code' c' _ hdata' hcode' hc'
        cases Option.mem_unique hq hq'
        cases Option.some_inj.mp (hdata.symm.trans hdata')
        cases Option.some_inj.mp (hcode.symm.trans hcode')
        cases Option.some_inj.mp (hc.symm.trans hc')
        exact hr
    rw [hreadable, hc]
    dsimp only
    by_cases hmem : c ∈ t.pendingCancels
    · rw [if_pos hmem]
      simp only [Reader.held, List.append_nil, List.forall_mem_singleton]
      rw [handleCancelResponse_sound hcode hc, exists_answers_iff hq]
      simp [hmem]
    · rw [if_neg hmem]
      simp only [Reader.held, List.nil_append, List.forall_mem_singleton]
      rw [handleOrderResponse_sound hcode hc, exists_answers_iff hq]
      simp [hmem]

/-- **Routing.**  What comes of a routed response is sound if and only if it was readable. -/
theorem route_sound_iff (hs : Numbered s) (hh : h.Honest s.issued) :
    (∀ event ∈ (Reader.route t h.response).1.held ++ (Reader.route t h.response).2,
      (⟨h, event⟩ : Emission).Sound) ↔ h.Readable t.pendingCancels := by
  cases hanswers : h.answers with
  | none =>
    refine iff_of_true (fun event => route_notice_sound hanswers (hh.notice hanswers)) ?_
    intro q hq
    rw [hanswers] at hq
    exact absurd hq (by simp)
  | some q =>
    cases hm : h.response.method with
    | some m =>
      refine iff_of_true (fun event => route_method_sound hs hh hanswers hm) ?_
      intro _ _ _ _ _ hnone
      rw [hm] at hnone
      exact absurd hnone (by simp)
    | none =>
      have hroute : Reader.route t h.response = Reader.routeBare t h.response := by
        simp [Reader.route, hm]
      rw [hroute]
      exact routeBare_sound_iff hs hh hanswers hm

/-- A correlated response is sound. -/
theorem correlated_sound (hs : Numbered s) (hids : s.idsTaken ≤ size) (hh : h.Honest s.issued)
    {code : Int} (hcode : h.response.code = some code) (hq : q ∈ h.answers)
    (hid : h.response.requestId = some q.id) :
    (⟨h, handleCorrelatedResponse q.operation code h.response.message⟩ : Emission).Sound := by
  have hdoubtful := not_doubtful_of_requestId hs hids hh hid
  obtain ⟨c, hop⟩ := hs.byClientId q (hh.answers q hq).2
  unfold handleCorrelatedResponse
  obtain hop | hop := hop <;> rw [hop] <;> dsimp only <;> split
  · exact sound_accepted.mpr hdoubtful
  · next hk => exact (sound_rejected hcode).mpr ⟨hdoubtful, hk, q, hq, hop⟩
  · next hzero => exact (sound_canceled hcode).mpr ⟨hdoubtful, hzero, q, hq, hop⟩
  · exact sound_cancelFailed.mpr hdoubtful

end Routing

/-! ## The reader along a run -/

/-- Where the reader stands with the response in hand.  What was found under a request id is the
    operation of the request that the response answers. -/
def Handling.At (h : Handling) : Reader → Prop
  | .received r | .unmatched r | .settling r _ | .routing r => r = h.response
  | .correlated p code r => r = h.response ∧ r.code = some code ∧
    ∃ q ∈ h.answers, q.operation = p ∧ r.requestId = some q.id
  | .idle | .unmarking .. => True

namespace OrderChannel

structure Reading (s : OrderChannel) : Prop where
  numbered : Numbered s
  honest : s.handling.Honest s.issued
  position : s.handling.At s.reader

/-- Whatever the reader has sent, or is about to send, is sound. -/
structure AllSound (s : OrderChannel) : Prop where
  held : ∀ event ∈ s.reader.held, (⟨s.handling, event⟩ : Emission).Sound
  emitted : ∀ e ∈ s.emitted, e.Sound

variable {s s' : OrderChannel}

theorem route_position (h : Handling) (t : Tracking) (r : WsResponse) :
    h.At (Reader.route t r).1 := by
  unfold Reader.route Reader.routeBare
  dsimp only
  repeat' split
  all_goals trivial

theorem afterLookup_position {h : Handling} : h.At (Reader.afterLookup h.response) := by
  unfold Reader.afterLookup
  split
  · trivial
  · rfl

/-- A pending request found under the request id of a response is the one it answers. -/
theorem lookup_answers (h : Reading s) (hids : s.idsTaken ≤ size) {code : Int} {id : String}
    {p : PendingRequest} (hcode : s.handling.response.code = some code)
    (hid : s.handling.response.requestId = some id)
    (hlookup : s.client.tracking.pendingRequests.lookup id = some p) :
    ∃ q ∈ s.handling.answers, q.operation = p ∧ s.handling.response.requestId = some q.id := by
  cases hanswers : s.handling.answers with
  | none =>
    obtain hnone | ⟨-, hnone⟩ := h.honest.notice hanswers
    · rw [hcode] at hnone
      exact absurd hnone (by simp)
    · rw [hid] at hnone
      exact absurd hnone (by simp)
  | some q =>
    obtain ⟨hans, hissued⟩ := h.honest.answers q hanswers
    have hq : id = q.id := hans.requestId id hid
    subst hq
    have hmem : (q.id, p) ∈ s.client.tracking.pendingRequests := by
      obtain ⟨l₁, l₂, hl, -⟩ := List.lookup_eq_some_iff.mp hlookup
      rw [hl]
      simp
    exact ⟨q, rfl, (h.numbered.pending_operation hids hissued hmem).symm, hid⟩

theorem reader_position (h : Reading s) (hids : s.idsTaken ≤ size) :
    s.handling.At (s.reader.step s.client.tracking).2.1 := by
  have hposition := h.position
  cases hreader : s.reader with
  | received r =>
    rw [hreader] at hposition
    obtain rfl : r = s.handling.response := hposition
    simp only [Reader.step]
    split
    · next code id hcode hid =>
      split
      · next p hlookup => exact ⟨rfl, hcode, lookup_answers h hids hcode hid hlookup⟩
      · exact afterLookup_position
    · exact afterLookup_position
  | correlated p code r => cases p <;> trivial
  | unmatched r =>
    rw [hreader] at hposition
    simp only [Reader.step]
    split
    · dsimp only
      split <;> exact hposition
    · exact hposition
  | settling r clOrdId =>
    rw [hreader] at hposition
    exact hposition
  | routing r => exact route_position _ _ r
  | idle | unmarking => trivial

theorem readerStep_allSound (s : OrderChannel) : s.readerStep.AllSound ↔
    (∀ event ∈ (s.reader.step s.client.tracking).2.1.held ++ (s.reader.step s.client.tracking).2.2,
      (⟨s.handling, event⟩ : Emission).Sound) ∧ ∀ e ∈ s.emitted, e.Sound := by
  constructor
  · rintro ⟨hheld, hemitted⟩
    refine ⟨fun event he => ?_, fun e he => hemitted e (List.mem_append_right _ he)⟩
    obtain he | he := List.mem_append.mp he
    · exact hheld event he
    · exact hemitted _ (List.mem_append_left _ (List.mem_map_of_mem he))
  · rintro ⟨hsent, hemitted⟩
    refine ⟨fun event he => hsent event (List.mem_append_left _ he), fun e he => ?_⟩
    obtain he | he := List.mem_append.mp he
    · obtain ⟨event, hevent, rfl⟩ := List.mem_map.mp he
      exact hsent event (List.mem_append_right _ hevent)
    · exact hemitted e he

/-- A step of the reader that is not a routing sends what the reader held, or nothing. -/
theorem readerStep_sound_of_quiet (hheld : ∀ event, event ∈ s.reader.held ↔
      event ∈ (s.reader.step s.client.tracking).2.1.held ++ (s.reader.step s.client.tracking).2.2)
    (hroute : ∀ r, s.reader ≠ .routing r) :
    s.readerStep.AllSound ↔ s.AllSound ∧ s.RoutesReadable .reader := by
  rw [readerStep_allSound]
  constructor
  · rintro ⟨hsent, hemitted⟩
    exact ⟨⟨fun event he => hsent event ((hheld event).mp he), hemitted⟩,
      fun r hr => absurd hr (hroute r)⟩
  · rintro ⟨⟨hsent, hemitted⟩, -⟩
    exact ⟨fun event he => hsent event ((hheld event).mpr he), hemitted⟩

/-- The reader's step. -/
theorem readerStep_sound (h : Reading s) (hids : s.idsTaken ≤ size) :
    s.readerStep.AllSound ↔ s.AllSound ∧ s.RoutesReadable .reader := by
  have hposition := h.position
  cases hreader : s.reader with
  | routing r =>
    rw [hreader] at hposition
    obtain rfl : r = s.handling.response := hposition
    rw [readerStep_allSound, hreader]
    simp only [Reader.step]
    rw [route_sound_iff h.numbered h.honest]
    constructor
    · rintro ⟨hreadable, hemitted⟩
      exact ⟨⟨by rw [hreader]; simp [Reader.held], hemitted⟩, fun _ _ => hreadable⟩
    · rintro ⟨⟨-, hemitted⟩, hreadable⟩
      exact ⟨hreadable _ hreader, hemitted⟩
  | correlated p code r =>
    rw [hreader] at hposition
    obtain ⟨rfl, hcode, q, hq, rfl, hid⟩ := hposition
    have hsound := correlated_sound h.numbered hids h.honest hcode hq hid
    have hsent : (s.reader.step s.client.tracking).2 =
        (.idle, [handleCorrelatedResponse q.operation code s.handling.response.message]) := by
      rw [hreader]
      simp only [Reader.step]
      split <;> rfl
    rw [readerStep_allSound, hsent]
    simp only [Reader.held, List.nil_append, List.forall_mem_singleton]
    constructor
    · rintro ⟨-, hemitted⟩
      refine ⟨⟨by rw [hreader]; simp [Reader.held], hemitted⟩, fun r' hr' => ?_⟩
      rw [hreader] at hr'
      exact absurd hr' (by simp)
    · rintro ⟨⟨-, hemitted⟩, -⟩
      exact ⟨hsound, hemitted⟩
  | received r =>
    refine readerStep_sound_of_quiet ?_ (by rw [hreader]; simp)
    rw [hreader]
    simp only [Reader.step, Reader.afterLookup]
    repeat' split
    all_goals simp [Reader.held]
  | unmatched r =>
    refine readerStep_sound_of_quiet ?_ (by rw [hreader]; simp)
    rw [hreader]
    simp only [Reader.step]
    repeat' split
    all_goals simp [Reader.held]
  | idle | settling | unmarking =>
    refine readerStep_sound_of_quiet ?_ (by rw [hreader]; simp)
    rw [hreader]
    simp [Reader.step, Reader.held]

theorem receive_reading (h : Reading s) {answers : Option Request} {r : WsResponse}
    (honest : HonestReceipt (.receive answers r)) (hs : s.receive answers r = some s') :
    Reading s' ∧ (s'.AllSound ↔ s.AllSound) := by
  have hnumbered := receive_numbered h.numbered hs
  unfold OrderChannel.receive at hs
  split at hs
  · next hreader =>
    simp only at hs
    split at hs
    · next hmem =>
      cases hs
      refine ⟨⟨hnumbered, ?_, rfl⟩, ?_⟩
      · cases answers with
        | none => exact ⟨by simp, fun _ => honest, fun q hq => h.numbered.unanswered q hq⟩
        | some q =>
          have hq : q ∈ s.unanswered := by simpa using hmem
          refine ⟨?_, by simp, fun q' hq' => h.numbered.unanswered q' (List.mem_of_mem_erase hq')⟩
          rintro q' ⟨⟩
          exact ⟨honest, h.numbered.unanswered q hq⟩
      · constructor
        · exact fun h => ⟨by rw [hreader]; simp [Reader.held], h.emitted⟩
        · exact fun h => ⟨by simp [Reader.held], h.emitted⟩
    · exact absurd hs (by simp)
  · exact absurd hs (by simp)

/-- The other tasks leave the reader alone. -/
theorem frame_sound {e : Event} (h : Reading s) (hs : s.step e = some s') (hother : ¬e.OfReader) :
    Reading s' ∧ (s'.AllSound ↔ s.AllSound) := by
  have hframe := step_frame hs
  obtain ⟨hreader, hhandling, hemitted⟩ := hframe.reader hother
  refine ⟨⟨numbered_step h.numbered hs, ?_, ?_⟩, ?_⟩
  · rw [hhandling]
    exact h.honest.mono hframe.issued
  · rw [hhandling, hreader]
    exact h.position
  · constructor
    · rintro ⟨hheld, hsent⟩
      rw [hreader, hhandling] at hheld
      rw [hemitted] at hsent
      exact ⟨hheld, hsent⟩
    · rintro ⟨hheld, hsent⟩
      exact ⟨by rw [hreader, hhandling]; exact hheld, by rw [hemitted]; exact hsent⟩

/-- **One step.**  What is sent stays sound exactly if the step routes nothing unreadable. -/
theorem step_sound {e : Event} (h : Reading s) (hids : s.idsTaken ≤ size) (honest : HonestReceipt e)
    (hs : s.step e = some s') : Reading s' ∧ (s'.AllSound ↔ s.AllSound ∧ s.RoutesReadable e) := by
  cases e with
  | reader =>
    cases hs
    exact ⟨⟨numbered_step (e := .reader) h.numbered rfl, h.honest, reader_position h hids⟩,
      readerStep_sound h hids⟩
  | receive answers r =>
    obtain ⟨hreading, hsound⟩ := receive_reading h honest hs
    exact ⟨hreading, by rw [hsound]; exact (and_iff_left trivial).symm⟩
  | _ =>
    obtain ⟨hreading, hsound⟩ := frame_sound h hs (by simp [Event.OfReader])
    exact ⟨hreading, by rw [hsound]; exact (and_iff_left trivial).symm⟩

theorem new_reading (sessionId : String) : Reading (new sessionId) where
  numbered := new_numbered sessionId
  honest := ⟨by simp [new], fun _ => .inl rfl, by simp [new]⟩
  position := trivial

theorem exec_sound {es : List Event} (h : Reading s) (hrun : exec step s es = some s')
    (hids : s'.idsTaken ≤ size) (honest : ∀ e ∈ es, HonestReceipt e) :
    s'.AllSound ↔ s.AllSound ∧ Along step RoutesReadable s es := by
  induction es generalizing s with
  | nil =>
    cases hrun
    exact (and_iff_left trivial).symm
  | cons e es ih =>
    obtain ⟨t, ht, hrest⟩ := exec_cons_some hrun
    obtain ⟨hreceipt, honest⟩ := List.forall_mem_cons.mp honest
    have hbound : s.idsTaken ≤ size :=
      (Nat.le_trans (step_frame ht).idsTaken (idsTaken_exec hrest)).trans hids
    obtain ⟨hreading, hsound⟩ := step_sound h hbound hreceipt ht
    rw [ih hreading hrest honest, hsound, and_assoc]
    simp [Along, ht]

/-! ## Attribution -/

/-- A bare reply with code zero and a client id. -/
def bareReply (clOrdId : String) : WsResponse where
  code := some 0
  data := some (.obj [("cl_ord_id", .str clOrdId)])

/-- The order is placed and, still pending, canceled. -/
def placedAndCanceled : List Event :=
  [.connection true true true, .place "ord_1" 0] ++ List.replicate 6 (.executor true true) ++
    [.cancel "ord_1"] ++ List.replicate 5 (.executor true true)

/-- Then its acceptance arrives, bare. -/
def acceptedBare : List Event :=
  placedAndCanceled ++
    [.receive (some ⟨"req_session_1_0", .new "ord_1"⟩) (bareReply "ord_1"), .reader, .reader,
     .reader, .reader]

theorem acceptedBare_honest : ∀ e ∈ acceptedBare, HonestReceipt e := by
  have hanswers : Answers ⟨"req_session_1_0", .new "ord_1"⟩ (bareReply "ord_1") := by
    constructor <;> simp [bareReply, WsResponse.payload, PendingRequest.clOrdId]
    decide
  intro e he
  simp only [acceptedBare, placedAndCanceled, List.mem_append, List.mem_cons, List.mem_replicate,
    List.not_mem_nil, or_false] at he
  rcases he with ((((rfl | rfl) | ⟨-, rfl⟩) | rfl) | ⟨-, rfl⟩) | rfl | rfl | rfl | rfl | rfl
  case inr.inl => exact hanswers
  all_goals trivial

/-- Over every interleaving in which fewer than `2 ^ 64` request ids are drawn and the exchange
    answers honestly, every event is sound if and only if every response was readable when it was
    routed. -/
theorem replies_attributed {sessionId : String} {es : List Event}
    (h : exec step (new sessionId) es = some s) (hids : s.idsTaken ≤ size)
    (honest : ∀ e ∈ es, HonestReceipt e) :
    s.AllSound ↔ Along step RoutesReadable (new sessionId) es := by
  rw [exec_sound (new_reading sessionId) h hids honest]
  exact and_iff_right ⟨by simp [new, Reader.held], by simp [new]⟩

theorem replies_attributed_bare : ∃ s, exec step (new "session_1") acceptedBare = some s ∧
    (s.AllSound ↔ Along step RoutesReadable (new "session_1") acceptedBare) :=
  ⟨_, rfl, replies_attributed rfl (by decide) acceptedBare_honest⟩

/-- The acceptance of an order is sent on as its cancellation. -/
theorem acceptance_read_as_cancel : ∃ s, exec step (new "session_1") acceptedBare = some s ∧
    s.idsTaken ≤ size ∧ (∀ e ∈ acceptedBare, HonestReceipt e) ∧
    ∃ e ∈ s.emitted, e.event = .orderCanceled 0 (some "ord_1") ∧
      e.handling.answers = some ⟨"req_session_1_0", .new "ord_1"⟩ ∧ ¬e.Sound := by
  refine ⟨_, rfl, by decide, acceptedBare_honest, _, List.mem_cons_self, rfl, rfl, ?_⟩
  intro hsound
  obtain ⟨q, ⟨⟩, hop, -⟩ := hsound.canceled 0 "ord_1" rfl
  exact absurd hop (by decide)

end OrderChannel

end MarketMaker
