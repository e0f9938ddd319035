import MarketMaker.Trading.Attribution

/-!
# Where a response goes

`handle_response` as one call, its lock sections run one after the other.

* `Routed` — the events a response that matches no pending request can become, each with the part
  of the response it is read from.
* `Reader.route_routed` — every arm of the cascade sends one of them, now or after one more section.
* `routing_sound` — one event for every response but a duplicate, with ids that come from the matched
  request or from the payload, and no other submission settled.
* `unidentified_fill` — a fill message is reported even if it names no order.
-/

set_option autoImplicit false

namespace MarketMaker

/-! ## The call -/

namespace Reader

/-- The number of lock sections still to come, at most. -/
def rank : Reader → Nat
  | .idle => 0
  | .correlated .. | .unmarking .. => 1
  | .routing _ => 2
  | .settling .. => 3
  | .unmatched _ => 4
  | .received _ => 5

/-- Run that many lock sections. -/
def finish : Nat → Tracking → Reader → Tracking × Reader × List OrderEvent
  | 0, t, reader => (t, reader, [])
  | n + 1, t, reader =>
    let (t, reader, events) := step t reader
    let (t, reader, later) := finish n t reader
    (t, reader, events ++ later)

theorem finish_idle (n : Nat) (t : Tracking) : finish n t .idle = (t, .idle, []) := by
  induction n with
  | zero => rfl
  | succ n ih => simp [finish, step, ih]

end Reader

/-- `handle_response`: the maps it leaves and the events it sends. -/
def handleResponse (t : Tracking) (r : WsResponse) : Tracking × List OrderEvent :=
  let (t, _, events) := (Reader.received r).finish (Reader.received r).rank t
  (t, events)

/-! ## What a response carries -/

/-- The payload carries the client id. -/
def WsResponse.Carries (r : WsResponse) (clOrdId : String) : Prop :=
  r.payload.bind Json.extractClOrdId = some clOrdId

/-- The payload carries the order id. -/
def WsResponse.CarriesOrderId (r : WsResponse) (orderId : Int) : Prop :=
  r.payload.bind Json.extractOrderId = some orderId

/-- A fill message with a payload. -/
def WsResponse.IsFill (r : WsResponse) : Prop :=
  (r.method = some "order:fill" ∨ r.method = some "order:filled") ∧ r.payload.isSome = true

/-- The response has a code and the request id of this pending request. -/
def WsResponse.Matches (t : Tracking) (r : WsResponse) (p : PendingRequest) : Prop :=
  r.code.isSome = true ∧ ∃ id, r.requestId = some id ∧ t.pendingRequests.lookup id = some p

/-- A code and a client's request id that matches nothing, and nothing else to read. -/
def WsResponse.Duplicate (t : Tracking) (r : WsResponse) : Prop :=
  r.code.isSome = true ∧
    (∃ id, r.requestId = some id ∧ t.pendingRequests.lookup id = none ∧
      (Text.stripLeading "req_session_".toList id.toList).isSome = true) ∧
    r.method = none ∧ r.data = none ∧ r.result = none

/-- No pending request matches, and the payload has no client id and no order id. -/
def WsResponse.Unidentified (t : Tracking) (r : WsResponse) : Prop :=
  (∀ p, ¬r.Matches t p) ∧ (∀ c, ¬r.Carries c) ∧ ∀ x, r.CarriesOrderId x → x = 0

/-! ## The cascade -/

/-- What a response that matches no request can become. -/
inductive Routed (r : WsResponse) : OrderEvent → Prop
  | submitted : Routed r .orderSubmissionAcknowledged
  | cancelSubmitted : Routed r .cancelSubmissionAcknowledged
  | ambiguous (requestId : Option String) (code : Option Int) (reason : String) :
      Routed r (.ambiguousResponse requestId code reason)
  | accepted (c : String) (x : Int) : r.code.isSome = true → r.Carries c → r.CarriesOrderId x →
      Routed r (.orderAccepted c x)
  | rejected (c reason : String) : r.code.isSome = true → r.Carries c → Routed r (.orderRejected c reason)
  | canceled (x : Int) (c : Option String) : r.payload.bind Json.extractClOrdId = c →
      (x ≠ 0 → r.CarriesOrderId x) → (x = 0 → c ≠ none) → Routed r (.orderCanceled x c)
  | cancelFailed (x : Int) (reason : String) : (x ≠ 0 → r.CarriesOrderId x) →
      (x = 0 → ∃ c, r.Carries c) → Routed r (.cancelFailed x reason)
  | filled (x : Int) (c status : Option String) (qty price : String) : r.IsFill →
      r.payload.bind Json.extractClOrdId = c → (x ≠ 0 → r.CarriesOrderId x) →
      Routed r (.orderFilled x c status qty price)

section Arms

variable {r : WsResponse} {data : Json} {code : Int}

theorem method_of_getD {method : String} (h : r.method.getD "" = method) (hmethod : method ≠ "") :
    r.method = some method := by
  cases hr : r.method with
  | none => exact absurd (hr ▸ h).symm hmethod
  | some _ => rw [hr] at h; exact congrArg some h

theorem carriesOrderId_of_ne (hdata : r.payload = some data) (h : data.extractOrderId.getD 0 ≠ 0) :
    r.CarriesOrderId (data.extractOrderId.getD 0) := by
  unfold WsResponse.CarriesOrderId
  rw [hdata, Option.bind_some]
  cases hid : data.extractOrderId with
  | none => simp [hid] at h
  | some x => rfl

theorem carries_of_ne (hdata : r.payload = some data) (h : data.extractClOrdId.getD "" ≠ "") :
    r.Carries (data.extractClOrdId.getD "") := by
  unfold WsResponse.Carries
  rw [hdata, Option.bind_some]
  cases hid : data.extractClOrdId with
  | none => simp [hid] at h
  | some c => rfl

theorem handleOrderResponse_routed (hdata : r.payload = some data) (hcode : r.code = some code) :
    Routed r (handleOrderResponse data code r.message) := by
  have hsome : r.code.isSome = true := by rw [hcode]; rfl
  unfold handleOrderResponse
  dsimp only
  split
  · split
    · exact .submitted
    · rename_i hids
      push Not at hids
      exact .accepted _ _ hsome (carries_of_ne hdata hids.1) (carriesOrderId_of_ne hdata hids.2)
  · split
    · exact .ambiguous _ _ _
    · rename_i hid
      exact .rejected _ _ hsome (carries_of_ne hdata hid)

theorem handleCancelResponse_routed (hdata : r.payload = some data) :
    Routed r (handleCancelResponse data code r.message) := by
  have hclOrdId : r.payload.bind Json.extractClOrdId = data.extractClOrdId := by rw [hdata]; rfl
  unfold handleCancelResponse
  dsimp only
  split
  · split
    · exact .cancelSubmitted
    · rename_i hids
      exact .canceled _ _ hclOrdId (carriesOrderId_of_ne hdata) fun hx hc => hids ⟨hx, hc⟩
  · split
    · exact .ambiguous _ _ _
    · rename_i hids
      refine .cancelFailed _ _ (carriesOrderId_of_ne hdata) fun hx => ?_
      obtain ⟨c, hc⟩ := Option.ne_none_iff_exists'.mp fun hc => hids ⟨hx, hc⟩
      exact ⟨c, hclOrdId.trans hc⟩

theorem orderNewEvent_routed (r : WsResponse) : Routed r (orderNewEvent r) := by
  unfold orderNewEvent
  split
  · exact .ambiguous _ _ _
  · rename_i hcode hdata
    exact handleOrderResponse_routed hdata hcode
  · split
    · exact .submitted
    · exact .ambiguous _ _ _

theorem orderCancelEvent_routed (r : WsResponse) : Routed r (orderCancelEvent r) := by
  unfold orderCancelEvent
  split
  · exact .ambiguous _ _ _
  · rename_i hdata
    exact handleCancelResponse_routed hdata
  · split
    · exact .cancelSubmitted
    · exact .ambiguous _ _ _

theorem orderFillEvent_routed (hmethod : r.method = some "order:fill" ∨ r.method = some "order:filled") :
    Routed r (orderFillEvent r) := by
  unfold orderFillEvent
  split
  · rename_i hdata
    have hfill : r.IsFill := ⟨hmethod, by rw [hdata]; rfl⟩
    exact .filled _ _ _ _ _ hfill (by rw [hdata]; rfl) (carriesOrderId_of_ne hdata)
  · exact .ambiguous _ _ _

theorem classifyBare_routed {t : Tracking} {event : OrderEvent} (h : event ∈ Reader.classifyBare t) :
    Routed r event := by
  unfold Reader.classifyBare at h
  dsimp only at h
  split at h
  · cases h
    exact .submitted
  · split at h
    · cases h
      exact .cancelSubmitted
    · cases h

end Arms

namespace Reader

/-- One event leaves the cascade, at once or when a client id has been unmarked. -/
def Sends (r : WsResponse) (out : Reader × List OrderEvent) : Prop :=
  ∃ event, Routed r event ∧ (out = (.idle, [event]) ∨ ∃ c, out = (.unmarking c event, []))

theorem sends_now {r : WsResponse} {event : OrderEvent} (h : Routed r event) : Sends r (.idle, [event]) :=
  ⟨event, h, Or.inl rfl⟩

theorem sends_unmarking {r : WsResponse} {event : OrderEvent} (h : Routed r event) (c : String) :
    Sends r (.unmarking c event, []) :=
  ⟨event, h, Or.inr ⟨c, rfl⟩⟩

theorem routeBare_routed (t : Tracking) (r : WsResponse) : Sends r (routeBare t r) := by
  unfold routeBare
  split
  · split
    · cases hbare : classifyBare t with
      | none => exact sends_now (.ambiguous _ _ _)
      | some event => exact sends_now (classifyBare_routed hbare)
    · exact sends_now (.ambiguous _ _ _)
  · exact sends_now (.ambiguous _ _ _)
  · rename_i hdata hcode
    split
    · split
      · exact sends_unmarking (handleCancelResponse_routed hdata) _
      · exact sends_now (handleOrderResponse_routed hdata hcode)
    · split
      · exact sends_now (handleCancelResponse_routed hdata)
      · exact sends_now (.ambiguous _ _ _)

/-- **The cascade loses nothing.** -/
theorem route_routed (t : Tracking) (r : WsResponse) : Sends r (route t r) := by
  unfold route
  dsimp only
  split
  · exact sends_now (orderNewEvent_routed r)
  · split
    · split
      · exact sends_unmarking (orderCancelEvent_routed r) _
      · exact sends_now (orderCancelEvent_routed r)
    · split
      · rename_i hmethod
        refine sends_now (orderFillEvent_routed ?_)
        rcases hmethod with hmethod | hmethod
        · exact Or.inl (method_of_getD hmethod (by decide))
        · exact Or.inr (method_of_getD hmethod (by decide))
      · exact routeBare_routed t r

theorem finish_unmarking (n : Nat) (t : Tracking) (c : String) (event : OrderEvent) :
    finish (n + 1) t (.unmarking c event) = (t.unmarkCancel c, .idle, [event]) := by
  simp [finish, step, finish_idle]

/-- From the routing on, exactly one event is sent and no pending request is touched. -/
theorem finish_routing (n : Nat) (t : Tracking) (r : WsResponse) :
    ∃ t' event, Routed r event ∧ t'.pendingRequests = t.pendingRequests ∧
      finish (n + 2) t (.routing r) = (t', .idle, [event]) := by
  obtain ⟨event, hrouted, hout | ⟨c, hout⟩⟩ := route_routed t r
  · refine ⟨t, event, hrouted, rfl, ?_⟩
    rw [finish, step, hout]
    simp [finish_idle]
  · refine ⟨t.unmarkCancel c, event, hrouted, rfl, ?_⟩
    rw [finish, step, hout]
    simp [finish_unmarking]

end Reader

/-! ## The whole call -/

/-- The submissions a response settles by its client id alone. -/
def WsResponse.SettlesByClOrdId (t : Tracking) (r : WsResponse) (c : String) : Prop :=
  r.code.isSome = true ∧ r.method ≠ some "order:cancel" ∧ r.Carries c ∧ c ∉ t.pendingCancels

/-- What `handle_response` does as a whole. -/
inductive Handled (t : Tracking) (r : WsResponse) : Tracking × List OrderEvent → Prop
  | matched (t' : Tracking) (id : String) (p : PendingRequest) (code : Int) :
      r.code = some code → r.requestId = some id → t.pendingRequests.lookup id = some p →
      t'.pendingRequests = (t.removeRequest id).pendingRequests →
      Handled t r (t', [handleCorrelatedResponse p code r.message])
  | duplicate : r.Duplicate t → Handled t r (t, [])
  | routed (t' : Tracking) (event : OrderEvent) : (∀ p, ¬r.Matches t p) → ¬r.Duplicate t →
      Routed r event →
      (t'.pendingRequests = t.pendingRequests ∨
        ∃ c, r.SettlesByClOrdId t c ∧ t'.pendingRequests = (t.dropNew (· == c)).pendingRequests) →
      Handled t r (t', [event])

theorem settlesId_some {r : WsResponse} {c : String} (h : Reader.settlesId r = some c) :
    r.code.isSome = true ∧ r.method ≠ some "order:cancel" ∧ r.Carries c := by
  unfold Reader.settlesId at h
  split at h
  · rename_i hsettles
    exact ⟨hsettles.1, fun hmethod => hsettles.2 (by rw [hmethod]; rfl), h⟩
  · cases h

/-- A response that matches nothing and is no duplicate is settled, routed and sent on. -/
theorem finish_unmatched (t : Tracking) (r : WsResponse) :
    ∃ t' event, Routed r event ∧
      (t'.pendingRequests = t.pendingRequests ∨
        ∃ c, r.SettlesByClOrdId t c ∧ t'.pendingRequests = (t.dropNew (· == c)).pendingRequests) ∧
      Reader.finish 4 t (.unmatched r) = (t', .idle, [event]) := by
  rw [Reader.finish, Reader.step]
  cases hsettles : Reader.settlesId r with
  | none =>
    obtain ⟨t', event, hrouted, hrequests, hfinish⟩ := Reader.finish_routing 1 t r
    exact ⟨t', event, hrouted, Or.inl hrequests, by simp [hfinish]⟩
  | some c =>
    obtain ⟨hcode, hmethod, hcarries⟩ := settlesId_some hsettles
    by_cases hc : c ∈ t.pendingCancels
    · obtain ⟨t', event, hrouted, hrequests, hfinish⟩ := Reader.finish_routing 1 t r
      exact ⟨t', event, hrouted, Or.inl hrequests, by simp [hc, hfinish]⟩
    · obtain ⟨t', event, hrouted, hrequests, hfinish⟩ := Reader.finish_routing 0 (t.dropNew (· == c)) r
      refine ⟨t', event, hrouted, Or.inr ⟨c, ⟨hcode, hmethod, hcarries, hc⟩, hrequests⟩, ?_⟩
      simp only [hc, if_false]
      rw [Reader.finish, Reader.step]
      simp [hfinish]

theorem finish_correlated (n : Nat) (t : Tracking) (p : PendingRequest) (code : Int) (r : WsResponse) :
    ∃ t', t'.pendingRequests = t.pendingRequests ∧
      Reader.finish (n + 1) t (.correlated p code r) =
        (t', .idle, [handleCorrelatedResponse p code r.message]) := by
  rw [Reader.finish]
  cases p with
  | cancelByClientId c => exact ⟨t.unmarkCancel c, rfl, by simp [Reader.step, Reader.finish_idle]⟩
  | new c => exact ⟨t, rfl, by simp [Reader.step, Reader.finish_idle]⟩
  | cancelByOrderId x => exact ⟨t, rfl, by simp [Reader.step, Reader.finish_idle]⟩

/-- A response whose lookup finds nothing is a duplicate, or goes through the cascade. -/
theorem handled_of_lookup {t : Tracking} {r : WsResponse} (hnone : ∀ p, ¬r.Matches t p)
    (hstep : (Reader.received r).step t = (t, Reader.afterLookup r, [])) :
    Handled t r (handleResponse t r) := by
  have hcall : handleResponse t r =
      (((Reader.afterLookup r).finish 4 t).1, ((Reader.afterLookup r).finish 4 t).2.2) := by
    rw [handleResponse, Reader.rank, Reader.finish, hstep]
    simp
  rw [hcall, Reader.afterLookup]
  split
  · rename_i hsettled
    rw [Reader.finish_idle]
    refine .duplicate ?_
    simp only [Reader.isSettledDuplicate, Bool.and_eq_true, Option.isNone_iff_eq_none] at hsettled
    obtain ⟨⟨⟨⟨hcode, hid⟩, hmethod⟩, hdata⟩, hresult⟩ := hsettled
    obtain ⟨id, hrequest, hleading⟩ := (Option.any_eq_true _ _).mp hid
    have hlookup : t.pendingRequests.lookup id = none := by
      cases hfound : t.pendingRequests.lookup id with
      | none => rfl
      | some p => exact absurd ⟨hcode, id, hrequest, hfound⟩ (hnone p)
    exact ⟨hcode, ⟨id, hrequest, hlookup, hleading⟩, hmethod, hdata, hresult⟩
  · rename_i hsettled
    obtain ⟨t', event, hrouted, hrequests, hfinish⟩ := finish_unmatched t r
    rw [hfinish]
    refine .routed t' event hnone (fun hdup => hsettled ?_) hrouted hrequests
    obtain ⟨hcode, ⟨id, hrequest, _, hleading⟩, hmethod, hdata, hresult⟩ := hdup
    simp only [Reader.isSettledDuplicate, hcode, hrequest, Option.any_some, hleading, hmethod, hdata, hresult,
      Option.isNone_none, Bool.and_self]

theorem handleResponse_handled (t : Tracking) (r : WsResponse) : Handled t r (handleResponse t r) := by
  cases hcode : r.code with
  | none =>
    refine handled_of_lookup (fun p hp => ?_) (by simp [Reader.step, hcode])
    have := hp.1
    rw [hcode] at this
    cases this
  | some code =>
    cases hrequest : r.requestId with
    | none =>
      refine handled_of_lookup ?_ (by simp [Reader.step, hcode, hrequest])
      rintro p ⟨_, id, hid, _⟩
      rw [hrequest] at hid
      cases hid
    | some id =>
      cases hlookup : t.pendingRequests.lookup id with
      | none =>
        refine handled_of_lookup ?_ (by simp [Reader.step, hcode, hrequest, hlookup])
        rintro p ⟨_, id', hid, hp⟩
        rw [hrequest] at hid
        cases hid
        rw [hlookup] at hp
        cases hp
      | some p =>
        obtain ⟨t', hrequests, hfinish⟩ := finish_correlated 3 (t.removeRequest id) p code r
        have hcall : handleResponse t r = (t', [handleCorrelatedResponse p code r.message]) := by
          rw [handleResponse, Reader.rank, Reader.finish]
          simp [Reader.step, hcode, hrequest, hlookup, hfinish]
        rw [hcall]
        exact .matched t' id p code hcode hrequest hlookup hrequests

/-! ## The result -/

/-- The client id an acceptance or a rejection names. -/
def OrderEvent.submissionId : OrderEvent → Option String
  | .orderAccepted clOrdId _ | .orderRejected clOrdId _ => some clOrdId
  | _ => none

/-- The ids a cancellation or a failed cancel names; an order id of zero is none. -/
def OrderEvent.cancelIds : OrderEvent → Option (Int × Option String)
  | .orderCanceled orderId clOrdId => some (orderId, clOrdId)
  | .cancelFailed orderId _ => some (orderId, none)
  | _ => none

theorem WsResponse.Matches.of_lookup {t : Tracking} {r : WsResponse} {id : String} {p : PendingRequest}
    {code : Int} (hcode : r.code = some code) (hid : r.requestId = some id)
    (hp : t.pendingRequests.lookup id = some p) : r.Matches t p :=
  ⟨by rw [hcode]; rfl, id, hid, hp⟩

/-- A matched request is answered with its own ids. -/
theorem handleCorrelatedResponse_ids (p : PendingRequest) (code : Int) (message : Option String) :
    (∀ c, (handleCorrelatedResponse p code message).submissionId = some c → p = .new c) ∧
    ∀ x c, (handleCorrelatedResponse p code message).cancelIds = some (x, c) →
      (x ≠ 0 → p = .cancelByOrderId x) ∧ ∀ c', c = some c' → p = .cancelByClientId c' := by
  unfold handleCorrelatedResponse
  cases p <;> dsimp only <;> split <;>
    simp_all [OrderEvent.submissionId, OrderEvent.cancelIds]

/-- What the ids of an event are read from. -/
structure IdsFrom (t : Tracking) (r : WsResponse) (event : OrderEvent) : Prop where
  submission : ∀ c, event.submissionId = some c →
    r.Matches t (.new c) ∨ r.code.isSome = true ∧ r.Carries c
  cancelOrderId : ∀ x c, event.cancelIds = some (x, c) → x ≠ 0 →
    r.Matches t (.cancelByOrderId x) ∨ r.CarriesOrderId x
  cancelClOrdId : ∀ x c, event.cancelIds = some (x, some c) →
    r.Matches t (.cancelByClientId c) ∨ r.Carries c
  unidentified : r.Unidentified t → event.NamesNoOrder ∨
    r.IsFill ∧ ∃ status qty price, event = .orderFilled 0 none status qty price

theorem idsFrom_of_matches {t : Tracking} {r : WsResponse} {p : PendingRequest} {code : Int}
    (h : r.Matches t p) : IdsFrom t r (handleCorrelatedResponse p code r.message) := by
  obtain ⟨hsubmission, hcancel⟩ := handleCorrelatedResponse_ids p code r.message
  refine ⟨fun c hc => ?_, fun x c hids hx => ?_, fun x c hids => ?_, fun hun => absurd h (hun.1 p)⟩
  · exact Or.inl (hsubmission c hc ▸ h)
  · exact Or.inl ((hcancel x c hids).1 hx ▸ h)
  · exact Or.inl ((hcancel x (some c) hids).2 c rfl ▸ h)

theorem Routed.idsFrom {t : Tracking} {r : WsResponse} {event : OrderEvent} (h : Routed r event) :
    IdsFrom t r event := by
  refine ⟨fun c hc => ?_, fun x c hids hx => ?_, fun x c hids => ?_, fun ⟨_, hclient, horder⟩ => ?_⟩
  · cases h with
    | accepted c' x hcode hcarries _ => cases hc; exact Or.inr ⟨hcode, hcarries⟩
    | rejected c' reason hcode hcarries => cases hc; exact Or.inr ⟨hcode, hcarries⟩
    | _ => cases hc
  · cases h with
    | canceled x' c' _ horder _ => cases hids; exact Or.inr (horder hx)
    | cancelFailed x' reason horder _ => cases hids; exact Or.inr (horder hx)
    | _ => cases hids
  · cases h with
    | canceled x' c' hclient _ _ => cases hids; exact Or.inr hclient
    | _ => cases hids
  · -- without ids in the payload only a fill still becomes an event of an order
    cases h with
    | submitted | cancelSubmitted | ambiguous => exact Or.inl trivial
    | accepted c x _ hcarries _ => exact absurd hcarries (hclient c)
    | rejected c reason _ hcarries => exact absurd hcarries (hclient c)
    | canceled x c hc hx hzero =>
      have hx0 : x = 0 := by
        by_contra hne
        exact hne (horder x (hx hne))
      obtain ⟨c', hc'⟩ := Option.ne_none_iff_exists'.mp (hzero hx0)
      exact absurd (hc.trans hc') (hclient c')
    | cancelFailed x reason hx hzero =>
      have hx0 : x = 0 := by
        by_contra hne
        exact hne (horder x (hx hne))
      obtain ⟨c, hc⟩ := hzero hx0
      exact absurd hc (hclient c)
    | filled x c status qty price hfill hc hx =>
      obtain rfl : x = 0 := by
        by_contra hne
        exact hne (horder x (hx hne))
      cases c with
      | none => exact Or.inr ⟨hfill, status, qty, price, rfl⟩
      | some c => exact absurd hc (hclient c)

/-- A pending request that is gone was matched, or is a submission settled by its client id. -/
theorem Handled.removed {t : Tracking} {r : WsResponse} {out : Tracking × List OrderEvent}
    (h : Handled t r out) {e : String × PendingRequest} (he : e ∈ t.pendingRequests)
    (hgone : e ∉ out.1.pendingRequests) :
    r.code.isSome = true ∧ r.requestId = some e.1 ∨ ∃ c, e.2 = .new c ∧ r.SettlesByClOrdId t c := by
  cases h with
  | matched t' id p code hcode hid _ hrequests =>
    refine Or.inl ⟨by rw [hcode]; rfl, ?_⟩
    by_contra hne
    refine hgone ?_
    rw [hrequests]
    exact List.mem_filter.mpr ⟨he, decide_eq_true fun heq => hne (heq ▸ hid)⟩
  | duplicate _ => exact absurd he hgone
  | routed t' event _ _ _ hrequests =>
    rcases hrequests with hrequests | ⟨c, hsettles, hrequests⟩
    · rw [hrequests] at hgone
      exact absurd he hgone
    · refine Or.inr ⟨c, ?_, hsettles⟩
      by_contra hne
      refine hgone ?_
      rw [hrequests]
      refine List.mem_filter.mpr ⟨he, ?_⟩
      cases hp : e.2 with
      | new c' =>
        have : c' ≠ c := fun heq => hne (heq ▸ hp)
        simp [PendingRequest.newId, this]
      | cancelByClientId | cancelByOrderId => rfl

theorem Handled.kept {t : Tracking} {r : WsResponse} {out : Tracking × List OrderEvent}
    (h : Handled t r out) {e : String × PendingRequest} (he : e ∈ out.1.pendingRequests) :
    e ∈ t.pendingRequests := by
  cases h with
  | matched t' id p code _ _ _ hrequests =>
    rw [hrequests] at he
    exact (List.mem_filter.mp he).1
  | duplicate _ => exact he
  | routed t' event _ _ _ hrequests =>
    rcases hrequests with hrequests | ⟨c, _, hrequests⟩
    · exact hrequests ▸ he
    · rw [hrequests] at he
      exact (List.mem_filter.mp he).1

theorem WsResponse.Duplicate.not_matches {t : Tracking} {r : WsResponse} (h : r.Duplicate t)
    (p : PendingRequest) :
    ¬r.Matches t p := by
  rintro ⟨_, id, hid, hp⟩
  obtain ⟨_, ⟨id', hid', hnone, _⟩, _⟩ := h
  rw [hid] at hid'
  cases hid'
  rw [hnone] at hp
  cases hp

theorem Handled.events {t : Tracking} {r : WsResponse} {out : Tracking × List OrderEvent}
    (h : Handled t r out) :
    r.Duplicate t ∧ out.2 = [] ∨ ¬r.Duplicate t ∧ ∃ event, out.2 = [event] ∧ IdsFrom t r event := by
  cases h with
  | matched t' id p code hcode hid hp _ =>
    have hmatches : r.Matches t p := .of_lookup hcode hid hp
    exact Or.inr ⟨fun hdup => hdup.not_matches p hmatches, _, rfl, idsFrom_of_matches hmatches⟩
  | duplicate hdup => exact Or.inl ⟨hdup, rfl⟩
  | routed t' event _ hdup hrouted _ => exact Or.inr ⟨hdup, event, rfl, hrouted.idsFrom⟩

/-- **Response routing.**  Every response but a duplicate sends exactly one event; its ids are the
    matched request's or the payload's; a pending request leaves only with a response that carries its
    request id, a submission also with one that carries its client id and is no cancel. -/
theorem routing_sound (t : Tracking) (r : WsResponse) :
    ((handleResponse t r).2 = [] ↔ r.Duplicate t) ∧
    (¬r.Duplicate t → ∃ event, (handleResponse t r).2 = [event]) ∧
    (∀ event ∈ (handleResponse t r).2, IdsFrom t r event) ∧
    (∀ e ∈ t.pendingRequests, e ∉ (handleResponse t r).1.pendingRequests →
      r.code.isSome = true ∧ r.requestId = some e.1 ∨ ∃ c, e.2 = .new c ∧ r.SettlesByClOrdId t c) ∧
    ∀ e ∈ (handleResponse t r).1.pendingRequests, e ∈ t.pendingRequests := by
  have h := handleResponse_handled t r
  refine ⟨⟨fun hnone => ?_, fun hdup => ?_⟩, fun hdup => ?_, fun event hevent => ?_, fun e he => h.removed he,
    fun e he => h.kept he⟩
  · rcases h.events with ⟨hdup, _⟩ | ⟨_, event, hevent, _⟩
    · exact hdup
    · rw [hnone] at hevent
      cases hevent
  · rcases h.events with ⟨_, hnone⟩ | ⟨hnot, _⟩
    · exact hnone
    · exact absurd hdup hnot
  · rcases h.events with ⟨hyes, _⟩ | ⟨_, event, hevent, _⟩
    · exact absurd hyes hdup
    · exact ⟨event, hevent⟩
  · rcases h.events with ⟨_, hnone⟩ | ⟨_, event', hevent', hids⟩
    · rw [hnone] at hevent
      cases hevent
    · rw [hevent', List.mem_singleton] at hevent
      exact hevent ▸ hids

/-- A fill message whose payload names no order is reported as a fill of no order; a response with the
    request id of a cancel takes its entry out. -/
theorem unidentified_fill :
    ({ method := some "order:fill", data := some (.obj []) } : WsResponse).Unidentified ⟨∅, []⟩ ∧
    (handleResponse ⟨∅, []⟩ { method := some "order:fill", data := some (.obj []) }).2 =
      [.orderFilled 0 none none "0" "0"] ∧
    ¬(OrderEvent.orderFilled 0 none none "0" "0").NamesNoOrder ∧
    (handleResponse ⟨∅, [("req_1", .cancelByOrderId 7)]⟩
      { code := some 0, requestId := some "req_1" }).1.pendingRequests = [] := by
  refine ⟨⟨fun p hp => ?_, fun c hc => ?_, fun x hx => ?_⟩, rfl, id, rfl⟩
  · cases hp.1
  · cases hc
  · cases hx

end MarketMaker
