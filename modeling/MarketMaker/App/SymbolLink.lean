import MarketMaker.App.OrderText
import MarketMaker.Base.Run
import MarketMaker.Base.Text

/-!
# The symbol info link

The poller of `symbol_info.rs` compares an API answer with the shared symbol info and signals the main
loop; only the main loop writes, in the tick size arm.  The poller reads the three cells one by one while
the main loop may be storing them, and may be waiting for room in the channel.

* `tryUpdate_sound` — on sizes of the API the check for a change is exact.
* `SymbolLink.sizes_agree` — over every interleaving no `expect` of the arm fails, each shared value is that
  of a valid answer of the run, and between two arms the order manager has the sizes of the shared info.
* `SymbolLink.Carries.fromApi` — what the poller sends is what the texts of the orders rely on.
* `SymbolLink.settles` — once the API keeps to one answer, what the link comes to rest with is that answer.

The signals of other symbols share the channel: they only delay this poller.
-/

set_option autoImplicit false

namespace MarketMaker

open Text Runs

/-- `SymbolInfo`. -/
structure SymbolInfo where
  symbol : String
  priceTickDecimals : Fin 256
  qtyTickDecimals : Fin 256
  minOrderQty : String
  deriving DecidableEq

namespace SymbolInfo

/-- `10.0_f64.powi(-(price_tick_decimals as i32))`. -/
def tickSize (api : SymbolInfo) : ℚ := 1 / 10 ^ api.priceTickDecimals.val

/-- `10.0_f64.powi(-(qty_tick_decimals as i32))`. -/
def lotSize (api : SymbolInfo) : ℚ := 1 / 10 ^ api.qtyTickDecimals.val

/-- The values of a valid answer: at most eleven decimals and a positive minimum. -/
def values (api : SymbolInfo) : Option SharedSymbolInfo :=
  if api.priceTickDecimals.val < 12 ∧ api.qtyTickDecimals.val < 12 then
    match parseF64 api.minOrderQty with
    | some (some minQty) => if 0 < minQty then some ⟨api.tickSize, api.lotSize, minQty⟩ else none
    | _ => none
  else none

end SymbolInfo

/-- What `try_update` refuses. -/
inductive UpdateError where
  | invalidTickSize (tickSize : ℚ) (decimals : Fin 256)
  | invalidLotSize (lotSize : ℚ) (decimals : Fin 256)
  /-- The message of the parser. -/
  | unparsedMinOrderQty (message : String)
  | invalidMinOrderQty
  deriving DecidableEq

/-- `SharedSymbolInfo::is_valid_step_size`. -/
def isValidStepSize (value : ℚ) : Bool := decide (1 / 10 ^ 12 < value) && decide (value < 10 ^ 12)

namespace SharedSymbolInfo

/-- `try_update`: the values it stores, and whether one of them is new. -/
def tryUpdateFrom (info : SharedSymbolInfo) (api : SymbolInfo) : Except UpdateError (SharedSymbolInfo × Bool) :=
  if !isValidStepSize api.tickSize then .error (.invalidTickSize api.tickSize api.priceTickDecimals)
  else if !isValidStepSize api.lotSize then .error (.invalidLotSize api.lotSize api.qtyTickDecimals)
  else
    match parseF64 api.minOrderQty with
    | none => .error (.unparsedMinOrderQty (parseFloatError api.minOrderQty))
    | some none => .error .invalidMinOrderQty
    | some (some minQty) =>
      if minQty ≤ 0 then .error .invalidMinOrderQty
      else
        let tickChanged := decide (1 / 10 ^ 12 < |api.tickSize - info.tickSize|)
        let lotChanged := decide (1 / 10 ^ 12 < |api.lotSize - info.lotSize|)
        .ok (⟨api.tickSize, api.lotSize, minQty⟩, tickChanged || lotChanged || decide (minQty ≠ info.minOrderQty))

/-- The startup's check and `from_api_response`. -/
def fromApiResponse (api : SymbolInfo) : Option SharedSymbolInfo :=
  match parseF64 api.minOrderQty with
  | some (some minQty) =>
    if isValidStepSize api.tickSize && (decide (0 < minQty) && isValidStepSize api.lotSize) then
      some ⟨api.tickSize, api.lotSize, minQty⟩
    else none
  | _ => none

/-- Each value is one of a valid answer. -/
structure Sound (info : SharedSymbolInfo) : Prop where
  tick : ∃ decimals < 12, info.tickSize = 1 / 10 ^ decimals
  lot : ∃ decimals < 12, info.lotSize = 1 / 10 ^ decimals
  minQty : 0 < info.minOrderQty

end SharedSymbolInfo

/-! ## What is accepted -/

theorem isValidStepSize_iff (decimals : ℕ) : isValidStepSize (1 / 10 ^ decimals) = true ↔ decimals < 12 := by
  have hhigh : (1 : ℚ) / 10 ^ decimals < 10 ^ 12 := by
    have hone : (1 : ℚ) / 10 ^ decimals ≤ 1 := (div_le_one (by positivity)).mpr (one_le_pow₀ (by norm_num))
    exact hone.trans_lt (by norm_num)
  rw [isValidStepSize, Bool.and_eq_true, decide_eq_true_eq, decide_eq_true_eq, and_iff_left hhigh,
    one_div_lt_one_div (by positivity) (by positivity), pow_lt_pow_iff_right₀ (by norm_num)]

theorem decimal_step_gap {a b : ℕ} (hab : a < b) (hb : b < 12) : (1 : ℚ) / 10 ^ 12 < 1 / 10 ^ a - 1 / 10 ^ b := by
  have hnext : (1 : ℚ) / 10 ^ b ≤ 1 / 10 ^ (a + 1) :=
    one_div_le_one_div_of_le (by positivity) (pow_le_pow_right₀ (by norm_num) hab)
  have hten : (1 : ℚ) / 10 ^ a = 10 * (1 / 10 ^ (a + 1)) := by
    rw [pow_succ]
    field_simp
  have hsmall : (1 : ℚ) / 10 ^ 12 < 1 / 10 ^ b :=
    one_div_lt_one_div_of_lt (by positivity) (pow_lt_pow_right₀ (by norm_num) hb)
  linarith

/-- Two different sizes are further apart than the tolerance. -/
theorem decimal_steps_apart {a b : ℕ} (ha : a < 12) (hb : b < 12) :
    1 / 10 ^ 12 < |(1 : ℚ) / 10 ^ a - 1 / 10 ^ b| ↔ (1 : ℚ) / 10 ^ a ≠ 1 / 10 ^ b := by
  constructor
  · intro hlt heq
    rw [heq, sub_self, abs_zero] at hlt
    exact absurd hlt (by norm_num)
  · intro hne
    rcases Nat.lt_trichotomy a b with hab | rfl | hba
    · exact (decimal_step_gap hab hb).trans_le (le_abs_self _)
    · exact absurd rfl hne
    · rw [abs_sub_comm]
      exact (decimal_step_gap hba ha).trans_le (le_abs_self _)

namespace SymbolInfo

variable {api : SymbolInfo} {v : SharedSymbolInfo}

theorem values_eq_some (h : api.values = some v) :
    api.priceTickDecimals.val < 12 ∧ api.qtyTickDecimals.val < 12 ∧ 0 < v.minOrderQty ∧
      parseF64 api.minOrderQty = some (some v.minOrderQty) ∧ v.tickSize = api.tickSize ∧ v.lotSize = api.lotSize := by
  unfold values at h
  split at h
  · rename_i hdecimals
    split at h
    · rename_i minQty hparse
      split at h
      · rename_i hpos
        cases h
        exact ⟨hdecimals.1, hdecimals.2, hpos, hparse, rfl, rfl⟩
      · cases h
    · cases h
  · cases h

theorem values_sound (h : api.values = some v) : v.Sound := by
  obtain ⟨htick, hlot, hmin, -, htickSize, hlotSize⟩ := values_eq_some h
  exact ⟨⟨_, htick, htickSize⟩, ⟨_, hlot, hlotSize⟩, hmin⟩

end SymbolInfo

namespace SharedSymbolInfo

variable {info v : SharedSymbolInfo} {api : SymbolInfo}

/-- **A valid answer is taken, and told from the current values exactly.** -/
theorem tryUpdate_sound (hinfo : info.Sound) (h : api.values = some v) :
    info.tryUpdateFrom api = .ok (v, decide (v ≠ info)) := by
  obtain ⟨htick, hlot, hmin, hparse, htickSize, hlotSize⟩ := SymbolInfo.values_eq_some h
  obtain ⟨⟨oldTick, holdTick, holdTickSize⟩, ⟨oldLot, holdLot, holdLotSize⟩, -⟩ := hinfo
  have hvalidTick : isValidStepSize api.tickSize = true := (isValidStepSize_iff _).mpr htick
  have hvalidLot : isValidStepSize api.lotSize = true := (isValidStepSize_iff _).mpr hlot
  have htickChanged : 1 / 10 ^ 12 < |api.tickSize - info.tickSize| ↔ v.tickSize ≠ info.tickSize := by
    rw [htickSize, holdTickSize]
    exact decimal_steps_apart htick holdTick
  have hlotChanged : 1 / 10 ^ 12 < |api.lotSize - info.lotSize| ↔ v.lotSize ≠ info.lotSize := by
    rw [hlotSize, holdLotSize]
    exact decimal_steps_apart hlot holdLot
  have hv : (⟨api.tickSize, api.lotSize, v.minOrderQty⟩ : SharedSymbolInfo) = v := by
    rw [← htickSize, ← hlotSize]
  have hne : v ≠ info ↔ (v.tickSize ≠ info.tickSize ∨ v.lotSize ≠ info.lotSize) ∨ v.minOrderQty ≠ info.minOrderQty := by
    cases v
    cases info
    simp only [ne_eq, mk.injEq]
    tauto
  unfold tryUpdateFrom
  rw [hvalidTick, hvalidLot, hparse]
  simp only [Bool.not_true, Bool.false_eq_true, if_false, not_le.mpr hmin, htickChanged, hlotChanged, hv]
  rw [← Bool.decide_or, ← Bool.decide_or, decide_eq_decide.mpr hne]

theorem tryUpdate_refuses (h : api.values = none) : ∃ e, info.tryUpdateFrom api = .error e := by
  unfold tryUpdateFrom
  split
  · exact ⟨_, rfl⟩
  · rename_i htick
    split
    · exact ⟨_, rfl⟩
    · rename_i hlot
      rw [Bool.not_eq_true, Bool.not_eq_false'] at htick hlot
      unfold SymbolInfo.values at h
      rw [if_pos ⟨(isValidStepSize_iff _).mp htick, (isValidStepSize_iff _).mp hlot⟩] at h
      split
      · exact ⟨_, rfl⟩
      · exact ⟨_, rfl⟩
      · rename_i minQty hparse
        rw [hparse] at h
        dsimp only at h
        split at h
        · cases h
        · rename_i hmin
          rw [if_pos (not_lt.mp hmin)]
          exact ⟨_, rfl⟩

/-- The startup accepts what the poller accepts. -/
theorem fromApiResponse_eq (api : SymbolInfo) : fromApiResponse api = api.values := by
  have htick : isValidStepSize api.tickSize = true ↔ api.priceTickDecimals.val < 12 := isValidStepSize_iff _
  have hlot : isValidStepSize api.lotSize = true ↔ api.qtyTickDecimals.val < 12 := isValidStepSize_iff _
  unfold fromApiResponse SymbolInfo.values
  rcases parseF64 api.minOrderQty with _ | _ | minQty
  · simp
  · simp
  · simp only [Bool.and_eq_true, decide_eq_true_eq, htick, hlot]
    by_cases hmin : 0 < minQty <;> simp [hmin]

end SharedSymbolInfo

/-! ## The poller and the main loop -/

/-- `TickSizeChangedSignal`. -/
structure SymbolSignal where
  info : SymbolInfo
  symbol : String
  oldTickSize : ℚ
  newTickSize : ℚ
  oldLotSize : ℚ
  newLotSize : ℚ
  deriving DecidableEq

/-- Where the poller is: before its next query, before each of the three loads of the shared info, or in
    `send`. -/
inductive SymbolPoller where
  | idle
  | answered (api : SymbolInfo)
  | tickRead (api : SymbolInfo) (tick : ℚ)
  | sizesRead (api : SymbolInfo) (tick lot : ℚ)
  | sending (signal : SymbolSignal)
  deriving DecidableEq

/-- Where the main loop is: outside of the tick size arm, before one of the three stores of `try_update`, or
    before `set_precision`. -/
inductive TickArm where
  | outside
  | storingMinQty (signal : SymbolSignal) (new : SharedSymbolInfo)
  | storingTick (signal : SymbolSignal) (new : SharedSymbolInfo)
  | storingLot (signal : SymbolSignal) (new : SharedSymbolInfo)
  | settingPrecision (signal : SymbolSignal)
  deriving DecidableEq

/-- The shared info, the sizes of the order manager's config, the two tasks and the signals in the channel.
    `panicked`: an `expect` of the arm has failed. -/
structure SymbolLink where
  symbol : String
  info : SharedSymbolInfo
  config : SharedSymbolInfo
  poller : SymbolPoller
  channel : List SymbolSignal
  arm : TickArm
  panicked : Bool
  deriving DecidableEq

/-- A query's answer, the poller's next step, and the main loop's. -/
inductive LinkEvent where
  | answer (result : Except String SymbolInfo)
  | poller
  | receive
  | arm

namespace SymbolLink

/-- After the startup: the manager's config is built from the shared info. -/
def new (symbol : String) (info : SharedSymbolInfo) : SymbolLink :=
  ⟨symbol, info, info, .idle, [], .outside, false⟩

/-- The candidate of `run` and what becomes of it. -/
def compare (symbol : String) (old : SharedSymbolInfo) (api : SymbolInfo) : SymbolPoller :=
  match old.tryUpdateFrom api with
  | .ok (new, true) => .sending ⟨api, symbol, old.tickSize, new.tickSize, old.lotSize, new.lotSize⟩
  | .ok (_, false) => .idle
  | .error _ => .idle

/-- The poller. -/
def pollerStep (s : SymbolLink) : Option SymbolLink :=
  match s.poller with
  | .idle => none
  | .answered api => some { s with poller := .tickRead api s.info.tickSize }
  | .tickRead api tick => some { s with poller := .sizesRead api tick s.info.lotSize }
  | .sizesRead api tick lot => some { s with poller := compare s.symbol ⟨tick, lot, s.info.minOrderQty⟩ api }
  | .sending signal => some { s with poller := .idle, channel := s.channel ++ [signal] }

/-- The tick size arm takes a signal. -/
def receive (s : SymbolLink) : Option SymbolLink :=
  match s.arm, s.channel with
  | .outside, signal :: rest =>
    match s.info.tryUpdateFrom signal.info with
    | .ok (new, _) => some { s with channel := rest, arm := .storingMinQty signal new }
    | .error _ => some { s with channel := rest, panicked := true }
  | _, _ => none

/-- The tick size arm goes on. -/
def armStep (s : SymbolLink) : Option SymbolLink :=
  match s.arm with
  | .outside => none
  | .storingMinQty signal new =>
    some { s with info := { s.info with minOrderQty := new.minOrderQty }, arm := .storingTick signal new }
  | .storingTick signal new =>
    some { s with info := { s.info with tickSize := new.tickSize }, arm := .storingLot signal new }
  | .storingLot signal new =>
    some { s with info := { s.info with lotSize := new.lotSize }, arm := .settingPrecision signal }
  | .settingPrecision signal =>
    match parseF64 signal.info.minOrderQty with
    | some (some minQty) =>
      some { s with config := ⟨signal.newTickSize, signal.newLotSize, minQty⟩, arm := .outside }
    -- a NaN or an infinity would pass the `expect`: the model stops there as well
    | _ => some { s with arm := .outside, panicked := true }

def step (s : SymbolLink) : LinkEvent → Option SymbolLink
  | .answer (.ok api) => if s.poller = .idle then some { s with poller := .answered api } else none
  | .answer (.error _) => if s.poller = .idle then some s else none
  | .poller => s.pollerStep
  | .receive => s.receive
  | .arm => s.armStep

/-! ## Every interleaving -/

/-- A signal has a valid answer and its sizes. -/
structure Carries (signal : SymbolSignal) (v : SharedSymbolInfo) : Prop where
  values : signal.info.values = some v
  tick : signal.newTickSize = v.tickSize
  lot : signal.newLotSize = v.lotSize

/-- The signal the poller is sending. -/
def sent (s : SymbolLink) : List SymbolSignal :=
  match s.poller with
  | .sending signal => [signal]
  | _ => []

/-- What the poller has read is sound. -/
def ReadSound (s : SymbolLink) : Prop :=
  match s.poller with
  | .tickRead _ tick => ∃ decimals < 12, tick = 1 / 10 ^ decimals
  | .sizesRead _ tick lot => (∃ decimals < 12, tick = 1 / 10 ^ decimals) ∧ ∃ decimals < 12, lot = 1 / 10 ^ decimals
  | _ => True

/-- How far the arm has come with its signal. -/
def ArmAt (s : SymbolLink) : Prop :=
  match s.arm with
  | .outside => s.config = s.info
  | .storingMinQty signal new => Carries signal new
  | .storingTick signal new => Carries signal new ∧ s.info.minOrderQty = new.minOrderQty
  | .storingLot signal new =>
    Carries signal new ∧ s.info.minOrderQty = new.minOrderQty ∧ s.info.tickSize = new.tickSize
  | .settingPrecision signal => Carries signal s.info

structure Inv (s : SymbolLink) : Prop where
  info : s.info.Sound
  read : s.ReadSound
  signals : ∀ signal ∈ s.sent ++ s.channel, ∃ v, Carries signal v
  arm : s.ArmAt
  runs : s.panicked = false

/-- The signal as the arm reads it. -/
def toApp {signal : SymbolSignal} {v : SharedSymbolInfo} (h : Carries signal v) : App.TickSizeChangedSignal where
  symbol := signal.symbol
  newTickSize := signal.newTickSize
  newLotSize := signal.newLotSize
  minOrderQty := v.minOrderQty
  newLotSize_pos := by
    obtain ⟨decimals, -, hlot⟩ := (SymbolInfo.values_sound h.values).lot
    rw [h.lot, hlot]
    positivity

/-- What the executor's texts rely on. -/
theorem Carries.fromApi {signal : SymbolSignal} {v : SharedSymbolInfo} (h : Carries signal v)
    (position : SharedPosition) : TickFence.Event.FromApi (.arm (.tickSizeChanged (toApp h) position)) := by
  have hv := SymbolInfo.values_sound h.values
  obtain ⟨tickDecimals, htickLt, htick⟩ := hv.tick
  obtain ⟨lotDecimals, hlotLt, hlot⟩ := hv.lot
  exact ⟨⟨tickDecimals, htickLt.trans (by decide), h.tick.trans htick⟩,
    ⟨lotDecimals, hlotLt.trans (by decide), h.lot.trans hlot⟩⟩

theorem inv_new (symbol : String) {info : SharedSymbolInfo} (h : info.Sound) : Inv (new symbol info) where
  info := h
  read := trivial
  signals := by simp [sent, new]
  arm := rfl
  runs := rfl

/-- What the comparison sends is a valid answer. -/
theorem compare_cases (symbol : String) {old : SharedSymbolInfo} (h : old.Sound) (api : SymbolInfo) :
    (∃ v signal, compare symbol old api = .sending signal ∧ Carries signal v ∧ signal.info = api ∧ v ≠ old) ∨
      compare symbol old api = .idle ∧ ∀ v, api.values = some v → v = old := by
  cases hv : api.values with
  | none =>
    obtain ⟨e, he⟩ : ∃ e, old.tryUpdateFrom api = .error e := SharedSymbolInfo.tryUpdate_refuses hv
    unfold compare
    rw [he]
    exact .inr ⟨rfl, by simp⟩
  | some v =>
    have hupdate := SharedSymbolInfo.tryUpdate_sound h hv
    by_cases hsame : v = old
    · rw [decide_eq_false (not_not.mpr hsame)] at hupdate
      unfold compare
      rw [hupdate]
      refine .inr ⟨rfl, ?_⟩
      rintro w hw
      cases hw
      exact hsame
    · rw [decide_eq_true hsame] at hupdate
      unfold compare
      rw [hupdate]
      exact .inl ⟨v, _, rfl, ⟨hv, rfl, rfl⟩, rfl, hsame⟩

variable {s s' : SymbolLink}

/-- The poller moves: the main loop's side stays. -/
theorem pollerStep_keeps (h : s.pollerStep = some s') :
    s'.info = s.info ∧ s'.config = s.config ∧ s'.arm = s.arm ∧ s'.panicked = s.panicked := by
  unfold pollerStep at h
  split at h <;> cases h <;> exact ⟨rfl, rfl, rfl, rfl⟩

theorem Inv.pollerStep (h : Inv s) (hstep : s.pollerStep = some s') : Inv s' := by
  obtain ⟨hinfo, hconfig, harm, hpanicked⟩ := pollerStep_keeps hstep
  have hat : s'.ArmAt := by
    have := h.arm
    unfold ArmAt at this ⊢
    rw [hinfo, hconfig, harm]
    exact this
  have hread := h.read
  have hsignals := h.signals
  unfold ReadSound at hread
  unfold sent at hsignals
  unfold SymbolLink.pollerStep at hstep
  refine ⟨hinfo ▸ h.info, ?_, ?_, hat, hpanicked ▸ h.runs⟩
  · split at hstep
    · cases hstep
    · cases hstep
      exact h.info.tick
    · rename_i hpoller
      rw [hpoller] at hread
      cases hstep
      exact ⟨hread, h.info.lot⟩
    · rename_i api tick lot hpoller
      rw [hpoller] at hread
      cases hstep
      have hold : SharedSymbolInfo.Sound ⟨tick, lot, s.info.minOrderQty⟩ := ⟨hread.1, hread.2, h.info.minQty⟩
      unfold ReadSound
      dsimp only
      rcases compare_cases s.symbol hold api with ⟨v, signal, hsending, -⟩ | ⟨hidle, -⟩
      · rw [hsending]
        trivial
      · rw [hidle]
        trivial
    · cases hstep
      trivial
  · split at hstep
    · cases hstep
    · rename_i hpoller
      rw [hpoller] at hsignals
      cases hstep
      exact hsignals
    · rename_i hpoller
      rw [hpoller] at hsignals
      cases hstep
      exact hsignals
    · rename_i api tick lot hpoller
      rw [hpoller] at hread hsignals
      cases hstep
      have hold : SharedSymbolInfo.Sound ⟨tick, lot, s.info.minOrderQty⟩ := ⟨hread.1, hread.2, h.info.minQty⟩
      rcases compare_cases s.symbol hold api with ⟨v, signal, hsending, hcarries, -, -⟩ | ⟨hidle, -⟩
      · unfold sent
        dsimp only
        rw [hsending]
        intro x hx
        rcases List.mem_append.mp hx with hnew | hold
        · rw [List.mem_singleton.mp hnew]
          exact ⟨v, hcarries⟩
        · exact hsignals x (List.mem_append_right _ hold)
      · unfold sent
        dsimp only
        rw [hidle]
        exact hsignals
    · rename_i signal hpoller
      rw [hpoller] at hsignals
      cases hstep
      intro x hx
      refine hsignals x ?_
      have hx : x ∈ s.channel ++ [signal] := hx
      simpa [or_comm] using hx

/-- The arm moves: the poller's side stays. -/
theorem armStep_keeps (h : s.armStep = some s') : s'.poller = s.poller ∧ s'.channel = s.channel := by
  unfold armStep at h
  split at h
  · cases h
  · cases h
    exact ⟨rfl, rfl⟩
  · cases h
    exact ⟨rfl, rfl⟩
  · cases h
    exact ⟨rfl, rfl⟩
  · split at h <;> cases h <;> exact ⟨rfl, rfl⟩

theorem Inv.armStep (h : Inv s) (hstep : s.armStep = some s') : Inv s' := by
  obtain ⟨hpoller, hchannel⟩ := armStep_keeps hstep
  have hread : s'.ReadSound := by
    have := h.read
    unfold ReadSound at this ⊢
    rwa [hpoller]
  have hsignals : ∀ signal ∈ s'.sent ++ s'.channel, ∃ v, Carries signal v := by
    have := h.signals
    unfold sent at this ⊢
    rwa [hpoller, hchannel]
  have hat := h.arm
  unfold ArmAt at hat
  unfold SymbolLink.armStep at hstep
  split at hstep
  · cases hstep
  · rename_i signal new harm
    rw [harm] at hat
    cases hstep
    have hnew := SymbolInfo.values_sound hat.values
    exact ⟨⟨h.info.tick, h.info.lot, hnew.minQty⟩, hread, hsignals, ⟨hat, rfl⟩, h.runs⟩
  · rename_i signal new harm
    rw [harm] at hat
    cases hstep
    have hnew := SymbolInfo.values_sound hat.1.values
    exact ⟨⟨hnew.tick, h.info.lot, h.info.minQty⟩, hread, hsignals, ⟨hat.1, hat.2, rfl⟩, h.runs⟩
  · rename_i signal new harm
    rw [harm] at hat
    cases hstep
    obtain ⟨hcarries, hmin, htick⟩ := hat
    have hnew := SymbolInfo.values_sound hcarries.values
    refine ⟨⟨h.info.tick, hnew.lot, h.info.minQty⟩, hread, hsignals, ?_, h.runs⟩
    have hinfo : (⟨s.info.tickSize, new.lotSize, s.info.minOrderQty⟩ : SharedSymbolInfo) = new := by
      rw [hmin, htick]
    unfold ArmAt
    dsimp only
    rw [hinfo]
    exact hcarries
  · rename_i signal harm
    rw [harm] at hat
    obtain ⟨-, -, -, hparse, -, -⟩ := SymbolInfo.values_eq_some hat.values
    rw [hparse] at hstep
    cases hstep
    have hconfig : (⟨signal.newTickSize, signal.newLotSize, s.info.minOrderQty⟩ : SharedSymbolInfo) = s.info := by
      rw [hat.tick, hat.lot]
    exact ⟨h.info, hread, hsignals, hconfig, h.runs⟩

/-- The arm takes the oldest signal. -/
theorem Inv.receive_cases (h : Inv s) (hstep : s.receive = some s') :
    ∃ signal rest new, s.channel = signal :: rest ∧ Carries signal new ∧
      s' = { s with channel := rest, arm := .storingMinQty signal new } := by
  unfold SymbolLink.receive at hstep
  split at hstep
  · rename_i signal rest harm hchannel
    obtain ⟨new, hcarries⟩ := h.signals signal (by rw [hchannel]; simp)
    rw [SharedSymbolInfo.tryUpdate_sound h.info hcarries.values] at hstep
    cases hstep
    exact ⟨signal, rest, new, hchannel, hcarries, rfl⟩
  · cases hstep

theorem Inv.receive (h : Inv s) (hstep : s.receive = some s') : Inv s' := by
  obtain ⟨signal, rest, new, hchannel, hcarries, rfl⟩ := h.receive_cases hstep
  have hsignals := h.signals
  rw [hchannel] at hsignals
  refine ⟨h.info, h.read, fun x hx => ?_, hcarries, h.runs⟩
  rcases List.mem_append.mp hx with hsent | hrest
  · exact hsignals x (List.mem_append_left _ hsent)
  · exact hsignals x (List.mem_append_right _ (List.mem_cons_of_mem _ hrest))

theorem answer_cases {result : Except String SymbolInfo} (h : s.step (.answer result) = some s') :
    s.poller = .idle ∧ ((∃ api, s' = { s with poller := .answered api }) ∨ s' = s) := by
  cases result with
  | ok api =>
    obtain ⟨hidle, hs'⟩ := Option.ite_none_right_eq_some.mp h
    cases hs'
    exact ⟨hidle, .inl ⟨api, rfl⟩⟩
  | error message =>
    obtain ⟨hidle, hs'⟩ := Option.ite_none_right_eq_some.mp h
    cases hs'
    exact ⟨hidle, .inr rfl⟩

/-- **One event.** -/
theorem Inv.step (h : Inv s) {e : LinkEvent} (hstep : s.step e = some s') : Inv s' := by
  cases e with
  | answer result =>
    obtain ⟨hidle, ⟨api, rfl⟩ | rfl⟩ := answer_cases hstep
    · have hsignals := h.signals
      unfold sent at hsignals
      rw [hidle] at hsignals
      exact ⟨h.info, trivial, hsignals, h.arm, h.runs⟩
    · exact h
  | poller => exact h.pollerStep hstep
  | receive => exact h.receive hstep
  | arm => exact h.armStep hstep

/-! ## Where the values come from -/

/-- The answer the poller is comparing. -/
def comparing (s : SymbolLink) : Option SymbolInfo :=
  match s.poller with
  | .answered api => some api
  | .tickRead api _ => some api
  | .sizesRead api _ _ => some api
  | _ => none

/-- The signal of the arm. -/
def applying (s : SymbolLink) : Option SymbolSignal :=
  match s.arm with
  | .outside => none
  | .storingMinQty signal _ => some signal
  | .storingTick signal _ => some signal
  | .storingLot signal _ => some signal
  | .settingPrecision signal => some signal

/-- The answers under way. -/
def held (s : SymbolLink) : List SymbolInfo :=
  s.comparing.toList ++ (s.sent ++ s.channel ++ s.applying.toList).map SymbolSignal.info

/-- The comparison passes its answer on, or drops it. -/
theorem compare_info (symbol : String) (old : SharedSymbolInfo) (api : SymbolInfo) :
    (∃ signal, compare symbol old api = .sending signal ∧ signal.info = api) ∨
      compare symbol old api = .idle := by
  unfold compare
  split
  · exact .inl ⟨_, rfl, rfl⟩
  · exact .inr rfl
  · exact .inr rfl

theorem held_pollerStep (hstep : s.pollerStep = some s') {api : SymbolInfo} (hapi : api ∈ s'.held) :
    api ∈ s.held := by
  unfold pollerStep at hstep
  unfold held comparing sent at hapi ⊢
  split at hstep
  · cases hstep
  · rename_i hpoller
    cases hstep
    rwa [hpoller]
  · rename_i hpoller
    cases hstep
    rwa [hpoller]
  · rename_i api' tick lot hpoller
    cases hstep
    rw [hpoller]
    dsimp only at hapi
    rcases compare_info s.symbol ⟨tick, lot, s.info.minOrderQty⟩ api' with ⟨signal, hsending, hinfo⟩ | hidle
    · rw [hsending] at hapi
      simpa [hinfo, applying] using hapi
    · rw [hidle] at hapi
      exact List.mem_append_right _ hapi
  · rename_i signal hpoller
    cases hstep
    rw [hpoller]
    simpa [applying, or_comm, or_left_comm] using hapi

theorem held_receive (hstep : s.receive = some s') {api : SymbolInfo} (hapi : api ∈ s'.held) :
    api ∈ s.held := by
  unfold SymbolLink.receive at hstep
  split at hstep
  · rename_i signal rest harm hchannel
    split at hstep
    · cases hstep
      simpa [held, comparing, sent, applying, harm, hchannel, or_comm, or_left_comm] using hapi
    · cases hstep
      simp only [held, comparing, sent, applying, harm, hchannel, List.map_append, List.map_cons,
        List.mem_append, List.mem_cons] at hapi ⊢
      tauto
  · cases hstep

/-- The arm goes on with its signal, or it has stored it. -/
theorem Inv.armStep_cases (h : Inv s) (hstep : s.armStep = some s') :
    ∃ signal, s.applying = some signal ∧
      (s'.applying = some signal ∨ s'.applying = none ∧ s'.info = s.info ∧ Carries signal s.info) := by
  have hat := h.arm
  unfold ArmAt at hat
  unfold SymbolLink.armStep at hstep
  unfold applying
  split at hstep
  · cases hstep
  · rename_i signal _ _
    cases hstep
    exact ⟨signal, rfl, .inl rfl⟩
  · rename_i signal _ _
    cases hstep
    exact ⟨signal, rfl, .inl rfl⟩
  · rename_i signal _ _
    cases hstep
    exact ⟨signal, rfl, .inl rfl⟩
  · rename_i signal harm
    rw [harm] at hat
    obtain ⟨-, -, -, hparse, -, -⟩ := SymbolInfo.values_eq_some hat.values
    rw [hparse] at hstep
    cases hstep
    exact ⟨signal, rfl, .inr ⟨rfl, rfl, hat⟩⟩

theorem held_armStep (h : Inv s) (hstep : s.armStep = some s') {api : SymbolInfo} (hapi : api ∈ s'.held) :
    api ∈ s.held := by
  obtain ⟨hpoller, hchannel⟩ := armStep_keeps hstep
  obtain ⟨signal, happlying, hgoes⟩ := h.armStep_cases hstep
  unfold held comparing sent at hapi ⊢
  rw [hpoller, hchannel] at hapi
  rcases hgoes with hsame | ⟨hnone, -⟩
  · rwa [hsame, ← happlying] at hapi
  · rw [hnone] at hapi
    simp only [List.map_append, List.mem_append, Option.toList_none, List.map_nil, List.not_mem_nil,
      or_false] at hapi ⊢
    tauto

/-- What is held was held before or has just been answered. -/
theorem held_step (h : Inv s) {e : LinkEvent} (hstep : s.step e = some s') {api : SymbolInfo}
    (hapi : api ∈ s'.held) : api ∈ s.held ∨ e = .answer (.ok api) := by
  cases e with
  | answer result =>
    cases result with
    | ok answered =>
      obtain ⟨hidle, hs'⟩ := Option.ite_none_right_eq_some.mp hstep
      cases hs'
      simp only [held, comparing, sent, applying, hidle, List.mem_append, Option.mem_toList] at hapi ⊢
      grind
    | error message =>
      obtain ⟨-, hs'⟩ := Option.ite_none_right_eq_some.mp hstep
      cases hs'
      exact .inl hapi
  | poller => exact .inl (held_pollerStep hstep hapi)
  | receive => exact .inl (held_receive hstep hapi)
  | arm => exact .inl (held_armStep h hstep hapi)

/-- A step stores at most one value, that of the arm's answer. -/
theorem info_step (h : Inv s) {e : LinkEvent} (hstep : s.step e = some s') :
    s'.info = s.info ∨ ∃ signal new, s.applying = some signal ∧ Carries signal new ∧
      (s'.info = { s.info with minOrderQty := new.minOrderQty } ∨
        s'.info = { s.info with tickSize := new.tickSize } ∨
        s'.info = { s.info with lotSize := new.lotSize }) := by
  cases e with
  | answer result =>
    obtain ⟨-, ⟨api, rfl⟩ | rfl⟩ := answer_cases hstep
    · exact .inl rfl
    · exact .inl rfl
  | poller => exact .inl (pollerStep_keeps hstep).1
  | receive =>
    obtain ⟨_, _, _, _, _, rfl⟩ := h.receive_cases hstep
    exact .inl rfl
  | arm =>
    have hat := h.arm
    unfold ArmAt at hat
    replace hstep : s.armStep = some s' := hstep
    unfold SymbolLink.armStep at hstep
    unfold applying
    split at hstep
    · cases hstep
    · rename_i signal new harm
      rw [harm] at hat
      cases hstep
      exact .inr ⟨signal, new, rfl, hat, .inl rfl⟩
    · rename_i signal new harm
      rw [harm] at hat
      cases hstep
      exact .inr ⟨signal, new, rfl, hat.1, .inr (.inl rfl)⟩
    · rename_i signal new harm
      rw [harm] at hat
      cases hstep
      exact .inr ⟨signal, new, rfl, hat.1, .inr (.inr rfl)⟩
    · split at hstep <;> cases hstep <;> exact .inl rfl

/-- Each stored value is one of `P`'s, and so are those of the answers under way. -/
structure Sourced (P : SharedSymbolInfo → Prop) (s : SymbolLink) : Prop where
  held : ∀ api ∈ s.held, ∀ v, api.values = some v → P v
  tick : ∃ v, P v ∧ s.info.tickSize = v.tickSize
  lot : ∃ v, P v ∧ s.info.lotSize = v.lotSize
  minQty : ∃ v, P v ∧ s.info.minOrderQty = v.minOrderQty

theorem Sourced.step {P : SharedSymbolInfo → Prop} (h : Sourced P s) (hinv : Inv s) {e : LinkEvent}
    (hstep : s.step e = some s') (he : ∀ api v, e = .answer (.ok api) → api.values = some v → P v) :
    Sourced P s' := by
  have hheld : ∀ api ∈ s'.held, ∀ v, api.values = some v → P v := by
    intro api hapi v hv
    rcases held_step hinv hstep hapi with hold | hnew
    · exact h.held api hold v hv
    · exact he api v hnew hv
  rcases info_step hinv hstep with hsame | ⟨signal, new, happlying, hcarries, hstored⟩
  · exact ⟨hheld, hsame ▸ h.tick, hsame ▸ h.lot, hsame ▸ h.minQty⟩
  · have hnew : P new := h.held signal.info (by simp [SymbolLink.held, happlying]) new hcarries.values
    rcases hstored with hmin | htick | hlot
    · exact ⟨hheld, hmin ▸ h.tick, hmin ▸ h.lot, new, hnew, by rw [hmin]⟩
    · exact ⟨hheld, ⟨new, hnew, by rw [htick]⟩, htick ▸ h.lot, htick ▸ h.minQty⟩
    · exact ⟨hheld, hlot ▸ h.tick, ⟨new, hnew, by rw [hlot]⟩, hlot ▸ h.minQty⟩

/-- The values of the startup's answer or of a valid one of the run. -/
def Given (api : SymbolInfo) (es : List LinkEvent) (v : SharedSymbolInfo) : Prop :=
  ∃ answer, (answer = api ∨ .answer (.ok answer) ∈ es) ∧ answer.values = some v

theorem sourced_of_exec {symbol : String} {api : SymbolInfo} {info : SharedSymbolInfo} {es : List LinkEvent}
    (hstart : api.values = some info) (h : exec SymbolLink.step (new symbol info) es = some s) :
    Inv s ∧ Sourced (Given api es) s := by
  have hgiven : Given api es info := ⟨api, .inl rfl, hstart⟩
  refine exec_invariant_of (fun s => Inv s ∧ Sourced (Given api es) s) (fun _ e => e ∈ es) ?_
    ⟨inv_new symbol (SymbolInfo.values_sound hstart), ?_⟩ (along_of_forall fun _ he => he) h
  · rintro s e s' ⟨hinv, hsourced⟩ he hstep
    refine ⟨hinv.step hstep, hsourced.step hinv hstep fun answer v heq hv => ?_⟩
    exact ⟨answer, .inr (heq ▸ he), hv⟩
  · exact ⟨by simp [held, comparing, sent, applying, new], ⟨info, hgiven, rfl⟩, ⟨info, hgiven, rfl⟩,
      info, hgiven, rfl⟩

/-- **The sizes agree.**  Over every interleaving no `expect` of the arm fails; the shared sizes are
    admissible, and each of the three is that of a valid answer, also between two stores; and outside of the arm
    the order manager has the same. -/
theorem sizes_agree (symbol : String) (api : SymbolInfo) (info : SharedSymbolInfo) (es : List LinkEvent)
    (s : SymbolLink) (hstart : SharedSymbolInfo.fromApiResponse api = some info)
    (h : exec SymbolLink.step (new symbol info) es = some s) :
    s.panicked = false ∧ s.info.Sound ∧
      (∃ tick lot minQty, Given api es tick ∧ Given api es lot ∧ Given api es minQty ∧
        s.info = ⟨tick.tickSize, lot.lotSize, minQty.minOrderQty⟩) ∧
      (s.arm = .outside → s.config = s.info) := by
  rw [SharedSymbolInfo.fromApiResponse_eq] at hstart
  obtain ⟨hinv, hsourced⟩ := sourced_of_exec hstart h
  obtain ⟨tick, htick, htickSize⟩ := hsourced.tick
  obtain ⟨lot, hlot, hlotSize⟩ := hsourced.lot
  obtain ⟨minQty, hminQty, hminOrderQty⟩ := hsourced.minQty
  refine ⟨hinv.runs, hinv.info, ⟨tick, lot, minQty, htick, hlot, hminQty, ?_⟩, fun houtside => ?_⟩
  · rw [← htickSize, ← hlotSize, ← hminOrderQty]
  · have hat := hinv.arm
    unfold ArmAt at hat
    rwa [houtside] at hat

/-- Two decimals and three, and then one and two. -/
def coarser : List LinkEvent :=
  [.answer (.ok ⟨"BTC-USD", 1, 2, "0.01"⟩), .poller, .poller, .poller, .poller, .receive, .arm, .arm,
    .answer (.error "timeout"), .answer (.ok ⟨"BTC-USD", 12, 2, "0.01"⟩), .poller, .arm, .poller, .poller, .arm]

theorem sizes_agree_coarser :
    ∃ s, exec SymbolLink.step (new "BTC-USD" ⟨1 / 100, 1 / 1000, 1 / 1000⟩) coarser = some s ∧ s.panicked = false ∧
      s.info.Sound ∧
      (∃ tick lot minQty, Given ⟨"BTC-USD", 2, 3, "0.001"⟩ coarser tick ∧
        Given ⟨"BTC-USD", 2, 3, "0.001"⟩ coarser lot ∧ Given ⟨"BTC-USD", 2, 3, "0.001"⟩ coarser minQty ∧
        s.info = ⟨tick.tickSize, lot.lotSize, minQty.minOrderQty⟩) ∧
      (s.arm = .outside → s.config = s.info) := by
  have hruns : (exec SymbolLink.step (new "BTC-USD" ⟨1 / 100, 1 / 1000, 1 / 1000⟩) coarser).isSome = true := by
    decide +kernel
  obtain ⟨s, hs⟩ := Option.isSome_iff_exists.mp hruns
  exact ⟨s, hs, sizes_agree "BTC-USD" ⟨"BTC-USD", 2, 3, "0.001"⟩ _ coarser s (by decide +kernel) hs⟩

/-! ## Coming to rest -/

/-- Nothing is under way. -/
structure AtRest (s : SymbolLink) : Prop where
  poller : s.poller = .idle
  channel : s.channel = []
  arm : s.arm = .outside

/-- A signal is under way, or the values are there. -/
def Settling (v : SharedSymbolInfo) (s : SymbolLink) : Prop :=
  s.sent ++ s.channel ≠ [] ∨ s.applying ≠ none ∨ s.info = v

/-- What the poller has loaded is what it would load now, as long as nothing is under way. -/
def ReadCurrent (v : SharedSymbolInfo) (s : SymbolLink) : Prop :=
  match s.poller with
  | .tickRead _ tick => tick = s.info.tickSize ∨ Settling v s
  | .sizesRead _ tick lot => tick = s.info.tickSize ∧ lot = s.info.lotSize ∨ Settling v s
  | _ => True

/-- Everything under way says `v`. -/
structure Steady (v : SharedSymbolInfo) (s : SymbolLink) : Prop where
  inv : Inv s
  comparing : ∀ api, s.comparing = some api → api.values = some v ∨ api.values = none
  signals : ∀ signal ∈ s.sent ++ s.channel, Carries signal v
  applying : ∀ signal, s.applying = some signal → Carries signal v
  read : ReadCurrent v s

/-- The values are there, or on their way, or about to be compared. -/
def Coming (v : SharedSymbolInfo) (s : SymbolLink) : Prop :=
  (∃ api, s.comparing = some api ∧ api.values = some v) ∨ Settling v s

/-- The answer is `v`, or it is refused. -/
def Says (v : SharedSymbolInfo) : LinkEvent → Prop
  | .answer (.ok api) => api.values = some v ∨ api.values = none
  | _ => True

theorem steady_of_atRest {v : SharedSymbolInfo} (h : Inv s) (hrest : AtRest s) : Steady v s where
  inv := h
  comparing := by simp [SymbolLink.comparing, hrest.poller]
  signals := by simp [sent, hrest.poller, hrest.channel]
  applying := by simp [SymbolLink.applying, hrest.arm]
  read := by simp [ReadCurrent, hrest.poller]

variable {v : SharedSymbolInfo}

theorem readCurrent_of_settling (h : Settling v s) : ReadCurrent v s := by
  unfold ReadCurrent
  split
  · exact .inr h
  · exact .inr h
  · trivial

theorem Steady.armStep (h : Steady v s) (hstep : s.armStep = some s') : Steady v s' ∧ Settling v s' := by
  obtain ⟨hpoller, hchannel⟩ := armStep_keeps hstep
  obtain ⟨signal, happlying, hcases⟩ := h.inv.armStep_cases hstep
  have hcarries := h.applying signal happlying
  have hsettling : Settling v s' := by
    rcases hcases with hgoes | ⟨-, hinfo, hstored⟩
    · exact .inr (.inl (by rw [hgoes]; simp))
    · have heq := hstored.values.symm.trans hcarries.values
      exact .inr (.inr (hinfo.trans (Option.some.inj heq)))
  refine ⟨⟨h.inv.armStep hstep, ?_, ?_, ?_, readCurrent_of_settling hsettling⟩, hsettling⟩
  · have := h.comparing
    unfold SymbolLink.comparing at this ⊢
    rwa [hpoller]
  · have := h.signals
    unfold sent at this ⊢
    rwa [hpoller, hchannel]
  · intro x hx
    rcases hcases with hgoes | ⟨hnone, -⟩
    · rw [hgoes] at hx
      cases hx
      exact hcarries
    · rw [hnone] at hx
      cases hx

theorem Steady.receive (h : Steady v s) (hstep : s.receive = some s') : Steady v s' ∧ Settling v s' := by
  have hinv := h.inv.receive hstep
  obtain ⟨signal, rest, new, hchannel, -, rfl⟩ := h.inv.receive_cases hstep
  have hsignals := h.signals
  rw [hchannel] at hsignals
  have hsettling : Settling v { s with channel := rest, arm := .storingMinQty signal new } :=
    .inr (.inl (by simp [SymbolLink.applying]))
  refine ⟨⟨hinv, h.comparing, fun x hx => ?_, fun x hx => ?_, readCurrent_of_settling hsettling⟩, hsettling⟩
  · rcases List.mem_append.mp hx with hsent | hrest
    · exact hsignals x (List.mem_append_left _ hsent)
    · exact hsignals x (List.mem_append_right _ (List.mem_cons_of_mem _ hrest))
  · cases hx
    exact hsignals signal (by simp)

/-- The poller's step, with what it does to the signals. -/
theorem Steady.pollerStep (h : Steady v s) (hstep : s.pollerStep = some s') :
    Steady v s' ∧ (Coming v s → Coming v s') := by
  have hinv := h.inv.pollerStep hstep
  have hcomparing := h.comparing
  have hsignals := h.signals
  have hread := h.read
  have hreadSound := h.inv.read
  unfold SymbolLink.comparing at hcomparing
  unfold sent at hsignals
  unfold ReadCurrent at hread
  unfold ReadSound at hreadSound
  unfold SymbolLink.pollerStep at hstep
  split at hstep
  · cases hstep
  · rename_i api hpoller
    rw [hpoller] at hcomparing hsignals
    cases hstep
    refine ⟨⟨hinv, hcomparing, hsignals, h.applying, .inl rfl⟩, ?_⟩
    unfold Coming Settling SymbolLink.comparing sent
    rw [hpoller]
    exact id
  · rename_i api tick hpoller
    rw [hpoller] at hcomparing hsignals hread
    cases hstep
    have hsame : Settling v s → Settling v { s with poller := .sizesRead api tick s.info.lotSize } := by
      unfold Settling sent
      rw [hpoller]
      exact id
    refine ⟨⟨hinv, hcomparing, hsignals, h.applying, ?_⟩, ?_⟩
    · exact hread.imp (fun htick => ⟨htick, rfl⟩) hsame
    · unfold Coming SymbolLink.comparing
      rw [hpoller]
      exact Or.imp_right hsame
  · rename_i api tick lot hpoller
    rw [hpoller] at hcomparing hsignals hread hreadSound
    cases hstep
    have hold : SharedSymbolInfo.Sound ⟨tick, lot, s.info.minOrderQty⟩ :=
      ⟨hreadSound.1, hreadSound.2, h.inv.info.minQty⟩
    rcases compare_cases s.symbol hold api with ⟨w, signal, hsending, hcarries, rfl, -⟩ | ⟨hidle, hunchanged⟩
    · have hw : Carries signal v := by
        rcases hcomparing _ rfl with hv | hnone
        · cases hv.symm.trans hcarries.values
          exact hcarries
        · cases hnone.symm.trans hcarries.values
      rw [hsending]
      refine ⟨⟨hsending ▸ hinv, by simp [SymbolLink.comparing], ?_, h.applying, trivial⟩,
        fun _ => .inr (.inl (by simp [sent]))⟩
      intro x hx
      rcases List.mem_append.mp hx with hnew | hold
      · rw [List.mem_singleton.mp hnew]
        exact hw
      · exact hsignals x (List.mem_append_right _ hold)
    · rw [hidle]
      refine ⟨⟨hidle ▸ hinv, by simp [SymbolLink.comparing], hsignals, h.applying, trivial⟩, fun hcoming => .inr ?_⟩
      have hsame : Settling v s → Settling v { s with poller := .idle } := by
        unfold Settling sent
        rw [hpoller]
        exact id
      rcases hcoming with ⟨api', hcompares, hvalues⟩ | hsettling
      · unfold SymbolLink.comparing at hcompares
        rw [hpoller] at hcompares
        cases hcompares
        rcases hread with ⟨rfl, rfl⟩ | hsettling
        · exact .inr (.inr (hunchanged v hvalues).symm)
        · exact hsame hsettling
      · exact hsame hsettling
  · rename_i signal hpoller
    rw [hpoller] at hsignals
    cases hstep
    refine ⟨⟨hinv, by simp [SymbolLink.comparing], fun x hx => hsignals x ?_, h.applying, trivial⟩,
      fun _ => .inr (.inl (by simp [sent]))⟩
    have hx : x ∈ s.channel ++ [signal] := hx
    simpa [or_comm] using hx

/-- **One event**, the poller's answers all saying `v`. -/
theorem Steady.step (h : Steady v s) {e : LinkEvent} (he : Says v e) (hstep : s.step e = some s') :
    Steady v s' ∧ (Coming v s → Coming v s') := by
  cases e with
  | answer result =>
    obtain ⟨hidle, hcases⟩ := answer_cases hstep
    have hsignals := h.signals
    unfold sent at hsignals
    rw [hidle] at hsignals
    cases result with
    | ok api =>
      obtain ⟨-, hs'⟩ := Option.ite_none_right_eq_some.mp hstep
      cases hs'
      refine ⟨⟨h.inv.step hstep, ?_, hsignals, h.applying, trivial⟩, ?_⟩
      · rintro api' hcompares
        cases hcompares
        exact he
      · unfold Coming Settling SymbolLink.comparing sent
        rw [hidle]
        rintro (⟨api', hnone, -⟩ | hsettling)
        · cases hnone
        · exact .inr hsettling
    | error message =>
      obtain ⟨-, hs'⟩ := Option.ite_none_right_eq_some.mp hstep
      cases hs'
      exact ⟨h, id⟩
  | poller => exact h.pollerStep hstep
  | receive => exact (h.receive hstep).imp_right fun hsettling _ => .inr hsettling
  | arm => exact (h.armStep hstep).imp_right fun hsettling _ => .inr hsettling

/-- **The link settles.**  If the link was at rest, and from then on the API gave one valid answer, at least
    once, or answers that are refused, or none, then whenever the link is at rest again the shared info and
    the order manager have the values of that answer. -/
theorem settles (symbol : String) (api : SymbolInfo) (info : SharedSymbolInfo) (es during after : List LinkEvent)
    (answer : SymbolInfo) (v : SharedSymbolInfo) (t s : SymbolLink)
    (hstart : SharedSymbolInfo.fromApiResponse api = some info)
    (ht : exec SymbolLink.step (new symbol info) es = some t) (hrest : AtRest t)
    (hs : exec SymbolLink.step t (during ++ .answer (.ok answer) :: after) = some s)
    (hanswer : answer.values = some v) (hduring : ∀ e ∈ during, Says v e) (hafter : ∀ e ∈ after, Says v e)
    (hagain : AtRest s) : s.info = v ∧ s.config = v := by
  rw [SharedSymbolInfo.fromApiResponse_eq] at hstart
  have hinv := exec_invariant Inv (fun _ _ _ hinv hstep => hinv.step hstep)
    (inv_new symbol (SymbolInfo.values_sound hstart)) ht
  obtain ⟨u, hu, hrun⟩ := exec_append_some hs
  obtain ⟨u', hu', hrun⟩ := exec_cons_some hrun
  -- up to the answer nothing but `v` is under way
  have hsteady : Steady v u := exec_invariant_of (Steady v) (fun _ e => Says v e)
    (fun _ _ _ hsteady he hstep => (hsteady.step he hstep).1) (steady_of_atRest hinv hrest)
    (along_of_forall hduring) hu
  have hsteady' := (hsteady.step (e := .answer (.ok answer)) (.inl hanswer) hu').1
  have hcoming : Coming v u' := by
    obtain ⟨-, hs'⟩ := Option.ite_none_right_eq_some.mp hu'
    cases hs'
    exact .inl ⟨answer, rfl, hanswer⟩
  -- from the answer on `v` is on its way or there
  obtain ⟨hfinal, hcomes⟩ := exec_invariant_of (fun x => Steady v x ∧ Coming v x) (fun _ e => Says v e)
    (fun _ _ _ hx he hstep => (hx.1.step he hstep).imp_right fun hkeeps => hkeeps hx.2) ⟨hsteady', hcoming⟩
    (along_of_forall hafter) hrun
  have hinfo : s.info = v := by
    rcases hcomes with ⟨api', hcompares, -⟩ | hsignals | happlying | hthere
    · unfold SymbolLink.comparing at hcompares
      rw [hagain.poller] at hcompares
      cases hcompares
    · unfold sent at hsignals
      rw [hagain.poller, hagain.channel] at hsignals
      exact absurd rfl hsignals
    · unfold SymbolLink.applying at happlying
      rw [hagain.arm] at happlying
      exact absurd rfl happlying
    · exact hthere
  have hat := hfinal.inv.arm
  unfold ArmAt at hat
  rw [hagain.arm] at hat
  exact ⟨hinfo, hat.trans hinfo⟩

/-- The answer comes while the poller is idle again and the arm is at the last signal. -/
theorem settles_coarser :
    ∃ s, exec SymbolLink.step (new "BTC-USD" ⟨1 / 100, 1 / 1000, 1 / 1000⟩) coarser = some s ∧
      s.info = ⟨1 / 10, 1 / 100, 1 / 100⟩ ∧ s.config = ⟨1 / 10, 1 / 100, 1 / 100⟩ := by
  have hruns : (exec SymbolLink.step (new "BTC-USD" ⟨1 / 100, 1 / 1000, 1 / 1000⟩) coarser).any (fun s =>
      decide (s.poller = .idle ∧ s.channel = [] ∧ s.arm = .outside)) = true := by
    decide +kernel
  obtain ⟨s, hs, hatRest⟩ := (Option.any_eq_true _ _).mp hruns
  obtain ⟨hpoller, hchannel, harm⟩ := of_decide_eq_true hatRest
  refine ⟨s, hs, settles "BTC-USD" ⟨"BTC-USD", 2, 3, "0.001"⟩ ⟨1 / 100, 1 / 1000, 1 / 1000⟩ [] [] coarser.tail
    ⟨"BTC-USD", 1, 2, "0.01"⟩ _ _ s (by decide +kernel) rfl ⟨rfl, rfl, rfl⟩ hs (by decide +kernel) (by simp) ?_
    ⟨hpoller, hchannel, harm⟩⟩
  intro e he
  simp only [coarser, List.tail_cons, List.mem_cons, List.not_mem_nil, or_false] at he
  rcases he with rfl | rfl | rfl | rfl | rfl | rfl | rfl | rfl | rfl | rfl | rfl | rfl | rfl | rfl
  all_goals first | trivial | exact .inr (by decide +kernel)

end SymbolLink

end MarketMaker
