import MarketMaker.Base.Text
import MarketMaker.Strategy.Levels
import MarketMaker.Strategy.QuoteGeometry
import MarketMaker.Strategy.Signal

/-!
# From a depth message to a quote

`depth_to_snapshot` of `messages.rs` on the decoded payload.  `parse` is the `f64` parser of the
`fast_float` package, `rfc3339` is `DateTime::parse_from_rfc3339(..)` of the `chrono` package with
`timestamp_nanos_opt` of what it returns.

Principal results:

* `best_of_feed` — the first stored level of a side has the best price of the whole list.
* `depthToSnapshot_isOk_iff` — which messages are accepted.
* `depth_message` — and a quote made of an accepted message crosses no level of the message.
-/

set_option autoImplicit false

namespace MarketMaker

/-! ## The message -/

/-- The longest prefix of whole characters that fits into `n` bytes. -/
def takeBytes : Nat → List Char → List Char
  | _, [] => []
  | n, c :: cs => if c.utf8Size ≤ n then c :: takeBytes (n - c.utf8Size) cs else []

/-- `Symbol::new`: longer names are cut off after 15 bytes, at a character boundary. -/
def Symbol.new (s : String) : String := .ofList (takeBytes 15 s.toList)

/-- `DepthBookData`; `time` is the raw text of its value. -/
structure DepthBookData where
  symbol : String
  asks : List (String × String)
  bids : List (String × String)
  sequence : Option Nat
  time : Option String

/-- The errors `depth_to_snapshot` can return.  `InvalidPrice` carries the text of a level's error or
    of `validate`. -/
inductive MessageError where
  | invalidPrice (e : LevelError)
  | invalidBook
  | invalidTimestamp (s : String)
  deriving DecidableEq

/-- `str::parse::<i64>`. -/
def parseI64 (s : List Char) : Option Int :=
  match Text.stripLeading ['-'] s with
  | some digits => (Text.parseDigits digits).bind fun n => if n ≤ 2 ^ 63 then some (-(n : Int)) else none
  | none =>
    (Text.parseDigits ((Text.stripLeading ['+'] s).getD s)).bind fun n =>
      if n < 2 ^ 63 then some (n : Int) else none

/-- `i64::saturating_mul`. -/
def saturatingMulI64 (a b : Int) : Int := max (-2 ^ 63) (min (2 ^ 63 - 1) (a * b))

/-- `strip_prefix('"').and_then(|s| s.strip_suffix('"'))`. -/
def unquote (raw : String) : Option String :=
  match raw.toList with
  | '"' :: rest => if rest.getLast? = some '"' then some (.ofList rest.dropLast) else none
  | _ => none

/-- `parse_timestamp`. -/
def parseTimestamp (rfc3339 : String → Option (Option Int)) (s : String) : Except MessageError Int :=
  match rfc3339 s with
  | some nanos => .ok (nanos.getD 0)
  | none =>
    if !s.endsWith "Z" && decide (s.utf8ByteSize < 64) then
      match rfc3339 (s ++ "Z") with
      | some nanos => .ok (nanos.getD 0)
      | none => .error (.invalidTimestamp s)
    else .error (.invalidTimestamp s)

/-- `parse_timestamp_raw`: milliseconds, or a quoted text. -/
def parseTimestampRaw (rfc3339 : String → Option (Option Int)) (raw : String) : Except MessageError Int :=
  match unquote raw with
  | some text => parseTimestamp rfc3339 text
  | none => .ok ((parseI64 raw.toList).elim 0 fun ms => saturatingMulI64 ms 1000000)

/-- The server's time, `0` if the message has none. -/
def DepthBookData.timestamp (rfc3339 : String → Option (Option Int)) (d : DepthBookData) :
    Except MessageError Int :=
  match d.time with
  | some raw => parseTimestampRaw rfc3339 raw
  | none => .ok 0

/-- `depth_to_snapshot`. -/
def depthToSnapshot (parse : String → Option Binary64) (rfc3339 : String → Option (Option Int))
    (depth : DepthBookData) (maxLevels : Nat) (receivedAtNs : Int) : Except MessageError ArraySnapshot :=
  match (ArraySnapshot.new (Symbol.new depth.symbol)).setLevelsFromStrings parse true depth.bids maxLevels with
  | (_, .error e) => .error (.invalidPrice e)
  | (snapshot, .ok ()) =>
    match snapshot.setLevelsFromStrings parse false depth.asks maxLevels with
    | (_, .error e) => .error (.invalidPrice e)
    | (snapshot, .ok ()) =>
      match depth.timestamp rfc3339 with
      | .error e => .error e
      | .ok timestampNs =>
        let snapshot := { snapshot with
          sequence := depth.sequence.getD 0
          timestampNs := timestampNs
          receivedAtNs := receivedAtNs }
        if snapshot.toSnapshot.validate then .ok snapshot else .error .invalidBook

/-! ## The best prices -/

section

variable {parse : String → Option Binary64} {rfc3339 : String → Option (Option Int)}

/-- A side of a message that reads as these entries: at most `MAX_LEVELS` levels, or more in one of the
    two feed directions. -/
structure Feed (parse : String → Option Binary64) (levels : List (String × String))
    (entries : List (ℚ × ℚ)) : Prop where
  reads : List.Forall₂ (Reads parse) levels entries
  direction : levels.length ≤ MAX_LEVELS ∨ Monotone (entries.map Prod.fst)

/-- No entry of the side has a better price. -/
structure IsBest (isBid : Bool) (entries : List (ℚ × ℚ)) (price : ℚ) : Prop where
  mem : ∃ entry ∈ entries, entry.1 = price
  best : ∀ entry ∈ entries, bestFirst isBid price entry.1 = true

theorem levels_other (parse : String → Option Binary64) (isBid : Bool) (levels : List (String × String))
    (maxLevels : Nat) (b : ArraySnapshot) :
    (b.setLevelsFromStrings parse isBid levels maxLevels).1.levels (!isBid) = b.levels (!isBid) := by
  obtain ⟨harray, hcount⟩ := ArraySnapshot.setLevelsFromStrings_other parse isBid levels maxLevels b
  rw [ArraySnapshot.levels, ArraySnapshot.levels, harray, hcount]

/-- **The first stored level has the best price of the whole list**, unless nothing is stored. -/
theorem best_of_feed {isBid : Bool} {levels : List (String × String)} {entries : List (ℚ × ℚ)}
    (h : Feed parse levels entries) (maxLevels : Nat) (b : ArraySnapshot) :
    ∃ b', b.setLevelsFromStrings parse isBid levels maxLevels = (b', .ok ()) ∧
      ((b'.levels isBid = [] ∧ (maxLevels = 0 ∨ levels = [])) ∨
        (0 < maxLevels ∧ levels ≠ [] ∧ ∃ p, IsBest isBid entries p ∧
          (b'.levels isBid).head?.map (·.price) = some (some p))) := by
  obtain ⟨chosen, hsource, hchosen⟩ := source_reads h.reads isBid
  have hlength := h.reads.length_eq
  have hfeed := h.direction
  rw [hlength] at hfeed
  generalize hcount : min (min levels.length MAX_LEVELS) maxLevels = count
  have hkept : ((KeySort.sortBy (rank isBid) chosen).take count).length ≤ MAX_LEVELS := by
    rw [List.length_take]
    omega
  have hprices := take_prices h.reads hchosen hfeed (k := count) (by omega)
  refine ⟨_, ArraySnapshot.setLevelsFromStrings_reads hsource maxLevels b, ?_⟩
  rw [hcount, ArraySnapshot.levels_store b isBid hkept]
  by_cases hzero : count = 0
  · refine Or.inl ⟨by rw [hzero]; rfl, ?_⟩
    have hmax : 0 < MAX_LEVELS := by decide
    rcases Nat.eq_zero_or_pos maxLevels with hnone | hsome
    · exact Or.inl hnone
    · exact Or.inr (List.length_eq_zero_iff.mp (by omega))
  · have hnonempty : levels ≠ [] := by
      rintro rfl
      exact hzero (by rw [← hcount]; simp)
    refine Or.inr ⟨by omega, hnonempty, ?_⟩
    -- the best price of the kept levels is that of the sorted list
    have hsorted : KeySort.sortBy (rank isBid) entries ≠ [] := by
      rw [← List.length_pos_iff, KeySort.length_sortBy, ← hlength, List.length_pos_iff]
      exact hnonempty
    obtain ⟨best, rest, hbest⟩ := List.exists_cons_of_ne_nil hsorted
    obtain ⟨hmem, hleast⟩ := KeySort.head_sortBy (congrArg List.head? hbest)
    refine ⟨best.1, ⟨⟨best, hmem, rfl⟩, fun entry hentry => ?_⟩, ?_⟩
    · rw [bestFirst_eq]
      exact decide_eq_true (hleast entry hentry)
    · have hhead := congrArg List.head? hprices
      rw [List.head?_map, List.head?_map, List.head?_take, List.head?_take, if_neg hzero, if_neg hzero,
        hbest] at hhead
      have hprice := congrArg (Option.map some) hhead
      rw [Option.map_map] at hprice
      rw [List.head?_map, List.head?_take, if_neg hzero, Option.map_map]
      exact hprice

variable {d : DepthBookData} {bidEntries askEntries : List (ℚ × ℚ)}

/-- What is left to decide once both sides have been read: the time, and whether the book is whole. -/
theorem depthToSnapshot_eq (hbids : Feed parse d.bids bidEntries) (hasks : Feed parse d.asks askEntries)
    (rfc3339 : String → Option (Option Int)) (maxLevels : Nat) (receivedAtNs : Int) :
    ∃ b : ArraySnapshot,
      (b.levels true = [] ∧ (maxLevels = 0 ∨ d.bids = []) ∨
        (0 < maxLevels ∧ d.bids ≠ [] ∧ ∃ p, IsBest true bidEntries p ∧
          b.toSnapshot.bestBidPrice = some (some p))) ∧
      (b.levels false = [] ∧ (maxLevels = 0 ∨ d.asks = []) ∨
        (0 < maxLevels ∧ d.asks ≠ [] ∧ ∃ p, IsBest false askEntries p ∧
          b.toSnapshot.bestAskPrice = some (some p))) ∧
      b.toSnapshot.validate =
        (!(b.levels true).isEmpty && !(b.levels false).isEmpty && b.toSnapshot.uncrossed) ∧
      depthToSnapshot parse rfc3339 d maxLevels receivedAtNs = (d.timestamp rfc3339).bind fun timestampNs =>
        if b.toSnapshot.validate then .ok { b with
          sequence := d.sequence.getD 0
          timestampNs := timestampNs
          receivedAtNs := receivedAtNs }
        else .error .invalidBook := by
  obtain ⟨b₁, hfirst, hbid⟩ := best_of_feed hbids maxLevels (.new (Symbol.new d.symbol))
  obtain ⟨b₂, hsecond, hask⟩ := best_of_feed hasks maxLevels b₁
  have hkeep : b₂.levels true = b₁.levels true := by
    have hother := levels_other parse false d.asks maxLevels b₁
    rwa [hsecond] at hother
  rw [← hkeep] at hbid
  refine ⟨b₂, hbid, hask, ArraySnapshot.validate_of_sides hfirst hsecond, ?_⟩
  unfold depthToSnapshot
  rw [hfirst]
  dsimp only
  rw [hsecond]
  dsimp only
  cases d.timestamp rfc3339 with
  | error e => rfl
  | ok timestampNs => rfl

/-- The best prices of the two sides are in order exactly if all prices are. -/
theorem IsBest.lt_iff {p q : ℚ} (hp : IsBest true bidEntries p) (hq : IsBest false askEntries q) :
    p < q ↔ ∀ x ∈ bidEntries, ∀ y ∈ askEntries, x.1 < y.1 := by
  constructor
  · intro hlt x hx y hy
    have hbid := hp.best x hx
    have hask := hq.best y hy
    simp only [bestFirst, if_true, Bool.false_eq_true, if_false, decide_eq_true_eq] at hbid hask
    exact hbid.trans_lt (hlt.trans_le hask)
  · intro hall
    obtain ⟨x, hx, rfl⟩ := hp.mem
    obtain ⟨y, hy, rfl⟩ := hq.mem
    exact hall x hx y hy

/-- What an accepted message shows. -/
structure Accepted (rfc3339 : String → Option (Option Int)) (d : DepthBookData)
    (bidEntries askEntries : List (ℚ × ℚ)) (maxLevels : Nat) (b : ArraySnapshot) : Prop where
  valid : b.toSnapshot.validate = true
  levels : 0 < maxLevels
  bids : d.bids ≠ []
  asks : d.asks ≠ []
  time : ∃ timestampNs, d.timestamp rfc3339 = .ok timestampNs
  best : ∃ p q, IsBest true bidEntries p ∧ IsBest false askEntries q ∧
    b.toSnapshot.bestBidPrice = some (some p) ∧ b.toSnapshot.bestAskPrice = some (some q)

theorem accepted_of_ok (hbids : Feed parse d.bids bidEntries) (hasks : Feed parse d.asks askEntries)
    {maxLevels : Nat} {receivedAtNs : Int} {b : ArraySnapshot}
    (h : depthToSnapshot parse rfc3339 d maxLevels receivedAtNs = .ok b) :
    Accepted rfc3339 d bidEntries askEntries maxLevels b := by
  obtain ⟨b₀, hbid, hask, _, heq⟩ :=
    depthToSnapshot_eq hbids hasks rfc3339 maxLevels receivedAtNs
  rw [heq] at h
  cases htime : d.timestamp rfc3339 with
  | error e =>
    rw [htime] at h
    cases h
  | ok timestampNs =>
    rw [htime] at h
    simp only [Except.bind] at h
    split at h
    · rename_i hvalid
      cases h
      obtain ⟨p, q, hbest, hbest', _⟩ := OrderbookSnapshot.best_of_validate hvalid
      rcases hbid with ⟨hempty, _⟩ | ⟨hlevels, hnonempty, p', hp, hbid⟩
      · simp [OrderbookSnapshot.bestBidPrice, ArraySnapshot.toSnapshot, hempty] at hbest
      · rcases hask with ⟨hempty, _⟩ | ⟨_, hnonempty', q', hq, hask⟩
        · simp [OrderbookSnapshot.bestAskPrice, ArraySnapshot.toSnapshot, hempty] at hbest'
        · exact ⟨hvalid, hlevels, hnonempty, hnonempty', ⟨timestampNs, htime⟩, p', q', hp, hq, hbid, hask⟩
    · cases h

/-- **Which messages are accepted**: those with a level on each side, no bid at or above an ask, and a
    time that can be read. -/
theorem depthToSnapshot_isOk_iff (hbids : Feed parse d.bids bidEntries)
    (hasks : Feed parse d.asks askEntries) (maxLevels : Nat) (receivedAtNs : Int) :
    (∃ b, depthToSnapshot parse rfc3339 d maxLevels receivedAtNs = .ok b) ↔
      0 < maxLevels ∧ d.bids ≠ [] ∧ d.asks ≠ [] ∧ (∀ x ∈ bidEntries, ∀ y ∈ askEntries, x.1 < y.1) ∧
        ∃ timestampNs, d.timestamp rfc3339 = .ok timestampNs := by
  constructor
  · rintro ⟨b, hb⟩
    have haccepted := accepted_of_ok hbids hasks hb
    obtain ⟨p, q, hp, hq, hbid, hask⟩ := haccepted.best
    obtain ⟨p', q', hbid', hask', _, hlt⟩ := OrderbookSnapshot.best_of_validate haccepted.valid
    cases hbid'.symm.trans hbid
    cases hask'.symm.trans hask
    exact ⟨haccepted.levels, haccepted.bids, haccepted.asks, (hp.lt_iff hq).mp hlt, haccepted.time⟩
  · rintro ⟨hlevels, hnonempty, hnonempty', huncrossed, timestampNs, htime⟩
    obtain ⟨b, hbid, hask, hvalidate, heq⟩ :=
      depthToSnapshot_eq hbids hasks rfc3339 maxLevels receivedAtNs
    rcases hbid with ⟨_, hnone⟩ | ⟨_, _, p, hp, hbid⟩
    · exact absurd hnone (not_or.mpr ⟨hlevels.ne', hnonempty⟩)
    rcases hask with ⟨_, hnone⟩ | ⟨_, _, q, hq, hask⟩
    · exact absurd hnone (not_or.mpr ⟨hlevels.ne', hnonempty'⟩)
    have hvalid : b.toSnapshot.validate = true := by
      have hbids : b.levels true ≠ [] := by
        intro hempty
        simp [OrderbookSnapshot.bestBidPrice, ArraySnapshot.toSnapshot, hempty] at hbid
      have hasks : b.levels false ≠ [] := by
        intro hempty
        simp [OrderbookSnapshot.bestAskPrice, ArraySnapshot.toSnapshot, hempty] at hask
      have hlt : p < q := (hp.lt_iff hq).mpr huncrossed
      rw [hvalidate, OrderbookSnapshot.uncrossed, hbid, hask]
      simp [hbids, hasks, hlt]
    rw [heq, htime]
    exact ⟨_, if_pos hvalid⟩

/-! ## The quote -/

/-- The prices of a level cross nothing the message shows: the bid is at or below one of its bids and
    below all of its asks, the ask at or above one of its asks and above all of its bids. -/
structure Beside (bidEntries askEntries : List (ℚ × ℚ)) (bid ask : ℚ) : Prop where
  bid_le : ∃ x ∈ bidEntries, bid ≤ x.1
  bid_lt : ∀ y ∈ askEntries, bid < y.1
  ask_ge : ∃ y ∈ askEntries, y.1 ≤ ask
  ask_gt : ∀ x ∈ bidEntries, x.1 < ask

/-- Prices outside the best ones. -/
theorem Beside.of_best {p q bid ask : ℚ} (hp : IsBest true bidEntries p) (hq : IsBest false askEntries q)
    (hlt : p < q) (hbid : bid ≤ p) (hask : q ≤ ask) : Beside bidEntries askEntries bid ask := by
  obtain ⟨x, hx, hxp⟩ := hp.mem
  obtain ⟨y, hy, hyq⟩ := hq.mem
  have hall := (hp.lt_iff hq).mp hlt
  refine ⟨⟨x, hx, by rw [hxp]; exact hbid⟩, fun y' hy' => ?_, ⟨y, hy, by rw [hyq]; exact hask⟩,
    fun x' hx' => ?_⟩
  · exact (hxp ▸ hbid).trans_lt (hall x hx y' hy')
  · exact (hall x' hx' y hy).trans_le (hyq ▸ hask)

/-- **From the message to the quote.**  A message whose sides are read in full is accepted exactly if it
    has a level on each side, shows no bid at or above an ask and has a readable time; and whatever
    the strategy has seen before, no price of a quote it makes of an accepted message crosses a level
    of the message, stored or cut off. -/
theorem depth_message (hbids : Feed parse d.bids bidEntries) (hasks : Feed parse d.asks askEntries)
    (rfc3339 : String → Option (Option Int)) (maxLevels : Nat) (receivedAtNs : Int) :
    ((∃ b, depthToSnapshot parse rfc3339 d maxLevels receivedAtNs = .ok b) ↔
      0 < maxLevels ∧ d.bids ≠ [] ∧ d.asks ≠ [] ∧ (∀ x ∈ bidEntries, ∀ y ∈ askEntries, x.1 < y.1) ∧
        ∃ timestampNs, d.timestamp rfc3339 = .ok timestampNs) ∧
    ∀ b, depthToSnapshot parse rfc3339 d maxLevels receivedAtNs = .ok b →
      ∀ (sqrt : ℚ → ℚ) (s s' : ObiStrategy) (r : Readings) (q : Quote) (minOrderQtyDollar leverage : ℚ),
        s.config.validate minOrderQtyDollar leverage = .ok () → 0 < s.tickSize r →
        s.update sqrt r b.toSnapshot = some (s', some q) →
        ∀ level : Level, level.val < q.numLevels → ∃ bid ask, q.bidPrices level = some bid ∧
          q.askPrices level = some ask ∧ Beside bidEntries askEntries bid ask := by
  refine ⟨depthToSnapshot_isOk_iff hbids hasks maxLevels receivedAtNs, ?_⟩
  intro b hb sqrt s s' r quote minOrderQtyDollar leverage hconfig htick hupdate level hlevel
  have haccepted := accepted_of_ok hbids hasks hb
  obtain ⟨p, q, hp, hq, hbid, hask⟩ := haccepted.best
  have hquotes := ObiStrategy.update_quotes hupdate
  have hstep : s.feedStep sqrt (r, b.toSnapshot) = some s' := by
    rw [ObiStrategy.feedStep, hupdate]
    rfl
  have hsame : s'.config = s.config := congrArg Prod.fst (ObiStrategy.feedStep_settings hstep)
  have hpriced : s'.config.Priced := by
    rw [hsame]
    exact StrategyConfig.priced_of_validate hconfig
  have htick' : 0 < s'.tickSize r := by
    rw [ObiStrategy.tickSize, hsame]
    exact htick
  obtain ⟨mid, hmid⟩ := OrderbookSnapshot.exists_midPrice haccepted.valid
  have hquote : s'.calculateQuote r b.toSnapshot mid = some quote := by
    have hobserved : (s'.observation b.toSnapshot).value.1 = mid := by
      rw [ObiStrategy.observation, hmid]
      rfl
    rw [← hobserved]
    exact hquotes.quote
  obtain ⟨bestBid, bestAsk, hbest⟩ := OrderbookSnapshot.quoted_of_validate haccepted.valid hmid
  cases hbest.bid_eq.symm.trans hbid
  cases hbest.ask_eq.symm.trans hask
  rcases ObiStrategy.calculateQuote_eq (r := r) hpriced hbest with ⟨_, hnone⟩ |
    ⟨_, quote', hquote', _, hprices⟩
  · cases hnone.symm.trans hquote
  · cases hquote'.symm.trans hquote
    obtain ⟨hbidPrice, haskPrice⟩ := hprices level hlevel
    have hgeometry := @ObiStrategy.quoted_geometry s' r mid htick' p q level
    exact ⟨_, _, hbidPrice, haskPrice, .of_best hp hq hbest.uncrossed hgeometry.bid_le hgeometry.ask_ge⟩

end

/-- A message of two levels a side, the bids worst first. -/
def twoSided : DepthBookData :=
  ⟨"BTC-USD", [("10001", "1"), ("10002", "1")], [("9998", "1"), ("9999", "1")], some 1, some "1700000000000"⟩

/-- The numbers of that message. -/
def parseTwoSided (s : String) : Option Binary64 :=
  [("1", Binary64.finite 1), ("9998", .finite 9998), ("9999", .finite 9999), ("10001", .finite 10001),
    ("10002", .finite 10002)].lookup s

/-- A strategy that has seen enough to quote. -/
def experienced : ObiStrategy := { ObiStrategy.twoLevels with totalSamples := 1000 }

theorem twoSided_feeds :
    Feed parseTwoSided twoSided.bids [(9998, 1), (9999, 1)] ∧
      Feed parseTwoSided twoSided.asks [(10001, 1), (10002, 1)] := by
  have hone : parseTwoSided "1" = some (.finite 1) := by decide +kernel
  have hreads : ∀ price p, parseTwoSided price = some (.finite p) → 0 < p →
      Reads parseTwoSided (price, "1") (p, 1) := fun _ _ hprice hpos => ⟨hprice, hone, hpos, one_pos⟩
  refine ⟨⟨.cons (hreads _ _ ?_ ?_) (.cons (hreads _ _ ?_ ?_) .nil), Or.inl (by decide)⟩,
    ⟨.cons (hreads _ _ ?_ ?_) (.cons (hreads _ _ ?_ ?_) .nil), Or.inl (by decide)⟩⟩
  all_goals decide +kernel

/-- It is accepted, and the quote made of it stays outside. -/
theorem depth_message_twoSided :
    ∃ b s' q, depthToSnapshot parseTwoSided (fun _ => none) twoSided 20 5 = .ok b ∧
      experienced.update id ObiStrategy.funded b.toSnapshot = some (s', some q) ∧
      ∀ level : Level, level.val < q.numLevels → ∃ bid ask, q.bidPrices level = some bid ∧
        q.askPrices level = some ask ∧ Beside [(9998, 1), (9999, 1)] [(10001, 1), (10002, 1)] bid ask := by
  have hquotes : ((depthToSnapshot parseTwoSided (fun _ => none) twoSided 20 5).toOption.bind fun b =>
      (experienced.update id ObiStrategy.funded b.toSnapshot).bind (·.2)).isSome = true := by decide +kernel
  obtain ⟨q, hq⟩ := Option.isSome_iff_exists.mp hquotes
  obtain ⟨b, hb, hupdated⟩ := Option.bind_eq_some_iff.mp hq
  obtain ⟨⟨s', _⟩, hupdate, rfl⟩ := Option.bind_eq_some_iff.mp hupdated
  have hok : depthToSnapshot parseTwoSided (fun _ => none) twoSided 20 5 = .ok b := by
    cases hresult : depthToSnapshot parseTwoSided (fun _ => none) twoSided 20 5 with
    | error e =>
      rw [hresult] at hb
      cases hb
    | ok b' =>
      rw [hresult] at hb
      cases hb
      rfl
  obtain ⟨hbids, hasks⟩ := twoSided_feeds
  exact ⟨b, s', q, hok, hupdate, (depth_message hbids hasks (fun _ => none) 20 5).2 b hok id experienced s'
    ObiStrategy.funded q 10 1 ObiStrategy.twoLevels_valid (by decide +kernel) hupdate⟩

end MarketMaker
