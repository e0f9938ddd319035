import Mathlib.Algebra.Order.BigOperators.Group.List
import Mathlib.Data.List.TakeWhile
import MarketMaker.Binance.Sync
import MarketMaker.Strategy.Levels

/-!
# The levels the Binance signal reads

`to_snapshot` of `binance/orderbook.rs` and `calculate_imbalance` of `binance/mod.rs`.  Both paths that
store levels keep the book positive as long as an applied update lists no negative quantity: a
snapshot's levels are stored if `qty > 0.0`, an update's unless `qty == 0.0`.

* `best_bestOf` — `to_snapshot` lists the best stored levels, best first.
* `imbalance_within_iff` — in a positive book the imbalance is between `-1` and `1` exactly if neither
  side's running sum of quantities overflows; `depthVolume_of_exact` compares it with the exact sum.
* `call_positive` — one call; `runs_represented` — every run.
-/

set_option autoImplicit false

namespace MarketMaker

open Word64 Runs

/-- `Symbol::new`: as many whole characters as 15 bytes hold. -/
def symbolNew (s : String) : String := String.ofList (fit 15 s.toList)
where
  fit : Nat → List Char → List Char
    | _, [] => []
    | room, c :: cs => if c.utf8Size ≤ room then c :: fit (room - c.utf8Size) cs else []

namespace BinanceOrderbook

/-- The loops of `to_snapshot`: bids from the end of the map, asks from its start. -/
def best (b : BinanceOrderbook) : Side → List (ℚ × ℚ)
  | .buy => b.bids.toList.reverse.take MAX_LEVELS
  | .sell => b.asks.toList.take MAX_LEVELS

/-- `to_snapshot`; `nowNs` is the wall clock. -/
def toSnapshot (b : BinanceOrderbook) (nowNs : Int) : OrderbookSnapshot where
  symbol := symbolNew b.symbol
  timestampNs := wrapI64 (asI64 b.lastEventTime * 1000000)
  receivedAtNs := nowNs
  sequence := b.lastUpdateId
  bids := (b.best .buy).map PriceLevel.new
  asks := (b.best .sell).map PriceLevel.new

end BinanceOrderbook

/-- `BinanceObiCalculator`, the field `calculate_imbalance` reads. -/
structure BinanceObiCalculator where
  lookingDepth : Binary64

namespace BinanceObiCalculator

/-- A stored number as an `f64`; a book holds finite ones only. -/
def value : F64 → Binary64
  | some x => .ofRat x
  | none => .nan

/-- `min_price`. -/
def minPrice (c : BinanceObiCalculator) (mid : Binary64) : Binary64 :=
  mid.mul ((Binary64.finite 1).sub c.lookingDepth)

/-- `max_price`. -/
def maxPrice (c : BinanceObiCalculator) (mid : Binary64) : Binary64 :=
  mid.mul ((Binary64.finite 1).add c.lookingDepth)

/-- The loop over a side's levels; it stops at the first outside the depth. -/
def volumeWithin (inside : Binary64 → Bool) (volume : Binary64) : List PriceLevel → Binary64
  | [] => volume
  | level :: levels =>
    if inside (value level.price) then volumeWithin inside (volume.add (value level.quantity)) levels
    else volume

/-- `calculate_imbalance`. -/
def calculateImbalance (c : BinanceObiCalculator) (snapshot : OrderbookSnapshot) (mid : Binary64) :
    Binary64 :=
  let bidVolume := volumeWithin (fun price => (c.minPrice mid).le price) (.finite 0) snapshot.bids
  let askVolume := volumeWithin (fun price => price.le (c.maxPrice mid)) (.finite 0) snapshot.asks
  let total := bidVolume.add askVolume
  if Binary64.lt (.finite 0) total then (bidVolume.sub askVolume).div total else .finite 0

/-- Within the depth on that side. -/
def inside (c : BinanceObiCalculator) (mid : Binary64) : Side → ℚ → Bool
  | .buy, price => (c.minPrice mid).le (.ofRat price)
  | .sell, price => (Binary64.ofRat price).le (c.maxPrice mid)

/-- A side's listed quantities within the depth. -/
def depthQuantities (c : BinanceObiCalculator) (mid : Binary64) (b : BinanceOrderbook) (side : Side) : List ℚ :=
  ((b.best side).takeWhile fun level => c.inside mid side level.1).map Prod.snd

/-- Their sum, best first and rounded after every addition. -/
def depthVolume (c : BinanceObiCalculator) (mid : Binary64) (b : BinanceOrderbook) (side : Side) : ℚ :=
  Binary64.runningSum 0 (c.depthQuantities mid b side)

/-- Their exact sum. -/
def exactVolume (c : BinanceObiCalculator) (mid : Binary64) (b : BinanceOrderbook) (side : Side) : ℚ :=
  (c.depthQuantities mid b side).sum

end BinanceObiCalculator

namespace BinanceOrderbook

/-- Every stored quantity is positive. -/
def Positive (m : Levels) : Prop := ∀ p q : ℚ, m[p]? = some q → 0 < q

/-- `levels` are the best `MAX_LEVELS` stored levels, strictly best first. -/
structure BestOf (isBid : Bool) (m : Levels) (levels : List (ℚ × ℚ)) : Prop where
  stored : ∀ level ∈ levels, m[level.1]? = some level.2
  length_eq : levels.length = min m.size MAX_LEVELS
  sorted : levels.Pairwise fun l l' => rank isBid l < rank isBid l'
  rest : ∀ p q : ℚ, m[p]? = some q →
    (p, q) ∈ levels ∨ ∀ level ∈ levels, rank isBid level < rank isBid (p, q)

/-! ## The listing -/

/-- The first entries of the whole map in its order are the best of it. -/
theorem bestOf_take {isBid : Bool} {m : Levels} {all : List (ℚ × ℚ)}
    (hmem : ∀ p q, (p, q) ∈ all ↔ m[p]? = some q) (hlength : all.length = m.size)
    (hsorted : all.Pairwise fun l l' => rank isBid l < rank isBid l') :
    BestOf isBid m (all.take MAX_LEVELS) := by
  refine ⟨fun level h => (hmem _ _).mp (List.mem_of_mem_take h), ?_,
    hsorted.sublist (List.take_sublist _ _), ?_⟩
  · rw [List.length_take, hlength, Nat.min_comm]
  · intro p q hstored
    have hall := (hmem p q).mpr hstored
    rw [← List.take_append_drop MAX_LEVELS all] at hall hsorted
    rcases List.mem_append.mp hall with hfirst | hlater
    · exact .inl hfirst
    · exact .inr fun level hlevel => (List.pairwise_append.mp hsorted).2.2 level hlevel _ hlater

theorem toList_sorted (m : Levels) : m.toList.Pairwise fun l l' => l.1 < l'.1 :=
  Std.ExtTreeMap.ordered_keys_toList.imp fun h => compare_lt_iff_lt.mp h

/-- **`to_snapshot` lists the best stored levels of either side.** -/
theorem best_bestOf (b : BinanceOrderbook) :
    BestOf true b.bids (b.best .buy) ∧ BestOf false b.asks (b.best .sell) := by
  have hmem : ∀ (m : Levels) (p q : ℚ), (p, q) ∈ m.toList ↔ m[p]? = some q :=
    fun m p q => Std.ExtTreeMap.mem_toList_iff_getElem?_eq_some
  constructor
  · refine bestOf_take (fun p q => List.mem_reverse.trans (hmem b.bids p q)) ?_ ?_
    · rw [List.length_reverse, Std.ExtTreeMap.length_toList]
    · exact List.pairwise_reverse.mpr ((toList_sorted b.bids).imp fun h => neg_lt_neg h)
  · exact bestOf_take (hmem b.asks) Std.ExtTreeMap.length_toList (toList_sorted b.asks)

/-! ## The imbalance -/

theorem volumeWithin_eq (isInside : Binary64 → Bool) (levels : List (ℚ × ℚ)) (volume : Binary64) :
    BinanceObiCalculator.volumeWithin isInside volume (levels.map PriceLevel.new) =
      (((levels.takeWhile fun level => isInside (.ofRat level.1)).map Prod.snd).map Binary64.ofRat).foldl
        Binary64.add volume := by
  induction levels generalizing volume with
  | nil => rfl
  | cons level levels ih =>
    rw [List.map_cons, BinanceObiCalculator.volumeWithin, List.takeWhile_cons]
    have hprice : BinanceObiCalculator.value (PriceLevel.new level).price = .ofRat level.1 := rfl
    rw [hprice]
    split
    · exact ih _
    · rfl

theorem listed_nonneg {isBid : Bool} {m : Levels} {levels : List (ℚ × ℚ)} (hbest : BestOf isBid m levels)
    (hpos : Positive m) {p : ℚ × ℚ → Bool} : ∀ q ∈ (levels.takeWhile p).map Prod.snd, 0 ≤ q := by
  intro q hq
  obtain ⟨level, hmem, rfl⟩ := List.mem_map.mp hq
  exact (hpos _ _ (hbest.stored level ((List.takeWhile_subset p) hmem))).le

theorem depthQuantities_nonneg {b : BinanceOrderbook} (hbids : Positive b.bids) (hasks : Positive b.asks)
    (c : BinanceObiCalculator) (mid : Binary64) (side : Side) : ∀ q ∈ c.depthQuantities mid b side, 0 ≤ q := by
  cases side with
  | buy => exact listed_nonneg b.best_bestOf.1 hbids
  | sell => exact listed_nonneg b.best_bestOf.2 hasks

theorem depthQuantities_length (c : BinanceObiCalculator) (mid : Binary64) (b : BinanceOrderbook)
    (side : Side) :
    (c.depthQuantities mid b side).length ≤ MAX_LEVELS := by
  have hbest : (b.best side).length ≤ MAX_LEVELS := by
    cases side <;> exact List.length_take_le _ _
  rw [BinanceObiCalculator.depthQuantities, List.length_map]
  exact (List.takeWhile_sublist _).length_le.trans hbest

/-- **In a positive book the imbalance is in range exactly if neither side's running sum overflows.** -/
theorem imbalance_within_iff {b : BinanceOrderbook} (hbids : Positive b.bids) (hasks : Positive b.asks)
    (c : BinanceObiCalculator) (mid : Binary64) (nowNs : Int) :
    (c.calculateImbalance (b.toSnapshot nowNs) mid).within = true ↔
      ∀ side, c.depthVolume mid b side < Binary64.overflow := by
  have hzero : Binary64.finite 0 = Binary64.bounded 0 := (if_pos Binary64.overflow_pos).symm
  have hnonneg := depthQuantities_nonneg hbids hasks c mid
  have hvolume : ∀ side, ((c.depthQuantities mid b side).map Binary64.ofRat).foldl Binary64.add (.finite 0) =
      Binary64.bounded (c.depthVolume mid b side) := by
    intro side
    rw [hzero, Binary64.foldl_add_eq_bounded (hnonneg side) le_rfl]
    rfl
  have himbalance : c.calculateImbalance (b.toSnapshot nowNs) mid =
      (Binary64.bounded (c.depthVolume mid b .buy)).ratio (Binary64.bounded (c.depthVolume mid b .sell)) := by
    rw [← hvolume .buy, ← hvolume .sell]
    unfold BinanceObiCalculator.calculateImbalance
    dsimp only [toSnapshot]
    rw [volumeWithin_eq, volumeWithin_eq]
    rfl
  have hsum : ∀ side, 0 ≤ c.depthVolume mid b side := fun side =>
    Binary64.runningSum_nonneg (hnonneg side) le_rfl
  rw [himbalance, Binary64.ratio_within_iff (hsum .buy) (hsum .sell)]
  constructor
  · rintro ⟨hbuy, hsell⟩ side
    cases side with
    | buy => exact hbuy
    | sell => exact hsell
  · exact fun h => ⟨h .buy, h .sell⟩

/-- What a side's rounding can amount to: twice half the last unit of the range for every level. -/
theorem depthQuantities_margin (c : BinanceObiCalculator) (mid : Binary64) (b : BinanceOrderbook)
    (side : Side) :
    2 * ((c.depthQuantities mid b side).length : ℚ) * Binary64.slack ≤ 100 * Binary64.slack := by
  have hlength : ((c.depthQuantities mid b side).length : ℚ) ≤ 50 := by
    exact_mod_cast depthQuantities_length c mid b side
  exact mul_le_mul_of_nonneg_right (by linarith) Binary64.slack_pos.le

/-- **By the exact sums**: in range if both are well below the end of the range, and out of it if one is
well beyond. -/
theorem depthVolume_of_exact {b : BinanceOrderbook} (hbids : Positive b.bids) (hasks : Positive b.asks)
    (c : BinanceObiCalculator) (mid : Binary64) (side : Side) :
    (c.exactVolume mid b side + 100 * Binary64.slack < Binary64.overflow →
      c.depthVolume mid b side < Binary64.overflow) ∧
    (c.depthVolume mid b side < Binary64.overflow →
      c.exactVolume mid b side < Binary64.overflow + 100 * Binary64.slack) := by
  have hnonneg := depthQuantities_nonneg hbids hasks c mid side
  have hmargin := depthQuantities_margin c mid b side
  constructor
  · intro h
    refine Binary64.runningSum_lt hnonneg le_rfl ?_
    rw [zero_add]
    exact lt_of_le_of_lt (add_le_add_right hmargin _) h
  · intro h
    have hnear := (abs_le.mp (Binary64.abs_runningSum_sub_le hnonneg le_rfl h)).1
    rw [zero_add] at hnear
    have hexact : c.exactVolume mid b side = (c.depthQuantities mid b side).sum := rfl
    have hrounded : c.depthVolume mid b side = Binary64.runningSum 0 (c.depthQuantities mid b side) := rfl
    linarith

/-- Two quantities that are finite and whose sum is not. -/
example :
    let snapshot : BinanceDepthSnapshot := ⟨1, [("100", "1e308"), ("99", "1e308")], []⟩
    let b := ((new "BTCUSDT").initFromSnapshot Text.parseF64 snapshot).1
    BinanceObiCalculator.calculateImbalance ⟨.finite (1 / 40)⟩ (b.toSnapshot 0) (.finite 100) = .nan := by
  decide +kernel

/-! ## The calls -/

/-- The levels of one side that are stored: those before the first that does not parse. -/
def readLevels (parse : String → Option F64) : List (String × String) → List (ℚ × ℚ)
  | [] => []
  | level :: rest =>
    match parseLevel parse level with
    | .error _ => []
    | .ok entry => entry :: readLevels parse rest

theorem forLevels_fst (parse : String → Option F64) (store : Levels → ℚ × ℚ → Levels) (m : Levels)
    (levels : List (String × String)) :
    (forLevels parse store m levels).1 = (readLevels parse levels).foldl store m := by
  induction levels generalizing m with
  | nil => rfl
  | cons level rest ih =>
    unfold forLevels readLevels
    cases parseLevel parse level with
    | error e => rfl
    | ok entry => exact ih _

/-- A loop that ends well has read every level. -/
theorem readLevels_length (parse : String → Option F64) (store : Levels → ℚ × ℚ → Levels) (m : Levels)
    (levels : List (String × String)) (h : (forLevels parse store m levels).2 = .ok ()) :
    (readLevels parse levels).length = levels.length := by
  induction levels generalizing m with
  | nil => rfl
  | cons level rest ih =>
    unfold forLevels at h
    unfold readLevels
    cases hparse : parseLevel parse level with
    | error e =>
      rw [hparse] at h
      cases h
    | ok entry =>
      rw [hparse] at h
      dsimp only
      rw [List.length_cons, List.length_cons, ih _ h]

theorem storeDelta_positive {m : Levels} {entry : ℚ × ℚ} (hm : Positive m) (hentry : 0 ≤ entry.2) :
    Positive (storeDelta m entry) := by
  intro p q h
  have hwrite := congrFun (getElem?_storeDelta m entry) p
  rw [hwrite, Function.update_apply] at h
  split at h
  · unfold toWrite at h
    split at h
    · cases h
    · rename_i hne
      cases h
      exact lt_of_le_of_ne hentry (Ne.symm hne)
  · exact hm p q h

theorem storeSnapshot_positive {m : Levels} (hm : Positive m) (entry : ℚ × ℚ) :
    Positive (storeSnapshot m entry) := by
  unfold storeSnapshot
  split
  · rename_i hpos
    have : storeDelta m entry = m.insert entry.1 entry.2 := if_neg hpos.ne'
    exact this ▸ storeDelta_positive hm hpos.le
  · exact hm

/-- Both loops keep a book positive if each level that is read may be stored. -/
theorem storeLevels_positive (parse : String → Option F64) {store : Levels → ℚ × ℚ → Levels}
    (ok : ℚ × ℚ → Prop) (hstore : ∀ m entry, Positive m → ok entry → Positive (store m entry))
    (b : BinanceOrderbook) (hbids : Positive b.bids) (hasks : Positive b.asks)
    {bids asks : List (String × String)} (hreadBids : ∀ entry ∈ readLevels parse bids, ok entry)
    (hreadAsks : (readLevels parse bids).length = bids.length →
      ∀ entry ∈ readLevels parse asks, ok entry) :
    Positive (b.storeLevels parse store bids asks).1.bids ∧
      Positive (b.storeLevels parse store bids asks).1.asks := by
  have hfold : ∀ (entries : List (ℚ × ℚ)) (m : Levels), Positive m → (∀ entry ∈ entries, ok entry) →
      Positive (entries.foldl store m) := by
    intro entries
    induction entries with
    | nil => exact fun m hm _ => hm
    | cons entry entries ih =>
      intro m hm hok
      exact ih _ (hstore m entry hm (hok entry List.mem_cons_self))
        fun e he => hok e (List.mem_cons_of_mem entry he)
  have hfirst := forLevels_fst parse store b.bids bids
  have hsecond := forLevels_fst parse store b.asks asks
  have hlength := readLevels_length parse store b.bids bids
  unfold storeLevels
  cases hforBids : forLevels parse store b.bids bids with
  | mk m r =>
    rw [hforBids] at hfirst hlength
    have hm : Positive m := by
      rw [show m = _ from hfirst]
      exact hfold _ _ hbids hreadBids
    cases r with
    | error e => exact ⟨hm, hasks⟩
    | ok u =>
      cases hforAsks : forLevels parse store b.asks asks with
      | mk m' r' =>
        rw [hforAsks] at hsecond
        refine ⟨hm, ?_⟩
        show Positive m'
        rw [show m' = _ from hsecond]
        exact hfold _ _ hasks (hreadAsks (hlength rfl))

/-- The update passes the checks, and its levels are stored. -/
def accepts (b : BinanceOrderbook) (update : BinanceDepthUpdate) : Bool :=
  !decide (update.finalUpdateId < b.snapshotUpdateId) &&
    if b.isSynced then (b.continuity update).isNone else b.syncOk update

/-- An update that does not pass leaves the book as it is. -/
theorem applyUpdate_of_not_accepts {parse : String → Option F64} {b : BinanceOrderbook}
    {update : BinanceDepthUpdate} (h : b.accepts update = false) :
    (b.applyUpdate parse update).1 = b := by
  unfold accepts at h
  unfold applyUpdate
  by_cases hstale : update.finalUpdateId < b.snapshotUpdateId
  · rw [if_pos hstale]
  · rw [if_neg hstale]
    rw [decide_eq_false hstale, Bool.not_false, Bool.true_and] at h
    cases hsynced : b.isSynced with
    | true =>
      rw [hsynced, if_pos rfl] at h
      cases hcontinuity : b.continuity update with
      | none =>
        rw [hcontinuity] at h
        cases h
      | some e => rfl
    | false =>
      rw [hsynced, if_neg Bool.false_ne_true] at h
      rw [if_neg Bool.false_ne_true, h, if_neg Bool.false_ne_true]
      split <;> split <;> rfl

/-- One that passes is stored on both sides. -/
theorem applyUpdate_of_accepts {parse : String → Option F64} {b : BinanceOrderbook}
    {update : BinanceDepthUpdate} (h : b.accepts update = true) :
    b.applyUpdate parse update = { b with isSynced := true }.applyDeltas parse update := by
  unfold accepts at h
  rw [Bool.and_eq_true, Bool.not_eq_true', decide_eq_false_iff_not] at h
  unfold applyUpdate
  rw [if_neg h.1]
  have hchecks := h.2
  cases hsynced : b.isSynced with
  | true =>
    rw [hsynced, if_pos rfl] at hchecks
    rw [if_pos rfl, Option.isNone_iff_eq_none.mp hchecks]
    have : b = { b with isSynced := true } := by rw [← hsynced]
    exact congrArg (fun b => b.applyDeltas parse update) this
  | false =>
    rw [hsynced, if_neg Bool.false_ne_true] at hchecks
    rw [if_neg Bool.false_ne_true, if_pos hchecks]

/-- The two calls that write the book. -/
inductive Call where
  | initFromSnapshot (snapshot : BinanceDepthSnapshot)
  | applyUpdate (update : BinanceDepthUpdate)

/-- The book after a call, whatever the call returns. -/
def call (parse : String → Option F64) (b : BinanceOrderbook) : Call → Option BinanceOrderbook
  | .initFromSnapshot snapshot => some (b.initFromSnapshot parse snapshot).1
  | .applyUpdate update => some (b.applyUpdate parse update).1

/-- No level that the call stores by an update has a negative quantity. -/
def NoNegative (parse : String → Option F64) (b : BinanceOrderbook) : Call → Prop
  | .initFromSnapshot _ => True
  | .applyUpdate update => b.accepts update = true →
      (∀ entry ∈ readLevels parse update.bids, 0 ≤ entry.2) ∧
      ((readLevels parse update.bids).length = update.bids.length →
        ∀ entry ∈ readLevels parse update.asks, 0 ≤ entry.2)

/-- **One call.**  A snapshot always leaves a positive book, an update a positive one positive. -/
theorem call_positive {parse : String → Option F64} {b b' : BinanceOrderbook} {e : Call}
    (hb : Positive b.bids ∧ Positive b.asks) (he : b.NoNegative parse e) (h : b.call parse e = some b') :
    Positive b'.bids ∧ Positive b'.asks := by
  have hempty : Positive (∅ : Levels) := by
    intro p q hq
    rw [Std.ExtTreeMap.getElem?_empty] at hq
    cases hq
  cases e with
  | initFromSnapshot snapshot =>
    cases h
    have hstored := storeLevels_positive parse (fun _ => True)
      (fun m entry hm _ => storeSnapshot_positive hm entry) { b with bids := ∅, asks := ∅ } hempty hempty
      (fun entry (_ : entry ∈ readLevels parse snapshot.bids) => trivial)
      fun _ entry (_ : entry ∈ readLevels parse snapshot.asks) => trivial
    unfold initFromSnapshot
    split <;> (rename_i hstore; rwa [hstore] at hstored)
  | applyUpdate update =>
    cases h
    cases haccepts : b.accepts update with
    | false =>
      rw [applyUpdate_of_not_accepts haccepts]
      exact hb
    | true =>
      rw [applyUpdate_of_accepts haccepts]
      have hstored := storeLevels_positive parse (fun entry => 0 ≤ entry.2)
        (fun m entry hm hentry => storeDelta_positive hm hentry) { b with isSynced := true } hb.1 hb.2
        (he haccepts).1 (he haccepts).2
      unfold applyDeltas
      split <;> (rename_i hstore; rwa [hstore] at hstored)

/-- What is said of the book after a call: the imbalance is in range exactly if on either side the sum
of the listed quantities within the depth, rounded after every addition, stays in the range, as it
does if the exact sum is below by `100 * 2 ^ 970` and only if it is not beyond by as much. -/
structure Represented (b : BinanceOrderbook) : Prop where
  positive : ∀ side, Positive (b.side side)
  bids : ∃ levels, (∀ nowNs, (b.toSnapshot nowNs).bids = levels.map PriceLevel.new) ∧
    BestOf true b.bids levels
  asks : ∃ levels, (∀ nowNs, (b.toSnapshot nowNs).asks = levels.map PriceLevel.new) ∧
    BestOf false b.asks levels
  imbalance : ∀ (c : BinanceObiCalculator) (mid : Binary64) (nowNs : Int),
    (c.calculateImbalance (b.toSnapshot nowNs) mid).within = true ↔
      ∀ side, c.depthVolume mid b side < Binary64.overflow
  below : ∀ (c : BinanceObiCalculator) (mid : Binary64) (side : Side),
    c.exactVolume mid b side + 100 * 2 ^ 970 < Binary64.overflow →
      c.depthVolume mid b side < Binary64.overflow
  beyond : ∀ (c : BinanceObiCalculator) (mid : Binary64) (side : Side),
    Binary64.overflow + 100 * 2 ^ 970 ≤ c.exactVolume mid b side →
      Binary64.overflow ≤ c.depthVolume mid b side

theorem represented_of_positive {b : BinanceOrderbook} (h : Positive b.bids ∧ Positive b.asks) :
    Represented b where
  positive := by
    intro side
    cases side with
    | buy => exact h.1
    | sell => exact h.2
  bids := ⟨b.best .buy, fun _ => rfl, b.best_bestOf.1⟩
  asks := ⟨b.best .sell, fun _ => rfl, b.best_bestOf.2⟩
  imbalance := imbalance_within_iff h.1 h.2
  below := fun c mid side => (depthVolume_of_exact h.1 h.2 c mid side).1
  beyond := fun c mid side hbeyond => by
    by_contra hwithin
    exact absurd ((depthVolume_of_exact h.1 h.2 c mid side).2 (not_le.mp hwithin)) hbeyond.not_gt

/-- **Every run.**  As long as no update stores a negative quantity, the book is represented as it should
be after every call, and the imbalance is in range unless a side's running sum overflows. -/
theorem runs_represented {parse : String → Option F64} {symbol : String} {calls : List Call}
    {b : BinanceOrderbook} (hcalls : Along (call parse) (NoNegative parse) (new symbol) calls)
    (hrun : exec (call parse) (new symbol) calls = some b) : Represented b := by
  have hstart : Positive (new symbol).bids ∧ Positive (new symbol).asks := by
    constructor <;>
    · intro p q hq
      exact absurd hq (by simp [new])
  have hpositive := exec_invariant_of (fun b => Positive b.bids ∧ Positive b.asks) (NoNegative parse)
    (fun _ _ _ hb he h => call_positive hb he h) hstart hcalls hrun
  exact represented_of_positive hpositive

/-- A book of one bid and one ask. -/
def twoLevels : BinanceDepthSnapshot where
  lastUpdateId := 1
  bids := [("100", "1")]
  asks := [("101", "2")]

/-- The event after it. -/
def nextUpdate (bids asks : List (String × String)) : BinanceDepthUpdate where
  eventTime := 5
  firstUpdateId := 2
  finalUpdateId := 2
  prevFinalUpdateId := none
  bids := bids
  asks := asks

/-- The bid is removed and the ask changed. -/
def twoCalls : List Call :=
  [.initFromSnapshot twoLevels, .applyUpdate (nextUpdate [("100", "0.0")] [("101", "3")])]

theorem runs_represented_twoCalls :
    ∃ b, exec (call Text.parseF64) (new "BTCUSDT") twoCalls = some b ∧ b.best .buy = [] ∧
      b.best .sell = [(101, 3)] ∧ Represented b := by
  have hcalls : Along (call Text.parseF64) (NoNegative Text.parseF64) (new "BTCUSDT") twoCalls :=
    ⟨trivial, fun _ => ⟨by decide +kernel, fun _ => by decide +kernel⟩, trivial⟩
  exact ⟨_, rfl, by decide +kernel, by decide +kernel, runs_represented hcalls rfl⟩

/-- Both calls return `Ok`; the update has stored a quantity of `-1`, and the imbalance is `-3`. -/
theorem negative_quantity_leaves_range :
    ∃ b₀ b₁, (new "BTCUSDT").initFromSnapshot Text.parseF64 twoLevels = (b₀, .ok ()) ∧
      b₀.applyUpdate Text.parseF64 (nextUpdate [("100", "-1")] []) = (b₁, .ok true) ∧
      (b₁.toSnapshot 0).midPrice = some (some (201 / 2)) ∧ ¬ Positive b₁.bids ∧
      BinanceObiCalculator.calculateImbalance ⟨.finite (1 / 40)⟩ (b₁.toSnapshot 0) (.finite (201 / 2)) =
        .finite (-3) := by
  refine ⟨_, _, Prod.ext rfl (by decide +kernel), Prod.ext rfl (by decide +kernel), by decide +kernel, ?_,
    by decide +kernel⟩
  intro hpositive
  have hstored := hpositive 100 (-1) (by decide +kernel)
  exact absurd hstored (by decide)

end BinanceOrderbook

end MarketMaker
