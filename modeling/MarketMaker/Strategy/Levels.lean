import Mathlib.Data.List.Forall2
import Mathlib.Data.List.GetD
import MarketMaker.Base.Binary64
import MarketMaker.Base.KeySort
import MarketMaker.Strategy.Snapshot

/-!
# Reading the levels of a depth message

`set_levels_from_strings` of `types.rs` over the fixed arrays of `OrderbookSnapshot`: the end of an
oversized list that holds the better prices is chosen by the first and the last price, the levels are
parsed, brought into best-first order, and cut off.

`parse` is the `f64` parser of the `fast_float` package.

Principal results: `arrange_eq_sortBy` — whichever of the three paths is taken, the levels come out in
the stable best-first order; `take_prices` — for a list in either feed direction the chosen end holds
the best prices; `set_levels_keep_best` — what a call leaves in the snapshot.
-/

set_option autoImplicit false

namespace MarketMaker

/-- `.ok().filter(|p| p.is_finite() && *p > 0.0)`. -/
def positiveValue : Option Binary64 → Option ℚ
  | some (.finite x) => if 0 < x then some x else none
  | _ => none

/-- `better`: higher for bids, lower for asks. -/
def better (isBid : Bool) (a b : Binary64) : Bool := if isBid then b.lt a else a.lt b

/-- The same on parsed levels. -/
def betterLevel (isBid : Bool) (a b : ℚ × ℚ) : Bool := better isBid (.finite a.1) (.finite b.1)

/-- `price_of`; what does not parse counts as `0.0`. -/
def priceOf (parse : String → Option Binary64) (level : String × String) : Binary64 :=
  (parse level.1).getD (.finite 0)

/-- `worst_first`: an oversized list ends in a better price than it starts with. -/
def worstFirst (parse : String → Option Binary64) (isBid : Bool) (levels : List (String × String)) :
    Bool :=
  decide (MAX_LEVELS < levels.length) &&
    match levels.getLast?, levels.head? with
    | some last, some first => better isBid (priceOf parse last) (priceOf parse first)
    | _, _ => false

/-- `source`: the end of the list that is read. -/
def source (parse : String → Option Binary64) (isBid : Bool) (levels : List (String × String)) :
    List (String × String) :=
  let take := min levels.length MAX_LEVELS
  if worstFirst parse isBid levels then levels.drop (levels.length - take) else levels.take take

/-- The errors: `invalid price {price:?}` and `invalid quantity {qty:?}`. -/
inductive LevelError where
  | invalidPrice (s : String)
  | invalidQuantity (s : String)
  deriving DecidableEq

/-- The parsing loop; it stops at the first bad number. -/
def parseLevels (parse : String → Option Binary64) :
    List (String × String) → Except LevelError (List (ℚ × ℚ))
  | [] => .ok []
  | (price, qty) :: rest =>
    match positiveValue (parse price) with
    | none => .error (.invalidPrice price)
    | some p =>
      match positiveValue (parse qty) with
      | none => .error (.invalidQuantity qty)
      | some q =>
        match parseLevels parse rest with
        | .error e => .error e
        | .ok parsed => .ok ((p, q) :: parsed)

/-- The comparison that `sort_by` is given. -/
def compareLevels (isBid : Bool) (a b : ℚ × ℚ) : Ordering :=
  match betterLevel isBid a b, betterLevel isBid b a with
  | true, _ => .lt
  | _, true => .gt
  | _, _ => .eq

/-- The levels best first: strictly reversed ones are turned round, ordered ones are left, others are
    sorted. -/
def arrange (isBid : Bool) (parsed : List (ℚ × ℚ)) : List (ℚ × ℚ) :=
  if parsed.IsChain fun v w => betterLevel isBid w v = true then parsed.reverse
  else if parsed.IsChain fun v w => betterLevel isBid w v = false then parsed
  else parsed.mergeSort fun a b => (compareLevels isBid a b).isLE

/-- `PriceLevel::new`. -/
def PriceLevel.new (level : ℚ × ℚ) : PriceLevel := ⟨some level.1, some level.2⟩

/-- `PriceLevel::default`. -/
def PriceLevel.zero : PriceLevel := ⟨some 0, some 0⟩

/-- `OrderbookSnapshot` with its fixed arrays. -/
structure ArraySnapshot where
  symbol : String
  timestampNs : Int
  receivedAtNs : Int
  sequence : Nat
  bids : Vector PriceLevel MAX_LEVELS
  asks : Vector PriceLevel MAX_LEVELS
  bidCount : UInt8
  askCount : UInt8
  deriving DecidableEq

namespace ArraySnapshot

/-- `OrderbookSnapshot::new`. -/
def new (symbol : String) : ArraySnapshot where
  symbol := symbol
  timestampNs := 0
  receivedAtNs := 0
  sequence := 0
  bids := .replicate MAX_LEVELS .zero
  asks := .replicate MAX_LEVELS .zero
  bidCount := 0
  askCount := 0

/-- The array of one side. -/
def array (b : ArraySnapshot) : Bool → Vector PriceLevel MAX_LEVELS
  | true => b.bids
  | false => b.asks

/-- `bid_count` or `ask_count`. -/
def count (b : ArraySnapshot) : Bool → Nat
  | true => b.bidCount.toNat
  | false => b.askCount.toNat

/-- `bid_levels` or `ask_levels`. -/
def levels (b : ArraySnapshot) (isBid : Bool) : List PriceLevel :=
  (b.array isBid).toList.take (b.count isBid)

/-- The levels that are read, as the strategy's snapshot holds them. -/
def toSnapshot (b : ArraySnapshot) : OrderbookSnapshot where
  symbol := b.symbol
  timestampNs := b.timestampNs
  receivedAtNs := b.receivedAtNs
  sequence := b.sequence
  bids := b.levels true
  asks := b.levels false

/-- `out[..count]` is the levels, `out[count..]` is filled with the default. -/
def filled (kept : List (ℚ × ℚ)) : Vector PriceLevel MAX_LEVELS :=
  Vector.ofFn fun i => (kept.map PriceLevel.new).getD i .zero

/-- The end of a call: the first `count` levels are stored, with `count as u8`. -/
def store (b : ArraySnapshot) (isBid : Bool) (kept : List (ℚ × ℚ)) : ArraySnapshot :=
  if isBid then { b with bids := filled kept, bidCount := UInt8.ofNat kept.length }
  else { b with asks := filled kept, askCount := UInt8.ofNat kept.length }

/-- `set_levels_from_strings`. -/
def setLevelsFromStrings (parse : String → Option Binary64) (isBid : Bool)
    (levels : List (String × String)) (maxLevels : Nat) (b : ArraySnapshot) :
    ArraySnapshot × Except LevelError Unit :=
  match parseLevels parse (source parse isBid levels) with
  | .error e => (b, .error e)
  | .ok parsed =>
    let count := min (min levels.length MAX_LEVELS) maxLevels
    (b.store isBid ((arrange isBid parsed).take count), .ok ())

end ArraySnapshot

/-! ## The order of the levels -/

/-- Lower is better on either side. -/
def rank (isBid : Bool) (level : ℚ × ℚ) : ℚ := if isBid then -level.1 else level.1

theorem betterLevel_eq (isBid : Bool) (a b : ℚ × ℚ) :
    betterLevel isBid a b = decide (rank isBid a < rank isBid b) := by
  cases isBid <;> simp [betterLevel, better, Binary64.lt, rank]

theorem compareLevels_isLE (isBid : Bool) (a b : ℚ × ℚ) :
    (compareLevels isBid a b).isLE = decide (rank isBid a ≤ rank isBid b) := by
  unfold compareLevels
  rw [betterLevel_eq, betterLevel_eq]
  rcases lt_trichotomy (rank isBid a) (rank isBid b) with h | h | h
  · simp [h, h.le]
  · simp [h]
  · simp [h, h.not_gt, h.not_ge]

/-- **Each of the three paths is the stable best-first sort.** -/
theorem arrange_eq_sortBy (isBid : Bool) (parsed : List (ℚ × ℚ)) :
    arrange isBid parsed = KeySort.sortBy (rank isBid) parsed := by
  unfold arrange
  split
  · rename_i hchain
    refine (KeySort.sortBy_of_descending ?_).symm
    simp only [betterLevel_eq, decide_eq_true_eq] at hchain
    have : IsTrans (ℚ × ℚ) fun v w => rank isBid w < rank isBid v := ⟨fun _ _ _ hab hbc => hbc.trans hab⟩
    exact List.isChain_iff_pairwise.mp hchain
  · split
    · rename_i hchain
      refine (KeySort.sortBy_of_sorted ?_).symm
      simp only [betterLevel_eq, decide_eq_false_iff_not, not_lt] at hchain
      have : IsTrans (ℚ × ℚ) fun v w => rank isBid v ≤ rank isBid w := ⟨fun _ _ _ hab hbc => hab.trans hbc⟩
      exact List.isChain_iff_pairwise.mp hchain
    · simp only [compareLevels_isLE]
      rfl

/-- `p` is no worse than `q`. -/
def bestFirst (isBid : Bool) (p q : ℚ) : Bool := if isBid then decide (q ≤ p) else decide (p ≤ q)

theorem bestFirst_eq (isBid : Bool) (a b : ℚ × ℚ) :
    bestFirst isBid a.1 b.1 = decide (rank isBid a ≤ rank isBid b) := by
  cases isBid <;> simp [bestFirst, rank]

theorem sortBy_rank (isBid : Bool) (entries : List (ℚ × ℚ)) :
    KeySort.sortBy (rank isBid) entries = entries.mergeSort fun a b => bestFirst isBid a.1 b.1 := by
  simp only [bestFirst_eq]
  rfl

/-- Levels of the same ranks have the same prices. -/
theorem prices_eq_of_ranks (isBid : Bool) {l l' : List (ℚ × ℚ)}
    (h : l.map (rank isBid) = l'.map (rank isBid)) : l.map Prod.fst = l'.map Prod.fst := by
  have hprice : ∀ level : ℚ × ℚ, level.1 = if isBid then -rank isBid level else rank isBid level := by
    intro level
    cases isBid <;> simp [rank]
  rw [List.map_congr_left fun level _ => hprice level, List.map_congr_left fun level _ => hprice level]
  have := congrArg (List.map fun r : ℚ => if isBid then -r else r) h
  rwa [List.map_map, List.map_map] at this

/-! ## What is read -/

section

variable {parse : String → Option Binary64}

/-- Both numbers of the pair parse to finite positive values, those of the entry. -/
structure Reads (parse : String → Option Binary64) (level : String × String) (entry : ℚ × ℚ) : Prop where
  price : parse level.1 = some (.finite entry.1)
  quantity : parse level.2 = some (.finite entry.2)
  price_pos : 0 < entry.1
  quantity_pos : 0 < entry.2

theorem positiveValue_eq_some {r : Option Binary64} {x : ℚ} :
    positiveValue r = some x ↔ r = some (.finite x) ∧ 0 < x := by
  unfold positiveValue
  split
  · rename_i y
    split
    · constructor
      · rintro ⟨⟩
        exact ⟨rfl, ‹_›⟩
      · rintro ⟨⟨⟩, _⟩
        rfl
    · constructor
      · rintro ⟨⟩
      · rintro ⟨⟨⟩, hpos⟩
        contradiction
  · rename_i hfinite
    constructor
    · rintro ⟨⟩
    · rintro ⟨rfl, _⟩
      exact absurd rfl (hfinite x)

/-- The parsing loop succeeds exactly on a list whose pairs are all readable. -/
theorem parseLevels_eq_ok {levels : List (String × String)} {parsed : List (ℚ × ℚ)} :
    parseLevels parse levels = .ok parsed ↔ List.Forall₂ (Reads parse) levels parsed := by
  induction levels generalizing parsed with
  | nil =>
    rw [parseLevels, List.forall₂_nil_left_iff]
    exact ⟨fun h => (Except.ok.inj h).symm, fun h => congrArg _ h.symm⟩
  | cons level rest ih =>
    obtain ⟨price, qty⟩ := level
    rw [List.forall₂_cons_left_iff]
    constructor
    · intro h
      rw [parseLevels] at h
      split at h
      · cases h
      · rename_i p hp
        split at h
        · cases h
        · rename_i q hq
          split at h
          · cases h
          · rename_i parsed' hrest
            cases h
            obtain ⟨hprice, hpos⟩ := positiveValue_eq_some.mp hp
            obtain ⟨hqty, hqpos⟩ := positiveValue_eq_some.mp hq
            exact ⟨(p, q), parsed', ⟨hprice, hqty, hpos, hqpos⟩, ih.mp hrest, rfl⟩
    · rintro ⟨⟨p, q⟩, parsed', hreads, hrest, rfl⟩
      have hp : positiveValue (parse price) = some p :=
        positiveValue_eq_some.mpr ⟨hreads.price, hreads.price_pos⟩
      have hq : positiveValue (parse qty) = some q :=
        positiveValue_eq_some.mpr ⟨hreads.quantity, hreads.quantity_pos⟩
      rw [parseLevels, hp]
      dsimp only
      rw [hq]
      dsimp only
      rw [ih.mpr hrest]

variable {levels : List (String × String)} {entries : List (ℚ × ℚ)}
  (hreads : List.Forall₂ (Reads parse) levels entries)
include hreads

theorem priceOf_eq : levels.map (priceOf parse) = entries.map fun entry => .finite entry.1 := by
  induction hreads with
  | nil => rfl
  | cons hlevel _ ih => rw [List.map_cons, List.map_cons, ih, priceOf, hlevel.price, Option.getD_some]

/-- The end of the list is chosen by the prices of its first and last level. -/
theorem worstFirst_iff {isBid : Bool} :
    worstFirst parse isBid levels = true ↔ MAX_LEVELS < entries.length ∧
      ∃ last ∈ entries.getLast?, ∃ first ∈ entries.head?, rank isBid last < rank isBid first := by
  have hprices := priceOf_eq hreads
  have hhead := congrArg List.head? hprices
  have hlast := congrArg List.getLast? hprices
  rw [List.head?_map, List.head?_map] at hhead
  rw [List.getLast?_map, List.getLast?_map] at hlast
  unfold worstFirst
  rw [Bool.and_eq_true, decide_eq_true_eq, hreads.length_eq]
  refine and_congr_right fun _ => ?_
  cases hl : entries.getLast? with
  | none =>
    rw [hl, Option.map_none, Option.map_eq_none_iff] at hlast
    simp [hlast]
  | some last =>
    cases hf : entries.head? with
    | none =>
      rw [hf, Option.map_none, Option.map_eq_none_iff] at hhead
      simp [hhead]
    | some first =>
      rw [hl, Option.map_some, Option.map_eq_some_iff] at hlast
      rw [hf, Option.map_some, Option.map_eq_some_iff] at hhead
      obtain ⟨lastLevel, hlast, hpriceLast⟩ := hlast
      obtain ⟨firstLevel, hhead, hpriceFirst⟩ := hhead
      have hrank : better isBid (.finite last.1) (.finite first.1) =
          decide (rank isBid last < rank isBid first) :=
        betterLevel_eq isBid last first
      simp [hlast, hhead, hpriceLast, hpriceFirst, hrank]

/-- The part that is parsed, as entries. -/
theorem source_reads (isBid : Bool) :
    ∃ chosen, List.Forall₂ (Reads parse) (source parse isBid levels) chosen ∧
      chosen = (if worstFirst parse isBid levels then
          entries.drop (entries.length - min entries.length MAX_LEVELS)
        else entries.take (min entries.length MAX_LEVELS)) := by
  refine ⟨_, ?_, rfl⟩
  unfold source
  rw [hreads.length_eq]
  dsimp only
  split
  · exact List.forall₂_drop _ hreads
  · exact List.forall₂_take _ hreads

end

/-- Prices are in one of the two feed directions. -/
def Monotone (prices : List ℚ) : Prop := prices.Pairwise (· ≤ ·) ∨ prices.Pairwise (· ≥ ·)

/-- On either side that is best first or worst first. -/
theorem Monotone.ranks {entries : List (ℚ × ℚ)} (h : Monotone (entries.map Prod.fst)) (isBid : Bool) :
    entries.Pairwise (fun a b => rank isBid a ≤ rank isBid b) ∨
      entries.Pairwise fun a b => rank isBid b ≤ rank isBid a := by
  unfold Monotone at h
  rw [List.pairwise_map, List.pairwise_map] at h
  cases isBid with
  | false => exact h
  | true => exact h.symm.imp (List.Pairwise.imp neg_le_neg) (List.Pairwise.imp neg_le_neg)

/-- **The chosen end of a list in either feed direction holds the best prices.** -/
theorem take_prices {parse : String → Option Binary64} {levels : List (String × String)}
    {entries chosen : List (ℚ × ℚ)} {isBid : Bool} (hreads : List.Forall₂ (Reads parse) levels entries)
    (hchosen : chosen = if worstFirst parse isBid levels then
        entries.drop (entries.length - min entries.length MAX_LEVELS)
      else entries.take (min entries.length MAX_LEVELS))
    (hfeed : entries.length ≤ MAX_LEVELS ∨ Monotone (entries.map Prod.fst)) {k : Nat}
    (hk : k ≤ min entries.length MAX_LEVELS) :
    ((KeySort.sortBy (rank isBid) chosen).take k).map Prod.fst =
      ((KeySort.sortBy (rank isBid) entries).take k).map Prod.fst := by
  refine prices_eq_of_ranks isBid ?_
  subst hchosen
  by_cases hworst : worstFirst parse isBid levels = true
  · rw [if_pos hworst]
    obtain ⟨hlong, last, hlast, first, hfirst, hlt⟩ := (worstFirst_iff hreads).mp hworst
    rcases (hfeed.resolve_left (by omega)).ranks isBid with hsorted | hdescending
    · exact absurd (KeySort.head_le_getLast hsorted hfirst hlast) hlt.not_ge
    · exact KeySort.take_keys_of_descending hdescending hk
  · rw [if_neg hworst]
    rcases hfeed with hshort | hmono
    · rw [Nat.min_eq_left hshort, List.take_length]
    · rcases hmono.ranks isBid with hsorted | hdescending
      · exact KeySort.take_keys_of_sorted hsorted hk
      · by_cases hlong : MAX_LEVELS < entries.length
        · refine KeySort.take_keys_of_sorted (KeySort.sorted_of_descending hdescending ?_) hk
          intro last hlast first hfirst
          by_contra hlt
          exact hworst ((worstFirst_iff hreads).mpr ⟨hlong, last, hlast, first, hfirst, not_le.mp hlt⟩)
        · rw [Nat.min_eq_left (by omega), List.take_length]

/-! ## What is stored -/

namespace ArraySnapshot

theorem filled_toList {kept : List (ℚ × ℚ)} (h : kept.length ≤ MAX_LEVELS) :
    (filled kept).toList =
      kept.map PriceLevel.new ++ List.replicate (MAX_LEVELS - kept.length) PriceLevel.zero := by
  refine List.ext_getElem (by simp [Nat.add_sub_cancel' h]) fun i hi _ => ?_
  simp only [filled, Vector.toList_ofFn, List.getElem_ofFn, List.getElem_append, List.length_map]
  split
  · rename_i hlt
    rw [List.getD_eq_getElem _ _ (by simpa using hlt)]
  · rename_i hge
    rw [List.getD_eq_default _ _ (by simpa using hge), List.getElem_replicate]

theorem array_store (b : ArraySnapshot) (isBid : Bool) (kept : List (ℚ × ℚ)) :
    (b.store isBid kept).array isBid = filled kept := by
  cases isBid <;> rfl

theorem count_store (b : ArraySnapshot) (isBid : Bool) {kept : List (ℚ × ℚ)}
    (h : kept.length ≤ MAX_LEVELS) :
    (b.store isBid kept).count isBid = kept.length := by
  have hbyte : kept.length % 2 ^ 8 = kept.length := Nat.mod_eq_of_lt (lt_of_le_of_lt h (by decide))
  cases isBid <;> exact (UInt8.toNat_ofNat' ..).trans hbyte

/-- The levels that are read back are the kept ones. -/
theorem levels_store (b : ArraySnapshot) (isBid : Bool) {kept : List (ℚ × ℚ)}
    (h : kept.length ≤ MAX_LEVELS) :
    (b.store isBid kept).levels isBid = kept.map PriceLevel.new := by
  have hlength : kept.length = (kept.map PriceLevel.new).length := (List.length_map _).symm
  rw [levels, array_store, count_store b isBid h, filled_toList h, hlength, List.take_left]

theorem store_other (b : ArraySnapshot) (isBid : Bool) (kept : List (ℚ × ℚ)) :
    (b.store isBid kept).array (!isBid) = b.array (!isBid) ∧
      (b.store isBid kept).count (!isBid) = b.count (!isBid) := by
  cases isBid <;> simp [store, array, count]

/-- A call leaves the other side alone. -/
theorem setLevelsFromStrings_other (parse : String → Option Binary64) (isBid : Bool)
    (levels : List (String × String)) (maxLevels : Nat) (b : ArraySnapshot) :
    (setLevelsFromStrings parse isBid levels maxLevels b).1.array (!isBid) = b.array (!isBid) ∧
    (setLevelsFromStrings parse isBid levels maxLevels b).1.count (!isBid) = b.count (!isBid) := by
  unfold setLevelsFromStrings
  cases parseLevels parse (source parse isBid levels) with
  | error e => exact ⟨rfl, rfl⟩
  | ok parsed => exact store_other b isBid _

/-- A short list with a pair that cannot be read changes nothing. -/
theorem setLevelsFromStrings_rejects {parse : String → Option Binary64} {isBid : Bool}
    {levels : List (String × String)} {maxLevels : Nat} {b : ArraySnapshot}
    (hshort : levels.length ≤ MAX_LEVELS)
    (hbad : ∃ level ∈ levels, ∀ entry, ¬ Reads parse level entry) :
    ∃ e, setLevelsFromStrings parse isBid levels maxLevels b = (b, .error e) := by
  have hsource : source parse isBid levels = levels := by
    have hworst : worstFirst parse isBid levels = false := by
      rw [worstFirst, decide_eq_false (by omega), Bool.false_and]
    rw [source, hworst, if_neg Bool.false_ne_true, Nat.min_eq_left hshort, List.take_length]
  unfold setLevelsFromStrings
  rw [hsource]
  cases hparse : parseLevels parse levels with
  | error e => exact ⟨e, rfl⟩
  | ok parsed =>
    obtain ⟨level, hmem, hunreadable⟩ := hbad
    obtain ⟨i, hi, rfl⟩ := List.getElem_of_mem hmem
    have hread := parseLevels_eq_ok.mp hparse
    exact absurd (hread.get hi (hread.length_eq ▸ hi)) (hunreadable _)

/-- A call on readable levels stores the first of the chosen end's stable best-first sort. -/
theorem setLevelsFromStrings_reads {parse : String → Option Binary64} {isBid : Bool}
    {levels : List (String × String)} {chosen : List (ℚ × ℚ)}
    (hreads : List.Forall₂ (Reads parse) (source parse isBid levels) chosen) (maxLevels : Nat)
    (b : ArraySnapshot) :
    setLevelsFromStrings parse isBid levels maxLevels b =
      (b.store isBid
        ((KeySort.sortBy (rank isBid) chosen).take (min (min levels.length MAX_LEVELS) maxLevels)), .ok ()) := by
  unfold setLevelsFromStrings
  rw [parseLevels_eq_ok.mpr hreads]
  dsimp only
  rw [arrange_eq_sortBy]

/-- **The best levels are kept.**  On readable levels, at most `MAX_LEVELS` or in either feed direction, a
call stores the best prices of the whole list, best first; a short list with an unreadable pair is
rejected; the other side is never touched. -/
theorem set_levels_keep_best (parse : String → Option Binary64) (isBid : Bool)
    (levels : List (String × String)) (maxLevels : Nat) (b : ArraySnapshot) :
    (∀ entries, List.Forall₂ (Reads parse) levels entries →
      (levels.length ≤ MAX_LEVELS ∨ Monotone (entries.map Prod.fst)) →
      ∃ b' kept, setLevelsFromStrings parse isBid levels maxLevels b = (b', .ok ()) ∧
        kept.length = min (min levels.length MAX_LEVELS) maxLevels ∧
        b'.count isBid = kept.length ∧
        (b'.array isBid).toList =
          kept.map PriceLevel.new ++ List.replicate (MAX_LEVELS - kept.length) PriceLevel.zero ∧
        kept.map Prod.fst = ((entries.map Prod.fst).mergeSort (bestFirst isBid)).take kept.length ∧
        kept.Subperm entries ∧
        (levels.length ≤ MAX_LEVELS →
          kept = (entries.mergeSort fun l l' => bestFirst isBid l.1 l'.1).take kept.length)) ∧
    (levels.length ≤ MAX_LEVELS → (∃ level ∈ levels, ∀ entry, ¬ Reads parse level entry) →
      ∃ e, setLevelsFromStrings parse isBid levels maxLevels b = (b, .error e)) ∧
    (setLevelsFromStrings parse isBid levels maxLevels b).1.array (!isBid) = b.array (!isBid) ∧
    (setLevelsFromStrings parse isBid levels maxLevels b).1.count (!isBid) = b.count (!isBid) := by
  refine ⟨?_, setLevelsFromStrings_rejects, setLevelsFromStrings_other parse isBid levels maxLevels b⟩
  intro entries hreads hfeed
  rw [hreads.length_eq] at hfeed ⊢
  obtain ⟨chosen, hsource, hchosen⟩ := source_reads hreads isBid
  have hpart : chosen.Sublist entries := by
    rw [hchosen]
    split
    · exact List.drop_sublist _ _
    · exact List.take_sublist _ _
  have hfull : chosen.length = min entries.length MAX_LEVELS := by
    rw [hchosen]
    split
    · rw [List.length_drop]
      omega
    · rw [List.length_take]
      omega
  have hcall := setLevelsFromStrings_reads hsource maxLevels b
  rw [hreads.length_eq] at hcall
  generalize hcount : min (min entries.length MAX_LEVELS) maxLevels = count at hcall ⊢
  have hlength : ((KeySort.sortBy (rank isBid) chosen).take count).length = count := by
    rw [List.length_take, KeySort.length_sortBy, hfull]
    omega
  have hbound : ((KeySort.sortBy (rank isBid) chosen).take count).length ≤ MAX_LEVELS := by omega
  refine ⟨_, _, hcall, hlength, count_store b isBid hbound, ?_, ?_, ?_, ?_⟩
  · rw [array_store, filled_toList hbound]
  · have hsort : (entries.map Prod.fst).mergeSort (bestFirst isBid) =
        (KeySort.sortBy (rank isBid) entries).map Prod.fst := by
      rw [sortBy_rank]
      exact (List.map_mergeSort (f := Prod.fst) (s := bestFirst isBid) fun _ _ _ _ => rfl).symm
    rw [hlength, take_prices hreads hchosen hfeed (by omega), hsort, List.map_take]
  · exact (List.take_sublist _ _).subperm.trans ((KeySort.sortBy_perm _ chosen).subperm.trans hpart.subperm)
  · intro hshort
    have hall : chosen = entries := hpart.eq_of_length (by rw [hfull, Nat.min_eq_left hshort])
    rw [hlength, hall, sortBy_rank]

/-- Reads the whole numbers up to 60. -/
def parseWhole (s : String) : Option Binary64 :=
  ((List.range 61).find? fun n => toString n = s).map fun n => .finite n

/-- Sixty bids, the worst one first. -/
def sixtyBids : List (String × String) := (List.range 60).map fun i => (toString (i + 1), "1")

theorem sixtyBids_reads :
    List.Forall₂ (Reads parseWhole) sixtyBids ((List.range 60).map fun i : Nat => ((i : ℚ) + 1, (1 : ℚ))) := by
  have hprices : ∀ i ∈ List.range 60, parseWhole (toString (i + 1)) = some (.finite ((i : ℚ) + 1)) := by
    decide +kernel
  have hone : parseWhole "1" = some (.finite 1) := by decide +kernel
  unfold sixtyBids
  rw [List.forall₂_map_left_iff, List.forall₂_map_right_iff, List.forall₂_same]
  intro i hi
  exact ⟨hprices i hi, hone, by positivity, one_pos⟩

/-- Ten of them are never parsed, and the best two of the rest are stored; a list with a price that
    does not parse leaves the snapshot as it was. -/
theorem set_levels_keep_best_worstFirst :
    (∃ (b : ArraySnapshot) (kept : List (ℚ × ℚ)),
      setLevelsFromStrings parseWhole true sixtyBids 2 (new "BTC-USD") = (b, .ok ()) ∧
      b.count true = 2 ∧ kept.map Prod.fst = [(60 : ℚ), 59] ∧
      (b.array true).toList = kept.map PriceLevel.new ++ List.replicate 48 PriceLevel.zero) ∧
    ∃ e, setLevelsFromStrings parseWhole true [("60", "1"), ("59.x", "1")] 2 (new "BTC-USD") =
      (new "BTC-USD", .error e) := by
  constructor
  · obtain ⟨b, kept, hcall, hlength, hcount, harray, hbest, _⟩ :=
      (set_levels_keep_best parseWhole true sixtyBids 2 (new "BTC-USD")).1 _ sixtyBids_reads
        (Or.inr (Or.inl (by decide +kernel)))
    have htwo : kept.length = 2 := hlength.trans (by decide +kernel)
    rw [htwo] at hcount harray hbest
    have hfirst : bestFirst true = fun p q => decide (-p ≤ -q) := by
      funext p q
      simp [bestFirst]
    have hsort : KeySort.sortBy (fun p => -p) ((List.range 60).map fun i : Nat => (i : ℚ) + 1) = _ :=
      KeySort.sortBy_of_descending (by decide +kernel)
    refine ⟨b, kept, hcall, hcount, hbest.trans ?_, harray⟩
    rw [List.map_map, hfirst]
    exact (congrArg (List.take 2) hsort).trans (by decide +kernel)
  · refine (set_levels_keep_best parseWhole true _ 2 (new "BTC-USD")).2.1 (by decide) ⟨("59.x", "1"), ?_, ?_⟩
    · decide
    · intro entry hreads
      have hnone : parseWhole "59.x" = none := by decide +kernel
      rw [hreads.price] at hnone
      cases hnone

/-! ## What the strategy reads -/

theorem sorted_of_pairwise {isBid : Bool} {kept : List (ℚ × ℚ)}
    (h : kept.Pairwise fun l l' => rank isBid l ≤ rank isBid l') :
    OrderbookSnapshot.sorted (bestFirst isBid) (kept.map PriceLevel.new) = true := by
  induction kept with
  | nil => rfl
  | cons l rest ih =>
    cases rest with
    | nil => rfl
    | cons l' rest =>
      have hfirst := List.rel_of_pairwise_cons h List.mem_cons_self
      have hrest := ih h.of_cons
      rw [List.map_cons, List.map_cons, OrderbookSnapshot.sorted, Bool.and_eq_true]
      exact ⟨(bestFirst_eq isBid l l').trans (decide_eq_true hfirst), hrest⟩

/-- A side that can be stored into the snapshot: what `validate` asks of it, but for being non-empty. -/
structure SideValid (isBid : Bool) (levels : List PriceLevel) : Prop where
  positive : levels.all PriceLevel.positive = true
  sorted : OrderbookSnapshot.sorted (bestFirst isBid) levels = true
  length_le : levels.length ≤ MAX_LEVELS

/-- Every accepted list, whatever its length and order, leaves a valid side. -/
theorem setLevelsFromStrings_sideValid {parse : String → Option Binary64} {isBid : Bool}
    {levels : List (String × String)} {maxLevels : Nat} {b b' : ArraySnapshot}
    (h : setLevelsFromStrings parse isBid levels maxLevels b = (b', .ok ())) :
    SideValid isBid (b'.levels isBid) := by
  unfold setLevelsFromStrings at h
  split at h
  · cases h
  · rename_i parsed hparse
    cases h
    rw [arrange_eq_sortBy]
    have hread := parseLevels_eq_ok.mp hparse
    have hkept :
        ((KeySort.sortBy (rank isBid) parsed).take (min (min levels.length MAX_LEVELS) maxLevels)).length ≤
          MAX_LEVELS := by
      rw [List.length_take]
      omega
    rw [levels_store b isBid hkept]
    refine ⟨?_, sorted_of_pairwise ((KeySort.sortBy_pairwise _ parsed).sublist (List.take_sublist _ _)),
      (List.length_map _).trans_le hkept⟩
    rw [List.all_eq_true]
    intro level hlevel
    obtain ⟨entry, hentry, rfl⟩ := List.mem_map.mp hlevel
    have hmem := (KeySort.sortBy_perm (rank isBid) parsed).mem_iff.mp (List.mem_of_mem_take hentry)
    obtain ⟨i, hi, rfl⟩ := List.getElem_of_mem hmem
    have := hread.get (hread.length_eq ▸ hi) hi
    have hprice := this.price_pos
    have hqty := this.quantity_pos
    rw [List.get_eq_getElem] at hprice hqty
    simp [PriceLevel.positive, PriceLevel.new, hprice, hqty]

/-- `depth_to_snapshot` reads both sides and validates: only an empty or a crossed book is left to
    reject. -/
theorem validate_of_sides {parse : String → Option Binary64} {bids asks : List (String × String)}
    {maxLevels : Nat} {b b₁ b₂ : ArraySnapshot}
    (hbids : setLevelsFromStrings parse true bids maxLevels b = (b₁, .ok ()))
    (hasks : setLevelsFromStrings parse false asks maxLevels b₁ = (b₂, .ok ())) :
    b₂.toSnapshot.validate =
      (!(b₂.levels true).isEmpty && !(b₂.levels false).isEmpty && b₂.toSnapshot.uncrossed) := by
  have hother := setLevelsFromStrings_other parse false asks maxLevels b₁
  rw [hasks] at hother
  have hkeep : b₂.levels true = b₁.levels true := by
    rw [levels, levels, show b₂.array true = b₁.array true from hother.1,
      show b₂.count true = b₁.count true from hother.2]
  have hbid := hkeep ▸ setLevelsFromStrings_sideValid hbids
  have hask := setLevelsFromStrings_sideValid hasks
  have hsortedBid : OrderbookSnapshot.sorted (fun p q => decide (q ≤ p)) (b₂.levels true) = true :=
    hbid.sorted
  have hsortedAsk : OrderbookSnapshot.sorted (fun p q => decide (p ≤ q)) (b₂.levels false) = true :=
    hask.sorted
  have hview : b₂.toSnapshot.bids = b₂.levels true ∧ b₂.toSnapshot.asks = b₂.levels false := ⟨rfl, rfl⟩
  rw [OrderbookSnapshot.validate, hview.1, hview.2, List.all_append, hbid.positive, hask.positive,
    hsortedBid, hsortedAsk, decide_eq_true hbid.length_le, decide_eq_true hask.length_le]
  simp only [Bool.and_true]

end ArraySnapshot

end MarketMaker
