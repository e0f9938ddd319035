import MarketMaker.Base.DeltaFeed
import MarketMaker.Base.Run
import MarketMaker.Base.Text
import MarketMaker.Binance.Orderbook

/-!
# The local book is the venue's book

The venue writes quantities to price levels, each write with an id.  A snapshot is the whole book
at an id; a depth event lists what was written over a range of ids.  Between the two the network
may drop, repeat and reorder events.

* `applyUpdate_mirrors` — an event that is accepted takes the book at one id to the book at a later id.
* `mirrors_history` — as long as no call has failed, the local book is the venue's at
  `last_update_id`.
-/

set_option autoImplicit false

namespace MarketMaker

open DeltaFeed Word64 Runs

/-- The writes to each side of the venue's book, by id. -/
abbrev History := Side → Nat → List (Write ℚ ℚ)

/-- A quantity of zero removes the level. -/
def toWrite (entry : ℚ × ℚ) : Write ℚ ℚ := (entry.1, if entry.2 = 0 then none else some entry.2)

/-- The levels are the texts of the entries. -/
def Parses (parse : String → Option F64) (levels : List (String × String))
    (entries : List (ℚ × ℚ)) : Prop :=
  List.Forall₂ (fun level entry => parseLevel parse level = .ok entry) levels entries

/-- The bids or the asks of a snapshot. -/
def BinanceDepthSnapshot.levels (s : BinanceDepthSnapshot) : Side → List (String × String)
  | .buy => s.bids
  | .sell => s.asks

/-- The bids or the asks of an update. -/
def BinanceDepthUpdate.levels (u : BinanceDepthUpdate) : Side → List (String × String)
  | .buy => u.bids
  | .sell => u.asks

/-- The snapshot is the whole book after its id. -/
structure FullBook (parse : String → Option F64) (writes : History)
    (s : BinanceDepthSnapshot) : Prop where
  lt_size : s.lastUpdateId < size
  levels : ∀ side, ∃ entries, Parses parse (s.levels side) entries ∧
    ∀ p q, stateAt (writes side) s.lastUpdateId p = some q ↔ (p, q) ∈ entries ∧ 0 < q

/-- The venue sends this event: it lists what was written from `U` to `u`, and a futures event names
    the event before it, up to which nothing else was written. -/
structure Genuine (parse : String → Option F64) (writes : History) (u : BinanceDepthUpdate) : Prop where
  pos : 0 < u.firstUpdateId
  le : u.firstUpdateId ≤ u.finalUpdateId
  lt_size : u.finalUpdateId < size
  levels : ∀ side, ∃ entries, Parses parse (u.levels side) entries ∧
    Covers (writes side) u.firstUpdateId u.finalUpdateId (entries.map toWrite)
  previous : ∀ pu, u.prevFinalUpdateId = some pu → pu < u.firstUpdateId ∧
    ∀ side n, pu < n → n < u.firstUpdateId → writes side n = []

/-! ## The loops over the levels -/

theorem forLevels_of_parses {parse : String → Option F64} {store : Levels → ℚ × ℚ → Levels} {m : Levels}
    {levels : List (String × String)} {entries : List (ℚ × ℚ)} (h : Parses parse levels entries) :
    forLevels parse store m levels = (entries.foldl store m, .ok ()) := by
  induction h generalizing m with
  | nil => rfl
  | cons hlevel _ ih =>
    unfold forLevels
    rw [hlevel]
    exact ih

theorem getElem?_storeDelta (m : Levels) (entry : ℚ × ℚ) :
    (fun p => (BinanceOrderbook.storeDelta m entry)[p]?)
      = Function.update (fun p => m[p]?) (toWrite entry).1 (toWrite entry).2 := by
  funext p
  unfold BinanceOrderbook.storeDelta toWrite
  by_cases hp : p = entry.1
  · subst hp
    rw [Function.update_self]
    split <;> simp
  · rw [Function.update_of_ne hp]
    split
    · rw [Std.ExtTreeMap.getElem?_erase, if_neg]
      simpa [compare_eq_iff_eq] using Ne.symm hp
    · rw [Std.ExtTreeMap.getElem?_insert, if_neg]
      simpa [compare_eq_iff_eq] using Ne.symm hp

/-- Storing the deltas of an event is writing them to the table. -/
theorem getElem?_foldl_storeDelta (m : Levels) (entries : List (ℚ × ℚ)) :
    (fun p => (entries.foldl BinanceOrderbook.storeDelta m)[p]?)
      = applyAll (fun p => m[p]?) (entries.map toWrite) := by
  induction entries generalizing m with
  | nil => rfl
  | cons entry entries ih =>
    calc (fun p => ((entry :: entries).foldl BinanceOrderbook.storeDelta m)[p]?)
        = applyAll (fun p => (BinanceOrderbook.storeDelta m entry)[p]?) (entries.map toWrite) := ih _
      _ = applyAll (fun p => m[p]?) ((entry :: entries).map toWrite) := by
        rw [getElem?_storeDelta]
        rfl

/-- Storing a snapshot that is the whole book gives the book. -/
theorem getElem?_foldl_storeSnapshot {table : ℚ → Option ℚ} {entries : List (ℚ × ℚ)}
    (h : ∀ p q, table p = some q ↔ (p, q) ∈ entries ∧ 0 < q) (p : ℚ) :
    (entries.foldl BinanceOrderbook.storeSnapshot (∅ : Levels))[p]? = table p := by
  let positive := entries.filter fun entry => decide (0 < entry.2)
  have hfold : entries.foldl BinanceOrderbook.storeSnapshot (∅ : Levels)
      = positive.foldl BinanceOrderbook.storeDelta ∅ := by
    rw [List.foldl_filter]
    congr 1
    funext m entry
    unfold BinanceOrderbook.storeSnapshot BinanceOrderbook.storeDelta
    by_cases hq : 0 < entry.2
    · simp [hq, hq.ne']
    · simp [hq]
  have htable := congrFun (getElem?_foldl_storeDelta ∅ positive) p
  rw [hfold, htable]
  have hpositive : ∀ w ∈ positive.map toWrite, w.2 = table w.1 := by
    intro w hw
    obtain ⟨entry, hentry, rfl⟩ := List.mem_map.mp hw
    obtain ⟨hmem, hq⟩ := List.mem_filter.mp hentry
    have hq : 0 < entry.2 := of_decide_eq_true hq
    rw [show (toWrite entry).2 = some entry.2 from if_neg hq.ne']
    exact ((h entry.1 entry.2).mpr ⟨hmem, hq⟩).symm
  by_cases hmem : ∃ w ∈ positive.map toWrite, w.1 = p
  · exact applyAll_of_mem (fun w hw hp => hp ▸ hpositive w hw) hmem
  · rw [applyAll_of_not_mem fun w hw hp => hmem ⟨w, hw, hp⟩]
    cases hp : table p with
    | none => simp
    | some q =>
      obtain ⟨hentry, hq⟩ := (h p q).mp hp
      exact absurd ⟨toWrite (p, q), List.mem_map_of_mem (List.mem_filter.mpr ⟨hentry, decide_eq_true hq⟩), rfl⟩ hmem

/-! ## The book at an id -/

/-- The stored bids and asks are the venue's after the id. -/
def Holds (writes : History) (n : Nat) (b : BinanceOrderbook) : Prop :=
  ∀ side p, (b.side side)[p]? = stateAt (writes side) n p

/-- The local book is the venue's at `last_update_id`; until the first event that is the snapshot. -/
structure Mirrors (writes : History) (b : BinanceOrderbook) : Prop where
  levels : Holds writes b.lastUpdateId b
  lt_size : b.lastUpdateId < size
  unsynced : b.isSynced = false → b.lastUpdateId = b.snapshotUpdateId

namespace BinanceOrderbook

theorem storeLevels_of_parses {parse : String → Option F64} {store : Levels → ℚ × ℚ → Levels}
    {b : BinanceOrderbook} {levels : Side → List (String × String)} {entries : Side → List (ℚ × ℚ)}
    (h : ∀ side, Parses parse (levels side) (entries side)) :
    storeLevels parse store b (levels .buy) (levels .sell)
      = ({ b with
            bids := (entries .buy).foldl store b.bids
            asks := (entries .sell).foldl store b.asks }, .ok ()) := by
  unfold storeLevels
  rw [forLevels_of_parses (h .buy), forLevels_of_parses (h .sell)]

/-- A snapshot of the whole book. -/
theorem initFromSnapshot_mirrors {parse : String → Option F64} {writes : History}
    {s : BinanceDepthSnapshot} (h : FullBook parse writes s) (b : BinanceOrderbook) :
    ∃ b', b.initFromSnapshot parse s = (b', .ok ()) ∧ Mirrors writes b' := by
  choose entries hparse hlists using h.levels
  have heq : b.initFromSnapshot parse s = ({ b with
      bids := (entries .buy).foldl storeSnapshot ∅
      asks := (entries .sell).foldl storeSnapshot ∅
      snapshotUpdateId := s.lastUpdateId
      lastUpdateId := s.lastUpdateId
      isSynced := false }, .ok ()) := by
    unfold initFromSnapshot
    rw [show s.bids = s.levels .buy from rfl, show s.asks = s.levels .sell from rfl,
      storeLevels_of_parses hparse]
  refine ⟨_, heq, ?_, h.lt_size, fun _ => rfl⟩
  intro side p
  cases side
  · exact getElem?_foldl_storeSnapshot (hlists .buy) p
  · exact getElem?_foldl_storeSnapshot (hlists .sell) p

/-- Applying the deltas of an event that starts no later than the next id. -/
theorem applyDeltas_mirrors {parse : String → Option F64} {writes : History} {b : BinanceOrderbook}
    {u : BinanceDepthUpdate} (hb : Holds writes b.lastUpdateId b) (hu : Genuine parse writes u)
    (hsynced : b.isSynced = true) (first : Nat) (hfirst : first ≤ b.lastUpdateId + 1)
    (hlast : b.lastUpdateId ≤ u.finalUpdateId)
    (hempty : ∀ side n, first ≤ n → n < u.firstUpdateId → writes side n = []) :
    ∃ b', b.applyDeltas parse u = (b', .ok true) ∧ Mirrors writes b' := by
  choose entries hparse hcovers using hu.levels
  have heq : b.applyDeltas parse u = ({ b with
      bids := (entries .buy).foldl storeDelta b.bids
      asks := (entries .sell).foldl storeDelta b.asks
      lastUpdateId := u.finalUpdateId
      lastEventTime := u.eventTime }, .ok true) := by
    unfold applyDeltas
    rw [show u.bids = u.levels .buy from rfl, show u.asks = u.levels .sell from rfl,
      storeLevels_of_parses hparse]
  have hside : ∀ side, applyAll (fun p => (b.side side)[p]?) ((entries side).map toWrite)
      = stateAt (writes side) u.finalUpdateId := by
    intro side
    have htable : (fun p => (b.side side)[p]?) = stateAt (writes side) b.lastUpdateId := funext (hb side)
    rw [htable]
    exact ((hcovers side).widen (hempty side)).applyAll_eq hfirst hlast
  refine ⟨_, heq, ?_, hu.lt_size, fun h => absurd (hsynced.symm.trans h) (by decide)⟩
  intro side p
  rw [← congrFun (hside side) p]
  cases side
  · exact congrFun (getElem?_foldl_storeDelta b.bids (entries .buy)) p
  · exact congrFun (getElem?_foldl_storeDelta b.asks (entries .sell)) p

/-- A first event that reaches over the snapshot. -/
theorem syncOk_mirrors {parse : String → Option F64} {writes : History} {b : BinanceOrderbook}
    {u : BinanceDepthUpdate} (hb : Mirrors writes b) (hu : Genuine parse writes u)
    (hunsynced : b.isSynced = false) (hok : b.syncOk u = true) :
    ∃ b', { b with isSynced := true }.applyDeltas parse u = (b', .ok true) ∧ Mirrors writes b' := by
  have hsnapshot := hb.unsynced hunsynced
  have hwrap := wrappingAdd_le b.snapshotUpdateId 1
  have hreach : u.firstUpdateId ≤ b.lastUpdateId + 1 ∧ b.lastUpdateId ≤ u.finalUpdateId := by
    unfold syncOk at hok
    split at hok <;> simp only [Bool.and_eq_true, decide_eq_true_eq] at hok <;> omega
  exact applyDeltas_mirrors (b := { b with isSynced := true }) hb.levels hu rfl u.firstUpdateId
    hreach.1 hreach.2 fun _ n hn hlt => by omega

/-- A later event that continues the one before. -/
theorem continuity_mirrors {parse : String → Option F64} {writes : History} {b : BinanceOrderbook}
    {u : BinanceDepthUpdate} (hb : Mirrors writes b) (hu : Genuine parse writes u)
    (hsynced : b.isSynced = true) (hnone : b.continuity u = none) :
    ∃ b', b.applyDeltas parse u = (b', .ok true) ∧ Mirrors writes b' := by
  have hpos := hu.pos
  have hle := hu.le
  unfold continuity BinanceDepthUpdate.isFutures at hnone
  cases hpu : u.prevFinalUpdateId with
  | some pu =>
    -- futures: nothing was written between `pu` and `U`
    obtain ⟨hlt, hempty⟩ := hu.previous pu hpu
    have heq : pu = b.lastUpdateId := by
      by_contra hne
      simp [hpu, hne] at hnone
    subst heq
    exact applyDeltas_mirrors hb.levels hu hsynced (b.lastUpdateId + 1) (Nat.le_refl _) (by omega)
      fun side n hn => hempty side n hn
  | none =>
    have heq : u.firstUpdateId = wrappingAdd b.lastUpdateId 1 := by
      by_contra hne
      simp [hpu, hne] at hnone
    -- at the last id the sum wraps to 0, which no event starts with
    have hnext : wrappingAdd b.lastUpdateId 1 = b.lastUpdateId + 1 := by
      rcases Nat.lt_or_ge (b.lastUpdateId + 1) size with hlt | hge
      · exact wrappingAdd_of_lt hlt
      · have hlast : b.lastUpdateId + 1 = size := Nat.le_antisymm hb.lt_size hge
        have hzero : wrappingAdd b.lastUpdateId 1 = 0 := by
          unfold wrappingAdd
          rw [hlast, Nat.mod_self]
        omega
    exact applyDeltas_mirrors hb.levels hu hsynced u.firstUpdateId (by omega) (by omega)
      fun _ n hn hlt => by omega

/-- **One event.** -/
theorem applyUpdate_mirrors {parse : String → Option F64} {writes : History} {b b' : BinanceOrderbook}
    {u : BinanceDepthUpdate} {applied : Bool} (hb : Mirrors writes b) (hu : Genuine parse writes u)
    (h : b.applyUpdate parse u = (b', .ok applied)) : Mirrors writes b' ∧ (applied = false → b' = b) := by
  have skipped : ∀ {r : Except SyncError Bool}, (b, r) = (b', .ok applied) →
      Mirrors writes b' ∧ (applied = false → b' = b) := by
    rintro r h
    obtain ⟨rfl, -⟩ := Prod.mk.inj h
    exact ⟨hb, fun _ => rfl⟩
  have stored : ∀ {r : BinanceOrderbook × Except SyncError Bool},
      (∃ b'', r = (b'', .ok true) ∧ Mirrors writes b'') → r = (b', .ok applied) →
      Mirrors writes b' ∧ (applied = false → b' = b) := by
    rintro r ⟨b'', rfl, hb''⟩ h
    obtain ⟨rfl, happlied⟩ := Prod.mk.inj h
    cases happlied
    exact ⟨hb'', fun h => absurd h (by decide)⟩
  unfold applyUpdate at h
  split at h
  · exact skipped h
  · split at h
    next hsynced =>
      split at h
      · exact skipped h
      · next hnone => exact stored (continuity_mirrors hb hu hsynced hnone) h
    next hunsynced =>
      split at h
      · next hok => exact stored (syncOk_mirrors hb hu (Bool.eq_false_iff.mpr hunsynced) hok) h
      · split at h <;> split at h <;> exact skipped h

/-- One delivery; a book that has failed is not used again. -/
def deliver (parse : String → Option F64) (b : BinanceOrderbook) (u : BinanceDepthUpdate) :
    Option BinanceOrderbook :=
  match b.applyUpdate parse u with
  | (b', .ok _) => some b'
  | (_, .error _) => none

theorem deliver_some {parse : String → Option F64} {b b' : BinanceOrderbook} {u : BinanceDepthUpdate}
    (h : b.deliver parse u = some b') : ∃ applied, b.applyUpdate parse u = (b', .ok applied) := by
  unfold deliver at h
  split at h
  · next b'' applied heq =>
    cases h
    exact ⟨applied, heq⟩
  · cases h

/-- **The book at `last_update_id`.**  After a snapshot of the whole book, in every run of genuine
    events in which no call has failed the stored levels are the venue's, the next call keeps them so
    or fails, and a call that skips its event changes nothing. -/
theorem mirrors_history (parse : String → Option F64) (writes : History) (b : BinanceOrderbook)
    (s : BinanceDepthSnapshot) (hs : FullBook parse writes s) :
    ∃ b₀, b.initFromSnapshot parse s = (b₀, .ok ()) ∧
      ∀ us, (∀ u ∈ us, Genuine parse writes u) → ∀ b₁, exec (deliver parse) b₀ us = some b₁ →
        Holds writes b₁.lastUpdateId b₁ ∧
        ∀ u, Genuine parse writes u → ∀ b₂ applied, b₁.applyUpdate parse u = (b₂, .ok applied) →
          Holds writes b₂.lastUpdateId b₂ ∧ (applied = false → b₂ = b₁) := by
  obtain ⟨b₀, hinit, h₀⟩ := initFromSnapshot_mirrors hs b
  refine ⟨b₀, hinit, fun us hus b₁ hrun => ?_⟩
  have hstep : ∀ b u b', Mirrors writes b → Genuine parse writes u → b.deliver parse u = some b' →
      Mirrors writes b' := by
    intro b u b' hb hu h
    obtain ⟨applied, happly⟩ := deliver_some h
    exact (applyUpdate_mirrors hb hu happly).1
  have h₁ : Mirrors writes b₁ :=
    exec_invariant_of (Mirrors writes) (fun _ u => Genuine parse writes u) hstep h₀ (along_of_forall hus) hrun
  refine ⟨h₁.levels, fun u hu b₂ applied happly => ?_⟩
  obtain ⟨h₂, hskipped⟩ := applyUpdate_mirrors h₁ hu happly
  exact ⟨h₂.levels, hskipped⟩

/-- A bid and an ask, a change of the bid, and another ask. -/
def threeWrites : History
  | .buy, 1 => [(100, some 2)]
  | .buy, 2 => [(100, some 3)]
  | .sell, 1 => [(101, some 1)]
  | .sell, 3 => [(101, none), (102, some 4)]
  | _, _ => []

def firstWrite : BinanceDepthSnapshot where
  lastUpdateId := 1
  bids := [("100", "2.0")]
  asks := [("101", "1.0")]

def lastTwoWrites : BinanceDepthUpdate where
  eventTime := 5
  firstUpdateId := 2
  finalUpdateId := 3
  prevFinalUpdateId := none
  bids := [("100", "3.0")]
  asks := [("101", "0.0"), ("102", "4.0")]

/-- The event is applied once; delivered again it is a sequence break. -/
theorem mirrors_history_threeWrites :
    ∃ b₀ b₁, (new "BTCUSDT").initFromSnapshot Text.parseF64 firstWrite = (b₀, .ok ()) ∧
      b₀.applyUpdate Text.parseF64 lastTwoWrites = (b₁, .ok true) ∧ Holds threeWrites 3 b₁ ∧
      (b₁.applyUpdate Text.parseF64 lastTwoWrites).2 = .error (.sequenceBreak 4 2) := by
  have hbook : FullBook Text.parseF64 threeWrites firstWrite := by
    refine ⟨by decide, fun side => ?_⟩
    cases side with
    | buy =>
      refine ⟨[(100, 2)], .cons (by decide +kernel) .nil, fun p q => ?_⟩
      simp only [firstWrite, stateAt, applyAll, threeWrites, List.foldl, Function.update_apply]
      grind
    | sell =>
      refine ⟨[(101, 1)], .cons (by decide +kernel) .nil, fun p q => ?_⟩
      simp only [firstWrite, stateAt, applyAll, threeWrites, List.foldl, Function.update_apply]
      grind
  have hevent : Genuine Text.parseF64 threeWrites lastTwoWrites := by
    refine ⟨by decide, by decide, by decide, fun side => ?_, fun _ h => by cases h⟩
    cases side with
    | buy =>
      refine ⟨[(100, 3)], .cons (by decide +kernel) .nil, ?_, fun n hfirst hlast => ?_⟩
      · decide +kernel
      · obtain rfl | rfl : n = 2 ∨ n = 3 := by simp [lastTwoWrites] at hfirst hlast; omega
        all_goals decide +kernel
    | sell =>
      refine ⟨[(101, 0), (102, 4)], .cons (by decide +kernel) (.cons (by decide +kernel) .nil), ?_,
        fun n hfirst hlast => ?_⟩
      · decide +kernel
      · obtain rfl | rfl : n = 2 ∨ n = 3 := by simp [lastTwoWrites] at hfirst hlast; omega
        all_goals decide +kernel
  obtain ⟨b₀, hinit, h⟩ := mirrors_history Text.parseF64 threeWrites (new "BTCUSDT") firstWrite hbook
  have hb₀ : b₀ = ((new "BTCUSDT").initFromSnapshot Text.parseF64 firstWrite).1 := by rw [hinit]
  have happly : b₀.applyUpdate Text.parseF64 lastTwoWrites
      = ((b₀.applyUpdate Text.parseF64 lastTwoWrites).1, .ok true) := by
    refine Prod.ext rfl ?_
    rw [hb₀]
    decide +kernel
  refine ⟨b₀, _, hinit, happly, ?_, ?_⟩
  · have hlast : (b₀.applyUpdate Text.parseF64 lastTwoWrites).1.lastUpdateId = 3 := by
      rw [hb₀]
      decide +kernel
    rw [← hlast]
    exact ((h [] (fun _ h => by cases h) b₀ rfl).2 lastTwoWrites hevent _ true happly).1
  · rw [hb₀]
    decide +kernel

end BinanceOrderbook

end MarketMaker
