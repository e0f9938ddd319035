import MarketMaker.Binance.Client

/-!
# What the Binance client sends is the venue's book

The connection loop against a venue whose messages are genuine, over a network that may refuse, drop,
repeat and reorder them, for any number of connections.

## Results

* `toSnapshot_shows` — a book that mirrors the venue's is shown as its best levels.
* `Truthful.step` — every move of the loop keeps what is sent and what is about to be sent so.
-/

set_option autoImplicit false

namespace MarketMaker

open DeltaFeed

/-- The levels are the best of a table, best first: all of it if there is room, and otherwise nothing
    that is left out is as good. -/
structure TopOf (isBid : Bool) (table : ℚ → Option ℚ) (levels : List (ℚ × ℚ)) : Prop where
  held : ∀ level ∈ levels, table level.1 = some level.2
  sorted : levels.Pairwise fun l l' => rank isBid l < rank isBid l'
  length_le : levels.length ≤ MAX_LEVELS
  rest : ∀ p q : ℚ, table p = some q → (p, q) ∈ levels ∨
    levels.length = MAX_LEVELS ∧ ∀ level ∈ levels, rank isBid level < rank isBid (p, q)

/-- The levels of a side. -/
def OrderbookSnapshot.levels (s : OrderbookSnapshot) : Side → List PriceLevel
  | .buy => s.bids
  | .sell => s.asks

/-- The snapshot shows the venue's book after the id it carries. -/
def ShowsVenue (writes : History) (s : OrderbookSnapshot) : Prop :=
  ∀ side, ∃ levels, s.levels side = levels.map PriceLevel.new ∧
    TopOf (side = .buy) (stateAt (writes side) s.sequence) levels

namespace BinanceOrderbook

/-- What is listed of a map is the top of it. -/
theorem BestOf.topOf {isBid : Bool} {m : Levels} {levels : List (ℚ × ℚ)} (h : BestOf isBid m levels) :
    TopOf isBid (fun p => m[p]?) levels := by
  have hlength := h.length_eq
  refine ⟨h.stored, h.sorted, by omega, fun p q hstored => ?_⟩
  rcases h.rest p q hstored with hlisted | hworse
  · exact .inl hlisted
  · refine .inr ⟨?_, hworse⟩
    by_contra hshort
    -- the list has room, so it is the whole map, and one more entry does not fit in
    have hall : levels.length = m.size := by omega
    have hsorted : (levels ++ [(p, q)]).Pairwise fun l l' => rank isBid l < rank isBid l' :=
      List.pairwise_append.mpr ⟨h.sorted, List.pairwise_singleton _ _,
        fun level hlevel l hl => List.mem_singleton.mp hl ▸ hworse level hlevel⟩
    have hnodup : (levels ++ [(p, q)]).Nodup := hsorted.imp fun hlt heq => (heq ▸ hlt).false
    have hsubset : levels ++ [(p, q)] ⊆ m.toList := by
      intro level hlevel
      refine Std.ExtTreeMap.mem_toList_iff_getElem?_eq_some.mpr ?_
      rcases List.mem_append.mp hlevel with hlevel | hlevel
      · exact h.stored level hlevel
      · rw [List.mem_singleton.mp hlevel]
        exact hstored
    have hle := (List.subperm_of_subset hnodup hsubset).length_le
    rw [List.length_append, List.length_singleton, Std.ExtTreeMap.length_toList] at hle
    omega

/-- **A book that mirrors the venue's shows it.** -/
theorem toSnapshot_shows {writes : History} {b : BinanceOrderbook} (h : Mirrors writes b) (nowNs : Int) :
    ShowsVenue writes (b.toSnapshot nowNs) := by
  have htable : ∀ side, (fun p => (b.side side)[p]?) = stateAt (writes side) b.lastUpdateId :=
    fun side => funext (h.levels side)
  obtain ⟨hbids, hasks⟩ := b.best_bestOf
  intro side
  refine ⟨b.best side, ?_, ?_⟩
  · cases side <;> rfl
  · show TopOf _ (stateAt (writes side) b.lastUpdateId) _
    rw [← htable side]
    cases side with
    | buy => exact hbids.topOf
    | sell => exact hasks.topOf

end BinanceOrderbook

/-! ## The loop -/

/-- A message of the network is one the venue sent: a snapshot of its whole book or a genuine event. -/
def ClientMove.Honest (parse : String → Option F64) (writes : History) : ClientMove → Prop
  | .connect (.ok snapshot) _ => FullBook parse writes snapshot
  | .turn ⟨_, .update update, _, _⟩ => Genuine parse writes update
  | _ => True

/-- A snapshot that is sent shows the venue's book. -/
def BinanceEvent.Truthful (writes : History) : BinanceEvent → Prop
  | .snapshot s => ShowsVenue writes s
  | _ => True

/-- The book of the connection mirrors the venue's, and what is about to be sent shows it. -/
def ClientPoint.Truthful (writes : History) : ClientPoint → Prop
  | .reading stream => Mirrors writes stream.book
  | .sending event next => event.Truthful writes ∧ next.Truthful writes
  | _ => True

namespace BinanceClient

/-- What holds of a client of a genuine venue. -/
structure Truthful (writes : History) (c : BinanceClient) : Prop where
  point : c.point.Truthful writes
  channel : ∀ event ∈ c.channel, event.Truthful writes

variable {parse : String → Option F64} {writes : History} {c c' : BinanceClient}

theorem Truthful.failed (h : c.Truthful writes) (error : String) : (c.failed error).Truthful writes :=
  ⟨⟨trivial, trivial⟩, h.channel⟩

theorem Truthful.closed (h : c.Truthful writes) : c.closed.Truthful writes := ⟨trivial, h.channel⟩

theorem Truthful.connect (h : c.Truthful writes) (startNs nowNs : Nat)
    {connection : Except String BinanceDepthSnapshot}
    (hmove : (ClientMove.connect connection nowNs).Honest parse writes) :
    (c.connect parse startNs connection nowNs).Truthful writes := by
  cases connection with
  | error error => exact h.failed error
  | ok snapshot =>
    obtain ⟨book, hinit, hbook⟩ :=
      BinanceOrderbook.initFromSnapshot_mirrors hmove (BinanceOrderbook.new c.config.symbol.toUpper)
    unfold BinanceClient.connect
    dsimp only
    rw [hinit]
    exact ⟨hbook, h.channel⟩

/-- An update keeps the book the venue's, or ends the connection. -/
theorem Truthful.onUpdate (h : c.Truthful writes) {stream : DepthStream} (hstream : Mirrors writes stream.book)
    {update : BinanceDepthUpdate} (hupdate : Genuine parse writes update) (wallNs : Int) :
    (c.onUpdate parse stream update wallNs).Truthful writes := by
  unfold BinanceClient.onUpdate
  split
  · rename_i book happly
    have hbook := (BinanceOrderbook.applyUpdate_mirrors hstream hupdate happly).1
    split
    · exact ⟨⟨BinanceOrderbook.toSnapshot_shows hbook wallNs, hbook⟩, h.channel⟩
    · exact ⟨hbook, h.channel⟩
  · rename_i book happly
    exact ⟨(BinanceOrderbook.applyUpdate_mirrors hstream hupdate happly).1, h.channel⟩
  · exact ⟨trivial, h.channel⟩
  · exact ⟨trivial, h.channel⟩
  · exact h.closed

theorem Truthful.onTurn (h : c.Truthful writes) {stream : DepthStream} (hstream : Mirrors writes stream.book)
    {turn : DepthTurn} (hmove : (ClientMove.turn turn).Honest parse writes) :
    (c.onTurn parse stream turn).Truthful writes := by
  unfold BinanceClient.onTurn
  split
  · exact h.closed
  split
  · exact h.closed
  split
  · exact h.closed
  dsimp only
  obtain ⟨nowNs, read, readNs, wallNs⟩ := turn
  cases read with
  | update update =>
    refine h.onUpdate ?_ hmove wallNs
    exact hstream
  | unreadable error => exact h.failed error
  | control => exact ⟨hstream, h.channel⟩
  | failed error => exact h.failed error
  | ended => exact h.closed
  | silent => exact ⟨hstream, h.channel⟩

theorem Truthful.send (h : c.Truthful writes) {event : BinanceEvent} {next : ClientPoint}
    (hpoint : c.point = .sending event next) (hsend : c.send event next = some c') : c'.Truthful writes := by
  have hsending := h.point
  rw [hpoint] at hsending
  obtain ⟨hevent, hnext⟩ := hsending
  unfold BinanceClient.send at hsend
  split at hsend
  · cases hsend
    exact ⟨hnext, h.channel⟩
  · split at hsend
    · cases hsend
      refine ⟨hnext, fun e he => ?_⟩
      rcases List.mem_append.mp he with he | he
      · exact h.channel e he
      · rw [List.mem_singleton.mp he]
        exact hevent
    · cases hsend

theorem Truthful.settle (h : c.Truthful writes) : c.settle.Truthful writes := by
  unfold BinanceClient.settle
  split
  · exact ⟨trivial, h.channel⟩
  split
  · exact ⟨trivial, h.channel⟩
  split
  · exact ⟨⟨trivial, trivial⟩, h.channel⟩
  · exact ⟨⟨trivial, trivial⟩, h.channel⟩

/-- **One move.** -/
theorem Truthful.step (h : c.Truthful writes) {m : ClientMove} (hm : m.Honest parse writes)
    (hstep : c.step parse m = some c') : c'.Truthful writes := by
  cases m with
  | check nowNs =>
    simp only [BinanceClient.step] at hstep
    split at hstep <;> cases hstep
    refine ⟨?_, h.channel⟩
    dsimp only
    split <;> trivial
  | connect connection nowNs =>
    simp only [BinanceClient.step] at hstep
    split at hstep <;> cases hstep
    exact h.connect _ nowNs hm
  | turn turn =>
    simp only [BinanceClient.step] at hstep
    split at hstep <;> cases hstep
    rename_i stream hpoint
    have hstream := h.point
    rw [hpoint] at hstream
    exact h.onTurn hstream hm
  | send =>
    simp only [BinanceClient.step] at hstep
    split at hstep
    · rename_i event next hpoint
      exact h.send hpoint hstep
    · cases hstep
  | settle =>
    simp only [BinanceClient.step] at hstep
    split at hstep <;> cases hstep
    exact h.settle
  | wake =>
    simp only [BinanceClient.step] at hstep
    split at hstep <;> cases hstep
    exact ⟨trivial, h.channel⟩

theorem run_truthful (writes : History) (config : BinanceClientConfig) : (run config).Truthful writes :=
  ⟨trivial, fun _ h => by cases h⟩

end BinanceClient

end MarketMaker
