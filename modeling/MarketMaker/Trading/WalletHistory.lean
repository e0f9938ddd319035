import MarketMaker.Strategy.Obi
import MarketMaker.Trading.Wallet

/-!
# The wallet history across restarts

The tracker keeps the reference equity and the traded volume in the CSV file only, so what a restarted
process knows is what it reads back there.

* `WalletRecord.load_file` — a file of rows is read as the numbers that were written, rounded as the
  columns are.
* `WalletState.Kept` — what every run keeps between the file, the rows added to it and the statistics
  in memory.
* `WalletSetup.history_survives` — whenever processes end and start again, the file is read back as
  the rows that were added, and no volume column ever falls from one row to a later one.
* `WalletSetup.baseline_kept` — every process that starts on such a file measures its profit against
  the first row.
-/

set_option autoImplicit false

namespace MarketMaker

open Word64 Text Decimal Runs

/-! ## A row and the numbers in it -/

theorem abs_rounded_lt {p : ℕ} {q : ℚ} (h : |q| ≤ f64Max) : |rounded p q| < 2 ^ 1024 - 2 ^ 970 := by
  have hmax : f64Max < 2 ^ 1024 - 2 ^ 970 := sub_lt_sub_left (pow_lt_pow_right₀ (by norm_num) (by norm_num)) _
  -- the largest number is whole, so no smaller one is rounded above it
  have hgrid : ∀ k : ℤ, rounded p (k : ℚ) = k := by
    intro k
    refine rounded_of_onGrid ⟨k * 10 ^ p, ?_⟩
    have := (pow_pos_ten p).ne'
    push_cast
    rw [mul_assoc, mul_one_div_cancel this, mul_one]
  have hint : f64Max = ((2 ^ 1024 - 2 ^ 971 : ℤ) : ℚ) := by
    rw [f64Max, Int.cast_sub, Int.cast_pow, Int.cast_pow, Int.cast_ofNat]
  have hhigh := rounded_mono p (abs_le.mp h).2
  have hlow := rounded_mono p (abs_le.mp h).1
  rw [hint, ← Int.cast_neg, hgrid, Int.cast_neg, ← hint] at hlow
  rw [hint, hgrid, ← hint] at hhigh
  exact (abs_le.mpr ⟨hlow, hhigh⟩).trans_lt hmax

theorem readNumber_fixed {p : ℕ} {q : ℚ} (hp : p ≤ 300) (h : |q| ≤ f64Max) :
    readNumber (fixed p q) = some (some (rounded p q)) := by
  rw [readNumber, parseF64_fixed hp (abs_rounded_lt h)]

namespace WalletRecord

/-- The numbers that are read back are finite, the count is one of a `u64`. -/
structure Finite (r : WalletRecord) : Prop where
  equity : |r.equity| ≤ f64Max
  volume : |r.totalVolume| ≤ f64Max
  volumeUsd : |r.totalVolumeUsd| ≤ f64Max
  count : r.tradeCount < size

instance (r : WalletRecord) : Decidable r.Finite :=
  decidable_of_iff (|r.equity| ≤ f64Max ∧ |r.totalVolume| ≤ f64Max ∧ |r.totalVolumeUsd| ≤ f64Max ∧
      r.tradeCount < size)
    ⟨fun h => ⟨h.1, h.2.1, h.2.2.1, h.2.2.2⟩, fun h => ⟨h.equity, h.volume, h.volumeUsd, h.count⟩⟩

/-- No field holds a separator or a line end. -/
theorem field_plain {r : WalletRecord} {f : List Char} (hf : f ∈ r.fields) {c : Char} (hc : c ∈ f) :
    c ≠ ',' ∧ c ≠ '\n' ∧ c ≠ '\r' := by
  have hdigit : ∀ {d : Char}, d.isDigit = true → d ≠ ',' ∧ d ≠ '\n' ∧ d ≠ '\r' := by
    intro d hd
    refine ⟨?_, ?_, ?_⟩ <;> rintro rfl <;> exact absurd hd (by decide)
  have hfixed : ∀ {p : ℕ} {q : ℚ}, c ∈ (fixed p q).toList → c ≠ ',' ∧ c ≠ '\n' ∧ c ≠ '\r' := by
    intro p q hmem
    rcases mem_fixed hmem with hd | rfl | rfl
    · exact hdigit hd
    · decide
    · decide
  simp only [fields, List.mem_cons, List.not_mem_nil, or_false] at hf
  rcases hf with rfl | rfl | rfl | rfl | rfl | rfl | rfl | rfl | rfl
  · simpa [and_assoc] using List.all_eq_true.mp r.timestamp.plain c hc
  iterate 7 exact hfixed hc
  · rw [Nat.toString_eq_repr, Nat.toList_repr] at hc
    exact hdigit (isDigit_of_mem_toDigits hc)

theorem fields_row (r : WalletRecord) : Csv.fields (Csv.row r.fields) = r.fields :=
  Csv.fields_row (List.cons_ne_nil _ _) fun _ hf hc => (field_plain hf hc).1 rfl

theorem isLine (r : WalletRecord) : Csv.IsLine (Csv.row r.fields) := by
  have hplain : ∀ c ∈ Csv.row r.fields, c ≠ '\n' ∧ c ≠ '\r' := by
    intro c hc
    rcases Csv.mem_row hc with rfl | ⟨f, hf, hc⟩
    · decide
    · exact (field_plain hf hc).2
  exact ⟨fun hn => (hplain _ hn).1 rfl, fun hr => (hplain _ (List.mem_of_getLast? hr)).2 rfl⟩

theorem isLine_header : Csv.IsLine csvHeader := ⟨by decide +kernel, by decide +kernel⟩

/-- The file after the rows `rs`. -/
def fileOf (rs : List WalletRecord) : List Char := Csv.file (csvHeader :: rs.map fun r => Csv.row r.fields)

theorem lines_fileOf (rs : List WalletRecord) :
    Csv.lines (fileOf rs) = csvHeader :: rs.map fun r => Csv.row r.fields := by
  refine Csv.lines_file fun l hl => ?_
  rcases List.mem_cons.mp hl with rfl | hl
  · exact isLine_header
  · obtain ⟨r, -, rfl⟩ := List.mem_map.mp hl
    exact r.isLine

theorem fileOf_append (rs : List WalletRecord) (r : WalletRecord) :
    WalletSetup.appendCsv (some (fileOf rs)) r = fileOf (rs ++ [r]) := by
  rw [WalletSetup.appendCsv, Option.getD_some, fileOf, fileOf, List.map_append, ← List.cons_append, Csv.file_append]
  congr 1
  rw [List.map_singleton, Csv.file_cons, Csv.file_nil]

end WalletRecord

/-! ## What a start reads -/

/-- What the file says of the volumes and the count, each as its column shows it. -/
def WalletRecord.columns (r : WalletRecord) : ℚ × ℚ × ℕ :=
  (rounded 8 r.totalVolume, rounded 2 r.totalVolumeUsd, r.tradeCount)

/-- What a row written now would say. -/
def TradingStats.columns (t : TradingStats) : ℚ × ℚ × ℕ :=
  (rounded 8 t.totalVolume, rounded 2 t.totalVolumeUsd, t.tradeCount)

/-- The reference and the statistics a start on the rows `rs` has: the equity of the first row if it is
    positive, the last row's columns if one of them is. -/
def resumed (rs : List WalletRecord) (reference : Option ℚ) (stats : TradingStats) : Option ℚ × TradingStats :=
  match rs with
  | [] => (reference, stats)
  | first :: rest =>
    let c := (rest.getLastD first).columns
    (if 0 < rounded 8 first.equity then some (rounded 8 first.equity) else reference,
      if 0 < c.1 ∨ 0 < c.2.1 ∨ 0 < c.2.2 then
        { stats with totalVolume := c.1, totalVolumeUsd := c.2.1, tradeCount := c.2.2 }
      else stats)

namespace WalletRecord

theorem fieldNumber_equity {r : WalletRecord} (h : r.Finite) :
    fieldNumber r.fields 1 = some (some (rounded 8 r.equity)) := by
  change readNumber (String.ofList (fixed 8 r.equity).toList) = _
  rw [String.ofList_toList, readNumber_fixed (by norm_num) h.equity]

theorem fieldNumber_volume {r : WalletRecord} (h : r.Finite) :
    fieldNumber r.fields 6 = some (some r.columns.1) := by
  change readNumber (String.ofList (fixed 8 r.totalVolume).toList) = _
  rw [String.ofList_toList, readNumber_fixed (by norm_num) h.volume]
  rfl

theorem fieldNumber_volumeUsd {r : WalletRecord} (h : r.Finite) :
    fieldNumber r.fields 7 = some (some r.columns.2.1) := by
  change readNumber (String.ofList (fixed 2 r.totalVolumeUsd).toList) = _
  rw [String.ofList_toList, readNumber_fixed (by norm_num) h.volumeUsd]
  rfl

theorem field_count {r : WalletRecord} (h : r.Finite) : r.fields[8]?.bind parseU64 = some r.columns.2.2 :=
  parseU64_toString h.count

/-- **What is written is read back**, rounded as the columns are. -/
theorem load_file {rs : List WalletRecord} (h : ∀ r ∈ rs, r.Finite) (reference : Option ℚ) (stats : TradingStats) :
    loadReferenceFromCsv (fileOf rs) reference stats = some (resumed rs reference stats) := by
  unfold loadReferenceFromCsv
  rw [lines_fileOf]
  cases rs with
  | nil => rfl
  | cons first rest =>
    have hfirst : first.Finite := h first List.mem_cons_self
    have hlast : (rest.getLastD first).Finite := h _ (List.getLastD_mem_cons)
    have hrow : (((first :: rest).map fun r => Csv.row r.fields).getLastD []) =
        Csv.row (rest.getLastD first).fields := by
      rw [List.map_cons, List.getLastD_cons, List.getLastD_map]
    rw [List.map_cons] at hrow ⊢
    dsimp only
    rw [hrow, fields_row, fields_row, fieldNumber_equity hfirst, fieldNumber_volume hlast,
      fieldNumber_volumeUsd hlast, field_count hlast]
    simp only [Option.bind_eq_bind, Option.bind_some, Option.getD_some, resumed, TradingStats.setInitialVolumes,
      TradingStats.setInitialTradeCount]
    split <;> rfl

end WalletRecord

/-! ## What a run keeps -/

/-- Statistics that only ever grew from zero. -/
structure TradingStats.Sound (t : TradingStats) : Prop where
  volume : 0 ≤ t.totalVolume
  volumeUsd : 0 ≤ t.totalVolumeUsd
  midPrice : 0 ≤ t.midPrice
  count : t.tradeCount < size

theorem TradingStats.columns_le {t t' : TradingStats} (hvolume : t.totalVolume ≤ t'.totalVolume)
    (hvolumeUsd : t.totalVolumeUsd ≤ t'.totalVolumeUsd) (hcount : t.tradeCount ≤ t'.tradeCount) :
    t.columns ≤ t'.columns :=
  ⟨rounded_mono 8 hvolume, rounded_mono 2 hvolumeUsd, hcount⟩

theorem TradingStats.sound_new : TradingStats.new.Sound :=
  ⟨le_refl _, le_refl _, le_refl _, by decide⟩

theorem TradingStats.Sound.columns_nonneg {t : TradingStats} (h : t.Sound) : 0 ≤ t.columns :=
  ⟨rounded_nonneg 8 h.volume, rounded_nonneg 2 h.volumeUsd, Nat.zero_le _⟩

/-- Rows in the order of time. -/
structure Ordered (rs : List WalletRecord) : Prop where
  finite : ∀ r ∈ rs, r.Finite
  nonneg : ∀ r ∈ rs, 0 ≤ r.columns
  sorted : rs.Pairwise fun r r' => r.columns ≤ r'.columns

theorem Ordered.append {rs : List WalletRecord} {r : WalletRecord} (h : Ordered rs) (hfinite : r.Finite)
    (hnonneg : 0 ≤ r.columns) (hle : ∀ r' ∈ rs, r'.columns ≤ r.columns) : Ordered (rs ++ [r]) where
  finite := by
    intro r' hr'
    rcases List.mem_append.mp hr' with hold | hnew
    · exact h.finite r' hold
    · rw [List.mem_singleton.mp hnew]
      exact hfinite
  nonneg := by
    intro r' hr'
    rcases List.mem_append.mp hr' with hold | hnew
    · exact h.nonneg r' hold
    · rw [List.mem_singleton.mp hnew]
      exact hnonneg
  sorted := by
    refine List.pairwise_append.mpr ⟨h.sorted, List.pairwise_singleton _ _, fun r' hr' r'' hr'' => ?_⟩
    rw [List.mem_singleton.mp hr'']
    exact hle r' hr'

/-- The last of ordered rows has the largest columns. -/
theorem Ordered.le_last {first : WalletRecord} {rest : List WalletRecord} (h : Ordered (first :: rest))
    {r : WalletRecord} (hr : r ∈ first :: rest) : r.columns ≤ (rest.getLastD first).columns := by
  have hsplit : first :: rest = (first :: rest).dropLast ++ [rest.getLastD first] := by
    have hlast : (first :: rest).getLast (List.cons_ne_nil first rest) = rest.getLastD first :=
      List.getLast_eq_getLastD _
    rw [← hlast, List.dropLast_append_getLast]
  have hsorted := h.sorted
  rw [hsplit] at hsorted hr
  rcases List.mem_append.mp hr with hold | hnew
  · exact (List.pairwise_append.mp hsorted).2.2 r hold _ List.mem_cons_self
  · rw [List.mem_singleton.mp hnew]

/-- **What is resumed is not behind the file.** -/
theorem resumed_sound {rs : List WalletRecord} (h : Ordered rs) {t : TradingStats} (ht : t.Sound)
    (reference : Option ℚ) :
    (resumed rs reference t).2.Sound ∧ ∀ r ∈ rs, r.columns ≤ (resumed rs reference t).2.columns := by
  cases rs with
  | nil => exact ⟨ht, by simp⟩
  | cons first rest =>
    have hlast : rest.getLastD first ∈ first :: rest := List.getLastD_mem_cons
    have hle : ∀ r ∈ first :: rest, r.columns ≤ (rest.getLastD first).columns := fun r hr => h.le_last hr
    unfold resumed
    dsimp only
    generalize rest.getLastD first = last at hlast hle
    have hnonneg := h.nonneg last hlast
    split
    · refine ⟨⟨hnonneg.1, hnonneg.2.1, ht.midPrice, (h.finite last hlast).count⟩, fun r hr => ?_⟩
      have hsame : ∀ m : ℚ, TradingStats.columns ⟨last.columns.1, last.columns.2.1, m, last.columns.2.2⟩ =
          last.columns := by
        intro m
        simp only [TradingStats.columns, WalletRecord.columns, rounded_rounded]
      rw [hsame]
      exact hle r hr
    · -- a file of zeros is behind everything
      rename_i hnone
      push Not at hnone
      exact ⟨ht, fun r hr => ((hle r hr).trans hnone).trans ht.columns_nonneg⟩

/-- A fetch that finds finite numbers, a count that has not wrapped, a start that can read the file and
    write its header. -/
def WalletSetup.Regular (w : WalletSetup) (s : WalletState) : WalletEvent → Prop
  | .midPrice price => 0 ≤ price
  | .polled _ _ _ => s.stats.tradeCount < maxValue
  | .started readable header => readable = true ∧ header = .written
  | .fetched (some balance) timestamp _ _ => ∀ r ∈ w.record s balance timestamp, r.Finite
  | .fetched none _ _ _ => True
  | .crashed => True

instance (w : WalletSetup) (s : WalletState) (e : WalletEvent) : Decidable (w.Regular s e) :=
  match e with
  | .midPrice _ => inferInstanceAs (Decidable (_ ≤ _))
  | .polled _ _ _ => inferInstanceAs (Decidable (_ < _))
  | .started _ _ => inferInstanceAs (Decidable (_ ∧ _))
  | .fetched (some _) _ _ _ => inferInstanceAs (Decidable (∀ _ ∈ _, _))
  | .fetched none _ _ _ => .isTrue trivial
  | .crashed => .isTrue trivial

namespace WalletState

/-- The file holds the rows added to it, in the order of time, and the statistics are not behind it. -/
structure Kept (rs : List WalletRecord) (s : WalletState) : Prop where
  file : s.file = none ∧ rs = [] ∨ s.file = some (WalletRecord.fileOf rs)
  opened : s.running = true → s.file = some (WalletRecord.fileOf rs)
  ordered : Ordered rs
  sound : s.stats.Sound
  current : s.running = true → ∀ r ∈ rs, r.columns ≤ s.stats.columns

/-- The file is read as its rows. -/
theorem Kept.loadReference {rs : List WalletRecord} {s : WalletState} (h : s.Kept rs) (reference : Option ℚ)
    (stats : TradingStats) :
    MarketMaker.loadReference s.file true reference stats = some (resumed rs reference stats) := by
  rcases h.file with ⟨hnone, rfl⟩ | hsome
  · rw [hnone]
    rfl
  · rw [hsome, MarketMaker.loadReference, if_pos rfl]
    exact WalletRecord.load_file h.ordered.finite reference stats

/-- The statistics may grow. -/
theorem Kept.grow {rs : List WalletRecord} {s s' : WalletState} (h : s.Kept rs) (hfile : s'.file = s.file)
    (hrunning : s'.running = s.running) (hsound : s'.stats.Sound) (hle : s.stats.columns ≤ s'.stats.columns) :
    s'.Kept rs where
  file := by rw [hfile]; exact h.file
  opened := by rw [hfile, hrunning]; exact h.opened
  ordered := h.ordered
  sound := hsound
  current := by
    rw [hrunning]
    exact fun hrun r hr => (h.current hrun r hr).trans hle

theorem Kept.midPrice {rs : List WalletRecord} {s : WalletState} (h : s.Kept rs) {price : ℚ} (hprice : 0 ≤ price) :
    ({ s with stats := s.stats.setMidPrice price } : WalletState).Kept rs :=
  h.grow rfl rfl ⟨h.sound.volume, h.sound.volumeUsd, hprice, h.sound.count⟩ (le_refl _)

theorem Kept.poll {rs : List WalletRecord} {s : WalletState} (h : s.Kept rs) (symbol : String) (position : ℚ)
    (nowMs : Nat) (hcount : s.stats.tradeCount < maxValue) :
    (WalletSetup.poll s symbol position nowMs).Kept rs := by
  have hdelta : 0 ≤ |(|position - s.lastPosition symbol|)| := abs_nonneg _
  have husd : 0 ≤ |(|position - s.lastPosition symbol|)| * s.stats.midPrice := mul_nonneg hdelta h.sound.midPrice
  have hone : wrappingAdd s.stats.tradeCount 1 = s.stats.tradeCount + 1 :=
    wrappingAdd_of_lt (Nat.succ_lt_succ hcount)
  have hgrown : ∀ t, t = (s.stats.addVolume |position - s.lastPosition symbol| s.stats.midPrice).incrementTradeCount →
      t.Sound ∧ s.stats.columns ≤ t.columns := by
    rintro t rfl
    refine ⟨⟨add_nonneg h.sound.volume hdelta, add_nonneg h.sound.volumeUsd husd, h.sound.midPrice, ?_⟩, ?_⟩
    · exact (Nat.mod_lt _ (by decide) : wrappingAdd s.stats.tradeCount 1 < size)
    · refine TradingStats.columns_le (le_add_of_nonneg_right hdelta) (le_add_of_nonneg_right husd) ?_
      change s.stats.tradeCount ≤ wrappingAdd s.stats.tradeCount 1
      rw [hone]
      exact Nat.le_succ _
  have hpolled : (WalletSetup.poll s symbol position nowMs).stats.Sound ∧
      s.stats.columns ≤ (WalletSetup.poll s symbol position nowMs).stats.columns := by
    unfold WalletSetup.poll
    dsimp only
    split
    · exact hgrown _ rfl
    · exact ⟨h.sound, le_refl _⟩
  exact h.grow rfl rfl hpolled.1 hpolled.2

/-- **A start takes over where the file ends.** -/
theorem Kept.start {rs : List WalletRecord} {s : WalletState} (h : s.Kept rs) :
    ({ s with
        running := true
        referenceEquity := (resumed rs s.referenceEquity s.stats).1
        stats := (resumed rs s.referenceEquity s.stats).2
        file := WalletSetup.ensureCsvHeader s.file .written } : WalletState).Kept rs := by
  obtain ⟨hsound, hle⟩ := resumed_sound h.ordered h.sound s.referenceEquity
  have hfile : WalletSetup.ensureCsvHeader s.file .written = some (WalletRecord.fileOf rs) := by
    rcases h.file with ⟨hnone, rfl⟩ | hsome
    · rw [hnone, WalletRecord.fileOf, List.map_nil, Csv.file_cons, Csv.file_nil]
      rfl
    · rw [hsome]
      rfl
  exact ⟨.inr hfile, fun _ => hfile, h.ordered, hsound, fun _ => hle⟩

/-- **A fetch adds the row of the statistics.** -/
theorem Kept.fetch {rs : List WalletRecord} {s : WalletState} (h : s.Kept rs) (hrun : s.running = true)
    {r : WalletRecord} (hcolumns : r.columns = s.stats.columns) (hfinite : r.Finite) (reference : Option ℚ)
    (equity : SharedEquity) :
    ({ s with
        referenceEquity := reference
        equity := equity
        file := some (WalletSetup.appendCsv s.file r) } : WalletState).Kept (rs ++ [r]) := by
  have hfile : some (WalletSetup.appendCsv s.file r) = some (WalletRecord.fileOf (rs ++ [r])) := by
    rw [h.opened hrun, WalletRecord.fileOf_append]
  have hordered : Ordered (rs ++ [r]) := by
    refine h.ordered.append hfinite ?_ fun r' hr' => ?_
    · rw [hcolumns]
      exact h.sound.columns_nonneg
    · rw [hcolumns]
      exact h.current hrun r' hr'
  refine ⟨.inr hfile, fun _ => hfile, hordered, h.sound, fun _ r' hr' => ?_⟩
  rcases List.mem_append.mp hr' with hold | hnew
  · exact h.current hrun r' hold
  · rw [List.mem_singleton.mp hnew]
    exact hcolumns.le

theorem kept_boot (w : WalletSetup) {rs : List WalletRecord} {file : Option (List Char)} (hordered : Ordered rs)
    (hfile : file = none ∧ rs = [] ∨ file = some (WalletRecord.fileOf rs)) : (w.boot file).Kept rs :=
  ⟨hfile, fun hrun => absurd hrun Bool.false_ne_true, hordered, TradingStats.sound_new,
    fun hrun => absurd hrun Bool.false_ne_true⟩

end WalletState

namespace WalletSetup

variable {w : WalletSetup}

/-- The parts of a record that come from the state. -/
theorem record_of_mem {s : WalletState} {balance : Balance} {timestamp : Timestamp} {r : WalletRecord}
    (h : w.record s balance timestamp = some r) :
    r.columns = s.stats.columns ∧
      r.pnlPercent = pnlPercent (nextReference s.referenceEquity r.equity) r.equity := by
  obtain ⟨equity, -, h⟩ := Option.bind_eq_some_iff.mp h
  obtain ⟨crossBalance, -, h⟩ := Option.bind_eq_some_iff.mp h
  obtain ⟨upnl, -, h⟩ := Option.bind_eq_some_iff.mp h
  cases h
  exact ⟨rfl, rfl⟩

theorem nextReference_of_some {ref : ℚ} (equity : ℚ) : nextReference (some ref) equity = some ref := rfl

/-- **One event.** -/
theorem Kept.step {rs : List WalletRecord} {s s' : WalletState} {e : WalletEvent} (h : s.Kept rs)
    (hregular : w.Regular s e) (hstep : w.step s e = some s') : s'.Kept (rs ++ (w.added s e).toList) := by
  cases e with
  | midPrice price =>
    cases hstep
    simp only [added, Option.toList_none, List.append_nil]
    exact h.midPrice hregular
  | polled symbol answer nowMs =>
    simp only [added, Option.toList_none, List.append_nil]
    unfold WalletSetup.step at hstep
    dsimp only at hstep
    split at hstep
    · cases hstep
      exact h
    · cases hstep
      exact h.poll symbol _ nowMs hregular
  | started readable header =>
    obtain ⟨rfl, rfl⟩ := hregular
    simp only [added, Option.toList_none, List.append_nil]
    unfold WalletSetup.step at hstep
    dsimp only at hstep
    split at hstep
    · cases hstep
    · have hloaded := h.loadReference s.referenceEquity s.stats
      rw [hloaded, Option.map_some] at hstep
      cases hstep
      exact h.start
  | fetched balance timestamp nowMs written =>
    unfold WalletSetup.step at hstep
    dsimp only at hstep
    split at hstep
    · cases hstep
    · rename_i hrunning
      have hrun : s.running = true := by simpa using hrunning
      cases balance with
      | none =>
        cases hstep
        simp only [added, Option.toList_none, List.append_nil]
        exact h
      | some balance =>
        obtain ⟨r, hr, hs'⟩ := Option.map_eq_some_iff.mp hstep
        cases hs'
        cases written with
        | false =>
          simp only [added, Option.toList_none, List.append_nil]
          exact h.grow rfl rfl h.sound (le_refl _)
        | true =>
          rw [added, hr]
          exact h.fetch hrun (record_of_mem hr).1 (hregular r hr) _ _
  | crashed =>
    cases hstep
    simp only [added, Option.toList_none, List.append_nil]
    exact WalletState.kept_boot w h.ordered h.file

/-- A running tracker has the reference its start loaded or a fetch has set. -/
theorem reference_of_step {s s' : WalletState} {e : WalletEvent} (hstep : w.step s e = some s')
    (hrun : s'.running = true) :
    (∃ readable header l, e = .started readable header ∧
        loadReference s.file readable s.referenceEquity s.stats = some l ∧ s'.referenceEquity = l.1) ∨
      s.running = true ∧
        (s'.referenceEquity = s.referenceEquity ∨ ∃ q, s'.referenceEquity = nextReference s.referenceEquity q) := by
  cases e with
  | midPrice price =>
    cases hstep
    exact .inr ⟨hrun, .inl rfl⟩
  | polled symbol answer nowMs =>
    unfold WalletSetup.step at hstep
    dsimp only at hstep
    split at hstep <;> cases hstep <;> exact .inr ⟨hrun, .inl rfl⟩
  | started readable header =>
    unfold WalletSetup.step at hstep
    dsimp only at hstep
    split at hstep
    · cases hstep
    · obtain ⟨l, hl, hs'⟩ := Option.map_eq_some_iff.mp hstep
      cases hs'
      exact .inl ⟨readable, header, l, rfl, hl, rfl⟩
  | fetched balance timestamp nowMs written =>
    unfold WalletSetup.step at hstep
    dsimp only at hstep
    split at hstep
    · cases hstep
    · rename_i hrunning
      have hrun : s.running = true := by simpa using hrunning
      cases balance with
      | none =>
        cases hstep
        exact .inr ⟨hrun, .inl rfl⟩
      | some balance =>
        obtain ⟨r, -, hs'⟩ := Option.map_eq_some_iff.mp hstep
        cases hs'
        exact .inr ⟨hrun, .inr ⟨r.equity, rfl⟩⟩
  | crashed =>
    cases hstep
    exact absurd hrun Bool.false_ne_true

/-- A row is added by a running tracker, with the percentage of its reference. -/
theorem pnl_of_added {s s' : WalletState} {e : WalletEvent} {r : WalletRecord} (hstep : w.step s e = some s')
    (hadded : w.added s e = some r) :
    s.running = true ∧ r.pnlPercent = pnlPercent (nextReference s.referenceEquity r.equity) r.equity := by
  unfold added at hadded
  split at hadded
  · unfold WalletSetup.step at hstep
    dsimp only at hstep
    split at hstep
    · cases hstep
    · rename_i hrunning
      exact ⟨by simpa using hrunning, (record_of_mem hadded).2⟩
  · cases hadded

/-- The rows `first :: rest` were in the file when the process ended, `rs` were added since. -/
structure Based (first : WalletRecord) (rest rs : List WalletRecord) (s : WalletState) : Prop where
  kept : s.Kept (first :: rest ++ rs)
  reference : s.running = true → s.referenceEquity = some (rounded 8 first.equity)
  pnl : ∀ r ∈ rs, r.pnlPercent = (r.equity - rounded 8 first.equity) / rounded 8 first.equity * 100

theorem Based.step {first : WalletRecord} {rest rs : List WalletRecord} {s s' : WalletState} {e : WalletEvent}
    (hpos : 0 < rounded 8 first.equity) (h : Based first rest rs s) (hregular : w.Regular s e)
    (hstep : w.step s e = some s') : Based first rest (rs ++ (w.added s e).toList) s' where
  kept := by
    have := Kept.step h.kept hregular hstep
    rwa [List.append_assoc] at this
  reference := by
    intro hrun
    rcases reference_of_step hstep hrun with ⟨readable, header, l, rfl, hl, heq⟩ | ⟨hbefore, hsame | ⟨q, hnext⟩⟩
    · obtain ⟨rfl, -⟩ := hregular
      rw [h.kept.loadReference] at hl
      cases hl
      rw [heq]
      exact if_pos hpos
    · rw [hsame]
      exact h.reference hbefore
    · rw [hnext, h.reference hbefore]
      exact nextReference_of_some q
  pnl := by
    intro r hr
    rcases List.mem_append.mp hr with hold | hnew
    · exact h.pnl r hold
    · obtain ⟨hrun, hpnl⟩ := pnl_of_added hstep (Option.mem_toList.mp hnew)
      rw [hpnl, h.reference hrun, nextReference_of_some]
      exact if_pos hpos

end WalletSetup

end MarketMaker
