import Mathlib.Data.List.TakeWhile
import Mathlib.Data.Rat.Floor
import Mathlib.Tactic.Ring
import Mathlib.Tactic.Positivity
import MarketMaker.Base.Grid
import MarketMaker.Base.Text

/-!
# Fixed-point decimal text

`{:.p}` of the Rust standard library: a number is rounded to `p` decimals, a tie to the even last
digit, and written with exactly `p` digits after the point.

* `rounded_of_onGrid` — a number with no more decimals is written exactly.
* `rounded_mono` — a larger number is never written as a smaller one.
* `parseF64_fixed` — the text is read back as the number that was written.
-/

set_option autoImplicit false

namespace Decimal

open Text

/-! ## Rounding -/

/-- The nearest natural number, the even one of two. -/
def roundEven (x : ℚ) : ℕ :=
  let n := ⌊x⌋₊
  if x - n < 1 / 2 then n
  else if 1 / 2 < x - n then n + 1
  else if n % 2 = 0 then n else n + 1

theorem roundEven_natCast (n : ℕ) : roundEven n = n := by
  unfold roundEven
  dsimp only
  rw [Nat.floor_natCast, sub_self, if_pos (by norm_num)]

theorem abs_roundEven_sub_le {x : ℚ} (hx : 0 ≤ x) : |(roundEven x : ℚ) - x| ≤ 1 / 2 := by
  have hle := Nat.floor_le hx
  have hlt := Nat.lt_floor_add_one x
  rw [abs_le]
  unfold roundEven
  dsimp only
  split
  · constructor <;> linarith
  · split
    · push_cast
      constructor <;> linarith
    · split
      · constructor <;> linarith
      · push_cast
        constructor <;> linarith

theorem roundEven_mono {x y : ℚ} (h : x ≤ y) : roundEven x ≤ roundEven y := by
  have hfloor : ⌊x⌋₊ ≤ ⌊y⌋₊ := Nat.floor_le_floor h
  have hup : roundEven x ≤ ⌊x⌋₊ + 1 := by
    unfold roundEven
    dsimp only
    split_ifs <;> omega
  have hdown : ⌊y⌋₊ ≤ roundEven y := by
    unfold roundEven
    dsimp only
    split_ifs <;> omega
  rcases Nat.lt_or_ge ⌊x⌋₊ ⌊y⌋₊ with hlt | hge
  · exact hup.trans (Nat.succ_le_of_lt hlt |>.trans hdown)
  · -- between two natural numbers the larger one is rounded up first
    have heq : ⌊x⌋₊ = ⌊y⌋₊ := Nat.le_antisymm hfloor hge
    unfold roundEven
    dsimp only
    rw [heq]
    split_ifs <;> first | omega | linarith

/-- The units of the last digit in the text of a number. -/
def units (p : ℕ) (q : ℚ) : ℕ := roundEven (|q| * 10 ^ p)

/-- The number the text stands for. -/
def rounded (p : ℕ) (q : ℚ) : ℚ := (if q < 0 then -1 else 1) * ((units p q : ℚ) / 10 ^ p)

theorem pow_pos_ten (p : ℕ) : (0 : ℚ) < 10 ^ p := by positivity

theorem rounded_onGrid (p : ℕ) (q : ℚ) : Grid.OnGrid (1 / 10 ^ p) (rounded p q) := by
  unfold rounded
  split
  · refine ⟨-(units p q : ℤ), ?_⟩
    push_cast
    ring
  · refine ⟨(units p q : ℤ), ?_⟩
    push_cast
    ring

theorem sign_mul_abs (q : ℚ) : (if q < 0 then -1 else 1) * |q| = q := by
  split
  · rename_i hneg
    rw [abs_of_neg hneg, neg_one_mul, neg_neg]
  · rename_i hnonneg
    rw [abs_of_nonneg (not_lt.mp hnonneg), one_mul]

/-- **A number with no more decimals is written exactly.** -/
theorem rounded_of_onGrid {p : ℕ} {q : ℚ} (h : Grid.OnGrid (1 / 10 ^ p) q) : rounded p q = q := by
  obtain ⟨k, rfl⟩ := h
  have hpow := pow_pos_ten p
  have hunits : units p (k * (1 / 10 ^ p)) = k.natAbs := by
    have habs : |(k : ℚ) * (1 / 10 ^ p)| * 10 ^ p = (k.natAbs : ℕ) := by
      rw [abs_mul, abs_of_pos (one_div_pos.mpr hpow), mul_assoc, one_div_mul_cancel hpow.ne', mul_one,
        Nat.cast_natAbs, Int.cast_abs]
    unfold units
    rw [habs, roundEven_natCast]
  have hback := sign_mul_abs ((k : ℚ) * (1 / 10 ^ p))
  have hscaled : |(k : ℚ) * (1 / 10 ^ p)| = (k.natAbs : ℚ) / 10 ^ p := by
    rw [abs_mul, abs_of_pos (one_div_pos.mpr hpow), Nat.cast_natAbs, Int.cast_abs, mul_one_div]
  unfold rounded
  rw [hunits, ← hscaled, hback]

/-- Writing what was read changes nothing. -/
theorem rounded_rounded (p : ℕ) (q : ℚ) : rounded p (rounded p q) = rounded p q :=
  rounded_of_onGrid (rounded_onGrid p q)

theorem rounded_nonneg (p : ℕ) {q : ℚ} (h : 0 ≤ q) : 0 ≤ rounded p q := by
  unfold rounded
  rw [if_neg (not_lt.mpr h), one_mul]
  positivity

/-- **Writing keeps the order.** -/
theorem rounded_mono (p : ℕ) {q r : ℚ} (h : q ≤ r) : rounded p q ≤ rounded p r := by
  have hpow := pow_pos_ten p
  have hscale : ∀ {a b : ℚ}, |a| ≤ |b| → (units p a : ℚ) / 10 ^ p ≤ (units p b : ℚ) / 10 ^ p := by
    intro a b hab
    have hunits : units p a ≤ units p b := roundEven_mono (mul_le_mul_of_nonneg_right hab hpow.le)
    exact div_le_div_of_nonneg_right (by exact_mod_cast hunits) hpow.le
  have hnonneg : ∀ a : ℚ, 0 ≤ (units p a : ℚ) / 10 ^ p := fun a => by positivity
  unfold rounded
  rcases lt_or_ge q 0 with hq | hq <;> rcases lt_or_ge r 0 with hr | hr
  · have habs : |r| ≤ |q| := by
      rw [abs_of_neg hq, abs_of_neg hr]
      linarith
    have := hscale habs
    rw [if_pos hq, if_pos hr]
    linarith
  · have hneg := hnonneg q
    have hpos := hnonneg r
    rw [if_pos hq, if_neg (not_lt.mpr hr)]
    linarith
  · exact absurd (hq.trans h) (not_le.mpr hr)
  · have habs : |q| ≤ |r| := by rwa [abs_of_nonneg hq, abs_of_nonneg hr]
    have := hscale habs
    rw [if_neg (not_lt.mpr hq), if_neg (not_lt.mpr hr)]
    linarith

/-! ## The text -/

/-- The digits after the point. -/
def fraction (p n : ℕ) : List Char := (Nat.toDigits 10 n).leftpad p '0'

/-- The digits of a number of units. -/
def body (p n : ℕ) : List Char :=
  Nat.toDigits 10 (n / 10 ^ p) ++ if p = 0 then [] else '.' :: fraction p (n % 10 ^ p)

/-- `format!("{:.p}", q)`. -/
def fixed (p : ℕ) (q : ℚ) : String := String.ofList ((if q < 0 then ['-'] else []) ++ body p (units p q))

theorem isDigit_of_mem_toDigits {n : ℕ} {c : Char} (h : c ∈ Nat.toDigits 10 n) : c.isDigit = true :=
  Nat.isDigit_of_mem_toDigits (by decide) (Nat.le_refl 10) h

theorem isDigit_of_mem_fraction {p n : ℕ} {c : Char} (h : c ∈ fraction p n) : c.isDigit = true := by
  rcases List.mem_append.mp h with hzero | hdigit
  · obtain ⟨-, rfl⟩ := List.mem_replicate.mp hzero
    rfl
  · exact isDigit_of_mem_toDigits hdigit

theorem mem_body {p n : ℕ} {c : Char} (h : c ∈ body p n) : c.isDigit = true ∨ c = '.' := by
  rcases List.mem_append.mp h with hwhole | hrest
  · exact .inl (isDigit_of_mem_toDigits hwhole)
  · split at hrest
    · cases hrest
    · rcases List.mem_cons.mp hrest with rfl | hfraction
      · exact .inr rfl
      · exact .inl (isDigit_of_mem_fraction hfraction)

/-- What a text is made of. -/
theorem mem_fixed {p : ℕ} {q : ℚ} {c : Char} (h : c ∈ (fixed p q).toList) :
    c.isDigit = true ∨ c = '.' ∨ c = '-' := by
  rw [fixed, String.toList_ofList] at h
  rcases List.mem_append.mp h with hsign | hbody
  · split at hsign
    · exact .inr (.inr (List.mem_singleton.mp hsign))
    · cases hsign
  · rcases mem_body hbody with hdigit | hpoint
    · exact .inl hdigit
    · exact .inr (.inl hpoint)

theorem fraction_ne_nil {p n : ℕ} : fraction p n ≠ [] := by
  intro hnil
  have hdigits := (List.append_eq_nil_iff.mp hnil).2
  exact Nat.toDigits_ne_nil hdigits

theorem length_fraction {p n : ℕ} (hp : p ≠ 0) (hn : n < 10 ^ p) : (fraction p n).length = p := by
  have hlength := (Nat.length_toDigits_le_iff (by decide) (Nat.pos_of_ne_zero hp)).mpr hn
  rw [fraction, List.length_leftpad]
  exact Nat.max_eq_left hlength

theorem parseDigits_fraction (p n : ℕ) : parseDigits (fraction p n) = some n := by
  unfold parseDigits
  rw [if_pos ⟨fraction_ne_nil, List.all_eq_true.mpr fun c hc => isDigit_of_mem_fraction hc⟩,
    ← Nat.ofDigitChars_eq_foldl, fraction, List.leftpad, Nat.ofDigitChars_append,
    Nat.ofDigitChars_replicate_zero, Nat.mul_zero, Nat.ofDigitChars_ten_toDigits]

/-- The mantissa that is read. -/
theorem parseMantissa_body (p n : ℕ) : parseMantissa (body p n) = some ((n : ℚ) / 10 ^ p) := by
  have hwhole : ∀ c ∈ Nat.toDigits 10 (n / 10 ^ p), c.isDigit = true := fun c hc => isDigit_of_mem_toDigits hc
  have hvalue : digitsValue (Nat.toDigits 10 (n / 10 ^ p)) = n / 10 ^ p := by
    have hparse := parseDigits_toString (n / 10 ^ p)
    rw [Nat.toString_eq_repr, Nat.toList_repr] at hparse
    rw [digitsValue, hparse, Option.getD_some]
  unfold parseMantissa body
  by_cases hp : p = 0
  · subst hp
    rw [if_pos rfl, List.append_nil, List.dropWhile_eq_nil_iff.mpr hwhole, List.takeWhile_eq_self_iff.mpr hwhole]
    dsimp only
    rw [if_neg Nat.toDigits_ne_nil, hvalue, pow_zero, Nat.div_one, pow_zero, div_one]
  · have hpow : 0 < 10 ^ p := Nat.pow_pos (by decide)
    have hdrop : (Nat.toDigits 10 (n / 10 ^ p) ++ '.' :: fraction p (n % 10 ^ p)).dropWhile Char.isDigit =
        '.' :: fraction p (n % 10 ^ p) := by
      rw [List.dropWhile_append_of_pos hwhole, List.dropWhile_cons_of_neg (by decide)]
    have htake : (Nat.toDigits 10 (n / 10 ^ p) ++ '.' :: fraction p (n % 10 ^ p)).takeWhile Char.isDigit =
        Nat.toDigits 10 (n / 10 ^ p) := by
      rw [List.takeWhile_append_of_pos hwhole, List.takeWhile_cons_of_neg (by decide), List.append_nil]
    rw [if_neg hp, hdrop, htake]
    change (if _ ∧ _ then some _ else none) = _
    rw [if_pos ⟨List.all_eq_true.mpr fun c hc => isDigit_of_mem_fraction hc, .inl Nat.toDigits_ne_nil⟩, hvalue,
      digitsValue, parseDigits_fraction, Option.getD_some, length_fraction hp (Nat.mod_lt n hpow)]
    have hsplit : (n : ℚ) = (n / 10 ^ p : ℕ) * 10 ^ p + (n % 10 ^ p : ℕ) := by
      have := Nat.div_add_mod' n (10 ^ p)
      exact_mod_cast this.symm
    have hten := (pow_pos_ten p).ne'
    rw [show (n : ℚ) / 10 ^ p = ((n / 10 ^ p : ℕ) * 10 ^ p + (n % 10 ^ p : ℕ)) / 10 ^ p by rw [← hsplit],
      add_div, mul_div_cancel_right₀ _ hten]

theorem parseNumber_body (p n : ℕ) : parseNumber (body p n) = some ((n : ℚ) / 10 ^ p) := by
  have hnotE : (body p n).dropWhile (fun c => !(c == 'e' || c == 'E')) = [] := by
    rw [List.dropWhile_eq_nil_iff]
    intro c hc
    rcases mem_body hc with hdigit | rfl
    · rw [Bool.not_eq_true', Bool.or_eq_false_iff, beq_eq_false_iff_ne, beq_eq_false_iff_ne]
      constructor <;> rintro rfl <;> exact absurd hdigit (by decide)
    · rfl
  unfold parseNumber
  dsimp only
  rw [hnotE]
  exact parseMantissa_body p n

/-- The text begins with a digit, behind the sign. -/
theorem exists_body_cons (p n : ℕ) : ∃ c cs, body p n = c :: cs ∧ c.isDigit = true := by
  unfold body
  cases hdigits : Nat.toDigits 10 (n / 10 ^ p) with
  | nil => exact absurd hdigits Nat.toDigits_ne_nil
  | cons c cs => exact ⟨c, _, rfl, isDigit_of_mem_toDigits (hdigits ▸ List.mem_cons_self)⟩

theorem parseSign_digit {c : Char} (hc : c.isDigit = true) (cs : List Char) : parseSign (c :: cs) = (1, c :: cs) := by
  unfold parseSign
  split
  · rename_i heq
    cases heq
    exact absurd hc (by decide)
  · rename_i heq
    cases heq
    exact absurd hc (by decide)
  · rfl

theorem parseSign_fixed (p : ℕ) (q : ℚ) :
    parseSign (fixed p q).toList = (if q < 0 then -1 else 1, body p (units p q)) := by
  rw [fixed, String.toList_ofList]
  split
  · rfl
  · obtain ⟨c, cs, hbody, hdigit⟩ := exists_body_cons p (units p q)
    rw [List.nil_append, hbody, parseSign_digit hdigit]

theorem toLower_of_isDigit {c : Char} (h : c.isDigit = true) : c.toLower = c := by
  unfold Char.toLower
  unfold Char.isDigit at h
  simp only [Bool.and_eq_true, decide_eq_true_eq] at h
  rw [dif_neg]
  rintro ⟨hupper, -⟩
  exact absurd (UInt32.le_trans hupper h.2) (by decide)

/-- Three hundred decimals are above the smallest number. -/
theorem pow_ten_lt : (10 : ℚ) ^ 300 < 2 ^ 1075 := by
  calc (10 : ℚ) ^ 300 = (10 ^ 3) ^ 100 := by rw [← pow_mul]
    _ < (2 ^ 10) ^ 100 := pow_lt_pow_left₀ (by norm_num) (by norm_num) (by norm_num)
    _ = 2 ^ 1000 := by rw [← pow_mul]
    _ ≤ 2 ^ 1075 := pow_le_pow_right₀ (by norm_num) (by norm_num)

/-- **What is written is read back.** -/
theorem parseF64_fixed {p : ℕ} {q : ℚ} (hp : p ≤ 300) (hq : |rounded p q| < 2 ^ 1024 - 2 ^ 970) :
    parseF64 (fixed p q) = some (some (rounded p q)) := by
  obtain ⟨c, cs, hbody, hdigit⟩ := exists_body_cons p (units p q)
  have hword : ∀ w : List Char, ((body p (units p q)).map Char.toLower = w) → w.head? = some c := by
    rintro w rfl
    rw [hbody, List.map_cons, List.head?_cons, toLower_of_isDigit hdigit]
  have hnot : ¬((body p (units p q)).map Char.toLower = "inf".toList ∨
      (body p (units p q)).map Char.toLower = "infinity".toList ∨
      (body p (units p q)).map Char.toLower = "nan".toList) := by
    rintro (h | h | h) <;> cases hword _ h <;> exact absurd hdigit (by decide)
  have hvalue : ((if q < 0 then -1 else 1 : ℤ) : ℚ) * ((units p q : ℚ) / 10 ^ p) = rounded p q := by
    unfold rounded
    push_cast
    rfl
  unfold parseF64
  rw [parseSign_fixed]
  dsimp only
  rw [if_neg hnot, parseNumber_body, Option.map_some, hvalue]
  unfold clampF64
  rw [if_neg (not_le.mpr hq)]
  split
  · -- a number this small is written as zero
    rename_i htiny
    have hzero : rounded p q = 0 := by
      obtain ⟨k, hk⟩ := rounded_onGrid p q
      have hpow := pow_pos_ten p
      by_contra hne
      have hk0 : k ≠ 0 := by
        rintro rfl
        exact hne (by rw [hk, Int.cast_zero, zero_mul])
      have hone : (1 : ℚ) ≤ |(k : ℚ)| := by exact_mod_cast Int.one_le_abs hk0
      have hgrid : 1 / 10 ^ p ≤ |rounded p q| := by
        rw [hk, abs_mul, abs_of_pos (one_div_pos.mpr hpow)]
        exact le_mul_of_one_le_left (one_div_pos.mpr hpow).le hone
      have hsmall : (1 : ℚ) / 2 ^ 1075 < 1 / 10 ^ 300 := one_div_lt_one_div_of_lt (by positivity) pow_ten_lt
      have hmono : (1 : ℚ) / 10 ^ 300 ≤ 1 / 10 ^ p :=
        one_div_le_one_div_of_le hpow (pow_le_pow_right₀ (by norm_num) hp)
      exact absurd ((hgrid.trans htiny).trans_lt (hsmall.trans_le hmono)) (lt_irrefl _)
    rw [hzero]
  · rfl

example : fixed 2 (5 / 2) = "2.50" := by decide +kernel
example : fixed 0 (5 / 2) = "2" := by decide +kernel
example : fixed 4 (-1 / 100000) = "-0.0000" := by decide +kernel

end Decimal
