import Mathlib.Algebra.Order.Ring.Rat
import Mathlib.Algebra.Order.Field.Rat
import Mathlib.Data.List.Basic

/-!
# Text primitives

`strip_prefix`, `split` and the numeric parsers of the Rust standard library, on strings read
as character lists.  `parseF64` follows the grammar of `f64::from_str` and returns the exact
rational; only the ends of the `f64` range are rounded (to the infinities and to zero).
-/

namespace Text

/-- `str::strip_prefix`. -/
def stripLeading (p s : List Char) : Option (List Char) :=
  if p.isPrefixOf s then some (s.drop p.length) else none

theorem stripLeading_append (p s : List Char) : stripLeading p (p ++ s) = some s := by
  simp [stripLeading]

/-! ## Separated fields -/

/-- What follows the last separator is determined by the text. -/
theorem append_sep_inj {α : Type*} [DecidableEq α] {c : α} {xs ys ds es : List α}
    (hd : c ∉ ds) (he : c ∉ es) (h : xs ++ c :: ds = ys ++ c :: es) : ds = es := by
  have tail : ∀ xs ds : List α, c ∉ ds →
      (xs ++ c :: ds).reverse.takeWhile (fun x => decide (x ≠ c)) = ds.reverse := by
    intro xs ds hd
    rw [List.reverse_append, List.reverse_cons, List.append_assoc, List.takeWhile_append_of_pos]
    · simp
    · intro a ha
      have : a ≠ c := by rintro rfl; exact hd (List.mem_reverse.mp ha)
      simpa using this
  have := tail xs ds hd
  rw [h, tail ys es he] at this
  exact (List.reverse_injective this).symm

theorem underscore_notMem_toString (n : Nat) : '_' ∉ (toString n).toList := by
  rw [Nat.toString_eq_repr, Nat.toList_repr]
  exact Nat.underscore_not_in_toDigits

theorem toString_toList_inj {a b : Nat} (h : (toString a).toList = (toString b).toList) : a = b := by
  rw [Nat.toString_eq_repr, Nat.toString_eq_repr, Nat.toList_repr, Nat.toList_repr] at h
  have := congrArg (fun l => Nat.ofDigitChars 10 l 0) h
  simpa using this

/-- The field between the first two separators. -/
theorem splitOn_second {xs ys zs : List Char} (hx : '_' ∉ xs) (hy : '_' ∉ ys) :
    ((xs ++ '_' :: (ys ++ '_' :: zs)).splitOn '_')[1]? = some ys := by
  rw [List.splitOn_append_cons_self_of_not_mem hx, List.splitOn_append_cons_self_of_not_mem hy]
  rfl

/-- The number after the last underscore is determined by the text. -/
theorem last_number_inj {p p' : String} {n n' : Nat}
    (h : p ++ "_" ++ toString n = p' ++ "_" ++ toString n') : n = n' := by
  have h' : p.toList ++ '_' :: (toString n).toList = p'.toList ++ '_' :: (toString n').toList := by
    have := congrArg String.toList h
    simpa [String.toList_append] using this
  exact toString_toList_inj
    (append_sep_inj (underscore_notMem_toString n) (underscore_notMem_toString n') h')

/-! ## Numbers -/

/-- The value of a string of decimal digits; `none` if empty or if another character occurs. -/
def parseDigits (s : List Char) : Option Nat :=
  if s ≠ [] ∧ s.all Char.isDigit then
    some (s.foldl (fun n c => 10 * n + (c.toNat - '0'.toNat)) 0)
  else none

/-- `str::parse::<u64>`: an optional `+`, digits, and a value that fits. -/
def parseU64 (s : List Char) : Option Nat :=
  match parseDigits ((stripLeading ['+'] s).getD s) with
  | some n => if n < 18446744073709551616 then some n else none
  | none => none

/-- A printed number is read back. -/
theorem parseDigits_toString (n : Nat) : parseDigits (toString n).toList = some n := by
  have hdigits : ∀ c ∈ Nat.toDigits 10 n, c.isDigit = true := fun c hc =>
    Nat.isDigit_of_mem_toDigits (by decide) (Nat.le_refl 10) hc
  rw [Nat.toString_eq_repr, Nat.toList_repr, parseDigits,
    if_pos ⟨Nat.toDigits_ne_nil, List.all_eq_true.mpr hdigits⟩, ← Nat.ofDigitChars_eq_foldl,
    Nat.ofDigitChars_ten_toDigits]

theorem parseU64_toString {n : Nat} (hn : n < 18446744073709551616) :
    parseU64 (toString n).toList = some n := by
  -- no digit is the optional sign
  have hplus : stripLeading ['+'] (toString n).toList = none := by
    rw [Nat.toString_eq_repr, Nat.toList_repr]
    cases hdigits : Nat.toDigits 10 n with
    | nil => rfl
    | cons c cs =>
      have hc : c.isDigit = true := Nat.isDigit_of_mem_toDigits (by decide) (Nat.le_refl 10)
        (hdigits ▸ List.mem_cons_self)
      have hne : ('+' == c) = false := by
        rw [beq_eq_false_iff_ne]
        rintro rfl
        exact absurd hc (by decide)
      simp [stripLeading, List.isPrefixOf, hne]
  rw [parseU64, hplus, Option.getD_none, parseDigits_toString]
  exact if_pos hn

/-- An optional sign: the factor and the remaining characters. -/
def parseSign : List Char → ℤ × List Char
  | '-' :: s => (-1, s)
  | '+' :: s => (1, s)
  | s => (1, s)

/-- The digits of a possibly absent digit string. -/
def digitsValue (s : List Char) : Nat := (parseDigits s).getD 0

/-- `Digit+ | Digit+ '.' Digit* | Digit* '.' Digit+`. -/
def parseMantissa (s : List Char) : Option ℚ :=
  let whole := s.takeWhile Char.isDigit
  match s.dropWhile Char.isDigit with
  | [] => if whole = [] then none else some (digitsValue whole)
  | '.' :: fraction =>
    if fraction.all Char.isDigit ∧ (whole ≠ [] ∨ fraction ≠ []) then
      some (digitsValue whole + (digitsValue fraction : ℚ) / 10 ^ fraction.length)
    else none
  | _ => none

/-- `Sign? Digit+` after the exponent letter. -/
def parseExponent (s : List Char) : Option ℤ :=
  let (sign, digits) := parseSign s
  (parseDigits digits).map fun n => sign * n

/-- `Number`: a mantissa and an optional exponent. -/
def parseNumber (s : List Char) : Option ℚ :=
  let isE := fun c => c == 'e' || c == 'E'
  match s.dropWhile (fun c => !isE c) with
  | [] => parseMantissa s
  | _ :: exponent =>
    match parseMantissa (s.takeWhile fun c => !isE c), parseExponent exponent with
    | some q, some e => some (q * 10 ^ e)
    | _, _ => none

/-- Out of range values become infinite (`none`) or zero. -/
def clampF64 (q : ℚ) : Option ℚ :=
  if 2 ^ 1024 - 2 ^ 970 ≤ |q| then none else if |q| ≤ 1 / 2 ^ 1075 then some 0 else some q

/-- `str::parse::<f64>`: `none` is a parse error, `some none` a NaN or an infinity. -/
def parseF64 (s : String) : Option (Option ℚ) :=
  let (sign, body) := parseSign s.toList
  let word := body.map Char.toLower
  if word = "inf".toList ∨ word = "infinity".toList ∨ word = "nan".toList then some none
  else (parseNumber body).map fun q => clampF64 (sign * q)

/-- The message of a `ParseFloatError`. -/
def parseFloatError (s : String) : String :=
  if s = "" then "cannot parse float from empty string" else "invalid float literal"

example : parseF64 "0.0004" = some (some (4 / 10000)) := by decide +kernel
example : parseF64 "-1.5e1" = some (some (-15)) := by decide +kernel
example : parseF64 "." = none := by decide +kernel

end Text
