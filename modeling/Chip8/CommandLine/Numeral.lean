/-!
# Numerals on the command line

Numbers are written in decimal, with leading zeros if one likes and an optional sign. Only ASCII
digits count. A numeral is taken if its value is in range, whatever its length.

There are two forms, which differ in the minus sign: a numeral for a count has none, and a numeral
for a rate may have one, so `-0` is a rate and no count.
-/

namespace Chip8

namespace CommandLine

/-- The value of a digit. -/
def digitValue? (c : Char) : Option Nat :=
  if '0' ≤ c ∧ c ≤ '9' then some (c.toNat - '0'.toNat) else none

/-- The value of digits that follow the digits of `n`. -/
def digitsValue? (n : Nat) : List Char → Option Nat
  | [] => some n
  | c :: cs => do digitsValue? (10 * n + (← digitValue? c)) cs

/-- The value of one or more digits. -/
def magnitude? : List Char → Option Nat
  | [] => none
  | cs => digitsValue? 0 cs

/-- The value of a count below a limit: digits, with a plus sign before them or not. -/
def count? (limit : Nat) (cs : List Char) : Option Nat :=
  let digits := match cs with
    | '+' :: rest => rest
    | _ => cs
  (magnitude? digits).filter (· < limit)

/-- The value of a rate below a limit: a count, or a zero with a minus sign. -/
def rate? (limit : Nat) : List Char → Option Nat
  | '-' :: digits => (magnitude? digits).filter (· = 0)
  | cs => count? limit cs

/-! ### What numerals stand for -/

/-- The number that digits stand for. -/
def decimal (digits : List Char) : Nat :=
  digits.foldl (fun n c ↦ 10 * n + (c.toNat - '0'.toNat)) 0

/-- Characters that stand for a number: one or more digits, with a plus sign before them or not. -/
def IsNumeral (n : Nat) (cs : List Char) : Prop :=
  ∃ digits, digits ≠ [] ∧ (∀ c ∈ digits, c.isDigit = true) ∧ decimal digits = n ∧
    (cs = digits ∨ cs = '+' :: digits)

theorem digitValue?_eq (c : Char) :
    digitValue? c = if c.isDigit then some (c.toNat - '0'.toNat) else none := by
  rw [digitValue?]
  congr 1
  simp [Char.isDigit, Char.le_def]

theorem digitsValue?_eq_some_iff {n k : Nat} {cs : List Char} :
    digitsValue? n cs = some k ↔ (∀ c ∈ cs, c.isDigit = true) ∧
      cs.foldl (fun n c ↦ 10 * n + (c.toNat - '0'.toNat)) n = k := by
  induction cs generalizing n with
  | nil => simp [digitsValue?]
  | cons c cs ih =>
    rw [digitsValue?, digitValue?_eq]
    by_cases hc : c.isDigit = true
    · simp [hc, ih]
    · simp [hc]

/-- Digits are read as the number they stand for, and nothing else is read. -/
theorem magnitude?_eq_some_iff {n : Nat} {cs : List Char} :
    magnitude? cs = some n ↔ cs ≠ [] ∧ (∀ c ∈ cs, c.isDigit = true) ∧ decimal cs = n := by
  cases cs with
  | nil => simp [magnitude?]
  | cons c cs =>
    rw [magnitude?, digitsValue?_eq_some_iff]
    · simp [decimal]
    · simp

/-- **A count is read exactly if it is a numeral of a number below the limit.** -/
theorem count?_eq_some_iff {limit n : Nat} {cs : List Char} :
    count? limit cs = some n ↔ n < limit ∧ IsNumeral n cs := by
  have hplus : ¬ '+'.isDigit = true := by decide
  unfold count? IsNumeral
  rw [Option.filter_eq_some_iff, decide_eq_true_iff, and_comm]
  refine and_congr_right fun _ ↦ ?_
  split
  next rest =>
    rw [magnitude?_eq_some_iff]
    constructor
    · rintro ⟨hne, hdigits, hvalue⟩
      exact ⟨rest, hne, hdigits, hvalue, .inr rfl⟩
    · rintro ⟨digits, hne, hdigits, hvalue, rfl | h⟩
      · exact absurd (hdigits '+' (by simp)) hplus
      · obtain rfl := List.tail_eq_of_cons_eq h
        exact ⟨hne, hdigits, hvalue⟩
  next hsign =>
    rw [magnitude?_eq_some_iff]
    constructor
    · rintro ⟨hne, hdigits, hvalue⟩
      exact ⟨cs, hne, hdigits, hvalue, .inl rfl⟩
    · rintro ⟨digits, hne, hdigits, hvalue, rfl | h⟩
      · exact ⟨hne, hdigits, hvalue⟩
      · exact absurd h (hsign digits)

/-- Without a minus sign, a rate is read like a count. -/
theorem rate?_eq_count? {cs : List Char} (h : cs.head? ≠ some '-') (limit : Nat) :
    rate? limit cs = count? limit cs := by
  rw [rate?]
  rintro digits rfl
  exact h rfl

end CommandLine

end Chip8
