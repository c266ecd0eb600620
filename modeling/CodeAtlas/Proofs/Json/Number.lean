import CodeAtlas.Json.Basic
import CodeAtlas.Json.Draft
import CodeAtlas.Json.Number
import Mathlib.Data.List.Basic
import Mathlib.Data.List.TakeWhile

/-!
# `CodeAtlas.Proofs.Json.Number`: integers as they are written

An integer is written by its decimal digits, without a zero at the front unless it is zero, and
behind a minus sign if it is negative. The theorems:

* `readNumber_intDigits`: what is written is read as a number if what follows cannot belong to one.
* `integer?_intDigits`: the number that is read is the number that was written.
* `not_tooLarge_intDigits`: a number of 64 bits is not too large.
-/

set_option autoImplicit false

namespace CodeAtlas.Json

variable {n : Nat}

/-- What stands in the decimal form of a number are digits. -/
theorem isDigit_of_mem_toDigits {c : Char} (h : c ∈ Nat.toDigits 10 n) : c.isDigit = true :=
  Nat.isDigit_of_mem_toDigits (by omega) (by omega) h

/-- A natural number is written without a sign. -/
theorem intDigits_natCast (n : Nat) : intDigits n = Nat.toDigits 10 n := by
  rw [intDigits, if_neg (by omega), Int.natAbs_natCast]

/-- Whether a number may begin with a character. -/
def startsNumber (c : Char) : Bool :=
  c = '-' || c.isDigit

/-- What a number begins with is none of the characters that mean something else. -/
theorem ne_of_startsNumber {c d : Char} (hc : startsNumber c = true) (hd : startsNumber d = false) :
    c ≠ d := by
  rintro rfl
  rw [hc] at hd
  exact absurd hd (by decide)

/-- The decimal form of a number begins with a digit, so it is taken for a number. -/
theorem exists_digit_cons (n : Nat) :
    ∃ c cs, Nat.toDigits 10 n = c :: cs ∧ c.isDigit = true := by
  obtain ⟨c, cs, hdigits⟩ := List.exists_cons_of_ne_nil (Nat.toDigits_ne_nil (n := n) (b := 10))
  exact ⟨c, cs, hdigits, isDigit_of_mem_toDigits (hdigits ▸ List.mem_cons_self)⟩

/-- An integer is written with one character or more. -/
theorem exists_cons_intDigits (n : Int) :
    ∃ c cs, intDigits n = c :: cs ∧ startsNumber c = true := by
  rw [intDigits]
  split
  · exact ⟨_, _, rfl, by decide⟩
  · obtain ⟨c, cs, hdigits, hc⟩ := exists_digit_cons n.natAbs
    exact ⟨c, cs, hdigits, by rw [startsNumber, hc, Bool.or_true]⟩

/-! ### Reading digits -/

/-- Whether a text cannot go on with a number that stands before it. -/
def Stops : List Char → Prop
  | [] => True
  | c :: _ => c.isDigit = false ∧ c ≠ '.' ∧ c ≠ 'e' ∧ c ≠ 'E'

namespace Draft

variable {rest : List Char}

/-- The digits in front of a text are told from what stops them. -/
theorem takeWhile_isDigit_append {ds : List Char} (hds : ∀ c ∈ ds, c.isDigit = true)
    (h : Stops rest) :
    (ds ++ rest).takeWhile Char.isDigit = ds ∧ (ds ++ rest).dropWhile Char.isDigit = rest := by
  have hrest : rest.takeWhile Char.isDigit = [] ∧ rest.dropWhile Char.isDigit = rest := by
    cases rest with
    | nil => exact ⟨rfl, rfl⟩
    | cons c rest => simp [h.1]
  rw [List.takeWhile_append_of_pos hds, List.dropWhile_append_of_pos hds, hrest.1, hrest.2,
    List.append_nil]
  exact ⟨rfl, rfl⟩

/-- The digits of a number are read up to what stops them. -/
theorem readDigits_toDigits (n : Nat) (h : Stops rest) :
    readDigits (Nat.toDigits 10 n ++ rest) = .ok (Nat.toDigits 10 n, rest) := by
  obtain ⟨htake, hdrop⟩ :=
    takeWhile_isDigit_append (fun _ hc => isDigit_of_mem_toDigits (n := n) hc) h
  rw [readDigits, htake, hdrop]
  split
  · rename_i hnil
    exact absurd hnil Nat.toDigits_ne_nil
  · rfl

/-- Only zero is written with a zero at the front. -/
theorem head?_toDigits_ne {n : Nat} (hn : n ≠ 0) : (Nat.toDigits 10 n).head? ≠ some '0' := by
  induction n using Nat.strongRecOn with
  | ind n ih =>
    rw [Nat.toDigits_eq_if (by omega)]
    split
    · rename_i hlt
      rw [List.head?_cons]
      have hone : ∀ k < 10, k ≠ 0 → k.digitChar ≠ '0' := by decide
      exact fun hzero => hone n hlt hn (Option.some.inj hzero)
    · rw [List.head?_append_of_ne_nil _ Nat.toDigits_ne_nil]
      exact ih (n / 10) (by omega) (by omega)

/-- The digits of a number are read as a whole number. A zero is read alone, for no number is
written with a zero in front. -/
theorem readWhole_toDigits (n : Nat) (h : Stops rest) :
    readWhole (Nat.toDigits 10 n ++ rest) = .ok (Nat.toDigits 10 n, rest) := by
  by_cases hn : n = 0
  · subst hn
    show readWhole ('0' :: rest) = .ok (['0'], rest)
    cases rest with
    | nil => rfl
    | cons c rest =>
      show (if c.isDigit = true then _ else _) = _
      rw [if_neg (by simp [h.1])]
  · rw [readWhole.eq_def]
    split
    · -- The text would begin with a zero.
      rename_i heq
      have hhead := congrArg List.head? heq
      rw [List.head?_append_of_ne_nil _ Nat.toDigits_ne_nil] at hhead
      exact absurd hhead (head?_toDigits_ne hn)
    · exact readDigits_toDigits n h

/-- No fraction is read where there is no point. -/
theorem readFraction_of_stops (h : Stops rest) : readFraction rest = .ok ([], rest) := by
  rw [readFraction.eq_def]
  split
  · exact absurd rfl h.2.1
  · rfl

/-- No exponent is read where there is no letter for it. -/
theorem readExponent_of_stops (h : Stops rest) : readExponent rest = .ok ([], rest) := by
  cases rest with
  | nil => rfl
  | cons c rest =>
    show (if (c = 'e' || c = 'E') = true then _ else _) = _
    rw [if_neg (by simp [h.2.2.1, h.2.2.2])]

/-- The digits of a number are read as a number without a fraction and without an exponent. -/
theorem readUnsigned_toDigits (n : Nat) (h : Stops rest) :
    readUnsigned (Nat.toDigits 10 n ++ rest) = .ok (Nat.toDigits 10 n, rest) := by
  rw [readUnsigned, readWhole_toDigits n h]
  show (readFraction rest >>= _) = _
  rw [readFraction_of_stops h]
  show (readExponent rest >>= _) = _
  rw [readExponent_of_stops h]
  show Except.ok (Nat.toDigits 10 n ++ [] ++ [], rest) = _
  rw [List.append_nil, List.append_nil]

/-- An integer is read as a number. -/
theorem readNumber_intDigits (n : Int) (h : Stops rest) :
    readNumber (intDigits n ++ rest) = .ok (intDigits n, rest) := by
  have hread := readUnsigned_toDigits n.natAbs h
  -- The cases are those of the writer: a number below zero has its sign written.
  rw [intDigits]
  split
  · show (readUnsigned (Nat.toDigits 10 n.natAbs ++ rest) >>= _) = _
    rw [hread]
    rfl
  · rw [readNumber.eq_def]
    split
    · -- The sign would be a digit.
      rename_i more heq
      obtain ⟨c, ds, hdigits, hc⟩ := exists_digit_cons n.natAbs
      rw [hdigits, List.cons_append, List.cons.injEq] at heq
      rw [heq.1] at hc
      exact absurd hc (by decide)
    · exact hread

end Draft

/-! ### The number that is meant -/

/-- An integer is a sign and a whole number. -/
theorem NumberParts.ofText_intDigits (n : Int) :
    NumberParts.ofText (intDigits n)
      = ⟨decide (n < 0), Nat.toDigits 10 n.natAbs, [], 0, false⟩ := by
  -- The digits go on to the end, so there is neither a fraction nor an exponent.
  have hwhole : (Nat.toDigits 10 n.natAbs).takeWhile Char.isDigit = Nat.toDigits 10 n.natAbs :=
    List.takeWhile_eq_self_iff.mpr fun _ hc => isDigit_of_mem_toDigits hc
  have hsign : (Nat.toDigits 10 n.natAbs).head? ≠ some '-' := by
    intro hhead
    exact absurd (isDigit_of_mem_toDigits (List.mem_of_mem_head? hhead)) (by decide)
  rw [NumberParts.ofText, intDigits]
  split
  · rename_i hneg
    simp [hneg, hwhole, exponentValue, digitsValue]
  · rename_i hneg
    simp [hneg, hsign, hwhole, exponentValue, digitsValue]

/-- The value of the digits of a number is the number. -/
theorem digitsValue_toDigits (n : Nat) : digitsValue (Nat.toDigits 10 n) = n := by
  show Nat.ofDigitChars 10 (Nat.toDigits 10 n) 0 = n
  exact Nat.ofDigitChars_ten_toDigits

/-- An integer is read as what it was written from. -/
theorem integer?_intDigits (n : Int) : integer? (intDigits n) = some n := by
  rw [integer?, NumberParts.ofText_intDigits]
  by_cases hneg : n < 0
  · have hne : n.natAbs ≠ 0 := by omega
    have hvalue : -(n.natAbs : Int) = n := by omega
    generalize n.natAbs = m at hne hvalue ⊢
    simp [digitsValue_toDigits, hneg, hne, hvalue]
  · have hvalue : (n.natAbs : Int) = n := by omega
    generalize n.natAbs = m at hvalue ⊢
    simp [digitsValue_toDigits, hneg, hvalue]

/-- Whether a natural number has at most 64 bits. -/
def Has64Bits (n : Nat) : Prop :=
  n ≤ 0xffffffffffffffff

instance (n : Nat) : Decidable (Has64Bits n) :=
  inferInstanceAs (Decidable (n ≤ _))

/-- A number of 64 bits is far from too large. -/
theorem not_tooLarge_intDigits {n : Int} (h : Has64Bits n.natAbs) :
    tooLarge (intDigits n) = false := by
  have hlimit : 0xffffffffffffffff < (1 <<< 1024) - (1 <<< 970) := by decide
  rw [tooLarge, NumberParts.ofText_intDigits]
  generalize (1 <<< 1024) - (1 <<< 970) = limit at hlimit ⊢
  have hsmall : ¬ limit ≤ n.natAbs := Nat.not_le.mpr (Nat.lt_of_le_of_lt h hlimit)
  simp [digitsValue_toDigits, tenTo, hsmall]

end CodeAtlas.Json
