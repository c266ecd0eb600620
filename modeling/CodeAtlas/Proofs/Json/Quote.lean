import CodeAtlas.Json.Basic
import CodeAtlas.Json.Draft

/-!
# `CodeAtlas.Proofs.Json.Quote`: strings as they are written

`readString_quote`: a string is read up to its closing quote, whatever characters it has. Each
character is one piece of the string, escaped or not (`readString_escape`).
-/

set_option autoImplicit false

namespace CodeAtlas.Json

namespace Draft

/-- A hexadecimal digit is read back. There are sixteen of them, so all are tried. -/
theorem hexValue?_hexDigit {n : Nat} (h : n < 16) : hexValue? (hexDigit n) = some n := by
  have hall : ∀ k < 16, hexValue? (hexDigit k) = some k := by decide
  exact hall n h

/-- A character below the space is read from the four digits of its number. -/
theorem readUnicode_hexDigit {c : Char} (h : c.toNat < 32) (rest : List Char) :
    readUnicode ('0' :: '0' :: hexDigit (c.toNat / 16) :: hexDigit (c.toNat % 16) :: rest)
      = .ok (some c, rest) := by
  have hhigh := hexValue?_hexDigit (show c.toNat / 16 < 16 by omega)
  have hlow := hexValue?_hexDigit (show c.toNat % 16 < 16 by omega)
  have hzero : hexValue? '0' = some 0 := by decide
  have hsum : ((0 * 16 + 0) * 16 + c.toNat / 16) * 16 + c.toNat % 16 = c.toNat := by omega
  have hhex : readHex ('0' :: '0' :: hexDigit (c.toNat / 16) :: hexDigit (c.toNat % 16) :: rest)
      = .ok (c.toNat, rest) := by
    rw [readHex, hzero, hhigh, hlow]
    show Except.ok (((0 * 16 + 0) * 16 + c.toNat / 16) * 16 + c.toNat % 16, rest) = _
    rw [hsum]
  rw [readUnicode, hhex]
  show (if _ then _ else _) = _
  -- A character below the space is no half of a surrogate pair.
  rw [if_neg (by simp; omega), if_neg (by simp; omega), Char.ofNat_toNat]
  rfl

/-- A character that is not escaped stands for itself. -/
theorem readString_cons {c : Char} (hquote : c ≠ '"') (hback : c ≠ '\\') (hlow : ¬ c.toNat < 32)
    (bound : Nat) (seen rest : List Char) :
    readString (bound + 1) (some seen) (c :: rest) = readString bound (some (c :: seen)) rest := by
  rw [readString.eq_def]
  split
  case h_7 hsucc heq =>
    obtain rfl := Nat.succ.inj hsucc
    obtain ⟨rfl, rfl⟩ := List.cons.inj heq
    exact if_neg hlow
  all_goals simp_all

/-- One character, however it is written, is one piece of a string. -/
theorem readString_escape (bound : Nat) (seen : List Char) (c : Char) (rest : List Char) :
    readString (bound + 1) (some seen) (escape c ++ rest)
      = readString bound (some (c :: seen)) rest := by
  by_cases hshort : c ∈ ['"', '\\', '\x08', '\x0c', '\n', '\r', '\t']
  · -- The escapes of one letter.
    simp only [List.mem_cons, List.not_mem_nil, or_false] at hshort
    obtain rfl | rfl | rfl | rfl | rfl | rfl | rfl := hshort
    all_goals rfl
  · simp only [List.mem_cons, List.not_mem_nil, or_false, not_or] at hshort
    obtain ⟨hquote, hback, hbackspace, hfeed, hline, hreturn, htab⟩ := hshort
    rw [escape, if_neg hquote, if_neg hback, if_neg hbackspace, if_neg hfeed, if_neg hline,
      if_neg hreturn, if_neg htab]
    split
    · -- What is written as a number is below the space.
      rename_i hlow
      show (readUnicode ('0' :: '0' :: _) >>= _) = _
      rw [List.append_eq, List.cons_append, List.cons_append, List.nil_append,
        readUnicode_hexDigit hlow]
      rfl
    · rename_i hlow
      exact readString_cons hquote hback hlow bound seen rest

/-- A string is read up to its closing quote. -/
theorem readString_flatMap_escape (text : List Char) {bound : Nat} (hbound : text.length < bound)
    (seen rest : List Char) :
    readString bound (some seen) (text.flatMap escape ++ '"' :: rest)
      = .ok (some (seen.reverse ++ text), rest) := by
  -- The bound is spent with each character, and the text read so far grows, so both are arbitrary.
  induction text generalizing bound seen with
  | nil =>
    obtain ⟨bound, rfl⟩ := Nat.exists_eq_succ_of_ne_zero (by omega : bound ≠ 0)
    rw [List.append_nil]
    rfl
  | cons c text ih =>
    rw [List.length_cons] at hbound
    obtain ⟨bound, rfl⟩ := Nat.exists_eq_succ_of_ne_zero (by omega : bound ≠ 0)
    rw [List.flatMap_cons, List.append_assoc, readString_escape, ih (by omega),
      List.reverse_cons, List.append_assoc]
    rfl

/-- Escaping makes no text shorter, so a bound by the escaped text is enough for the text. -/
theorem length_le_length_flatMap_escape (text : List Char) :
    text.length ≤ (text.flatMap escape).length := by
  induction text with
  | nil => exact Nat.le_refl 0
  | cons c text ih =>
    have hpos : 0 < (escape c).length := by
      rw [escape]
      repeat' split
      all_goals simp
    rw [List.flatMap_cons, List.length_append, List.length_cons]
    omega

/-- The inside of a string is read with as many steps as there are characters. -/
theorem readString_quote (text rest : List Char) :
    readString ((text.flatMap escape ++ '"' :: rest).length + 1) (some [])
        (text.flatMap escape ++ '"' :: rest)
      = .ok (some text, rest) := by
  have hle := length_le_length_flatMap_escape text
  refine readString_flatMap_escape text ?_ [] rest
  rw [List.length_append]
  omega

end Draft

/-- A quoted text begins with its first quote, which is how a reader tells it. -/
theorem quote_append (text rest : List Char) :
    quote text ++ rest = '"' :: (text.flatMap escape ++ '"' :: rest) := by
  simp [quote]

end CodeAtlas.Json
