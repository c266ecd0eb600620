import CodeAtlas.Json.Decode
import CodeAtlas.Proofs.Json.Number
import CodeAtlas.Proofs.Json.Quote
import CodeAtlas.Proofs.Json.Spaced

/-!
# `CodeAtlas.Proofs.Json.Written`: texts that were written are read back

`Json.draft` is the draft of a value that was written out in full. The theorems:

* `reads_of_plain`: a value is read as its draft, whatever space it is written with and whatever
  comes behind it, unless that could go on with a number. It is the induction over the values;
  inside an array or an object it is one over the parts that follow the first one.
* `ofText_compact`, `ofText_prettyAt`: a whole text, in either form.
* `strictFault?_draft`: the draft of a value has no faults.

Numbers are integers of 64 bits (`Json.Plain`), as all that are written here.
-/

set_option autoImplicit false

namespace CodeAtlas.Json

/-- What holds of an array if it holds of its items, of an object if it holds of the values of its
members, and of all other values, holds of every value. -/
@[induction_eliminator]
theorem inductionOn {motive : Json → Prop} (null : motive .null) (bool : ∀ b, motive (.bool b))
    (number : ∀ text, motive (.number text)) (string : ∀ text, motive (.string text))
    (array : ∀ items, (∀ i ∈ items, motive i) → motive (.array items))
    (object : ∀ members : List (List Char × Json), (∀ m ∈ members, motive m.2) →
      motive (.object members))
    (j : Json) : motive j :=
  @Json.rec motive (fun items => ∀ i ∈ items, motive i) (fun members => ∀ m ∈ members, motive m.2)
    (fun m => motive m.2) null bool number string array object
    (fun _ hi => absurd hi List.not_mem_nil)
    (fun _ _ hitem hitems => List.forall_mem_cons.mpr ⟨hitem, hitems⟩)
    (fun _ hm => absurd hm List.not_mem_nil)
    (fun _ _ hm hmembers => List.forall_mem_cons.mpr ⟨hm, hmembers⟩) (fun _ _ hvalue => hvalue) j

mutual

/-- The draft of a value. -/
def draft : Json → Draft
  | .null => .null
  | .bool b => .bool b
  | .number text => .number text
  | .string text => .string (some text)
  | .array items => .array (draftItems items) .closed
  | .object members => .object (draftMembers members) .closed

/-- The drafts of the items of an array. -/
def draftItems : List Json → List Draft
  | [] => []
  | item :: items => draft item :: draftItems items

/-- The drafts of the members of an object. -/
def draftMembers : List (List Char × Json) → List (Option (List Char) × Draft)
  | [] => []
  | (name, value) :: members => (some name, draft value) :: draftMembers members

end

mutual

/-- Whether all numbers in a value are integers of 64 bits. -/
def Plain : Json → Prop
  | .null | .bool _ | .string _ => True
  | .number text => ∃ n : Int, Has64Bits n.natAbs ∧ text = intDigits n
  | .array items => PlainItems items
  | .object members => PlainMembers members

/-- The same for the items of an array. -/
def PlainItems : List Json → Prop
  | [] => True
  | item :: items => Plain item ∧ PlainItems items

/-- The same for the members of an object. -/
def PlainMembers : List (List Char × Json) → Prop
  | [] => True
  | (_, value) :: members => Plain value ∧ PlainMembers members

end

/-- The members of an object are read one by one, each with its name. -/
theorem draftMembers_eq_map (members : List (List Char × Json)) :
    draftMembers members = members.map fun m => (some m.1, draft m.2) := by
  induction members with
  | nil => rfl
  | cons m members ih => rw [draftMembers, ih, List.map_cons]

/-- Items are plain if each of them is. The definition goes through the list, as it is mutual with
that of documents. -/
theorem plainItems_iff {items : List Json} : PlainItems items ↔ ∀ item ∈ items, item.Plain := by
  induction items with
  | nil => simp [PlainItems]
  | cons item items ih => rw [PlainItems, ih, List.forall_mem_cons]

/-- Members are plain if each of their values is. -/
theorem plainMembers_iff {members : List (List Char × Json)} :
    PlainMembers members ↔ ∀ m ∈ members, m.2.Plain := by
  induction members with
  | nil => simp [PlainMembers]
  | cons m members ih => rw [PlainMembers, ih, List.forall_mem_cons]

/-! ### Values -/

/-- Space stops a number, and behind no space what follows has to stop it. -/
theorem stops_append {gap cs : List Char} (hgap : ∀ c ∈ gap, Draft.isSpace c = true)
    (h : Stops cs) : Stops (gap ++ cs) := by
  cases gap with
  | nil => exact h
  | cons c gap =>
    have hc := hgap c List.mem_cons_self
    simp only [Draft.isSpace, Bool.or_eq_true, decide_eq_true_eq] at hc
    obtain ((rfl | rfl) | rfl) | rfl := hc
    all_goals exact ⟨by decide, by decide, by decide, by decide⟩

/-- What follows an item stops a number: a comma, space, or the bracket that closes the array. -/
theorem stops_spacedItems (s : Spacing) (level : Nat) (items : List Json) (rest : List Char) :
    Stops (spacedItems s level items ++ rest) := by
  cases items with
  | nil =>
    rw [spacedItems, List.append_assoc]
    exact stops_append (s.line_isSpace level) ⟨by decide, by decide, by decide, by decide⟩
  | cons item items => exact ⟨by decide, by decide, by decide, by decide⟩

/-- What follows the value of a member stops a number: a comma, space, or the brace that closes the
object. -/
theorem stops_spacedMembers (s : Spacing) (level : Nat) (members : List (List Char × Json))
    (rest : List Char) : Stops (spacedMembers s level members ++ rest) := by
  cases members with
  | nil =>
    rw [spacedMembers, List.append_assoc]
    exact stops_append (s.line_isSpace level) ⟨by decide, by decide, by decide, by decide⟩
  | cons m members => exact ⟨by decide, by decide, by decide, by decide⟩

namespace Draft

/-- What a number begins with is no space, so it is not skipped. -/
theorem isSpace_of_startsNumber {c : Char} (hc : startsNumber c = true) : isSpace c = false := by
  simp [isSpace, ne_of_startsNumber hc (show startsNumber ' ' = false by decide),
    ne_of_startsNumber hc (show startsNumber '\n' = false by decide),
    ne_of_startsNumber hc (show startsNumber '\t' = false by decide),
    ne_of_startsNumber hc (show startsNumber '\r' = false by decide)]

/-- Nothing is skipped in front of what is no space. -/
theorem skipSpace_cons {c : Char} (hc : isSpace c = false) (cs : List Char) :
    skipSpace (c :: cs) = c :: cs := by
  rw [skipSpace, List.dropWhile_cons_of_neg (by rw [hc]; decide)]

/-- Space in front of a text is skipped. -/
theorem skipSpace_append {gap : List Char} (hgap : ∀ c ∈ gap, isSpace c = true) (cs : List Char) :
    skipSpace (gap ++ cs) = skipSpace cs :=
  List.dropWhile_append_of_pos hgap

/-- A value is read alike with or without space in front of it, so the spacing of a document plays
no part. -/
theorem readValue_append {gap : List Char} (hgap : ∀ c ∈ gap, isSpace c = true) (bound : Nat)
    (cs : List Char) : readValue bound (gap ++ cs) = readValue bound cs := by
  cases bound with
  | zero => rfl
  | succ bound =>
    rw [readValue.eq_def, readValue.eq_def]
    simp only [skipSpace_append hgap]

/-- A number is read where a value is wanted. -/
theorem readValue_intDigits (bound : Nat) (n : Int) {rest : List Char} (hrest : Stops rest) :
    readValue (bound + 1) (intDigits n ++ rest) = (.number (intDigits n), some rest) := by
  have hread := readNumber_intDigits n hrest
  obtain ⟨c, cs, hdigits, hc⟩ := exists_cons_intDigits n
  rw [hdigits, List.cons_append] at hread ⊢
  rw [readValue.eq_def]
  simp only [skipSpace_cons (isSpace_of_startsNumber hc)]
  split
  case h_8 heq =>
    obtain ⟨rfl, rfl⟩ := List.cons.inj heq
    show (if startsNumber _ = true then _ else _) = _
    rw [if_pos hc, hread]
  case h_1 heq => exact absurd heq (List.cons_ne_nil _ _)
  -- The other values begin with nothing that a number begins with.
  all_goals
    rename_i heq
    exact absurd (List.cons.inj heq).1 (ne_of_startsNumber hc (by decide))

/-- A value begins neither with space nor with the end of an array. -/
theorem exists_cons_spaced (s : Spacing) (level : Nat) {j : Json} (hj : j.Plain) :
    ∃ c cs, spaced s level j = c :: cs ∧ isSpace c = false ∧ c ≠ ']' := by
  cases j with
  | null => exact ⟨_, _, rfl, by decide, by decide⟩
  | bool b => cases b <;> exact ⟨_, _, rfl, by decide, by decide⟩
  | number text =>
    obtain ⟨n, -, rfl⟩ := hj
    obtain ⟨c, cs, hdigits, hc⟩ := exists_cons_intDigits n
    exact ⟨c, cs, hdigits, isSpace_of_startsNumber hc, ne_of_startsNumber hc (by decide)⟩
  | string text => exact ⟨_, _, rfl, by decide, by decide⟩
  | array items => cases items <;> exact ⟨_, _, rfl, by decide, by decide⟩
  | object members => cases members <;> exact ⟨_, _, rfl, by decide, by decide⟩

/-- The space in front of a value is passed over. -/
theorem skipSpace_spaced {s : Spacing} {gap : List Char} (hgap : ∀ c ∈ gap, isSpace c = true)
    (level : Nat) {j : Json} (hj : j.Plain) (rest : List Char) :
    ∃ c cs, spaced s level j = c :: cs ∧
      skipSpace (gap ++ (spaced s level j ++ rest)) = c :: (cs ++ rest) ∧ c ≠ ']' := by
  obtain ⟨c, cs, htext, hspace, hc⟩ := exists_cons_spaced s level hj
  refine ⟨c, cs, htext, ?_, hc⟩
  rw [skipSpace_append hgap, htext, List.cons_append, skipSpace_cons hspace]

/-- Behind space a quoted name begins with its quote. -/
theorem skipSpace_quote {gap : List Char} (hgap : ∀ c ∈ gap, isSpace c = true)
    (name rest : List Char) :
    skipSpace (gap ++ (quote name ++ rest)) = '"' :: (name.flatMap escape ++ '"' :: rest) := by
  rw [skipSpace_append hgap, quote_append, skipSpace_cons (by decide)]

section Step

variable {bound : Nat} {c : Char} {cs rest more behind name : List Char} {d : Draft}

/-- A string is read where a value is wanted. -/
theorem readValue_quote (bound : Nat) (text rest : List Char) :
    readValue (bound + 1) (quote text ++ rest) = (.string (some text), some rest) := by
  rw [quote_append, readValue.eq_def]
  simp only [skipSpace_cons (show isSpace '"' = false by decide), readString_quote]

/-- An array that is not empty is read as its items. -/
theorem readValue_array (hrest : skipSpace rest = c :: more) (hc : c ≠ ']') :
    readValue (bound + 1) ('[' :: rest)
      = (.array (readItems bound (c :: more)).1 (readItems bound (c :: more)).2.1,
          (readItems bound (c :: more)).2.2) := by
  rw [readValue.eq_def]
  simp only [skipSpace_cons (show isSpace '[' = false by decide), hrest]

/-- An object that is not empty is read as its members, for a member begins with a quote. -/
theorem readValue_object (hrest : skipSpace rest = '"' :: more) :
    readValue (bound + 1) ('\x7b' :: rest)
      = (.object (readMembers bound ('"' :: more)).1 (readMembers bound ('"' :: more)).2.1,
          (readMembers bound ('"' :: more)).2.2) := by
  rw [readValue.eq_def]
  simp only [skipSpace_cons (show isSpace '\x7b' = false by decide), hrest]
  rfl

/-- An item before the closing bracket is the last one. -/
theorem readItems_last (hread : readValue bound cs = (d, some rest))
    (hrest : skipSpace rest = ']' :: behind) :
    readItems (bound + 1) cs = ([d], .closed, some behind) := by
  rw [readItems, hread]
  simp only [hrest]

/-- An item before a comma is followed by another one. Behind the comma there may be no closing
bracket. -/
theorem readItems_next (hread : readValue bound cs = (d, some rest))
    (hrest : skipSpace rest = ',' :: more) (hmore : skipSpace more = c :: behind) (hc : c ≠ ']') :
    readItems (bound + 1) cs
      = (d :: (readItems bound (c :: behind)).1, (readItems bound (c :: behind)).2) := by
  rw [readItems, hread]
  simp only [hrest, hmore]

/-- A name and the colon behind it are read before the value of a member. -/
theorem readMembers_last (hread : readValue bound cs = (d, some rest))
    (hrest : skipSpace rest = '\x7d' :: behind) :
    readMembers (bound + 1) (quote name ++ ':' :: cs)
      = ([(some name, d)], .closed, some behind) := by
  rw [quote_append, readMembers, readString_quote]
  simp only [skipSpace_cons (show isSpace ':' = false by decide), hread, hrest]

/-- A member before a comma is followed by another one. -/
theorem readMembers_next (hread : readValue bound cs = (d, some rest))
    (hrest : skipSpace rest = ',' :: more) (hmore : skipSpace more = c :: behind) :
    readMembers (bound + 1) (quote name ++ ':' :: cs)
      = ((some name, d) :: (readMembers bound (c :: behind)).1,
          (readMembers bound (c :: behind)).2) := by
  rw [quote_append, readMembers, readString_quote]
  simp only [skipSpace_cons (show isSpace ':' = false by decide), hread, hrest, hmore]

end Step

/-- Whether the writings of a value are read as the draft of the value. Each character takes at
most two steps of the bound. -/
def Reads (s : Spacing) (j : Json) : Prop :=
  ∀ (level bound : Nat) (rest : List Char), 2 * (spaced s level j).length ≤ bound → Stops rest →
    readValue bound (spaced s level j ++ rest) = (draft j, some rest)

variable {s : Spacing}

/-- The items of an array are read if each of them is. -/
theorem readItems_spaced (level : Nat) (item : Json) (items : List Json) (bound : Nat)
    (rest : List Char) (hread : ∀ i ∈ item :: items, Reads s i)
    (hplain : ∀ i ∈ item :: items, i.Plain)
    (hbound : 2 * (spaced s (level + 1) item ++ spacedItems s level items).length ≤ bound) :
    readItems bound (spaced s (level + 1) item ++ (spacedItems s level items ++ rest))
      = (draftItems (item :: items), .closed, some rest) := by
  -- Each item takes the comma before it and itself from the text, and two steps from the bound.
  induction items generalizing item bound with
  | nil =>
    rw [List.length_append, spacedItems, List.length_append, List.length_singleton] at hbound
    obtain ⟨bound, rfl⟩ := Nat.exists_eq_succ_of_ne_zero (by omega : bound ≠ 0)
    have hitem := hread item List.mem_cons_self (level + 1) bound _ (by omega)
      (stops_spacedItems s level [] rest)
    have hclose : skipSpace (spacedItems s level [] ++ rest) = ']' :: rest := by
      rw [spacedItems, List.append_assoc, skipSpace_append (s.line_isSpace level)]
      rfl
    exact readItems_last hitem hclose
  | cons next items ih =>
    rw [List.length_append, spacedItems, List.length_append, List.length_append,
      List.length_cons] at hbound
    obtain ⟨bound, rfl⟩ := Nat.exists_eq_succ_of_ne_zero (by omega : bound ≠ 0)
    have hitem := hread item List.mem_cons_self (level + 1) bound _ (by omega)
      (stops_spacedItems s level (next :: items) rest)
    have hitems := ih next bound (fun i hi => hread i (List.mem_cons_of_mem _ hi))
      (fun i hi => hplain i (List.mem_cons_of_mem _ hi)) (by rw [List.length_append]; omega)
    obtain ⟨c, cs, hnext, hgap, hc⟩ := skipSpace_spaced (s.line_isSpace (level + 1)) (level + 1)
      (hplain next (List.mem_cons_of_mem _ List.mem_cons_self)) (spacedItems s level items ++ rest)
    have hcomma : skipSpace (spacedItems s level (next :: items) ++ rest)
        = ',' :: (s.line (level + 1) ++ (spaced s (level + 1) next ++
            (spacedItems s level items ++ rest))) := by
      rw [spacedItems, List.append_assoc, List.append_assoc]
      rfl
    rw [hnext, List.cons_append] at hitems
    rw [readItems_next hitem hcomma hgap hc, hitems]
    rfl

/-- The members of an object are read if the value of each of them is. -/
theorem readMembers_spaced (level : Nat) (name : List Char) (value : Json)
    (members : List (List Char × Json)) (bound : Nat) (rest : List Char)
    (hread : ∀ m ∈ (name, value) :: members, Reads s m.2)
    (hbound : 2 * (spaced s (level + 1) value ++ spacedMembers s level members).length ≤ bound) :
    readMembers bound
        (quote name ++ ':' :: (s.pad ++ (spaced s (level + 1) value ++
          (spacedMembers s level members ++ rest))))
      = (draftMembers ((name, value) :: members), .closed, some rest) := by
  -- The first member is split off, since a comma stands before each of the others. The bound counts
  -- characters, so what is left of it behind the first member is enough for them.
  induction members generalizing name value bound with
  | nil =>
    rw [List.length_append, spacedMembers, List.length_append, List.length_singleton] at hbound
    obtain ⟨bound, rfl⟩ := Nat.exists_eq_succ_of_ne_zero (by omega : bound ≠ 0)
    have hreads : Reads s value := hread _ List.mem_cons_self
    have hvalue : readValue bound (s.pad ++ (spaced s (level + 1) value ++
          (spacedMembers s level [] ++ rest)))
        = (draft value, some (spacedMembers s level [] ++ rest)) := by
      rw [readValue_append s.pad_isSpace]
      exact hreads _ _ _ (by omega) (stops_spacedMembers ..)
    have hclose : skipSpace (spacedMembers s level [] ++ rest) = '\x7d' :: rest := by
      rw [spacedMembers, List.append_assoc, skipSpace_append (s.line_isSpace level)]
      rfl
    exact readMembers_last hvalue hclose
  | cons next members ih =>
    obtain ⟨other, after⟩ := next
    rw [List.length_append, spacedMembers, List.length_append, List.length_append,
      List.length_append, List.length_cons, List.length_append] at hbound
    obtain ⟨bound, rfl⟩ := Nat.exists_eq_succ_of_ne_zero (by omega : bound ≠ 0)
    have hreads : Reads s value := hread _ List.mem_cons_self
    have hvalue : readValue bound (s.pad ++ (spaced s (level + 1) value ++
          (spacedMembers s level ((other, after) :: members) ++ rest)))
        = (draft value, some (spacedMembers s level ((other, after) :: members) ++ rest)) := by
      rw [readValue_append s.pad_isSpace]
      exact hreads _ _ _ (by omega) (stops_spacedMembers ..)
    have hmembers := ih other after bound (fun m hm => hread m (List.mem_cons_of_mem _ hm))
      (by rw [List.length_append]; omega)
    -- Behind the value there is a comma, and behind the blanks the next name.
    have hcomma : skipSpace (spacedMembers s level ((other, after) :: members) ++ rest)
        = ',' :: (s.line (level + 1) ++ (quote other ++ ':' :: (s.pad ++
            (spaced s (level + 1) after ++ (spacedMembers s level members ++ rest))))) := by
      simp only [spacedMembers, List.append_assoc, List.cons_append]
      exact skipSpace_cons (by decide) _
    rw [quote_append] at hmembers
    rw [readMembers_next hvalue hcomma (skipSpace_quote (s.line_isSpace _) ..), hmembers]
    rfl

/-- Reading a value takes a step. -/
theorem exists_succ_of_spaced {level bound : Nat} {j : Json} (hj : j.Plain)
    (hbound : 2 * (spaced s level j).length ≤ bound) : ∃ b, bound = b + 1 := by
  obtain ⟨c, cs, htext, -⟩ := exists_cons_spaced s level hj
  rw [htext, List.length_cons] at hbound
  exact Nat.exists_eq_succ_of_ne_zero (by omega)

/-- An array is read back if its items are. -/
theorem reads_array {items : List Json} (hplain : ∀ i ∈ items, i.Plain)
    (hread : ∀ i ∈ items, Reads s i) : Reads s (.array items) := by
  intro level bound rest hbound hrest
  obtain ⟨bound, rfl⟩ :=
    exists_succ_of_spaced (j := .array items) (plainItems_iff.mpr hplain) hbound
  cases items with
  | nil => rfl
  | cons item items =>
    have hitems := readItems_spaced level item items bound rest hread hplain (by
      simp only [spaced, List.cons_append, List.length_cons, List.length_append] at hbound
      rw [List.length_append]
      omega)
    -- The first item begins with a character that does not close the array.
    obtain ⟨c, cs, hitem, hgap, hc⟩ := skipSpace_spaced (s.line_isSpace (level + 1)) (level + 1)
      (hplain item List.mem_cons_self) (spacedItems s level items ++ rest)
    rw [hitem, List.cons_append] at hitems
    simp only [spaced, List.append_assoc, List.cons_append]
    rw [readValue_array hgap hc, hitems]
    rfl

/-- An object is read back if the values of its members are. -/
theorem reads_object {members : List (List Char × Json)} (hplain : ∀ m ∈ members, m.2.Plain)
    (hread : ∀ m ∈ members, Reads s m.2) : Reads s (.object members) := by
  intro level bound rest hbound hrest
  obtain ⟨bound, rfl⟩ :=
    exists_succ_of_spaced (j := .object members) (plainMembers_iff.mpr hplain) hbound
  cases members with
  | nil => rfl
  | cons m members =>
    obtain ⟨name, value⟩ := m
    have hmembers := readMembers_spaced level name value members bound rest hread (by
      simp only [spaced, List.cons_append, List.length_cons, List.length_append] at hbound
      rw [List.length_append]
      omega)
    rw [quote_append] at hmembers
    simp only [spaced, List.append_assoc, List.cons_append]
    rw [readValue_object (skipSpace_quote (s.line_isSpace _) ..), hmembers]
    rfl

/-- Every value is read back from its writings. -/
theorem reads_of_plain (s : Spacing) (j : Json) (hj : j.Plain) : Reads s j := by
  -- One case for each kind of value. The bound is never zero, since every value is written with one
  -- character at least.
  induction j with
  | null =>
    intro level bound rest hbound hrest
    obtain ⟨bound, rfl⟩ := exists_succ_of_spaced hj hbound
    rfl
  | bool b =>
    intro level bound rest hbound hrest
    obtain ⟨bound, rfl⟩ := exists_succ_of_spaced hj hbound
    cases b <;> rfl
  | number text =>
    intro level bound rest hbound hrest
    obtain ⟨bound, rfl⟩ := exists_succ_of_spaced hj hbound
    obtain ⟨n, -, rfl⟩ := hj
    exact readValue_intDigits bound n hrest
  | string text =>
    intro level bound rest hbound hrest
    obtain ⟨bound, rfl⟩ := exists_succ_of_spaced hj hbound
    exact readValue_quote bound text rest
  | array items ih =>
    have hall : ∀ i ∈ items, i.Plain := plainItems_iff.mp hj
    exact reads_array hall fun i hi => ih i hi (hall i hi)
  | object members ih =>
    have hall : ∀ m ∈ members, m.2.Plain := plainMembers_iff.mp hj
    exact reads_object hall fun m hm => ih m hm (hall m hm)

/-! ### Whole texts -/

/-- A document is read back whole: nothing is left behind it, and no fault is met. -/
theorem ofText_spaced (s : Spacing) {j : Json} (hj : j.Plain) :
    ofText (spaced s 0 j) = (draft j, none) := by
  have hread := reads_of_plain s j hj 0 (2 * (spaced s 0 j).length + 2) [] (by omega) trivial
  rw [List.append_nil] at hread
  rw [ofText, hread]
  rfl

/-- The compact form of a value is read as its draft. -/
theorem ofText_compact {j : Json} (hj : j.Plain) : ofText (compact j) = (draft j, none) := by
  rw [← spaced_tight 0 j]
  exact ofText_spaced .tight hj

/-- And so is its form with one item to a line. -/
theorem ofText_prettyAt {j : Json} (hj : j.Plain) : ofText (prettyAt 0 j) = (draft j, none) := by
  rw [← spaced_lines 0 j]
  exact ofText_spaced .lines hj

/-- Items that were read without a fault have none together. -/
theorem strictFaultOfItems?_draftItems {items : List Json}
    (h : ∀ i ∈ items, (draft i).strictFault? = none) :
    strictFaultOfItems? (draftItems items) = none := by
  induction items with
  | nil => rfl
  | cons item items ih =>
    rw [draftItems, strictFaultOfItems?, h item List.mem_cons_self,
      ih fun i hi => h i (List.mem_cons_of_mem _ hi)]
    rfl

/-- Members that were read without a fault have none together. -/
theorem strictFaultOfMembers?_draftMembers {members : List (List Char × Json)}
    (h : ∀ m ∈ members, (draft m.2).strictFault? = none) :
    strictFaultOfMembers? (draftMembers members) = none := by
  induction members with
  | nil => rfl
  | cons m members ih =>
    rw [draftMembers, strictFaultOfMembers?, h m List.mem_cons_self,
      ih fun m hm => h m (List.mem_cons_of_mem _ hm)]
    rfl

/-- There is nothing wrong with the draft of a value. -/
theorem strictFault?_draft {j : Json} (hj : j.Plain) : (draft j).strictFault? = none := by
  induction j with
  | null => rfl
  | bool b => rfl
  -- Of all plain values only numbers are tested, and the hypothesis is what the test asks for.
  | number text =>
    obtain ⟨n, hn, rfl⟩ := hj
    rw [draft, strictFault?, not_tooLarge_intDigits hn]
    rfl
  | string text => rfl
  | array items ih =>
    have hall : ∀ i ∈ items, i.Plain := plainItems_iff.mp hj
    rw [draft, strictFault?, strictFaultOfItems?_draftItems fun i hi => ih i hi (hall i hi)]
    rfl
  | object members ih =>
    have hall : ∀ m ∈ members, m.2.Plain := plainMembers_iff.mp hj
    rw [draft, strictFault?, strictFaultOfMembers?_draftMembers fun m hm => ih m hm (hall m hm)]
    rfl

end Draft

end CodeAtlas.Json
