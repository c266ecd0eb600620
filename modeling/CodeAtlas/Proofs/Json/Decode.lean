import CodeAtlas.Proofs.Json.Written
import Mathlib.Data.List.Nodup

/-!
# `CodeAtlas.Proofs.Json.Decode`: decoders of what was written

`Decoder.Gives` says that a decoder takes a JSON value for a value of its own. It is proved for
each shape from the same for the parts of the shape: `string_gives`, `nat64_gives`, `int64_gives`,
`list_gives`, `option_gives`, `record_gives` and `tagged_gives`. A document is then read back once
its decoder gives what it was made of, in the compact form (`ofText_compact_of_gives`) and with one
item to a line (`ofText_prettyAt_of_gives`).
-/

set_option autoImplicit false

namespace CodeAtlas.Json.Decoder

variable {α : Type}

/-- Whether a decoder takes a value, once it is written and read as a draft, for another. -/
structure Gives (decoder : Decoder α) (j : Json) (a : α) : Prop where
  plain : j.Plain
  decoded : decoder j.draft = .ok a

/-! ### Simple shapes -/

/-- A text is read back whatever it is. -/
theorem string_gives (s : String) : string.Gives (.ofString s) s where
  plain := trivial
  decoded := congrArg Except.ok String.ofList_toList

/-- A number of 64 bits is read back from its digits. A larger one would be refused. -/
theorem nat64_gives {n : Nat} (h : Has64Bits n) : nat64.Gives (.ofNat n) n where
  plain := ⟨n, h, (intDigits_natCast n).symm⟩
  decoded := by
    have hread : integer? (Nat.toDigits 10 n) = some (n : Int) := by
      rw [← intDigits_natCast, integer?_intDigits]
    have hwithin : integerWithin 0 0xffffffffffffffff (ofNat n).draft = .ok (n : Int) := by
      rw [ofNat, draft, integerWithin, hread]
      exact if_pos ⟨Int.natCast_nonneg n, Int.ofNat_le.mpr h⟩
    rw [nat64, hwithin]
    rfl

/-- An integer of 64 bits is read back. Its sign takes one of the bits, so the bounds are not those
of `nat64_gives`. -/
theorem int64_gives {n : Int} (hlow : -0x8000000000000000 ≤ n) (hhigh : n ≤ 0x7fffffffffffffff) :
    int64.Gives (.ofInt n) n where
  plain := by
    have hbits : Has64Bits n.natAbs := by
      unfold Has64Bits
      omega
    exact ⟨n, hbits, rfl⟩
  decoded := by
    rw [int64, ofInt, draft, integerWithin, integer?_intDigits]
    exact if_pos ⟨hlow, hhigh⟩

/-- The items of an array are read back, one after the other, if each of them is. -/
theorem items_gives {item : Decoder α} {f : α → Json} {as : List α}
    (h : ∀ a ∈ as, item.Gives (f a) a) : items item (draftItems (as.map f)) = .ok as := by
  induction as with
  | nil => rfl
  | cons a as ih =>
    rw [List.map_cons, draftItems, items, (h a List.mem_cons_self).decoded,
      ih fun b hb => h b (List.mem_cons_of_mem _ hb)]
    rfl

/-- A list is read back if its items are. -/
theorem list_gives {item : Decoder α} {f : α → Json} {as : List α}
    (h : ∀ a ∈ as, item.Gives (f a) a) : (list item).Gives (.ofList f as) as where
  plain := plainItems_iff.mpr fun j hj => by
    obtain ⟨a, ha, rfl⟩ := List.mem_map.mp hj
    exact (h a ha).plain
  decoded := by
    rw [ofList, draft, list, items_gives h]
    rfl

/-- Only `null` is read as `null`, so an optional value is not mistaken for a missing one. -/
theorem draft_ne_null {j : Json} (h : j ≠ .null) : draft j ≠ .null := by
  cases j with
  | null => exact absurd rfl h
  | _ => exact Draft.noConfusion

/-- An optional value is read back if no value is told as `null`. -/
theorem option_gives {value : Decoder α} {f : α → Json} (hnull : ∀ a, f a ≠ .null) {o : Option α}
    (h : ∀ a ∈ o, value.Gives (f a) a) : (option value).Gives (.ofOption f o) o := by
  cases o with
  | none => exact ⟨trivial, rfl⟩
  | some a =>
    refine ⟨(h a rfl).plain, ?_⟩
    rw [ofOption, option.eq_def]
    split
    · rename_i heq
      exact absurd heq (draft_ne_null (hnull a))
    · rw [(h a rfl).decoded]
      rfl

/-! ### Records -/

/-- Whether the fields that were found are the members of a record. -/
structure Fields.Holds (fs : Fields) (members : List (String × Json)) : Prop where
  fault_eq : fs.fault = none
  get?_eq : ∀ m ∈ members, ∃ place, fs.get? m.1 = some (place, m.2.draft)

/-- Fields that hold some members hold any part of them. So each member can be read on its own. -/
theorem Fields.Holds.mono {fs : Fields} {some all : List (String × Json)} (h : fs.Holds all)
    (hsub : some ⊆ all) : fs.Holds some :=
  ⟨h.fault_eq, fun m hm => h.get?_eq m (hsub hm)⟩

/-- Whether a value is made of the fields of a record once some members are among them. -/
structure Makes (members : List (String × Json)) (make : Fields → Making α) (a : α) : Prop where
  plain : ∀ m ∈ members, m.2.Plain
  made : ∀ fs : Fields, fs.Holds members → make fs = ⟨some a, none⟩

namespace Makes

variable {β : Type} {members : List (String × Json)} {make : Fields → Making (α → β)}
  {value : Decoder α} {f : α → β} {j : Json} {a : α} {o : Option α}

/-- A member that has to be there is made of its value. -/
theorem required (name : String) (h : value.Gives j a) :
    Makes [(name, j)] (fun fs => fs.required name value) a where
  plain := List.forall_mem_singleton.mpr h.plain
  made := by
    intro fs hholds
    obtain ⟨place, hget⟩ := hholds.get?_eq _ (List.mem_singleton_self _)
    rw [Fields.required, hget]
    show Fields.taken place (value j.draft) = _
    rw [h.decoded]
    rfl

/-- A member that may be missing is made of its value if it is there; the default plays no part. -/
theorem defaulted (name : String) (default : α) (h : value.Gives j a) :
    Makes [(name, j)] (fun fs => fs.defaulted name value default) a where
  plain := List.forall_mem_singleton.mpr h.plain
  made := by
    intro fs hholds
    obtain ⟨place, hget⟩ := hholds.get?_eq _ (List.mem_singleton_self _)
    rw [Fields.defaulted, hget]
    show Fields.taken place (value j.draft) = _
    rw [h.decoded]
    rfl

/-- A member that may be `null` is made of what it tells, a value or none. -/
theorem nullable (name : String) (h : (option value).Gives j o) :
    Makes [(name, j)] (fun fs => fs.nullable name value) o where
  plain := List.forall_mem_singleton.mpr h.plain
  made := by
    intro fs hholds
    obtain ⟨place, hget⟩ := hholds.get?_eq _ (List.mem_singleton_self _)
    rw [Fields.nullable, hget]
    show Fields.taken place (option value j.draft) = _
    rw [h.decoded]
    rfl

/-- One more member is read behind the others. A record is made by this step, from the first member
to the last. -/
theorem apply {others : List (String × Json)} {field : Fields → Making α}
    (hf : Makes members make f) (ha : Makes others field a) :
    Makes (members ++ others) (fun fs => make fs <*> field fs) (f a) where
  plain := List.forall_mem_append.mpr ⟨hf.plain, ha.plain⟩
  made := by
    intro fs hholds
    rw [hf.made fs (hholds.mono (List.subset_append_left _ _)),
      ha.made fs (hholds.mono (List.subset_append_right _ _))]
    rfl

/-- What is made of a value that is made. -/
theorem map {field : Fields → Making α} (f : α → β) (ha : Makes members field a) :
    Makes members (fun fs => f <$> field fs) (f a) where
  plain := ha.plain
  made := by
    intro fs hholds
    rw [ha.made fs hholds]
    rfl

/-- The first field of a record. -/
theorem first (name : String) (f : α → β) (h : value.Gives j a) :
    Makes [(name, j)] (fun fs => f <$> fs.required name value) (f a) :=
  (required name h).map f

/-- The first field of a record that may be left out. -/
theorem firstDefaulted (name : String) (default : α) (f : α → β) (h : value.Gives j a) :
    Makes [(name, j)] (fun fs => f <$> fs.defaulted name value default) (f a) :=
  (defaulted name default h).map f

/-- A further field. -/
theorem and (hf : Makes members make f) (name : String) (h : value.Gives j a) :
    Makes (members ++ [(name, j)]) (fun fs => make fs <*> fs.required name value) (f a) :=
  hf.apply (required name h)

/-- A further field that may be left out. -/
theorem andDefaulted (hf : Makes members make f) (name : String) (default : α)
    (h : value.Gives j a) :
    Makes (members ++ [(name, j)]) (fun fs => make fs <*> fs.defaulted name value default) (f a) :=
  hf.apply (defaulted name default h)

/-- A further field that may be `null`. -/
theorem andNullable {make : Fields → Making (Option α → β)} {f : Option α → β}
    (hf : Makes members make f) (name : String) (h : (option value).Gives j o) :
    Makes (members ++ [(name, j)]) (fun fs => make fs <*> fs.nullable name value) (f o) :=
  hf.apply (nullable name h)

end Makes

/-- The draft of a record's members. -/
def memberDrafts (members : List (String × Json)) : List (Option (List Char) × Draft) :=
  members.map fun m => (some m.1.toList, m.2.draft)

/-- A record is read as an object with the same members, which ends as it should. -/
theorem draft_record (members : List (String × Json)) :
    draft (.record members) = .object (memberDrafts members) .closed := by
  rw [Json.record, draft, draftMembers_eq_map, List.map_map]
  rfl

/-- A record is plain if the values of its members are, since the names are texts. -/
theorem plain_record {members : List (String × Json)} (h : ∀ m ∈ members, m.2.Plain) :
    (Json.record members).Plain :=
  plainMembers_iff.mpr fun _ hmem => by
    obtain ⟨m, hm, rfl⟩ := List.mem_map.mp hmem
    exact h m hm

/-- The fields of a record are found under their names if no name is given twice. What was found
before under other names stays. -/
theorem fieldsOf_memberDrafts (names : List (List Char)) (members : List (String × Json))
    (place : Nat) (seen : List (List Char × Nat × Draft))
    (hnames : ∀ m ∈ members, m.1.toList ∈ names)
    (hnodup : (members.map fun m => m.1.toList).Nodup)
    (hseen : ∀ s ∈ seen, ∀ m ∈ members, s.1 ≠ m.1.toList) :
    let fs := fieldsOf names place seen (memberDrafts members) .closed
    fs.fault = none ∧
      (∀ m ∈ members, ∃ p, fs.found.find? (·.1 == m.1.toList) = some (m.1.toList, p, m.2.draft)) ∧
      ∀ name ∉ members.map fun m => m.1.toList,
        fs.found.find? (·.1 == name) = seen.find? (·.1 == name) := by
  -- The fields read so far are carried along, so the claim is about any of them: none has the name
  -- of a member that is still to come.
  induction members generalizing place seen with
  | nil => exact ⟨rfl, fun _ hm => absurd hm List.not_mem_nil, fun _ _ => rfl⟩
  | cons m members ih =>
    rw [List.map_cons, List.nodup_cons] at hnodup
    have hfresh : ¬ seen.any (fun s => s.1 == m.1.toList) = true := by
      intro hany
      obtain ⟨s, hs, heq⟩ := List.any_eq_true.mp hany
      exact hseen s hs m List.mem_cons_self (beq_iff_eq.mp heq)
    have hstep : fieldsOf names place seen (memberDrafts (m :: members)) .closed
        = fieldsOf names (place + 1) ((m.1.toList, place, m.2.draft) :: seen)
            (memberDrafts members) .closed := by
      rw [memberDrafts, List.map_cons, fieldsOf,
        if_pos (List.contains_iff_mem.mpr (hnames m List.mem_cons_self)), if_neg hfresh]
      rfl
    obtain ⟨hfault, hfound, hold⟩ :=
      ih (place + 1) ((m.1.toList, place, m.2.draft) :: seen)
        (fun m hm => hnames m (List.mem_cons_of_mem _ hm)) hnodup.2 (by
          intro s hs other hother
          obtain rfl | hs := List.mem_cons.mp hs
          · intro heq
            exact hnodup.1 (List.mem_map.mpr ⟨other, hother, heq.symm⟩)
          · exact hseen s hs other (List.mem_cons_of_mem _ hother))
    rw [hstep]
    refine ⟨hfault, ?_, ?_⟩
    · intro other hother
      obtain rfl | hother := List.mem_cons.mp hother
      · exact ⟨place, by rw [hold _ hnodup.1, List.find?_cons_of_pos (by exact beq_self_eq_true _)]⟩
      · exact hfound other hother
    · intro name hname
      rw [List.map_cons, List.mem_cons, not_or] at hname
      rw [hold name hname.2, List.find?_cons_of_neg (by simpa using Ne.symm hname.1)]

/-- A record is read back if what is made of its members is. -/
theorem record_gives {names : List String} {make : Fields → Making α}
    {members : List (String × Json)} {a : α} (hnames : members.map Prod.fst = names)
    (hnodup : names.Nodup) (hmakes : Makes members make a) :
    (record names make).Gives (.record members) a where
  plain := plain_record hmakes.plain
  decoded := by
    have htexts : (members.map fun m => m.1.toList).Nodup := by
      have hmap := List.Nodup.map (fun _ _ => String.toList_inj.mp) hnodup
      rwa [← hnames, List.map_map] at hmap
    obtain ⟨hfault, hfound, -⟩ :=
      fieldsOf_memberDrafts (names.map String.toList) members 0 [] (by
        intro m hm
        rw [← hnames, List.map_map]
        exact List.mem_map_of_mem hm) htexts (fun _ hs => absurd hs List.not_mem_nil)
    -- Every field that the record asks for is among those found.
    have hholds : (fieldsOf (names.map String.toList) 0 [] (memberDrafts members) .closed).Holds
        members := by
      refine ⟨hfault, fun m hm => ?_⟩
      obtain ⟨place, hfind⟩ := hfound m hm
      exact ⟨place, by rw [Fields.get?, hfind]; rfl⟩
    rw [draft_record]
    show Fields.finish _ (make _) = _
    rw [hmakes.made _ hholds, Fields.finish, hholds.fault_eq]
    rfl

/-! ### Tagged records -/

/-- Behind the tag, the members are gathered in their order and handed to the variant that the tag
names. -/
theorem fromMembers_memberDrafts {tag : String} {variants : List (String × Decoder α)}
    (variant : Decoder α) (members : List (String × Json)) (htag : ∀ m ∈ members, m.1 ≠ tag)
    (hplain : ∀ m ∈ members, m.2.Plain) (seen : List (Option (List Char) × Draft)) :
    tagged.fromMembers tag variants (some variant) seen (memberDrafts members) .closed
      = variant (.object (seen.reverse ++ memberDrafts members) .closed) := by
  induction members generalizing seen with
  | nil => rw [memberDrafts, List.map_nil, List.append_nil]; rfl
  | cons m members ih =>
    -- A second tag would be reported, but no member is called like it.
    have hne : m.1.toList ≠ tag.toList :=
      fun heq => htag m List.mem_cons_self (String.toList_inj.mp heq)
    rw [memberDrafts, List.map_cons, tagged.fromMembers, if_neg hne,
      Draft.strictFault?_draft (hplain m List.mem_cons_self)]
    show tagged.fromMembers tag variants (some variant) _ (memberDrafts members) .closed = _
    rw [ih (fun m hm => htag m (List.mem_cons_of_mem _ hm))
      (fun m hm => hplain m (List.mem_cons_of_mem _ hm)), List.reverse_cons, List.append_assoc]
    rfl

/-- A tagged record is read back if the variant of its tag reads the rest of it back. -/
theorem tagged_gives {tag word : String} {variants : List (String × Decoder α)}
    {variant : Decoder α} {members : List (String × Json)} {a : α}
    (hvariant : variants.find? (fun v => v.1.toList = word.toList) = some (word, variant))
    (htag : ∀ m ∈ members, m.1 ≠ tag) (hplain : ∀ m ∈ members, m.2.Plain)
    (hgives : variant.Gives (.record members) a) :
    (tagged tag variants).Gives (.record ((tag, .ofString word) :: members)) a where
  plain := plain_record (List.forall_mem_cons.mpr ⟨trivial, hplain⟩)
  decoded := by
    have hof : tagged.variantOf variants (draft (.ofString word)) = .ok variant := by
      rw [ofString, draft, tagged.variantOf, hvariant]
    have hrest := hgives.decoded
    rw [draft_record] at hrest ⊢
    show tagged.fromMembers tag variants none [] (memberDrafts _) .closed = _
    -- The tag is written first, so nothing has been gathered when it is read.
    rw [memberDrafts, List.map_cons, tagged.fromMembers, if_pos rfl, hof]
    show tagged.fromMembers tag variants (some variant) [] (memberDrafts members) .closed = _
    rw [fromMembers_memberDrafts variant members htag hplain]
    exact hrest

/-! ### Whole texts -/

/-- A text is read back if its draft is that of a value whose decoder gives what it was made of. -/
theorem ofText_of_gives {decoder : Decoder α} {j : Json} {a : α} (h : decoder.Gives j a)
    {text : List Char} (htext : Draft.ofText text = (draft j, none)) :
    ofText decoder text = .ok a := by
  rw [ofText, htext]
  show (decoder j.draft >>= _) = _
  rw [h.decoded]
  rfl

/-- The compact text of a value is read back if its decoder gives what it was made of. -/
theorem ofText_compact_of_gives {decoder : Decoder α} {j : Json} {a : α} (h : decoder.Gives j a) :
    ofText decoder (compact j) = .ok a :=
  ofText_of_gives h (Draft.ofText_compact h.plain)

/-- So is the text with one item to a line. -/
theorem ofText_prettyAt_of_gives {decoder : Decoder α} {j : Json} {a : α}
    (h : decoder.Gives j a) : ofText decoder (prettyAt 0 j) = .ok a :=
  ofText_of_gives h (Draft.ofText_prettyAt h.plain)

end CodeAtlas.Json.Decoder
