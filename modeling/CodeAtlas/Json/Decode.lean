import CodeAtlas.Json.Draft
import CodeAtlas.Json.Number

/-!
# `CodeAtlas.Json.Decode`: values of a given shape out of drafts

A decoder takes a value of one shape out of a draft, or the first fault in the order of the
text: of the text itself, or a mismatch of shape. A record may be written as an object, in any
order and with further members that are passed over, or as an array of its fields in their
own order.
-/

set_option autoImplicit false

namespace CodeAtlas.Json

/-- Takes a value out of a draft. -/
abbrev Decoder (α : Type) := Draft → Except Fault α

/-! ### Faults of what is passed over -/

mutual

/-- The first fault of a draft whose value is passed over. -/
def Draft.fault? : Draft → Option Fault
  | .fault f => some f
  | .array items ending => Draft.faultOfItems? items <|> ending.fault?
  | .object members ending => Draft.faultOfMembers? members <|> ending.fault?
  | _ => none

/-- The first fault of items that are passed over. -/
def Draft.faultOfItems? : List Draft → Option Fault
  | [] => none
  | d :: ds => d.fault? <|> Draft.faultOfItems? ds

/-- The first fault of members that are passed over. -/
def Draft.faultOfMembers? : List (Option (List Char) × Draft) → Option Fault
  | [] => none
  | (_, d) :: ds => d.fault? <|> Draft.faultOfMembers? ds

end

mutual

/-- The first fault of a draft whose value is kept as it is: also a number that is too large
or a string that is no text is one. -/
def Draft.strictFault? : Draft → Option Fault
  | .fault f => some f
  | .number text => if tooLarge text then some .malformed else none
  | .string none => some .malformed
  | .array items ending => Draft.strictFaultOfItems? items <|> ending.fault?
  | .object members ending => Draft.strictFaultOfMembers? members <|> ending.fault?
  | _ => none

/-- The first fault of items that are kept as they are. -/
def Draft.strictFaultOfItems? : List Draft → Option Fault
  | [] => none
  | d :: ds => d.strictFault? <|> Draft.strictFaultOfItems? ds

/-- The first fault of members that are kept as they are. -/
def Draft.strictFaultOfMembers? : List (Option (List Char) × Draft) → Option Fault
  | [] => none
  | (none, _) :: _ => some .malformed
  | (some _, d) :: ds => d.strictFault? <|> Draft.strictFaultOfMembers? ds

end

namespace Decoder

/-- The fault of a draft that is not of the wanted shape. A container is not looked into. -/
def unexpected : Draft → Fault
  | .fault f => f
  | .number text => if tooLarge text then .malformed else .mismatch
  | .string none => .malformed
  | _ => .mismatch

/-! ### Simple shapes -/

/-- A string. -/
def string : Decoder String
  | .string (some text) => .ok (String.ofList text)
  | d => .error (unexpected d)

/-- An integer between two bounds. -/
def integerWithin (low high : Int) : Decoder Int
  | .number text =>
    match integer? text with
    | some n => if low ≤ n ∧ n ≤ high then .ok n else .error (unexpected (.number text))
    | none => .error (unexpected (.number text))
  | d => .error (unexpected d)

/-- A number of 64 bits without a sign. -/
def nat64 : Decoder Nat := fun d =>
  (integerWithin 0 0xffffffffffffffff d).map Int.toNat

/-- A number of 64 bits with a sign. -/
def int64 : Decoder Int :=
  integerWithin (-0x8000000000000000) 0x7fffffffffffffff

/-- The values of items, the first fault winning. -/
def items {α : Type} (item : Decoder α) : List Draft → Except Fault (List α)
  | [] => .ok []
  | d :: ds => do
    let a ← item d
    let rest ← items item ds
    return a :: rest

/-- An array of values. -/
def list {α : Type} (item : Decoder α) : Decoder (List α)
  | .array ds ending => do
    let values ← items item ds
    match ending.fault? with
    | some f => .error f
    | none => .ok values
  | d => .error (unexpected d)

/-- A value or `null`. -/
def option {α : Type} (value : Decoder α) : Decoder (Option α)
  | .null => .ok none
  | d => (value d).map some

/-- One of several words; it may also be the name of a single member that is `null`. -/
def choice {α : Type} (words : List (String × α)) : Decoder α
  | .string (some text) => wordValue text
  | .object ((some text, value) :: rest) ending => do
    let a ← wordValue text
    match value with
    | .null =>
      if rest.isEmpty && ending = .closed then .ok a else .error (ending.fault?.getD .malformed)
    | d => .error (unexpected d)
  | .object [] ending => .error (ending.fault?.getD .malformed)
  | .fault f => .error f
  | _ => .error .malformed
where
  /-- The value of a word. -/
  wordValue (text : List Char) : Except Fault α :=
    match words.find? fun w => w.1.toList = text with
    | some (_, a) => .ok a
    | none => .error .mismatch

/-! ### Records -/

/-- The fields of a record as they were found: each with its place in the text, and the first
fault that lies in no field. -/
structure Fields where
  found : List (List Char × Nat × Draft)
  /-- The place behind everything that was found. -/
  stop : Nat
  fault : Option (Nat × Fault)
  /-- Whether the fields are items of an array. -/
  positional : Bool

/-- The earlier of two faults. -/
def earlier : Option (Nat × Fault) → Option (Nat × Fault) → Option (Nat × Fault)
  | none, b => b
  | a, none => a
  | some a, some b => if a.1 ≤ b.1 then some a else some b

/-- The fields among the members of an object from a place on. A field that is given twice is
a mismatch, and a member that is no field is passed over. -/
def fieldsOf (names : List (List Char)) (place : Nat) (seen : List (List Char × Nat × Draft)) :
    List (Option (List Char) × Draft) → Ending → Fields
  | [], ending => ⟨seen, place + 1, ending.fault?.map (place, ·), false⟩
  | (none, _) :: _, _ => ⟨seen, place + 1, some (place, .malformed), false⟩
  | (some name, d) :: rest, ending =>
    if names.contains name then
      if seen.any fun s => s.1 == name then ⟨seen, place + 1, some (place, .mismatch), false⟩
      else fieldsOf names (place + 1) ((name, place, d) :: seen) rest ending
    else
      match d.fault? with
      | some f => ⟨seen, place + 1, some (place, f), false⟩
      | none => fieldsOf names (place + 1) seen rest ending

/-- The fault behind the items of an array for a given number of fields. -/
def arrayFault (fields items : Nat) (ending : Ending) : Option (Nat × Fault) :=
  if fields < items then some (fields, .malformed)
  else
    match ending with
    | .closed => none
    | .broken f => some (items, f)
    | .brokenAfterComma f => some (items, if fields ≤ items then .malformed else f)

/-- The fields of a record with the given names. -/
def fields (names : List String) : Decoder Fields
  | .object members ending => .ok (fieldsOf (names.map String.toList) 0 [] members ending)
  | .array ds ending =>
    .ok ⟨((names.map String.toList).zip (List.range names.length |>.zip ds)),
      names.length + 1, arrayFault names.length ds.length ending, true⟩
  | d => .error (unexpected d)

/-- A value in the making, together with the earliest fault met so far. -/
structure Making (α : Type) where
  value : Option α
  fault : Option (Nat × Fault)

/-- A function in the making applied to a value in the making. -/
def Making.apply {α β : Type} (f : Making (α → β)) (a : Making α) : Making β :=
  ⟨f.value.bind fun f => a.value.map f, earlier f.fault a.fault⟩

instance : Seq Making where
  seq f a := f.apply (a ())

instance : Functor Making where
  map f a := ⟨a.value.map f, a.fault⟩

namespace Fields

/-- The draft of a field and its place. -/
def get? (fs : Fields) (name : String) : Option (Nat × Draft) :=
  (fs.found.find? fun s => s.1 == name.toList).map fun s => s.2

/-- A value that is there. -/
def taken {α : Type} (place : Nat) : Except Fault α → Making α
  | .ok a => ⟨some a, none⟩
  | .error f => ⟨none, some (place, f)⟩

/-- A value that is not there: what stands for it, or a mismatch behind everything else. -/
def missing {α : Type} (fs : Fields) : Option α → Making α
  | some a => ⟨some a, none⟩
  | none => ⟨none, some (fs.stop, .mismatch)⟩

/-- A field that must be there. -/
def required {α : Type} (fs : Fields) (name : String) (value : Decoder α) : Making α :=
  match fs.get? name with
  | some (place, d) => taken place (value d)
  | none => fs.missing none

/-- A field that may be left out, with what then stands for it. -/
def defaulted {α : Type} (fs : Fields) (name : String) (value : Decoder α) (default : α) :
    Making α :=
  match fs.get? name with
  | some (place, d) => taken place (value d)
  | none => fs.missing (some default)

/-- A field that may be `null`, and that may be left out of an object. -/
def nullable {α : Type} (fs : Fields) (name : String) (value : Decoder α) : Making (Option α) :=
  match fs.get? name with
  | some (place, d) => taken place (option value d)
  | none => fs.missing (if fs.positional then none else some none)

/-- The value that was made, unless something went wrong on the way. -/
def finish {α : Type} (fs : Fields) (made : Making α) : Except Fault α :=
  match earlier fs.fault made.fault, made.value with
  | none, some a => .ok a
  | some (_, f), _ => .error f
  | none, none => .error .mismatch

end Fields

/-- A record with the given fields. -/
def record {α : Type} (names : List String) (make : Fields → Making α) : Decoder α := fun d => do
  let fs ← fields names d
  fs.finish (make fs)

/-! ### Tagged records -/

/-- A record of which one field, the tag, tells what the others are. The other fields are
taken as they are before they are looked at. -/
def tagged {α : Type} (tag : String) (variants : List (String × Decoder α)) : Decoder α
  | .object members ending => fromMembers none [] members ending
  | .array (d :: ds) ending => do
    let variant ← variantOf d
    match Draft.strictFaultOfItems? ds <|> ending.fault? with
    | some f => .error f
    | none =>
      match variant (.array ds .closed) with
      | .ok a => .ok a
      | .error _ => .error .mismatch
  | .array [] ending => .error (ending.fault?.getD .mismatch)
  | d => .error (unexpected d)
where
  /-- The variant that the tag names. -/
  variantOf : Draft → Except Fault (Decoder α)
    | .string (some text) =>
      match variants.find? fun v => v.1.toList = text with
      | some (_, variant) => .ok variant
      | none => .error .mismatch
    | d => .error (unexpected d)
  /-- The record of the remaining members, with the variant if the tag has been seen and the
  other members seen, the last one first. -/
  fromMembers (variant : Option (Decoder α)) (seen : List (Option (List Char) × Draft)) :
      List (Option (List Char) × Draft) → Ending → Except Fault α
    | [], ending =>
      match ending.fault?, variant with
      | some f, _ => .error f
      | none, none => .error .mismatch
      | none, some variant => variant (.object seen.reverse .closed)
    | (none, _) :: _, _ => .error .malformed
    | (some name, d) :: rest, ending =>
      if name = tag.toList then
        match variant with
        | some _ => .error .mismatch
        | none => do
          let variant ← variantOf d
          fromMembers (some variant) seen rest ending
      else
        match d.strictFault? with
        | some f => .error f
        | none => fromMembers variant ((some name, d) :: seen) rest ending

/-! ### Whole texts -/

/-- The value of a whole text. -/
def ofText {α : Type} (value : Decoder α) (text : List Char) : Except Fault α :=
  match Draft.ofText text with
  | (d, behind) => do
    let a ← value d
    match behind with
    | some f => .error f
    | none => .ok a

end Decoder

end CodeAtlas.Json
