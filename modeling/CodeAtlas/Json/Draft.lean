/-!
# `CodeAtlas.Json.Draft`: JSON texts as far as they can be read

A text is read from left to right. What has been read is kept as a draft even if the text
breaks off or goes wrong: the fault then stands in the draft at the place where reading
stopped. Whoever takes values out of a draft in order therefore meets the faults of the text
and the mismatches of its own in the order of the text.
-/

set_option autoImplicit false

namespace CodeAtlas.Json

/-- Why a text cannot be taken for a value. -/
inductive Fault where
  /-- The text is not JSON. -/
  | malformed
  /-- The text ends before the value does. -/
  | truncated
  /-- The text is JSON of another shape. -/
  | mismatch
deriving DecidableEq, Repr

/-- What is wrong with a document. -/
def Fault.message : Fault → String
  | .malformed => "the document is not JSON"
  | .truncated => "the document breaks off"
  | .mismatch => "the document has another shape"

/-- How the items of an array or the members of an object end. -/
inductive Ending where
  | closed
  /-- Something went wrong behind an item. -/
  | broken (fault : Fault)
  /-- Something went wrong behind the comma that follows an item. -/
  | brokenAfterComma (fault : Fault)
deriving DecidableEq, Repr

/-- The fault of an ending. -/
def Ending.fault? : Ending → Option Fault
  | .closed => none
  | .broken f | .brokenAfterComma f => some f

/-- A value as far as it can be read. -/
inductive Draft where
  | fault (f : Fault)
  | null
  | bool (b : Bool)
  | number (text : List Char)
  /-- A string; there is no text if its escapes do not make characters. -/
  | string (text : Option (List Char))
  | array (items : List Draft) (ending : Ending)
  | object (members : List (Option (List Char) × Draft)) (ending : Ending)

namespace Draft

/-! ### Lexemes -/

/-- The space between lexemes. -/
def isSpace (c : Char) : Bool :=
  c = ' ' || c = '\n' || c = '\t' || c = '\r'

/-- The text behind the space at its front. -/
def skipSpace (cs : List Char) : List Char :=
  cs.dropWhile isSpace

/-- What a word leaves of a text, or the fault. -/
def readWord : List Char → List Char → Except Fault (List Char)
  | [], rest => .ok rest
  | _ :: _, [] => .error .truncated
  | w :: word, c :: rest => if w = c then readWord word rest else .error .malformed

/-- The value of a hexadecimal digit. -/
def hexValue? (c : Char) : Option Nat :=
  if c.isDigit then some (c.toNat - 48)
  else if 'a' ≤ c && c ≤ 'f' then some (c.toNat - 87)
  else if 'A' ≤ c && c ≤ 'F' then some (c.toNat - 55)
  else none

/-- The number of four hexadecimal digits and the text behind them. -/
def readHex (cs : List Char) : Except Fault (Nat × List Char) :=
  match cs with
  | a :: b :: c :: d :: rest =>
    match hexValue? a, hexValue? b, hexValue? c, hexValue? d with
    | some a, some b, some c, some d => .ok (((a * 16 + b) * 16 + c) * 16 + d, rest)
    | _, _, _, _ => .error .malformed
  | _ => .error .truncated

/-- The character of a one-letter escape. -/
def escaped? (c : Char) : Option Char :=
  match c with
  | '"' => some '"'
  | '\\' => some '\\'
  | '/' => some '/'
  | 'b' => some '\x08'
  | 'f' => some '\x0c'
  | 'n' => some '\n'
  | 'r' => some '\r'
  | 't' => some '\t'
  | _ => none

/-- A piece of a string: the character that it stands for, if it stands for one, and the text
behind it. -/
def readUnicode (cs : List Char) : Except Fault (Option Char × List Char) := do
  let (n, rest) ← readHex cs
  if 0xD800 ≤ n && n < 0xDC00 then
    match rest with
    | '\\' :: 'u' :: more =>
      match readHex more with
      | .ok (m, behind) =>
        if 0xDC00 ≤ m && m < 0xE000 then
          return (some (Char.ofNat (0x10000 + (n - 0xD800) * 0x400 + (m - 0xDC00))), behind)
        else return (none, rest)
      | .error _ => return (none, rest)
    | _ => return (none, rest)
  else if 0xDC00 ≤ n && n < 0xE000 then return (none, rest)
  else return (some (Char.ofNat n), rest)

/-- The inside of a string up to its closing quote, from the end of what was read of it; the
first argument bounds the number of pieces. -/
def readString : Nat → Option (List Char) → List Char →
    Except Fault (Option (List Char) × List Char)
  | 0, _, _ => .error .truncated
  | _ + 1, _, [] => .error .truncated
  | _ + 1, seen, '"' :: rest => .ok (seen.map List.reverse, rest)
  | _ + 1, _, ['\\'] => .error .truncated
  | bound + 1, seen, '\\' :: 'u' :: rest => do
    let (c, behind) ← readUnicode rest
    readString bound (seen.bind fun cs => c.map (· :: cs)) behind
  | bound + 1, seen, '\\' :: c :: rest =>
    match escaped? c with
    | some e => readString bound (seen.map (e :: ·)) rest
    | none => .error .malformed
  | bound + 1, seen, c :: rest =>
    if c.toNat < 32 then .error .malformed
    else readString bound (seen.map (c :: ·)) rest

/-- The digits at the front of a text, at least one. -/
def readDigits (cs : List Char) : Except Fault (List Char × List Char) :=
  match cs.takeWhile Char.isDigit with
  | [] => .error (if cs = [] then .truncated else .malformed)
  | digits => .ok (digits, cs.dropWhile Char.isDigit)

/-- The integer part of a number: a zero that no digit follows, or digits. -/
def readWhole (cs : List Char) : Except Fault (List Char × List Char) :=
  match cs with
  | '0' :: c :: rest => if c.isDigit then .error .malformed else .ok (['0'], c :: rest)
  | _ => readDigits cs

/-- The fraction of a number with its point, if there is one. -/
def readFraction (cs : List Char) : Except Fault (List Char × List Char) :=
  match cs with
  | '.' :: rest => do
    let (digits, behind) ← readDigits rest
    return ('.' :: digits, behind)
  | _ => .ok ([], cs)

/-- The exponent of a number with its mark, if there is one. -/
def readExponent (cs : List Char) : Except Fault (List Char × List Char) :=
  match cs with
  | c :: rest =>
    if c = 'e' || c = 'E' then
      match rest with
      | s :: more =>
        if s = '+' || s = '-' then do
          let (digits, behind) ← readDigits more
          return (c :: s :: digits, behind)
        else do
          let (digits, behind) ← readDigits rest
          return (c :: digits, behind)
      | [] => .error .truncated
    else .ok ([], cs)
  | [] => .ok ([], cs)

/-- A number behind its sign. -/
def readUnsigned (cs : List Char) : Except Fault (List Char × List Char) := do
  let (whole, cs) ← readWhole cs
  let (fraction, cs) ← readFraction cs
  let (exponent, cs) ← readExponent cs
  return (whole ++ fraction ++ exponent, cs)

/-- A number. -/
def readNumber (cs : List Char) : Except Fault (List Char × List Char) :=
  match cs with
  | '-' :: rest => do
    let (text, behind) ← readUnsigned rest
    return ('-' :: text, behind)
  | _ => readUnsigned cs

/-! ### Values -/

/-- A draft that a word makes, with the text behind it. -/
def ofWord (word : List Char) (d : Draft) (cs : List Char) : Draft × Option (List Char) :=
  match readWord word cs with
  | .ok rest => (d, some rest)
  | .error f => (.fault f, none)

mutual

/-- The value at the front of a text, and the text behind it unless reading stopped in the
value. The first argument bounds the number of steps. -/
def readValue : Nat → List Char → Draft × Option (List Char)
  | 0, _ => (.fault .malformed, none)
  | bound + 1, cs =>
    match skipSpace cs with
    | [] => (.fault .truncated, none)
    | 'n' :: rest => ofWord ['u', 'l', 'l'] .null rest
    | 't' :: rest => ofWord ['r', 'u', 'e'] (.bool true) rest
    | 'f' :: rest => ofWord ['a', 'l', 's', 'e'] (.bool false) rest
    | '"' :: rest =>
      match readString (rest.length + 1) (some []) rest with
      | .ok (text, behind) => (.string text, some behind)
      | .error f => (.fault f, none)
    | '[' :: rest =>
      match skipSpace rest with
      | ']' :: behind => (.array [] .closed, some behind)
      | [] => (.array [] (.broken .truncated), none)
      | c :: more => match readItems bound (c :: more) with
        | (items, ending, behind) => (.array items ending, behind)
    | '\x7b' :: rest =>
      match skipSpace rest with
      | '\x7d' :: behind => (.object [] .closed, some behind)
      | [] => (.object [] (.broken .truncated), none)
      | c :: more => match readMembers bound (c :: more) with
        | (members, ending, behind) => (.object members ending, behind)
    | c :: rest =>
      if c = '-' || c.isDigit then
        match readNumber (c :: rest) with
        | .ok (text, behind) => (.number text, some behind)
        | .error f => (.fault f, none)
      else (.fault .malformed, none)

/-- The items of an array from an item on, how they end, and the text behind the array. -/
def readItems : Nat → List Char → List Draft × Ending × Option (List Char)
  | 0, _ => ([], .broken .malformed, none)
  | bound + 1, cs =>
    match readValue bound cs with
    | (item, none) => ([item], .closed, none)
    | (item, some rest) =>
      match skipSpace rest with
      | ']' :: behind => ([item], .closed, some behind)
      | ',' :: more =>
        match skipSpace more with
        | ']' :: _ => ([item], .brokenAfterComma .malformed, none)
        | [] => ([item], .brokenAfterComma .truncated, none)
        | c :: others =>
          match readItems bound (c :: others) with
          | (items, ending, behind) => (item :: items, ending, behind)
      | [] => ([item], .broken .truncated, none)
      | _ :: _ => ([item], .broken .malformed, none)

/-- The members of an object from a name on, how they end, and the text behind the object. -/
def readMembers : Nat → List Char →
    List (Option (List Char) × Draft) × Ending × Option (List Char)
  | 0, _ => ([], .broken .malformed, none)
  | bound + 1, cs =>
    match cs with
    | '"' :: rest =>
      match readString (rest.length + 1) (some []) rest with
      | .error f => ([], .broken f, none)
      | .ok (name, behind) =>
        match skipSpace behind with
        | ':' :: rest =>
          match readValue bound rest with
          | (value, none) => ([(name, value)], .closed, none)
          | (value, some rest) =>
            match skipSpace rest with
            | '\x7d' :: behind => ([(name, value)], .closed, some behind)
            | ',' :: more =>
              match skipSpace more with
              | [] => ([(name, value)], .brokenAfterComma .truncated, none)
              | c :: others =>
                match readMembers bound (c :: others) with
                | (members, ending, behind) => ((name, value) :: members, ending, behind)
            | [] => ([(name, value)], .broken .truncated, none)
            | _ :: _ => ([(name, value)], .broken .malformed, none)
        | [] => ([(name, .fault .truncated)], .closed, none)
        | _ :: _ => ([(name, .fault .malformed)], .closed, none)
    | [] => ([], .broken .truncated, none)
    | _ :: _ => ([], .broken .malformed, none)

end

/-- The draft of a text, and the fault behind the value, if anything but space stands there. -/
def ofText (cs : List Char) : Draft × Option Fault :=
  match readValue (2 * cs.length + 2) cs with
  | (d, none) => (d, none)
  | (d, some rest) => (d, if skipSpace rest = [] then none else some .malformed)

end Draft

end CodeAtlas.Json
