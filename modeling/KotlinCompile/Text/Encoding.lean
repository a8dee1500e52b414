/-! Text as bytes: UTF-8, the form of it that writes each 16-bit unit on its own, with two bytes for
NUL so that no byte is zero, and Base64, of which only the written form of some bytes is read. -/
namespace KotlinCompile

abbrev Bytes := List UInt8

namespace Byte

abbrev nul : UInt8 := 0x00
abbrev lineFeed : UInt8 := 0x0A
abbrev dot : UInt8 := 0x2E
abbrev slash : UInt8 := 0x2F
abbrev colon : UInt8 := 0x3A
abbrev tilde : UInt8 := 0x7E

end Byte

namespace Text

def utf8 (text : String) : Bytes := text.toList.flatMap String.utf8EncodeChar

/-- What a byte above 0x7F announces: its own bits, the range of the next byte, and how many
bytes follow. The narrowed ranges shut out overlong forms, surrogates and values over 0x10FFFF. -/
structure Lead where
  bits : Nat
  low : UInt8
  high : UInt8
  more : Nat

def lead? (b : UInt8) : Option Lead :=
  if 0xC2 ≤ b && b ≤ 0xDF then some ⟨b.toNat - 0xC0, 0x80, 0xBF, 1⟩
  else if b == 0xE0 then some ⟨0, 0xA0, 0xBF, 2⟩
  else if b == 0xED then some ⟨0xD, 0x80, 0x9F, 2⟩
  else if 0xE1 ≤ b && b ≤ 0xEF then some ⟨b.toNat - 0xE0, 0x80, 0xBF, 2⟩
  else if b == 0xF0 then some ⟨0, 0x90, 0xBF, 3⟩
  else if 0xF1 ≤ b && b ≤ 0xF3 then some ⟨b.toNat - 0xF0, 0x80, 0xBF, 3⟩
  else if b == 0xF4 then some ⟨4, 0x80, 0x8F, 3⟩
  else none

/-- Reads `more` following bytes; at the first that does not fit, what was read so far is lost
and that byte is left for the next character. -/
def follow : Nat → UInt8 → UInt8 → Nat → Bytes → Option Nat × Bytes
  | 0, _, _, value, rest => (some value, rest)
  | _ + 1, _, _, _, [] => (none, [])
  | more + 1, low, high, value, b :: rest =>
    if low ≤ b && b ≤ high then follow more 0x80 0xBF (value * 64 + b.toNat % 64) rest
    else (none, b :: rest)

theorem length_follow (more : Nat) (low high : UInt8) (value : Nat) (rest : Bytes) :
    (follow more low high value rest).2.length ≤ rest.length := by
  induction more generalizing low high value rest with
  | zero => simp [follow]
  | succ more ih =>
    cases rest with
    | nil => simp [follow]
    | cons b rest =>
      simp only [follow]
      split
      · exact Nat.le_succ_of_le (ih ..)
      · simp

/-- The character that the bytes begin with, or none for the longest piece that begins one but
cannot be finished. -/
def firstChar (b : UInt8) (rest : Bytes) : Option Char × Bytes :=
  if b < 0x80 then (some (Char.ofNat b.toNat), rest)
  else match lead? b with
    | none => (none, rest)
    | some lead =>
      let (value, after) := follow lead.more lead.low lead.high lead.bits rest
      (value.map Char.ofNat, after)

theorem length_firstChar (b : UInt8) (rest : Bytes) :
    (firstChar b rest).2.length ≤ rest.length := by
  simp only [firstChar]
  split
  · simp
  · split
    · simp
    · exact length_follow ..

def scalars : Bytes → List (Option Char)
  | [] => []
  | b :: rest => (firstChar b rest).1 :: scalars (firstChar b rest).2
termination_by bytes => bytes.length
decreasing_by exact Nat.lt_succ_of_le (length_firstChar b rest)

/-- The text of the bytes, with U+FFFD for each piece that is not a character. -/
def lossy (bytes : Bytes) : String :=
  String.ofList ((scalars bytes).map (·.getD '\uFFFD'))

def strict? (bytes : Bytes) : Option String :=
  if (scalars bytes).all (·.isSome) then some (lossy bytes) else none

end Text

instance : Coe String Bytes := ⟨Text.utf8⟩

namespace Text

/-- The units of a character: its code point, or a high and a low surrogate. -/
def units (c : Char) : List Nat :=
  if c.toNat < 0x10000 then [c.toNat]
  else [0xD800 + (c.toNat - 0x10000) / 0x400, 0xDC00 + (c.toNat - 0x10000) % 0x400]

def isHighSurrogate (unit : Nat) : Bool := decide (0xD800 ≤ unit) && decide (unit < 0xDC00)

def isLowSurrogate (unit : Nat) : Bool := decide (0xDC00 ≤ unit) && decide (unit < 0xE000)

/-- The characters of a list of units, unless a surrogate stands alone. -/
def ofUnits? : List Nat → Option (List Char)
  | [] => some []
  | unit :: rest =>
    if isHighSurrogate unit then
      match rest with
      | [] => none
      | low :: rest =>
        if isLowSurrogate low then
          (ofUnits? rest).map
            (Char.ofNat (0x10000 + (unit - 0xD800) * 0x400 + (low - 0xDC00)) :: ·)
        else none
    else if isLowSurrogate unit then none
    else (ofUnits? rest).map (Char.ofNat unit :: ·)

def unitGroup (unit : Nat) : Bytes :=
  if 1 ≤ unit ∧ unit ≤ 0x7F then [UInt8.ofNat unit]
  else if unit ≤ 0x7FF then [UInt8.ofNat (0xC0 + unit / 64), UInt8.ofNat (0x80 + unit % 64)]
  else [UInt8.ofNat (0xE0 + unit / 4096), UInt8.ofNat (0x80 + unit / 64 % 64),
    UInt8.ofNat (0x80 + unit % 64)]

def unitGroups (text : String) : Bytes := (text.toList.flatMap units).flatMap unitGroup

namespace Base64

def alphabet : List Char :=
  "ABCDEFGHIJKLMNOPQRSTUVWXYZabcdefghijklmnopqrstuvwxyz0123456789+/".toList

def digit (value : Nat) : Char := alphabet.getD value 'A'

def value? (c : Char) : Option Nat :=
  if 'A' ≤ c ∧ c ≤ 'Z' then some (c.toNat - 'A'.toNat)
  else if 'a' ≤ c ∧ c ≤ 'z' then some (c.toNat - 'a'.toNat + 26)
  else if '0' ≤ c ∧ c ≤ '9' then some (c.toNat - '0'.toNat + 52)
  else if c = '+' then some 62
  else if c = '/' then some 63
  else none

def quartet (a b c : UInt8) : List Char :=
  [digit (a.toNat / 4), digit (a.toNat % 4 * 16 + b.toNat / 16),
    digit (b.toNat % 16 * 4 + c.toNat / 64), digit (c.toNat % 64)]

def encode : Bytes → List Char
  | [] => []
  | [a] => (quartet a 0 0).take 2 ++ ['=', '=']
  | [a, b] => (quartet a b 0).take 3 ++ ['=']
  | a :: b :: c :: rest => quartet a b c ++ encode rest

def firstByte (w x : Nat) : UInt8 := UInt8.ofNat (w * 4 + x / 16)
def secondByte (x y : Nat) : UInt8 := UInt8.ofNat (x % 16 * 16 + y / 4)
def thirdByte (y z : Nat) : UInt8 := UInt8.ofNat (y % 4 * 64 + z)

def decode? : List Char → Option Bytes
  | [] => some []
  | [c, d, '=', '='] => do
    let w ← value? c
    let x ← value? d
    if x % 16 = 0 then some [firstByte w x] else none
  | [c, d, e, '='] => do
    let w ← value? c
    let x ← value? d
    let y ← value? e
    if y % 4 = 0 then some [firstByte w x, secondByte x y] else none
  | c :: d :: e :: f :: rest => do
    let w ← value? c
    let x ← value? d
    let y ← value? e
    let z ← value? f
    let bytes ← decode? rest
    some (firstByte w x :: secondByte x y :: thirdByte y z :: bytes)
  | _ => none

end Base64

end Text
end KotlinCompile
