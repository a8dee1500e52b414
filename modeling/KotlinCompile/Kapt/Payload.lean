import KotlinCompile.SortedMap
import KotlinCompile.Text.Character
import KotlinCompile.Text.Encoding

/-! The single text that hands a whole option map to kapt: in Base64, a count of entries in four
bytes and then each key and each value as a length in two bytes and that many bytes of unit
groups. The bytes are read from a cursor, which is where a fault says it was met. -/
namespace KotlinCompile.Kapt.Payload

inductive Fault where
  | tooManyEntries (count : Nat)
  | tooLong (length : Nat)
  | notBase64
  | truncated (offset : Nat)
  | negativeCount (count : Int)
  | malformedByte (byte : UInt8)
  | malformedContinuation
  | loneSurrogate
  | trailing (extra count : Nat)
deriving DecidableEq

def hexDigit (n : Nat) : Char := "0123456789abcdef".toList.getD n '0'

def hexByte (byte : UInt8) : String :=
  String.ofList ['0', 'x', hexDigit (byte.toNat / 16), hexDigit (byte.toNat % 16)]

def Fault.message : Fault → String
  | tooManyEntries count => s!"{count} entries exceed the record count range"
  | tooLong length => s!"encoded length {length} exceeds 65535 bytes"
  | notBase64 => "invalid base64"
  | truncated offset => s!"truncated record at byte {offset}"
  | negativeCount count => s!"negative entry count {count}"
  | malformedByte byte => s!"malformed UTF byte {hexByte byte}"
  | malformedContinuation => "malformed UTF continuation byte"
  | loneSurrogate => "invalid utf-16: lone surrogate found"
  | trailing extra count => s!"{extra} trailing bytes after {count} entries"

/-- A fault together with the option it was met at; reading knows of no option. -/
structure Error where
  key : String
  fault : Fault
deriving DecidableEq

def twoBytes (n : Nat) : Bytes := [UInt8.ofNat (n / 256), UInt8.ofNat (n % 256)]

def fourBytes (n : Nat) : Bytes := twoBytes (n / 65536) ++ twoBytes (n % 65536)

/-- The record of one text, refused when its length does not fit in two bytes. -/
def record (key text : String) : Except Error Bytes :=
  let groups := Text.unitGroups text
  if groups.length ≤ 65535 then .ok (twoBytes groups.length ++ groups)
  else .error ⟨key, .tooLong groups.length⟩

def records : List (String × String) → Except Error Bytes
  | [] => .ok []
  | (key, value) :: rest => do
    let first ← record key key
    let second ← record key value
    let others ← records rest
    return first ++ second ++ others

def write (options : SortedMap String) : Except Error Bytes :=
  let count := options.entries.length
  if count ≤ 2147483647 then (fourBytes count ++ ·) <$> records options.entries
  else .error ⟨"", .tooManyEntries count⟩

def encode (options : SortedMap String) : Except Error String :=
  (String.ofList <| Text.Base64.encode ·) <$> write options

/-- How many bytes were read, and those still to read. -/
structure Cursor where
  offset : Nat
  rest : Bytes

def Cursor.take (n : Nat) (cursor : Cursor) : Except Fault (Bytes × Cursor) :=
  if n ≤ cursor.rest.length then
    .ok (cursor.rest.take n, ⟨cursor.offset + n, cursor.rest.drop n⟩)
  else .error (.truncated cursor.offset)

def bigEndian (bytes : Bytes) : Nat := bytes.foldl (fun n byte => n * 256 + byte.toNat) 0

/-- A number below 2^32 as the signed number with the same bits. -/
def signed (n : Nat) : Int := if n < 2147483648 then n else (n : Int) - 4294967296

def isContinuation (byte : UInt8) : Bool := byte.toNat / 64 == 2

def readUnits : Bytes → Except Fault (List Nat)
  | [] => .ok []
  | first :: rest =>
    if first.toNat < 0x80 then (first.toNat :: ·) <$> readUnits rest
    else if first.toNat / 32 == 6 then
      match rest with
      | second :: rest =>
        if isContinuation second then
          ((first.toNat % 32 * 64 + second.toNat % 64) :: ·) <$> readUnits rest
        else .error .malformedContinuation
      | [] => .error .malformedContinuation
    else if first.toNat / 16 == 14 then
      match rest with
      | second :: third :: rest =>
        if isContinuation second && isContinuation third then
          ((first.toNat % 16 * 4096 + second.toNat % 64 * 64 + third.toNat % 64) :: ·) <$>
            readUnits rest
        else .error .malformedContinuation
      | _ => .error .malformedContinuation
    else .error (.malformedByte first)

def readText (cursor : Cursor) : Except Fault (String × Cursor) := do
  let (length, cursor) ← cursor.take 2
  let (bytes, cursor) ← cursor.take (bigEndian length)
  match Text.ofUnits? (← readUnits bytes) with
  | some text => return (String.ofList text, cursor)
  | none => throw .loneSurrogate

def readEntries : Nat → Cursor → Except Fault (List (String × String) × Cursor)
  | 0, cursor => .ok ([], cursor)
  | count + 1, cursor => do
    let (key, cursor) ← readText cursor
    let (value, cursor) ← readText cursor
    let (others, cursor) ← readEntries count cursor
    return ((key, value) :: others, cursor)

def readAll (bytes : Bytes) : Except Fault (List (String × String)) := do
  let (head, cursor) ← Cursor.take 4 ⟨0, bytes⟩
  let count := signed (bigEndian head)
  if count < 0 then throw (.negativeCount count)
  let (entries, cursor) ← readEntries count.toNat cursor
  if cursor.rest.length ≠ 0 then throw (.trailing cursor.rest.length count.toNat)
  return entries

/-- A key that occurs twice keeps its last value. -/
def read (bytes : Bytes) : Except Fault (SortedMap String) := SortedMap.ofList <$> readAll bytes

def decode (encoded : String) : Except Error (SortedMap String) :=
  let result := match Text.Base64.decode? (Text.trim encoded.toList) with
    | some bytes => read bytes
    | none => .error .notBase64
  result.mapError fun fault => ⟨"", fault⟩

end KotlinCompile.Kapt.Payload
