import KotlinCompile.Text.Character
import KotlinCompile.Text.Cut
import KotlinCompile.Toml.Value

/-! The words of a TOML document: blanks, comments, keys, strings, numbers, dates and times. A
reader takes what it knows off the front of the text and returns the rest, or none if the text
does not begin that way. -/
namespace KotlinCompile.Toml

abbrev Reader (α : Type) := List Char → Option (α × List Char)

def isSpace (c : Char) : Bool := c == ' ' || c == '\t'

def skipSpace (text : List Char) : List Char := text.dropWhile isSpace

/-- Characters that may stand in a line outside of strings and escapes: a tab, and all that is not
a control character. -/
def isPlain (c : Char) : Bool := c == '\t' || (' ' ≤ c && c != '\x7F')

def newline? : List Char → Option (List Char)
  | '\n' :: rest => some rest
  | '\r' :: '\n' :: rest => some rest
  | _ => none

def skipComment : List Char → List Char
  | '#' :: rest => rest.dropWhile isPlain
  | text => text

/-- The end of a line: blanks, a comment, and a line feed or the end of the document. -/
def lineEnd? (text : List Char) : Option (List Char) :=
  match skipComment (skipSpace text) with
  | [] => some []
  | rest => newline? rest

def skipLines (fuel : Nat) (text : List Char) : List Char :=
  match fuel with
  | 0 => text
  | fuel + 1 =>
    match skipSpace text with
    | '#' :: rest => skipLines fuel (skipComment ('#' :: rest))
    | '\n' :: rest => skipLines fuel rest
    | '\r' :: '\n' :: rest => skipLines fuel rest
    | rest => rest

def hexValue? (c : Char) : Option Nat :=
  if '0' ≤ c ∧ c ≤ '9' then some (c.toNat - '0'.toNat)
  else if 'a' ≤ c ∧ c ≤ 'f' then some (c.toNat - 'a'.toNat + 10)
  else if 'A' ≤ c ∧ c ≤ 'F' then some (c.toNat - 'A'.toNat + 10)
  else none

def hexNumber? : Nat → Nat → Reader Nat
  | 0, value, rest => some (value, rest)
  | _ + 1, _, [] => none
  | count + 1, value, c :: rest => do hexNumber? count (value * 16 + (← hexValue? c)) rest

def scalar? (n : Nat) : Option Char := if n.isValidChar then some (Char.ofNat n) else none

def escape? : Reader Char
  | 'b' :: rest => some ('\x08', rest)
  | 't' :: rest => some ('\t', rest)
  | 'n' :: rest => some ('\n', rest)
  | 'f' :: rest => some ('\x0C', rest)
  | 'r' :: rest => some ('\r', rest)
  | '"' :: rest => some ('"', rest)
  | '\\' :: rest => some ('\\', rest)
  | 'u' :: rest => do let (n, rest) ← hexNumber? 4 0 rest; return (← scalar? n, rest)
  | 'U' :: rest => do let (n, rest) ← hexNumber? 8 0 rest; return (← scalar? n, rest)
  | _ => none

def quoted? (fuel : Nat) : Reader (List Char) := fun text =>
  match fuel, text with
  | 0, _ => none
  | _, [] => none
  | _, '"' :: rest => some ([], rest)
  | fuel + 1, '\\' :: rest => do
    let (c, rest) ← escape? rest
    let (others, rest) ← quoted? fuel rest
    return (c :: others, rest)
  | fuel + 1, c :: rest =>
    if isPlain c then do
      let (others, rest) ← quoted? fuel rest
      return (c :: others, rest)
    else none

def literal? : Reader (List Char)
  | [] => none
  | '\'' :: rest => some ([], rest)
  | c :: rest =>
    if isPlain c then do
      let (others, rest) ← literal? rest
      return (c :: others, rest)
    else none

def skipFolded (fuel : Nat) (text : List Char) : List Char :=
  match fuel with
  | 0 => text
  | fuel + 1 =>
    match newline? (skipSpace text) with
    | some rest => skipFolded fuel rest
    | none => skipSpace text

/-- The quotes that stand before the three that close a string of several lines: at most two. -/
def closing? (quote : Char) (text : List Char) : Option (Nat × List Char) :=
  let count := (text.takeWhile (· == quote)).length
  if count < 3 then none else some (min 2 (count - 3), text.drop (min 2 (count - 3) + 3))

/-- The rest of a string of several lines; `escapes` in double quotes. -/
def block? (quote : Char) (escapes : Bool) (fuel : Nat) : Reader (List Char) := fun text =>
  match fuel with
  | 0 => none
  | fuel + 1 =>
    match closing? quote text with
    | some (extra, rest) => some (List.replicate extra quote, rest)
    | none =>
      match newline? text with
      | some rest => do
        let (others, rest) ← block? quote escapes fuel rest
        return ('\n' :: others, rest)
      | none =>
        match text with
        | [] => none
        | c :: rest =>
          if c == '\\' && escapes then
            match newline? (skipSpace rest) with
            | some after => block? quote escapes fuel (skipFolded after.length after)
            | none => do
              let (c, rest) ← escape? rest
              let (others, rest) ← block? quote escapes fuel rest
              return (c :: others, rest)
          else if isPlain c then do
            let (others, rest) ← block? quote escapes fuel rest
            return (c :: others, rest)
          else none

/-- A line end directly after the opening quotes does not belong to the string. -/
def withoutFirstLine (text : List Char) : List Char := (newline? text).getD text

def string? (text : List Char) : Option (String × List Char) :=
  let read := match text with
    | '"' :: '"' :: '"' :: rest => block? '"' true (text.length + 1) (withoutFirstLine rest)
    | '\'' :: '\'' :: '\'' :: rest => block? '\'' false (text.length + 1) (withoutFirstLine rest)
    | '"' :: rest => quoted? (text.length + 1) rest
    | '\'' :: rest => literal? rest
    | _ => none
  read.map fun (chars, rest) => (String.ofList chars, rest)

def isBare (c : Char) : Bool :=
  ('A' ≤ c && c ≤ 'Z') || ('a' ≤ c && c ≤ 'z') || ('0' ≤ c && c ≤ '9') || c == '_' || c == '-'

def keyPart? (text : List Char) : Option (String × List Char) :=
  match text with
  | '"' :: rest => (quoted? (text.length + 1) rest).map fun (chars, rest) => (String.ofList chars, rest)
  | '\'' :: rest => (literal? rest).map fun (chars, rest) => (String.ofList chars, rest)
  | _ =>
    match text.takeWhile isBare with
    | [] => none
    | bare => some (String.ofList bare, text.dropWhile isBare)

def key? (fuel : Nat) : Reader (List String) := fun text =>
  match fuel with
  | 0 => none
  | fuel + 1 => do
    let (part, rest) ← keyPart? text
    match skipSpace rest with
    | '.' :: after => do
      let (others, rest) ← key? fuel (skipSpace after)
      return (part :: others, rest)
    | rest => return ([part], rest)

/-- One digit or more, with single underscores between them. -/
def digitRun? (isDigit : Char → Bool) : Reader (List Char)
  | [] => none
  | c :: rest => if isDigit c then some (c :: (go rest).1, (go rest).2) else none
where
  go : List Char → List Char × List Char
    | '_' :: c :: rest =>
      if isDigit c then (c :: (go rest).1, (go rest).2) else ([], '_' :: c :: rest)
    | c :: rest => if isDigit c then (c :: (go rest).1, (go rest).2) else ([], c :: rest)
    | [] => ([], [])

def numeral (base : Nat) (digits : List Char) : Nat :=
  digits.foldl (fun n c => n * base + (hexValue? c).getD 0) 0

def sign : List Char → Bool × List Char
  | '-' :: rest => (true, rest)
  | '+' :: rest => (false, rest)
  | text => (false, text)

def wholePart? : Reader (List Char)
  | '0' :: rest => some (['0'], rest)
  | text => digitRun? Text.isDigit text

def inRange (value : Int) : Option Int :=
  if -9223372036854775808 ≤ value ∧ value ≤ 9223372036854775807 then some value else none

def isBase (base : Nat) (c : Char) : Bool := (hexValue? c).any (· < base)

def integer? (text : List Char) : Option (Int × List Char) :=
  let based (base : Nat) (rest : List Char) : Option (Int × List Char) := do
    let (digits, rest) ← digitRun? (isBase base) rest
    return (← inRange (numeral base digits), rest)
  match text with
  | '0' :: 'x' :: rest => based 16 rest
  | '0' :: 'o' :: rest => based 8 rest
  | '0' :: 'b' :: rest => based 2 rest
  | _ => do
    let (negative, rest) := sign text
    let (digits, rest) ← wholePart? rest
    let value : Int := numeral 10 digits
    return (← inRange (if negative then -value else value), rest)

def exponent? : Reader Int
  | 'e' :: rest => signed rest
  | 'E' :: rest => signed rest
  | _ => none
where
  signed (text : List Char) : Option (Int × List Char) := do
    let (negative, rest) := sign text
    let (digits, rest) ← digitRun? Text.isDigit rest
    let value : Int := numeral 10 digits
    return (if negative then -value else value, rest)

/-- The nearest number with a 53-bit significand. A number too large for one is refused, but a
negative one counts as negative infinity. -/
def rounded? (negative : Bool) (digits : List Char) (exponent : Int) : Option Decimal.Binary64 :=
  match Decimal.ofDecimal? (numeral 10 digits) exponent with
  | some magnitude => some (.finite negative magnitude)
  | none => if negative then some (.infinite true) else none

def float? (text : List Char) : Option (Decimal.Binary64 × List Char) :=
  let (negative, unsigned) := sign text
  match unsigned with
  | 'i' :: 'n' :: 'f' :: rest => some (.infinite negative, rest)
  | 'n' :: 'a' :: 'n' :: rest => some (.notANumber, rest)
  | _ => do
    let (whole, rest) ← wholePart? unsigned
    match rest with
    | '.' :: after =>
      let (fraction, rest) ← digitRun? Text.isDigit after
      let (exponent, rest) := (exponent? rest).getD (0, rest)
      return (← rounded? negative (whole ++ fraction) (exponent - fraction.length), rest)
    | _ =>
      let (exponent, rest) ← exponent? rest
      return (← rounded? negative whole exponent, rest)

def field? (count low high : Nat) (text : List Char) : Option (List Char × List Char) :=
  let digits := text.take count
  let value := numeral 10 digits
  if digits.length = count ∧ digits.all Text.isDigit ∧ low ≤ value ∧ value ≤ high then
    some (digits, text.drop count)
  else none

def mark? (c : Char) : List Char → Option (List Char)
  | [] => none
  | first :: rest => if first == c then some rest else none

def daysIn (year month : Nat) : Nat :=
  if month = 2 then
    if year % 4 = 0 ∧ (year % 100 ≠ 0 ∨ year % 400 = 0) then 29 else 28
  else if month ∈ [4, 6, 9, 11] then 30 else 31

def date? (text : List Char) : Option (List Char × List Char) := do
  let (year, rest) ← field? 4 0 9999 text
  let (month, rest) ← field? 2 1 12 (← mark? '-' rest)
  let (day, rest) ← field? 2 1 (daysIn (numeral 10 year) (numeral 10 month)) (← mark? '-' rest)
  return (year ++ '-' :: month ++ '-' :: day, rest)

/-- A time of day. Fractions of a second are kept to nine places, without zeros at their end. -/
def time? (text : List Char) : Option (List Char × List Char) := do
  let (hour, rest) ← field? 2 0 23 text
  let (minute, rest) ← field? 2 0 59 (← mark? ':' rest)
  let (second, rest) ← field? 2 0 60 (← mark? ':' rest)
  let whole := hour ++ ':' :: minute ++ ':' :: second
  match rest with
  | '.' :: after =>
    match after.takeWhile Text.isDigit with
    | [] => return (whole, rest)
    | digits =>
      let kept := ((digits.take 9).reverse.dropWhile (· == '0')).reverse
      return (whole ++ (if kept.isEmpty then [] else '.' :: kept), after.dropWhile Text.isDigit)
  | _ => return (whole, rest)

def offset? : Reader (List Char)
  | 'Z' :: rest => some (['Z'], rest)
  | 'z' :: rest => some (['Z'], rest)
  | '+' :: rest => clock '+' rest
  | '-' :: rest => clock '-' rest
  | _ => none
where
  clock (sign : Char) (text : List Char) : Option (List Char × List Char) := do
    let (hour, rest) ← field? 2 0 23 text
    let (minute, rest) ← field? 2 0 59 (← mark? ':' rest)
    let sign := if numeral 10 hour + numeral 10 minute = 0 then '+' else sign
    return (sign :: hour ++ ':' :: minute, rest)

def isTimeMark (c : Char) : Bool := c == 'T' || c == 't' || c == ' '

def moment? (text : List Char) : Option (String × List Char) :=
  match date? text with
  | none => (time? text).map fun (time, rest) => (String.ofList time, rest)
  | some (date, rest) =>
    let timed := match rest with
      | c :: after => if isTimeMark c then time? after else none
      | [] => none
    match timed with
    | none => some (String.ofList date, rest)
    | some (time, rest) =>
      let (offset, rest) := (offset? rest).getD ([], rest)
      some (String.ofList (date ++ 'T' :: time ++ offset), rest)

end KotlinCompile.Toml
