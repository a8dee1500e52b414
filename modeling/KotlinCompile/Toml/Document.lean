import KotlinCompile.Toml.Lexeme
import KotlinCompile.Toml.Value

/-! Reading a TOML document. The whole text is read before any key is given a meaning, so a text
that is no document is refused as such whatever its keys are. A table is opened by a header once, a
dotted key adds only to tables that dotted keys made, and nothing is given twice. -/
namespace KotlinCompile.Toml

/-- Whether a path may go on through a table; `inKey` when it is the path of a dotted key. -/
def Origin.isOpen (inKey : Bool) : Origin → Bool
  | .header => !inKey
  | .implied => true
  | .dotted => true
  | .braces => false

def adjust (key : String) (change : Option Value → Option Value) : Entries → Option Entries
  | [] => (change none).map fun value => [(key, value)]
  | (name, value) :: rest =>
    if name = key then (change (some value)).map fun value => (name, value) :: rest
    else (adjust key change rest).map ((name, value) :: ·)

/-- Changes the table at the end of a path, with the tables on the way made if they are missing. A
list of tables stands for its last one. -/
def within (inKey : Bool) (change : Origin → Entries → Option Entries) (origin : Origin) :
    List String → Entries → Option Entries
  | [], entries => change origin entries
  | key :: rest, entries => adjust key
    (fun
      | none =>
        let made := if inKey then Origin.dotted else Origin.implied
        (within inKey change made rest []).map (.table made)
      | some (.table found inner) =>
        if found.isOpen inKey then (within inKey change found rest inner).map (.table found)
        else none
      | some (.tables items) =>
        match items.reverse with
        | .table found inner :: before =>
          (within inKey change found rest inner).map fun inner =>
            .tables (before.reverse ++ [.table found inner])
        | _ => none
      | some _ => none) entries

def addEntry (key : String) (value : Value) (entries : Entries) : Option Entries :=
  if (entries.lookup key).isSome then none else some (entries ++ [(key, value)])

def addKey (path : List String) (key : String) (value : Value) (entries : Entries) :
    Option Entries :=
  within true (fun origin inner =>
    if (origin == .dotted) == path.isEmpty then none else addEntry key value inner)
    .header path entries

def openTable (path : List String) (key : String) (document : Entries) :
    Option (Entries × Entries) := do
  let document ← within false (fun _ inner => some inner) .header path document
  let found ← entriesAt path document
  match found.lookup key with
  | none => return ([], document)
  | some (.table .implied inner) =>
    let document ← within false (fun _ inner => some (inner.filter (·.1 != key)))
      .header path document
    return (inner, document)
  | some _ => none
where
  entriesAt : List String → Entries → Option Entries
    | [], entries => some entries
    | key :: rest, entries =>
      match entries.lookup key with
      | some (.table _ inner) => entriesAt rest inner
      | some (.tables items) =>
        match items.getLast? with
        | some (.table _ inner) => entriesAt rest inner
        | _ => none
      | _ => none

def closeTable (path : List String) (key : String) (table document : Entries) : Option Entries :=
  within false (fun _ inner => addEntry key (.table .header table) inner) .header path document

def openList (path : List String) (key : String) (document : Entries) : Option Entries :=
  within false (fun _ inner =>
    match inner.lookup key with
    | none => some (inner ++ [(key, .tables [])])
    | some (.tables _) => some inner
    | some _ => none) .header path document

def closeList (path : List String) (key : String) (table document : Entries) : Option Entries :=
  within false (fun _ inner => some <| inner.map fun entry =>
    match entry with
    | (name, .tables items) =>
      if name = key then (name, .tables (items ++ [.table .header table])) else entry
    | _ => entry) .header path document

/-- How deep lists and braces may be nested, and how many parts a key may have. -/
def deepest : Nat := 79

def dottedKey? (text : List Char) : Option ((List String × String) × List Char) := do
  let (parts, rest) ← key? (deepest + 1) text
  if deepest < parts.length then none
  else match parts.getLast? with
    | some last => some ((parts.dropLast, last), rest)
    | none => none

mutual

def value? (fuel depth : Nat) (text : List Char) : Option (Value × List Char) :=
  match fuel with
  | 0 => none
  | fuel + 1 =>
    match text with
    | '"' :: _ => (string? text).map fun (value, rest) => (.text value, rest)
    | '\'' :: _ => (string? text).map fun (value, rest) => (.text value, rest)
    | '[' :: rest =>
      match depth with
      | 0 => none
      | depth + 1 => (items? fuel depth rest).map fun (items, rest) => (.list items, rest)
    | '{' :: rest =>
      match depth with
      | 0 => none
      | depth + 1 =>
        match skipSpace rest with
        | '}' :: rest => some (.table .braces [], rest)
        | rest => (fields? fuel depth [] rest).map fun (entries, rest) =>
          (.table .braces entries, rest)
    | 't' :: 'r' :: 'u' :: 'e' :: rest => some (.boolean true, rest)
    | 'f' :: 'a' :: 'l' :: 's' :: 'e' :: rest => some (.boolean false, rest)
    | _ =>
      match moment? text with
      | some (value, rest) => some (.moment value, rest)
      | none =>
        match float? text with
        | some (value, rest) => some (.float value, rest)
        | none => (integer? text).map fun (value, rest) => (.integer value, rest)

/-- The items of a list up to its bracket; a comma may stand after the last. -/
def items? (fuel depth : Nat) (text : List Char) : Option (List Value × List Char) :=
  match fuel with
  | 0 => none
  | fuel + 1 =>
    match skipLines text.length text with
    | ']' :: rest => some ([], rest)
    | text => do
      let (item, rest) ← value? fuel depth text
      match skipLines rest.length rest with
      | ']' :: rest => return ([item], rest)
      | ',' :: rest => do
        let (others, rest) ← items? fuel depth rest
        return (item :: others, rest)
      | _ => none

def fields? (fuel depth : Nat) (entries : Entries) (text : List Char) :
    Option (Entries × List Char) :=
  match fuel with
  | 0 => none
  | fuel + 1 => do
    let ((path, key), rest) ← dottedKey? (skipSpace text)
    match skipSpace rest with
    | '=' :: rest => do
      let (value, rest) ← value? fuel depth (skipSpace rest)
      let entries ← addKey path key value entries
      match skipSpace rest with
      | '}' :: rest => return (entries, rest)
      | ',' :: rest => fields? fuel depth entries rest
      | _ => none
    | _ => none

end

/-- Which table the lines add to: the document's own, or one that a header opened and that joins
the document when the next header or the end is reached. -/
inductive Section where
  | top
  | table (path : List String) (key : String)
  | element (path : List String) (key : String)

structure Draft where
  document : Entries
  current : Entries
  target : Section

def Draft.close (draft : Draft) : Option Entries :=
  match draft.target with
  | .top => some draft.current
  | .table path key => closeTable path key draft.current draft.document
  | .element path key => closeList path key draft.current draft.document

def header? (draft : Draft) (text : List Char) : Option (Draft × List Char) := do
  let document ← draft.close
  match text with
  | '[' :: rest => do
    let ((path, key), rest) ← dottedKey? (skipSpace rest)
    match skipSpace rest with
    | ']' :: ']' :: rest =>
      return (⟨← openList path key document, [], .element path key⟩, rest)
    | _ => none
  | _ => do
    let ((path, key), rest) ← dottedKey? (skipSpace text)
    match skipSpace rest with
    | ']' :: rest =>
      let (current, document) ← openTable path key document
      return (⟨document, current, .table path key⟩, rest)
    | _ => none

def keyValue? (draft : Draft) (text : List Char) : Option (Draft × List Char) := do
  let ((path, key), rest) ← dottedKey? text
  match skipSpace rest with
  | '=' :: rest => do
    let (value, rest) ← value? (2 * text.length + 2) deepest (skipSpace rest)
    return ({ draft with current := ← addKey path key value draft.current }, rest)
  | _ => none

def lines? (fuel : Nat) (draft : Draft) (text : List Char) : Option Entries :=
  match fuel with
  | 0 => none
  | fuel + 1 =>
    match skipSpace text with
    | [] => draft.close
    | '[' :: rest => do
      let (draft, rest) ← header? draft rest
      lines? fuel draft (← lineEnd? rest)
    | c :: rest =>
      if c == '#' || c == '\n' || c == '\r' then do lines? fuel draft (← lineEnd? (c :: rest))
      else do
        let (draft, rest) ← keyValue? draft (c :: rest)
        lines? fuel draft (← lineEnd? rest)

/-- The entries of a document in order. A byte order mark in front of it is ignored. -/
def parse? (text : String) : Option Entries :=
  let chars := match text.toList with
    | '\uFEFF' :: rest => rest
    | chars => chars
  lines? (chars.length + 1) ⟨[], [], .top⟩ chars

end KotlinCompile.Toml
