import KotlinCompile.Proofs.Kapt.Reading
import KotlinCompile.Proofs.Kapt.Stepwise

/-! Where a payload ends is said by its own bytes, so no payload is the beginning of another one. A
reading by steps goes the way of the readers that work from a cursor: at each of its places they
would make the same of the bytes from there on. -/
namespace KotlinCompile.Kapt.Payload
variable {α β : Type}

/-- A reader that accepted some bytes reads the same where the end of them is missing, unless it
gets to that end first; then it says that the bytes are truncated. -/
def RunsOut (read : Cursor → Except Fault (α × Cursor)) : Prop :=
  ∀ place front lost value after, read ⟨place, front ++ lost⟩ = .ok (value, after) →
    (∃ rest, after.rest = rest ++ lost ∧ read ⟨place, front⟩ = .ok (value, ⟨after.offset, rest⟩)) ∨
      ∃ offset, read ⟨place, front⟩ = .error (.truncated offset)

theorem runsOut_take (n : Nat) : RunsOut (Cursor.take n) := by
  intro place front lost bytes after read
  obtain ⟨width, whole, offset⟩ := (take_iff ..).mp read
  by_cases fits : n ≤ front.length
  · have begins : bytes <+: front :=
      List.prefix_of_prefix_length_le ⟨after.rest, whole.symm⟩ (List.prefix_append front lost)
        (width ▸ fits)
    obtain ⟨rest, rfl⟩ := begins
    rw [List.append_assoc] at whole
    exact Or.inl ⟨rest, (List.append_cancel_left whole).symm, (take_iff ..).mpr ⟨width, rfl, offset⟩⟩
  · exact Or.inr ⟨place, if_neg fits⟩

/-- What is made of the bytes that were read needs no further ones. -/
theorem runsOut_made (result : Except Fault α) : RunsOut fun cursor => result.map (·, cursor) := by
  intro place front lost value after made
  cases result with
  | error fault => cases made
  | ok a =>
    cases made
    exact Or.inl ⟨front, rfl, rfl⟩

theorem runsOut_bind {first : Cursor → Except Fault (α × Cursor)}
    {second : α → Cursor → Except Fault (β × Cursor)} (firstRunsOut : RunsOut first)
    (secondRunsOut : ∀ a, RunsOut (second a)) :
    RunsOut fun cursor => first cursor >>= fun read => second read.1 read.2 := by
  intro place front lost value after read
  obtain ⟨⟨a, ⟨middle, behind⟩⟩, readFirst, readSecond⟩ := Fallible.bind_eq_ok.mp read
  rcases firstRunsOut place front lost a _ readFirst with ⟨rest, rfl, alike⟩ | ⟨offset, truncated⟩
  · simp only [alike]
    exact secondRunsOut a middle rest lost value after readSecond
  · exact Or.inr ⟨offset, by simp only [truncated]; rfl⟩

/-- The text of the groups that the bytes split into. -/
def textOf (bytes : Bytes) : Except Fault String :=
  readUnits bytes >>= fun units => match Text.ofUnits? units with
    | some text => .ok (String.ofList text)
    | none => .error .loneSurrogate

theorem readText_eq (cursor : Cursor) : readText cursor =
    cursor.take 2 >>= fun length => length.2.take (bigEndian length.1) >>= fun bytes =>
      (textOf bytes.1).map (·, bytes.2) := by
  refine bind_congr fun ⟨length, behind⟩ => bind_congr fun ⟨bytes, after⟩ => ?_
  dsimp only [textOf]
  cases readUnits bytes with
  | error fault => rfl
  | ok units => cases found : Text.ofUnits? units <;> simp only [bind, Except.bind, found] <;> rfl

theorem runsOut_readText : RunsOut readText := by
  rw [funext readText_eq]
  exact runsOut_bind (runsOut_take 2) fun length =>
    runsOut_bind (runsOut_take _) fun bytes => runsOut_made (textOf bytes)

theorem runsOut_readEntries (count : Nat) : RunsOut (readEntries count) := by
  induction count with
  | zero => exact runsOut_made (.ok [])
  | succ count ih =>
    exact runsOut_bind runsOut_readText fun key => runsOut_bind runsOut_readText fun value =>
      runsOut_bind ih fun others => runsOut_made (.ok ((key, value) :: others))

theorem readAll_front {front lost : Bytes} {entries : List (String × String)}
    (payload : IsPayload (front ++ lost) entries) (missing : lost ≠ []) :
    ∃ offset, readAll front = .error (.truncated offset) := by
  obtain ⟨small, body, whole, areEntries⟩ := payload
  have readHead : Cursor.take 4 ⟨0, front ++ lost⟩ = .ok (fourBytes entries.length, ⟨4, body⟩) :=
    (take_iff ..).mpr ⟨rfl, whole, rfl⟩
  rcases runsOut_take 4 0 front lost _ _ readHead with ⟨rest, split, alike⟩ | ⟨offset, short⟩
  · obtain rfl : body = rest ++ lost := split
    obtain ⟨_, begins, _⟩ := (take_iff ..).mp alike
    obtain rfl : front = fourBytes entries.length ++ rest := begins
    have readBody : readEntries entries.length ⟨4, rest ++ lost⟩ =
        .ok (entries, ⟨4 + (rest ++ lost).length, []⟩) :=
      (readEntries_iff ..).mpr ⟨rfl, _, areEntries, (List.append_nil _).symm, rfl⟩
    rw [readAll_counted small]
    rcases runsOut_readEntries entries.length 4 rest lost _ _ readBody with
      ⟨idle, nothing, _⟩ | ⟨offset, short⟩
    · exact absurd (List.append_eq_nil_iff.mp nothing.symm).2 missing
    · exact ⟨offset, by rw [short]; rfl⟩
  · exact ⟨offset, by rw [readAll, short]; rfl⟩

theorem readAll_longer {bytes extra : Bytes} {entries : List (String × String)}
    (payload : IsPayload bytes entries) (more : extra ≠ []) :
    readAll (bytes ++ extra) = .error (.trailing extra.length entries.length) := by
  obtain ⟨small, body, rfl, areEntries⟩ := payload
  have readBody : readEntries entries.length ⟨4, body ++ extra⟩ =
      .ok (entries, ⟨4 + body.length, extra⟩) :=
    (readEntries_iff ..).mpr ⟨rfl, body, areEntries, rfl, rfl⟩
  rw [List.append_assoc, readAll_counted small, readBody]
  exact if_pos (mt List.length_eq_zero_iff.mp more)

/-- The text that some bytes are written as. -/
def spelled (bytes : Bytes) : String := String.ofList (Text.Base64.encode bytes)

theorem decode_spelled (bytes : Bytes) :
    decode (spelled bytes) = (read bytes).mapError fun fault => ⟨"", fault⟩ := by
  unfold decode spelled
  rw [String.toList_ofList, Text.Base64.trim_encode, Text.Base64.decode_encode]

theorem decode_spelled_error {bytes : Bytes} {fault : Fault} (failed : readAll bytes = .error fault) :
    decode (spelled bytes) = .error ⟨"", fault⟩ := by
  rw [decode_spelled, read, failed]
  rfl

/-- A payload is read only as a whole. The text of what is left when bytes are missing at its end is
refused for that, wherever the cut is, and the text of more bytes is refused for those that are left
over. -/
theorem decode_only_whole {bytes : Bytes} {options : SortedMap String}
    (decoded : decode (spelled bytes) = .ok options) :
    (∀ front, front <+: bytes → front ≠ bytes →
      ∃ offset, decode (spelled front) = .error ⟨"", .truncated offset⟩) ∧
    ∀ longer, bytes <+: longer → longer ≠ bytes → ∃ count,
      decode (spelled longer) = .error ⟨"", .trailing (longer.length - bytes.length) count⟩ := by
  rw [decode_spelled, Fallible.mapError_eq_ok] at decoded
  obtain ⟨entries, accepted, _⟩ := Fallible.map_eq_ok.mp decoded
  have payload := (readAll_iff ..).mp accepted
  constructor
  · rintro front ⟨lost, rfl⟩ proper
    have missing : lost ≠ [] := fun none => proper (by rw [none, List.append_nil])
    obtain ⟨offset, short⟩ := readAll_front payload missing
    exact ⟨offset, decode_spelled_error short⟩
  · rintro longer ⟨extra, rfl⟩ proper
    have more : extra ≠ [] := fun none => proper (by rw [none, List.append_nil])
    rw [List.length_append, Nat.add_sub_cancel_left]
    exact ⟨entries.length, decode_spelled_error (readAll_longer payload more)⟩

/-- One entry, its value in a group of three bytes. -/
def oneEntry : Bytes := [0, 0, 0, 1, 0, 1, 0x6B, 0, 3, 0xE3, 0x82, 0xAB]

-- One cut is inside the group, and one byte that is added could begin another entry.
theorem one_entry_only_whole :
    decode (spelled oneEntry) = .ok (SortedMap.ofList [("k", "カ")]) ∧
    (∃ offset, decode (spelled (oneEntry.take 11)) = .error ⟨"", .truncated offset⟩) ∧
    ∃ count, decode (spelled (oneEntry ++ [0])) = .error ⟨"", .trailing 1 count⟩ := by
  have decoded : decode (spelled oneEntry) = .ok (SortedMap.ofList [("k", "カ")]) :=
    Fallible.toOption_eq_some.mp (by decide +kernel)
  obtain ⟨shorter, longer⟩ := decode_only_whole decoded
  exact ⟨decoded, shorter _ (List.take_prefix 11 oneEntry) (by decide),
    longer _ (List.prefix_append oneEntry [0]) (by decide)⟩

variable {bytes : Bytes} {offset : Nat}

/-- The cursor at an offset of all bytes. -/
def cursorAt (bytes : Bytes) (offset : Nat) : Cursor := ⟨offset, bytes.drop offset⟩

theorem take_standing {taken : Bytes} {n : Nat} (stands : Stands bytes offset taken)
    (width : taken.length = n) :
    (cursorAt bytes offset).take n = .ok (taken, cursorAt bytes (offset + n)) := by
  obtain ⟨front, back, rfl, rfl⟩ := stands
  subst width
  refine (take_iff ..).mpr ⟨rfl, ?_, rfl⟩
  simp only [cursorAt, List.append_assoc, List.drop_left, List.drop_length_add_append]

theorem take_short {n : Nat} (inside : offset ≤ bytes.length) (short : bytes.length < offset + n) :
    (cursorAt bytes offset).take n = .error (.truncated offset) := by
  apply if_neg
  rw [cursorAt, List.length_drop]
  omega

/-- The readers pass over groups as the steps do. -/
theorem readUnits_cons (first : UInt8) (rest : Bytes) : readUnits (first :: rest) =
    groupOf first rest[0]? rest[1]? >>= fun group =>
      (group.1 :: ·) <$> readUnits ((first :: rest).drop group.2) := by
  rw [readUnits.eq_def]
  unfold groupOf
  dsimp only
  by_cases short : first.toNat < 0x80
  · rw [if_pos short, if_pos short]
    rfl
  rw [if_neg short, if_neg short]
  by_cases two : first.toNat / 32 = 6
  · rw [if_pos (beq_iff_eq.mpr two), if_pos two]
    cases rest with
    | nil => rfl
    | cons second rest =>
      dsimp only [List.getElem?_cons_zero, continuation]
      split <;> rfl
  rw [if_neg (mt beq_iff_eq.mp two), if_neg two]
  by_cases three : first.toNat / 16 = 14
  · rw [if_pos (beq_iff_eq.mpr three), if_pos three]
    cases rest with
    | nil => rfl
    | cons second rest =>
      cases rest with
      | nil =>
        dsimp only [List.getElem?_cons_zero, continuation]
        split <;> rfl
      | cons third rest =>
        dsimp only [List.getElem?_cons_zero, List.getElem?_cons_succ, continuation]
        cases isContinuation second <;> cases isContinuation third <;> rfl
  · rw [if_neg (mt beq_iff_eq.mp three), if_neg three]
    rfl

theorem readUnits_drop {data : Bytes} {index : Nat} (inside : index < data.length) :
    readUnits (data.drop index) =
      groupOf data[index] data[index + 1]? data[index + 2]? >>= fun group =>
        (group.1 :: ·) <$> readUnits (data.drop (index + group.2)) := by
  rw [List.drop_eq_getElem_cons inside, readUnits_cons, List.getElem?_drop, List.getElem?_drop,
    ← List.drop_eq_getElem_cons inside]
  simp only [List.drop_drop, Nat.add_assoc]

namespace Reading

/-- What the readers make of the bytes behind some entries: other entries, and nothing after them. -/
def behindEntries (reading : Reading) (cursor : Cursor) : Except Fault (SortedMap String) :=
  readEntries (reading.count - reading.completed) cursor >>= fun read =>
    if read.2.rest.length ≠ 0 then .error (.trailing read.2.rest.length reading.count)
    else .ok (read.1.foldl (fun options entry => options.insert entry.1 entry.2) reading.options)

/-- What the readers make of the bytes behind a text. There is a value behind a key. -/
def behindText (reading : Reading) (key? : Option String) (text : String) (cursor : Cursor) :
    Except Fault (SortedMap String) :=
  match key? with
  | none => readText cursor >>= fun read =>
      (reading.receive (some text) read.1).behindEntries read.2
  | some key => (reading.receive (some key) text).behindEntries cursor

def behindCount (reading : Reading) (n : Nat) (cursor : Cursor) : Except Fault (SortedMap String) :=
  if signed n < 0 then .error (.negativeCount (signed n))
  else behindEntries { reading with count := (signed n).toNat } cursor

/-- What the readers make of all that is still to be read at a stage. -/
def remainder (bytes : Bytes) (reading : Reading) : Except Fault (SortedMap String) :=
  let cursor := cursorAt bytes reading.offset
  match reading.stage with
  | .counting => cursor.take 4 >>= fun head => reading.behindCount (bigEndian head.1) head.2
  | .counted n => reading.behindCount n cursor
  | .looping => reading.behindEntries cursor
  | .measuring key? => readText cursor >>= fun read => reading.behindText key? read.1 read.2
  | .taking key? length => cursor.take length >>= fun data =>
      textOf data.1 >>= fun text => reading.behindText key? text data.2
  | .splitting key? data index units => readUnits (data.drop index) >>= fun others =>
      textOfUnits (units ++ others) >>= fun text => reading.behindText key? text cursor
  | .ended result => result

theorem remainder_start (bytes : Bytes) : remainder bytes {} = read bytes := by
  change (Cursor.take 4 ⟨0, bytes⟩ >>= _) = SortedMap.ofList <$> readAll bytes
  unfold readAll
  cases Cursor.take 4 ⟨0, bytes⟩ with
  | error fault => rfl
  | ok head =>
    dsimp only [bind, Except.bind, behindCount]
    by_cases negative : signed (bigEndian head.1) < 0
    · rw [if_pos negative, if_pos negative]
      rfl
    rw [if_neg negative, if_neg negative]
    dsimp only [behindEntries, Nat.sub_zero, bind, Except.bind]
    cases readEntries (signed (bigEndian head.1)).toNat head.2 with
    | error fault => rfl
    | ok read =>
      dsimp only
      split <;> rfl

theorem behindEntries_more {reading : Reading} (more : reading.completed < reading.count)
    (cursor : Cursor) : reading.behindEntries cursor =
      readText cursor >>= fun read => reading.behindText none read.1 read.2 := by
  have another : reading.count - reading.completed =
      reading.count - (reading.completed + 1) + 1 := by omega
  rw [behindEntries, another, readEntries]
  simp only [bind_assoc, pure_bind]
  exact bind_congr fun key => bind_congr fun value => rfl

theorem behindEntries_all {reading : Reading} (all : ¬reading.completed < reading.count)
    (cursor : Cursor) : reading.behindEntries cursor =
      if cursor.rest.length ≠ 0 then .error (.trailing cursor.rest.length reading.count)
      else .ok reading.options := by
  rw [behindEntries, Nat.sub_eq_zero_of_le (Nat.le_of_not_lt all)]
  rfl

theorem behindText_receive (reading : Reading) (key? : Option String) (text : String) :
    (reading.receive key? text).remainder bytes =
      reading.behindText key? text (cursorAt bytes reading.offset) := by
  cases key? <;> rfl

theorem remainder_groups {reading : Reading} {key? : Option String} {data : Bytes} {index : Nat}
    {units : List Nat} (stage : reading.stage = .splitting key? data index units)
    (whole : data.length ≤ index) : reading.remainder bytes =
      textOfUnits units >>= fun text => reading.behindText key? text (cursorAt bytes reading.offset) := by
  simp only [remainder, stage]
  rw [List.drop_of_length_le whole]
  change (textOfUnits (units ++ []) >>= _) = _
  rw [List.append_nil]

theorem remainder_truncated {reading : Reading} {n : Nat} {fault : Fault}
    (takes : reading.stage.takes? = some n)
    (failed : (cursorAt bytes reading.offset).take n = .error fault) :
    reading.remainder bytes = .error fault := by
  unfold remainder
  cases stage : reading.stage with
  | counting | taking =>
    rw [stage] at takes
    cases takes
    dsimp only
    rw [failed]
    rfl
  | measuring key? =>
    rw [stage] at takes
    cases takes
    dsimp only
    rw [readText_eq, failed]
    rfl
  | counted | looping | splitting | ended =>
    rw [stage] at takes
    cases takes

theorem remainder_moves {reading next : Reading} (within : reading.Within bytes)
    (moves : Moves bytes reading next) : next.remainder bytes = reading.remainder bytes := by
  cases moves with
  | truncated takes short =>
    exact (remainder_truncated takes (take_short within.inside short)).symm
  | head stage stands four =>
    simp only [remainder, stage, take_standing stands four]
    rfl
  | @length _ taken stage stands two =>
    simp only [remainder, stage, readText_eq, take_standing stands two, bind, Except.bind]
    cases (cursorAt bytes (reading.offset + 2)).take (bigEndian taken) with
    | error fault => rfl
    | ok data =>
      dsimp only
      cases textOf data.1 <;> rfl
  | @data _ _ data stage stands whole =>
    simp only [remainder, stage, take_standing stands whole]
    exact (bind_assoc (readUnits data) textOfUnits _).symm
  | negative stage negative =>
    simp only [remainder, stage, behindCount, if_pos negative]
  | begin stage natural =>
    simp only [remainder, stage, behindCount, if_neg natural]
    rfl
  | entry stage more =>
    simp only [remainder, stage]
    exact (behindEntries_more more _).symm
  | trailing stage all left =>
    have before : reading.offset < bytes.length := Nat.lt_of_le_of_ne within.inside left
    simp only [remainder, stage]
    rw [behindEntries_all all, cursorAt, List.length_drop, if_pos (Nat.sub_ne_zero_of_lt before)]
  | finish stage all none =>
    simp only [remainder, stage]
    rw [behindEntries_all all, cursorAt, List.length_drop, none, Nat.sub_self]
    rfl
  | @group _ data index _ width _ stage inside found =>
    simp only [remainder, stage, readUnits_drop inside, found, bind, Except.bind]
    cases readUnits (data.drop (index + width)) with
    | error fault => rfl
    | ok others =>
      simp only [List.append_assoc]
      rfl
  | malformed stage inside found =>
    simp only [remainder, stage, readUnits_drop inside, found]
    rfl
  | text stage whole made =>
    rw [behindText_receive, remainder_groups stage whole, made]
    rfl
  | lone stage whole made =>
    rw [remainder_groups stage whole, made]
    rfl
  | stay stage => rfl

end Reading
end KotlinCompile.Kapt.Payload
