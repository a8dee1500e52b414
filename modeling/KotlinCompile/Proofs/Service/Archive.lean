import KotlinCompile.Proofs.ClassName
import KotlinCompile.Proofs.Machine.Growth
import KotlinCompile.Proofs.Occurrences
import KotlinCompile.Proofs.SortedMap
import KotlinCompile.Proofs.Text.Order
import KotlinCompile.Request

/-! The archive of service registrations. A service loader that reads it finds for each interface
the implementations that are bound to it, each once and in the order in which they were first given.
-/
namespace KotlinCompile

namespace ServiceLoader

/-- The lines of an entry. A carriage return ends a line too; one that stands before a line feed
only makes an empty line more, which is passed over. -/
def lines (text : List Char) : List (List Char) :=
  Text.pieces '\n' (text.map fun c => if c = '\r' then '\n' else c)

/-- What stands before a comment. -/
def withoutComment (line : List Char) : List Char := line.takeWhile fun c => c ≠ '#'

def trimmed (isBlank : Char → Bool) (line : List Char) : List Char :=
  ((line.dropWhile isBlank).reverse.dropWhile isBlank).reverse

/-- What is taken off the ends of a line: blanks of every kind, or spaces and all that is below. -/
def blankTests : List (Char → Bool) := [Text.isBlank, fun c => decide (c.toNat ≤ 0x20)]

/-- The names that an entry lists. -/
def names (isBlank : Char → Bool) (text : String) : List String :=
  (((lines text.toList).map fun line => trimmed isBlank (withoutComment line)).filter
    fun line => !line.isEmpty).map String.ofList

-- Only characters that no class name has are read in any special way.
theorem reserved_of_isBlank {isBlank : Char → Bool} (listed : isBlank ∈ blankTests) {c : Char}
    (blank : isBlank c = true) : Text.reserved.has c = true := by
  rw [Text.CodePoints.has_iff]
  rcases List.mem_cons.mp listed with rfl | listed
  · obtain ⟨range, member, within⟩ := (Text.blanks.has_iff c).mp blank
    exact ⟨range, List.mem_append_right _ member, within⟩
  · rw [List.mem_singleton.mp listed] at blank
    exact ⟨(0x0, 0x20), by decide, Nat.zero_le _, of_decide_eq_true blank⟩

theorem lines_append {name : List Char} (unbroken : ∀ c ∈ name, c ≠ '\n' ∧ c ≠ '\r')
    (rest : List Char) : lines (name ++ '\n' :: rest) = name :: lines rest := by
  have kept : (name.map fun c => if c = '\r' then '\n' else c) = name := by
    refine (List.map_congr_left fun c member => ?_).trans (List.map_id name)
    exact if_neg (unbroken c member).2
  have plain : '\n' ∉ name := fun member => (unbroken '\n' member).1 rfl
  unfold lines
  rw [List.map_append, kept, List.map_cons, if_neg (by decide), Text.pieces_append,
    Text.pieces_of_not_mem plain]
  rfl

theorem trimmed_of_none {isBlank : Char → Bool} {line : List Char}
    (none : ∀ c ∈ line, isBlank c = false) : trimmed isBlank line = line := by
  have reversed : ∀ c ∈ line.reverse, isBlank c = false :=
    fun c member => none c (List.mem_reverse.mp member)
  rw [trimmed, Text.dropWhile_of_none none, Text.dropWhile_of_none reversed, List.reverse_reverse]

theorem withoutComment_of_none {line : List Char} (plain : ∀ c ∈ line, c ≠ '#') :
    withoutComment line = line := by
  induction line with
  | nil => rfl
  | cons c rest ih =>
    have ⟨first, others⟩ := List.forall_mem_cons.mp plain
    rw [withoutComment, List.takeWhile_cons_of_pos (by simpa using first)]
    exact congrArg (c :: ·) (ih others)

-- A line with a class name and nothing else is read as that name.
theorem names_cons {isBlank : Char → Bool} (listed : isBlank ∈ blankTests) {name : String}
    (resolvable : ClassName.isResolvable name = true) (rest : String) :
    names isBlank (name ++ "\n" ++ rest) = name :: names isBlank rest := by
  obtain ⟨spelled, named⟩ := ClassName.nameChar_of_isResolvable resolvable
  have free : ∀ c ∈ name.toList, Text.reserved.has c = false :=
    fun c member => ClassName.not_reserved_of_nameChar (named c member)
  have differ : ∀ {c mark}, c ∈ name.toList → Text.reserved.has mark = true → c ≠ mark := by
    rintro c mark member reserved rfl
    rw [free c member] at reserved
    cases reserved
  have text : (name ++ "\n" ++ rest).toList = name.toList ++ '\n' :: rest.toList := by
    rw [String.toList_append, String.toList_append, List.append_assoc]
    rfl
  have unbroken : ∀ c ∈ name.toList, c ≠ '\n' ∧ c ≠ '\r' :=
    fun c member => ⟨differ member (by decide), differ member (by decide)⟩
  have uncommented : withoutComment name.toList = name.toList :=
    withoutComment_of_none fun c member => differ member (by decide)
  have untrimmed : trimmed isBlank name.toList = name.toList := by
    refine trimmed_of_none fun c member => ?_
    rw [← Bool.not_eq_true]
    intro blank
    have reserved := reserved_of_isBlank listed blank
    rw [free c member] at reserved
    cases reserved
  have some : name.toList.isEmpty = false := by
    simpa using spelled
  unfold names
  rw [text, lines_append unbroken, List.map_cons, uncommented, untrimmed,
    List.filter_cons_of_pos (by simp [some]), List.map_cons, String.ofList_toList]

theorem body_cons (name : String) (others : List String) :
    ServiceBinding.body (name :: others) = name ++ "\n" ++ ServiceBinding.body others :=
  String.join_cons

/-- A loader reads from an entry the names that were written into it. -/
theorem names_body {isBlank : Char → Bool} (listed : isBlank ∈ blankTests)
    {implementations : List String}
    (resolvable : ∀ name ∈ implementations, ClassName.isResolvable name = true) :
    names isBlank (ServiceBinding.body implementations) = implementations := by
  induction implementations with
  | nil => rfl
  | cons name others ih =>
    have ⟨first, rest⟩ := List.forall_mem_cons.mp resolvable
    rw [body_cons, names_cons listed first, ih rest]

end ServiceLoader
end KotlinCompile

namespace KotlinCompile.ServiceBinding
open Fallible Occurrences

/-- What a loader of an interface should find, for some bindings. -/
structure ListsFirst (bindings : List ServiceBinding) (interface : String) (listed : List String) :
    Prop where
  nodup : listed.Nodup
  mem_iff : ∀ implementation, implementation ∈ listed ↔ ⟨interface, implementation⟩ ∈ bindings
  ascending : listed.Pairwise fun first second =>
    bindings.idxOf ⟨interface, first⟩ < bindings.idxOf ⟨interface, second⟩

/-- An archive has one entry for each interface of the bindings, in the order of the bytes of the
names, and a loader finds in it what it should find. -/
structure Registers (entries : List (String × String)) (bindings : List ServiceBinding) : Prop where
  ascending : entries.Pairwise fun entry other => Text.utf8 entry.1 < Text.utf8 other.1
  name_iff : ∀ name, (∃ text, (name, text) ∈ entries) ↔
    ∃ binding ∈ bindings, name = entriesBelow ++ binding.interface
  undivided : ∀ binding ∈ bindings, '/' ∉ binding.interface.toList
  listed : ∀ interface text, (entriesBelow ++ interface, text) ∈ entries →
    ∀ isBlank ∈ ServiceLoader.blankTests,
      ListsFirst bindings interface (ServiceLoader.names isBlank text)
  registered_iff : ∀ isBlank ∈ ServiceLoader.blankTests, ∀ interface implementation,
    (∃ text, (entriesBelow ++ interface, text) ∈ entries ∧
      implementation ∈ ServiceLoader.names isBlank text) ↔ ⟨interface, implementation⟩ ∈ bindings

/-- The implementations of an interface among some bindings. -/
def bound (interface : String) (bindings : List ServiceBinding) : List String :=
  (bindings.filter (·.interface = interface)).map (·.implementation)

def register (groups : SortedMap (List String)) (binding : ServiceBinding) :
    SortedMap (List String) :=
  groups.insert binding.interface
    ((groups.get? binding.interface).getD [] ++ [binding.implementation])

theorem grouped_eq (bindings : List ServiceBinding) :
    grouped bindings = bindings.eraseDups.foldl register ∅ := rfl

theorem bound_cons (interface : String) (binding : ServiceBinding) (rest : List ServiceBinding) :
    bound interface (binding :: rest) = if interface = binding.interface then
      binding.implementation :: bound interface rest else bound interface rest := by
  unfold bound
  by_cases same : interface = binding.interface
  · simp [same]
  · simp [same, Ne.symm same]

theorem get_foldl_register (bindings : List ServiceBinding) (groups : SortedMap (List String))
    (interface : String) : (bindings.foldl register groups).get? interface =
      if bound interface bindings = [] then groups.get? interface
      else some ((groups.get? interface).getD [] ++ bound interface bindings) := by
  induction bindings generalizing groups with
  | nil => rfl
  | cons binding rest ih =>
    rw [List.foldl_cons, ih, register, SortedMap.get_insert, bound_cons]
    by_cases same : interface = binding.interface
    · rw [if_pos same, if_pos same, if_neg (List.cons_ne_nil _ _), same, Option.getD_some,
        List.append_assoc, List.singleton_append]
      split
      · next none => rw [none]
      · rfl
    · rw [if_neg same, if_neg same]

/-- Each interface that has implementations is grouped with them, and no other is. -/
theorem get_grouped (bindings : List ServiceBinding) (interface : String) (listed : List String) :
    (grouped bindings).get? interface = some listed ↔
      listed = bound interface bindings.eraseDups ∧ listed ≠ [] := by
  rw [grouped_eq, get_foldl_register]
  have nothing : (∅ : SortedMap (List String)).get? interface = none := rfl
  rw [nothing, Option.getD_none, List.nil_append]
  split
  · next none =>
    rw [none]
    exact ⟨fun found => (by cases found), fun ⟨same, filled⟩ => absurd same filled⟩
  · next filled =>
    rw [Option.some.injEq]
    exact ⟨fun same => ⟨same.symm, same ▸ filled⟩, fun ⟨same, _⟩ => same.symm⟩

theorem mem_bound {interface implementation : String} {bindings : List ServiceBinding} :
    implementation ∈ bound interface bindings ↔ ⟨interface, implementation⟩ ∈ bindings := by
  induction bindings with
  | nil => simp [bound]
  | cons binding rest ih =>
    obtain ⟨service, provider⟩ := binding
    rw [bound_cons, List.mem_cons, mk.injEq]
    by_cases same : interface = service
    · subst same
      simp [ih]
    · simp [same, ih]

-- Of one interface the implementations stand in the same order as their bindings.
theorem bound_pairwise {R : ServiceBinding → ServiceBinding → Prop} {bindings : List ServiceBinding}
    (ordered : bindings.Pairwise R) (interface : String) :
    (bound interface bindings).Pairwise fun first second =>
      R ⟨interface, first⟩ ⟨interface, second⟩ := by
  unfold bound
  rw [List.pairwise_map]
  refine (ordered.filter _).imp_of_mem fun {first second} left right related => ?_
  have served := of_decide_eq_true (List.mem_filter.mp left).2
  have alike := of_decide_eq_true (List.mem_filter.mp right).2
  obtain ⟨service, provider⟩ := first
  obtain ⟨other, another⟩ := second
  cases served
  cases alike
  exact related

theorem listsFirst_bound (bindings : List ServiceBinding) (interface : String) :
    ListsFirst bindings interface (bound interface bindings.eraseDups) := by
  have ordered : bindings.eraseDups.Pairwise fun first second =>
      bindings.idxOf first < bindings.idxOf second := by
    rw [eraseDups_eq_firsts]
    exact firsts_ascending id bindings
  have ascending := bound_pairwise ordered interface
  refine ⟨ascending.imp fun before same => ?_, fun implementation => ?_, ascending⟩
  · rw [same] at before
    exact Nat.lt_irrefl _ before
  · rw [mem_bound, List.mem_eraseDups]

theorem bound_ne_nil {interface : String} {bindings : List ServiceBinding} :
    bound interface bindings ≠ [] ↔ ∃ binding ∈ bindings, binding.interface = interface := by
  constructor
  · intro filled
    obtain ⟨implementation, member⟩ := List.exists_mem_of_ne_nil _ filled
    exact ⟨_, mem_bound.mp member, rfl⟩
  · rintro ⟨⟨service, implementation⟩, member, rfl⟩
    exact List.ne_nil_of_mem (mem_bound.mpr member)

theorem mem_archiveEntries (bindings : List ServiceBinding) (interface text : String) :
    (entriesBelow ++ interface, text) ∈ archiveEntries bindings ↔
      text = body (bound interface bindings.eraseDups) ∧
        ∃ binding ∈ bindings, binding.interface = interface := by
  unfold archiveEntries
  rw [List.mem_map]
  constructor
  · rintro ⟨⟨service, listed⟩, member, same⟩
    obtain ⟨below, rfl⟩ := Prod.mk.inj same
    have equal : service = interface := String.append_right_inj entriesBelow |>.mp below
    subst equal
    obtain ⟨rfl, filled⟩ := (get_grouped ..).mp ((SortedMap.mem_entries ..).mp member)
    obtain ⟨binding, kept, served⟩ := bound_ne_nil.mp filled
    exact ⟨rfl, binding, List.mem_eraseDups.mp kept, served⟩
  · rintro ⟨rfl, binding, member, served⟩
    have filled := bound_ne_nil.mpr ⟨binding, List.mem_eraseDups.mpr member, served⟩
    exact ⟨_, (SortedMap.mem_entries ..).mpr ((get_grouped ..).mpr ⟨rfl, filled⟩), rfl⟩

theorem archiveEntries_ascending (bindings : List ServiceBinding) :
    (archiveEntries bindings).Pairwise fun entry other =>
      Text.utf8 entry.1 < Text.utf8 other.1 := by
  unfold archiveEntries
  rw [List.pairwise_map]
  refine (grouped bindings).ascending.imp fun {entry other} before => Text.utf8_lt ?_
  rw [String.lt_iff, String.toList_append, String.toList_append]
  exact List.append_left_lt (String.lt_iff.mp before)

example : archiveEntries [⟨"b.S", "i.B"⟩, ⟨"a.S", "i.C"⟩, ⟨"b.S", "i.A"⟩, ⟨"b.S", "i.B"⟩] =
    [("META-INF/services/a.S", "i.C\n"), ("META-INF/services/b.S", "i.B\ni.A\n")] := by
  decide +kernel

theorem check_iff (binding : ServiceBinding) : binding.check = .ok () ↔
    ClassName.isResolvable binding.interface = true ∧
      ClassName.isResolvable binding.implementation = true := by
  unfold check
  cases ClassName.isResolvable binding.interface <;>
    cases ClassName.isResolvable binding.implementation <;> simp

-- What is written into an entry is what a loader reads from it.
theorem names_entry {bindings : List ServiceBinding}
    (valid : ∀ binding ∈ bindings, binding.check = .ok ()) {isBlank : Char → Bool}
    (known : isBlank ∈ ServiceLoader.blankTests) (interface : String) :
    ServiceLoader.names isBlank (body (bound interface bindings.eraseDups)) =
      bound interface bindings.eraseDups := by
  apply ServiceLoader.names_body known
  intro implementation listed
  have kept := List.mem_eraseDups.mp (mem_bound.mp listed)
  exact ((check_iff _).mp (valid _ kept)).2

theorem registers_archiveEntries {bindings : List ServiceBinding}
    (valid : ∀ binding ∈ bindings, binding.check = .ok ()) :
    Registers (archiveEntries bindings) bindings where
  ascending := archiveEntries_ascending bindings
  name_iff name := by
    constructor
    · rintro ⟨text, member⟩
      obtain ⟨entry, _, same⟩ := List.mem_map.mp member
      obtain ⟨rfl, _⟩ := Prod.mk.inj same
      obtain ⟨_, binding, kept, served⟩ := (mem_archiveEntries ..).mp member
      exact ⟨binding, kept, congrArg (entriesBelow ++ ·) served.symm⟩
    · rintro ⟨binding, kept, rfl⟩
      exact ⟨_, (mem_archiveEntries ..).mpr ⟨rfl, binding, kept, rfl⟩⟩
  undivided binding member slash := by
    have resolvable := (binding.check_iff.mp (valid binding member)).1
    have named := (ClassName.nameChar_of_isResolvable resolvable).2 '/' slash
    have free := ClassName.not_reserved_of_nameChar named
    exact absurd free (by decide)
  listed interface text member isBlank known := by
    obtain ⟨rfl, _⟩ := (mem_archiveEntries ..).mp member
    rw [names_entry valid known]
    exact listsFirst_bound bindings interface
  registered_iff isBlank known interface implementation := by
    have lists := (listsFirst_bound bindings interface).mem_iff implementation
    constructor
    · rintro ⟨text, member, read⟩
      obtain ⟨rfl, _⟩ := (mem_archiveEntries ..).mp member
      rw [names_entry valid known] at read
      exact lists.mp read
    · intro bound
      refine ⟨_, (mem_archiveEntries ..).mpr ⟨rfl, _, bound, rfl⟩, ?_⟩
      rw [names_entry valid known]
      exact lists.mpr bound

theorem package_eq (bindings : List ServiceBinding) (destination : Path) :
    package bindings destination = liftExcept (checkAll bindings) >>= fun _ =>
      Machine.deliver destination (.archive (archiveEntries bindings)) := rfl

theorem package_eq_ok {bindings : List ServiceBinding} {destination : Path}
    {machine after : Machine} : package bindings destination machine = (.ok (), after) ↔
      checkAll bindings = .ok () ∧ Machine.deliver destination
        (.archive (archiveEntries bindings)) machine = (.ok (), after) := by
  rw [package_eq, bind_apply_ok]
  constructor
  · rintro ⟨_, _, checked, delivered⟩
    obtain ⟨accepted, rfl⟩ := Machine.liftExcept_eq_ok.mp checked
    exact ⟨accepted, delivered⟩
  · rintro ⟨checked, delivered⟩
    exact ⟨(), machine, Machine.liftExcept_eq_ok.mpr ⟨checked, rfl⟩, delivered⟩

-- Once the bindings are found valid, the archive is written like any other file.
theorem package_of_write {bindings : List ServiceBinding}
    (valid : ∀ binding ∈ bindings, binding.check = .ok ()) {destination : Path}
    {machine ready after : Machine} (way : Machine.makeWay destination machine = (.ok (), ready))
    (written : Machine.write destination (.archive (archiveEntries bindings)) ready =
      (.ok (), after)) :
    package bindings destination machine = (.ok (), after) :=
  package_eq_ok.mpr ⟨forM_eq_ok.mpr valid, Machine.deliver_eq_ok.mpr ⟨ready, way, written⟩⟩

/-- Packaging valid bindings succeeds wherever a file can be put, and what is then read there is one
and the same archive, whatever was there before: one that registers just these bindings. -/
theorem package_registers {bindings : List ServiceBinding}
    (valid : ∀ binding ∈ bindings, binding.check = .ok ()) :
    ∃ entries, Registers entries bindings ∧ ∀ machine destination,
      machine.Writable destination → ∃ after,
        package bindings destination machine = (.ok (), after) ∧
          after.read destination = .ok (.archive entries) := by
  refine ⟨archiveEntries bindings, registers_archiveEntries valid, ?_⟩
  rintro machine destination ⟨ready, way, place, location, found, takes⟩
  obtain ⟨executable, written⟩ :=
    Machine.write_of_takesFile found takes (.archive (archiveEntries bindings))
  exact ⟨_, package_of_write valid way written, Machine.read_of_write written⟩

/-- Two interfaces in turns, and a binding that is repeated. -/
def interleaved : List ServiceBinding :=
  [⟨"api.Plugin", "impl.B"⟩, ⟨"api.Outer$Other", "impl.C"⟩, ⟨"api.Plugin", "impl.A"⟩,
    ⟨"api.Plugin", "impl.B"⟩]

/-- A machine with a file in the place of the archive. -/
def occupied : Machine where
  tree := ⟨[(["work"], .directory),
    (["work", "services.jar"], .file (.bytes (Text.utf8 "old")) false)]⟩
  here := []
  environment := []

theorem interleaved_registers :
    (∀ binding ∈ interleaved, binding.check = .ok ()) ∧
    occupied.Writable ⟨"/work/services.jar"⟩ ∧
    ∃ entries, Registers entries interleaved ∧ ∃ after,
      package interleaved ⟨"/work/services.jar"⟩ occupied = (.ok (), after) ∧
        after.read ⟨"/work/services.jar"⟩ = .ok (.archive entries) := by
  have valid : ∀ binding ∈ interleaved, binding.check = .ok () := by
    simp only [check_iff]
    decide +kernel
  have writable : occupied.Writable ⟨"/work/services.jar"⟩ := ⟨_, rfl, _, _, rfl, rfl⟩
  obtain ⟨entries, registers, packaged⟩ := package_registers valid
  exact ⟨valid, writable, entries, registers, packaged occupied _ writable⟩

end KotlinCompile.ServiceBinding
