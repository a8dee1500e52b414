import KotlinCompile.Proofs.Archive.Located
import KotlinCompile.Proofs.Compiler.Resolution
import KotlinCompile.Proofs.Host.Enumeration
import Mathlib.Data.List.Forall2

/-! A host classpath that is asked time and again while the machine changes. It looks at the machine
once, when it is asked for the first time, and goes by the entries it saw from then on, whether it is
asked for all of them or for the place of an archive. -/
namespace KotlinCompile

namespace HostClasspath

inductive Query where
  | entries
  | locate (archive : Archive)

inductive Answer where
  | entries (entries : List Path)
  | located (place : Option Path)
deriving DecidableEq

def ask (machine : Machine) (host : HostClasspath) : Query → Answer × HostClasspath
  | .entries => (.entries (host.entries machine).1, (host.entries machine).2)
  | .locate archive =>
    (.located (archive.locate (host.entries machine).1), (host.entries machine).2)

/-- An answer that goes by certain entries: the entries themselves, or the first of them that is
named like the archive, if there is one. -/
inductive Answers (entries : List Path) : Query → Answer → Prop where
  | all : Answers entries .entries (.entries entries)
  | found {archive : Archive} {front back : List Path} {place : Path}
      (split : entries = front ++ place :: back) (named : archive.Names place)
      (earlier : ∀ entry ∈ front, ¬archive.Names entry) :
      Answers entries (.locate archive) (.located (some place))
  | missing {archive : Archive} (unnamed : ∀ entry ∈ entries, ¬archive.Names entry) :
      Answers entries (.locate archive) (.located none)

theorem answers_locate_iff {archive : Archive} {entries : List Path} {answer : Answer} :
    Answers entries (.locate archive) answer ↔ answer = .located (archive.locate entries) := by
  constructor
  · intro answers
    cases answers with
    | found split named earlier =>
      rw [Archive.locate_eq_some.mpr ⟨named, _, _, split, earlier⟩]
    | missing unnamed => rw [Archive.locate_eq_none.mpr unnamed]
  · rintro rfl
    cases place : archive.locate entries with
    | none => exact .missing (Archive.locate_eq_none.mp place)
    | some _ =>
      obtain ⟨named, front, back, split, earlier⟩ := Archive.locate_eq_some.mp place
      exact .found split named earlier

theorem answers_entries_iff {entries : List Path} {answer : Answer} :
    Answers entries .entries answer ↔ answer = .entries entries := by
  constructor
  · rintro ⟨⟩
    rfl
  · rintro rfl
    exact .all

-- Either kind of query goes by the entries of the moment, and leaves the host with them.
theorem ask_spec (machine : Machine) (host : HostClasspath) (query : Query) :
    Answers (host.entries machine).1 query (host.ask machine query).1 ∧
      (host.ask machine query).2 = (host.entries machine).2 := by
  cases query with
  | entries => exact ⟨.all, rfl⟩
  | locate archive => exact ⟨answers_locate_iff.mpr rfl, rfl⟩

/-- What may happen to a host classpath: it is asked something, or the machine becomes another
one. -/
inductive Occasion where
  | query (query : Query)
  | change (machine : Machine)

def Occasion.query? : Occasion → Option Query
  | .query asked => some asked
  | .change _ => none

def answers (machine : Machine) (host : HostClasspath) : List Occasion → List Answer
  | [] => []
  | .change machine :: rest => host.answers machine rest
  | .query query :: rest =>
    (host.ask machine query).1 :: (host.ask machine query).2.answers machine rest

def afterAll (machine : Machine) (host : HostClasspath) : List Occasion → HostClasspath
  | [] => host
  | .change machine :: rest => host.afterAll machine rest
  | .query query :: rest => (host.ask machine query).2.afterAll machine rest

/-- The machine as it is when something is asked for the first time. -/
def firstAsked? (machine : Machine) : List Occasion → Option Machine
  | [] => none
  | .change machine :: rest => firstAsked? machine rest
  | .query _ :: _ => some machine

-- A host that knows its entries gives and keeps them, whatever becomes of the machine.
theorem answers_known {host : HostClasspath} {entries : List Path}
    (known : host.known = some entries) (machine : Machine) (occasions : List Occasion) :
    List.Forall₂ (Answers entries) (occasions.filterMap Occasion.query?)
      (host.answers machine occasions) ∧ host.afterAll machine occasions = host := by
  induction occasions generalizing machine with
  | nil => exact ⟨.nil, rfl⟩
  | cons occasion rest ih =>
    cases occasion with
    | change later => exact ih later
    | query query =>
      have kept : host.entries machine = (entries, host) := by rw [HostClasspath.entries, known]
      obtain ⟨answer, after⟩ := ask_spec machine host query
      rw [kept] at answer after
      obtain ⟨others, last⟩ := ih machine
      rw [answers, afterAll, after]
      exact ⟨.cons answer others, last⟩

/-- Until it is asked a host classpath knows nothing of the machine. When it is asked for the first
time it sees what the machine offers to it at that moment, nothing else, and all it is ever asked is
answered from the entries it saw then. -/
theorem answers_from_first_asked (home : Option Path) (machine : Machine)
    (occasions : List Occasion) (wellFormed : ∀ found,
      firstAsked? machine occasions = some found → found.tree.WellFormed) :
    let made : HostClasspath := { home }
    match firstAsked? machine occasions with
    | none => made.answers machine occasions = [] ∧ made.afterAll machine occasions = made
    | some found => ∃ entries, (∀ offered, OffersTo found home offered ↔ offered = entries) ∧
      List.Forall₂ (Answers entries) (occasions.filterMap Occasion.query?)
        (made.answers machine occasions) ∧
      made.afterAll machine occasions = ⟨home, some entries⟩ := by
  intro made
  induction occasions generalizing machine with
  | nil => exact ⟨rfl, rfl⟩
  | cons occasion rest ih =>
    cases occasion with
    | change later => exact ih later wellFormed
    | query query =>
      obtain ⟨answer, after⟩ := ask_spec machine made query
      let knowing : HostClasspath := ⟨home, some (made.enumerate machine)⟩
      have known : knowing.known = some (made.enumerate machine) := rfl
      obtain ⟨others, last⟩ := answers_known known machine rest
      refine ⟨made.enumerate machine, fun offered => ?_, ?_, ?_⟩
      · exact (offersTo_iff (wellFormed machine rfl)).trans eq_comm
      · rw [answers, after]
        exact .cons answer others
      · rw [afterAll, after]
        exact last

/-- A distribution that is found through its bin directory, with one archive. -/
def stockedMachine : Machine where
  tree := ⟨[(["k"], .directory), (["k", "bin"], .directory),
    (["k", "bin", "kotlinc"], .file (.bytes []) true), (["k", "lib"], .directory),
    (["k", "lib", "kotlin-stdlib.jar"], .file (.bytes []) false)]⟩
  here := []
  environment := [("KOTLIN_HOME", "/k/bin")]

theorem offersTo_stocked (entries : List Path) :
    OffersTo stockedMachine none entries ↔ entries = [⟨"/k/lib/kotlin-stdlib.jar"⟩] := by
  have wellFormed : stockedMachine.tree.WellFormed := ⟨by decide, by decide⟩
  have offered : ({} : HostClasspath).enumerate stockedMachine = [⟨"/k/lib/kotlin-stdlib.jar"⟩] := by
    decide +kernel
  rw [offersTo_iff wellFormed, offered, eq_comm]

/-- An archive of a distribution that is discovered is located even after all is gone. -/
theorem located_after_removal :
    let emptied : Machine := ⟨⟨[]⟩, [], []⟩
    let place : Path := ⟨"/k/lib/kotlin-stdlib.jar"⟩
    ({} : HostClasspath).answers emptied [.change stockedMachine, .query .entries, .change emptied,
      .query (.locate .stdlib)] = [.entries [place], .located (some place)] := by
  intro emptied place
  obtain ⟨entries, exactly, answers, -⟩ := answers_from_first_asked none emptied
    [.change stockedMachine, .query .entries, .change emptied, .query (.locate .stdlib)]
    (by rintro found ⟨⟩; exact ⟨by decide, by decide⟩)
  obtain rfl : [place] = entries := (exactly [place]).mp ((offersTo_stocked _).mpr rfl)
  obtain ⟨first, _, whole, rest, given⟩ := List.forall₂_cons_left_iff.mp answers
  obtain ⟨second, _, located, none, rfl⟩ := List.forall₂_cons_left_iff.mp rest
  obtain rfl := List.forall₂_nil_left_iff.mp none
  rw [given, answers_entries_iff.mp whole, answers_locate_iff.mp located]
  decide +kernel

end HostClasspath
end KotlinCompile
