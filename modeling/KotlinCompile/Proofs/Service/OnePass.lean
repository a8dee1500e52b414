import KotlinCompile.Proofs.ClassName
import KotlinCompile.Proofs.Service.Archive

/-! Packaging bindings in one pass. Each binding is checked, and then passed over if it was there
before or else added to its interface, before the next one is looked at; only the groups that are
left in the end are written. So one binding that names no class, wherever it stands, keeps the
machine as it is. -/
namespace KotlinCompile.ServiceBinding
open Fallible Occurrences
variable {bindings before after : List ServiceBinding} {binding : ServiceBinding}
  {side : ServiceSide} {name : String}

/-- The side of a binding that is reported, and what stands there. The interface goes first. -/
inductive Misnames (binding : ServiceBinding) : ServiceSide → String → Prop
  | interface : ¬ClassName.Resolvable binding.interface →
      Misnames binding .interface binding.interface
  | implementation : ClassName.Resolvable binding.interface →
      ¬ClassName.Resolvable binding.implementation →
      Misnames binding .implementation binding.implementation

theorem Misnames.check_eq (misnames : binding.Misnames side name) :
    binding.check = .error (.unresolvableIdentity side name) := by
  unfold check
  cases misnames with
  | interface wrong =>
    rw [← ClassName.isResolvable_iff, Bool.not_eq_true] at wrong
    rw [wrong]
    rfl
  | implementation right wrong =>
    rw [← ClassName.isResolvable_iff] at right
    rw [← ClassName.isResolvable_iff, Bool.not_eq_true] at wrong
    rw [right, wrong]
    rfl

theorem exists_misnames (invalid : binding.check ≠ .ok ()) :
    ∃ side name, binding.Misnames side name := by
  rw [ne_eq, check_iff, ClassName.isResolvable_iff, ClassName.isResolvable_iff] at invalid
  by_cases served : ClassName.Resolvable binding.interface
  · exact ⟨_, _, .implementation served fun provided => invalid ⟨served, provided⟩⟩
  · exact ⟨_, _, .interface served⟩

theorem exists_first_invalid (invalid : ∃ binding ∈ bindings, binding.check ≠ .ok ()) :
    ∃ before binding after, bindings = before ++ binding :: after ∧
      (∀ other ∈ before, other.check = .ok ()) ∧ binding.check ≠ .ok () := by
  obtain ⟨wrong, member, refused⟩ := invalid
  induction bindings with
  | nil => cases member
  | cons first rest ih =>
    by_cases valid : first.check = .ok ()
    · have later : wrong ∈ rest := by
        rcases List.mem_cons.mp member with rfl | later
        · exact absurd valid refused
        · exact later
      obtain ⟨before, binding, after, rfl, passed, invalid⟩ := ih later
      exact ⟨first :: before, binding, after, rfl,
        List.forall_mem_cons.mpr ⟨valid, passed⟩, invalid⟩
    · exact ⟨[], first, rest, rfl, nofun, valid⟩

/-- The groups after some more bindings, each of which is checked before the next is looked at. A
binding that was seen before changes nothing. -/
def gather (seen : List ServiceBinding) (groups : SortedMap (List String)) :
    List ServiceBinding → Except BuildError (SortedMap (List String))
  | [] => .ok groups
  | binding :: rest => do
    binding.check
    if binding ∈ seen then gather seen groups rest
    else gather (binding :: seen) (register groups binding) rest

section Gather
variable (seen : List ServiceBinding) (groups : SortedMap (List String))

/-- What is left of valid bindings is each of them once, grouped. -/
theorem gather_eq (bindings : List ServiceBinding) :
    gather seen groups bindings = checkAll bindings >>= fun _ =>
      .ok (((firsts id bindings).filter (· ∉ seen)).foldl register groups) := by
  induction bindings generalizing seen groups with
  | nil => rfl
  | cons binding rest ih =>
    have checks : checkAll (binding :: rest) = binding.check >>= fun _ => checkAll rest := rfl
    rw [gather, checks]
    cases binding.check with
    | error fault => rfl
    | ok done =>
      show (if binding ∈ seen then _ else _) = checkAll rest >>= _
      rw [firsts, List.filter_cons, List.filter_filter]
      by_cases again : binding ∈ seen
      · have others : ∀ other : ServiceBinding, (decide (other ∉ seen) &&
            decide (id other ≠ id binding)) = decide (other ∉ seen) := by
          intro other
          by_cases same : other = binding
          · simp [same, again]
          · simp [same]
        rw [if_pos again, ih, if_neg (by simpa using again)]
        simp only [others]
      · have others : ∀ other : ServiceBinding, (decide (other ∉ seen) &&
            decide (id other ≠ id binding)) = decide (other ∉ binding :: seen) := by
          intro other
          by_cases same : other = binding <;> simp [same]
        rw [if_neg again, ih, if_pos (by simpa using again)]
        simp only [others, List.foldl_cons]

/-- Valid bindings are gone through, and the pass goes on behind them. -/
theorem gather_append (valid : ∀ binding ∈ before, binding.check = .ok ())
    (rest : List ServiceBinding) :
    ∃ seen' groups', gather seen groups (before ++ rest) = gather seen' groups' rest := by
  induction before generalizing seen groups with
  | nil => exact ⟨seen, groups, rfl⟩
  | cons binding others ih =>
    have ⟨first, later⟩ := List.forall_mem_cons.mp valid
    rw [List.cons_append, gather, first]
    show ∃ seen' groups', (if binding ∈ seen then _ else _) = _
    split
    · exact ih _ _ later
    · exact ih _ _ later

theorem gather_misnamed (valid : ∀ binding ∈ before, binding.check = .ok ())
    (misnames : binding.Misnames side name) :
    gather seen groups (before ++ binding :: after) = .error (.unresolvableIdentity side name) := by
  obtain ⟨seen, groups, passed⟩ := gather_append seen groups valid (binding :: after)
  rw [passed, gather, misnames.check_eq]
  rfl

end Gather

def entriesOf (groups : SortedMap (List String)) : List (String × String) :=
  groups.entries.map fun (interface, implementations) =>
    (entriesBelow ++ interface, body implementations)

/-- Packaging is one pass over the bindings, and then the archive is delivered. -/
theorem package_eq_gather (bindings : List ServiceBinding) (destination : Path) :
    package bindings destination = liftExcept (gather [] ∅ bindings) >>= fun groups =>
      Machine.deliver destination (.archive (entriesOf groups)) := by
  have groups : (firsts id bindings).filter (· ∉ []) = bindings.eraseDups := by
    rw [eraseDups_eq_firsts]
    exact List.filter_eq_self.mpr fun _ _ => rfl
  rw [package_eq, gather_eq, groups, ← grouped_eq]
  cases checkAll bindings <;> rfl

/-- Where not all bindings name classes, the first that does not is reported, its interface before
its implementation, and the machine is the same as before: nothing is written or created. -/
theorem package_misnamed_untouched (invalid : ∃ binding ∈ bindings, binding.check ≠ .ok ())
    (destination : Path) (machine : Machine) :
    ∃ before binding after side name, bindings = before ++ binding :: after ∧
      (∀ other ∈ before, other.check = .ok ()) ∧ binding.Misnames side name ∧
      package bindings destination machine =
        (.error (.unresolvableIdentity side name), machine) := by
  obtain ⟨before, binding, after, rfl, valid, wrong⟩ := exists_first_invalid invalid
  obtain ⟨side, name, misnames⟩ := exists_misnames wrong
  refine ⟨before, binding, after, side, name, rfl, valid, misnames, ?_⟩
  rw [package_eq_gather, bind_apply, gather_misnamed [] ∅ valid misnames]
  rfl

def anonymousLast : List ServiceBinding := interleaved ++ [⟨"api.Plugin", "impl.Outer$1"⟩]

theorem anonymous_last_untouched :
    (∃ binding ∈ anonymousLast, binding.check ≠ .ok ()) ∧
    ∃ before binding after side name, anonymousLast = before ++ binding :: after ∧
      (∀ other ∈ before, other.check = .ok ()) ∧ binding.Misnames side name ∧
      package anonymousLast ⟨"/work/services.jar"⟩ occupied =
        (.error (.unresolvableIdentity side name), occupied) := by
  have invalid : ∃ binding ∈ anonymousLast, binding.check ≠ .ok () := by
    refine ⟨⟨"api.Plugin", "impl.Outer$1"⟩, by decide, ?_⟩
    rw [ne_eq, check_iff]
    decide +kernel
  exact ⟨invalid, package_misnamed_untouched invalid ⟨"/work/services.jar"⟩ occupied⟩

end KotlinCompile.ServiceBinding
