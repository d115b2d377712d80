import Mathlib.Data.Finset.Max
import PayloadFlow.Proofs.BlockingFindings

/-!
# No path is silenced

Of the paths into an object that does not arrive only the deepest are reported.
Every other path leads on to one of these, since the path that goes on from it is
longer and starts from the same property.
-/

namespace PayloadFlow
namespace Comparison

open Consumer

/-!
# One step further down
-/

theorem within_self (path : String) : Within path path :=
  Or.inl rfl

theorem within_step {path : String} {n q : NestedProperty} (hn : Within path n.fullPath)
    (hpath : q.parentPath = n.fullPath) : Within path q.fullPath := by
  have hfull : q.fullPath.toList = n.fullPath.toList ++ ('.' :: q.name.toList) := by
    unfold NestedProperty.fullPath at hpath ⊢
    rw [hpath, String.toList_append, String.toList_append, List.append_assoc]
    rfl
  refine Or.inr ?_
  rw [hfull]
  rcases hn with hsame | hprefix
  · rw [hsame, String.toList_append]
    exact ⟨q.name.toList, List.append_assoc ..⟩
  · exact hprefix.trans (List.prefix_append _ _)

/-!
# Down to the end
-/

/-- From every nested property some deepest one goes on, below the same property of
the payload. -/
theorem exists_deepest_within (f : Flow) {n : NestedProperty}
    (hn : n ∈ f.consumer.nestedProperties) :
    exists m, m ∈ f.consumer.nestedProperties ∧ f.isInner m = false ∧ m.root = n.root ∧
      Within n.fullPath m.fullPath := by
  classical
  -- A longest path below the property cannot lead on to another one.
  have hnonempty : ((f.consumer.nestedProperties.filter fun m =>
      m.root = n.root ∧ Within n.fullPath m.fullPath).toFinset).Nonempty := by
    refine ⟨n, ?_⟩
    rw [List.mem_toFinset, List.mem_filter, decide_eq_true_eq]
    exact ⟨hn, rfl, within_self n.fullPath⟩
  rcases Finset.exists_max_image _ (fun m : NestedProperty => m.fullPath.length) hnonempty
    with ⟨m, hm, hlongest⟩
  rw [List.mem_toFinset, List.mem_filter, decide_eq_true_eq] at hm
  rcases hm with ⟨hmem, hroot, hwithin⟩
  refine ⟨m, hmem, ?_, hroot, hwithin⟩
  rw [Flow.isInner, List.any_eq_false]
  intro q hq hpath
  rw [beq_iff_eq] at hpath
  have hbelow := hlongest q (by
    rw [List.mem_toFinset, List.mem_filter, decide_eq_true_eq]
    exact ⟨hq, (root_of_parentPath_eq hpath).trans hroot, within_step hwithin hpath⟩)
  have hlonger := length_fullPath q
  rw [hpath] at hlonger
  omega

/-- Whatever a handler reads below a property that does not arrive is reported, by
its own path or by one that goes on from it. -/
theorem absent_root_reported (tokens : List String) (f : Flow)
    (hproducer : f.producer.targetEvent = f.consumer.event)
    (hsimulated : f.simulated.event = f.consumer.event) :
    exists found, compareFlow tokens f = .ok found ∧
      forall n, n ∈ f.consumer.nestedProperties -> f.simulated.has n.root = false ->
        exists x, x ∈ found ∧ x.kind = .nestedMismatch ∧ x.event = f.consumer.event ∧
          Within n.fullPath x.propertyPath := by
  refine ⟨_, compareFlow_of_events hproducer hsimulated, ?_⟩
  intro n hn habsent
  rcases exists_deepest_within f hn with ⟨m, hm, hdeepest, hroot, hwithin⟩
  have hmismatch : m ∈ f.mismatches := by
    rw [mem_mismatches_iff, hroot]
    exact ⟨hm, hdeepest, habsent⟩
  refine ⟨f.mismatch tokens m, ?_, rfl, rfl, hwithin⟩
  exact List.mem_append_right _ (List.mem_map_of_mem hmismatch)

/-- Reads three paths into `a`, the longest one first and one of them twice. -/
def chainHandler : ConsumerContract :=
  ⟨"handleDrop", "drop", "handleDrop", [⟨"a", true, some "a.b.c.d", 1⟩], [],
    [⟨"a.b.c", "d", true, 1⟩, ⟨"a", "b", true, 1⟩, ⟨"a.b", "c", false, 2⟩, ⟨"a", "b", true, 3⟩],
    "handlers/drop.js", 1⟩

theorem chainHandler_reported :
    ⟨"a", "b", true, 1⟩ ∈ chainHandler.nestedProperties ∧
    (simulate dropSender []).has "a" = false ∧
    exists found, compareFlow [] ⟨dropSender, simulate dropSender [], chainHandler⟩ = .ok found ∧
      exists x, x ∈ found ∧ x.kind = .nestedMismatch ∧ x.event = "drop" ∧
        Within "a.b" x.propertyPath := by
  have hread : ⟨"a", "b", true, 1⟩ ∈ chainHandler.nestedProperties :=
    List.mem_cons_of_mem _ List.mem_cons_self
  have habsent : (simulate dropSender []).has "a" = false := by
    decide
  rcases absent_root_reported [] ⟨dropSender, simulate dropSender [], chainHandler⟩ rfl rfl with
    ⟨found, hfound, hreported⟩
  refine ⟨hread, habsent, found, hfound, ?_⟩
  exact hreported _ hread habsent

end Comparison
end PayloadFlow
