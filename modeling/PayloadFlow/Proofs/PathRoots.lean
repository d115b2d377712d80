import PayloadFlow.Proofs.Comparison
import PayloadFlow.Proofs.NestedPaths
import PayloadFlow.Proofs.RecordedAccesses
import PayloadFlow.Proofs.Walk

/-!
# Roots of paths

A path is written with dots between its names and read back up to the first dot.  The
two agree on the first name as long as this name has no dot, which is up to the keys of
the patterns in a handler: a key in quotes may have one.
-/

namespace PayloadFlow
namespace Consumer

open Script

/-!
# First names
-/

/-- An access that steps to a nested property leads into an object by its first name. -/
theorem Access.PathIn.first {allowed : String -> Prop} {a : Access} (h : a.PathIn allowed)
    {depth : Nat} {key : NestedKey} (hsteps : a.StepsTo depth key) {first : String}
    (hfirst : a.path.head? = some first) : allowed first := by
  apply h.names
  have hpos := hsteps.pos
  have hlength := hsteps.depth_lt
  cases hpath : a.path with
  | nil =>
      rw [hpath] at hfirst
      cases hfirst
  | cons name rest =>
      rw [hpath, List.head?_cons, Option.some_inj] at hfirst
      subst hfirst
      cases rest with
      | nil =>
          rw [hpath, List.length_singleton] at hlength
          omega
      | cons second rest =>
          rw [List.dropLast_cons_cons]
          exact List.mem_cons_self

end Consumer

namespace Comparison

open Consumer Script

/-!
# Reported paths
-/

theorem isDeepest_of_eq_singleton {c : ConsumerContract} {n : NestedProperty}
    (hnested : c.nestedProperties = [n]) : IsDeepest c n := by
  intro q hq hother
  rw [hnested] at hq
  exact absurd (List.mem_singleton.mp hq) hother

/-- Some finding says that the path to a nested property leads nowhere. -/
def Reports (found : List Finding) (n : NestedProperty) : Prop :=
  exists x, x ∈ found ∧ x.kind = .nestedMismatch ∧ x.propertyPath = n.fullPath

theorem reports_iff (tokens : List String) (f : Flow) {n : NestedProperty}
    (hn : n ∈ f.consumer.nestedProperties) :
    Reports (f.missingProperties.map (f.missing tokens) ++ f.mismatches.map (f.mismatch tokens))
        n <->
      f.simulated.has n.root = false ∧ IsDeepest f.consumer n := by
  rw [← isInner_eq_false_iff]
  constructor
  · rintro ⟨x, hx, hkind, hpath⟩
    rcases List.mem_append.mp hx with hx | hx
    · rcases List.mem_map.mp hx with ⟨r, _, rfl⟩
      cases hkind
    · rcases List.mem_map.mp hx with ⟨m, hm, rfl⟩
      have hfull : m.fullPath = n.fullPath := hpath
      rcases (mem_mismatches_iff f m).mp hm with ⟨_, hdeepest, habsent⟩
      constructor
      · rw [← rootOf_fullPath, ← hfull, rootOf_fullPath]
        exact habsent
      · unfold Flow.isInner at hdeepest ⊢
        rw [← hfull]
        exact hdeepest
  · rintro ⟨habsent, hdeepest⟩
    have hmismatch := (mem_mismatches_iff f n).mpr ⟨hn, hdeepest, habsent⟩
    exact ⟨f.mismatch tokens n, List.mem_append_right _ (List.mem_map_of_mem hmismatch), rfl, rfl⟩

/-- Every access that steps to a nested property starts from the root of the property, up to
the first dot in its first name.  The path is reported if it is a deepest one and the
payload has nothing under the root.  So the first name decides if it has no dot, as it does
if the handler leads into objects by names without dots only. -/
theorem nested_root_first (tokens : List String) (path eventSource : String) (f : FunctionNode)
    (p : ProducerContract) (s : SimulatedContract) (hevent : s.event = p.targetEvent) :
    exists found,
      compareFlow tokens ⟨p, s, contract path f eventSource p.targetEvent⟩ = .ok found ∧
      forall n, n ∈ (contract path f eventSource p.targetEvent).nestedProperties ->
        (exists a, a ∈ accesses f ∧ exists depth, a.StepsTo depth (keyOf n)) ∧
        forall a, a ∈ accesses f -> forall depth, a.StepsTo depth (keyOf n) ->
          exists first, a.path.head? = some first ∧ first ∈ stepNames f ∧
            n.root = rootOf first ∧ (n.root = first <-> DotFree first) ∧
            (Reports found n <-> s.has (rootOf first) = false ∧
              IsDeepest (contract path f eventSource p.targetEvent) n) ∧
            ((forall name, name ∈ stepNames f -> DotFree name) ->
              n.root = first ∧
              (Reports found n <-> s.has first = false ∧
                IsDeepest (contract path f eventSource p.targetEvent) n)) := by
  refine ⟨_, compareFlow_of_events rfl hevent, ?_⟩
  intro n hn
  have hreports := reports_iff tokens ⟨p, s, contract path f eventSource p.targetEvent⟩ hn
  refine ⟨(mem_map_keyOf_nested_iff (accesses f) (keyOf n)).mp (List.mem_map_of_mem hn), ?_⟩
  intro a ha depth hsteps
  rcases hsteps.exists_head with ⟨first, hfirst⟩
  have hstep := (pathIn_of_mem_accesses ha).first hsteps hfirst
  have hroot := hsteps.root_eq hfirst
  refine ⟨first, hfirst, hstep, hroot, ?_, ?_, ?_⟩
  · rw [hroot]
    exact rootOf_eq_self_iff first
  · rw [← hroot]
    exact hreports
  · intro hdots
    have hsame : n.root = first := hroot.trans (rootOf_of_dotFree (hdots first hstep))
    refine ⟨hsame, ?_⟩
    rw [← hsame]
    exact hreports

def innerKeySource : String :=
  "export function handleDrop(data) \x7b const \x7b size: \x7b inner \x7d \x7d = data; use(inner); \x7d"

theorem innerKey_reported :
    exists program f, parseSource "h.js" innerKeySource = .ok program ∧ f ∈ program.functions ∧
      (forall name, name ∈ stepNames f -> DotFree name) ∧
      (simulate dropSender []).has "size" = false ∧
      exists found n,
        compareFlow [] ⟨dropSender, simulate dropSender [],
          contract "h.js" f "handleDrop" "drop"⟩ = .ok found ∧
        n.root = "size" ∧ n.fullPath = "size.inner" ∧ Reports found n := by
  have hread : parsesTo "h.js" innerKeySource (fun program =>
      program.functions.any fun f =>
        decide ((contract "h.js" f "handleDrop" "drop").nestedProperties =
            [⟨"size", "inner", true, 1⟩] ∧
          forall name, name ∈ stepNames f -> '.' ∉ name.toList)) = true := by
    decide +kernel
  have habsent : (simulate dropSender []).has "size" = false := by
    decide
  rcases exists_of_parsesTo hread with ⟨program, hparse, hprogram⟩
  rcases List.any_eq_true.mp hprogram with ⟨f, hf, hfacts⟩
  rcases of_decide_eq_true hfacts with ⟨hnested, hdots⟩
  rcases nested_root_first [] "h.js" "handleDrop" f dropSender (simulate dropSender []) rfl with
    ⟨found, hfound, hall⟩
  have hn : ⟨"size", "inner", true, 1⟩ ∈
      (contract "h.js" f "handleDrop" "drop").nestedProperties := by
    rw [hnested]
    exact List.mem_singleton_self _
  rcases hall _ hn with ⟨⟨a, ha, depth, hsteps⟩, hroots⟩
  rcases hroots a ha depth hsteps with ⟨first, _, _, _, _, _, hplain⟩
  rcases hplain hdots with ⟨hroot, hreports⟩
  have hsize : first = "size" := hroot.symm.trans (by decide)
  refine ⟨program, f, hparse, hf, hdots, habsent, found, _, hfound, hroot.trans hsize, rfl, ?_⟩
  apply hreports.mpr
  constructor
  · rw [hsize]
    exact habsent
  · exact isDeepest_of_eq_singleton hnested

def dottedSender : ProducerContract :=
  ⟨"startDrop", "drop", "drop", [], [⟨"a.b", .literal, none, "\x7b c: x \x7d", 1⟩],
    "flows/drop.js", 1⟩

/-- A handler that reads a property of the object under the key with the dot. -/
def dottedKeySource : String :=
  "export function handleDrop(data) \x7b const \x7b 'a.b': \x7b c \x7d \x7d = data; return c; \x7d"

theorem dottedKey_reported :
    exists program f, parseSource "h.js" dottedKeySource = .ok program ∧ f ∈ program.functions ∧
      (forall a, a ∈ accesses f -> a.path = ["a.b", "c"]) ∧
      (simulate dottedSender []).has "a.b" = true ∧
      exists found n,
        compareFlow [] ⟨dottedSender, simulate dottedSender [],
          contract "h.js" f "handleDrop" "drop"⟩ = .ok found ∧
        n ∈ (contract "h.js" f "handleDrop" "drop").nestedProperties ∧
        n.root = "a" ∧ Reports found n := by
  have hread : parsesTo "h.js" dottedKeySource (fun program =>
      program.functions.any fun f =>
        decide ((contract "h.js" f "handleDrop" "drop").nestedProperties =
            [⟨"a.b", "c", true, 1⟩] ∧
          (accesses f).map (·.path) = [["a.b", "c"], ["a.b", "c"]])) = true := by
    decide +kernel
  rcases exists_of_parsesTo hread with ⟨program, hparse, hprogram⟩
  rcases List.any_eq_true.mp hprogram with ⟨f, hf, hfacts⟩
  rcases of_decide_eq_true hfacts with ⟨hnested, hpaths⟩
  have hn : ⟨"a.b", "c", true, 1⟩ ∈
      (contract "h.js" f "handleDrop" "drop").nestedProperties := by
    rw [hnested]
    exact List.mem_singleton_self _
  have habsent : (simulate dottedSender []).has "a" = false := by
    decide
  refine ⟨program, f, hparse, hf, ?_, by decide, _, _, compareFlow_of_events rfl rfl, hn,
    by decide, ?_⟩
  · intro a ha
    have hpath : a.path ∈ (accesses f).map (·.path) := List.mem_map_of_mem ha
    rw [hpaths] at hpath
    simpa using hpath
  · apply (reports_iff [] _ hn).mpr
    constructor
    · exact habsent
    · exact isDeepest_of_eq_singleton hnested

end Comparison
end PayloadFlow
