import PayloadFlow.Proofs.NestedPaths
import PayloadFlow.Proofs.RecordedAccesses

/-!
# Marks of accesses

Every access that is collected leads to some property and has a mark for each name of its
path, whatever has been collected before it.  So none is left out when accesses are put
together, and whether a nested property is required is told by the marks of the steps that
lead to it.
-/

namespace PayloadFlow
namespace Consumer

open Script

structure Access.IsMarked (a : Access) : Prop where
  path : a.path ≠ []
  marks : a.optional.length = a.path.length

theorem Access.PathIn.isMarked {allowed : String -> Prop} {a : Access} (h : a.PathIn allowed) :
    a.IsMarked :=
  ⟨h.path, h.marks⟩

/-!
# Accesses before
-/

namespace Collector

def preceded (c : Collector) (earlier : List Access) : Collector :=
  { c with accesses := earlier ++ c.accesses }

def Next.preceded (next : Next) (earlier : List Access) : Next :=
  match next with
  | .skip c => .skip (c.preceded earlier)
  | .descend c => .descend (c.preceded earlier)
  | .body c hidden => .body (c.preceded earlier) hidden

variable (c : Collector) (earlier : List Access)

theorem push_preceded (a : Access) : (c.preceded earlier).push a = (c.push a).preceded earlier := by
  unfold push preceded
  rw [List.append_assoc]

theorem read_preceded (r : Reach) (context : Context) (line : Nat) :
    (c.preceded earlier).read r context line = (c.read r context line).preceded earlier :=
  push_preceded c earlier _

theorem readEntry_preceded (e : PatternEntry) (path : List String) (isSafe : Bool) :
    (c.preceded earlier).readEntry e path isSafe =
      (c.readEntry e path isSafe).preceded earlier := by
  unfold readEntry
  split
  · exact push_preceded c earlier _
  · rfl

theorem foldl_preceded {α : Type} {go : Collector -> α -> Collector} (parts : List α)
    (hgo : forall part, part ∈ parts -> forall c : Collector,
      go (c.preceded earlier) part = (go c part).preceded earlier) :
    parts.foldl go (c.preceded earlier) = (parts.foldl go c).preceded earlier := by
  induction parts generalizing c with
  | nil =>
      rfl
  | cons part rest ih =>
      rw [List.foldl_cons, List.foldl_cons, hgo part List.mem_cons_self]
      exact ih _ fun other hother => hgo other (List.mem_cons_of_mem part hother)

theorem readPattern_preceded (pattern : Node) (path : List String) (isSafe : Bool)
    (c : Collector) :
    readPattern pattern path isSafe (c.preceded earlier) =
      (readPattern pattern path isSafe c).preceded earlier := by
  rw [readPattern_eq, readPattern_eq]
  apply foldl_preceded
  intro e he c
  unfold takeEntry
  dsimp only
  rw [readEntry_preceded]
  split
  · rfl
  · cases hnested : e.nested with
    | some inner =>
        exact readPattern_preceded inner _ _ _
    | none =>
        cases e.localName with
        | some name =>
            rfl
        | none =>
            rfl
termination_by sizeOf pattern
decreasing_by exact Node.sizeOf_lt_of_mem_patternEntries he hnested

/-!
# One node
-/

theorem resolveNode?_preceded (n : Node) :
    (c.preceded earlier).resolveNode? n = c.resolveNode? n :=
  rfl

theorem atDeclarator_preceded (n : Node) :
    (c.preceded earlier).atDeclarator n = (c.atDeclarator n).preceded earlier := by
  unfold atDeclarator
  simp only [resolveNode?_preceded]
  split
  · rfl
  · rename_i name base hasFallback r _
    cases name.kind with
    | objectPattern =>
        exact congrArg Next.skip (readPattern_preceded earlier name r.path _ c)
    | identifier =>
        dsimp only
        rw [read_preceded, read_preceded]
        split
        · rfl
        · split
          · rfl
          · rfl
    | _ =>
        rfl

theorem atCall_preceded (n : Node) :
    (c.preceded earlier).atCall n = (c.atCall n).preceded earlier := by
  unfold atCall
  simp only [resolveNode?_preceded, read_preceded]
  split
  · rfl
  · rfl

theorem atIn_preceded (place : Cursor) :
    (c.preceded earlier).atIn place = (c.atIn place).preceded earlier := by
  unfold atIn
  simp only [resolveNode?_preceded, read_preceded]
  split
  · rfl
  · rfl

theorem atMember_preceded (place : Cursor) :
    (c.preceded earlier).atMember place = (c.atMember place).preceded earlier := by
  have hresolve : (c.preceded earlier).resolve? = c.resolve? := rfl
  unfold atMember
  rw [hresolve]
  cases place.node.memberChain?.bind c.resolve? with
  | none =>
      rfl
  | some r =>
      simp only [read_preceded]
      generalize (if isCalled place then r.pop else r) = reach
      split
      · rfl
      · split
        · rfl
        · rfl

theorem atIdentifier_preceded (place : Cursor) :
    (c.preceded earlier).atIdentifier place = (c.atIdentifier place).preceded earlier := by
  have hsources : (c.preceded earlier).sources = c.sources := rfl
  unfold atIdentifier
  simp only [hsources, read_preceded]
  split
  · rfl
  · split
    · rfl
    · rfl

theorem atFunction_preceded (n : Node) :
    (c.preceded earlier).atFunction n = (c.atFunction n).preceded earlier := by
  have hsources : (c.preceded earlier).sources = c.sources := rfl
  unfold atFunction
  simp only [hsources]
  split
  · rfl
  · split
    · rfl
    · rfl

theorem visit_preceded (place : Cursor) :
    (c.preceded earlier).visit place = (c.visit place).preceded earlier := by
  unfold visit
  simp only [atFunction_preceded, atDeclarator_preceded, atCall_preceded, atIn_preceded,
    atMember_preceded, atIdentifier_preceded]
  split
  · rfl
  · split
    · rfl
    · rfl
    · split
      · rfl
      · rfl
    · rfl
    · rfl
    · rfl

/-!
# Whole bodies
-/

theorem collect_preceded (n : Node) (above : List Node) (c : Collector) :
    collect n above (c.preceded earlier) = (collect n above c).preceded earlier := by
  rw [collect_eq, collect_eq, visit_preceded]
  cases c.visit ⟨n, above⟩ with
  | skip c =>
      rfl
  | descend c =>
      apply foldl_preceded
      intro part hpart c
      exact collect_preceded part (n :: above) c
  | body c hidden =>
      unfold Next.preceded
      dsimp only
      cases hbody : n.child? .body with
      | some body =>
          dsimp only
          rw [collect_preceded body (n :: above) c]
          rfl
      | none =>
          rfl
termination_by sizeOf n
decreasing_by
  · exact Node.sizeOf_lt_of_mem_parts hpart
  · exact Node.sizeOf_lt_of_child? hbody

def AddsMarked (c d : Collector) : Prop :=
  exists new, d.accesses = c.accesses ++ new ∧ forall a, a ∈ new -> a.IsMarked

theorem addsMarked_of_preceded {go : Collector -> Collector}
    (hgo : forall earlier c, go (c.preceded earlier) = (go c).preceded earlier)
    (hpaths : forall c, c.PathsIn (fun _ => True) -> (go c).PathsIn fun _ => True) (c : Collector) :
    AddsMarked c (go c) := by
  have hsplit : c = preceded { c with accesses := [] } c.accesses := by
    unfold preceded
    rw [List.append_nil]
  have hfresh : PathsIn (fun _ => True) { c with accesses := [] } := by
    constructor
    · exact fun _ _ _ _ => trivial
    · exact fun _ ha => absurd ha List.not_mem_nil
  refine ⟨(go { c with accesses := [] }).accesses, ?_, ?_⟩
  · exact congrArg accesses ((congrArg go hsplit).trans (hgo _ _))
  · intro a ha
    exact ((hpaths _ hfresh).accesses a ha).isMarked

theorem addsMarked_readPattern (pattern : Node) (path : List String) (isSafe : Bool)
    (c : Collector) : AddsMarked c (readPattern pattern path isSafe c) :=
  addsMarked_of_preceded (fun earlier => readPattern_preceded earlier pattern path isSafe)
    (fun _ => PathsIn.readPattern pattern (fun _ _ _ _ => trivial) (fun _ _ => trivial) isSafe) c

theorem addsMarked_collect (n : Node) (above : List Node) (c : Collector) :
    AddsMarked c (collect n above c) :=
  addsMarked_of_preceded (fun earlier => collect_preceded earlier n above)
    (fun _ => PathsIn.collect n (fun _ _ _ _ => trivial) above) c

end Collector

/-!
# Steps
-/

namespace Access

/-- The names on the path of an access with their marks. -/
def steps (a : Access) : List (String × Bool) :=
  a.path.zip a.optional

variable {a : Access}

theorem IsMarked.map_fst_steps (h : a.IsMarked) : a.steps.map Prod.fst = a.path :=
  List.map_fst_zip (Nat.le_of_eq h.marks.symm)

theorem IsMarked.map_snd_steps (h : a.IsMarked) : a.steps.map Prod.snd = a.optional :=
  List.map_snd_zip (Nat.le_of_eq h.marks)

end Access

/-- Some steps from the payload on end at a nested property. -/
def EndsAt (steps : List (String × Bool)) (key : NestedKey) : Prop :=
  exists before last, before ≠ [] ∧ steps = before ++ [last] ∧
    key = (dotted (before.map Prod.fst), last.1)

/-- The steps to a nested property are those of a path down to the depth of the property. -/
theorem exists_steps_iff {a : Access} (h : a.IsMarked) (key : NestedKey) (P : List Bool -> Prop) :
    (exists steps, steps <+: a.steps ∧ EndsAt steps key ∧ P (steps.map Prod.snd)) <->
      exists depth, a.StepsTo depth key ∧ P (a.optional.take (depth + 1)) := by
  constructor
  · rintro ⟨steps, ⟨rest, hsteps⟩, ⟨before, last, hbefore, rfl, rfl⟩, hP⟩
    have hpath : a.path = before.map Prod.fst ++ last.1 :: rest.map Prod.fst := by
      rw [← h.map_fst_steps, ← hsteps, List.append_assoc, List.map_append]
      rfl
    have hmarks : a.optional = (before ++ [last]).map Prod.snd ++ rest.map Prod.snd := by
      rw [← h.map_snd_steps, ← hsteps, List.map_append]
    have hlength : (before.map Prod.fst).length = before.length := List.length_map _
    refine ⟨before.length, ⟨List.length_pos_iff.mpr hbefore, ?_, ?_⟩, ?_⟩
    · rw [hpath, List.getElem?_append_right (Nat.le_of_eq hlength), hlength, Nat.sub_self]
      rfl
    · rw [hpath, List.take_left' hlength]
    · rwa [hmarks, List.take_left' (by rw [List.length_map, List.length_append]; rfl)]
  · rintro ⟨depth, hto, hP⟩
    have hname := hto.name
    rw [← h.map_fst_steps, List.getElem?_map, Option.map_eq_some_iff] at hname
    rcases hname with ⟨last, hlast, hname⟩
    refine ⟨a.steps.take (depth + 1), List.take_prefix _ _,
      ⟨a.steps.take depth, last, ?_, ?_, ?_⟩, ?_⟩
    · have hdepth : depth < a.steps.length := (List.getElem?_eq_some_iff.mp hlast).1
      have hpos := hto.pos
      rw [← List.length_pos_iff, List.length_take]
      omega
    · rw [List.take_add_one, hlast, Option.toList_some]
    · rw [List.map_take, h.map_fst_steps, hto.parent, hname]
    · rwa [List.map_take, h.map_snd_steps]

/-- The uses of an access are those that its own steps tell of: a nested property is required
if none of the steps up to it allows for absence. -/
theorem mem_nestedUses_iff_steps {a : Access} (h : a.IsMarked) (key : NestedKey) (u : NestedUse) :
    (key, u) ∈ nestedUses a <->
      exists steps, steps <+: a.steps ∧ EndsAt steps key ∧
        u = ⟨steps.all fun s => !s.2, a.line⟩ := by
  have hall (steps : List (String × Bool)) :
      (steps.all fun s => !s.2) = !(steps.map Prod.snd).any fun o => o := by
    rw [List.any_map, List.not_any_eq_all_not]
    rfl
  have huses := exists_mem_nestedUses_iff a key fun use => u = use
  rw [← exists_steps_iff h key fun marks => u = ⟨!marks.any fun o => o, a.line⟩] at huses
  simp only [hall, ← huses]
  constructor
  · intro huse
    exact ⟨(key, u), huse, rfl, rfl⟩
  · rintro ⟨e, he, rfl, rfl⟩
    exact he

/-- No access is left out where all have a property that they read first. -/
theorem summaries_of_isMarked {accesses : List Access} (h : forall a, a ∈ accesses -> a.IsMarked) :
    summaries accesses =
      accesses.foldl (fun table a => noteAccess (a.path.headD "") a table) [] := by
  rw [summaries_eq]
  apply List.foldl_ext
  intro table a ha
  apply noteNext_of_head
  rw [List.headD_eq_head?_getD]
  cases hpath : a.path with
  | nil =>
      exact absurd hpath (h a ha).path
  | cons name rest =>
      rfl

/-- A nested property is required if some access goes to it by plain steps, unless the handler
allows for the absence of the property of the payload that it lies below. -/
theorem isRequired_iff_steps {accesses : List Access} (h : forall a, a ∈ accesses -> a.IsMarked)
    {p : NestedProperty} (hp : p ∈ (Requirements.ofAccesses accesses).nested) :
    p.isRequired = true <->
      (exists a, a ∈ accesses ∧ exists steps, steps <+: a.steps ∧ EndsAt steps (keyOf p) ∧
        forall s, s ∈ steps -> s.2 = false) ∧
      ¬ Waived accesses p.root := by
  rw [isRequired_iff hp]
  refine and_congr_left' (exists_congr fun a => and_congr_right fun ha => ?_)
  have hsteps := exists_steps_iff (h a ha) (keyOf p) fun marks => forall o, o ∈ marks -> o = false
  simp only [List.forall_mem_map] at hsteps
  exact hsteps.symm

/-- Reading a pattern and going through a body add marked accesses only, whatever the names in
force stand for and whatever has been found before.  So all accesses of a handler are marked,
each of them is noted under the property that it reads first, and whether a nested property is
required is told by the marks of the steps that lead to it, for one access and for all. -/
theorem recorded_accesses_marked (c : Collector) (pattern : Node) (path : List String)
    (isSafe : Bool) (n : Node) (above : List Node) (f : FunctionNode) :
    Collector.AddsMarked c (Collector.readPattern pattern path isSafe c) ∧
      Collector.AddsMarked c (Collector.collect n above c) ∧
      (forall a, a ∈ accesses f -> a.IsMarked) ∧
      summaries (accesses f) =
        (accesses f).foldl (fun table a => noteAccess (a.path.headD "") a table) [] ∧
      (forall a, a ∈ accesses f -> forall key u, (key, u) ∈ nestedUses a <->
        exists steps, steps <+: a.steps ∧ EndsAt steps key ∧
          u = ⟨steps.all fun s => !s.2, a.line⟩) ∧
      forall p, p ∈ (Requirements.ofAccesses (accesses f)).nested ->
        (p.isRequired = true <->
          (exists a, a ∈ accesses f ∧ exists steps, steps <+: a.steps ∧ EndsAt steps (keyOf p) ∧
            forall s, s ∈ steps -> s.2 = false) ∧
          ¬ Waived (accesses f) p.root) := by
  have hmarked : forall a, a ∈ accesses f -> a.IsMarked := by
    intro a ha
    exact (pathIn_of_mem_accesses ha).isMarked
  refine ⟨Collector.addsMarked_readPattern pattern path isSafe c,
    Collector.addsMarked_collect n above c, hmarked, summaries_of_isMarked hmarked, ?_, ?_⟩
  · intro a ha
    exact mem_nestedUses_iff_steps (hmarked a ha)
  · intro p hp
    exact isRequired_iff_steps hmarked hp

/-- A handler that reads its payload by patterns, with a default, and past an object that may be
absent. -/
def unpackingSource : String :=
  "export function handleDrop(\x7b box, size = \x7b\x7d \x7d) \x7b " ++
    "const \x7b lid: \x7b tag \x7d \x7d = box; use(tag?.font.name, size.w, lid); \x7d"

def unpackingReads : List (List String × List Bool) :=
  [(["box"], [false]), (["size"], [false]), (["box", "lid", "tag"], [false, false, false]),
    (["box", "lid", "tag", "font", "name"], [false, false, false, true, false]),
    (["size", "w"], [true, false])]

/-- All its accesses are marked; one goes to the tag by plain steps, and none to the font. -/
theorem unpacking_marked :
    exists program f, parseSource "h.js" unpackingSource = .ok program ∧ f ∈ program.functions ∧
      (accesses f).map (fun a => (a.path, a.optional)) = unpackingReads ∧
      (forall a, a ∈ accesses f -> a.IsMarked) ∧
      (exists a, a ∈ accesses f ∧ exists steps, steps <+: a.steps ∧
        EndsAt steps ("box.lid", "tag") ∧ forall s, s ∈ steps -> s.2 = false) ∧
      ¬ exists a, a ∈ accesses f ∧ exists steps, steps <+: a.steps ∧
        EndsAt steps ("box.lid.tag", "font") ∧ forall s, s ∈ steps -> s.2 = false := by
  have hread : parsesTo "h.js" unpackingSource (fun program => decide (
      exists f, f ∈ program.functions ∧
        (accesses f).map (fun a => (a.path, a.optional)) = unpackingReads ∧
        (exists e, e ∈ nestedTable (accesses f) ∧
          nestedProperty (summaries (accesses f)) e = ⟨"box.lid", "tag", true, 1⟩) ∧
        exists e, e ∈ nestedTable (accesses f) ∧
          nestedProperty (summaries (accesses f)) e = ⟨"box.lid.tag", "font", false, 1⟩)) =
        true := by
    decide +kernel
  rcases exists_of_parsesTo hread with ⟨program, hparse, hprogram⟩
  rcases of_decide_eq_true hprogram with ⟨f, hf, hpaths, htag, hfont⟩
  rcases recorded_accesses_marked {} f.body [] false f.body [] f with
    ⟨_, _, hmarked, _, _, hflag⟩
  have hroots : NestedProperty.root ⟨"box.lid.tag", "font", false, 1⟩ =
      NestedProperty.root ⟨"box.lid", "tag", true, 1⟩ := by
    decide
  rcases (hflag _ ((mem_nested_iff _ _).mpr htag)).mp rfl with ⟨hplain, hwaived⟩
  refine ⟨program, f, hparse, hf, hpaths, hmarked, hplain, ?_⟩
  intro hfontPlain
  rw [← hroots] at hwaived
  have hrequired := (hflag _ ((mem_nested_iff _ _).mpr hfont)).mpr ⟨hfontPlain, hwaived⟩
  cases hrequired

end Consumer
end PayloadFlow
