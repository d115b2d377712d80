import PayloadFlow.Extract.Consumer.Handler
import PayloadFlow.Extract.Error
import PayloadFlow.Proofs.Comparison
import PayloadFlow.Proofs.Requirements

/-!
# When an absent property blocks

A handler that cannot do without a property should not pass unnoticed if the
property does not arrive.  A property that is only read through deeper paths is
left to the findings about these paths, of which only the deepest are reported,
and those block only if no step on the way allows for absence.
-/

namespace PayloadFlow
namespace Comparison

open Consumer

/-- A path is a property or leads into it. -/
def Within (name path : String) : Prop :=
  path = name ∨ (name ++ ".").toList <+: path.toList

/-- A comparison gives a blocking finding about a property or a path into it. -/
def ReportsBlocking (tokens : List String) (f : Flow) (name : String) : Prop :=
  exists found, compareFlow tokens f = .ok found ∧
    exists x, x ∈ found ∧ x.isBlocking = true ∧ Within name x.propertyPath

/-- A handler with the requirements that a list of accesses shows. -/
def withAccesses (c : ConsumerContract) (accesses : List Access) : ConsumerContract :=
  { c with
    requiredProperties := (Requirements.ofAccesses accesses).required
    optionalProperties := (Requirements.ofAccesses accesses).optional
    nestedProperties := (Requirements.ofAccesses accesses).nested }

theorem isInner_withAccesses (p : ProducerContract) (s : SimulatedContract)
    (c : ConsumerContract) (accesses : List Access) (n : NestedProperty) :
    (Flow.mk p s (withAccesses c accesses)).isInner n = false <->
      ¬ Continued accesses n.fullPath := by
  rw [← exists_parentPath_iff]
  simp [Flow.isInner, withAccesses]

theorem mismatch_isBlocking (tokens : List String) (f : Flow) (n : NestedProperty) :
    (f.mismatch tokens n).isBlocking = n.isRequired := by
  unfold Flow.mismatch FindingSite.finding Finding.isBlocking
  cases n.isRequired <;> rfl

/-- The blocking findings about a property come from required properties that are
read by name and from plain accesses that nothing goes on from. -/
theorem reportsBlocking_iff (tokens : List String) (p : ProducerContract)
    (ts : List BrokerTransformation) (c : ConsumerContract) (accesses : List Access)
    (hevent : c.event = p.targetEvent) (name : String) :
    ReportsBlocking tokens ⟨p, simulate p ts, withAccesses c accesses⟩ name <->
      (exists q, q ∈ (Requirements.ofAccesses accesses).required ∧ q.isNested = false ∧
        (simulate p ts).has q.name = false ∧ Within name q.name) ∨
      exists a, a ∈ accesses ∧ 1 < a.path.length ∧ a.IsPlain ∧
        ¬ Continued accesses a.text ∧ ¬ Waived accesses (rootOf a.text) ∧
        (simulate p ts).has (rootOf a.text) = false ∧ Within name a.text := by
  rw [← exists_required_deepest_iff accesses
    fun path => (simulate p ts).has (rootOf path) = false ∧ Within name path]
  unfold ReportsBlocking
  rw [compareFlow_of_events hevent.symm hevent.symm]
  constructor
  · rintro ⟨found, hfound, x, hx, hblocking, hwithin⟩
    cases hfound
    rcases List.mem_append.mp hx with hmissing | hmismatch
    · rcases List.mem_map.mp hmissing with ⟨q, hq, rfl⟩
      rcases (mem_missingProperties_iff _ q).mp hq with ⟨hrequired, hnested, habsent⟩
      exact Or.inl ⟨q, hrequired, hnested, habsent, hwithin⟩
    · rcases List.mem_map.mp hmismatch with ⟨n, hn, rfl⟩
      rcases (mem_mismatches_iff _ n).mp hn with ⟨hnested, hinner, habsent⟩
      rw [isInner_withAccesses] at hinner
      rw [← rootOf_fullPath] at habsent
      rw [mismatch_isBlocking] at hblocking
      exact Or.inr ⟨n, hnested, hblocking, hinner, habsent, hwithin⟩
  · rintro (⟨q, hq, hnested, habsent, hwithin⟩ | ⟨n, hn, hrequired, hdeepest, habsent, hwithin⟩)
    · have hmissing := (mem_missingProperties_iff
        ⟨p, simulate p ts, withAccesses c accesses⟩ q).mpr ⟨hq, hnested, habsent⟩
      exact ⟨_, rfl, _, List.mem_append_left _ (List.mem_map_of_mem hmissing), rfl, hwithin⟩
    · rw [rootOf_fullPath] at habsent
      have hmismatch := (mem_mismatches_iff
        ⟨p, simulate p ts, withAccesses c accesses⟩ n).mpr
          ⟨hn, (isInner_withAccesses p _ c accesses n).mpr hdeepest, habsent⟩
      refine ⟨_, rfl, _, List.mem_append_right _ (List.mem_map_of_mem hmismatch), ?_, hwithin⟩
      rw [mismatch_isBlocking]
      exact hrequired

/-!
# Names without dots

If no name has a dot in it, the paths of the accesses can be told from their
texts, and only accesses to the property itself count.
-/

theorem rootOf_of_within {name path : String} (hname : DotFree name)
    (hwithin : Within name path) : rootOf path = name := by
  unfold rootOf
  rcases hwithin with rfl | ⟨after, hpath⟩
  · rw [Text.before_of_not_mem hname, String.ofList_toList]
  · have hchars : name.toList ++ '.' :: after = path.toList := by
      rw [← hpath, String.toList_append, List.append_assoc]
      rfl
    rw [← hchars, Text.before_append, Text.before_of_not_mem hname, String.ofList_toList]

theorem within_dotted_iff {name : String} {path : List String} (hname : DotFree name)
    (hpath : forall step, step ∈ path -> DotFree step) (hne : path ≠ []) :
    Within name (dotted path) <-> path.head? = some name := by
  cases path with
  | nil =>
      exact absurd rfl hne
  | cons first rest =>
      have hroot := rootOf_dotted rest (hpath first List.mem_cons_self)
      rw [List.head?_cons, Option.some_inj]
      constructor
      · intro hwithin
        exact hroot.symm.trans (rootOf_of_within hname hwithin)
      · rintro rfl
        cases rest with
        | nil =>
            exact Or.inl (by simp [dotted, Text.joinWith])
        | cons second rest =>
            refine Or.inr ⟨(dotted (second :: rest)).toList, ?_⟩
            rw [toList_dotted_cons, String.toList_append, List.append_assoc]
            rfl

def IsLongest (accesses : List Access) (a : Access) : Prop :=
  forall b, b ∈ accesses -> a.path <+: b.path -> b.path = a.path

theorem not_continued_iff {accesses : List Access} {a : Access}
    (hdots : forall b, b ∈ accesses -> forall step, step ∈ b.path -> DotFree step)
    (ha : a ∈ accesses) (hne : a.path ≠ []) :
    ¬ Continued accesses a.text <-> IsLongest accesses a := by
  constructor
  · rintro hcontinued b hb ⟨tail, htail⟩
    cases tail with
    | nil =>
        rw [← htail, List.append_nil]
    | cons step tail =>
        refine absurd ⟨b, hb, a.path.length, List.length_pos_iff.mpr hne, ?_, ?_⟩ hcontinued
        · rw [← htail, List.length_append, List.length_cons]
          omega
        · rw [← htail, List.take_left]
          rfl
  · rintro hlongest ⟨b, hb, depth, hdepth, hlength, htext⟩
    have htake : b.path.take depth = a.path := by
      apply dotted_inj _ hne _ (hdots a ha) htext
      · intro hnil
        have hzero := congrArg List.length hnil
        rw [List.length_take, List.length_nil] at hzero
        omega
      · intro step hstep
        exact hdots b hb step (List.mem_of_mem_take hstep)
    have hsame := hlongest b hb (htake ▸ List.take_prefix depth b.path)
    have hlengths := congrArg List.length htake
    rw [List.length_take, ← hsame] at hlengths
    omega

theorem not_waived_of_isNested {accesses : List Access} {r : RequiredProperty}
    (hr : r ∈ (Requirements.ofAccesses accesses).required) (hnested : r.isNested = true) :
    ¬ Waived accesses r.name := by
  rintro ⟨a, ha, hhead, hwaives⟩
  have hlength : a.path.length = 1 := by
    unfold Access.waives at hwaives
    rw [Bool.and_eq_true, beq_iff_eq] at hwaives
    exact hwaives.1
  have hdirect := (isNested_eq_false_iff hr).mpr
    ⟨a, ha, (path_eq_singleton_iff a r.name).mp ⟨hhead, hlength⟩⟩
  rw [hnested] at hdirect
  cases hdirect

/-- An absent property that a handler requires gives a blocking finding exactly if
some access reads it by name, or if some access that nothing goes on from has no
step that allows for absence.  With dots in names the texts of the paths decide. -/
theorem required_blocking_iff (tokens : List String) (p : ProducerContract)
    (ts : List BrokerTransformation) (c : ConsumerContract) (accesses : List Access)
    (r : RequiredProperty) (hevent : c.event = p.targetEvent)
    (hr : r ∈ (withAccesses c accesses).requiredProperties)
    (habsent : (simulate p ts).has r.name = false) :
    (ReportsBlocking tokens ⟨p, simulate p ts, withAccesses c accesses⟩ r.name <->
      (exists q, q ∈ (withAccesses c accesses).requiredProperties ∧ q.isNested = false ∧
        (simulate p ts).has q.name = false ∧ Within r.name q.name) ∨
      exists a, a ∈ accesses ∧ 1 < a.path.length ∧ a.IsPlain ∧
        ¬ Continued accesses a.text ∧ ¬ Waived accesses (rootOf a.text) ∧
        (simulate p ts).has (rootOf a.text) = false ∧ Within r.name a.text) ∧
    ((forall a, a ∈ accesses -> forall step, step ∈ a.path -> DotFree step) ->
      (ReportsBlocking tokens ⟨p, simulate p ts, withAccesses c accesses⟩ r.name <->
        exists a, a ∈ accesses ∧ a.path.head? = some r.name ∧
          (a.path.length = 1 ∨ a.IsPlain ∧ IsLongest accesses a))) := by
  have hgeneral := reportsBlocking_iff tokens p ts c accesses hevent r.name
  refine ⟨hgeneral, ?_⟩
  intro hdots
  have hname : DotFree r.name := by
    rcases exists_access_of_mem_required hr with ⟨a, ha, hhead⟩
    exact hdots a ha r.name (List.mem_of_head? hhead)
  rw [hgeneral]
  constructor
  · rintro (⟨q, hq, hdirect, _, hwithin⟩ | ⟨a, ha, hlength, hplain, hcontinued, _, _, hwithin⟩)
    · rcases (isNested_eq_false_iff hq).mp hdirect with ⟨a, ha, hpath⟩
      have hqname : DotFree q.name := hdots a ha q.name (by simp [hpath])
      have hroot := rootOf_of_within hname hwithin
      rw [rootOf_of_within hqname (Or.inl rfl)] at hroot
      exact ⟨a, ha, by rw [hpath, hroot]; rfl, Or.inl (by simp [hpath])⟩
    · have hne : a.path ≠ [] := List.length_pos_iff.mp (Nat.lt_of_succ_lt hlength)
      exact ⟨a, ha, (within_dotted_iff hname (hdots a ha) hne).mp hwithin,
        Or.inr ⟨hplain, (not_continued_iff hdots ha hne).mp hcontinued⟩⟩
  · rintro ⟨a, ha, hhead, hread⟩
    cases hnested : r.isNested with
    | false =>
        exact Or.inl ⟨r, hr, hnested, habsent, Or.inl rfl⟩
    | true =>
        have hne : a.path ≠ [] := by
          intro hnil
          rw [hnil] at hhead
          cases hhead
        have hlength : ¬ a.path.length = 1 := by
          intro hone
          have hdirect := (isNested_eq_false_iff hr).mpr
            ⟨a, ha, (path_eq_singleton_iff a r.name).mp ⟨hhead, hone⟩⟩
          rw [hnested] at hdirect
          cases hdirect
        rcases hread with hone | ⟨hplain, hlongest⟩
        · exact absurd hone hlength
        · have hwithin := (within_dotted_iff hname (hdots a ha) hne).mpr hhead
          have hroot : rootOf a.text = r.name := rootOf_of_within hname hwithin
          have hpositive := List.length_pos_iff.mpr hne
          refine Or.inr ⟨a, ha, by omega, hplain, (not_continued_iff hdots ha hne).mpr hlongest,
            ?_, ?_, hwithin⟩
          · rw [hroot]
            exact not_waived_of_isNested hr hnested
          · rw [hroot]
            exact habsent

/-- Reads `a.b` as it is and `a.c.d` with an optional last step. -/
def mixedReads : List Access :=
  [⟨["a", "b"], [false, false], .plain, false, false, 2⟩,
    ⟨["a", "c", "d"], [false, false, true], .plain, false, false, 3⟩]

theorem mixedReads_blocking :
    ⟨"a", true, some "a.c.d", 2⟩ ∈ (withAccesses dropHandler mixedReads).requiredProperties ∧
      (simulate dropSender []).has "a" = false ∧
      ReportsBlocking [] ⟨dropSender, simulate dropSender [], withAccesses dropHandler mixedReads⟩
        "a" := by
  have hr : (⟨"a", true, some "a.c.d", 2⟩ : RequiredProperty) ∈
      (withAccesses dropHandler mixedReads).requiredProperties := by
    decide +kernel
  have habsent : (simulate dropSender []).has "a" = false := by decide
  have hdots : forall a, a ∈ mixedReads -> forall step, step ∈ a.path -> DotFree step := by
    simp [mixedReads, DotFree]
  refine ⟨hr, habsent, ?_⟩
  apply ((required_blocking_iff [] dropSender [] dropHandler mixedReads _ rfl hr habsent).2
    hdots).mpr
  refine ⟨_, List.mem_cons_self, rfl, Or.inr ⟨?_, ?_⟩⟩
  · simp [Access.IsPlain]
  · simp [IsLongest, mixedReads]

/-- Reads `a.b.c` with an optional last step. -/
def openEnd : List Access :=
  [⟨["a", "b", "c"], [false, false, true], .plain, false, false, 1⟩]

/-- A handler that cannot do without `a` gets no blocking finding if `a` does not
arrive: the path `a.b`, which is required, leads on to `a.b.c`, which is not. -/
theorem openEnd_not_blocking :
    (match Script.parseSource "h.js"
        "export function handleDrop(data) \x7b return data.a.b?.c; \x7d" with
      | .ok program => program.functions.map accesses
      | .error _ => []) = [openEnd] ∧
    ⟨"a", true, some "a.b.c", 1⟩ ∈ (withAccesses dropHandler openEnd).requiredProperties ∧
    (simulate dropSender []).has "a" = false ∧
    ¬ ReportsBlocking [] ⟨dropSender, simulate dropSender [], withAccesses dropHandler openEnd⟩
      "a" := by
  refine ⟨by decide +kernel, by decide +kernel, by decide, ?_⟩
  rw [reportsBlocking_iff [] dropSender [] dropHandler openEnd rfl]
  rintro (⟨q, hq, hdirect, _⟩ | ⟨a, ha, _, hplain, _⟩)
  · rcases (isNested_eq_false_iff hq).mp hdirect with ⟨a, ha, hpath⟩
    cases List.mem_singleton.mp ha
    cases congrArg List.length hpath
  · cases List.mem_singleton.mp ha
    cases hplain true (by decide)

end Comparison
end PayloadFlow
