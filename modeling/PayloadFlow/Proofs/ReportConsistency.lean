import Mathlib.Algebra.Ring.Nat
import Mathlib.Data.List.Nodup
import PayloadFlow.Workspace.Session
import PayloadFlow.Proofs.Comparison
import PayloadFlow.Proofs.Listing
import PayloadFlow.Proofs.ReportOrder

/-!
# Consistent reports

A report shows one list of findings in several ways: in order, counted by
severity, as a verdict, and grouped by kind.  All of them agree, in every report
that a run can issue, and so do the sums over the reports of a batch.
-/

namespace PayloadFlow

open Text

/-!
# Counts and groups
-/

namespace Finding

theorem countOf_total (findings : List Finding) :
    countOf .critical findings + countOf .error findings + countOf .warning findings =
      findings.length := by
  induction findings with
  | nil =>
      rfl
  | cons f rest ih =>
      simp only [countOf, List.countP_cons, List.length_cons] at ih ⊢
      cases f.severity <;> simp <;> omega

theorem countOf_pos_iff (severity : Severity) (findings : List Finding) :
    0 < countOf severity findings <-> exists f, f ∈ findings ∧ f.severity = severity := by
  rw [countOf, List.countP_pos_iff]
  simp

theorem any_isBlocking_iff (findings : List Finding) :
    findings.any (·.isBlocking) = true <->
      0 < countOf .critical findings + countOf .error findings := by
  rw [Nat.add_pos_iff_pos_or_pos, countOf_pos_iff, countOf_pos_iff, List.any_eq_true]
  constructor
  · rintro ⟨f, hf, hblocks⟩
    cases hseverity : f.severity with
    | critical =>
        exact Or.inl ⟨f, hf, hseverity⟩
    | error =>
        exact Or.inr ⟨f, hf, hseverity⟩
    | warning =>
        rw [isBlocking, hseverity] at hblocks
        exact absurd hblocks Bool.false_ne_true
  · rintro (⟨f, hf, hseverity⟩ | ⟨f, hf, hseverity⟩)
    · exact ⟨f, hf, by rw [isBlocking, hseverity]; rfl⟩
    · exact ⟨f, hf, by rw [isBlocking, hseverity]; rfl⟩

end Finding

theorem FindingKind.mem_all (kind : FindingKind) : kind ∈ FindingKind.all := by
  cases kind <;> decide

theorem FindingKind.pairwise_all :
    FindingKind.all.Pairwise fun a b => a.rank < b.rank := by
  decide

namespace Recommendation

/-- A recommendation counts the findings of its kind and lists their events. -/
structure Summarises (r : Recommendation) (findings : List Finding) : Prop where
  count : r.count = (findings.filter fun f => f.kind = r.kind).length
  ordered : r.events.Pairwise fun a b => bytes a < bytes b
  events : forall event, event ∈ r.events <->
    event ≠ "" ∧ exists f, f ∈ findings ∧ f.kind = r.kind ∧ f.event = event

theorem mem_namesOf (names : List String) (n : String) :
    n ∈ namesOf names <-> n ≠ "" ∧ n ∈ names := by
  rw [namesOf, Listing.mem_sortedNames, List.mem_filter, and_comm]
  simp

theorem pairwise_namesOf (names : List String) :
    (namesOf names).Pairwise fun a b => bytes a < bytes b :=
  (Listing.pairwise_sortedNames _).imp fun h => strictMono_bytes h

theorem kind_of_forKind? {findings : List Finding} {kind : FindingKind} {r : Recommendation}
    (hr : forKind? findings kind = some r) : r.kind = kind := by
  unfold forKind? at hr
  dsimp only at hr
  split at hr
  · cases hr
  · cases hr
    rfl

theorem isSome_forKind?_iff (findings : List Finding) (kind : FindingKind) :
    (forKind? findings kind).isSome = true <-> exists f, f ∈ findings ∧ f.kind = kind := by
  unfold forKind?
  dsimp only
  split
  · rename_i hempty
    rw [List.isEmpty_iff, List.filter_eq_nil_iff] at hempty
    simpa using hempty
  · rename_i hempty
    rw [List.isEmpty_iff, List.filter_eq_nil_iff] at hempty
    simpa using hempty

theorem summarises_of_forKind? {findings : List Finding} {kind : FindingKind}
    {r : Recommendation} (hr : forKind? findings kind = some r) : r.Summarises findings := by
  unfold forKind? at hr
  dsimp only at hr
  split at hr
  · cases hr
  · cases hr
    constructor
    · rfl
    · exact pairwise_namesOf _
    · intro event
      rw [mem_namesOf, List.mem_map]
      simp only [List.mem_filter, beq_iff_eq, and_assoc]

theorem mem_ofFindings_iff (findings : List Finding) (r : Recommendation) :
    r ∈ ofFindings findings <-> forKind? findings r.kind = some r := by
  rw [ofFindings, List.mem_filterMap]
  constructor
  · rintro ⟨kind, _, hr⟩
    rw [kind_of_forKind? hr]
    exact hr
  · intro hr
    exact ⟨r.kind, FindingKind.mem_all r.kind, hr⟩

theorem exists_kind_ofFindings_iff (findings : List Finding) (kind : FindingKind) :
    (exists r, r ∈ ofFindings findings ∧ r.kind = kind) <->
      exists f, f ∈ findings ∧ f.kind = kind := by
  rw [← isSome_forKind?_iff, Option.isSome_iff_exists]
  constructor
  · rintro ⟨r, hr, rfl⟩
    exact ⟨r, (mem_ofFindings_iff findings r).mp hr⟩
  · rintro ⟨r, hr⟩
    have hkind := kind_of_forKind? hr
    refine ⟨r, (mem_ofFindings_iff findings r).mpr ?_, hkind⟩
    rw [hkind]
    exact hr

theorem pairwise_ofFindings (findings : List Finding) :
    (ofFindings findings).Pairwise fun a b => a.kind.rank < b.kind.rank := by
  refine List.Pairwise.filterMap (forKind? findings) ?_ FindingKind.pairwise_all
  intro kind kind' hlt r hr r' hr'
  rw [kind_of_forKind? hr, kind_of_forKind? hr']
  exact hlt

end Recommendation

/-!
# Reports
-/

/-- All parts of a report say the same of its findings. -/
structure Report.Consistent (r : Report) : Prop where
  sorted : r.findings.Pairwise fun a b => a.sortKey <= b.sortKey
  ids : (r.findings.map (·.id)).Nodup
  critical : r.statistics.critical = (r.findings.filter fun f => f.severity = .critical).length
  errors : r.statistics.errors = (r.findings.filter fun f => f.severity = .error).length
  warnings : r.statistics.warnings = (r.findings.filter fun f => f.severity = .warning).length
  total : r.statistics.critical + r.statistics.errors + r.statistics.warnings = r.findings.length
  blocking : r.hasBlocking = true <-> 0 < r.statistics.critical + r.statistics.errors
  kinds : forall kind, (exists a, a ∈ r.recommendations ∧ a.kind = kind) <->
    exists f, f ∈ r.findings ∧ f.kind = kind
  kindOrder : r.recommendations.Pairwise fun a b => a.kind.rank < b.kind.rank
  summaries : forall a, a ∈ r.recommendations -> a.Summarises r.findings

/-- A report that counts and groups its findings is consistent if these are in
order and have different ids. -/
theorem Report.consistent_of_findings {r : Report} (s : Statistics)
    (hstatistics : r.statistics = s.countSeverities r.findings)
    (hrecommendations : r.recommendations = Recommendation.ofFindings r.findings)
    (hsorted : r.findings.Pairwise fun a b => a.sortKey <= b.sortKey)
    (hids : (r.findings.map (·.id)).Nodup) : r.Consistent := by
  have hcritical : r.statistics.critical = Finding.countOf .critical r.findings := by
    rw [hstatistics]
    rfl
  have herrors : r.statistics.errors = Finding.countOf .error r.findings := by
    rw [hstatistics]
    rfl
  have hwarnings : r.statistics.warnings = Finding.countOf .warning r.findings := by
    rw [hstatistics]
    rfl
  have hcount : forall severity, Finding.countOf severity r.findings =
      (r.findings.filter fun f => f.severity = severity).length := by
    intro severity
    exact List.countP_eq_length_filter
  constructor
  · exact hsorted
  · exact hids
  · rw [hcritical, hcount]
  · rw [herrors, hcount]
  · rw [hwarnings, hcount]
  · rw [hcritical, herrors, hwarnings, Finding.countOf_total]
  · rw [hcritical, herrors]
    exact Finding.any_isBlocking_iff r.findings
  · rw [hrecommendations]
    exact Recommendation.exists_kind_ofFindings_iff r.findings
  · rw [hrecommendations]
    exact Recommendation.pairwise_ofFindings r.findings
  · intro a ha
    rw [hrecommendations, Recommendation.mem_ofFindings_iff] at ha
    exact Recommendation.summarises_of_forKind? ha

namespace Validation

open Workspace

theorem finalize_perm (found : List Finding) :
    (finalize found).Perm ((Listing.distinctBy (·.id) found).map reported) :=
  List.mergeSort_perm _ _

theorem nodup_ids_finalize (found : List Finding) : ((finalize found).map (·.id)).Nodup := by
  have hids := (finalize_perm found).map (·.id)
  rw [List.map_map] at hids
  exact hids.nodup_iff.mpr (Listing.nodup_map_distinctBy (·.id) found)

/-- The reports that a run can issue: on what was extracted, whatever that is, or
on a module that could not be scanned. -/
inductive Issued : Report -> Prop where
  | scanned (config : Config) (moduleName : String) (e : Extracted) :
      Issued (report config moduleName e)
  | unscanned (moduleName reason : String) :
      Issued (Report.ofDiscoveryFailure moduleName reason)

theorem issued_run (tree : Tree) (config : Config) (modulePath : RawText)
    (moduleName : String) (cache : Cache) :
    Issued (run tree config modulePath moduleName cache).report := by
  unfold run
  cases discover tree modulePath config with
  | error e =>
      exact .unscanned moduleName e.message
  | ok discovery =>
      exact .scanned config moduleName _

theorem issued_moduleReports {tree : Tree} {cache : Cache} {modules : List (String × RawText)}
    {entry : String × Report} (hentry : entry ∈ moduleReports tree cache modules) :
    Issued entry.2 := by
  induction modules generalizing cache with
  | nil =>
      cases hentry
  | cons m rest ih =>
      rcases List.mem_cons.mp hentry with rfl | hentry
      · exact issued_run tree _ m.2 m.1 cache
      · exact ih hentry

theorem consistent_of_issued {r : Report} (hr : Issued r) : r.Consistent := by
  cases hr with
  | scanned config moduleName e =>
      refine Report.consistent_of_findings _ rfl rfl ?_ ?_
      · exact Finding.pairwise_sort _
      · exact nodup_ids_finalize _
  | unscanned moduleName reason =>
      refine Report.consistent_of_findings _ rfl rfl ?_ ?_
      · exact List.pairwise_singleton _ _
      · exact List.nodup_singleton _

end Validation

/-!
# Batches
-/

namespace BatchReport

/-- The summary of a batch adds up its reports. -/
structure Consistent (b : BatchReport) : Prop where
  modules : b.summary.modules = b.reports.length
  critical : b.summary.critical = (b.reports.map (·.2.statistics.critical)).sum
  errors : b.summary.errors = (b.reports.map (·.2.statistics.errors)).sum
  warnings : b.summary.warnings = (b.reports.map (·.2.statistics.warnings)).sum
  findings : b.summary.findings = (b.reports.map (·.2.findings.length)).sum
  total : b.summary.findings = b.summary.critical + b.summary.errors + b.summary.warnings
  blocking : b.hasBlocking = true <-> 0 < b.summary.critical + b.summary.errors

theorem total_eq_sum (f : Report -> Nat) (reports : List (String × Report)) :
    total f reports = (reports.map fun entry => f entry.2).sum := by
  induction reports with
  | nil =>
      rfl
  | cons entry rest ih =>
      rw [total, ih, List.map_cons, List.sum_cons]

theorem total_severities {reports : List (String × Report)}
    (hreports : forall entry, entry ∈ reports -> entry.2.Consistent) :
    total (·.findings.length) reports = total (·.statistics.critical) reports +
      total (·.statistics.errors) reports + total (·.statistics.warnings) reports := by
  induction reports with
  | nil =>
      rfl
  | cons entry rest ih =>
      have hentry := (hreports entry List.mem_cons_self).total
      have hrest := ih fun other hother => hreports other (List.mem_cons_of_mem entry hother)
      simp only [total]
      omega

theorem any_hasBlocking_iff {reports : List (String × Report)}
    (hreports : forall entry, entry ∈ reports -> entry.2.Consistent) :
    (reports.any fun entry => entry.2.hasBlocking) = true <->
      0 < total (·.statistics.critical) reports + total (·.statistics.errors) reports := by
  induction reports with
  | nil =>
      simp [total]
  | cons entry rest ih =>
      have hentry := (hreports entry List.mem_cons_self).blocking
      have hrest := ih fun other hother => hreports other (List.mem_cons_of_mem entry hother)
      rw [List.any_cons, Bool.or_eq_true, hentry, hrest]
      simp only [total]
      omega

theorem consistent_ofReports {reports : List (String × Report)}
    (hreports : forall entry, entry ∈ reports -> entry.2.Consistent) :
    (ofReports reports).Consistent := by
  constructor
  · rfl
  · exact total_eq_sum _ reports
  · exact total_eq_sum _ reports
  · exact total_eq_sum _ reports
  · exact total_eq_sum _ reports
  · exact total_severities hreports
  · exact any_hasBlocking_iff hreports

end BatchReport

namespace Validation

open Workspace

/-- Every run issues a consistent report, whether its module could be scanned or
not and whatever was extracted, and every batch of such reports is summed up. -/
theorem issued_reports_consistent :
    (forall tree config modulePath moduleName cache,
      Issued (run tree config modulePath moduleName cache).report) ∧
    (forall r, Issued r -> r.Consistent) ∧
    (forall reports : List (String × Report),
      (forall entry, entry ∈ reports -> Issued entry.2) ->
        (BatchReport.ofReports reports).Consistent) ∧
    forall tree modules, (validateAll tree modules).Consistent := by
  refine ⟨issued_run, ?_, ?_, ?_⟩
  · intro r hr
    exact consistent_of_issued hr
  · intro reports hreports
    apply BatchReport.consistent_ofReports
    intro entry hentry
    exact consistent_of_issued (hreports entry hentry)
  · intro tree modules
    apply BatchReport.consistent_ofReports
    intro entry hentry
    exact consistent_of_issued (issued_moduleReports hentry)

def mixedBatch : List (String × Report) :=
  [("cart", report {} "cart" (Extracted.collect
      [⟨⟨"cart/flows/drop.js", "flows/drop.js", .producer⟩,
        .ok [.producer Comparison.dropSender], false⟩])),
    ("gone", Report.ofDiscoveryFailure "gone" "module path does not exist: gone")]

theorem mixedBatch_consistent :
    (forall entry, entry ∈ mixedBatch -> Issued entry.2) ∧
      (BatchReport.ofReports mixedBatch).Consistent ∧
      (BatchReport.ofReports mixedBatch).summary.critical = 1 ∧
      (BatchReport.ofReports mixedBatch).summary.findings = 2 := by
  have hissued : forall entry, entry ∈ mixedBatch -> Issued entry.2 := by
    intro entry hentry
    rcases List.mem_cons.mp hentry with rfl | hentry
    · exact .scanned {} "cart" _
    · rw [List.mem_singleton.mp hentry]
      exact .unscanned "gone" _
  refine ⟨hissued, issued_reports_consistent.2.2.1 mixedBatch hissued, ?_, ?_⟩
  · decide +kernel
  · decide +kernel

end Validation
end PayloadFlow
