import PayloadFlow.Proofs.Emissions
import PayloadFlow.Proofs.Listing
import PayloadFlow.Proofs.ReportConsistency

/-!
# A file that gives no contracts

A file that cannot be read or parsed adds one warning to the report and changes
nothing else.  The two runs, with the file and without it, are followed side by
side: the contracts they collect are the same, so that all findings about flows
and orphans are the same, and the warning takes a place of its own among the
sorted findings.
-/

namespace PayloadFlow

namespace Validation

open Workspace

/-!
# Collecting the contracts
-/

/-- The warning about a file that failed. -/
def failureOf (x : FileExtraction) (error : ExtractionError) : Finding :=
  .extractionFailed x.file.displayPath error.line error.message

namespace Extracted

/-- The same contracts with one more file, which failed with the finding `w` after
the failures `before`. -/
def withFailure (e : Extracted) (before after : List Finding) (w : Finding) : Extracted :=
  { e with
    filesScanned := e.filesScanned + 1
    filesFailed := e.filesFailed + 1
    failures := before ++ w :: after }

theorem foldl_add_withFailure (contracts : List Contract) (e : Extracted)
    (before after : List Finding) (w : Finding) :
    contracts.foldl add (e.withFailure before after w) =
      (contracts.foldl add e).withFailure before after w := by
  induction contracts generalizing e with
  | nil =>
      rfl
  | cons contract rest ih =>
      have hadd : (e.withFailure before after w).add contract =
          (e.add contract).withFailure before after w := by
        cases contract with
        | producer p => rfl
        | broker t => rfl
        | consumer c => rfl
      rw [List.foldl_cons, List.foldl_cons, hadd, ih]

theorem addFile_withFailure {e : Extracted} {before after : List Finding}
    (hfailures : e.failures = before ++ after) (w : Finding) (x : FileExtraction) :
    exists after', (e.addFile x).failures = before ++ after' ∧
      (e.withFailure before after w).addFile x =
        (e.addFile x).withFailure before after' w := by
  unfold addFile
  cases x.result with
  | ok contracts =>
      refine ⟨after, ?_, ?_⟩
      · dsimp only
        rw [failures_foldl_add]
        exact hfailures
      · exact foldl_add_withFailure contracts
          { e with
            filesScanned := e.filesScanned + 1
            cacheHits := if x.cacheHit then e.cacheHits + 1 else e.cacheHits }
          before after w
  | error error =>
      refine ⟨after ++ [.extractionFailed x.file.displayPath error.line error.message], ?_, ?_⟩
      · dsimp only
        rw [hfailures, List.append_assoc]
      · simp only [withFailure, List.append_assoc, List.cons_append]

theorem foldl_addFile_withFailure (extractions : List FileExtraction) {e : Extracted}
    {before after : List Finding} (hfailures : e.failures = before ++ after) (w : Finding) :
    exists after', (extractions.foldl addFile e).failures = before ++ after' ∧
      extractions.foldl addFile (e.withFailure before after w) =
        (extractions.foldl addFile e).withFailure before after' w := by
  induction extractions generalizing e after with
  | nil =>
      exact ⟨after, hfailures, rfl⟩
  | cons x rest ih =>
      rcases addFile_withFailure hfailures w x with ⟨middle, hmiddle, hstep⟩
      rw [List.foldl_cons, List.foldl_cons, hstep]
      exact ih hmiddle

theorem collect_failed {x : FileExtraction} {error : ExtractionError}
    (hfailed : x.result = .error error) (hmiss : x.cacheHit = false)
    (before after : List FileExtraction) :
    exists earlier later, (collect (before ++ after)).failures = earlier ++ later ∧
      collect (before ++ x :: after) = (collect (before ++ after)).withFailure earlier later
        (failureOf x error) := by
  have hx : (collect before).addFile x = (collect before).withFailure (collect before).failures []
      (failureOf x error) := by
    unfold addFile
    rw [hfailed, hmiss]
    rfl
  have hrest := foldl_addFile_withFailure after (List.append_nil (collect before).failures).symm
    (failureOf x error)
  rw [← hx] at hrest
  rcases hrest with ⟨later, hlater, hlong⟩
  refine ⟨(collect before).failures, later, ?_, ?_⟩
  · rw [collect, List.foldl_append]
    exact hlater
  · rw [collect, List.foldl_append, List.foldl_cons, collect, List.foldl_append]
    exact hlong

end Extracted

/-!
# The findings of the two runs
-/

theorem findings_withFailure (config : Config) {e : Extracted} {before after : List Finding}
    (hfailures : e.failures = before ++ after) (w : Finding) :
    exists others, findings config e = (others ++ before) ++ after ∧
      findings config (e.withFailure before after w) = (others ++ before) ++ w :: after := by
  refine ⟨e.flows.flatMap (flowFindings config.scoring.genericTokens) ++
    (if config.reportOrphans then findOrphans e.producers e.consumers else []), ?_, ?_⟩
  · rw [findings, hfailures, List.append_assoc _ before after]
  · rw [List.append_assoc _ before]
    rfl

theorem isFailure_of_kind {config : Config} {extractions : List FileExtraction} {y : Finding}
    (hy : y ∈ findings config (Extracted.collect extractions))
    (hkind : y.kind = .extractionFailed) : IsFailure y := by
  rw [findings_eq, List.mem_map] at hy
  rcases hy with ⟨emission, hemission, rfl⟩
  cases (mem_emissions_iff config extractions emission).mp hemission with
  | failure hfailure => exact ⟨_, _, _, rfl⟩
  | _ => exact FindingKind.noConfusion hkind

/-- Failures are told apart by their files alone, so that a finding with the key of
a failure has its id too. -/
theorem id_eq_of_sortKey_eq {config : Config} {extractions : List FileExtraction} {y : Finding}
    (hy : y ∈ findings config (Extracted.collect extractions)) {filePath reason : String}
    {line : Nat} (hkey : y.sortKey = (Finding.extractionFailed filePath line reason).sortKey) :
    y.id = (Finding.extractionFailed filePath line reason).id := by
  have hfile : y.filePath = filePath :=
    Text.strictMono_bytes.injective (congrArg (fun key => (ofLex key).1) hkey)
  have hrank : y.kind.rank = FindingKind.extractionFailed.rank :=
    congrArg (fun key => (ofLex (ofLex (ofLex key).2).2).1) hkey
  rcases isFailure_of_kind hy (FindingKind.rank_inj hrank) with ⟨file, line', reason', rfl⟩
  have hfile : file = filePath := hfile
  rw [hfile]
  rfl

/-!
# The two reports
-/

/-- The longer report has one more warning, in its place, and is the same in all
else that does not count or advise on failed files. -/
structure AddsFailure (short long : Report) (w : Finding) : Prop where
  isWarning : w.kind = .extractionFailed ∧ w.severity = .warning
  place : exists lower upper, short.findings = lower ++ upper ∧
    long.findings = lower ++ w :: upper ∧
    (forall y, y ∈ lower -> y.sortKey < w.sortKey) ∧ forall y, y ∈ upper -> w.sortKey < y.sortKey
  moduleName : long.moduleName = short.moduleName
  confidenceLevel : long.confidenceLevel = short.confidenceLevel
  statistics : long.statistics =
    { short.statistics with
      filesScanned := short.statistics.filesScanned + 1
      filesFailed := short.statistics.filesFailed + 1
      warnings := short.statistics.warnings + 1 }
  otherAdvice : (long.recommendations.filter fun r => r.kind ≠ .extractionFailed) =
    short.recommendations.filter fun r => r.kind ≠ .extractionFailed
  advice : exists r, (long.recommendations.filter fun r => r.kind = .extractionFailed) = [r] ∧
    r.count = (short.findings.filter fun f => f.kind = .extractionFailed).length + 1

end Validation

/-!
# Counts and advice with one more finding
-/

theorem Finding.countOf_append_cons (severity : Severity) (w : Finding)
    (lower upper : List Finding) :
    countOf severity (lower ++ w :: upper) =
      countOf severity (lower ++ upper) + if w.severity = severity then 1 else 0 := by
  rw [countOf, countOf, List.countP_append, List.countP_append, List.countP_cons, Nat.add_assoc]
  simp only [beq_iff_eq]

namespace Recommendation

theorem filter_ofFindings (findings : List Finding) (p : FindingKind -> Bool) :
    (ofFindings findings).filter (fun r => p r.kind) =
      (FindingKind.all.filter p).filterMap (forKind? findings) := by
  rw [ofFindings, List.filter_filterMap, List.filterMap_filter]
  apply List.filterMap_congr
  intro kind _
  cases hr : forKind? findings kind with
  | none =>
      simp
  | some r =>
      rw [Option.filter_some, kind_of_forKind? hr]

theorem filter_kind_append_cons {w : Finding} {kind : FindingKind} (hkind : w.kind ≠ kind)
    (lower upper : List Finding) :
    (lower ++ w :: upper).filter (fun f => f.kind == kind) =
      (lower ++ upper).filter fun f => f.kind == kind := by
  have hw : ¬ (w.kind == kind) = true := by
    rw [beq_iff_eq]
    exact hkind
  rw [List.filter_append, List.filter_append,
    List.filter_cons_of_neg (p := fun f : Finding => f.kind == kind) hw]

theorem others_append_cons (w : Finding) (lower upper : List Finding) :
    (ofFindings (lower ++ w :: upper)).filter (fun r => r.kind ≠ w.kind) =
      (ofFindings (lower ++ upper)).filter fun r => r.kind ≠ w.kind := by
  rw [filter_ofFindings _ fun kind => kind ≠ w.kind, filter_ofFindings _ fun kind => kind ≠ w.kind]
  apply List.filterMap_congr
  intro kind hkind
  have hne : w.kind ≠ kind := Ne.symm (of_decide_eq_true (List.mem_filter.mp hkind).2)
  rw [forKind?, forKind?, filter_kind_append_cons hne]

theorem own_append_cons (w : Finding) (lower upper : List Finding) :
    exists r, (ofFindings (lower ++ w :: upper)).filter (fun r => r.kind = w.kind) = [r] ∧
      r.count = ((lower ++ upper).filter fun f => f.kind = w.kind).length + 1 := by
  have hpresent : exists f, f ∈ lower ++ w :: upper ∧ f.kind = w.kind :=
    ⟨w, List.mem_append_right lower List.mem_cons_self, rfl⟩
  rw [← isSome_forKind?_iff, Option.isSome_iff_exists] at hpresent
  rcases hpresent with ⟨r, hr⟩
  refine ⟨r, ?_, ?_⟩
  · have hall : (FindingKind.all.filter fun kind => kind = w.kind) = [w.kind] := by
      cases w.kind <;> rfl
    rw [filter_ofFindings _ fun kind => kind = w.kind, hall, List.filterMap_cons_some hr,
      List.filterMap_nil]
  · rw [(summarises_of_forKind? hr).count, kind_of_forKind? hr]
    simp only [List.filter_append, List.filter_cons, decide_true, if_true, List.length_append,
      List.length_cons, Nat.add_assoc]

end Recommendation

namespace Validation

open Workspace

/-- A finding with a new id and a new key takes its place among those reported. -/
theorem finalize_append_cons {w : Finding} {xs ys : List Finding}
    (hid : forall y, y ∈ xs ++ ys -> y.id ≠ w.id)
    (hkey : forall y, y ∈ xs ++ ys -> y.sortKey ≠ w.sortKey) :
    exists lower upper, finalize (xs ++ ys) = lower ++ upper ∧
      finalize (xs ++ w :: ys) = lower ++ reported w :: upper ∧
      (forall y, y ∈ lower -> y.sortKey < (reported w).sortKey) ∧
      forall y, y ∈ upper -> (reported w).sortKey < y.sortKey := by
  rcases Listing.distinctBy_append_cons Finding.id hid with ⟨before, after, hshort, hlong⟩
  have hfresh : forall y, y ∈ before.map reported ++ after.map reported ->
      y.sortKey ≠ (reported w).sortKey := by
    intro y hy
    rw [← List.map_append, ← hshort, List.mem_map] at hy
    rcases hy with ⟨z, hz, rfl⟩
    exact hkey z (Listing.mem_of_mem_distinctBy hz)
  rcases Finding.exists_sort_append_cons hfresh with
    ⟨lower, upper, hsortShort, hsortLong, hlower, hupper⟩
  refine ⟨lower, upper, ?_, ?_, hlower, hupper⟩
  · rw [finalize, hshort, List.map_append]
    exact hsortShort
  · rw [finalize, hlong, List.map_append, List.map_cons]
    exact hsortLong

/-- A failed file, wherever it stands among the files, adds its warning to the
report and changes nothing else, if no other finding has its id. -/
theorem report_failed_file (config : Config) (moduleName : String)
    (before after : List FileExtraction) (x : FileExtraction) (error : ExtractionError)
    (hfailed : x.result = .error error) (hmiss : x.cacheHit = false)
    (hid : forall y, y ∈ findings config (Extracted.collect (before ++ after)) ->
      y.id ≠ (failureOf x error).id) :
    AddsFailure (report config moduleName (Extracted.collect (before ++ after)))
      (report config moduleName (Extracted.collect (before ++ x :: after)))
      (reported (failureOf x error)) := by
  rcases Extracted.collect_failed hfailed hmiss before after with
    ⟨earlier, later, hfailures, hcollect⟩
  rcases findings_withFailure config hfailures (failureOf x error) with ⟨others, hshort, hlong⟩
  have hkey : forall y, y ∈ findings config (Extracted.collect (before ++ after)) ->
      y.sortKey ≠ (failureOf x error).sortKey := by
    intro y hy heq
    exact hid y hy (id_eq_of_sortKey_eq hy heq)
  rw [hshort] at hid hkey
  rcases finalize_append_cons hid hkey with ⟨lower, upper, hsortShort, hsortLong, hlower, hupper⟩
  rw [← hshort] at hsortShort
  rw [← hlong] at hsortLong
  rw [hcollect]
  constructor
  · exact ⟨rfl, rfl⟩
  · exact ⟨lower, upper, hsortShort, hsortLong, hlower, hupper⟩
  · rfl
  · rfl
  · simp only [report, Statistics.countSeverities, hsortShort, hsortLong,
      Finding.countOf_append_cons]
    rfl
  · simp only [report, hsortShort, hsortLong]
    exact Recommendation.others_append_cons (reported (failureOf x error)) lower upper
  · simp only [report, hsortShort, hsortLong]
    exact Recommendation.own_append_cons (reported (failureOf x error)) lower upper

def brokenFile (displayPath : String) (line : Nat) : FileExtraction :=
  ⟨⟨"cart/" ++ displayPath, displayPath, .consumer⟩, .error (.malformed displayPath line), false⟩

def dropFiles : List FileExtraction :=
  [⟨⟨"cart/flows/drop.js", "flows/drop.js", .producer⟩,
      .ok [.producer Comparison.dropSender], false⟩,
    brokenFile "handlers/zoom.js" 3]

theorem brokenFile_added :
    (forall y, y ∈ findings {} (Extracted.collect (dropFiles ++ dropFiles)) ->
      y.id ≠ (failureOf (brokenFile "handlers/pan.js" 7) (.malformed "handlers/pan.js" 7)).id) ∧
    AddsFailure (report {} "cart" (Extracted.collect (dropFiles ++ dropFiles)))
      (report {} "cart"
        (Extracted.collect (dropFiles ++ brokenFile "handlers/pan.js" 7 :: dropFiles)))
      (reported (failureOf (brokenFile "handlers/pan.js" 7) (.malformed "handlers/pan.js" 7))) := by
  have hid : forall y, y ∈ findings {} (Extracted.collect (dropFiles ++ dropFiles)) ->
      y.id ≠ (failureOf (brokenFile "handlers/pan.js" 7) (.malformed "handlers/pan.js" 7)).id := by
    decide +kernel
  exact ⟨hid, report_failed_file {} "cart" dropFiles dropFiles _ _ rfl rfl hid⟩

end Validation
end PayloadFlow
