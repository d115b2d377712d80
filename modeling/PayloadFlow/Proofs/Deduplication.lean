import PayloadFlow.Proofs.Emissions
import PayloadFlow.Proofs.FindingIdentity
import PayloadFlow.Proofs.Listing

/-!
# What is lost when ids are reported once

A report keeps the first finding with each id.  A later one with the same id is
left out whatever it says.  The id is made of the event, the property, the file
of the handler and the function of the producer, so two handlers of one event
in one file, or two producers with one name, can share it.  Nothing is lost
exactly if such findings agree in everything else.
-/

namespace PayloadFlow

structure Finding.Alike (f g : Finding) : Prop where
  id : f.id = g.id
  kind : f.kind = g.kind
  severity : f.severity = g.severity
  event : f.event = g.event
  propertyPath : f.propertyPath = g.propertyPath
  message : f.message = g.message
  suggestedFix : f.suggestedFix = g.suggestedFix
  filePath : f.filePath = g.filePath
  line : f.line = g.line

namespace Finding.Alike

theorem symm {f g : Finding} (h : f.Alike g) : g.Alike f :=
  ⟨h.id.symm, h.kind.symm, h.severity.symm, h.event.symm, h.propertyPath.symm, h.message.symm,
    h.suggestedFix.symm, h.filePath.symm, h.line.symm⟩

theorem trans {f g k : Finding} (h : f.Alike g) (h' : g.Alike k) : f.Alike k :=
  ⟨h.id.trans h'.id, h.kind.trans h'.kind, h.severity.trans h'.severity,
    h.event.trans h'.event, h.propertyPath.trans h'.propertyPath, h.message.trans h'.message,
    h.suggestedFix.trans h'.suggestedFix, h.filePath.trans h'.filePath, h.line.trans h'.line⟩

end Finding.Alike

namespace Validation

open Workspace

/-!
# Findings that share a key
-/

/-- Both pairs are about the same event, a handler in the same file and a
producer of the same name. -/
def SameTrail (f g : Comparison.Flow) : Prop :=
  f.consumer.event = g.consumer.event ∧ f.consumer.filePath = g.consumer.filePath ∧
    f.producer.functionName = g.producer.functionName

/-- The digest tells apart the texts of the keys that occur in a run. -/
def DigestApart (config : Config) (e : Extracted) : Prop :=
  forall x, x ∈ emissions config e -> forall y, y ∈ emissions config e ->
    Digest.Xxh64.hashText (String.ofList x.key.text) =
      Digest.Xxh64.hashText (String.ofList y.key.text) ->
    x.key.text = y.key.text

instance (config : Config) (e : Extracted) : Decidable (DigestApart config e) :=
  inferInstanceAs (Decidable (forall x, x ∈ emissions config e ->
    forall y, y ∈ emissions config e -> _ -> _))

def MissingAgree (tokens : List String) (f g : Comparison.Flow) : Prop :=
  forall r, r ∈ f.missingProperties -> forall q, q ∈ g.missingProperties -> r.name = q.name ->
    r.line = q.line ∧ (f.missing tokens r).message = (g.missing tokens q).message ∧
      f.missingFix r.name = g.missingFix q.name

/-- Two pairs say the same of a path that leads nowhere in both. -/
def MismatchesAgree (tokens : List String) (f g : Comparison.Flow) : Prop :=
  forall n, n ∈ f.mismatches -> forall m, m ∈ g.mismatches -> n.fullPath = m.fullPath ->
    n.isRequired = m.isRequired ∧ n.line = m.line ∧
      (f.mismatch tokens n).message = (g.mismatch tokens m).message ∧
      (f.mismatch tokens n).suggestedFix = (g.mismatch tokens m).suggestedFix

/-- Findings that share a key agree in what is not part of it. -/
structure Coherent (config : Config) (e : Extracted) : Prop where
  keys : forall x, x ∈ emissions config e -> forall y, y ∈ emissions config e ->
    x.key.text = y.key.text -> x.key = y.key
  missing : forall f, f ∈ e.flows -> forall g, g ∈ e.flows -> SameTrail f g ->
    MissingAgree config.scoring.genericTokens f g
  mismatches : forall f, f ∈ e.flows -> forall g, g ∈ e.flows -> SameTrail f g ->
    MismatchesAgree config.scoring.genericTokens f g
  handlers : config.reportOrphans = true ->
    forall c, c ∈ e.unsent -> forall d, d ∈ e.unsent ->
      c.event = d.event -> c.filePath = d.filePath -> c.handlerName = d.handlerName ->
      c.line = d.line
  producers : config.reportOrphans = true ->
    forall p, p ∈ e.unhandled -> forall q, q ∈ e.unhandled ->
      p.targetEvent = q.targetEvent -> p.filePath = q.filePath ->
      p.functionName = q.functionName -> p.line = q.line
  failures : forall g, g ∈ e.failures -> forall k, k ∈ e.failures ->
    g.filePath = k.filePath -> g.line = k.line ∧ g.message = k.message

instance (f g : Comparison.Flow) : Decidable (SameTrail f g) :=
  inferInstanceAs (Decidable (_ ∧ _ ∧ _))

instance (tokens : List String) (f g : Comparison.Flow) : Decidable (MissingAgree tokens f g) :=
  inferInstanceAs (Decidable (forall r, r ∈ f.missingProperties ->
    forall q, q ∈ g.missingProperties -> _ -> _))

instance (tokens : List String) (f g : Comparison.Flow) :
    Decidable (MismatchesAgree tokens f g) :=
  inferInstanceAs (Decidable (forall n, n ∈ f.mismatches -> forall m, m ∈ g.mismatches -> _ -> _))

section

variable {config : Config} {e : Extracted} {x y : Emission}

theorem kind_eq_of_key_eq (hkey : x.key = y.key) : x.finding.kind = y.finding.kind :=
  FindingKind.name_inj (congrArg FindingKey.kind hkey)

theorem alike_of_key_eq (hcoherent : Coherent config e) (hx : Emitted config e x)
    (hy : Emitted config e y) (hkey : x.key = y.key) : x.finding.Alike y.finding := by
  have hid : x.finding.id = y.finding.id := by
    rw [id_eq_of_emitted hx, id_eq_of_emitted hy, hkey]
  have hkind : x.finding.kind = y.finding.kind := kind_eq_of_key_eq hkey
  have hevent : x.finding.event = y.finding.event := congrArg FindingKey.event hkey
  have hpath : x.finding.propertyPath = y.finding.propertyPath :=
    congrArg FindingKey.propertyPath hkey
  have hfile : x.finding.filePath = y.finding.filePath := congrArg FindingKey.filePath hkey
  have hdetail : x.detail = y.detail := congrArg FindingKey.detail hkey
  -- findings from different places differ in their kinds
  cases hx with
  | missing hf hr =>
      cases hy with
      | missing hg hq =>
          rcases hcoherent.missing _ hf _ hg ⟨hevent, hfile, hdetail⟩ _ hr _ hq hpath with
            ⟨hline, hmessage, hfix⟩
          exact ⟨hid, hkind, rfl, hevent, hpath, hmessage, hfix, hfile, hline⟩
      | _ => exact FindingKind.noConfusion hkind
  | mismatch hf hn =>
      cases hy with
      | mismatch hg hm =>
          rcases hcoherent.mismatches _ hf _ hg ⟨hevent, hfile, hdetail⟩ _ hn _ hm hpath with
            ⟨hrequired, hline, hmessage, hfix⟩
          have hseverity := congrArg
            (fun required => if required then Severity.error else Severity.warning) hrequired
          exact ⟨hid, hkind, hseverity, hevent, hpath, hmessage, hfix, hfile, hline⟩
      | _ => exact FindingKind.noConfusion hkind
  | @unsent c hreported hc =>
      cases hy with
      | @unsent d _ hd =>
          have hdetail : c.handlerName = d.handlerName := hdetail
          have hevent : c.event = d.event := hevent
          have hline := hcoherent.handlers hreported c hc d hd hevent hfile hdetail
          refine ⟨hid, hkind, rfl, hevent, hpath, ?_, ?_, hfile, hline⟩
          · simp only [Finding.orphanHandler, FindingSite.finding, hevent, hdetail]
          · simp only [Finding.orphanHandler, FindingSite.finding, hevent]
      | _ => exact FindingKind.noConfusion hkind
  | @unhandled p hreported hp =>
      cases hy with
      | @unhandled q _ hq =>
          have hdetail : p.functionName = q.functionName := hdetail
          have hevent : p.targetEvent = q.targetEvent := hevent
          have hline := hcoherent.producers hreported p hp q hq hevent hfile hdetail
          refine ⟨hid, hkind, rfl, hevent, hpath, ?_, ?_, hfile, hline⟩
          · simp only [Finding.orphanProducer, FindingSite.finding, hevent, hdetail]
          · simp only [Finding.orphanProducer, FindingSite.finding, hevent]
      | _ => exact FindingKind.noConfusion hkind
  | @failure filePath reason line hfailure =>
      cases hy with
      | @failure filePath' reason' line' hfailure' =>
          have hfile : filePath = filePath' := hfile
          rcases hcoherent.failures _ hfailure _ hfailure' hfile with ⟨hline, hmessage⟩
          refine ⟨hid, hkind, rfl, rfl, rfl, hmessage, ?_, hfile, hline⟩
          simp only [Finding.extractionFailed, FindingSite.finding, hfile]
      | _ => exact FindingKind.noConfusion hkind

theorem key_eq_of_alike (halike : x.finding.Alike y.finding) (htext : x.key.text = y.key.text) :
    x.key = y.key :=
  FindingKey.eq_of_text_eq (congrArg FindingKind.name halike.kind) halike.event
    halike.propertyPath halike.filePath htext

theorem coherent_of_alike {extractions : List FileExtraction}
    (halike : forall x, x ∈ emissions config (Extracted.collect extractions) ->
      forall y, y ∈ emissions config (Extracted.collect extractions) ->
      x.finding.id = y.finding.id -> x.finding.Alike y.finding) :
    Coherent config (Extracted.collect extractions) := by
  have hkeys : forall x, Emitted config (Extracted.collect extractions) x ->
      forall y, Emitted config (Extracted.collect extractions) y ->
      x.key = y.key -> x.finding.Alike y.finding := by
    intro x hx y hy hkey
    refine halike x ((mem_emissions_iff _ _ x).mpr hx) y ((mem_emissions_iff _ _ y).mpr hy) ?_
    rw [id_eq_of_emitted hx, id_eq_of_emitted hy, hkey]
  constructor
  · intro x hx y hy htext
    refine key_eq_of_alike (halike x hx y hy ?_) htext
    rw [id_eq_of_emitted ((mem_emissions_iff _ _ x).mp hx),
      id_eq_of_emitted ((mem_emissions_iff _ _ y).mp hy), FindingKey.id, htext, FindingKey.id]
  · rintro f hf g hg ⟨hevent, hfile, hfunction⟩ r hr q hq hname
    have h := hkeys _ (.missing hf hr) _ (.missing hg hq)
      (by simp [Emission.key, Comparison.Flow.missing, FindingSite.finding, *])
    exact ⟨h.line, h.message, h.suggestedFix⟩
  · rintro f hf g hg ⟨hevent, hfile, hfunction⟩ n hn m hm hpath
    have h := hkeys _ (.mismatch hf hn) _ (.mismatch hg hm)
      (by simp [Emission.key, Comparison.Flow.mismatch, FindingSite.finding, *])
    refine ⟨?_, h.line, h.message, h.suggestedFix⟩
    have hseverity : (if n.isRequired then Severity.error else Severity.warning) =
        if m.isRequired then Severity.error else Severity.warning := h.severity
    revert hseverity
    cases n.isRequired <;> cases m.isRequired <;> decide
  · intro hreported c hc d hd hevent hfile hname
    exact (hkeys _ (.unsent hreported hc) _ (.unsent hreported hd)
      (by simp [Emission.key, Finding.orphanHandler, FindingSite.finding, *])).line
  · intro hreported p hp q hq hevent hfile hname
    exact (hkeys _ (.unhandled hreported hp) _ (.unhandled hreported hq)
      (by simp [Emission.key, Finding.orphanProducer, FindingSite.finding, *])).line
  · intro g hg k hk hfile
    rcases isFailure_of_mem_failures extractions hg with ⟨file, line, reason, rfl⟩
    rcases isFailure_of_mem_failures extractions hk with ⟨file', line', reason', rfl⟩
    have hfile : file = file' := hfile
    have h := hkeys _ (.failure hg) _ (.failure hk)
      (by simp [Emission.key, Finding.extractionFailed, FindingSite.finding, hfile])
    exact ⟨h.line, h.message⟩

end

/-!
# The findings of a report
-/

theorem mem_finalize_iff (found : List Finding) (y : Finding) :
    y ∈ finalize found <->
      exists z, z ∈ Listing.distinctBy (·.id) found ∧
        reported z = y := by
  rw [finalize, Finding.sort, List.mem_mergeSort, List.mem_map]

theorem exists_alike_finalize_iff (found : List Finding) (x : Finding) :
    (exists y, y ∈ finalize found ∧ x.Alike y) <->
      exists z, z ∈ Listing.distinctBy (·.id) found ∧ x.Alike z := by
  constructor
  · rintro ⟨y, hy, h⟩
    rcases (mem_finalize_iff found y).mp hy with ⟨z, hz, rfl⟩
    exact ⟨z, hz, ⟨h.id, h.kind, h.severity, h.event, h.propertyPath, h.message,
      h.suggestedFix, h.filePath, h.line⟩⟩
  · rintro ⟨z, hz, h⟩
    exact ⟨_, (mem_finalize_iff found _).mpr ⟨z, hz, rfl⟩, ⟨h.id, h.kind, h.severity, h.event,
      h.propertyPath, h.message, h.suggestedFix, h.filePath, h.line⟩⟩

/-- A severity is reported exactly if the first finding with some id has it. -/
theorem exists_severity_finalize_iff (found : List Finding) (holds : Severity -> Prop) :
    (exists y, y ∈ finalize found ∧ holds y.severity) <->
      exists before z after, found = before ++ z :: after ∧ holds z.severity ∧
        forall a, a ∈ before -> a.id ≠ z.id := by
  constructor
  · rintro ⟨y, hy, hholds⟩
    rcases (mem_finalize_iff found y).mp hy with ⟨z, hz, rfl⟩
    rcases (Listing.mem_distinctBy_iff _ found z).mp hz with ⟨before, after, hfound, hbefore⟩
    exact ⟨before, z, after, hfound, hholds, hbefore⟩
  · rintro ⟨before, z, after, hfound, hholds, hbefore⟩
    have hz := (Listing.mem_distinctBy_iff (·.id) found z).mpr ⟨before, after, hfound, hbefore⟩
    exact ⟨_, (mem_finalize_iff found _).mpr ⟨z, hz, rfl⟩, hholds⟩

theorem exists_severity_of_finalize {found : List Finding} (holds : Severity -> Prop)
    (h : exists y, y ∈ finalize found ∧ holds y.severity) :
    exists x, x ∈ found ∧ holds x.severity := by
  rcases (exists_severity_finalize_iff found holds).mp h with ⟨before, z, after, rfl, hz, _⟩
  exact ⟨z, List.mem_append_right before List.mem_cons_self, hz⟩

theorem exists_kept {config : Config} {extractions : List FileExtraction} {x : Emission}
    (hapart : DigestApart config (Extracted.collect extractions))
    (hx : x ∈ emissions config (Extracted.collect extractions)) :
    exists z, z ∈ emissions config (Extracted.collect extractions) ∧
      z.finding ∈ Listing.distinctBy (·.id) (findings config (Extracted.collect extractions)) ∧
      x.key.text = z.key.text := by
  have hfound : x.finding ∈ findings config (Extracted.collect extractions) := by
    rw [findings_eq]
    exact List.mem_map_of_mem hx
  rcases Listing.exists_mem_distinctBy (·.id) hfound with ⟨g, hg, hid⟩
  have hgfound := Listing.mem_of_mem_distinctBy hg
  rw [findings_eq, List.mem_map] at hgfound
  rcases hgfound with ⟨z, hz, rfl⟩
  refine ⟨z, hz, hg, hapart x hx z hz (FindingKey.digest_eq_of_id_eq ?_)⟩
  rw [← id_eq_of_emitted ((mem_emissions_iff _ _ x).mp hx),
    ← id_eq_of_emitted ((mem_emissions_iff _ _ z).mp hz)]
  exact hid.symm

theorem lossless_iff_coherent {config : Config} {extractions : List FileExtraction}
    (hapart : DigestApart config (Extracted.collect extractions)) :
    (forall x, x ∈ findings config (Extracted.collect extractions) ->
      exists y, y ∈ finalize (findings config (Extracted.collect extractions)) ∧ x.Alike y) <->
      Coherent config (Extracted.collect extractions) := by
  constructor
  · intro hlossless
    apply coherent_of_alike
    intro x hx y hy hid
    have hkept : forall u, u ∈ emissions config (Extracted.collect extractions) ->
        exists z, z ∈ Listing.distinctBy (·.id)
          (findings config (Extracted.collect extractions)) ∧ u.finding.Alike z := by
      intro u hu
      apply (exists_alike_finalize_iff _ u.finding).mp
      apply hlossless
      rw [findings_eq]
      exact List.mem_map_of_mem hu
    rcases hkept x hx with ⟨u, hu, hxu⟩
    rcases hkept y hy with ⟨v, hv, hyv⟩
    have huv : u = v := Listing.eq_of_mem_distinctBy hu hv (hxu.id.symm.trans (hid.trans hyv.id))
    rw [← huv] at hyv
    exact hxu.trans hyv.symm
  · intro hcoherent g hg
    rw [findings_eq, List.mem_map] at hg
    rcases hg with ⟨x, hx, rfl⟩
    rcases exists_kept hapart hx with ⟨z, hz, hkept, htext⟩
    apply (exists_alike_finalize_iff _ x.finding).mpr
    exact ⟨z.finding, hkept, alike_of_key_eq hcoherent ((mem_emissions_iff _ _ x).mp hx)
      ((mem_emissions_iff _ _ z).mp hz) (hcoherent.keys x hx z hz htext)⟩

/-- Whatever is lost, a finding about a missing property has a kept one of its
severity. -/
theorem exists_critical_finalize {config : Config} {extractions : List FileExtraction}
    (hapart : DigestApart config (Extracted.collect extractions))
    (h : exists x, x ∈ findings config (Extracted.collect extractions) ∧ x.severity = .critical) :
    exists y, y ∈ finalize (findings config (Extracted.collect extractions)) ∧
      y.severity = .critical := by
  rcases h with ⟨g, hg, hcritical⟩
  rw [findings_eq, List.mem_map] at hg
  rcases hg with ⟨x, hx, rfl⟩
  rcases exists_kept hapart hx with ⟨z, hz, hkept, htext⟩
  have hkind : x.finding.kind = z.finding.kind := FindingKey.kind_eq_of_text_eq rfl rfl htext
  refine ⟨_, (mem_finalize_iff _ _).mpr ⟨z.finding, hkept, rfl⟩, ?_⟩
  apply (severity_critical_iff ((mem_emissions_iff _ _ z).mp hz)).mpr
  rw [← hkind]
  exact (severity_critical_iff ((mem_emissions_iff _ _ x).mp hx)).mp hcritical

/-- If the digest tells the keys of a run apart, reporting each id once loses no
finding exactly if the findings that share a key agree in everything else.  The
report then blocks exactly if a finding does.  In any run it blocks exactly if
the first finding with some id does, and a critical finding never gets lost. -/
theorem report_lossless_iff (config : Config) (moduleName : String)
    (extractions : List FileExtraction)
    (hapart : DigestApart config (Extracted.collect extractions)) :
    ((forall x, x ∈ findings config (Extracted.collect extractions) ->
        exists y, y ∈ (report config moduleName (Extracted.collect extractions)).findings ∧
          x.Alike y) <->
      Coherent config (Extracted.collect extractions)) ∧
    (Coherent config (Extracted.collect extractions) ->
      ((report config moduleName (Extracted.collect extractions)).hasBlocking = true <->
        exists x, x ∈ findings config (Extracted.collect extractions) ∧ x.isBlocking = true)) ∧
    ((report config moduleName (Extracted.collect extractions)).hasBlocking = true <->
      exists before z after,
        findings config (Extracted.collect extractions) = before ++ z :: after ∧
          z.isBlocking = true ∧ forall a, a ∈ before -> a.id ≠ z.id) ∧
    ((exists y, y ∈ (report config moduleName (Extracted.collect extractions)).findings ∧
        y.severity = .critical) <->
      exists x, x ∈ findings config (Extracted.collect extractions) ∧
        x.severity = .critical) := by
  have hblocking : (report config moduleName (Extracted.collect extractions)).hasBlocking = true <->
      exists y, y ∈ finalize (findings config (Extracted.collect extractions)) ∧
        y.severity.isBlocking = true := List.any_eq_true
  refine ⟨lossless_iff_coherent hapart, ?_, ?_, ?_⟩
  · intro hcoherent
    rw [hblocking]
    constructor
    · exact exists_severity_of_finalize fun severity => severity.isBlocking = true
    · rintro ⟨x, hx, hblocks⟩
      rcases (lossless_iff_coherent hapart).mpr hcoherent x hx with ⟨y, hy, halike⟩
      refine ⟨y, hy, ?_⟩
      rw [← halike.severity]
      exact hblocks
  · rw [hblocking]
    exact exists_severity_finalize_iff _ fun severity => severity.isBlocking = true
  · constructor
    · exact exists_severity_of_finalize (· = .critical)
    · exact exists_critical_finalize hapart

/-- Reads a path only as far as it leads. -/
def carefulHandler : ConsumerContract :=
  ⟨"handleDrop", "drop", "handleDrop", [], [⟨"a", false, 1⟩], [⟨"a", "b", false, 1⟩],
    "handlers/drop.js", 1⟩

/-- Reads the same path whatever it meets. -/
def carelessHandler : ConsumerContract :=
  ⟨"onDrop", "drop", "onDrop", [⟨"a", true, some "a.b", 2⟩], [], [⟨"a", "b", true, 2⟩],
    "handlers/drop.js", 2⟩

def extractionsOf (producers : List ProducerContract) (handlers : List ConsumerContract) :
    List FileExtraction :=
  [⟨⟨"flows/drop.js", "flows/drop.js", .producer⟩, .ok (producers.map .producer), false⟩,
    ⟨⟨"handlers/drop.js", "handlers/drop.js", .consumer⟩, .ok (handlers.map .consumer), false⟩]

def twinSenders : List FileExtraction :=
  extractionsOf [Comparison.dropSender, { Comparison.dropSender with line := 8 }]
    [carelessHandler]

theorem twinSenders_lossless :
    DigestApart {} (Extracted.collect twinSenders) ∧
      (findings {} (Extracted.collect twinSenders)).length = 2 ∧
      (report {} "mod" (Extracted.collect twinSenders)).findings.length = 1 ∧
      forall x, x ∈ findings {} (Extracted.collect twinSenders) ->
        exists y, y ∈ (report {} "mod" (Extracted.collect twinSenders)).findings ∧
          x.Alike y := by
  have hapart : DigestApart {} (Extracted.collect twinSenders) := by decide +kernel
  refine ⟨hapart, by decide +kernel, by decide +kernel, ?_⟩
  apply (report_lossless_iff {} "mod" twinSenders hapart).1.mpr
  constructor <;> decide +kernel

def twinHandlers : List FileExtraction :=
  extractionsOf [Comparison.dropSender] [carefulHandler, carelessHandler]

/-- The careful handler is found first, and its warning hides the error. -/
theorem twinHandlers_error_lost :
    DigestApart {} (Extracted.collect twinHandlers) ∧
      (findings {} (Extracted.collect twinHandlers)).map (fun x => (x.severity, x.line)) =
        [(.warning, 1), (.error, 2)] ∧
      (report {} "mod" (Extracted.collect twinHandlers)).findings.map
        (fun x => (x.severity, x.line)) = [(.warning, 1)] ∧
      (report {} "mod" (Extracted.collect twinHandlers)).hasBlocking = false := by
  decide +kernel

end Validation
end PayloadFlow
