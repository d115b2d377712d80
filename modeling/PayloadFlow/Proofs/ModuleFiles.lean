import PayloadFlow.Proofs.RawText
import PayloadFlow.Workspace.Discovery

/-!
# The files of a module

A scan gives the broker, the producers and the consumers of a module.  Apart from
the broker, a file is shown under the path that leads to it from the module, so
path and role tell the files of one module apart.
-/

namespace PayloadFlow
namespace Workspace

theorem join_inj {base a b : RawText} (h : Path.join base a = Path.join base b) : a = b := by
  unfold Path.join at h
  have hbytes := congrArg RawText.bytes h
  split at hbytes
  · exact RawText.ext (by simpa using hbytes)
  · exact RawText.ext (by simpa using hbytes)

/-- The files of the module at a path; one that cannot be scanned has none. -/
def filesOf (tree : Tree) (config : Config) (path : RawText) : List SourceFile :=
  match discover tree path config with
  | .ok discovery => discovery.files
  | .error _ => []

def placesBelow (root : Tree) (path : RawText) : List (List RawText) :=
  match root.resolve path with
  | .ok (place, directory) =>
      ((filesIn (levelsAbove root place) place directory).map fun p => p.drop place.length).filter
        fun p => Script.isSource (Path.ofNames p)
  | .error _ => []

theorem sourcesBelow_of_pairwise {root : Tree} {path : RawText} {places : List (List RawText)}
    (hplaces : placesBelow root path = places)
    (hsorted : places.Pairwise fun a b => placeLe a b = true) :
    sourcesBelow root path = places := by
  subst hplaces
  rw [← List.mergeSort_of_pairwise hsorted]
  unfold sourcesBelow placesBelow
  cases root.resolve path with
  | ok found =>
      rfl
  | error e =>
      exact List.mergeSort_nil.symm

theorem mem_sourcesInRole {matcher : RoleMatcher} {root : RawText} {places : List (List RawText)}
    {role : Role} {f : SourceFile} (hf : f ∈ sourcesInRole matcher root places role) :
    (exists below, f.path = Path.join root below ∧ f.displayPath = below.text) ∧
      f.role = role := by
  simp only [sourcesInRole, List.mem_map] at hf
  rcases hf with ⟨place, _, rfl⟩
  exact ⟨⟨Path.ofNames place, rfl, (Path.text_ofNames place).symm⟩, rfl⟩

theorem role_of_projectBroker? {tree : Tree} {matcher : RoleMatcher} {root : RawText}
    {f : SourceFile} (hf : projectBroker? tree matcher root = some f) : f.role = .broker := by
  unfold projectBroker? at hf
  by_cases hdirectory : tree.isDirectory root = true
  · rw [if_pos hdirectory] at hf
    exact (mem_sourcesInRole (List.mem_of_head? hf)).2
  · rw [if_neg hdirectory] at hf
    cases hf

theorem role_of_brokerOf? {tree : Tree} {config : Config} {matcher : RoleMatcher} {root : RawText}
    {candidates : List SourceFile} {f : SourceFile}
    (hcandidates : forall g, g ∈ candidates -> g.role = .broker)
    (hf : brokerOf? tree config matcher root candidates = some f) : f.role = .broker := by
  simp only [brokerOf?, Option.or_eq_some_iff, Option.bind_eq_some_iff] at hf
  rcases hf with (⟨path, _, hconfigured⟩ | ⟨_, hcandidate⟩) | ⟨_, root', _, hproject⟩
  · by_cases hfile : tree.isFile path = true
    · rw [if_pos hfile] at hconfigured
      cases hconfigured
      rfl
    · rw [if_neg hfile] at hconfigured
      cases hconfigured
  · exact hcandidates f (List.mem_of_head? hcandidate)
  · exact role_of_projectBroker? hproject

/-- A file of a module is its broker, or it is shown under the path that leads to it
from the module. -/
theorem mem_files_of_discover {tree : Tree} {config : Config} {root : RawText}
    {discovery : Discovery} (hdiscovery : discover tree root config = .ok discovery)
    {f : SourceFile} (hf : f ∈ discovery.files) :
    (discovery.broker = some f ∧ f.role = .broker) ∨
      ((exists below, f.path = Path.join root below ∧ f.displayPath = below.text) ∧
        f.role ≠ .broker) := by
  unfold discover at hdiscovery
  split at hdiscovery
  · cases hdiscovery
  · cases hdiscovery
  · split at hdiscovery
    · cases hdiscovery
    · cases hdiscovery
      simp only [Discovery.files, List.mem_append, Option.mem_toList] at hf
      rcases hf with (hbroker | hproducer) | hconsumer
      · refine Or.inl ⟨hbroker, role_of_brokerOf? ?_ hbroker⟩
        intro g hg
        exact (mem_sourcesInRole hg).2
      · rcases mem_sourcesInRole hproducer with ⟨hpath, hrole⟩
        exact Or.inr ⟨hpath, by simp [hrole]⟩
      · rcases mem_sourcesInRole hconsumer with ⟨hpath, hrole⟩
        exact Or.inr ⟨hpath, by simp [hrole]⟩

def ToldApart (files : List SourceFile) : Prop :=
  forall f, f ∈ files -> forall g, g ∈ files -> f.path = g.path -> f.role = g.role -> f = g

theorem toldApart_files {tree : Tree} {config : Config} {root : RawText} {discovery : Discovery}
    (hdiscovery : discover tree root config = .ok discovery) : ToldApart discovery.files := by
  intro f hf g hg hpath hrole
  rcases mem_files_of_discover hdiscovery hf with
    ⟨hfbroker, hfrole⟩ | ⟨⟨below, hfpath, hfshown⟩, hfrole⟩
  · rcases mem_files_of_discover hdiscovery hg with ⟨hgbroker, _⟩ | ⟨_, hgrole⟩
    · exact Option.some.inj (hfbroker.symm.trans hgbroker)
    · exact absurd (hrole.symm.trans hfrole) hgrole
  · rcases mem_files_of_discover hdiscovery hg with
      ⟨_, hgrole⟩ | ⟨⟨below', hgpath, hgshown⟩, _⟩
    · exact absurd (hrole.trans hgrole) hfrole
    · have hbelow : below = below' := join_inj (hfpath.symm.trans (hpath.trans hgpath))
      have hdisplay : f.displayPath = g.displayPath := by rw [hfshown, hgshown, hbelow]
      cases f
      cases g
      cases hpath
      cases hdisplay
      cases hrole
      rfl

end Workspace
end PayloadFlow
