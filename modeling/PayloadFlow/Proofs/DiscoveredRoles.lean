import PayloadFlow.Proofs.SourceScan

/-!
# The roles of discovered files

The producers and the consumers of a module come in the order of their paths, and no
file on disk is among them twice.  The broker may be found by another way than they
are: at a configured path, or by a scan of the project.  It is left out of the others
if the configured path has the same steps, so a path that reaches the file by another
way lets it play two roles, and so do patterns that match it as the broker from the
project and as something else from the module.
-/

namespace PayloadFlow
namespace Workspace

/-!
# The order of paths
-/

/-- The order of files by the steps of their paths. -/
def SourceFile.Before (a b : SourceFile) : Prop :=
  List.compareLex compare (Path.components a.path) (Path.components b.path) = .lt

theorem compareLex_append_left (front a b : List RawText) :
    List.compareLex compare (front ++ a) (front ++ b) = List.compareLex compare a b := by
  induction front with
  | nil =>
      rfl
  | cons step front ih =>
      have hstep : compare step step = .eq := Std.ReflCmp.compare_self
      rw [List.cons_append, List.cons_append, List.compareLex_cons_cons, ih, hstep]
      rfl

def sourcePath (root : RawText) (names : List RawText) : RawText :=
  Path.join root (Path.ofNames names)

theorem IsSourceBelow.components {tree : Tree} {root : RawText} {names : List RawText}
    (hnames : IsSourceBelow tree root names) :
    Path.components (sourcePath root names) = Path.components root ++ names := by
  rw [sourcePath, Path.components_join hnames.path_ne_empty,
    Path.steps_ofNames hnames.ne_nil hnames.areNames,
    Path.filter_isStep_of_names hnames.areNames]

theorem pairwise_sourcesInRole {tree : Tree} (htree : tree.isProper = true) (matcher : RoleMatcher)
    {root : RawText} {places : List (List RawText)}
    (hplaces : places.Sublist (sourcesBelow tree root)) (role : Role) :
    (sourcesInRole matcher root places role).Pairwise SourceFile.Before := by
  have hsorted := (pairwise_sourcesBelow htree root).sublist hplaces
  refine List.pairwise_map.mpr ((hsorted.filter _).imp_of_mem ?_)
  intro a b ha hb hab
  have hbelow := isSourceBelow_of_mem htree (hplaces.subset (List.mem_of_mem_filter ha))
  have hbelow' := isSourceBelow_of_mem htree (hplaces.subset (List.mem_of_mem_filter hb))
  show List.compareLex compare (Path.components (sourcePath root a))
    (Path.components (sourcePath root b)) = .lt
  rw [hbelow.components, hbelow'.components, compareLex_append_left, hab]

/-!
# Parts of a discovery
-/

def isConfigured (config : Config) (root : RawText) (names : List RawText) : Bool :=
  (explicitBroker? config root).any fun path =>
    Path.components path == Path.components (sourcePath root names)

theorem isConfigured_iff {config : Config} {root : RawText} {names : List RawText} :
    isConfigured config root names = true <->
      exists path, explicitBroker? config root = some path ∧
        Path.components path = Path.components (sourcePath root names) := by
  simp [isConfigured, Option.any_eq_true]

def ordinarySources (tree : Tree) (config : Config) (root : RawText) : List (List RawText) :=
  (sourcesBelow tree root).filter fun names => !isConfigured config root names

structure IsDiscovery (tree : Tree) (root : RawText) (config : Config) (matcher : RoleMatcher)
    (d : Discovery) : Prop where
  producers : d.producers =
    sourcesInRole matcher root (ordinarySources tree config root) .producer
  consumers : d.consumers =
    sourcesInRole matcher root (ordinarySources tree config root) .consumer
  broker : d.broker = brokerOf? tree config matcher root
    (sourcesInRole matcher root (ordinarySources tree config root) .broker)

theorem exists_isDiscovery {tree : Tree} {root : RawText} {config : Config} {d : Discovery}
    (hd : discover tree root config = .ok d) :
    exists matcher, RoleMatcher.ofPatterns config.roles config.ignorePatterns = .ok matcher ∧
      IsDiscovery tree root config matcher d := by
  unfold discover at hd
  split at hd
  · cases hd
  · cases hd
  · split at hd
    · cases hd
    · rename_i matcher hmatcher
      cases hd
      exact ⟨matcher, hmatcher, rfl, rfl, rfl⟩

theorem mem_ordinarySources {tree : Tree} {config : Config} {root : RawText}
    {names : List RawText} :
    names ∈ ordinarySources tree config root <->
      names ∈ sourcesBelow tree root ∧ isConfigured config root names = false := by
  simp [ordinarySources]

theorem exists_of_mem_sourcesInRole {matcher : RoleMatcher} {root : RawText}
    {places : List (List RawText)} {role : Role} {f : SourceFile}
    (hf : f ∈ sourcesInRole matcher root places role) :
    exists names, names ∈ places ∧ matcher.roleOf (shown names) = some role ∧
      f.path = sourcePath root names := by
  rcases List.mem_map.mp hf with ⟨names, hnames, rfl⟩
  rcases List.mem_filter.mp hnames with ⟨hmem, hrole⟩
  exact ⟨names, hmem, beq_iff_eq.mp hrole, rfl⟩

theorem cases_of_brokerOf? {tree : Tree} {config : Config} {matcher : RoleMatcher} {root : RawText}
    {places : List (List RawText)} {b : SourceFile}
    (hb : brokerOf? tree config matcher root (sourcesInRole matcher root places .broker) = some b) :
    (explicitBroker? config root = some b.path ∧ tree.isFile b.path = true) ∨
    (exists names, names ∈ places ∧ matcher.roleOf (shown names) = some .broker ∧
      b.path = sourcePath root names) ∨
    (exists project names, config.projectRoot = some project ∧ names ∈ sourcesBelow tree project ∧
      matcher.roleOf (shown names) = some .broker ∧
      b.path = sourcePath project names) := by
  simp only [brokerOf?, Option.or_eq_some_iff, Option.bind_eq_some_iff] at hb
  rcases hb with (⟨path, hpath, hconfigured⟩ | ⟨_, hcandidate⟩) | ⟨_, project, hproject, hb⟩
  · by_cases hfile : tree.isFile path = true
    · rw [if_pos hfile] at hconfigured
      cases hconfigured
      exact Or.inl ⟨hpath, hfile⟩
    · rw [if_neg hfile] at hconfigured
      cases hconfigured
  · exact Or.inr (Or.inl (exists_of_mem_sourcesInRole (List.mem_of_head? hcandidate)))
  · unfold projectBroker? at hb
    by_cases hdirectory : tree.isDirectory project = true
    · rw [if_pos hdirectory] at hb
      rcases exists_of_mem_sourcesInRole (List.mem_of_head? hb) with ⟨names, hnames, hrole, hpath⟩
      exact Or.inr (Or.inr ⟨project, names, hproject, hnames, hrole, hpath⟩)
    · rw [if_neg hdirectory] at hb
      cases hb

/-!
# Files on disk
-/

/-- Files that are at different places on disk. -/
def DistinctFiles (tree : Tree) (files : List SourceFile) : Prop :=
  (files.map fun f => tree.fileAt? f.path).Nodup

theorem fileAt?_sourcePath {tree : Tree} (htree : tree.isProper = true) {root : RawText}
    {names : List RawText} (hnames : names ∈ sourcesBelow tree root) :
    tree.fileAt? (sourcePath root names) = some (placeOf root ++ names) :=
  (isSourceBelow_of_mem htree hnames).fileAt?

theorem fileAt?_sourcePath_inj {tree : Tree} (htree : tree.isProper = true) {root : RawText}
    {names names' : List RawText} (hnames : names ∈ sourcesBelow tree root)
    (hnames' : names' ∈ sourcesBelow tree root)
    (h : tree.fileAt? (sourcePath root names) = tree.fileAt? (sourcePath root names')) :
    names = names' := by
  rw [fileAt?_sourcePath htree hnames, fileAt?_sourcePath htree hnames'] at h
  exact List.append_cancel_left (Option.some.inj h)

theorem mem_of_mem_filter_append {places : List (List RawText)} {p q : List RawText -> Bool}
    {names : List RawText} (hnames : names ∈ places.filter p ++ places.filter q) :
    names ∈ places := by
  rcases List.mem_append.mp hnames with hnames | hnames
  · exact List.mem_of_mem_filter hnames
  · exact List.mem_of_mem_filter hnames

theorem distinctFiles_of_roles {tree : Tree} (htree : tree.isProper = true) (matcher : RoleMatcher)
    {root : RawText} {places : List (List RawText)}
    (hplaces : places.Sublist (sourcesBelow tree root)) :
    DistinctFiles tree (sourcesInRole matcher root places .producer ++
      sourcesInRole matcher root places .consumer) := by
  have hnodup : places.Nodup := (nodup_sourcesBelow htree root).sublist hplaces
  unfold DistinctFiles sourcesInRole
  rw [List.map_append, List.map_map, List.map_map]
  show (List.map (fun names => tree.fileAt? (sourcePath root names)) _ ++
    List.map (fun names => tree.fileAt? (sourcePath root names)) _).Nodup
  rw [← List.map_append]
  refine List.Nodup.map_on ?_ ((hnodup.filter _).append (hnodup.filter _) ?_)
  · intro names hnames names' hnames' hfile
    have hmem := hplaces.subset (mem_of_mem_filter_append hnames)
    have hmem' := hplaces.subset (mem_of_mem_filter_append hnames')
    exact fileAt?_sourcePath_inj htree hmem hmem' hfile
  · intro names hproducer hconsumer
    have hrole := beq_iff_eq.mp (List.mem_filter.mp hproducer).2
    rw [beq_iff_eq.mp (List.mem_filter.mp hconsumer).2] at hrole
    cases hrole

/-- The sources of a module that its patterns make producers or consumers. -/
def PlaysAside (matcher : RoleMatcher) (names : List RawText) : Prop :=
  matcher.roleOf (shown names) = some .producer ∨
    matcher.roleOf (shown names) = some .consumer

theorem mem_sourcesInRole_of_mem {matcher : RoleMatcher} {root : RawText}
    {places : List (List RawText)} {role : Role} {names : List RawText} (hnames : names ∈ places)
    (hrole : matcher.roleOf (shown names) = some role) :
    sourceFile root names role ∈ sourcesInRole matcher root places role := by
  exact List.mem_map_of_mem (List.mem_filter.mpr ⟨hnames, beq_iff_eq.mpr hrole⟩)

/-!
# Two roles
-/

/-- A path that is written as a root with names after it. -/
def GoesDown (root path : RawText) : Prop :=
  exists names, (forall n, n ∈ names -> Path.isName n = true) ∧
    Path.components path = Path.components root ++ names

/-- A broker of a project is not a producer or a consumer of a module. -/
def BrokersAgree (tree : Tree) (matcher : RoleMatcher) (project root : RawText) : Prop :=
  forall names, names ∈ sourcesBelow tree project ->
    forall names', names' ∈ sourcesBelow tree root ->
    tree.fileAt? (sourcePath project names) = tree.fileAt? (sourcePath root names') ->
    matcher.roleOf (shown names) = some .broker -> ¬ PlaysAside matcher names'

namespace IsDiscovery

variable {tree : Tree} {root : RawText} {config : Config} {matcher : RoleMatcher} {d : Discovery}

theorem mem_files_on_disk (hd : IsDiscovery tree root config matcher d)
    {file : Option (List RawText)} :
    file ∈ (d.producers ++ d.consumers).map (fun f => tree.fileAt? f.path) <->
      exists names, names ∈ ordinarySources tree config root ∧ PlaysAside matcher names ∧
        tree.fileAt? (sourcePath root names) = file := by
  rw [hd.producers, hd.consumers]
  constructor
  · intro hfile
    rcases List.mem_map.mp hfile with ⟨f, hf, hfile⟩
    rcases List.mem_append.mp hf with hf | hf
    · rcases exists_of_mem_sourcesInRole hf with ⟨names, hnames, hrole, hpath⟩
      exact ⟨names, hnames, Or.inl hrole, by rw [← hpath, hfile]⟩
    · rcases exists_of_mem_sourcesInRole hf with ⟨names, hnames, hrole, hpath⟩
      exact ⟨names, hnames, Or.inr hrole, by rw [← hpath, hfile]⟩
  · intro hnames
    rcases hnames with ⟨names, hnames, hrole | hrole, rfl⟩
    · exact List.mem_map_of_mem (List.mem_append_left _ (mem_sourcesInRole_of_mem hnames hrole))
    · exact List.mem_map_of_mem (List.mem_append_right _ (mem_sourcesInRole_of_mem hnames hrole))

theorem distinctFiles_lists (htree : tree.isProper = true)
    (hd : IsDiscovery tree root config matcher d) :
    DistinctFiles tree (d.producers ++ d.consumers) := by
  rw [hd.producers, hd.consumers]
  exact distinctFiles_of_roles htree matcher List.filter_sublist

/-- The files of a discovery are distinct unless its broker is also a producer or a
consumer. -/
theorem distinctFiles_iff (htree : tree.isProper = true)
    (hd : IsDiscovery tree root config matcher d) :
    DistinctFiles tree d.files <->
      forall b, d.broker = some b -> forall names, names ∈ ordinarySources tree config root ->
        PlaysAside matcher names -> tree.fileAt? (sourcePath root names) ≠ tree.fileAt? b.path := by
  have hlists := hd.distinctFiles_lists htree
  unfold DistinctFiles at hlists
  unfold DistinctFiles Discovery.files
  cases hbroker : d.broker with
  | none =>
      simp only [Option.toList_none, List.nil_append, hlists, true_iff]
      intro b hb
      cases hb
  | some b =>
      rw [Option.toList_some, List.append_assoc, List.singleton_append, List.map_cons,
        List.nodup_cons, hd.mem_files_on_disk]
      constructor
      · intro hdistinct b' hb names hnames hrole hfile
        cases hb
        exact hdistinct.1 ⟨names, hnames, hrole, hfile⟩
      · intro hbroker
        refine ⟨?_, hlists⟩
        intro hmem
        rcases hmem with ⟨names, hnames, hrole, hfile⟩
        exact hbroker b rfl names hnames hrole hfile

theorem isSome_fileAt? (htree : tree.isProper = true) (hd : IsDiscovery tree root config matcher d)
    {f : SourceFile} (hf : f ∈ d.files) : (tree.fileAt? f.path).isSome = true := by
  have hlist : forall role,
      f ∈ sourcesInRole matcher root (ordinarySources tree config root) role ->
      (tree.fileAt? f.path).isSome = true := by
    intro role hf
    rcases exists_of_mem_sourcesInRole hf with ⟨names, hnames, _, hpath⟩
    rw [hpath, fileAt?_sourcePath htree (mem_ordinarySources.mp hnames).1]
    rfl
  simp only [Discovery.files, List.mem_append, Option.mem_toList, hd.producers, hd.consumers,
    hd.broker] at hf
  rcases hf with (hbroker | hproducer) | hconsumer
  · rcases cases_of_brokerOf? hbroker with ⟨_, hfile⟩ | ⟨names, hnames, _, hpath⟩ |
      ⟨project, names, _, hnames, _, hpath⟩
    · rw [Tree.fileAt?_of_isFile hfile]
      rfl
    · rw [hpath, fileAt?_sourcePath htree (mem_ordinarySources.mp hnames).1]
      rfl
    · rw [hpath, fileAt?_sourcePath htree hnames]
      rfl
  · exact hlist .producer hproducer
  · exact hlist .consumer hconsumer

/-- A broker that is found by names below the root, or by patterns that agree about it, is
no producer and no consumer. -/
theorem broker_ne_source (htree : tree.isProper = true)
    (hd : IsDiscovery tree root config matcher d)
    (hconfigured : forall path, explicitBroker? config root = some path -> GoesDown root path)
    (hproject : forall project, config.projectRoot = some project ->
      BrokersAgree tree matcher project root)
    {b : SourceFile} (hb : d.broker = some b) {names : List RawText}
    (hnames : names ∈ ordinarySources tree config root) (hrole : PlaysAside matcher names) :
    tree.fileAt? (sourcePath root names) ≠ tree.fileAt? b.path := by
  intro hfile
  rcases mem_ordinarySources.mp hnames with ⟨hbelow, hnot⟩
  rw [hd.broker] at hb
  rcases cases_of_brokerOf? hb with ⟨hpath, hisFile⟩ | ⟨found, hfound, hbroker, hpath⟩ |
    ⟨project, found, hroot, hfound, hbroker, hpath⟩
  · rcases hconfigured b.path hpath with ⟨down, hdown, hcomponents⟩
    rw [fileAt?_sourcePath htree hbelow, Tree.fileAt?_of_isFile hisFile,
      placeOf_of_components hdown hcomponents] at hfile
    have hsame : names = down := List.append_cancel_left (Option.some.inj hfile)
    have hconfigured : isConfigured config root names = true := by
      refine isConfigured_iff.mpr ⟨b.path, hpath, ?_⟩
      rw [(isSourceBelow_of_mem htree hbelow).components, hcomponents, hsame]
    rw [hnot] at hconfigured
    cases hconfigured
  · rw [hpath] at hfile
    have hsame := fileAt?_sourcePath_inj htree hbelow (mem_ordinarySources.mp hfound).1 hfile
    rw [← hsame] at hbroker
    rcases hrole with hrole | hrole
    · rw [hbroker] at hrole
      cases hrole
    · rw [hbroker] at hrole
      cases hrole
  · rw [hpath] at hfile
    exact hproject project hroot found hfound names hbelow hfile.symm hbroker hrole

end IsDiscovery

/-- Producers and consumers come in order, and every file of a discovery is on disk.  No file
is there twice, exactly if the configured path has the same steps as the path of any
producer or consumer that it leads to, and the broker of the project is none of them.  That is
so if the configured path goes down from the root by names, and the patterns say nothing
else about the brokers of the project. -/
theorem discovered_files_distinct_iff {tree : Tree} (htree : tree.isProper = true) {root : RawText}
    {config : Config} {d : Discovery} (hd : discover tree root config = .ok d) :
    d.producers.Pairwise SourceFile.Before ∧ d.consumers.Pairwise SourceFile.Before ∧
    (forall f, f ∈ d.files -> (tree.fileAt? f.path).isSome = true) ∧
    DistinctFiles tree (d.producers ++ d.consumers) ∧
    exists matcher, RoleMatcher.ofPatterns config.roles config.ignorePatterns = .ok matcher ∧
      (DistinctFiles tree d.files <->
        forall b, d.broker = some b -> forall names, names ∈ sourcesBelow tree root ->
          PlaysAside matcher names -> tree.fileAt? (sourcePath root names) = tree.fileAt? b.path ->
          exists path, explicitBroker? config root = some path ∧
            Path.components path = Path.components (sourcePath root names)) ∧
      ((forall path, explicitBroker? config root = some path -> GoesDown root path) ->
        (forall project, config.projectRoot = some project ->
          BrokersAgree tree matcher project root) ->
        DistinctFiles tree d.files) := by
  rcases exists_isDiscovery hd with ⟨matcher, hmatcher, hparts⟩
  refine ⟨?_, ?_, ?_, hparts.distinctFiles_lists htree, matcher, hmatcher, ?_, ?_⟩
  · rw [hparts.producers]
    exact pairwise_sourcesInRole htree matcher List.filter_sublist .producer
  · rw [hparts.consumers]
    exact pairwise_sourcesInRole htree matcher List.filter_sublist .consumer
  · intro f hf
    exact hparts.isSome_fileAt? htree hf
  · rw [hparts.distinctFiles_iff htree]
    constructor
    · intro hdistinct b hb names hnames hrole hfile
      apply isConfigured_iff.mp
      by_contra hnot
      have hordinary := mem_ordinarySources.mpr ⟨hnames, Bool.eq_false_iff.mpr hnot⟩
      exact hdistinct b hb names hordinary hrole hfile
    · intro hconfigured b hb names hnames hrole hfile
      rcases mem_ordinarySources.mp hnames with ⟨hbelow, hnot⟩
      rw [isConfigured_iff.mpr (hconfigured b hb names hbelow hrole hfile)] at hnot
      cases hnot
  · intro hconfigured hproject
    rw [hparts.distinctFiles_iff htree]
    intro b hb names hnames hrole
    exact hparts.broker_ne_source htree hconfigured hproject hb hnames hrole

def relayModule : Tree :=
  .directory [("m", .directory
    [("flows", .directory [("s.js", .file .empty)]),
      ("handlers", .directory [("h.js", .file .empty), ("relay.js", .file .empty)])])]

def relayPlaces : List (List RawText) :=
  [["flows", "s.js"], ["handlers", "h.js"], ["handlers", "relay.js"]]

theorem sourcesBelow_relayModule : sourcesBelow relayModule "m" = relayPlaces := by
  apply sourcesBelow_of_pairwise
  · decide +kernel
  · decide +kernel

def brokerAt (path : String) : Config :=
  { broker := { path := some path } }

def relayDiscovery (broker : SourceFile) (consumers : List SourceFile) : Discovery :=
  { producers := [⟨"m/flows/s.js", "flows/s.js", .producer⟩]
    consumers := ⟨"m/handlers/h.js", "handlers/h.js", .consumer⟩ :: consumers
    broker := some broker }

def relayByNames : Discovery :=
  relayDiscovery ⟨"m/./handlers//relay.js", "handlers/relay.js", .broker⟩ []

theorem relayByNames_distinct :
    discover relayModule "m" (brokerAt "./handlers//relay.js") = .ok relayByNames ∧
    DistinctFiles relayModule relayByNames.files := by
  have hd : discover relayModule "m" (brokerAt "./handlers//relay.js") = .ok relayByNames := by
    rw [discover, sourcesBelow_relayModule]
    decide +kernel
  rcases discovered_files_distinct_iff rfl hd with ⟨_, _, _, _, matcher, _, _, hdistinct⟩
  refine ⟨hd, hdistinct ?_ ?_⟩
  · intro path hpath
    cases hpath
    exact ⟨["handlers", "relay.js"], by decide, by decide⟩
  · intro project hproject
    cases hproject

def relayByDetour : Discovery :=
  relayDiscovery ⟨"m/../m/handlers/relay.js", "../m/handlers/relay.js", .broker⟩
    [⟨"m/handlers/relay.js", "handlers/relay.js", .consumer⟩]

/-- A path that goes up and down again leads to a broker that stays a consumer. -/
theorem relayByDetour_twice :
    discover relayModule "m" (brokerAt "../m/handlers/relay.js") = .ok relayByDetour ∧
    ¬ DistinctFiles relayModule relayByDetour.files := by
  constructor
  · rw [discover, sourcesBelow_relayModule]
    decide +kernel
  · unfold DistinctFiles
    decide +kernel

end Workspace
end PayloadFlow
