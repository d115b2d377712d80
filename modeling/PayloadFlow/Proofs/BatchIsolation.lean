import PayloadFlow.Workspace.Session
import PayloadFlow.Proofs.SharedReading

/-!
# What the modules of a batch share

The modules of a batch are validated one after the other with one cache.  A module
is reported on as if it were alone if all modules before it that read one of its
files show it under the same path and read it with the same settings.
-/

namespace PayloadFlow

/-!
# Reports without the count of cache hits
-/

def Report.withoutHits (r : Report) : Report :=
  { r with statistics := { r.statistics with cacheHits := 0 } }

namespace Validation

open Workspace

namespace Extracted

def withoutHits (e : Extracted) : Extracted :=
  { e with cacheHits := 0 }

theorem withoutHits_foldl_add (e : Extracted) (contracts : List Contract) :
    (contracts.foldl add e).withoutHits = contracts.foldl add e.withoutHits := by
  induction contracts generalizing e with
  | nil =>
      rfl
  | cons contract rest ih =>
      rw [List.foldl_cons, List.foldl_cons, ih]
      cases contract with
      | producer p => rfl
      | broker t => rfl
      | consumer c => rfl

theorem withoutHits_addFile (e : Extracted) (x : FileExtraction) :
    (e.addFile x).withoutHits = e.withoutHits.addFile ⟨x.file, x.result, false⟩ := by
  unfold addFile
  cases x.result with
  | ok contracts => exact withoutHits_foldl_add _ contracts
  | error error => rfl

theorem withoutHits_collect (extractions : List FileExtraction) :
    (collect extractions).withoutHits =
      collect (extractions.map fun x => ⟨x.file, x.result, false⟩) := by
  have hfold : forall e : Extracted, (extractions.foldl addFile e).withoutHits =
      (extractions.map fun x => ⟨x.file, x.result, false⟩).foldl addFile e.withoutHits := by
    induction extractions with
    | nil =>
        intro e
        rfl
    | cons x rest ih =>
        intro e
        rw [List.foldl_cons, ih, withoutHits_addFile, List.map_cons, List.foldl_cons]
  exact hfold {}

end Extracted

theorem withoutHits_report (config : Config) (moduleName : String) (e : Extracted) :
    (report config moduleName e).withoutHits = report config moduleName e.withoutHits := rfl

/-- The report on the module at a path with its files read in a given way. -/
def reportWith (tree : Tree) (config : Config) (modulePath : RawText) (moduleName : String)
    (read : List SourceFile -> List FileExtraction) : Report :=
  match discover tree modulePath config with
  | .error e => Report.ofDiscoveryFailure moduleName e.message
  | .ok discovery => report config moduleName (Extracted.collect (read discovery.files))

/-- The report on the module at a path if each of its files gives what `read` says. -/
def reportBy (tree : Tree) (config : Config) (modulePath : RawText) (moduleName : String)
    (read : SourceFile -> Except ExtractionError (List Contract)) : Report :=
  reportWith tree config modulePath moduleName fun files => files.map fun f => ⟨f, read f, false⟩

/-- The report on the module at a path if its files are read after some readings. -/
def reportAfter (tree : Tree) (config : Config) (modulePath : RawText) (moduleName : String)
    (readings : List Reading) : Report :=
  reportWith tree config modulePath moduleName (readEach tree config readings)

theorem reportWith_congr {tree : Tree} {config : Config} {modulePath : RawText}
    {read other : List SourceFile -> List FileExtraction}
    (h : forall files, ToldApart files -> filesOf tree config modulePath = files ->
      read files = other files) (moduleName : String) :
    reportWith tree config modulePath moduleName read =
      reportWith tree config modulePath moduleName other := by
  unfold reportWith
  cases hdiscovery : discover tree modulePath config with
  | error e =>
      rfl
  | ok discovery =>
      have hfiles : filesOf tree config modulePath = discovery.files := by
        rw [filesOf, hdiscovery]
      dsimp only
      rw [h discovery.files (toldApart_files hdiscovery) hfiles]

/-- A run reads every file of its module after the readings that filled the cache. -/
theorem run_holds {cache : Cache} {readings : List Reading} (hholds : Holds cache readings)
    (tree : Tree) (config : Config) (modulePath : RawText) (moduleName : String) :
    (run tree config modulePath moduleName cache).report.withoutHits =
        reportAfter tree config modulePath moduleName readings ∧
      Holds (run tree config modulePath moduleName cache).cache
        (readings ++ (filesOf tree config modulePath).map (Reading.mk tree config)) := by
  unfold run reportAfter reportWith filesOf
  cases discover tree modulePath config with
  | error e =>
      refine ⟨rfl, ?_⟩
      simpa using hholds
  | ok discovery =>
      rcases extractFiles_holds hholds tree config discovery.files with ⟨hresults, hcache⟩
      refine ⟨?_, hcache⟩
      show (report config moduleName (Extracted.collect _)).withoutHits = _
      rw [withoutHits_report, Extracted.withoutHits_collect, hresults]

end Validation

namespace Workspace

open Validation

/-!
# Modules one after the other
-/

def readingsOf (tree : Tree) (modules : List (String × RawText)) : List Reading :=
  modules.flatMap fun m =>
    (filesOf tree (moduleConfig tree m.2) m.2).map (Reading.mk tree (moduleConfig tree m.2))

theorem tree_of_mem_readingsOf {tree : Tree} {modules : List (String × RawText)} {r : Reading}
    (hr : r ∈ readingsOf tree modules) : r.tree = tree := by
  rcases List.mem_flatMap.mp hr with ⟨m, _, hr⟩
  rcases List.mem_map.mp hr with ⟨f, _, rfl⟩
  rfl

theorem moduleReports_append (tree : Tree) {cache : Cache} {readings : List Reading}
    (hholds : Holds cache readings) (before after : List (String × RawText))
    (name : String) (path : RawText) :
    exists cache', Holds cache' (readings ++ readingsOf tree before) ∧
      (moduleReports tree cache (before ++ (name, path) :: after))[before.length]? =
        some (name, (run tree (moduleConfig tree path) path name cache').report) := by
  induction before generalizing cache readings with
  | nil =>
      refine ⟨cache, ?_, rfl⟩
      simpa [readingsOf] using hholds
  | cons m before ih =>
      rcases m with ⟨name', path'⟩
      have hnext := (run_holds hholds tree (moduleConfig tree path') path' name').2
      rcases ih hnext with ⟨cache', hcache', hreport⟩
      refine ⟨cache', ?_, hreport⟩
      rw [List.append_assoc] at hcache'
      exact hcache'

/-- The report on a module of a batch is the one that comes of reading each file as the first
reading with its key did.  It is the report on the module alone exactly if that makes no
difference, which is so if the modules before it read its files alike.  Where the paths are
texts, the module does not get in its own way either: each file is read by itself.  Only the
count of cache hits is left aside. -/
theorem validateAll_report (tree : Tree) (before after : List (String × RawText))
    (name : String) (path : RawText) :
    exists r, (validateAll tree (before ++ (name, path) :: after)).reports[before.length]? =
        some (name, r) ∧
      r.withoutHits =
        reportAfter tree (moduleConfig tree path) path name (readingsOf tree before) ∧
      (r.withoutHits = (run tree (moduleConfig tree path) path name {}).report.withoutHits <->
        reportAfter tree (moduleConfig tree path) path name (readingsOf tree before) =
          reportAfter tree (moduleConfig tree path) path name []) ∧
      ((forall file, file ∈ filesOf tree (moduleConfig tree path) path ->
          ReadAlike (readingsOf tree before) (moduleConfig tree path) file) ->
        r.withoutHits = (run tree (moduleConfig tree path) path name {}).report.withoutHits) ∧
      ((forall file, file ∈ filesOf tree (moduleConfig tree path) path -> file.path.IsText) ->
        reportAfter tree (moduleConfig tree path) path name (readingsOf tree before) =
            reportBy tree (moduleConfig tree path) path name
              (readAfter tree (readingsOf tree before) (moduleConfig tree path)) ∧
          reportAfter tree (moduleConfig tree path) path name [] =
            reportBy tree (moduleConfig tree path) path name
              (readAlone tree (moduleConfig tree path))) := by
  rcases moduleReports_append tree holds_empty before after name path with
    ⟨cache, hholds, hreport⟩
  have hshared := (run_holds hholds tree (moduleConfig tree path) path name).1
  have halone := (run_holds holds_empty tree (moduleConfig tree path) path name).1
  refine ⟨_, hreport, hshared, ?_, ?_, ?_⟩
  · rw [hshared, halone]
    rfl
  · intro halike
    rw [hshared, halone]
    apply reportWith_congr
    rintro files hfiles rfl
    have heach := readEach_of_readAlike (fun r hr => tree_of_mem_readingsOf hr) hfiles halike []
      (fun f hf => hf)
    rw [List.map_nil, List.append_nil] at heach
    exact heach
  · intro htexts
    have heach : forall readings files, ToldApart files ->
        filesOf tree (moduleConfig tree path) path = files ->
        readEach tree (moduleConfig tree path) readings files =
          files.map fun f => ⟨f, readAfter tree readings (moduleConfig tree path) f, false⟩ := by
      rintro readings files hfiles rfl
      have hown := readEach_of_texts tree (moduleConfig tree path) hfiles htexts readings []
        (fun f hf => hf)
      rw [List.map_nil, List.append_nil] at hown
      exact hown
    constructor
    · exact reportWith_congr (heach _) name
    · rw [reportAfter, reportWith_congr (heach []) name, reportBy]
      simp only [readAfter_nil]

def innerModule : Tree :=
  Tree.empty.write ["m", "sub", "flows", "s.js"]
    "export function startDrop(x) \x7b dispatch('drop', \x7b x \x7d); \x7d".toUTF8

theorem innerModule_twice :
    (forall file, file ∈ filesOf innerModule (moduleConfig innerModule "m/sub") "m/sub" ->
      ReadAlike (readingsOf innerModule [("a", "m/sub")]) (moduleConfig innerModule "m/sub") file ∧
        file.path.IsText) ∧
    exists r, (validateAll innerModule [("a", "m/sub"), ("b", "m/sub")]).reports[1]? =
        some ("b", r) ∧
      r.statistics.cacheHits = 1 ∧
      r.withoutHits =
        (run innerModule (moduleConfig innerModule "m/sub") "m/sub" "b" {}).report.withoutHits ∧
      r.withoutHits = reportBy innerModule (moduleConfig innerModule "m/sub") "m/sub" "b"
        (readAfter innerModule (readingsOf innerModule [("a", "m/sub")])
          (moduleConfig innerModule "m/sub")) := by
  have halike : forall file,
      file ∈ filesOf innerModule (moduleConfig innerModule "m/sub") "m/sub" ->
      ReadAlike (readingsOf innerModule [("a", "m/sub")]) (moduleConfig innerModule "m/sub")
        file := by
    decide +kernel
  have htexts : forall file,
      file ∈ filesOf innerModule (moduleConfig innerModule "m/sub") "m/sub" ->
      file.path.IsText := by
    have hfiles : filesOf innerModule (moduleConfig innerModule "m/sub") "m/sub" =
        [⟨"m/sub/flows/s.js", "flows/s.js", .producer⟩] := by
      decide +kernel
    intro file hfile
    rw [hfiles, List.mem_singleton] at hfile
    rw [hfile]
    exact RawText.isText_ofString "m/sub/flows/s.js"
  have hhits : ((validateAll innerModule [("a", "m/sub"), ("b", "m/sub")]).reports[1]?.map
      fun entry => entry.2.statistics.cacheHits) = some 1 := by
    decide +kernel
  rcases validateAll_report innerModule [("a", "m/sub")] [] "b" "m/sub" with
    ⟨r, hreport, hafter, _, hsame, hsingle⟩
  have hreport : (validateAll innerModule [("a", "m/sub"), ("b", "m/sub")]).reports[1]? =
      some ("b", r) := hreport
  rw [hreport] at hhits
  exact ⟨fun file hfile => ⟨halike file hfile, htexts file hfile⟩, r, hreport,
    Option.some.inj hhits, hsame halike, hafter.trans (hsingle htexts).1⟩

/-- After the module around it, the inner module is reported on with the paths of the
outer one. -/
theorem innerModule_not_isolated :
    ((validateAll innerModule [("a", "m"), ("b", "m/sub")]).reports.map fun entry =>
        (entry.1, entry.2.findings.map (·.filePath))) =
      [("a", ["sub/flows/s.js"]), ("b", ["sub/flows/s.js"])] ∧
    (run innerModule (moduleConfig innerModule "m/sub") "m/sub" "b" {}).report.findings.map
      (·.filePath) = ["flows/s.js"] := by
  decide +kernel

end Workspace
end PayloadFlow
