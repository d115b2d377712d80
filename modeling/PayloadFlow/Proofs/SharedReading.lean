import PayloadFlow.Proofs.Cache
import PayloadFlow.Proofs.ModuleFiles

/-!
# Files read by several modules

Modules that share a cache share the contracts of their files.  The keys of the
cache know neither the settings of a module nor the path under which it shows a
file, so the contracts under a key are those of the first reading that gave some.
-/

namespace PayloadFlow
namespace Workspace

/-!
# The first reading of a key
-/

structure Reading where
  tree : Tree
  config : Config
  file : SourceFile

/-- The contracts that a reading leaves under a key, unless there are some. -/
def Reading.leaves? (key : CacheKey) (r : Reading) : Option (List Contract) :=
  Workspace.leaves? r.tree r.config r.file key

/-- The contracts that were left first under a key. -/
def firstLeft (readings : List Reading) (key : CacheKey) : Option (List Contract) :=
  readings.findSome? (Reading.leaves? key)

theorem firstLeft_append (readings others : List Reading) (key : CacheKey) :
    firstLeft (readings ++ others) key = (firstLeft readings key).or (firstLeft others key) := by
  simp [firstLeft, List.findSome?_append]

theorem firstLeft_singleton (r : Reading) (key : CacheKey) : firstLeft [r] key = r.leaves? key := by
  simp [firstLeft]

theorem exists_of_firstLeft {readings : List Reading} {key : CacheKey} {contracts : List Contract}
    (hfirst : firstLeft readings key = some contracts) :
    exists r text, r ∈ readings ∧ sourceText r.tree r.config r.file = .ok text ∧
      cacheKey r.file.path r.file.role text = key ∧
        extract r.config r.file.role r.file.displayPath text = .ok contracts := by
  rcases List.exists_of_findSome?_eq_some hfirst with ⟨r, hr, hleaves⟩
  rcases leaves?_eq_some hleaves with ⟨text, htext, hkey, hextract⟩
  exact ⟨r, text, hr, htext, hkey, hextract⟩

/-- The contracts of a file after some readings. -/
def readAfter (tree : Tree) (readings : List Reading) (config : Config) (file : SourceFile) :
    Except ExtractionError (List Contract) :=
  match sourceText tree config file with
  | .error e => .error e
  | .ok text =>
      match firstLeft readings (cacheKey file.path file.role text) with
      | some contracts => .ok contracts
      | none => extract config file.role file.displayPath text

section

variable {tree : Tree} {readings : List Reading} {config : Config} {file : SourceFile}

theorem readAfter_of_error {e : ExtractionError} (htext : sourceText tree config file = .error e) :
    readAfter tree readings config file = .error e := by
  rw [readAfter, htext]

theorem readAfter_of_some {text : String} {contracts : List Contract}
    (htext : sourceText tree config file = .ok text)
    (hfirst : firstLeft readings (cacheKey file.path file.role text) = some contracts) :
    readAfter tree readings config file = .ok contracts := by
  simp only [readAfter, htext, hfirst]

theorem readAfter_of_none {text : String} (htext : sourceText tree config file = .ok text)
    (hfirst : firstLeft readings (cacheKey file.path file.role text) = none) :
    readAfter tree readings config file = extract config file.role file.displayPath text := by
  simp only [readAfter, htext, hfirst]

theorem readAfter_nil (tree : Tree) (config : Config) (file : SourceFile) :
    readAfter tree [] config file = readAlone tree config file := by
  unfold readAfter readAlone
  cases sourceText tree config file with
  | error e => rfl
  | ok text => rfl

end

def readEach (tree : Tree) (config : Config) :
    List Reading -> List SourceFile -> List FileExtraction
  | _, [] => []
  | readings, file :: rest =>
      ⟨file, readAfter tree readings config file, false⟩ ::
        readEach tree config (readings ++ [⟨tree, config, file⟩]) rest

/-!
# The cache in step with the readings
-/

def Holds (cache : Cache) (readings : List Reading) : Prop :=
  forall key, cache.find? key = firstLeft readings key

theorem holds_empty : Holds {} [] := by
  intro key
  rfl

/-- One more file keeps the cache in step with the readings. -/
theorem holds_extractFile {cache : Cache} {readings : List Reading} (hholds : Holds cache readings)
    (tree : Tree) (config : Config) (file : SourceFile) :
    Holds (extractFile tree config cache file).2 (readings ++ [⟨tree, config, file⟩]) := by
  intro key
  rw [find?_extractFile, hholds key, firstLeft_append, firstLeft_singleton]
  rfl

theorem result_extractFile {cache : Cache} {readings : List Reading} (hholds : Holds cache readings)
    (tree : Tree) (config : Config) (file : SourceFile) :
    (extractFile tree config cache file).1.result = readAfter tree readings config file := by
  have hstep := extractFile_step tree config cache file
  generalize extractFile tree config cache file = outcome at hstep
  cases hstep with
  | unread htext =>
      exact (readAfter_of_error htext).symm
  | found htext hfound =>
      rw [hholds] at hfound
      exact (readAfter_of_some htext hfound).symm
  | extracted htext habsent hextract =>
      rw [hholds] at habsent
      exact ((readAfter_of_none htext habsent).trans hextract).symm
  | failed htext habsent hextract =>
      rw [hholds] at habsent
      exact ((readAfter_of_none htext habsent).trans hextract).symm

theorem extractFiles_holds {cache : Cache} {readings : List Reading} (hholds : Holds cache readings)
    (tree : Tree) (config : Config) (files : List SourceFile) :
    ((extractFiles tree config cache files).1.map fun x => ⟨x.file, x.result, false⟩) =
        readEach tree config readings files ∧
      Holds (extractFiles tree config cache files).2
        (readings ++ files.map (Reading.mk tree config)) := by
  induction files generalizing cache readings with
  | nil =>
      simpa [extractFiles, readEach] using hholds
  | cons file rest ih =>
      rcases ih (holds_extractFile hholds tree config file) with ⟨hothers, hlast⟩
      rw [extractFiles_cons]
      constructor
      · rw [List.map_cons, file_extractFile, result_extractFile hholds, hothers, readEach]
      · rw [List.append_assoc] at hlast
        exact hlast

/-!
# Files that are read in the same way
-/

/-- Both configurations read sources of a role in the same way. -/
def SameSettings (role : Role) (a b : Config) : Prop :=
  match role with
  | .producer => a.broker.entryPoints = b.broker.entryPoints
  | .broker =>
      a.broker.prepareFunctions = b.broker.prepareFunctions ∧
        a.broker.generators = b.broker.generators
  | .consumer =>
      a.consumer.handlerPrefixes = b.consumer.handlerPrefixes ∧
        a.consumer.registrationCalls = b.consumer.registrationCalls

instance (role : Role) (a b : Config) : Decidable (SameSettings role a b) :=
  match role with
  | .producer => inferInstanceAs (Decidable (_ = _))
  | .broker => inferInstanceAs (Decidable (_ ∧ _))
  | .consumer => inferInstanceAs (Decidable (_ ∧ _))

theorem extract_of_sameSettings {role : Role} {a b : Config} (h : SameSettings role a b)
    (path text : String) : extract a role path text = extract b role path text := by
  have hcontracts : contractsOf a role path = contractsOf b role path := by
    funext program
    cases role with
    | producer => rw [contractsOf, contractsOf, show a.broker.entryPoints = _ from h]
    | broker => rw [contractsOf, contractsOf, h.1, h.2]
    | consumer => rw [contractsOf, contractsOf, h.1, h.2]
  unfold extract
  rw [hcontracts]

/-- Every reading of a file that is shown alike, in the same role, is one of the same file with
the same settings for it. -/
def ReadAlike (readings : List Reading) (config : Config) (file : SourceFile) : Prop :=
  forall r, r ∈ readings -> r.file.path.text = file.path.text -> r.file.role = file.role ->
    r.file.path = file.path ∧ r.file.displayPath = file.displayPath ∧
      SameSettings file.role r.config config

instance (readings : List Reading) (config : Config) (file : SourceFile) :
    Decidable (ReadAlike readings config file) :=
  inferInstanceAs (Decidable (forall r, r ∈ readings -> _ -> _ -> _))

section

variable {tree : Tree} {config : Config} {before : List Reading} {own : List SourceFile}
  {file : SourceFile}

theorem extract_of_readAlike (hbefore : forall r, r ∈ before -> r.tree = tree)
    (halike : ReadAlike before config file) {text : String}
    (htext : sourceText tree config file = .ok text) {contracts : List Contract}
    (hfirst : firstLeft before (cacheKey file.path file.role text) = some contracts) :
    extract config file.role file.displayPath text = .ok contracts ∧
      exists r, r ∈ before ∧ r.file.path.text = file.path.text ∧ r.file.role = file.role := by
  rcases exists_of_firstLeft hfirst with ⟨r, text', hr, htext', hkey, hextract⟩
  have hshown : r.file.path.text = file.path.text := congrArg CacheKey.path hkey
  have hrole : r.file.role = file.role := congrArg CacheKey.role hkey
  rcases halike r hr hshown hrole with ⟨hpath, hdisplay, hsettings⟩
  have hat := textAt?_of_readSource htext
  have hat' := textAt?_of_readSource htext'
  rw [hbefore r hr, hpath, hat] at hat'
  cases hat'
  rw [hrole, hdisplay, extract_of_sameSettings hsettings] at hextract
  exact ⟨hextract, r, hr, hshown, hrole⟩

/-- What a file has left is what it gives when it is read again. -/
theorem extract_of_own (hapart : forall g, g ∈ own -> g.path = file.path -> g.role = file.role ->
      g = file)
    (hshown : forall g, g ∈ own -> g.path.text = file.path.text -> g.role = file.role ->
      g.path = file.path) {text : String} (htext : sourceText tree config file = .ok text)
    {contracts : List Contract}
    (hfirst : firstLeft (own.map (Reading.mk tree config)) (cacheKey file.path file.role text) =
      some contracts) :
    extract config file.role file.displayPath text = .ok contracts := by
  rcases exists_of_firstLeft hfirst with ⟨r, text', hr, htext', hkey, hextract⟩
  rcases List.mem_map.mp hr with ⟨g, hg, rfl⟩
  have hrole : g.role = file.role := congrArg CacheKey.role hkey
  have hsame := hapart g hg (hshown g hg (congrArg CacheKey.path hkey) hrole) hrole
  subst hsame
  rw [htext] at htext'
  cases htext'
  exact hextract

/-- Readings that read the files of a module alike make no difference to it. -/
theorem readAfter_of_readAlike (hbefore : forall r, r ∈ before -> r.tree = tree)
    {files : List SourceFile} (hfiles : ToldApart files)
    (halike : forall f, f ∈ files -> ReadAlike before config f) (hfile : file ∈ files)
    (hown : forall g, g ∈ own -> g ∈ files) :
    readAfter tree (before ++ own.map (Reading.mk tree config)) config file =
      readAfter tree (own.map (Reading.mk tree config)) config file := by
  cases htext : sourceText tree config file with
  | error e =>
      rw [readAfter_of_error htext, readAfter_of_error htext]
  | ok text =>
      have happend := firstLeft_append before (own.map (Reading.mk tree config))
        (cacheKey file.path file.role text)
      cases hfirst : firstLeft before (cacheKey file.path file.role text) with
      | none =>
          rw [hfirst, Option.none_or] at happend
          simp only [readAfter, htext, happend]
      | some contracts =>
          rw [hfirst, Option.some_or] at happend
          rcases extract_of_readAlike hbefore (halike file hfile) htext hfirst with
            ⟨hextract, r, hr, hrshown, hrrole⟩
          rw [readAfter_of_some htext happend]
          cases hself : firstLeft (own.map (Reading.mk tree config))
              (cacheKey file.path file.role text) with
          | none =>
              rw [readAfter_of_none htext hself, hextract]
          | some others =>
              -- the reading before tells what file of the module is shown so
              have hshown : forall g, g ∈ own -> g.path.text = file.path.text ->
                  g.role = file.role -> g.path = file.path := by
                intro g hg hgshown hgrole
                have hgpath := (halike g (hown g hg) r hr (hrshown.trans hgshown.symm)
                  (hrrole.trans hgrole.symm)).1
                exact hgpath.symm.trans (halike file hfile r hr hrshown hrrole).1
              have hagain := extract_of_own (fun g hg => hfiles g (hown g hg) file hfile) hshown
                htext hself
              rw [hextract] at hagain
              rw [readAfter_of_some htext hself, hagain]

theorem readEach_of_readAlike (hbefore : forall r, r ∈ before -> r.tree = tree)
    {files : List SourceFile} (hfiles : ToldApart files)
    (halike : forall f, f ∈ files -> ReadAlike before config f) (own : List SourceFile)
    {rest : List SourceFile} (hrest : forall f, f ∈ own ++ rest -> f ∈ files) :
    readEach tree config (before ++ own.map (Reading.mk tree config)) rest =
      readEach tree config (own.map (Reading.mk tree config)) rest := by
  induction rest generalizing own with
  | nil =>
      rfl
  | cons file rest ih =>
      have hfile : file ∈ files := hrest file (by simp)
      have hown : forall g, g ∈ own -> g ∈ files :=
        fun g hg => hrest g (List.mem_append_left _ hg)
      have hlater := ih (own ++ [file]) (by simpa using hrest)
      rw [List.map_append, ← List.append_assoc] at hlater
      rw [readEach, readEach, readAfter_of_readAlike hbefore hfiles halike hfile hown]
      exact congrArg (List.cons _) hlater

/-- A file whose path is a text is not mistaken for another file of its module. -/
theorem readAfter_append_own {files : List SourceFile} (hfiles : ToldApart files)
    (htexts : forall f, f ∈ files -> f.path.IsText) (readings : List Reading)
    (hfile : file ∈ files) (hown : forall g, g ∈ own -> g ∈ files) :
    readAfter tree (readings ++ own.map (Reading.mk tree config)) config file =
      readAfter tree readings config file := by
  cases htext : sourceText tree config file with
  | error e =>
      rw [readAfter_of_error htext, readAfter_of_error htext]
  | ok text =>
      have happend := firstLeft_append readings (own.map (Reading.mk tree config))
        (cacheKey file.path file.role text)
      cases hfirst : firstLeft readings (cacheKey file.path file.role text) with
      | some contracts =>
          rw [hfirst, Option.some_or] at happend
          rw [readAfter_of_some htext happend, readAfter_of_some htext hfirst]
      | none =>
          rw [hfirst, Option.none_or] at happend
          rw [readAfter_of_none htext hfirst]
          cases hself : firstLeft (own.map (Reading.mk tree config))
              (cacheKey file.path file.role text) with
          | none =>
              rw [hself] at happend
              rw [readAfter_of_none htext happend]
          | some contracts =>
              have hshown : forall g, g ∈ own -> g.path.text = file.path.text ->
                  g.role = file.role -> g.path = file.path := by
                intro g hg hgshown _
                exact RawText.eq_of_text_eq (htexts g (hown g hg)) (htexts file hfile) hgshown
              have hagain := extract_of_own (fun g hg => hfiles g (hown g hg) file hfile) hshown
                htext hself
              rw [hself] at happend
              rw [readAfter_of_some htext happend, hagain]

theorem readEach_of_texts (tree : Tree) (config : Config) {files : List SourceFile}
    (hfiles : ToldApart files) (htexts : forall f, f ∈ files -> f.path.IsText)
    (readings : List Reading) (own : List SourceFile) {rest : List SourceFile}
    (hrest : forall f, f ∈ own ++ rest -> f ∈ files) :
    readEach tree config (readings ++ own.map (Reading.mk tree config)) rest =
      rest.map fun f => ⟨f, readAfter tree readings config f, false⟩ := by
  induction rest generalizing own with
  | nil =>
      rfl
  | cons file rest ih =>
      have hfile : file ∈ files := hrest file (by simp)
      have hown : forall g, g ∈ own -> g ∈ files :=
        fun g hg => hrest g (List.mem_append_left _ hg)
      have hlater := ih (own ++ [file]) (by simpa using hrest)
      rw [List.map_append, ← List.append_assoc] at hlater
      rw [readEach, readAfter_append_own hfiles htexts readings hfile hown, List.map_cons]
      exact congrArg (List.cons _) hlater

end

end Workspace
end PayloadFlow
