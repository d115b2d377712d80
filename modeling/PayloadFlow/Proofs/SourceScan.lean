import Mathlib.Data.List.Nodup
import PayloadFlow.Proofs.FilePlaces
import PayloadFlow.Proofs.ModuleFiles

/-!
# Scans of a tree

A scan finds each file once.  What it finds is on disk, at the place of the directory
that is scanned with names after it, and comes in the order of the paths.
-/

namespace PayloadFlow
namespace Workspace
namespace Entry

/-!
# Proper trees
-/

theorem induction {P : Entry -> Prop} (hfile : forall content, P (.file content))
    (hdirectory : forall entries : List (RawText × Entry), (forall e, e ∈ entries -> P e.2) ->
      P (.directory entries)) (entry : Entry) : P entry := by
  refine @Entry.rec P (fun entries => forall e, e ∈ entries -> P e.2) (fun e => P e.2)
    hfile hdirectory ?_ ?_ ?_ entry
  · intro e he
    cases he
  · intro first rest hfirst hrest
    exact List.forall_mem_cons.mpr ⟨hfirst, hrest⟩
  · intro name entry hentry
    exact hentry

mutual

/-- Whether the entries of every directory stand under different names, each of which is
one step of a path. -/
def isProper : Entry -> Bool
  | .file _ => true
  | .directory entries => areProper entries

def areProper : List (RawText × Entry) -> Bool
  | [] => true
  | (name, entry) :: rest =>
      Path.isName name && !(rest.map (·.1)).contains name && entry.isProper && areProper rest

end

theorem areProper_cons_iff {name : RawText} {entry : Entry} {rest : List (RawText × Entry)} :
    areProper ((name, entry) :: rest) = true <->
      Path.isName name = true ∧ name ∉ rest.map (·.1) ∧ entry.isProper = true ∧
        areProper rest = true := by
  simp [areProper, and_assoc]

theorem nodup_of_areProper {entries : List (RawText × Entry)} (hproper : areProper entries = true) :
    (entries.map (·.1)).Nodup := by
  induction entries with
  | nil =>
      exact List.nodup_nil
  | cons e rest ih =>
      rcases areProper_cons_iff.mp hproper with ⟨_, hfresh, _, hrest⟩
      exact List.nodup_cons.mpr ⟨hfresh, ih hrest⟩

theorem proper_of_mem {entries : List (RawText × Entry)} (hproper : areProper entries = true)
    {e : RawText × Entry} (he : e ∈ entries) : Path.isName e.1 = true ∧ e.2.isProper = true := by
  induction entries with
  | nil =>
      cases he
  | cons first rest ih =>
      rcases areProper_cons_iff.mp hproper with ⟨hname, _, hentry, hrest⟩
      rcases List.mem_cons.mp he with rfl | he
      · exact ⟨hname, hentry⟩
      · exact ih hrest he

theorem child?_of_mem {entries : List (RawText × Entry)} (hproper : areProper entries = true)
    {e : RawText × Entry} (he : e ∈ entries) : child? e.1 (.directory entries) = some e.2 := by
  induction entries with
  | nil =>
      cases he
  | cons first rest ih =>
      rcases areProper_cons_iff.mp hproper with ⟨_, hfresh, _, hrest⟩
      rcases List.mem_cons.mp he with rfl | he
      · simp [child?]
      · have hne : first.1 ≠ e.1 := by
          intro hname
          rw [hname] at hfresh
          exact hfresh (List.mem_map_of_mem he)
        have hlater := ih hrest he
        simpa [child?, hne] using hlater

theorem isProper_of_child? {entry inner : Entry} {name : RawText} (hproper : entry.isProper = true)
    (hinner : entry.child? name = some inner) : inner.isProper = true := by
  cases entry with
  | file content =>
      cases hinner
  | directory entries =>
      rcases Option.map_eq_some_iff.mp hinner with ⟨e, he, rfl⟩
      exact (proper_of_mem hproper (List.mem_of_find?_eq_some he)).2

theorem isProper_of_lookup? {names : List RawText} {entry inner : Entry}
    (hproper : entry.isProper = true) (hinner : entry.lookup? names = some inner) :
    inner.isProper = true := by
  induction names generalizing entry with
  | nil =>
      cases hinner
      exact hproper
  | cons name names ih =>
      rw [lookup?] at hinner
      split at hinner
      · rename_i next hnext
        exact ih (isProper_of_child? hproper hnext) hinner
      · cases hinner

end Entry

namespace Tree

theorem isProper_of_follow {root : Tree} (hroot : root.isProper = true) {steps : List RawText}
    {place : List RawText} {here : Entry} (hhere : here.isProper = true)
    {reached : List RawText × Entry} (hfollow : root.follow place here steps = .ok reached) :
    reached.2.isProper = true := by
  induction steps generalizing place here with
  | nil =>
      cases hfollow
      exact hhere
  | cons step steps ih =>
      rcases exists_follow_cons hfollow with ⟨next, hstep, hrest⟩
      have hnext : next.2.isProper = true := by
        rcases follow_singleton hstep with ⟨_, rfl⟩ | ⟨_, around, haround, rfl⟩ |
          ⟨_, _, inner, hinner, rfl⟩
        · exact hhere
        · exact Entry.isProper_of_lookup? hroot haround
        · exact Entry.isProper_of_child? hhere hinner
      exact ih hnext hrest

theorem isProper_of_resolve {root : Tree} (hroot : root.isProper = true) {path : RawText}
    {reached : List RawText × Entry} (hpath : root.resolve path = .ok reached) :
    reached.2.isProper = true :=
  isProper_of_follow hroot hroot (follow_of_resolve hpath)

/-- A file below the directory that a path leads to is reached by the path with the names
of the file after it. -/
theorem fileAt?_join {root : Tree} {base : RawText} {place : List RawText} {here : Entry}
    (hbase : root.resolve base = .ok (place, here)) {names : List RawText} (hne : names ≠ [])
    (hnames : forall n, n ∈ names -> Path.isName n = true) {content : ByteArray}
    (hfile : here.lookup? names = some (.file content)) :
    root.fileAt? (Path.join base (Path.ofNames names)) = some (place ++ names) := by
  apply fileAt?_of_resolve
  rw [resolve_join hbase, Path.steps_ofNames hne hnames]
  exact follow_names root hnames hfile place

end Tree

/-!
# Files that are found
-/

def filesAt (levels : List IgnoreLevel) (place : List RawText) (e : RawText × Entry) :
    List (List RawText) :=
  if isLeftOut levels (place ++ [e.1]) e.1 e.2.isDirectory then []
  else if e.2.isDirectory then filesIn levels (place ++ [e.1]) e.2
  else [place ++ [e.1]]

theorem filesAmong_eq_flatMap (levels : List IgnoreLevel) (place : List RawText)
    (entries : List (RawText × Entry)) :
    filesAmong levels place entries = entries.flatMap (filesAt levels place) := by
  induction entries with
  | nil =>
      rw [filesAmong, List.flatMap_nil]
  | cons e rest ih =>
      rcases e with ⟨name, entry⟩
      cases entry with
      | file content =>
          rw [filesAmong, ih]
          rfl
      | directory entries =>
          rw [filesAmong, ih]
          rfl

theorem mem_filesAt {levels : List IgnoreLevel} {place found : List RawText} {e : RawText × Entry}
    (hfound : found ∈ filesAt levels place e) :
    (exists content, e.2 = .file content ∧ found = place ++ [e.1]) ∨
      found ∈ filesIn levels (place ++ [e.1]) e.2 := by
  rcases e with ⟨name, entry⟩
  unfold filesAt at hfound
  split at hfound
  · cases hfound
  · cases entry with
    | file content =>
        exact Or.inl ⟨content, rfl, List.mem_singleton.mp hfound⟩
    | directory entries =>
        exact Or.inr hfound

structure NamesFile (entry : Entry) (names : List RawText) : Prop where
  areNames : forall n, n ∈ names -> Path.isName n = true
  isFile : exists content, entry.lookup? names = some (.file content)

theorem NamesFile.cons {entries : List (RawText × Entry)} (hproper : Entry.areProper entries = true)
    {e : RawText × Entry} (he : e ∈ entries) {names : List RawText} (hnames : NamesFile e.2 names) :
    NamesFile (.directory entries) (e.1 :: names) := by
  rcases hnames with ⟨hareNames, content, hcontent⟩
  refine ⟨List.forall_mem_cons.mpr ⟨(Entry.proper_of_mem hproper he).1, hareNames⟩, content, ?_⟩
  rw [Entry.lookup?, Entry.child?_of_mem hproper he]
  exact hcontent

theorem exists_names_of_mem_filesIn {entry : Entry} (hproper : entry.isProper = true)
    {levels : List IgnoreLevel} {place found : List RawText}
    (hfound : found ∈ filesIn levels place entry) :
    exists names, found = place ++ names ∧ names ≠ [] ∧ NamesFile entry names := by
  induction entry using Entry.induction generalizing levels place with
  | hfile content =>
      rw [filesIn] at hfound
      cases hfound
  | hdirectory entries ih =>
      rw [filesIn, filesAmong_eq_flatMap] at hfound
      rcases List.mem_flatMap.mp hfound with ⟨e, he, hfound⟩
      rcases mem_filesAt hfound with ⟨content, hfile, rfl⟩ | hfound
      · have hnames : NamesFile e.2 [] := ⟨by simp, content, by rw [hfile, Entry.lookup?]⟩
        exact ⟨[e.1], rfl, by simp, hnames.cons hproper he⟩
      · have hentry := (Entry.proper_of_mem hproper he).2
        rcases ih e he hentry hfound with ⟨names, rfl, _, hnames⟩
        exact ⟨e.1 :: names, by simp, by simp, hnames.cons hproper he⟩

/-- What is found at an entry stands under its name. -/
theorem exists_of_mem_filesAt {levels : List IgnoreLevel} {place found : List RawText}
    {e : RawText × Entry} (hproper : e.2.isProper = true)
    (hfound : found ∈ filesAt levels place e) : exists names, found = place ++ e.1 :: names := by
  rcases mem_filesAt hfound with ⟨_, _, rfl⟩ | hfound
  · exact ⟨[], rfl⟩
  · rcases exists_names_of_mem_filesIn hproper hfound with ⟨names, rfl, _⟩
    exact ⟨names, by simp⟩

theorem nodup_filesIn {entry : Entry} (hproper : entry.isProper = true)
    (levels : List IgnoreLevel) (place : List RawText) : (filesIn levels place entry).Nodup := by
  induction entry using Entry.induction generalizing levels place with
  | hfile content =>
      rw [filesIn]
      exact List.nodup_nil
  | hdirectory entries ih =>
      rw [filesIn, filesAmong_eq_flatMap, List.nodup_flatMap]
      constructor
      · intro e he
        unfold filesAt
        split
        · exact List.nodup_nil
        · split
          · exact ih e he (Entry.proper_of_mem hproper he).2 _ _
          · exact List.nodup_singleton _
      · -- files at two entries differ in the name after the place
        have hdistinct := List.pairwise_map.mp (Entry.nodup_of_areProper hproper)
        refine hdistinct.imp_of_mem ?_
        intro e e' he he' hne found hfound hfound'
        rcases exists_of_mem_filesAt (Entry.proper_of_mem hproper he).2 hfound with ⟨names, h⟩
        rcases exists_of_mem_filesAt (Entry.proper_of_mem hproper he').2 hfound' with ⟨names', h'⟩
        rw [h, List.append_cancel_left_eq, List.cons.injEq] at h'
        exact hne h'.1

/-!
# Sources in order
-/

theorem placeLe_trans (a b c : List RawText) (hab : placeLe a b = true) (hbc : placeLe b c = true) :
    placeLe a c = true :=
  Std.TransCmp.isLE_trans hab hbc

theorem placeLe_total (a b : List RawText) : (placeLe a b || placeLe b a) = true := by
  have hswap : List.compareLex compare b a = (List.compareLex compare a b).swap :=
    Std.OrientedCmp.eq_swap
  unfold placeLe
  rw [hswap]
  cases List.compareLex compare a b with
  | lt => rfl
  | eq => rfl
  | gt => rfl

theorem sourcesBelow_eq_mergeSort (tree : Tree) (path : RawText) :
    sourcesBelow tree path = (placesBelow tree path).mergeSort placeLe := by
  unfold sourcesBelow placesBelow
  cases tree.resolve path with
  | ok reached =>
      rfl
  | error e =>
      exact List.mergeSort_nil.symm

structure IsSourceBelow (tree : Tree) (path : RawText) (names : List RawText) : Prop where
  ne_nil : names ≠ []
  areNames : forall n, n ∈ names -> Path.isName n = true
  path_ne_empty : path ≠ ""
  fileAt? : tree.fileAt? (Path.join path (Path.ofNames names)) =
    some (placeOf path ++ names)

theorem isSourceBelow_of_mem {tree : Tree} (htree : tree.isProper = true) {path : RawText}
    {names : List RawText} (hnames : names ∈ sourcesBelow tree path) :
    IsSourceBelow tree path names := by
  rw [sourcesBelow_eq_mergeSort, List.mem_mergeSort, placesBelow] at hnames
  cases hpath : tree.resolve path with
  | error e =>
      rw [hpath] at hnames
      cases hnames
  | ok reached =>
      rcases reached with ⟨place, here⟩
      rw [hpath] at hnames
      rcases List.mem_map.mp (List.mem_of_mem_filter hnames) with ⟨found, hfound, rfl⟩
      rcases exists_names_of_mem_filesIn (Tree.isProper_of_resolve htree hpath) hfound with
        ⟨names, rfl, hne, hareNames, content, hcontent⟩
      rw [List.drop_left]
      refine ⟨hne, hareNames, Tree.ne_empty_of_resolve hpath, ?_⟩
      rw [← Tree.place_of_resolve hpath]
      exact Tree.fileAt?_join hpath hne hareNames hcontent

theorem nodup_placesBelow {tree : Tree} (htree : tree.isProper = true) (path : RawText) :
    (placesBelow tree path).Nodup := by
  unfold placesBelow
  cases hpath : tree.resolve path with
  | error e =>
      exact List.nodup_nil
  | ok reached =>
      rcases reached with ⟨place, here⟩
      have hproper := Tree.isProper_of_resolve htree hpath
      refine List.Nodup.filter _ (List.Nodup.map_on ?_ (nodup_filesIn hproper _ _))
      intro found hfound found' hfound' hdrop
      rcases exists_names_of_mem_filesIn hproper hfound with ⟨names, rfl, _⟩
      rcases exists_names_of_mem_filesIn hproper hfound' with ⟨names', rfl, _⟩
      rw [List.drop_left, List.drop_left] at hdrop
      rw [hdrop]

theorem nodup_sourcesBelow {tree : Tree} (htree : tree.isProper = true) (path : RawText) :
    (sourcesBelow tree path).Nodup := by
  rw [sourcesBelow_eq_mergeSort, (List.mergeSort_perm _ _).nodup_iff]
  exact nodup_placesBelow htree path

theorem pairwise_sourcesBelow {tree : Tree} (htree : tree.isProper = true) (path : RawText) :
    (sourcesBelow tree path).Pairwise fun a b => List.compareLex compare a b = .lt := by
  have hsorted := List.pairwise_mergeSort placeLe_trans placeLe_total (placesBelow tree path)
  rw [← sourcesBelow_eq_mergeSort] at hsorted
  refine (hsorted.and (nodup_sourcesBelow htree path)).imp ?_
  intro a b hab
  rcases hab with ⟨hle, hne⟩
  unfold placeLe at hle
  cases hcompare : List.compareLex compare a b with
  | lt =>
      rfl
  | eq =>
      exact absurd (Std.LawfulEqCmp.eq_of_compare hcompare) hne
  | gt =>
      rw [hcompare] at hle
      cases hle

end Workspace
end PayloadFlow
