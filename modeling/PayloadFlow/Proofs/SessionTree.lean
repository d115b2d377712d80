import PayloadFlow.Proofs.SessionCache
import PayloadFlow.Proofs.SourceScan

/-!
# The trees of sessions

Whatever is asked of a session, the entries of its directories keep different names,
each of which is one step of a path.  So what is known about scans of such trees holds
in every session.
-/

namespace PayloadFlow
namespace Workspace
namespace Entry

/-!
# Changes of a tree
-/

theorem areProper_of_nodup {entries : List (RawText × Entry)} (hnodup : (entries.map (·.1)).Nodup)
    (hentries : forall e, e ∈ entries -> Path.isName e.1 = true ∧ e.2.isProper = true) :
    areProper entries = true := by
  induction entries with
  | nil =>
      rfl
  | cons e rest ih =>
      rcases List.forall_mem_cons.mp hentries with ⟨⟨hname, hentry⟩, hrest⟩
      rw [List.map_cons, List.nodup_cons] at hnodup
      exact areProper_cons_iff.mpr ⟨hname, hnodup.1, hentry, ih hnodup.2 hrest⟩

theorem mem_names_putChild {name other : RawText} {entry : Entry} {entries : List (RawText × Entry)}
    (hother : other ∈ (putChild name entry entries).map (·.1)) :
    other = name ∨ other ∈ entries.map (·.1) := by
  induction entries with
  | nil =>
      exact Or.inl (List.mem_singleton.mp hother)
  | cons e rest ih =>
      unfold putChild at hother
      split at hother
      · rcases List.mem_cons.mp hother with hother | hother
        · exact Or.inl hother
        · exact Or.inr (List.mem_cons_of_mem _ hother)
      · rcases List.mem_cons.mp hother with hother | hother
        · exact Or.inr (hother ▸ List.mem_cons_self)
        · rcases ih hother with hother | hother
          · exact Or.inl hother
          · exact Or.inr (List.mem_cons_of_mem _ hother)

theorem areProper_putChild {name : RawText} (hname : Path.isName name = true) {entry : Entry}
    (hentry : entry.isProper = true) {entries : List (RawText × Entry)}
    (hproper : areProper entries = true) : areProper (putChild name entry entries) = true := by
  induction entries with
  | nil =>
      exact areProper_cons_iff.mpr ⟨hname, by simp, hentry, rfl⟩
  | cons e rest ih =>
      rcases areProper_cons_iff.mp hproper with ⟨hold, hfresh, hinner, hrest⟩
      unfold putChild
      split
      · rename_i hsame
        rw [beq_iff_eq] at hsame
        exact areProper_cons_iff.mpr ⟨hname, hsame ▸ hfresh, hentry, hrest⟩
      · rename_i hother
        refine areProper_cons_iff.mpr ⟨hold, ?_, hinner, ih hrest⟩
        intro hmem
        rcases mem_names_putChild hmem with hsame | hmem
        · exact hother (beq_iff_eq.mpr hsame)
        · exact hfresh hmem

theorem areProper_entries {old : Option Entry}
    (hold : forall e, old = some e -> e.isProper = true) :
    areProper ((old.map entries).getD []) = true := by
  cases old with
  | none =>
      rfl
  | some e =>
      cases e with
      | file content =>
          rfl
      | directory entries =>
          exact hold _ rfl

theorem isProper_alter {change : Option Entry -> Entry}
    (hchange : forall old : Option Entry, (forall e, old = some e -> e.isProper = true) ->
      (change old).isProper = true)
    {names : List RawText} (hnames : forall n, n ∈ names -> Path.isName n = true)
    {old : Option Entry} (hold : forall e, old = some e -> e.isProper = true) :
    (alter change names old).isProper = true := by
  induction names generalizing old with
  | nil =>
      exact hchange old hold
  | cons name names ih =>
      rcases List.forall_mem_cons.mp hnames with ⟨hname, hrest⟩
      refine areProper_putChild hname (ih hrest ?_) (areProper_entries hold)
      intro inner hinner
      rcases Option.bind_eq_some_iff.mp hinner with ⟨e, he, hchild⟩
      exact isProper_of_child? (hold e he) hchild

theorem isProper_remove (names : List RawText) {entry : Entry} (hproper : entry.isProper = true) :
    (remove names entry).isProper = true := by
  induction names generalizing entry with
  | nil =>
      rw [remove]
      exact hproper
  | cons name names ih =>
      cases entry with
      | file content =>
          cases names with
          | nil => rfl
          | cons next names => rfl
      | directory entries =>
          have hnodup := nodup_of_areProper hproper
          cases names with
          | nil =>
              apply areProper_of_nodup
              · exact hnodup.sublist (List.filter_sublist.map _)
              · intro e he
                exact proper_of_mem hproper (List.mem_of_mem_filter he)
          | cons next names =>
              apply areProper_of_nodup
              · -- an entry that is changed keeps its name
                rw [List.map_map]
                refine (List.map_congr_left ?_ : _ = entries.map (·.1)) ▸ hnodup
                intro e _
                simp only [Function.comp_apply]
                split
                · rfl
                · rfl
              · intro e he
                rcases List.mem_map.mp he with ⟨old, hold, rfl⟩
                rcases proper_of_mem hproper hold with ⟨hname, hentry⟩
                split
                · exact ⟨hname, ih hentry⟩
                · exact ⟨hname, hentry⟩

end Entry

/-!
# Requests
-/

theorem isName_of_mem_nextPlace {place : List RawText}
    (hplace : forall n, n ∈ place -> Path.isName n = true) {step : RawText}
    (hstep : Path.isStep step = true) (hslash : Path.slash ∉ step.bytes) :
    forall n, n ∈ nextPlace place step -> Path.isName n = true := by
  intro n hn
  unfold nextPlace at hn
  split at hn
  · exact hplace n hn
  · split at hn
    · exact hplace n ((List.dropLast_sublist place).subset hn)
    · rename_i hparent
      rcases List.mem_append.mp hn with hn | hn
      · exact hplace n hn
      · rw [List.mem_singleton.mp hn]
        simp [Path.isName, hstep, hslash, beq_iff_eq] at hparent ⊢
        exact hparent

theorem isName_of_mem_foldl {steps place : List RawText}
    (hsteps : forall s, s ∈ steps -> Path.isStep s = true ∧ Path.slash ∉ s.bytes)
    (hplace : forall n, n ∈ place -> Path.isName n = true) :
    forall n, n ∈ steps.foldl nextPlace place -> Path.isName n = true := by
  induction steps generalizing place with
  | nil =>
      exact hplace
  | cons step steps ih =>
      rcases List.forall_mem_cons.mp hsteps with ⟨⟨hstep, hslash⟩, hrest⟩
      exact ih hrest (isName_of_mem_nextPlace hplace hstep hslash)

theorem isName_of_mem_placeOf {path name : RawText} (hname : name ∈ placeOf path) :
    Path.isName name = true := by
  rw [placeOf_eq_foldl] at hname
  refine isName_of_mem_foldl ?_ (by simp) name hname
  intro s hs
  rcases List.mem_filter.mp hs with ⟨hmem, hstep⟩
  exact ⟨hstep, Path.slash_not_mem_of_mem_steps hmem⟩

namespace Session

theorem isProper_write {tree : Tree} (htree : tree.isProper = true) (path : RawText)
    (content : ByteArray) : (tree.write (placeOf path) content).isProper = true := by
  refine Entry.isProper_alter ?_ (fun n hn => isName_of_mem_placeOf hn) ?_
  · intro old _
    rfl
  · intro e he
    cases he
    exact htree

theorem isProper_makeDirectory {tree : Tree} (htree : tree.isProper = true) (path : RawText) :
    (tree.makeDirectory (placeOf path)).isProper = true := by
  refine Entry.isProper_alter ?_ (fun n hn => isName_of_mem_placeOf hn) ?_
  · intro old hold
    exact Entry.areProper_entries hold
  · intro e he
    cases he
    exact htree

theorem isProper_handle {s : Session} (hs : s.tree.isProper = true) (r : Request) :
    (s.handle r).1.tree.isProper = true := by
  cases r with
  | write path content =>
      exact isProper_write hs path content
  | makeDirectory path =>
      exact isProper_makeDirectory hs path
  | remove path =>
      rw [handle]
      split
      · exact Entry.isProper_remove _ hs
      · exact hs
  | newCache => exact hs
  | validate path name config => exact hs
  | traced path name config => exact hs
  | validateAll modules => exact hs
  | discover path config => exact hs
  | readSource path displayPath maxBytes => exact hs
  | loadConfig directory => exact hs
  | extractFile file config => exact hs
  | cachePut key contracts => exact hs
  | cacheGet key => exact hs

theorem isProper_after {s : Session} (hs : s.tree.isProper = true) (requests : List Request) :
    (s.after requests).tree.isProper = true := by
  induction requests generalizing s with
  | nil =>
      exact hs
  | cons r rest ih =>
      rw [after_cons]
      exact ih (isProper_handle hs r)

theorem isProper_foldl_write {tree : Tree} (htree : tree.isProper = true)
    (files : List (RawText × ByteArray)) :
    (files.foldl (fun tree f => Entry.write (placeOf f.1) f.2 tree) tree).isProper = true := by
  induction files generalizing tree with
  | nil =>
      exact htree
  | cons f files ih =>
      exact ih (isProper_write htree f.1 f.2)

/-- The tree of a session is proper, whatever files it starts with and whatever is asked
of it. -/
theorem isProper_session (files : List (RawText × ByteArray)) (requests : List Request) :
    ((ofFiles files).after requests).tree.isProper = true :=
  isProper_after (isProper_foldl_write rfl files) requests

end Session
end Workspace
end PayloadFlow
