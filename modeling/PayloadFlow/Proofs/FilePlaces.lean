import Mathlib.Data.List.Basic
import PayloadFlow.Proofs.RawText
import PayloadFlow.Workspace.Tree

/-!
# Where paths lead

A path that goes on from another one is read step by step from where the first one
leads.  Names go down to the entries under them.  A tree has no links, so the place
that a path reaches can be read off the path, and two paths with the same steps never
reach two places.
-/

namespace PayloadFlow
namespace Path

/-!
# Cutting at slashes
-/

theorem cut_ne_nil (text : List UInt8) : cut text ≠ [] := by
  cases text with
  | nil =>
      simp [cut]
  | cons c rest =>
      rw [cut]
      split
      · simp
      · split
        · simp
        · simp

theorem cut_append_slash (front rest : List UInt8) :
    cut (front ++ slash :: rest) = cut front ++ cut rest := by
  induction front with
  | nil =>
      rcases List.exists_cons_of_ne_nil (cut_ne_nil rest) with ⟨step, steps, hrest⟩
      simp [cut, hrest]
  | cons c front ih =>
      rcases List.exists_cons_of_ne_nil (cut_ne_nil front) with ⟨step, steps, hfront⟩
      rw [List.cons_append, cut, ih, hfront, cut, hfront]
      simp only [List.cons_append]
      split
      · rfl
      · rfl

theorem cut_of_not_mem {text : List UInt8} (htext : slash ∉ text) : cut text = [text] := by
  induction text with
  | nil =>
      rfl
  | cons c rest ih =>
      rw [List.mem_cons, not_or] at htext
      have hc : (c == slash) = false := beq_false_of_ne (Ne.symm htext.1)
      simp [cut, ih htext.2, hc]

def isName (name : RawText) : Bool :=
  isStep name && name != parent && !name.bytes.contains slash

theorem isStep_of_isName {name : RawText} (hname : isName name = true) : isStep name = true := by
  rw [isName, Bool.and_eq_true, Bool.and_eq_true] at hname
  exact hname.1.1

theorem not_mem_of_isName {name : RawText} (hname : isName name = true) : slash ∉ name.bytes := by
  rw [isName, Bool.and_eq_true] at hname
  intro hmem
  simp [hmem] at hname

theorem ne_parent_of_isName {name : RawText} (hname : isName name = true) : name ≠ parent := by
  rw [isName, Bool.and_eq_true, Bool.and_eq_true, bne_iff_ne] at hname
  exact hname.1.2

theorem filter_isStep_of_names {names : List RawText}
    (hnames : forall n, n ∈ names -> isName n = true) : names.filter isStep = names := by
  rw [List.filter_eq_self]
  intro n hn
  exact isStep_of_isName (hnames n hn)

theorem steps_append_slash (front rest : RawText) :
    steps (front ++ top ++ rest) = steps front ++ steps rest := by
  have hbytes : (front ++ top ++ rest).bytes = front.bytes ++ slash :: rest.bytes := by simp [top]
  unfold steps
  rw [hbytes, cut_append_slash, List.map_append]

theorem steps_ofNames {names : List RawText} (hne : names ≠ [])
    (hnames : forall n, n ∈ names -> isName n = true) :
    steps (ofNames names) = names := by
  induction names with
  | nil =>
      exact absurd rfl hne
  | cons name names ih =>
      rcases List.forall_mem_cons.mp hnames with ⟨hname, hrest⟩
      have hfirst : steps name = [name] := by
        rw [steps, cut_of_not_mem (not_mem_of_isName hname)]
        rfl
      cases names with
      | nil =>
          have hsingle : ofNames [name] = name := by
            apply RawText.ext
            simp [ofNames, List.intercalate]
          rw [hsingle, hfirst]
      | cons next names =>
          rw [ofNames_cons_cons, steps_append_slash, hfirst, ih (List.cons_ne_nil next names) hrest]
          rfl

theorem slash_not_mem_of_mem_cut {text step : List UInt8} (hstep : step ∈ cut text) :
    slash ∉ step := by
  induction text generalizing step with
  | nil =>
      simp [cut] at hstep
      simp [hstep]
  | cons c rest ih =>
      rcases List.exists_cons_of_ne_nil (cut_ne_nil rest) with ⟨first, others, hrest⟩
      have hfirst : slash ∉ first := ih (by simp [hrest])
      have hothers : forall s, s ∈ others -> slash ∉ s := by
        intro s hs
        exact ih (by simp [hrest, hs])
      rw [cut, hrest] at hstep
      by_cases hc : (c == slash) = true
      · simp only [hc, if_true, List.mem_cons] at hstep
        rcases hstep with rfl | rfl | hstep
        · simp
        · exact hfirst
        · exact hothers step hstep
      · simp only [hc, if_false, List.mem_cons, Bool.false_eq_true] at hstep
        rcases hstep with rfl | hstep
        · have hne : slash ≠ c := by
            intro h
            exact hc (beq_iff_eq.mpr h.symm)
          simp [hne, hfirst]
        · exact hothers step hstep

theorem slash_not_mem_of_mem_steps {path step : RawText} (hstep : step ∈ steps path) :
    slash ∉ step.bytes := by
  rcases List.mem_map.mp hstep with ⟨bytes, hbytes, rfl⟩
  exact slash_not_mem_of_mem_cut hbytes

theorem top_not_mem_steps (path : RawText) : top ∉ steps path := by
  intro hmem
  exact slash_not_mem_of_mem_steps hmem (by simp [top])

/-!
# Paths that go on
-/

/-- The steps of a path that goes on from another one.  A slash at the end of the
first path does not count. -/
theorem exists_steps_join {base : RawText} (hbase : base ≠ .empty) :
    exists front, front ≠ [] ∧ (steps base = front ∨ steps base = front ++ [.empty]) ∧
      forall rest, steps (join base rest) = front ++ steps rest := by
  by_cases hslash : base.bytes.getLast? = some slash
  · rcases List.getLast?_eq_some_iff.mp hslash with ⟨initial, hinitial⟩
    have hfront : base = ⟨initial⟩ ++ top := RawText.ext hinitial
    refine ⟨steps ⟨initial⟩, ?_, Or.inr ?_, ?_⟩
    · simp [steps, cut_ne_nil]
    · have hsteps := steps_append_slash ⟨initial⟩ .empty
      have hempty : base ++ RawText.empty = base := RawText.ext (List.append_nil base.bytes)
      rw [← hfront, hempty] at hsteps
      exact hsteps
    · intro rest
      have hjoin : join base rest = base ++ rest := by simp [join, hslash]
      rw [hjoin, hfront, steps_append_slash]
  · refine ⟨steps base, by simp [steps, cut_ne_nil], Or.inl rfl, ?_⟩
    intro rest
    have hjoin : join base rest = base ++ top ++ rest := by simp [join, hbase, hslash]
    rw [hjoin, steps_append_slash]

theorem isAbsolute_join {base : RawText} (hbase : base ≠ .empty) (rest : RawText) :
    isAbsolute (join base rest) = isAbsolute base := by
  have hne : base.bytes ≠ [] := by
    intro hnil
    exact hbase (RawText.ext hnil)
  have hhead : forall more : List UInt8, (base.bytes ++ more).head? = base.bytes.head? := by
    intro more
    rw [List.head?_append_of_ne_nil _ hne]
  unfold isAbsolute join
  split
  · rw [RawText.bytes_append, hhead]
  · rw [RawText.bytes_append, RawText.bytes_append, List.append_assoc, hhead]

theorem components_join {base : RawText} (hbase : base ≠ .empty) (rest : RawText) :
    components (join base rest) = components base ++ (steps rest).filter isStep := by
  rcases exists_steps_join hbase with ⟨front, hfront, hsteps, hjoin⟩
  have hhead : (front ++ steps rest).head? = (steps base).head? := by
    rcases hsteps with hsteps | hsteps
    · rw [hsteps, List.head?_append_of_ne_nil _ hfront]
    · rw [hsteps, List.head?_append_of_ne_nil _ hfront, List.head?_append_of_ne_nil _ hfront]
  have hfilter : front.filter isStep = (steps base).filter isStep := by
    rcases hsteps with hsteps | hsteps
    · rw [hsteps]
    · rw [hsteps, List.filter_append]
      simp [isStep]
  unfold components
  rw [hjoin, isAbsolute_join hbase, hhead, List.filter_append, hfilter, List.append_assoc]

end Path

namespace Workspace

def nextPlace (place : List RawText) (step : RawText) : List RawText :=
  if step == Path.top || step == Path.here then place
  else if step == Path.parent then place.dropLast
  else place ++ [step]

theorem placeOf_eq_foldl (path : RawText) :
    placeOf path = ((Path.steps path).filter Path.isStep).foldl nextPlace [] := by
  show (Path.components path).foldl nextPlace [] = _
  unfold Path.components
  rw [List.foldl_append]
  split
  · rfl
  · split
    · rfl
    · rfl

theorem foldl_nextPlace_names {names : List RawText}
    (hnames : forall n, n ∈ names -> Path.isName n = true) (place : List RawText) :
    names.foldl nextPlace place = place ++ names := by
  induction names generalizing place with
  | nil =>
      simp
  | cons name names ih =>
      rcases List.forall_mem_cons.mp hnames with ⟨hname, hrest⟩
      have hkept : (name == Path.top || name == Path.here) = false := by
        have hslash : name ≠ Path.top := by
          intro h
          exact Path.not_mem_of_isName hname (by simp [h, Path.top])
        have hdot : name ≠ Path.here := by
          intro h
          simp [h, Path.isName, Path.isStep] at hname
        simp [hslash, hdot]
      have hparent : (name == Path.parent) = false :=
        beq_false_of_ne (Path.ne_parent_of_isName hname)
      rw [List.foldl_cons, ih hrest, nextPlace, hkept, hparent]
      simp

theorem placeOf_of_components {base path : RawText} {names : List RawText}
    (hnames : forall n, n ∈ names -> Path.isName n = true)
    (hpath : Path.components path = Path.components base ++ names) :
    placeOf path = placeOf base ++ names := by
  show (Path.components path).foldl nextPlace [] = _
  rw [hpath, List.foldl_append, foldl_nextPlace_names hnames]
  rfl

namespace Tree

/-!
# Following steps
-/

theorem follow_cons (root : Tree) (place : List RawText) (here : Entry) (step : RawText)
    (rest : List RawText) :
    root.follow place here (step :: rest) =
      (root.follow place here [step]).bind fun reached => root.follow reached.1 reached.2 rest := by
  simp only [follow]
  split
  · rfl
  · split
    · rfl
    · split
      · split
        · rfl
        · cases root.lookup? place.dropLast with
          | none => rfl
          | some around => rfl
      · cases here.child? step with
        | none => rfl
        | some inner => rfl

theorem exists_follow_cons {root : Tree} {place : List RawText} {here : Entry} {step : RawText}
    {rest : List RawText} {reached : List RawText × Entry}
    (hfollow : root.follow place here (step :: rest) = .ok reached) :
    exists next : List RawText × Entry, root.follow place here [step] = .ok next ∧
      root.follow next.1 next.2 rest = .ok reached := by
  rw [follow_cons] at hfollow
  cases hstep : root.follow place here [step] with
  | error e =>
      rw [hstep] at hfollow
      cases hfollow
  | ok next =>
      rw [hstep] at hfollow
      exact ⟨next, rfl, hfollow⟩

theorem follow_append (root : Tree) (place : List RawText) (here : Entry)
    (front rest : List RawText) :
    root.follow place here (front ++ rest) =
      (root.follow place here front).bind fun reached => root.follow reached.1 reached.2 rest := by
  induction front generalizing place here with
  | nil =>
      rfl
  | cons step front ih =>
      rw [List.cons_append, follow_cons, follow_cons root place here step front]
      cases root.follow place here [step] with
      | error e => rfl
      | ok reached => exact ih reached.1 reached.2

/-- What one step can do: stay, go back, or go down to an entry. -/
theorem follow_singleton {root : Tree} {place : List RawText} {here : Entry} {step : RawText}
    {reached : List RawText × Entry} (hfollow : root.follow place here [step] = .ok reached) :
    (Path.isStep step = false ∧ reached = (place, here)) ∨
    (step = Path.parent ∧ exists around, root.lookup? place.dropLast = some around ∧
      reached = (place.dropLast, around)) ∨
    (Path.isStep step = true ∧ step ≠ Path.parent ∧ exists inner, here.child? step = some inner ∧
      reached = (place ++ [step], inner)) := by
  unfold follow at hfollow
  split at hfollow
  · cases hfollow
  · by_cases hstay : (step == .empty || step == Path.here) = true
    · rw [if_pos hstay] at hfollow
      cases hfollow
      exact Or.inl ⟨by simpa [Path.isStep, or_iff_not_imp_left] using hstay, rfl⟩
    · rw [if_neg hstay] at hfollow
      have hstep : Path.isStep step = true := by
        simpa [Path.isStep, not_or] using hstay
      by_cases hparent : (step == Path.parent) = true
      · rw [if_pos hparent] at hfollow
        cases place with
        | nil =>
            cases hfollow
        | cons name names =>
            cases haround : root.lookup? (name :: names).dropLast with
            | none =>
                simp [haround] at hfollow
            | some around =>
                simp only [haround, follow, Except.ok.injEq] at hfollow
                exact Or.inr (Or.inl ⟨beq_iff_eq.mp hparent, around, rfl, hfollow.symm⟩)
      · rw [if_neg hparent] at hfollow
        cases hinner : here.child? step with
        | none =>
            simp [hinner] at hfollow
        | some inner =>
            simp only [hinner, follow, Except.ok.injEq] at hfollow
            exact Or.inr (Or.inr ⟨hstep, by simpa using hparent, inner, rfl, hfollow.symm⟩)

theorem follow_names (root : Tree) {names : List RawText}
    (hnames : forall n, n ∈ names -> Path.isName n = true) {here there : Entry}
    (hthere : here.lookup? names = some there) (place : List RawText) :
    root.follow place here names = .ok (place ++ names, there) := by
  induction names generalizing here place with
  | nil =>
      rw [Entry.lookup?, Option.some.injEq] at hthere
      rw [follow, hthere, List.append_nil]
  | cons name names ih =>
      rcases List.forall_mem_cons.mp hnames with ⟨hname, hrest⟩
      cases here with
      | file content =>
          simp [Entry.lookup?, Entry.child?] at hthere
      | directory entries =>
          cases hinner : Entry.child? name (.directory entries) with
          | none =>
              simp [Entry.lookup?, hinner] at hthere
          | some inner =>
              have hlater : inner.lookup? names = some there := by
                simpa [Entry.lookup?, hinner] using hthere
              have hstep : (name == .empty || name == Path.here) = false := by
                simpa [Path.isStep] using Path.isStep_of_isName hname
              have hparent : (name == Path.parent) = false :=
                beq_false_of_ne (Path.ne_parent_of_isName hname)
              have hfollow := ih hrest hlater (place ++ [name])
              rw [List.append_assoc, List.singleton_append] at hfollow
              simp only [follow, Entry.isDirectory, hstep, hparent, hinner]
              simpa using hfollow

theorem place_of_follow_singleton {root : Tree} {place : List RawText} {here : Entry}
    {step : RawText} (hslash : step ≠ Path.top) {reached : List RawText × Entry}
    (hfollow : root.follow place here [step] = .ok reached) :
    reached.1 = ([step].filter Path.isStep).foldl nextPlace place := by
  rcases follow_singleton hfollow with ⟨hstep, rfl⟩ | ⟨rfl, _, _, rfl⟩ | ⟨hstep, hparent, _, _, rfl⟩
  · simp [hstep]
  · rfl
  · have hdot : step ≠ Path.here := by
      intro h
      simp [h, Path.isStep] at hstep
    simp [hstep, nextPlace, hslash, hdot, hparent]

theorem place_of_follow {root : Tree} {steps : List RawText} (hsteps : Path.top ∉ steps)
    {place : List RawText} {here : Entry} {reached : List RawText × Entry}
    (hfollow : root.follow place here steps = .ok reached) :
    reached.1 = (steps.filter Path.isStep).foldl nextPlace place := by
  induction steps generalizing place here with
  | nil =>
      cases hfollow
      rfl
  | cons step steps ih =>
      rw [List.mem_cons, not_or] at hsteps
      rcases exists_follow_cons hfollow with ⟨next, hstep, hrest⟩
      rw [ih hsteps.2 hrest, place_of_follow_singleton (Ne.symm hsteps.1) hstep,
        ← List.foldl_append, ← List.filter_append, List.singleton_append]

theorem ne_empty_of_resolve {root : Tree} {path : RawText} {reached : List RawText × Entry}
    (hpath : root.resolve path = .ok reached) : path ≠ .empty := by
  intro hempty
  rw [hempty] at hpath
  cases hpath

theorem follow_of_resolve {root : Tree} {path : RawText} {reached : List RawText × Entry}
    (hpath : root.resolve path = .ok reached) :
    root.follow [] root (Path.steps path) = .ok reached := by
  rwa [resolve, if_neg (by simpa using ne_empty_of_resolve hpath)] at hpath

theorem place_of_resolve {root : Tree} {path : RawText} {place : List RawText} {there : Entry}
    (hpath : root.resolve path = .ok (place, there)) : place = placeOf path := by
  rw [placeOf_eq_foldl]
  exact place_of_follow (Path.top_not_mem_steps path) (follow_of_resolve hpath)

theorem resolve_join {root : Tree} {base : RawText} {place : List RawText} {here : Entry}
    (hbase : root.resolve base = .ok (place, here)) (rest : RawText) :
    root.resolve (Path.join base rest) = root.follow place here (Path.steps rest) := by
  have hne := ne_empty_of_resolve hbase
  replace hbase := follow_of_resolve hbase
  rcases Path.exists_steps_join hne with ⟨front, _, hsteps, hjoin⟩
  have hjoined : (Path.join base rest == .empty) = false := by
    have hbytes : base.bytes ≠ [] := by
      intro hnil
      exact hne (RawText.ext hnil)
    unfold Path.join
    split
    · simp [RawText.ext_iff, hbytes]
    · simp [RawText.ext_iff, hbytes]
  -- a slash at the end of the base leads nowhere else
  have hfront : root.follow [] root front = .ok (place, here) := by
    rcases hsteps with hsteps | hsteps
    · rw [← hsteps, hbase]
    · rw [hsteps, follow_append] at hbase
      cases hreached : root.follow [] root front with
      | error e =>
          rw [hreached] at hbase
          cases hbase
      | ok reached =>
          rw [hreached] at hbase
          rcases follow_singleton hbase with ⟨_, hstay⟩ | ⟨hparent, _⟩ | ⟨hstep, _⟩
          · rw [hstay]
          · exact absurd hparent (by decide)
          · simp [Path.isStep] at hstep
  rw [resolve, hjoined, hjoin, follow_append, hfront]
  rfl

def fileAt? (root : Tree) (path : RawText) : Option (List RawText) :=
  match root.resolve path with
  | .ok (place, .file _) => some place
  | _ => none

theorem fileAt?_of_resolve {root : Tree} {path : RawText} {place : List RawText}
    {content : ByteArray} (hpath : root.resolve path = .ok (place, .file content)) :
    root.fileAt? path = some place := by
  rw [fileAt?, hpath]

theorem fileAt?_of_isFile {root : Tree} {path : RawText} (hfile : root.isFile path = true) :
    root.fileAt? path = some (placeOf path) := by
  unfold isFile at hfile
  cases hpath : root.resolve path with
  | error e =>
      rw [hpath] at hfile
      cases hfile
  | ok reached =>
      rw [hpath] at hfile
      rcases reached with ⟨place, there⟩
      cases there with
      | file content =>
          rw [fileAt?_of_resolve hpath, place_of_resolve hpath]
      | directory entries =>
          cases hfile

end Tree
end Workspace
end PayloadFlow
