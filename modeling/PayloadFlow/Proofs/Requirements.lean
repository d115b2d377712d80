import PayloadFlow.Extract.Consumer.Requirements
import PayloadFlow.Proofs.Joining
import PayloadFlow.Proofs.Listing

/-!
# What the requirements say of the accesses

The lists of required and nested properties of a handler, read back into the
accesses that they were made from.
-/

namespace PayloadFlow
namespace Consumer

/-!
# Dotted paths
-/

theorem toList_dotted (path : List String) :
    (dotted path).toList = Text.joinWith ['.'] (path.map (·.toList)) := by
  simp [dotted]

theorem dotted_take_succ {path : List String} {depth : Nat} {name : String}
    (hdepth : 0 < depth) (hname : path[depth]? = some name) :
    dotted (path.take (depth + 1)) = dotted (path.take depth) ++ "." ++ name := by
  have hlength : depth < path.length := (List.getElem?_eq_some_iff.mp hname).1
  have hne : (path.take depth).map (·.toList) ≠ [] := by
    intro hnil
    have hzero := congrArg List.length hnil
    simp only [List.length_map, List.length_take, List.length_nil] at hzero
    omega
  apply String.toList_inj.mp
  rw [List.take_add_one, hname, toList_dotted, Option.toList_some, List.map_append,
    List.map_singleton, Text.joinWith_append_singleton _ _ _ hne, String.toList_append,
    String.toList_append, toList_dotted]
  rfl

/-- The text of a path before its first dot. -/
def rootOf (path : String) : String :=
  String.ofList (Text.before '.' path.toList)

theorem rootOf_fullPath (p : NestedProperty) : rootOf p.fullPath = p.root := by
  unfold rootOf NestedProperty.fullPath NestedProperty.root
  rw [String.toList_append, String.toList_append]
  exact congrArg String.ofList
    ((congrArg _ (List.append_assoc ..)).trans (Text.before_append '.' _ _))

theorem root_of_parentPath_eq {n q : NestedProperty} (hpath : q.parentPath = n.fullPath) :
    q.root = n.root := by
  rw [← rootOf_fullPath n, ← hpath]
  rfl

/-! ## Names without dots -/

/-- A name that can be told apart from its neighbours in a dotted path. -/
def DotFree (name : String) : Prop :=
  '.' ∉ name.toList

/-- Paths of names without dots can be read back from their text. -/
theorem dotted_inj {path other : List String} (hpath : path ≠ []) (hother : other ≠ [])
    (hpathDots : forall name, name ∈ path -> DotFree name)
    (hotherDots : forall name, name ∈ other -> DotFree name)
    (h : dotted path = dotted other) : path = other := by
  have hchars := congrArg String.toList h
  rw [toList_dotted, toList_dotted] at hchars
  have hwords := Text.joinWith_inj (by simpa using hpath) (by simpa using hother)
    (by simpa [DotFree] using hpathDots) (by simpa [DotFree] using hotherDots) hchars
  exact (List.map_inj_right fun _ _ => String.toList_inj.mp).mp hwords

theorem toList_dotted_cons (first second : String) (rest : List String) :
    (dotted (first :: second :: rest)).toList =
      first.toList ++ '.' :: (dotted (second :: rest)).toList := by
  rw [toList_dotted, toList_dotted, List.map_cons, List.map_cons, Text.joinWith_cons_cons]

/-- The first name of a path counts up to its first dot. -/
theorem rootOf_dotted_cons (first : String) (rest : List String) :
    rootOf (dotted (first :: rest)) = rootOf first := by
  unfold rootOf
  cases rest with
  | nil =>
      simp [toList_dotted, Text.joinWith]
  | cons second rest =>
      rw [toList_dotted_cons, Text.before_append]

theorem rootOf_eq_self_iff (name : String) : rootOf name = name <-> DotFree name := by
  unfold rootOf
  rw [← String.toList_inj, String.toList_ofList]
  exact Text.before_eq_self_iff '.' name.toList

theorem rootOf_of_dotFree {name : String} (hname : DotFree name) : rootOf name = name :=
  (rootOf_eq_self_iff name).mpr hname

theorem rootOf_dotted {first : String} (rest : List String) (hfirst : DotFree first) :
    rootOf (dotted (first :: rest)) = first := by
  rw [rootOf_dotted_cons, rootOf_of_dotFree hfirst]

/-!
# Summaries

The table of summaries has one entry for each first name of an access.  A fact
about an entry is a fact about one of the accesses that went into it.
-/

inductive Use where
  | defaulted
  | destructured
  | safe
  | fallback
  | guarded
  | tested
  | unconditional
  deriving DecidableEq, Repr

def Access.use (a : Access) : Use :=
  if a.destructured then
    if a.hasDefault && a.path.length == 1 then .defaulted
    else if !a.optional.head?.getD false then .destructured
    else .safe
  else if a.isSafe then .safe
  else
    match a.context with
    | .fallback => if a.path.length == 1 then .fallback else .unconditional
    | .test true => .guarded
    | .test false => if a.path.length == 1 then .tested else .unconditional
    | .plain => .unconditional

def Summary.mark (s : Summary) : Use -> Summary
  | .defaulted => { s with defaulted := true }
  | .destructured => { s with destructured := true }
  | .safe => { s with safe := true }
  | .fallback => { s with fallback := true }
  | .guarded => { s with guarded := true }
  | .tested => { s with tested := true }
  | .unconditional => { s with unconditional := true }

theorem Summary.noteUse_eq (s : Summary) (a : Access) : s.noteUse a = s.mark a.use := by
  unfold Summary.noteUse Access.use
  dsimp only
  cases a.destructured with
  | true =>
      simp only [↓reduceIte, apply_ite s.mark]
      rfl
  | false =>
      cases a.isSafe with
      | true =>
          rfl
      | false =>
          rcases a.context with _ | _ | _ | _ <;>
            simp only [Bool.false_eq_true, ↓reduceIte, apply_ite s.mark] <;> rfl

/-- The ways of use that show that the handler can do without the property. -/
def Use.protects : Use -> Bool
  | .defaulted | .fallback | .tested => true
  | .destructured | .safe | .guarded | .unconditional => false

theorem Summary.mark_direct (s : Summary) (u : Use) : (s.mark u).direct = s.direct := by
  cases u <;> rfl

theorem Summary.mark_protects (s : Summary) (u : Use) :
    (s.mark u).protects = (s.protects || u.protects) := by
  cases u <;> simp [Summary.mark, Summary.protects, Use.protects]

theorem Summary.notePath_direct (s : Summary) (a : Access) :
    (s.notePath a).direct = (s.direct || a.path.length == 1) := by
  unfold Summary.notePath
  cases htop : a.path.length == 1 with
  | true =>
      simp
  | false =>
      rw [Bool.or_false]
      simp only [Bool.false_eq_true, ↓reduceIte]
      split <;> rfl

theorem Summary.notePath_protects (s : Summary) (a : Access) :
    (s.notePath a).protects = s.protects := by
  unfold Summary.notePath
  split
  · rfl
  · split <;> rfl

theorem Summary.note_direct (s : Summary) (a : Access) :
    (s.note a).direct = (s.direct || a.path.length == 1) := by
  unfold Summary.note
  rw [Summary.notePath_direct, Summary.noteUse_eq, Summary.mark_direct]

theorem Summary.note_protects (s : Summary) (a : Access) :
    (s.note a).protects = (s.protects || a.use.protects) := by
  unfold Summary.note
  rw [Summary.notePath_protects, Summary.noteUse_eq, Summary.mark_protects]
  rfl

/-- Whether an access shows that the handler can do without the property it reads:
a pattern gives it a default, or it is read by name to be tested or replaced. -/
def Access.waives (a : Access) : Bool :=
  a.path.length == 1 &&
    if a.destructured then a.hasDefault
    else !a.isSafe && (a.context == .fallback || a.context == .test false)

theorem Access.protects_use (a : Access) : a.use.protects = a.waives := by
  unfold Access.use Access.waives
  cases htop : a.path.length == 1 with
  | true =>
      cases a.destructured <;> cases a.hasDefault <;> cases a.isSafe <;>
        cases a.optional.head?.getD false <;> rcases a.context with _ | _ | _ | _ <;> rfl
  | false =>
      cases a.destructured <;> cases a.isSafe <;> cases a.hasDefault <;>
        cases a.optional.head?.getD false <;> rcases a.context with _ | _ | _ | _ <;> rfl

/-! ## The table of summaries -/

def summaryFrom (name : String) : Option Summary -> List Access -> Option Summary
  | found, [] => found
  | found, a :: rest =>
      if a.path.head? = some name then
        summaryFrom name (some ((found.getD { line := a.line }).note a)) rest
      else summaryFrom name found rest

theorem summaryFrom_cons (name : String) (found : Option Summary) (a : Access)
    (rest : List Access) :
    summaryFrom name found (a :: rest) =
      if a.path.head? = some name then
        summaryFrom name (some ((found.getD { line := a.line }).note a)) rest
      else summaryFrom name found rest := rfl

theorem find?_noteAccess (name other : String) (a : Access) (table : List (String × Summary)) :
    Listing.find? name (noteAccess other a table) =
      if other = name then
        some (((Listing.find? name table).getD { line := a.line }).note a)
      else Listing.find? name table := by
  induction table with
  | nil =>
      simp [noteAccess, Listing.find?]
  | cons entry rest ih =>
      unfold noteAccess
      by_cases hentry : entry.1 = other
      · by_cases hname : other = name
        · simp [Listing.find?_cons, hentry, hname]
        · simp [Listing.find?_cons, hentry, hname]
      · by_cases hname : entry.1 = name
        · have hother : ¬ name = other := by
            intro h
            exact hentry (hname.trans h)
          simp [Listing.find?_cons, hname, hother, Ne.symm hother]
        · simp [Listing.find?_cons, hentry, hname, ih]

theorem keys_noteAccess (name : String) (a : Access) (table : List (String × Summary)) :
    Listing.keys (noteAccess name a table) =
      if name ∈ Listing.keys table then Listing.keys table
      else Listing.keys table ++ [name] := by
  induction table with
  | nil =>
      rfl
  | cons entry rest ih =>
      unfold noteAccess
      by_cases hentry : entry.1 = name
      · simp [hentry]
      · rw [beq_eq_false_iff_ne.mpr hentry]
        simp only [Bool.false_eq_true, ↓reduceIte, Listing.keys_cons, ih, List.mem_cons,
          Ne.symm hentry, false_or]
        split <;> rfl

theorem nodup_keys_noteAccess {name : String} {a : Access} {table : List (String × Summary)}
    (hkeys : (Listing.keys table).Nodup) :
    (Listing.keys (noteAccess name a table)).Nodup := by
  rw [keys_noteAccess]
  by_cases hmem : name ∈ Listing.keys table
  · rwa [if_pos hmem]
  · rw [if_neg hmem]
    exact (List.nodup_cons.mpr ⟨hmem, hkeys⟩).perm (List.perm_append_singleton _ _).symm

def noteNext (table : List (String × Summary)) (a : Access) : List (String × Summary) :=
  a.path.head?.elim table fun name => noteAccess name a table

theorem noteNext_of_head {a : Access} {name : String} (hhead : a.path.head? = some name)
    (table : List (String × Summary)) : noteNext table a = noteAccess name a table := by
  rw [noteNext, hhead, Option.elim_some]

theorem noteNext_of_empty {a : Access} (hhead : a.path.head? = none)
    (table : List (String × Summary)) : noteNext table a = table := by
  rw [noteNext, hhead, Option.elim_none]

theorem summaries_eq (accesses : List Access) :
    summaries accesses = accesses.foldl noteNext [] := by
  unfold summaries
  congr 1
  funext table a
  cases hhead : a.path.head? with
  | none => exact (noteNext_of_empty hhead table).symm
  | some name => exact (noteNext_of_head hhead table).symm

theorem nodup_keys_summaries (accesses : List Access) :
    (Listing.keys (summaries accesses)).Nodup := by
  have hfrom : forall (table : List (String × Summary)), (Listing.keys table).Nodup ->
      (Listing.keys (accesses.foldl noteNext table)).Nodup := by
    induction accesses with
    | nil =>
        intro table hkeys
        exact hkeys
    | cons a rest ih =>
        intro table hkeys
        rw [List.foldl_cons]
        cases hhead : a.path.head? with
        | none =>
            rw [noteNext_of_empty hhead]
            exact ih table hkeys
        | some name =>
            rw [noteNext_of_head hhead]
            exact ih _ (nodup_keys_noteAccess hkeys)
  rw [summaries_eq]
  exact hfrom [] List.nodup_nil

theorem find?_summaries (name : String) (accesses : List Access) :
    Listing.find? name (summaries accesses) = summaryFrom name none accesses := by
  -- The table is built up from the left, so the induction is over any table.
  have hfrom : forall (table : List (String × Summary)),
      Listing.find? name (accesses.foldl noteNext table) =
        summaryFrom name (Listing.find? name table) accesses := by
    induction accesses with
    | nil =>
        intro table
        rfl
    | cons a rest ih =>
        intro table
        rw [List.foldl_cons, ih, summaryFrom_cons]
        cases hhead : a.path.head? with
        | none =>
            simp [noteNext_of_empty hhead]
        | some other =>
            rw [noteNext_of_head hhead, find?_noteAccess]
            by_cases hname : other = name
            · simp [hname]
            · simp [hname]
  rw [summaries_eq]
  exact hfrom []

/-- A fact that the first access gives and each other one adds or leaves as it is
holds in the end if it held at the start or if one of the accesses gives it. -/
theorem any_summaryFrom_of_first (flag : Summary -> Bool) (adds : Access -> Bool)
    (hfirst : forall a : Access, flag (Summary.note { line := a.line } a) = adds a)
    (hnote : forall s a, flag (s.note a) = (flag s || adds a))
    (name : String) (found : Option Summary) (accesses : List Access) :
    (summaryFrom name found accesses).any flag = true <->
      found.any flag = true ∨
        exists a, a ∈ accesses ∧ a.path.head? = some name ∧ adds a = true := by
  induction accesses generalizing found with
  | nil =>
      simp [summaryFrom]
  | cons a rest ih =>
      rw [summaryFrom_cons]
      by_cases hhead : a.path.head? = some name
      · rw [if_pos hhead, ih]
        cases found with
        | none =>
            simp [hfirst, hhead]
        | some s =>
            simp [hnote, hhead, or_assoc]
      · rw [if_neg hhead, ih]
        simp [hhead]

/-- A fact that each access adds to a summary or leaves as it is holds in the end
if it held at the start or if one of the accesses to the property adds it. -/
theorem any_summaryFrom (flag : Summary -> Bool) (adds : Access -> Bool)
    (hstart : forall line, flag { line } = false)
    (hnote : forall s a, flag (s.note a) = (flag s || adds a))
    (name : String) (found : Option Summary) (accesses : List Access) :
    (summaryFrom name found accesses).any flag = true <->
      found.any flag = true ∨
        exists a, a ∈ accesses ∧ a.path.head? = some name ∧ adds a = true := by
  apply any_summaryFrom_of_first flag adds _ hnote
  intro a
  rw [hnote, hstart, Bool.false_or]

theorem isSome_summaryFrom (name : String) (found : Option Summary) (accesses : List Access) :
    (summaryFrom name found accesses).isSome = true <->
      found.isSome = true ∨ exists a, a ∈ accesses ∧ a.path.head? = some name := by
  induction accesses generalizing found with
  | nil =>
      simp [summaryFrom]
  | cons a rest ih =>
      rw [summaryFrom_cons]
      by_cases hhead : a.path.head? = some name
      · rw [if_pos hhead, ih]
        simp [hhead]
      · rw [if_neg hhead, ih]
        simp [hhead]

theorem mem_summaries_iff (name : String) (s : Summary) (accesses : List Access) :
    (name, s) ∈ summaries accesses <-> summaryFrom name none accesses = some s := by
  rw [← find?_summaries, Listing.find?_eq_some_iff_mem (nodup_keys_summaries accesses)]

/-! ## Required properties -/

theorem path_eq_singleton_iff (a : Access) (name : String) :
    a.path.head? = some name ∧ a.path.length = 1 <-> a.path = [name] := by
  cases hpath : a.path with
  | nil =>
      simp
  | cons first rest =>
      cases rest with
      | nil =>
          simp
      | cons second rest =>
          simp

theorem mem_required_iff (accesses : List Access) (r : RequiredProperty) :
    r ∈ (Requirements.ofAccesses accesses).required <->
      exists s, summaryFrom r.name none accesses = some s ∧ s.required = true ∧
        r = Requirements.requiredProperty (r.name, s) := by
  simp only [Requirements.ofAccesses, List.mem_mergeSort, List.mem_map, List.mem_filter]
  constructor
  · rintro ⟨⟨name, s⟩, ⟨hentry, hrequired⟩, rfl⟩
    exact ⟨s, (mem_summaries_iff name s accesses).mp hentry, hrequired, rfl⟩
  · rintro ⟨s, hsummary, hrequired, hr⟩
    exact ⟨(r.name, s), ⟨(mem_summaries_iff r.name s accesses).mpr hsummary, hrequired⟩,
      hr.symm⟩

theorem mem_keys_summaries_iff (accesses : List Access) (name : String) :
    name ∈ Listing.keys (summaries accesses) <->
      exists a, a ∈ accesses ∧ a.path.head? = some name := by
  have hsome := isSome_summaryFrom name none accesses
  simp only [Option.isSome_none, Bool.false_eq_true, false_or] at hsome
  rw [← hsome, Option.isSome_iff_exists, Listing.keys, List.mem_map]
  constructor
  · rintro ⟨⟨other, s⟩, hentry, rfl⟩
    exact ⟨s, (mem_summaries_iff other s accesses).mp hentry⟩
  · rintro ⟨s, hs⟩
    exact ⟨(name, s), (mem_summaries_iff name s accesses).mpr hs, rfl⟩

def Requirements.names (r : Requirements) : List String :=
  r.required.map (·.name) ++ r.optional.map (·.name)

theorem names_perm (accesses : List Access) :
    (Requirements.ofAccesses accesses).names.Perm (Listing.keys (summaries accesses)) := by
  have hrequired := (List.mergeSort_perm (((summaries accesses).filter fun entry =>
    entry.2.required).map Requirements.requiredProperty) fun a b => a.line ≤ b.line).map
      (·.name)
  have hoptional := (List.mergeSort_perm (((summaries accesses).filter fun entry =>
    !entry.2.required).map Requirements.optionalProperty) fun a b => a.line ≤ b.line).map
      (·.name)
  rw [List.map_map] at hrequired hoptional
  refine (hrequired.append hoptional).trans ?_
  have hparts := (List.filter_append_perm (fun entry : String × Summary => entry.2.required)
    (summaries accesses)).map (·.1)
  rwa [List.map_append] at hparts

theorem mem_names_iff (accesses : List Access) (name : String) :
    name ∈ (Requirements.ofAccesses accesses).names <->
      exists a, a ∈ accesses ∧ a.path.head? = some name := by
  rw [(names_perm accesses).mem_iff, mem_keys_summaries_iff]

theorem exists_access_of_mem_required {accesses : List Access} {r : RequiredProperty}
    (hr : r ∈ (Requirements.ofAccesses accesses).required) :
    exists a, a ∈ accesses ∧ a.path.head? = some r.name :=
  (mem_names_iff accesses r.name).mp (List.mem_append_left _ (List.mem_map_of_mem hr))

/-- A required property counts as nested unless some access reads it by name. -/
theorem isNested_eq_false_iff {accesses : List Access} {r : RequiredProperty}
    (hr : r ∈ (Requirements.ofAccesses accesses).required) :
    r.isNested = false <-> exists a, a ∈ accesses ∧ a.path = [r.name] := by
  rcases (mem_required_iff accesses r).mp hr with ⟨s, hsummary, _, hproperty⟩
  have hdirect := any_summaryFrom (·.direct) (·.path.length == 1) (fun _ => rfl)
    Summary.note_direct r.name none accesses
  rw [hsummary] at hdirect
  have hnested : r.isNested = !s.direct := by
    rw [hproperty]
    rfl
  rw [hnested, Bool.not_eq_false']
  simpa [path_eq_singleton_iff] using hdirect

/-!
# Nested properties

A nested property stands for a step of one of the accesses, and it is required if
one of the accesses that make this step allows for no absence on the way.
-/

def Access.text (a : Access) : String :=
  dotted a.path

/-- None of the steps of an access allows for absence. -/
def Access.IsPlain (a : Access) : Prop :=
  forall o, o ∈ a.optional.take a.path.length -> o = false

/-- Some access goes on below the object at a path. -/
def Continued (accesses : List Access) (path : String) : Prop :=
  exists a, a ∈ accesses ∧
    exists depth, 0 < depth ∧ depth < a.path.length ∧ dotted (a.path.take depth) = path

/-- Some access shows that the handler can do without a property. -/
def Waived (accesses : List Access) (name : String) : Prop :=
  exists a, a ∈ accesses ∧ a.path.head? = some name ∧ a.waives = true

theorem nestedOrder_eq {a b : NestedKey} (h : nestedOrder a b = .eq) : a = b := by
  unfold nestedOrder at h
  rw [Ordering.then_eq_eq] at h
  exact Prod.ext (Std.LawfulEqOrd.eq_of_compare h.1) (Std.LawfulEqOrd.eq_of_compare h.2)

theorem mem_nestedUses_iff (a : Access) (entry : NestedKey × NestedUse) :
    entry ∈ nestedUses a <->
      exists depth name, 0 < depth ∧ a.path[depth]? = some name ∧
        entry = ((dotted (a.path.take depth), name),
          ⟨!(a.optional.take (depth + 1)).any fun o => o, a.line⟩) := by
  unfold nestedUses
  simp only [List.mem_filterMap, List.mem_range, Option.map_eq_some_iff]
  constructor
  · rintro ⟨i, hi, name, hname, rfl⟩
    exact ⟨i + 1, name, Nat.succ_pos i, hname, rfl⟩
  · rintro ⟨depth, name, hdepth, hname, rfl⟩
    have hlength : depth < a.path.length := (List.getElem?_eq_some_iff.mp hname).1
    cases depth with
    | zero =>
        exact absurd hdepth (Nat.lt_irrefl 0)
    | succ i =>
        exact ⟨i, by omega, name, hname, rfl⟩

/-- What holds of an entry of the table holds of one of the steps it was made
from, and the other way round. -/
theorem exists_mem_nestedTable {P : NestedUse -> Prop}
    (hmerge : forall (u old : NestedUse), P (u.merge (some old)) <-> P old ∨ P u)
    (accesses : List Access) (k : NestedKey) :
    (exists e, e ∈ nestedTable accesses ∧ e.1 = k ∧ P e.2) <->
      exists a, a ∈ accesses ∧ exists e, e ∈ nestedUses a ∧ e.1 = k ∧ P e.2 := by
  have hfrom : forall (uses table : List (NestedKey × NestedUse)),
      (exists e, e ∈ uses.foldl
        (fun table entry => Listing.alterBy nestedOrder entry.1 entry.2.merge table) table ∧
          e.1 = k ∧ P e.2) <->
        (exists e, e ∈ uses ∧ e.1 = k ∧ P e.2) ∨ exists e, e ∈ table ∧ e.1 = k ∧ P e.2 := by
    intro uses
    induction uses with
    | nil =>
        intro table
        simp
    | cons entry rest ih =>
        intro table
        rw [List.foldl_cons, ih,
          Listing.exists_mem_alterBy (fun _ _ => nestedOrder_eq) entry.1 entry.2.merge
            (fun old => hmerge entry.2 old)]
        simp only [List.mem_cons, or_and_right, exists_or, exists_eq_left]
        rw [← or_assoc, or_comm (b := k = entry.1 ∧ _), eq_comm (a := k)]
        rfl
  have hall := hfrom (accesses.flatMap nestedUses) []
  simp only [List.mem_flatMap] at hall
  unfold nestedTable
  rw [hall]
  constructor
  · rintro (⟨e, ⟨a, ha, he⟩, hk⟩ | ⟨e, he, _⟩)
    · exact ⟨a, ha, e, he, hk⟩
    · cases he
  · rintro ⟨a, ha, e, he, hk⟩
    exact Or.inl ⟨e, ⟨a, ha, he⟩, hk⟩

theorem mem_nested_iff (accesses : List Access) (p : NestedProperty) :
    p ∈ (Requirements.ofAccesses accesses).nested <->
      exists e, e ∈ nestedTable accesses ∧ nestedProperty (summaries accesses) e = p := by
  simp [Requirements.ofAccesses]

theorem waived_iff (accesses : List Access) (name : String) :
    (Listing.find? name (summaries accesses)).any (·.protects) = true <->
      Waived accesses name := by
  have hprotects := any_summaryFrom (·.protects) (·.use.protects) (fun _ => rfl)
    Summary.note_protects name none accesses
  rw [find?_summaries, hprotects]
  simp [Waived, Access.protects_use]

theorem exists_parentPath_iff (accesses : List Access) (path : String) :
    (exists q, q ∈ (Requirements.ofAccesses accesses).nested ∧ q.parentPath = path) <->
      Continued accesses path := by
  have hkeys := fun k => exists_mem_nestedTable (P := fun _ => True) (by simp) accesses k
  constructor
  · rintro ⟨q, hq, hpath⟩
    rcases (mem_nested_iff accesses q).mp hq with ⟨e, he, rfl⟩
    rcases (hkeys e.1).mp ⟨e, he, rfl, trivial⟩ with ⟨a, ha, entry, hentry, hkey, _⟩
    rcases (mem_nestedUses_iff a entry).mp hentry with ⟨depth, name, hdepth, hname, rfl⟩
    refine ⟨a, ha, depth, hdepth, (List.getElem?_eq_some_iff.mp hname).1, ?_⟩
    exact (congrArg Prod.fst hkey).trans hpath
  · rintro ⟨a, ha, depth, hdepth, hlength, rfl⟩
    have hentry := (mem_nestedUses_iff a _).mpr
      ⟨depth, a.path[depth], hdepth, List.getElem?_eq_getElem hlength, rfl⟩
    rcases (hkeys _).mpr ⟨a, ha, _, hentry, rfl, trivial⟩ with ⟨e, he, hkey, _⟩
    refine ⟨_, (mem_nested_iff accesses _).mpr ⟨e, he, rfl⟩, ?_⟩
    exact congrArg Prod.fst hkey

theorem nestedProperty_isRequired_iff (accesses : List Access) (e : NestedKey × NestedUse) :
    (nestedProperty (summaries accesses) e).isRequired = true <->
      e.2.isRequired = true ∧
        ¬ Waived accesses (nestedProperty (summaries accesses) e).root := by
  rw [← waived_iff]
  simp [nestedProperty, NestedProperty.root]

theorem exists_required_mem_nestedTable (accesses : List Access) (k : NestedKey) :
    (exists e, e ∈ nestedTable accesses ∧ e.1 = k ∧ e.2.isRequired = true) <->
      exists a, a ∈ accesses ∧
        exists e, e ∈ nestedUses a ∧ e.1 = k ∧ e.2.isRequired = true :=
  exists_mem_nestedTable (P := fun u => u.isRequired = true)
    (fun u old => by simp [NestedUse.merge]) accesses k

theorem fullPath_of_key (accesses : List Access) {a : Access} {e : NestedKey × NestedUse}
    {depth : Nat} {name : String} (hdepth : 0 < depth) (hname : a.path[depth]? = some name)
    (hkey : (dotted (a.path.take depth), name) = e.1) :
    (nestedProperty (summaries accesses) e).fullPath = dotted (a.path.take (depth + 1)) := by
  rw [dotted_take_succ hdepth hname]
  show e.1.1 ++ "." ++ e.1.2 = _
  rw [← hkey]

/-- The deepest paths that are required are the paths of the plain accesses that no
access goes on from, unless the handler can do without their first property. -/
theorem exists_required_deepest_iff (accesses : List Access) (Q : String -> Prop) :
    (exists p, p ∈ (Requirements.ofAccesses accesses).nested ∧ p.isRequired = true ∧
        ¬ Continued accesses p.fullPath ∧ Q p.fullPath) <->
      exists a, a ∈ accesses ∧ 1 < a.path.length ∧ a.IsPlain ∧
        ¬ Continued accesses a.text ∧ ¬ Waived accesses (rootOf a.text) ∧ Q a.text := by
  constructor
  · rintro ⟨p, hp, hrequired, hdeepest, hQ⟩
    rcases (mem_nested_iff accesses p).mp hp with ⟨e, he, rfl⟩
    rcases (nestedProperty_isRequired_iff accesses e).mp hrequired with ⟨heRequired, hwaived⟩
    rcases (exists_required_mem_nestedTable accesses e.1).mp ⟨e, he, rfl, heRequired⟩
      with ⟨a, ha, entry, hentry, hkey, huse⟩
    rcases (mem_nestedUses_iff a entry).mp hentry with ⟨depth, name, hdepth, hname, rfl⟩
    have hlength : depth < a.path.length := (List.getElem?_eq_some_iff.mp hname).1
    have hfull := fullPath_of_key accesses hdepth hname hkey
    -- The access itself would go on from a path that is not its last one.
    have hlast : depth + 1 = a.path.length := by
      by_cases hshorter : depth + 1 < a.path.length
      · exact absurd ⟨a, ha, depth + 1, Nat.succ_pos depth, hshorter, hfull.symm⟩ hdeepest
      · omega
    have htext : (nestedProperty (summaries accesses) e).fullPath = a.text := by
      rw [hfull, hlast, List.take_length]
      rfl
    rw [← rootOf_fullPath, htext] at hwaived
    rw [htext] at hdeepest hQ
    refine ⟨a, ha, by omega, ?_, hdeepest, hwaived, hQ⟩
    intro o ho
    rw [← hlast] at ho
    simp only [Bool.not_eq_true', List.any_eq_false] at huse
    simpa using huse o ho
  · rintro ⟨a, ha, hlength, hplain, hdeepest, hwaived, hQ⟩
    have hlast : a.path.length - 1 + 1 = a.path.length := by omega
    have hname : a.path[a.path.length - 1]? = some (a.path[a.path.length - 1]) :=
      List.getElem?_eq_getElem (by omega)
    have hentry := (mem_nestedUses_iff a _).mpr ⟨a.path.length - 1, _, by omega, hname, rfl⟩
    have huse : (!(a.optional.take (a.path.length - 1 + 1)).any fun o => o) = true := by
      rw [hlast, Bool.not_eq_true', List.any_eq_false]
      intro o ho
      rw [hplain o ho]
      exact Bool.false_ne_true
    rcases (exists_required_mem_nestedTable accesses _).mpr
      ⟨a, ha, _, hentry, rfl, huse⟩ with ⟨e, he, hkey, heRequired⟩
    have htext : (nestedProperty (summaries accesses) e).fullPath = a.text := by
      rw [fullPath_of_key accesses (by omega) hname hkey.symm, hlast, List.take_length]
      rfl
    refine ⟨_, (mem_nested_iff accesses _).mpr ⟨e, he, rfl⟩, ?_, ?_, ?_⟩
    · rw [nestedProperty_isRequired_iff, ← rootOf_fullPath, htext]
      exact ⟨heRequired, hwaived⟩
    · rwa [htext]
    · rwa [htext]

end Consumer
end PayloadFlow
