import Mathlib.Data.String.Basic
import PayloadFlow.Listing

/-!
# Laws of tables and of lists without repetition

Which keys a table has after an entry was put into it, and which entries are
left when only the first one with each key is kept, and sets of names.
-/

namespace PayloadFlow
namespace Listing

variable {κ α : Type}

/-!
# Keys of tables
-/

def keys (table : List (κ × α)) : List κ :=
  table.map (·.1)

@[simp] theorem keys_nil : keys ([] : List (κ × α)) = [] := rfl

@[simp] theorem keys_cons (entry : κ × α) (table : List (κ × α)) :
    keys (entry :: table) = entry.1 :: keys table := rfl

theorem any_key_iff (name : String) (table : List (String × α)) :
    (table.any fun entry => entry.1 == name) = true <-> name ∈ keys table := by
  induction table with
  | nil =>
      simp
  | cons entry rest ih =>
      rw [List.any_cons, Bool.or_eq_true, beq_iff_eq, ih, keys_cons, List.mem_cons]
      exact or_congr_left eq_comm

/-- What holds of a value in a table after a change: a property that passes from
an old value or from a new one to the two put together. -/
theorem exists_mem_alterBy {cmp : κ -> κ -> Ordering}
    (hcmp : forall a b, cmp a b = .eq -> a = b) {P : α -> Prop}
    (key : κ) (value : Option α -> α)
    (hvalue : forall old, P (value (some old)) <-> P old ∨ P (value none))
    (table : List (κ × α)) (k : κ) :
    (exists e, e ∈ alterBy cmp key value table ∧ e.1 = k ∧ P e.2) <->
      (k = key ∧ P (value none)) ∨ exists e, e ∈ table ∧ e.1 = k ∧ P e.2 := by
  induction table with
  | nil =>
      simp [alterBy, eq_comm]
  | cons entry rest ih =>
      unfold alterBy
      cases hc : cmp key entry.1 with
      | lt =>
          simp only [List.mem_cons, or_and_right, exists_or, exists_eq_left]
          exact or_congr_left (and_congr_left' eq_comm)
      | eq =>
          have hkey := hcmp key entry.1 hc
          simp only [List.mem_cons, or_and_right, exists_or, exists_eq_left, hvalue, hkey]
          rw [and_or_left, ← or_assoc, or_comm (a := k = entry.1 ∧ _), eq_comm (a := k)]
      | gt =>
          simp only [List.mem_cons, or_and_right, exists_or, exists_eq_left, ih]
          exact or_left_comm

theorem mem_keys_alterBy {cmp : κ -> κ -> Ordering}
    (hcmp : forall a b, cmp a b = .eq -> a = b)
    (key : κ) (value : Option α -> α) (table : List (κ × α)) (k : κ) :
    k ∈ keys (alterBy cmp key value table) <-> k = key ∨ k ∈ keys table := by
  have hentry := exists_mem_alterBy hcmp (P := fun _ => True) key value
    (fun _ => by simp) table k
  simpa [keys] using hentry

/-- A table in increasing order of its keys stays in order. -/
theorem pairwise_alterBy {cmp : κ -> κ -> Ordering} [Std.TransCmp cmp]
    (hcmp : forall a b, cmp a b = .eq -> a = b) (key : κ) (value : Option α -> α)
    {table : List (κ × α)} (htable : (keys table).Pairwise fun a b => cmp a b = .lt) :
    (keys (alterBy cmp key value table)).Pairwise fun a b => cmp a b = .lt := by
  induction table with
  | nil =>
      exact List.pairwise_singleton _ _
  | cons entry rest ih =>
      rw [keys_cons, List.pairwise_cons] at htable
      unfold alterBy
      cases hc : cmp key entry.1 with
      | lt =>
          refine List.pairwise_cons.mpr ⟨?_, List.pairwise_cons.mpr htable⟩
          intro k hk
          rcases List.mem_cons.mp hk with rfl | hk
          · exact hc
          · exact Std.TransCmp.lt_trans hc (htable.1 k hk)
      | eq =>
          refine List.pairwise_cons.mpr ⟨?_, htable.2⟩
          intro k hk
          rw [hcmp key entry.1 hc]
          exact htable.1 k hk
      | gt =>
          refine List.pairwise_cons.mpr ⟨?_, ih htable.2⟩
          intro k hk
          rcases (mem_keys_alterBy hcmp key value rest k).mp hk with rfl | hk
          · exact Std.OrientedCmp.gt_iff_lt.mp hc
          · exact htable.1 k hk

theorem nodup_of_pairwise_lt {cmp : κ -> κ -> Ordering} [Std.OrientedCmp cmp] {ks : List κ}
    (hks : ks.Pairwise fun a b => cmp a b = .lt) : ks.Nodup := by
  refine hks.imp ?_
  intro a b hlt hab
  have hself : cmp b b = .eq := Std.ReflCmp.compare_self
  rw [hab, hself] at hlt
  cases hlt

theorem mem_keys_insert (name : String) (value : α) (table : List (String × α))
    (k : String) :
    k ∈ keys (insert name value table) <-> k = name ∨ k ∈ keys table :=
  mem_keys_alterBy (fun _ _ => Std.LawfulEqOrd.eq_of_compare) name (fun _ => value) table k

theorem find?_cons (name : String) (entry : String × α) (rest : List (String × α)) :
    find? name (entry :: rest) =
      if entry.1 = name then some entry.2 else find? name rest := by
  by_cases hname : entry.1 = name
  · simp [find?, hname]
  · simp [find?, hname]

theorem mem_keys_of_mem {name : String} {value : α} {table : List (String × α)}
    (hmem : (name, value) ∈ table) : name ∈ keys table :=
  List.mem_map_of_mem (f := fun entry => entry.1) hmem

theorem find?_insert (name : String) (value : α) (table : List (String × α)) (k : String) :
    find? k (insert name value table) = if name = k then some value else find? k table := by
  unfold insert
  induction table with
  | nil =>
      exact find?_cons k (name, value) []
  | cons entry rest ih =>
      unfold alterBy
      cases hc : compare name entry.1 with
      | lt =>
          exact find?_cons k (name, value) (entry :: rest)
      | eq =>
          have hname : name = entry.1 := Std.LawfulEqOrd.eq_of_compare hc
          dsimp only
          rw [find?_cons, find?_cons, ← hname]
          by_cases hk : name = k
          · rw [if_pos hk, if_pos hk]
          · rw [if_neg hk, if_neg hk, if_neg hk]
      | gt =>
          have hname : entry.1 ≠ name := by
            intro heq
            have hself : compare name name = .eq := Std.ReflCmp.compare_self
            rw [heq, hself] at hc
            cases hc
          dsimp only
          rw [find?_cons, find?_cons, ih]
          by_cases hk : entry.1 = k
          · rw [if_pos hk, if_pos hk, if_neg (fun h => hname (hk.trans h.symm))]
          · rw [if_neg hk, if_neg hk]

theorem pairwise_insert (name : String) (value : α) {table : List (String × α)}
    (htable : (keys table).Pairwise (· < ·)) :
    (keys (insert name value table)).Pairwise (· < ·) := by
  have hcompare : (keys table).Pairwise fun a b => compare a b = .lt :=
    htable.imp fun h => compare_lt_iff_lt.mpr h
  have hinsert := pairwise_alterBy (fun _ _ => Std.LawfulEqOrd.eq_of_compare) name
    (fun _ => value) hcompare
  exact hinsert.imp fun h => compare_lt_iff_lt.mp h

/-- In a table without repeated keys a look-up finds every entry. -/
theorem find?_eq_some_iff_mem {table : List (String × α)} (hkeys : (keys table).Nodup)
    (name : String) (value : α) :
    find? name table = some value <-> (name, value) ∈ table := by
  induction table with
  | nil =>
      simp [find?]
  | cons entry rest ih =>
      rw [keys_cons, List.nodup_cons] at hkeys
      rw [find?_cons, List.mem_cons]
      by_cases hname : entry.1 = name
      · have hrest : (name, value) ∉ rest := by
          intro hmem
          exact hkeys.1 (hname ▸ mem_keys_of_mem hmem)
        rw [if_pos hname, Option.some_inj, or_iff_left hrest, ← hname]
        constructor
        · rintro rfl
          rfl
        · intro hentry
          rw [← hentry]
      · have hentry : ¬ (name, value) = entry := by
          intro h
          exact hname (h ▸ rfl)
        rw [if_neg hname, ih hkeys.2, or_iff_right hentry]

/-!
# The first entry with each key
-/

theorem distinctBy_cons [BEq κ] (key : α -> κ) (a : α) (rest : List α) :
    distinctBy key (a :: rest) =
      a :: (distinctBy key rest).filter fun b => key b != key a := rfl

/-- An entry is kept if and only if no entry before it has its key. -/
theorem mem_distinctBy_iff [BEq κ] [LawfulBEq κ] (key : α -> κ) (entries : List α) (b : α) :
    b ∈ distinctBy key entries <->
      exists before after, entries = before ++ b :: after ∧
        forall a, a ∈ before -> key a ≠ key b := by
  induction entries with
  | nil =>
      simp [distinctBy]
  | cons first rest ih =>
      rw [distinctBy_cons, List.mem_cons, List.mem_filter, ih, bne_iff_ne]
      constructor
      · rintro (rfl | ⟨⟨before, after, rfl, hbefore⟩, hkey⟩)
        · exact ⟨[], rest, rfl, by simp⟩
        · refine ⟨first :: before, after, rfl, ?_⟩
          intro a ha
          rcases List.mem_cons.mp ha with rfl | ha
          · exact Ne.symm hkey
          · exact hbefore a ha
      · rintro ⟨before, after, hentries, hbefore⟩
        cases before with
        | nil =>
            exact Or.inl (List.cons.inj hentries).1.symm
        | cons a before =>
            rcases List.cons.inj hentries with ⟨rfl, hrest⟩
            refine Or.inr ⟨⟨before, after, hrest, ?_⟩, ?_⟩
            · intro u hu
              exact hbefore u (List.mem_cons_of_mem _ hu)
            · exact Ne.symm (hbefore first List.mem_cons_self)

theorem mem_of_mem_distinctBy [BEq κ] [LawfulBEq κ] {key : α -> κ} {entries : List α} {b : α}
    (hb : b ∈ distinctBy key entries) : b ∈ entries := by
  rcases (mem_distinctBy_iff key entries b).mp hb with ⟨before, after, rfl, _⟩
  exact List.mem_append_right before List.mem_cons_self

theorem exists_mem_distinctBy [BEq κ] [LawfulBEq κ] (key : α -> κ) {entries : List α} {a : α}
    (ha : a ∈ entries) : exists b, b ∈ distinctBy key entries ∧ key b = key a := by
  induction entries with
  | nil =>
      cases ha
  | cons first rest ih =>
      rw [distinctBy_cons]
      by_cases hkey : key a = key first
      · exact ⟨first, List.mem_cons_self, hkey.symm⟩
      · rcases List.mem_cons.mp ha with rfl | ha
        · exact absurd rfl hkey
        · rcases ih ha with ⟨b, hb, hba⟩
          refine ⟨b, List.mem_cons_of_mem _ (List.mem_filter.mpr ⟨hb, ?_⟩), hba⟩
          rw [bne_iff_ne, hba]
          exact hkey

theorem eq_of_mem_distinctBy [BEq κ] [LawfulBEq κ] {key : α -> κ} {entries : List α} {a b : α}
    (ha : a ∈ distinctBy key entries) (hb : b ∈ distinctBy key entries)
    (hkey : key a = key b) : a = b := by
  induction entries with
  | nil =>
      cases ha
  | cons first rest ih =>
      rw [distinctBy_cons, List.mem_cons, List.mem_filter, bne_iff_ne] at ha hb
      rcases ha with rfl | ⟨ha, hafirst⟩
      · rcases hb with rfl | ⟨_, hbfirst⟩
        · rfl
        · exact absurd hkey.symm hbfirst
      · rcases hb with rfl | ⟨hb, _⟩
        · exact absurd hkey hafirst
        · exact ih ha hb

theorem nodup_map_distinctBy [BEq κ] [LawfulBEq κ] (key : α -> κ) (entries : List α) :
    ((distinctBy key entries).map key).Nodup := by
  induction entries with
  | nil =>
      exact List.nodup_nil
  | cons first rest ih =>
      rw [distinctBy_cons, List.map_cons, List.nodup_cons]
      constructor
      · intro hmem
        rcases List.mem_map.mp hmem with ⟨b, hb, hkey⟩
        have hne := (List.mem_filter.mp hb).2
        rw [bne_iff_ne] at hne
        exact hne hkey
      · exact ih.sublist (List.filter_sublist.map key)

/-- An entry with a new key is kept, and the others are kept as before. -/
theorem distinctBy_append_cons [BEq κ] [LawfulBEq κ] (key : α -> κ) {w : α}
    {xs ys : List α} (hkey : forall y, y ∈ xs ++ ys -> key y ≠ key w) :
    exists before after, distinctBy key (xs ++ ys) = before ++ after ∧
      distinctBy key (xs ++ w :: ys) = before ++ w :: after := by
  induction xs with
  | nil =>
      refine ⟨[], distinctBy key ys, rfl, ?_⟩
      have hfilter : (distinctBy key ys).filter (fun b => key b != key w) =
          distinctBy key ys := by
        rw [List.filter_eq_self]
        intro b hb
        rw [bne_iff_ne]
        exact hkey b (mem_of_mem_distinctBy hb)
      rw [List.nil_append, distinctBy_cons, hfilter, List.nil_append]
  | cons first xs ih =>
      have hfirst : (key w != key first) = true := by
        rw [bne_iff_ne]
        exact Ne.symm (hkey first List.mem_cons_self)
      rcases ih fun y hy => hkey y (List.mem_cons_of_mem first hy) with
        ⟨before, after, hshort, hlong⟩
      refine ⟨first :: before.filter (fun b => key b != key first),
        after.filter (fun b => key b != key first), ?_, ?_⟩
      · rw [List.cons_append, distinctBy_cons, hshort, List.filter_append,
          List.cons_append]
      · rw [List.cons_append, distinctBy_cons, hlong, List.filter_append,
          List.filter_cons_of_pos (p := fun b => key b != key first) hfirst, List.cons_append]

/-- A change that leaves the keys as they are does not matter to which entries are
kept. -/
theorem distinctBy_map [BEq κ] {key : α -> κ} {change : α -> α}
    (hchange : forall a, key (change a) = key a) (entries : List α) :
    distinctBy key (entries.map change) = (distinctBy key entries).map change := by
  induction entries with
  | nil =>
      rfl
  | cons first rest ih =>
      rw [List.map_cons, distinctBy_cons, distinctBy_cons, ih, List.map_cons, List.filter_map]
      simp only [Function.comp_def, hchange]

theorem distinctBy_append_singleton [BEq κ] [LawfulBEq κ] (names : List κ) (name : κ) :
    distinctBy (fun n => n) (names ++ [name]) =
      if names.contains name then distinctBy (fun n => n) names
      else distinctBy (fun n => n) names ++ [name] := by
  induction names with
  | nil =>
      rfl
  | cons first rest ih =>
      rw [List.cons_append, distinctBy_cons, distinctBy_cons, ih, List.contains_cons]
      by_cases hfirst : name = first
      · subst hfirst
        simp only [beq_self_eq_true, Bool.true_or, if_true]
        split
        · rfl
        · simp
      · have hne : (name == first) = false := by simpa using hfirst
        rw [hne, Bool.false_or]
        split
        · rfl
        · rw [List.filter_append, List.filter_singleton, bne, hne, List.cons_append]
          rfl

theorem mem_distinctBy_self [BEq κ] [LawfulBEq κ] (names : List κ) (name : κ) :
    name ∈ distinctBy (fun n => n) names <-> name ∈ names := by
  constructor
  · intro hname
    exact mem_of_mem_distinctBy hname
  · intro hname
    rcases exists_mem_distinctBy (fun n => n) hname with ⟨other, hother, hsame⟩
    exact hsame ▸ hother

theorem distinctBy_filter [BEq κ] [LawfulBEq κ] (keep : κ -> Bool) (names : List κ) :
    distinctBy (fun n => n) (names.filter keep) =
      (distinctBy (fun n => n) names).filter keep := by
  induction names with
  | nil =>
      rfl
  | cons first rest ih =>
      rw [distinctBy_cons]
      cases hfirst : keep first with
      | true =>
          rw [List.filter_cons_of_pos hfirst, List.filter_cons_of_pos hfirst, distinctBy_cons, ih,
            List.filter_filter, List.filter_filter]
          simp only [Bool.and_comm]
      | false =>
          have hdropped : ¬ keep first = true := by simp [hfirst]
          rw [List.filter_cons_of_neg hdropped, List.filter_cons_of_neg hdropped, ih,
            List.filter_filter]
          apply List.filter_congr
          intro name _
          cases hname : keep name with
          | true =>
              have hne : name ≠ first := fun h => hdropped (h ▸ hname)
              simpa using hne
          | false =>
              rfl

/-- Names stand in the order in which a list has them first. -/
def InOrderOf (listed names : List String) : Prop :=
  names.Pairwise fun a b => listed.idxOf a < listed.idxOf b

theorem InOrderOf.nodup {listed names : List String} (h : InOrderOf listed names) :
    names.Nodup := by
  refine h.imp ?_
  intro a b hlt hab
  exact Nat.lt_irrefl _ (hab ▸ hlt)

theorem inOrderOf_distinctBy (names : List String) :
    InOrderOf names (distinctBy (fun n => n) names) := by
  unfold InOrderOf
  induction names with
  | nil =>
      exact List.Pairwise.nil
  | cons first rest ih =>
      have hother : forall name,
          name ∈ (distinctBy (fun n => n) rest).filter (fun n => n != first) ->
            (first :: rest).idxOf name = rest.idxOf name + 1 := by
        intro name hname
        have hne : name ≠ first := by simpa using (List.mem_filter.mp hname).2
        exact List.idxOf_cons_ne rest hne.symm
      rw [distinctBy_cons, List.pairwise_cons]
      constructor
      · intro name hname
        rw [List.idxOf_cons_self, hother name hname]
        exact Nat.succ_pos _
      · refine (ih.filter _).imp_of_mem ?_
        intro a b ha hb hlt
        rw [hother a ha, hother b hb]
        exact Nat.succ_lt_succ hlt

/-!
# Sets of names
-/

theorem mem_insertName (name : String) (set : List String) (n : String) :
    n ∈ insertName name set <-> n = name ∨ n ∈ set := by
  induction set with
  | nil =>
      simp [insertName]
  | cons other rest ih =>
      unfold insertName
      cases hc : compare name other with
      | lt =>
          exact List.mem_cons
      | eq =>
          have hname : name = other := Std.LawfulEqOrd.eq_of_compare hc
          rw [List.mem_cons, hname, or_self_left]
      | gt =>
          dsimp only
          rw [List.mem_cons, List.mem_cons, ih]
          exact or_left_comm

theorem pairwise_insertName (name : String) {set : List String}
    (hset : set.Pairwise (· < ·)) : (insertName name set).Pairwise (· < ·) := by
  induction set with
  | nil =>
      simp [insertName]
  | cons other rest ih =>
      unfold insertName
      have hrest := List.pairwise_cons.mp hset
      cases hc : compare name other with
      | lt =>
          have hlt : name < other := compare_lt_iff_lt.mp hc
          refine List.pairwise_cons.mpr ⟨?_, hset⟩
          intro n hn
          rcases List.mem_cons.mp hn with rfl | hn
          · exact hlt
          · exact String.lt_trans hlt (hrest.1 n hn)
      | eq =>
          exact hset
      | gt =>
          have hlt : other < name := compare_gt_iff_gt.mp hc
          refine List.pairwise_cons.mpr ⟨?_, ih hrest.2⟩
          intro n hn
          rcases (mem_insertName name rest n).mp hn with rfl | hn
          · exact hlt
          · exact hrest.1 n hn

theorem mem_sortedNames (names : List String) (n : String) :
    n ∈ sortedNames names <-> n ∈ names := by
  have hfold : forall (names set : List String),
      n ∈ names.foldl (fun set name => insertName name set) set <-> n ∈ set ∨ n ∈ names := by
    intro names
    induction names with
    | nil =>
        intro set
        simp
    | cons name rest ih =>
        intro set
        rw [List.foldl_cons, ih, mem_insertName, List.mem_cons, or_assoc, or_left_comm]
  rw [sortedNames, hfold names [], or_iff_right List.not_mem_nil]

theorem pairwise_sortedNames (names : List String) : (sortedNames names).Pairwise (· < ·) := by
  have hfold : forall (names set : List String), set.Pairwise (· < ·) ->
      (names.foldl (fun set name => insertName name set) set).Pairwise (· < ·) := by
    intro names
    induction names with
    | nil =>
        intro set hset
        exact hset
    | cons name rest ih =>
        intro set hset
        exact ih _ (pairwise_insertName name hset)
  exact hfold names [] List.Pairwise.nil

theorem nodup_sortedNames (names : List String) : (sortedNames names).Nodup :=
  (pairwise_sortedNames names).imp ne_of_lt

/-- Only which names occur matters, not in which order and how often. -/
theorem sortedNames_congr {names others : List String}
    (h : forall n, n ∈ names <-> n ∈ others) : sortedNames names = sortedNames others := by
  have hperm : (sortedNames names).Perm (sortedNames others) := by
    rw [List.perm_ext_iff_of_nodup (nodup_sortedNames names) (nodup_sortedNames others)]
    intro n
    rw [mem_sortedNames, mem_sortedNames, h]
  refine hperm.eq_of_pairwise ?_ (pairwise_sortedNames names) (pairwise_sortedNames others)
  intro a b _ _ hab hba
  exact absurd hba hab.asymm

end Listing
end PayloadFlow
