import Mathlib.Data.List.Induction
import PayloadFlow.Extract.Producer
import PayloadFlow.Proofs.Listing

/-!
# The last write counts

The entries that a payload is written with stand one after the other once every spread of
a known object literal is replaced by the entries of that literal.  The bindings of the
payload have the names of this sequence in the order in which they come up first, each
bound by the last entry that has it.
-/

namespace PayloadFlow
namespace Producer

open Script

/-!
# Entries in sequence
-/

/-- An entry, or in the place of a spread what stands for it. -/
def unfolded (within : Node -> List ObjectEntry) : ObjectEntry -> List ObjectEntry
  | .spread argument _ => within argument
  | entry => [entry]

/-- The entries of an object literal.  Spreads of known object literals are followed to a
given depth, all others give nothing. -/
def entrySequence (scope : Node) : Nat -> Node -> List ObjectEntry
  | 0, object => object.objectEntries.flatMap (unfolded fun _ => [])
  | depth + 1, object =>
      object.objectEntries.flatMap <| unfolded fun argument =>
        match objectLiteral? scope argument with
        | some inner => entrySequence scope depth inner
        | none => []

/-- The entries of a payload, with spreads followed two levels deep. -/
def payloadEntries (scope payload : Node) : List ObjectEntry :=
  match objectLiteral? scope payload with
  | some object => entrySequence scope 2 object
  | none => []

def entryNames (entries : List ObjectEntry) : List String :=
  entries.filterMap (·.key?)

def entryBinding? (params : List String) : ObjectEntry -> Option PropertyBinding
  | .pair key value line => some (binding params key value.text line)
  | .shorthand name line => some (binding params name name line)
  | .method name line => some ⟨name, .literal, none, "", line⟩
  | .spread _ _ => none

theorem name_entryBinding? (params : List String) (entry : ObjectEntry) :
    (entryBinding? params entry).map (·.name) = entry.key? := by
  cases entry <;> rfl

/-- Bindings show the last write of every name, in the order of the first writes. -/
structure ShowsLastWrites (params : List String) (entries : List ObjectEntry)
    (bindings : List PropertyBinding) : Prop where
  distinct : (bindings.map (·.name)).Nodup
  written : forall name, name ∈ bindings.map (·.name) <-> name ∈ entryNames entries
  ordered : Listing.InOrderOf (entryNames entries) (bindings.map (·.name))
  last : forall b, b ∈ bindings -> exists before entry after,
    entries = before ++ entry :: after ∧ entryBinding? params entry = some b ∧
      forall later, later ∈ after -> later.key? ≠ some b.name

/-!
# Recorded bindings
-/

theorem map_name_record (b : PropertyBinding) (bindings : List PropertyBinding) :
    (record b bindings).map (·.name) =
      if (bindings.map (·.name)).contains b.name then bindings.map (·.name)
      else bindings.map (·.name) ++ [b.name] := by
  induction bindings with
  | nil =>
      rfl
  | cons other rest ih =>
      unfold record
      rw [List.map_cons, List.contains_cons]
      by_cases hname : other.name = b.name
      · rw [if_pos (beq_iff_eq.mpr hname), if_pos (by simp [hname]), List.map_cons, hname]
      · have hne : (b.name == other.name) = false := by simpa using Ne.symm hname
        rw [if_neg (by simpa using hname), List.map_cons, ih, hne, Bool.false_or]
        split
        · rfl
        · rfl

theorem mem_record {b c : PropertyBinding} {bindings : List PropertyBinding}
    (hnames : (bindings.map (·.name)).Nodup) (hc : c ∈ record b bindings) :
    c = b ∨ c ∈ bindings ∧ c.name ≠ b.name := by
  induction bindings with
  | nil =>
      exact Or.inl (List.mem_singleton.mp hc)
  | cons other rest ih =>
      rw [List.map_cons, List.nodup_cons] at hnames
      unfold record at hc
      split at hc
      · rename_i hname
        rcases List.mem_cons.mp hc with hc | hc
        · exact Or.inl hc
        · refine Or.inr ⟨List.mem_cons_of_mem _ hc, ?_⟩
          intro hsame
          have hmem := List.mem_map_of_mem (f := fun x : PropertyBinding => x.name) hc
          exact hnames.1 (beq_iff_eq.mp hname ▸ hsame ▸ hmem)
      · rename_i hname
        rcases List.mem_cons.mp hc with hc | hc
        · refine Or.inr ⟨hc ▸ List.mem_cons_self, ?_⟩
          intro hsame
          exact hname (beq_iff_eq.mpr (hc ▸ hsame))
        · rcases ih hnames.2 hc with heq | ⟨hmem, hne⟩
          · exact Or.inl heq
          · exact Or.inr ⟨List.mem_cons_of_mem _ hmem, hne⟩

def recordOwn (params : List String) (bindings : List PropertyBinding) (entry : ObjectEntry) :
    List PropertyBinding :=
  recordEntry params (fun _ bs => bs) bindings entry

theorem recordOwn_eq (params : List String) (bindings : List PropertyBinding)
    (entry : ObjectEntry) :
    recordOwn params bindings entry =
      match entryBinding? params entry with
      | some b => record b bindings
      | none => bindings := by
  cases entry <;> rfl

def recordAll (params : List String) (entries : List ObjectEntry)
    (bindings : List PropertyBinding) : List PropertyBinding :=
  entries.foldl (recordOwn params) bindings

theorem entryNames_append_singleton (entries : List ObjectEntry) (entry : ObjectEntry) :
    entryNames (entries ++ [entry]) = entryNames entries ++ entry.key?.toList := by
  unfold entryNames
  rw [List.filterMap_append, List.filterMap_cons]
  cases entry.key? with
  | none =>
      rfl
  | some name =>
      rfl

theorem map_name_recordAll (params : List String) (entries : List ObjectEntry) :
    (recordAll params entries []).map (·.name) =
      Listing.distinctBy (fun n => n) (entryNames entries) := by
  induction entries using List.reverseRecOn with
  | nil =>
      rfl
  | append_singleton entries entry ih =>
      have hkey := name_entryBinding? params entry
      unfold recordAll at ih ⊢
      rw [List.foldl_append, List.foldl_cons, List.foldl_nil, recordOwn_eq,
        entryNames_append_singleton, ← hkey]
      cases entryBinding? params entry with
      | none =>
          rw [Option.map_none, Option.toList_none, List.append_nil]
          exact ih
      | some b =>
          rw [Option.map_some, Option.toList_some, Listing.distinctBy_append_singleton, ← ih,
            map_name_record]
          have hcontains : (entryNames entries).contains b.name =
              ((entries.foldl (recordOwn params) []).map (·.name)).contains b.name := by
            rw [Bool.eq_iff_iff, List.contains_iff_mem, List.contains_iff_mem, ih,
              Listing.mem_distinctBy_self]
          rw [hcontains]

theorem nodup_names_recordAll (params : List String) (entries : List ObjectEntry) :
    ((recordAll params entries []).map (·.name)).Nodup := by
  rw [map_name_recordAll]
  exact (Listing.inOrderOf_distinctBy _).nodup

theorem last_of_mem_recordAll (params : List String) (entries : List ObjectEntry)
    {b : PropertyBinding} (hb : b ∈ recordAll params entries []) :
    exists before entry after, entries = before ++ entry :: after ∧
      entryBinding? params entry = some b ∧
        forall later, later ∈ after -> later.key? ≠ some b.name := by
  induction entries using List.reverseRecOn with
  | nil =>
      cases hb
  | append_singleton entries entry ih =>
      have hnames := nodup_names_recordAll params entries
      have hkey := name_entryBinding? params entry
      unfold recordAll at hb hnames
      rw [List.foldl_append, List.foldl_cons, List.foldl_nil, recordOwn_eq] at hb
      -- The last entry either writes the binding, or leaves an earlier one alone.
      have hcases : entryBinding? params entry = some b ∨
          b ∈ recordAll params entries [] ∧ entry.key? ≠ some b.name := by
        rw [← hkey]
        cases hbinding : entryBinding? params entry with
        | none =>
            rw [hbinding] at hb
            exact Or.inr ⟨hb, by simp⟩
        | some c =>
            rw [hbinding] at hb
            rcases mem_record hnames hb with heq | ⟨hmem, hne⟩
            · exact Or.inl (heq ▸ rfl)
            · exact Or.inr ⟨hmem, by simpa using Ne.symm hne⟩
      rcases hcases with hlast | ⟨hmem, hother⟩
      · exact ⟨entries, entry, [], rfl, hlast, by simp⟩
      · rcases ih hmem with ⟨before, own, after, rfl, hown, hafter⟩
        refine ⟨before, own, after ++ [entry], by simp, hown, ?_⟩
        intro later hlater
        rcases List.mem_append.mp hlater with hlater | hlater
        · exact hafter later hlater
        · rw [List.mem_singleton.mp hlater]
          exact hother

theorem showsLastWrites_recordAll (params : List String) (entries : List ObjectEntry) :
    ShowsLastWrites params entries (recordAll params entries []) := by
  have hnames := map_name_recordAll params entries
  constructor
  · exact nodup_names_recordAll params entries
  · intro name
    rw [hnames]
    exact Listing.mem_distinctBy_self _ name
  · rw [hnames]
    exact Listing.inOrderOf_distinctBy _
  · intro b hb
    exact last_of_mem_recordAll params entries hb

/-!
# Object literals in sequence
-/

theorem recordAll_append (params : List String) (entries others : List ObjectEntry)
    (bindings : List PropertyBinding) :
    recordAll params (entries ++ others) bindings =
      recordAll params others (recordAll params entries bindings) :=
  List.foldl_append

theorem foldl_recordEntry (params : List String)
    {spread : Node -> List PropertyBinding -> List PropertyBinding}
    {within : Node -> List ObjectEntry}
    (hspread : forall argument bindings,
      spread argument bindings = recordAll params (within argument) bindings)
    (entries : List ObjectEntry) (bindings : List PropertyBinding) :
    entries.foldl (recordEntry params spread) bindings =
      recordAll params (entries.flatMap (unfolded within)) bindings := by
  induction entries generalizing bindings with
  | nil =>
      rfl
  | cons entry rest ih =>
      have hentry : recordEntry params spread bindings entry =
          recordAll params (unfolded within entry) bindings := by
        cases entry with
        | spread argument line =>
            exact hspread argument bindings
        | pair key value line =>
            rfl
        | shorthand name line =>
            rfl
        | method name line =>
            rfl
      rw [List.foldl_cons, List.flatMap_cons, recordAll_append, hentry]
      exact ih _

theorem recordObject_eq (scope : Node) (params : List String) (depth : Nat) (object : Node)
    (bindings : List PropertyBinding) :
    recordObject scope params depth object bindings =
      recordAll params (entrySequence scope depth object) bindings := by
  induction depth generalizing object bindings with
  | zero =>
      refine foldl_recordEntry params ?_ object.objectEntries bindings
      intro argument bs
      rfl
  | succ depth ih =>
      refine foldl_recordEntry params ?_ object.objectEntries bindings
      intro argument bs
      cases objectLiteral? scope argument with
      | none =>
          rfl
      | some inner =>
          exact ih inner bs

/-- The bindings of a payload show the last write of every name in its entries. -/
theorem payloadBindings_showsLastWrites (scope : Node) (params : List String) (payload : Node) :
    ShowsLastWrites params (payloadEntries scope payload)
      (payloadBindings scope params payload) := by
  have hbindings : payloadBindings scope params payload =
      recordAll params (payloadEntries scope payload) [] := by
    unfold payloadBindings payloadEntries
    cases objectLiteral? scope payload with
    | none =>
        rfl
    | some object =>
        exact recordObject_eq scope params spreadDepth object []
  rw [hbindings]
  exact showsLastWrites_recordAll params _

end Producer
end PayloadFlow
