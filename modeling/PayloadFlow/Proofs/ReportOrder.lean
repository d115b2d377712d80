import Mathlib.Data.List.Sort
import Mathlib.Data.List.TakeWhile
import Mathlib.Data.Prod.Lex
import Mathlib.Data.String.Basic
import Mathlib.Order.Compare
import PayloadFlow.Finding

/-!
# The order of reports

Texts are compared character by character, which is the order of their UTF-8
bytes.  Findings are therefore sorted by one key of bytes and numbers.  A finding
whose key no other has gets a place of its own among the sorted ones, and the
others stay as they are.
-/

namespace PayloadFlow

namespace Text

/-!
# Texts and their bytes
-/

def charBytes (c : Char) : List Nat :=
  (String.utf8EncodeChar c).map UInt8.toNat

def bytes (text : String) : List Nat :=
  text.toUTF8.data.toList.map UInt8.toNat

theorem bytes_eq (text : String) : bytes text = text.toList.flatMap charBytes := by
  have htext : text.toUTF8 = text.toList.utf8Encode := by
    rw [← String.toByteArray_ofList, String.ofList_toList]
    rfl
  rw [bytes, htext, List.utf8Encode, List.data_toByteArray, List.map_flatMap]
  rfl

theorem charBytes_ne_nil (c : Char) : charBytes c ≠ [] := by
  unfold charBytes String.utf8EncodeChar
  dsimp only
  split_ifs <;> simp

/-- The bytes of a smaller character come first, whatever follows. -/
theorem charBytes_append_lt {c d : Char} (hcd : c < d) (u v : List Nat) :
    charBytes c ++ u < charBytes d ++ v := by
  have hlt : c.val.toNat < d.val.toNat := hcd
  have hbound : d.val.toNat < 1114112 := by
    rcases d.valid with h | h
    · exact lt_trans h (by decide)
    · exact h.2
  unfold charBytes String.utf8EncodeChar
  generalize c.val.toNat = m at hlt
  generalize d.val.toNat = n at hlt hbound
  -- the first digit to base 64 in which the two differ decides
  have hfirst : m / 262144 < n / 262144 ∨ m / 262144 = n / 262144 ∧ m / 4096 <= n / 4096 := by
    omega
  have hsecond : m / 4096 < n / 4096 ∨ m / 4096 = n / 4096 ∧ m / 64 <= n / 64 := by
    omega
  have hthird : m / 64 < n / 64 ∨ m / 64 = n / 64 ∧ m % 64 < n % 64 := by
    omega
  dsimp only
  split_ifs <;>
    simp only [List.map_cons, List.map_nil, List.cons_append, List.nil_append,
      List.cons_lt_cons_iff, UInt8.toNat_ofNat'] <;>
    simp (disch := omega) only [Nat.mod_eq_of_lt] <;>
    omega

theorem flatMap_charBytes_lt {cs ds : List Char} (h : cs < ds) :
    cs.flatMap charBytes < ds.flatMap charBytes := by
  induction h with
  | @nil d ds =>
      rw [List.flatMap_nil, List.flatMap_cons]
      cases hbytes : charBytes d with
      | nil => exact absurd hbytes (charBytes_ne_nil d)
      | cons b rest => exact List.nil_lt_cons b _
  | rel hcd =>
      rw [List.flatMap_cons, List.flatMap_cons]
      exact charBytes_append_lt hcd _ _
  | cons _ ih =>
      rw [List.flatMap_cons, List.flatMap_cons]
      exact List.append_left_lt ih

theorem strictMono_bytes : StrictMono bytes := by
  intro a b hab
  rw [bytes_eq, bytes_eq]
  exact flatMap_charBytes_lt (String.lt_iff_toList_lt.mp hab)

theorem compare_eq_lt_iff (a b : String) : compare a b = .lt <-> bytes a < bytes b :=
  compare_lt_iff_lt.trans strictMono_bytes.lt_iff_lt.symm

theorem compare_eq_eq_iff (a b : String) : compare a b = .eq <-> bytes a = bytes b :=
  compare_eq_iff_eq.trans strictMono_bytes.injective.eq_iff.symm

theorem isLE_compare_iff (a b : String) : (compare a b).isLE = true <-> bytes a <= bytes b := by
  rw [Ordering.isLE_iff_ne_gt]
  exact compare_le_iff_le.trans strictMono_bytes.le_iff_le.symm

end Text

theorem FindingKind.rank_inj {a b : FindingKind} (h : a.rank = b.rank) : a = b := by
  cases a <;> cases b <;> first | rfl | cases h

namespace Finding

open Text

/-!
# The key of a finding
-/

abbrev SortKey : Type :=
  List Nat ×ₗ Nat ×ₗ Nat ×ₗ List Nat ×ₗ List Nat ×ₗ List Nat

/-- What findings are sorted by: the file, the line, the kind, and then the event,
the property and the message, texts by their UTF-8 bytes. -/
def sortKey (f : Finding) : SortKey :=
  toLex (bytes f.filePath, toLex (f.line, toLex (f.kind.rank,
    toLex (bytes f.event, toLex (bytes f.propertyPath, bytes f.message)))))

theorem isLE_order_iff (a b : Finding) :
    (order a b).isLE = true <-> a.sortKey <= b.sortKey := by
  simp only [order, sortKey, Ordering.isLE_then_iff_or, Prod.Lex.toLex_le_toLex,
    compare_eq_lt_iff, compare_eq_eq_iff, isLE_compare_iff, Nat.compare_eq_lt, Nat.compare_eq_eq]

theorem le_trans_order (a b c : Finding) (hab : (order a b).isLE = true)
    (hbc : (order b c).isLE = true) : (order a c).isLE = true := by
  rw [isLE_order_iff] at hab hbc ⊢
  exact le_trans hab hbc

theorem le_total_order (a b : Finding) :
    ((order a b).isLE || (order b a).isLE) = true := by
  rw [Bool.or_eq_true, isLE_order_iff, isLE_order_iff]
  exact le_total a.sortKey b.sortKey

theorem pairwise_sort (findings : List Finding) :
    (sort findings).Pairwise fun a b => a.sortKey <= b.sortKey := by
  have hsorted := List.pairwise_mergeSort le_trans_order le_total_order findings
  exact hsorted.imp fun h => (isLE_order_iff _ _).mp h

/-!
# One more finding
-/

def KeyLe (a b : Finding) : Prop :=
  a.sortKey <= b.sortKey

instance (a b : Finding) : Decidable (KeyLe a b) :=
  inferInstanceAs (Decidable (a.sortKey <= b.sortKey))

theorem sort_cons (w : Finding) (rest : List Finding) :
    sort (w :: rest) = (sort rest).orderedInsert KeyLe w := by
  rcases List.mergeSort_cons le_trans_order le_total_order w rest with
    ⟨before, after, hlong, hshort, hbefore⟩
  have hlong : sort (w :: rest) = before ++ w :: after := hlong
  have hshort : sort rest = before ++ after := hshort
  have hsorted := pairwise_sort (w :: rest)
  rw [hlong, List.pairwise_append, List.pairwise_cons] at hsorted
  have hless : forall y, y ∈ before -> decide (¬ KeyLe w y) = true := by
    intro y hy
    have hy := hbefore y hy
    rw [Bool.not_eq_true', Bool.eq_false_iff, Ne, isLE_order_iff] at hy
    exact decide_eq_true hy
  have hafter : after.takeWhile (fun y => decide (¬ KeyLe w y)) = [] ∧
      after.dropWhile (fun y => decide (¬ KeyLe w y)) = after := by
    cases after with
    | nil =>
        exact ⟨rfl, rfl⟩
    | cons first after =>
        have hfirst : KeyLe w first := hsorted.2.1.1 first List.mem_cons_self
        simp [hfirst]
  rw [List.orderedInsert_eq_take_drop, hlong, hshort, List.takeWhile_append_of_pos hless,
    List.dropWhile_append_of_pos hless, hafter.1, hafter.2, List.append_nil]

/-- Two findings with different keys can be put in place in either order. -/
theorem orderedInsert_comm {a b : Finding} (hab : a.sortKey ≠ b.sortKey) (rest : List Finding) :
    (rest.orderedInsert KeyLe b).orderedInsert KeyLe a =
      (rest.orderedInsert KeyLe a).orderedInsert KeyLe b := by
  unfold KeyLe
  induction rest with
  | nil =>
      -- the smaller one comes first
      rcases lt_or_gt_of_ne hab with hlt | hgt
      · simp [List.orderedInsert, hlt.le, hlt.not_ge]
      · simp [List.orderedInsert, hgt.le, hgt.not_ge]
  | cons first rest ih =>
      grind [List.orderedInsert]

theorem sort_append_cons {w : Finding} {xs : List Finding}
    (hxs : forall y, y ∈ xs -> y.sortKey ≠ w.sortKey) (ys : List Finding) :
    sort (xs ++ w :: ys) = (sort (xs ++ ys)).orderedInsert KeyLe w := by
  induction xs with
  | nil =>
      exact sort_cons w ys
  | cons y xs ih =>
      have hy : y.sortKey ≠ w.sortKey := hxs y List.mem_cons_self
      have hrest := ih fun z hz => hxs z (List.mem_cons_of_mem y hz)
      rw [List.cons_append, sort_cons, hrest, orderedInsert_comm hy, ← sort_cons,
        ← List.cons_append]

/-- A finding whose key no other has stands in one place of the sorted list, and
all others stay as they are. -/
theorem exists_sort_append_cons {w : Finding} {xs ys : List Finding}
    (hkey : forall y, y ∈ xs ++ ys -> y.sortKey ≠ w.sortKey) :
    exists before after, sort (xs ++ ys) = before ++ after ∧
      sort (xs ++ w :: ys) = before ++ w :: after ∧
      (forall y, y ∈ before -> y.sortKey < w.sortKey) ∧
      forall y, y ∈ after -> w.sortKey < y.sortKey := by
  have hlong := sort_append_cons (fun y hy => hkey y (List.mem_append_left ys hy)) ys
  rw [List.orderedInsert_eq_take_drop] at hlong
  have hshort := (List.takeWhile_append_dropWhile (p := fun y => decide (¬ KeyLe w y))
    (l := sort (xs ++ ys))).symm
  refine ⟨_, _, hshort, hlong, ?_, ?_⟩
  · intro y hy
    have hless := List.mem_takeWhile_imp hy
    exact not_le.mp (of_decide_eq_true hless)
  · intro y hy
    have hsorted := pairwise_sort (xs ++ w :: ys)
    rw [hlong, List.pairwise_append, List.pairwise_cons] at hsorted
    have hle : w.sortKey <= y.sortKey := hsorted.2.1.1 y hy
    have hmem : y ∈ xs ++ ys := by
      have hy := (List.dropWhile_sublist _).subset hy
      exact List.mem_mergeSort.mp hy
    exact lt_of_le_of_ne hle (Ne.symm (hkey y hmem))

end Finding
end PayloadFlow
