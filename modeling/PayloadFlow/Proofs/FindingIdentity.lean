import Mathlib.Data.List.Lex
import Mathlib.Data.Nat.Digits.Defs
import Mathlib.Data.String.Basic
import PayloadFlow.Finding
import PayloadFlow.Proofs.Joining

/-!
# Ids of findings

An id is the digest of a key, written with eleven digits.  Different digests
have different ids, in the order of the digests, so two findings share an id
only if the digest cannot tell the texts of their keys apart.  The text of a key
starts with a kind, which can always be read back, and so can the other parts if
they do not hold the separator.
-/

namespace PayloadFlow
namespace Digest
namespace Base62

theorem length_alphabet : alphabet.length = 62 := by
  decide

theorem digit_eq_getElem {d : Nat} (hd : d < alphabet.length) : digit d = alphabet[d] := by
  rw [digit, List.getD_eq_getElem?_getD, List.getElem?_eq_getElem hd, Option.getD_some]

theorem div_lt_pow {width n : Nat} (hn : n < Nat.pow 62 (width + 1)) :
    n / 62 < Nat.pow 62 width :=
  (Nat.div_lt_iff_lt_mul (by decide)).mpr hn

theorem toNat_lt_pow (n : UInt64) : n.toNat < Nat.pow 62 11 :=
  Nat.lt_of_lt_of_le n.toNat_lt (by decide)

/-!
# The digits of a number
-/

theorem length_digits (width n : Nat) : (digits width n).length = width := by
  induction width generalizing n with
  | zero =>
      rfl
  | succ width ih =>
      rw [digits, List.length_append, ih, List.length_singleton]

theorem mem_alphabet_of_mem_digits {width n : Nat} {c : Char} (hc : c ∈ digits width n) :
    c ∈ alphabet := by
  induction width generalizing n with
  | zero =>
      cases hc
  | succ width ih =>
      rcases List.mem_append.mp hc with hc | hc
      · exact ih hc
      · have hdigit : n % 62 < alphabet.length := by
          rw [length_alphabet]
          exact Nat.mod_lt n (by decide)
        rw [List.mem_singleton.mp hc, digit_eq_getElem hdigit]
        exact List.getElem_mem hdigit

/-- A number that fits is written with its digits to base 62, zeros before them. -/
theorem digits_eq_leftpad {width n : Nat} (hn : n < Nat.pow 62 width) :
    digits width n = List.leftpad width '0' ((Nat.digits 62 n).reverse.map digit) := by
  induction width generalizing n with
  | zero =>
      have hzero : n = 0 := Nat.lt_one_iff.mp hn
      simp [hzero, digits, List.leftpad]
  | succ width ih =>
      rw [digits, ih (div_lt_pow hn)]
      by_cases hzero : n = 0
      · have hdigit : digit 0 = '0' := by decide
        rw [hzero, Nat.zero_div, Nat.zero_mod, hdigit]
        simp [List.leftpad, List.replicate_succ']
      · rw [Nat.digits_eq_cons_digits_div (by decide) hzero, List.reverse_cons, List.map_append]
        simp [List.leftpad, Nat.add_sub_add_right]

/-!
# The order of numbers
-/

theorem pairwise_alphabet : alphabet.Pairwise (· < ·) := by
  decide

theorem digit_lt {d e : Nat} (hde : d < e) (he : e < 62) : digit d < digit e := by
  rw [← length_alphabet] at he
  have hd : d < alphabet.length := Nat.lt_trans hde he
  rw [digit_eq_getElem hd, digit_eq_getElem he]
  exact List.pairwise_iff_getElem.mp pairwise_alphabet d e hd he hde

/-- Of two texts of one length the smaller one stays so, whatever follows them. -/
theorem append_lt_append {u v : List Char} (h : u < v) (hlength : u.length = v.length)
    (s t : List Char) : u ++ s < v ++ t := by
  induction h with
  | nil =>
      cases hlength
  | rel hcd =>
      exact List.Lex.rel hcd
  | cons _ ih =>
      exact List.Lex.cons (ih (Nat.succ.inj hlength))

theorem digits_lt {width n m : Nat} (hm : m < Nat.pow 62 width) (h : n < m) :
    digits width n < digits width m := by
  induction width generalizing n m with
  | zero =>
      have hzero : m = 0 := Nat.lt_one_iff.mp hm
      omega
  | succ width ih =>
      -- either the digits before the last one decide, or the last one
      rcases Nat.lt_or_ge (n / 62) (m / 62) with hlt | hge
      · have hlength : (digits width (n / 62)).length = (digits width (m / 62)).length := by
          rw [length_digits, length_digits]
        exact append_lt_append (ih (div_lt_pow hm) hlt) hlength _ _
      · have hsame : n / 62 = m / 62 := by omega
        have hlast : digit (n % 62) < digit (m % 62) := by
          apply digit_lt
          · omega
          · omega
        rw [digits, digits, hsame]
        exact List.append_left_lt (List.Lex.rel hlast)

theorem strictMonoOn_digits (width : Nat) :
    StrictMonoOn (digits width) {n | n < Nat.pow 62 width} := by
  intro n _ m hm h
  exact digits_lt hm h

theorem encode_lt_iff (n m : UInt64) : encode n < encode m <-> n < m := by
  rw [String.lt_iff_toList_lt, encode, encode, String.toList_ofList, String.toList_ofList,
    UInt64.lt_iff_toNat_lt]
  exact (strictMonoOn_digits 11).lt_iff_lt (toNat_lt_pow n) (toNat_lt_pow m)

theorem encode_inj {n m : UInt64} (h : encode n = encode m) : n = m := by
  apply UInt64.toNat_inj.mp
  exact (strictMonoOn_digits 11).injOn (toNat_lt_pow n) (toNat_lt_pow m)
    (String.ofList_injective h)

end Base62
end Digest

theorem FindingKind.name_inj {a b : FindingKind} (h : a.name = b.name) : a = b := by
  revert h
  cases a <;> cases b <;> decide

theorem FindingKind.nul_not_mem_name (kind : FindingKind) : '\x00' ∉ kind.name.toList := by
  cases kind <;> decide

namespace FindingKey

theorem digest_eq_of_id_eq {k l : FindingKey} (h : k.id = l.id) :
    Digest.Xxh64.hashText (String.ofList k.text) =
      Digest.Xxh64.hashText (String.ofList l.text) :=
  Digest.Base62.encode_inj h

theorem text_eq (k : FindingKey) :
    k.text = k.kind.toList ++ '\x00' :: (k.event.toList ++ '\x00' :: (k.propertyPath.toList ++
      '\x00' :: (k.filePath.toList ++ '\x00' :: k.detail.toList))) := by
  simp [text, Text.joinWith]

theorem kind_eq_of_text_eq {a b : FindingKind} {k l : FindingKey} (hk : k.kind = a.name)
    (hl : l.kind = b.name) (h : k.text = l.text) : a = b := by
  rw [text_eq, text_eq, hk, hl] at h
  have hname := (Text.append_mark_inj a.nul_not_mem_name b.nul_not_mem_name h).1
  exact FindingKind.name_inj (String.toList_inj.mp hname)

def parts (k : FindingKey) : List (List Char) :=
  [k.kind.toList, k.event.toList, k.propertyPath.toList, k.filePath.toList, k.detail.toList]

def NulFree (k : FindingKey) : Prop :=
  forall part, part ∈ k.parts -> '\x00' ∉ part

instance (k : FindingKey) : Decidable k.NulFree :=
  inferInstanceAs (Decidable (forall part, part ∈ k.parts -> '\x00' ∉ part))

theorem parts_inj {k l : FindingKey} (h : k.parts = l.parts) : k = l := by
  cases k
  cases l
  simpa [parts, String.toList_inj] using h

/-- Keys that differ in their details at most have different texts if they
differ at all. -/
theorem eq_of_text_eq {k l : FindingKey} (hkind : k.kind = l.kind) (hevent : k.event = l.event)
    (hpath : k.propertyPath = l.propertyPath) (hfile : k.filePath = l.filePath)
    (h : k.text = l.text) : k = l := by
  rw [text_eq, text_eq, hkind, hevent, hpath, hfile] at h
  have hdetail : k.detail = l.detail := by
    simpa [String.toList_inj] using h
  apply parts_inj
  rw [parts, parts, hkind, hevent, hpath, hfile, hdetail]

/-- The parts of a key can be read back from its text if none holds a NUL. -/
theorem text_inj {k l : FindingKey} (hk : k.NulFree) (hl : l.NulFree) (h : k.text = l.text) :
    k = l :=
  parts_inj (Text.joinWith_inj (List.cons_ne_nil _ _) (List.cons_ne_nil _ _) hk hl h)

/-- Numbers of 64 bits are written with eleven digits of the alphabet, their digits
to base 62 with zeros before them, and these texts are ordered like the numbers.
The parts of a key that hold no NUL can be read back from its text.  So two such
keys have the same id exactly if they are the same, as long as the digest tells
their texts apart. -/
theorem ids_identify_keys :
    (forall n : UInt64, (Digest.Base62.encode n).length = 11 ∧
      (forall c, c ∈ (Digest.Base62.encode n).toList -> c ∈ Digest.Base62.alphabet) ∧
      (Digest.Base62.encode n).toList =
        List.leftpad 11 '0' ((Nat.digits 62 n.toNat).reverse.map Digest.Base62.digit)) ∧
    (forall n m : UInt64,
      (Digest.Base62.encode n = Digest.Base62.encode m <-> n = m) ∧
      (Digest.Base62.encode n < Digest.Base62.encode m <-> n < m)) ∧
    (forall k l : FindingKey, k.NulFree -> l.NulFree -> (k.text = l.text <-> k = l)) ∧
    forall k l : FindingKey, k.NulFree -> l.NulFree ->
      (Digest.Xxh64.hashText (String.ofList k.text) =
        Digest.Xxh64.hashText (String.ofList l.text) -> k.text = l.text) ->
      (k.id = l.id <-> k = l) := by
  refine ⟨?_, ?_, ?_, ?_⟩
  · intro n
    rw [Digest.Base62.encode, String.length_ofList, String.toList_ofList]
    exact ⟨Digest.Base62.length_digits 11 n.toNat,
      fun c hc => Digest.Base62.mem_alphabet_of_mem_digits hc,
      Digest.Base62.digits_eq_leftpad (Digest.Base62.toNat_lt_pow n)⟩
  · intro n m
    exact ⟨⟨Digest.Base62.encode_inj, congrArg _⟩, Digest.Base62.encode_lt_iff n m⟩
  · intro k l hk hl
    exact ⟨text_inj hk hl, congrArg _⟩
  · intro k l hk hl hapart
    refine ⟨?_, congrArg _⟩
    intro hid
    exact text_inj hk hl (hapart (digest_eq_of_id_eq hid))

def shortEvent : FindingKey :=
  ⟨"missing_property", "a", "bc", "handlers/drop.js", ""⟩

def longEvent : FindingKey :=
  ⟨"missing_property", "ab", "c", "handlers/drop.js", ""⟩

theorem movedLetter_other_id :
    shortEvent.NulFree ∧ longEvent.NulFree ∧
      Digest.Xxh64.hashText (String.ofList shortEvent.text) ≠
        Digest.Xxh64.hashText (String.ofList longEvent.text) ∧
      shortEvent.id ≠ longEvent.id := by
  have hshort : shortEvent.NulFree := by decide
  have hlong : longEvent.NulFree := by decide
  have hdigest : Digest.Xxh64.hashText (String.ofList shortEvent.text) ≠
      Digest.Xxh64.hashText (String.ofList longEvent.text) := by decide +kernel
  have hid := ids_identify_keys.2.2.2 shortEvent longEvent hshort hlong
    fun hsame => absurd hsame hdigest
  refine ⟨hshort, hlong, hdigest, ?_⟩
  rw [Ne, hid]
  decide

end FindingKey
end PayloadFlow
