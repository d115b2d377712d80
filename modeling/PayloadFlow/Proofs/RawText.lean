import Mathlib.Data.List.Basic
import PayloadFlow.Path

/-!
# Paths as they are shown

The UTF-8 form of a text is shown as the text, so two paths that are texts are shown alike
only if they are equal.  A slash is never part of another character: a path is shown as its
steps are, one by one.  Paths that are no texts can be shown alike.
-/

namespace PayloadFlow
namespace RawText

@[simp] theorem bytes_append (a b : RawText) : (a ++ b).bytes = a.bytes ++ b.bytes :=
  rfl

@[simp] theorem bytes_empty : empty.bytes = [] :=
  rfl

instance : Std.TransOrd RawText where
  eq_swap {a b} :=
    (Std.OrientedCmp.eq_swap : compare a.bytes b.bytes = (compare b.bytes a.bytes).swap)
  isLE_trans {a _ c} hab hbc :=
    (Std.TransCmp.isLE_trans hab hbc : (compare a.bytes c.bytes).isLE)

instance : Std.LawfulEqOrd RawText where
  compare_self {a} := (Std.ReflCmp.compare_self : compare a.bytes a.bytes = .eq)
  eq_of_compare {a b} heq :=
    RawText.ext (Std.LawfulEqCmp.eq_of_compare (show compare a.bytes b.bytes = .eq from heq))

/-!
# The bytes of one character
-/

theorem opening_ascii {n : Nat} (hn : n < 0x80) :
    opening (UInt8.ofNat n) = ([Char.ofNat n], none) := by
  have hnat : (UInt8.ofNat n).toNat = n :=
    UInt8.toNat_ofNat_of_lt (show n < 0x100 by omega)
  rw [opening, if_pos (by simpa [UInt8.lt_iff_toNat_lt, hnat] using hn), hnat]

theorem opening_two {n : Nat} (hlow : 2 <= n) (hhigh : n < 0x20) :
    opening (UInt8.ofNat (n + 0xc0)) = ([], some { value := n, more := 1 }) := by
  have hnat : (UInt8.ofNat (n + 0xc0)).toNat = n + 0xc0 :=
    UInt8.toNat_ofNat_of_lt (show n + 0xc0 < 0x100 by omega)
  simp only [opening, UInt8.lt_iff_toNat_lt, hnat]
  rw [if_neg (by simp), if_neg (by simp; omega), if_pos (by simp; omega)]
  simp

theorem opening_three {n : Nat} (hhigh : n < 0x10) :
    opening (UInt8.ofNat (n + 0xe0)) =
      ([], some ⟨n, 2, lowest (UInt8.ofNat (n + 0xe0)), highest (UInt8.ofNat (n + 0xe0)),
        le_lowest _⟩) := by
  have hnat : (UInt8.ofNat (n + 0xe0)).toNat = n + 0xe0 :=
    UInt8.toNat_ofNat_of_lt (show n + 0xe0 < 0x100 by omega)
  simp only [opening, UInt8.lt_iff_toNat_lt, hnat]
  rw [if_neg (by simp), if_neg (by simp), if_neg (by simp), if_pos (by simp; omega)]
  simp

theorem opening_four {n : Nat} (hhigh : n < 5) :
    opening (UInt8.ofNat (n + 0xf0)) =
      ([], some ⟨n, 3, lowest (UInt8.ofNat (n + 0xf0)), highest (UInt8.ofNat (n + 0xf0)),
        le_lowest _⟩) := by
  have hnat : (UInt8.ofNat (n + 0xf0)).toNat = n + 0xf0 :=
    UInt8.toNat_ofNat_of_lt (show n + 0xf0 < 0x100 by omega)
  simp only [opening, UInt8.lt_iff_toNat_lt, hnat]
  rw [if_neg (by simp), if_neg (by simp), if_neg (by simp), if_neg (by simp),
    if_pos (by simp; omega)]
  simp

theorem lowest_le {first : UInt8} {n : Nat} (hthree : first.toNat = 0xe0 -> 0x20 <= n)
    (hfour : first.toNat = 0xf0 -> 0x10 <= n) : (lowest first).toNat <= n + 0x80 := by
  unfold lowest
  split
  · rename_i hfirst
    have := hthree (by rw [beq_iff_eq.mp hfirst]; rfl)
    simp
    omega
  · split
    · rename_i hfirst
      have := hfour (by rw [beq_iff_eq.mp hfirst]; rfl)
      simp
      omega
    · simp

theorem le_highest {first : UInt8} {n : Nat} (hthree : first.toNat = 0xed -> n < 0x20)
    (hfour : first.toNat = 0xf4 -> n < 0x10) (hn : n < 0x40) :
    n + 0x80 <= (highest first).toNat := by
  unfold highest
  split
  · rename_i hfirst
    have := hthree (by rw [beq_iff_eq.mp hfirst]; rfl)
    simp
    omega
  · split
    · rename_i hfirst
      have := hfour (by rw [beq_iff_eq.mp hfirst]; rfl)
      simp
      omega
    · simp
      omega

theorem step_between {c : Begun} {n : Nat} (hlow : c.low.toNat <= n + 0x80)
    (hhigh : n + 0x80 <= c.high.toNat) :
    step (some c) (UInt8.ofNat (n + 0x80)) =
      if c.more <= 1 then ([Char.ofNat (c.value * 0x40 + n)], none)
      else ([], some { value := c.value * 0x40 + n, more := c.more - 1 }) := by
  have hlt := c.high.toNat_lt
  have hnat : (UInt8.ofNat (n + 0x80)).toNat = n + 0x80 :=
    UInt8.toNat_ofNat_of_lt (show n + 0x80 < 0x100 by omega)
  simp only [step, UInt8.le_iff_toNat_le, hnat, hlow, hhigh, decide_true, Bool.and_self, if_true,
    Nat.add_sub_cancel]

theorem step_after {c : Begun} {n : Nat} (hlow : c.low = 0x80) (hhigh : c.high = 0xbf)
    (hn : n < 0x40) :
    step (some c) (UInt8.ofNat (n + 0x80)) =
      if c.more <= 1 then ([Char.ofNat (c.value * 0x40 + n)], none)
      else ([], some { value := c.value * 0x40 + n, more := c.more - 1 }) := by
  apply step_between
  · rw [hlow]
    simp
  · rw [hhigh]
    simp
    omega

theorem decode_cons (begun : Option Begun) (b : UInt8) (rest : List UInt8) :
    decode begun (b :: rest) = (step begun b).1 ++ decode (step begun b).2 rest := by
  cases begun with
  | none => rfl
  | some c => rfl

/-- The bytes of a character are shown as the character, whatever follows them. -/
theorem decode_utf8EncodeChar (c : Char) (rest : List UInt8) :
    decode none (String.utf8EncodeChar c ++ rest) = c :: decode none rest := by
  have hchar : Char.ofNat c.val.toNat = c := Char.ofNat_toNat c
  have hvalid : c.val.toNat < 0xd800 ∨ (0xdfff < c.val.toNat ∧ c.val.toNat < 0x110000) := c.valid
  unfold String.utf8EncodeChar
  generalize c.val.toNat = v at hchar hvalid
  dsimp only
  split
  · rw [List.singleton_append, decode_cons, step, opening_ascii (by omega), hchar]
    rfl
  · split
    · have hfirst := opening_two (n := v / 64 % 32) (by omega) (by omega)
      have hvalue : v / 64 % 32 * 0x40 + v % 64 = v := by omega
      simp only [List.cons_append, List.nil_append, decode_cons, step.eq_1, hfirst]
      rw [step_after rfl rfl (by omega), if_pos (by simp), hvalue, hchar]
      rfl
    · split
      · have hfirst := opening_three (n := v / 4096 % 16) (by omega)
        have hnat : (UInt8.ofNat (v / 4096 % 16 + 0xe0)).toNat = v / 4096 % 16 + 0xe0 :=
          UInt8.toNat_ofNat_of_lt (show _ < 0x100 by omega)
        have hvalue : (v / 4096 % 16 * 0x40 + v / 64 % 64) * 0x40 + v % 64 = v := by omega
        simp only [List.cons_append, List.nil_append, decode_cons, step.eq_1, hfirst]
        rw [step_between (lowest_le (by omega) (by omega))
            (le_highest (by omega) (by omega) (by omega)), if_neg (by simp)]
        dsimp only
        rw [step_after rfl rfl (by omega), if_pos (by simp), hvalue, hchar]
        rfl
      · have hfirst := opening_four (n := v / 262144 % 8) (by omega)
        have hnat : (UInt8.ofNat (v / 262144 % 8 + 0xf0)).toNat = v / 262144 % 8 + 0xf0 :=
          UInt8.toNat_ofNat_of_lt (show _ < 0x100 by omega)
        have hvalue : ((v / 262144 % 8 * 0x40 + v / 4096 % 64) * 0x40 + v / 64 % 64) * 0x40 +
            v % 64 = v := by omega
        simp only [List.cons_append, List.nil_append, decode_cons, step.eq_1, hfirst]
        rw [step_between (lowest_le (by omega) (by omega))
            (le_highest (by omega) (by omega) (by omega)), if_neg (by simp)]
        dsimp only
        rw [step_after rfl rfl (by omega), if_neg (by simp)]
        dsimp only
        rw [step_after rfl rfl (by omega), if_pos (by simp), hvalue, hchar]
        rfl

/-!
# Texts
-/

theorem text_ofString (s : String) : text (ofString s) = s := by
  have hdecode : forall chars : List Char,
      decode none (chars.flatMap String.utf8EncodeChar) = chars := by
    intro chars
    induction chars with
    | nil =>
        rfl
    | cons c rest ih =>
        rw [List.flatMap_cons, decode_utf8EncodeChar, ih]
  rw [text, ofString, hdecode, String.ofList_toList]

/-- Bytes that are the UTF-8 form of a text. -/
def IsText (t : RawText) : Prop :=
  exists s, t = ofString s

theorem isText_ofString (s : String) : IsText (ofString s) :=
  ⟨s, rfl⟩

theorem eq_of_text_eq {a b : RawText} (ha : IsText a) (hb : IsText b) (htext : a.text = b.text) :
    a = b := by
  rcases ha with ⟨s, rfl⟩
  rcases hb with ⟨t, rfl⟩
  rw [text_ofString, text_ofString] at htext
  rw [htext]

example : text ⟨[0xff]⟩ = text ⟨[0xfe]⟩ := by
  decide

/-!
# Slashes
-/

theorem step_slash (begun : Option Begun) :
    step begun Path.slash = (begun.toList.map (fun _ => mark) ++ ['/'], none) := by
  cases begun with
  | none =>
      rfl
  | some c =>
      have hlow : ¬ c.low <= Path.slash := by
        intro hle
        exact absurd (UInt8.le_trans c.le_low hle) (by decide)
      simp only [step, hlow]
      rfl

theorem decode_append_slash (begun : Option Begun) (front rest : List UInt8) :
    decode begun (front ++ Path.slash :: rest) = decode begun front ++ '/' :: decode none rest := by
  induction front generalizing begun with
  | nil =>
      rw [List.nil_append, decode_cons, step_slash]
      cases begun with
      | none => rfl
      | some c => rfl
  | cons b front ih =>
      rw [List.cons_append, decode_cons, decode_cons, ih, List.append_assoc]

theorem text_append_slash (front rest : RawText) :
    (front ++ Path.top ++ rest).text = front.text ++ "/" ++ rest.text := by
  have hbytes : (front ++ Path.top ++ rest).bytes = front.bytes ++ Path.slash :: rest.bytes := by
    simp [Path.top]
  apply String.toList_inj.mp
  simp [text, hbytes, decode_append_slash]

end RawText

namespace Path

open RawText

theorem ofNames_cons_cons (name next : RawText) (names : List RawText) :
    ofNames (name :: next :: names) = name ++ top ++ ofNames (next :: names) := by
  apply RawText.ext
  simp [ofNames, top, List.intercalate]

theorem text_ofNames (names : List RawText) :
    (ofNames names).text = String.intercalate "/" (names.map RawText.text) := by
  induction names with
  | nil =>
      rfl
  | cons name names ih =>
      cases names with
      | nil =>
          simp [ofNames, List.intercalate]
      | cons next names =>
          rw [ofNames_cons_cons, text_append_slash, ih]
          simp only [List.map_cons, String.intercalate_cons_cons]

end Path
end PayloadFlow
