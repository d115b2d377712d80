import Mathlib.Data.List.TakeWhile
import PayloadFlow.Text.Search

/-!
# Texts put together with a separator

Words can be read back from the text they were joined to as long as none of
them holds the separator.
-/

namespace PayloadFlow
namespace Text

theorem joinWith_append_singleton (separator : List Char) (words : List (List Char))
    (word : List Char) (hwords : words ≠ []) :
    joinWith separator (words ++ [word]) = joinWith separator words ++ separator ++ word := by
  induction words with
  | nil =>
      exact absurd rfl hwords
  | cons first rest ih =>
      cases rest with
      | nil =>
          rfl
      | cons second rest =>
          have hrest := ih (List.cons_ne_nil second rest)
          simp only [List.cons_append] at hrest
          simp only [List.cons_append, joinWith, hrest, List.append_assoc]

theorem joinWith_cons_cons (mark : Char) (first second : List Char) (rest : List (List Char)) :
    joinWith [mark] (first :: second :: rest) =
      first ++ mark :: joinWith [mark] (second :: rest) := by
  simp [joinWith]

theorem before_append (mark : Char) (text rest : List Char) :
    before mark (text ++ mark :: rest) = before mark text := by
  unfold before
  induction text with
  | nil =>
      simp
  | cons c text ih =>
      by_cases hc : c = mark
      · simp [hc]
      · simp [hc, ih]

theorem before_eq_self_iff (mark : Char) (text : List Char) :
    before mark text = text <-> mark ∉ text := by
  unfold before
  rw [List.takeWhile_eq_self_iff]
  constructor
  · intro hall hmark
    exact bne_iff_ne.mp (hall mark hmark) rfl
  · intro htext c hc
    rw [bne_iff_ne]
    rintro rfl
    exact htext hc

theorem before_of_not_mem {mark : Char} {text : List Char} (htext : mark ∉ text) :
    before mark text = text :=
  (before_eq_self_iff mark text).mpr htext

theorem append_mark_inj {mark : Char} {x y u v : List Char} (hx : mark ∉ x) (hy : mark ∉ y)
    (h : x ++ mark :: u = y ++ mark :: v) : x = y ∧ u = v := by
  have hxy : x = y := by
    have hbefore := congrArg (before mark) h
    rwa [before_append, before_append, before_of_not_mem hx, before_of_not_mem hy] at hbefore
  rw [hxy] at h
  exact ⟨hxy, (List.cons.inj (List.append_cancel_left h)).2⟩

theorem joinWith_inj {mark : Char} {xs ys : List (List Char)} (hxs : xs ≠ []) (hys : ys ≠ [])
    (hxmarks : forall x, x ∈ xs -> mark ∉ x) (hymarks : forall y, y ∈ ys -> mark ∉ y)
    (h : joinWith [mark] xs = joinWith [mark] ys) : xs = ys := by
  induction xs generalizing ys with
  | nil =>
      exact absurd rfl hxs
  | cons x xrest ih =>
      cases ys with
      | nil =>
          exact absurd rfl hys
      | cons y yrest =>
          have hx := hxmarks x List.mem_cons_self
          have hy := hymarks y List.mem_cons_self
          cases xrest with
          | nil =>
              cases yrest with
              | nil =>
                  exact congrArg (fun w => [w]) h
              | cons y' yrest =>
                  rw [joinWith_cons_cons] at h
                  have hmark : mark ∈ x := by
                    rw [show x = _ from h]
                    simp
                  exact absurd hmark hx
          | cons x' xrest =>
              cases yrest with
              | nil =>
                  rw [joinWith_cons_cons] at h
                  have hmark : mark ∈ y := by
                    rw [show y = _ from h.symm]
                    simp
                  exact absurd hmark hy
              | cons y' yrest =>
                  rw [joinWith_cons_cons, joinWith_cons_cons] at h
                  rcases append_mark_inj hx hy h with ⟨hxy, hrest⟩
                  rw [hxy, ih (List.cons_ne_nil _ _) (List.cons_ne_nil _ _)
                    (fun w hw => hxmarks w (List.mem_cons_of_mem _ hw))
                    (fun w hw => hymarks w (List.mem_cons_of_mem _ hw)) hrest]

end Text
end PayloadFlow
