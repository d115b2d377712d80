import Mathlib.Data.List.Infix
import PayloadFlow.Expression.Classify

/-!
# Balanced texts

Quotes and brackets move the reader of an expression.  A balanced text closes no
bracket that it has not opened, and leaves the reader where it was.  So it may
stand inside any other text: what comes after it is read as if it were not there,
and what is in it stays above the brackets around it.  In particular a
parenthesis before a balanced text is closed by the one after it, and the kind of
the text does not depend on such parentheses.
-/

namespace PayloadFlow

namespace Text

/-!
# Trimming around a character that is not blank
-/

theorem trimStart_append_cons (front : List Char) {c : Char} (hc : isBlank c = false)
    (rest : List Char) : trimStart (front ++ c :: rest) = trimStart front ++ c :: rest := by
  unfold trimStart
  rw [List.dropWhile_append]
  split
  · rename_i hempty
    rw [List.isEmpty_iff.mp hempty, List.nil_append]
    exact List.dropWhile_cons_of_neg (by simp [hc])
  · rfl

theorem trimEnd_append_cons (front : List Char) {c : Char} (hc : isBlank c = false)
    (rest : List Char) : trimEnd (front ++ c :: rest) = front ++ c :: trimEnd rest := by
  have hreverse := trimStart_append_cons rest.reverse hc front.reverse
  unfold trimStart at hreverse
  unfold trimEnd
  rw [List.reverse_append, List.reverse_cons, List.append_assoc, List.singleton_append, hreverse]
  simp

theorem trim_append_cons (front : List Char) {c : Char} (hc : isBlank c = false)
    (rest : List Char) : trim (front ++ c :: rest) = trimStart front ++ c :: trimEnd rest := by
  rw [trim, trimStart_append_cons front hc, trimEnd_append_cons (trimStart front) hc]

theorem trimEnd_append_blanks (text : List Char) {blanks : List Char}
    (hblanks : forall c, c ∈ blanks -> isBlank c = true) :
    trimEnd (text ++ blanks) = trimEnd text := by
  unfold trimEnd
  rw [List.reverse_append, List.dropWhile_append_of_pos]
  intro c hc
  exact hblanks c (List.mem_reverse.mp hc)

theorem trim_padded {before after : List Char} (text : List Char)
    (hbefore : forall c, c ∈ before -> isBlank c = true)
    (hafter : forall c, c ∈ after -> isBlank c = true) :
    trim (before ++ text ++ after) = trim text := by
  have hstart : trimStart (before ++ text ++ after) = trimStart (text ++ after) := by
    rw [List.append_assoc]
    exact List.dropWhile_append_of_pos hbefore
  have hnothing : trimStart after = [] := by
    have hdropped : (after ++ []).dropWhile isBlank = [].dropWhile isBlank :=
      List.dropWhile_append_of_pos hafter
    rwa [List.append_nil] at hdropped
  rw [trim, trim, hstart, trimStart, List.dropWhile_append]
  split
  · rename_i hempty
    rw [trimStart, List.isEmpty_iff.mp hempty]
    exact congrArg trimEnd hnothing
  · exact trimEnd_append_blanks _ hafter

end Text

namespace Expression

open Text

/-!
# The reader of an expression
-/

structure Reader where
  reading : Reading
  depth : Int
  deriving DecidableEq, Repr

namespace Reader

def start : Reader :=
  ⟨.plain, 0⟩

def step (r : Reader) (c : Char) : Reader :=
  match r.reading with
  | .escaped q => { r with reading := .quoted q }
  | .quoted q =>
      if c == '\\' then { r with reading := .escaped q }
      else if c == q then { r with reading := .plain }
      else r
  | .plain =>
      if isQuote c then { r with reading := .quoted c }
      else { r with depth := depthAfter r.depth c }

def run (r : Reader) (text : List Char) : Reader :=
  text.foldl step r

@[simp]
theorem run_nil (r : Reader) : r.run [] = r :=
  rfl

@[simp]
theorem run_cons (r : Reader) (c : Char) (rest : List Char) :
    r.run (c :: rest) = (r.step c).run rest :=
  rfl

theorem run_append (r : Reader) (front rest : List Char) :
    r.run (front ++ rest) = (r.run front).run rest :=
  List.foldl_append

def raised (r : Reader) (more : Int) : Reader :=
  { r with depth := r.depth + more }

theorem depthAfter_add (depth more : Int) (c : Char) :
    depthAfter (depth + more) c = depthAfter depth c + more := by
  unfold depthAfter
  split
  · omega
  · split
    · omega
    · rfl

theorem step_raised (r : Reader) (more : Int) (c : Char) :
    (r.raised more).step c = (r.step c).raised more := by
  rcases r with ⟨reading, depth⟩
  cases reading with
  | plain =>
      by_cases hc : isQuote c = true
      · simp [step, raised, hc]
      · simp [step, raised, hc, depthAfter_add]
  | quoted q =>
      simp only [step, raised]
      split
      · rfl
      · split <;> rfl
  | escaped q =>
      rfl

theorem run_raised (r : Reader) (more : Int) (text : List Char) :
    (r.raised more).run text = (r.run text).raised more := by
  induction text generalizing r with
  | nil =>
      rfl
  | cons c rest ih =>
      rw [run_cons, run_cons, step_raised, ih]

end Reader

def Spot.followedBy (s : Spot) (more : List Char) : Spot :=
  { s with rest := s.rest ++ more }

/-- The spots of two texts, one after the other.  The second one is read from
where the first one leaves the reader. -/
theorem spotsFrom_append (reading : Reading) (depth : Int) (previous : Option Char)
    (front rest : List Char) :
    spotsFrom reading depth previous (front ++ rest) =
      (spotsFrom reading depth previous front).map (·.followedBy rest) ++
        spotsFrom (Reader.run ⟨reading, depth⟩ front).reading
          (Reader.run ⟨reading, depth⟩ front).depth (front.getLast?.or previous) rest := by
  induction front generalizing reading depth previous with
  | nil =>
      rfl
  | cons c front ih =>
      have hlast : (c :: front).getLast?.or previous = front.getLast?.or (some c) := by
        cases hfront : front.getLast? <;> simp [List.getLast?_cons, hfront]
      rw [hlast, Reader.run_cons, List.cons_append]
      cases reading with
      | plain =>
          by_cases hc : isQuote c = true
          · simp only [spotsFrom, Reader.step, hc, if_true]
            exact ih _ _ _
          · simp only [spotsFrom, Reader.step, hc, Bool.false_eq_true, if_false, List.map_cons,
              List.cons_append]
            exact congrArg _ (ih _ _ _)
      | quoted q =>
          simp only [spotsFrom, Reader.step]
          split
          · exact ih _ _ _
          · split
            · exact ih _ _ _
            · exact ih _ _ _
      | escaped q =>
          simp only [spotsFrom, Reader.step]
          exact ih _ _ _

/-- After a spot the reader stands outside literals, at the depth of the spot. -/
theorem run_of_mem_spotsFrom {reading : Reading} {depth : Int} {previous : Option Char}
    {text : List Char} {s : Spot} (hs : s ∈ spotsFrom reading depth previous text) :
    exists front, text = front ++ s.char :: s.rest ∧
      Reader.run ⟨reading, depth⟩ (front ++ [s.char]) = ⟨.plain, s.depth⟩ := by
  induction text generalizing reading depth previous with
  | nil =>
      cases hs
  | cons c rest ih =>
      -- a spot of the rest is found from the reader after the first character
      have hlater : forall {r : Reader}, Reader.step ⟨reading, depth⟩ c = r ->
          s ∈ spotsFrom r.reading r.depth (some c) rest ->
          exists front, c :: rest = front ++ s.char :: s.rest ∧
            Reader.run ⟨reading, depth⟩ (front ++ [s.char]) = ⟨.plain, s.depth⟩ := by
        intro r hstep hs
        rcases ih hs with ⟨front, hrest, hrun⟩
        refine ⟨c :: front, congrArg (c :: ·) hrest, ?_⟩
        rw [List.cons_append, Reader.run_cons, hstep]
        exact hrun
      cases reading with
      | plain =>
          by_cases hc : isQuote c = true
          · simp only [spotsFrom, hc, if_true] at hs
            exact hlater (r := ⟨.quoted c, depth⟩) (by simp [Reader.step, hc]) hs
          · simp only [spotsFrom, hc, Bool.false_eq_true, if_false, List.mem_cons] at hs
            rcases hs with rfl | hs
            · exact ⟨[], rfl, by simp [Reader.step, hc]⟩
            · exact hlater (r := ⟨.plain, depthAfter depth c⟩) (by simp [Reader.step, hc]) hs
      | quoted q =>
          simp only [spotsFrom] at hs
          split at hs
          · rename_i hc
            exact hlater (r := ⟨.escaped q, depth⟩) (by simp [Reader.step, hc]) hs
          · split at hs
            · rename_i hslash hc
              exact hlater (r := ⟨.plain, depth⟩) (by simp [Reader.step, hslash, hc]) hs
            · rename_i hslash hc
              exact hlater (r := ⟨.quoted q, depth⟩) (by simp [Reader.step, hslash, hc]) hs
      | escaped q =>
          exact hlater rfl hs

/-!
# Balanced texts
-/

/-- No bracket is closed before it is opened, and in the end no bracket and no
literal is open. -/
structure Balanced (text : List Char) : Prop where
  nonneg : forall initial, initial <+: text -> 0 <= (Reader.start.run initial).depth
  closed : Reader.start.run text = Reader.start

instance (text : List Char) : Decidable (Balanced text) :=
  decidable_of_iff
    ((forall initial, initial ∈ text.inits -> 0 <= (Reader.start.run initial).depth) ∧
      Reader.start.run text = Reader.start)
    ⟨fun h => ⟨fun initial hinitial => h.1 initial ((List.mem_inits initial text).mpr hinitial),
        h.2⟩,
      fun h =>
        ⟨fun initial hinitial => h.nonneg initial ((List.mem_inits initial text).mp hinitial),
          h.closed⟩⟩

structure IsInert (c : Char) : Prop where
  quote : isQuote c = false
  depth : forall depth, depthAfter depth c = depth

def quotesAndBrackets : List Char :=
  ['\x27', '"', '\x60', '(', '[', '\x7b', ')', ']', '\x7d']

theorem isInert_of_class {p : Char -> Bool} (hmarks : quotesAndBrackets.any p = false) {c : Char}
    (hc : p c = true) : IsInert c := by
  have hne : forall m, m ∈ quotesAndBrackets -> c ≠ m := by
    rintro m hm rfl
    exact List.any_eq_false.mp hmarks c hm hc
  simp only [quotesAndBrackets, List.forall_mem_cons] at hne
  rcases hne with ⟨hsingle, hdouble, hbacktick, hparen, hsquare, hcurly, hparen', hsquare',
    hcurly', _⟩
  constructor
  · simp [isQuote, hsingle, hdouble, hbacktick]
  · intro depth
    simp [depthAfter, hparen, hsquare, hcurly, hparen', hsquare', hcurly']

theorem isInert_of_isBlank {c : Char} (hc : isBlank c = true) : IsInert c :=
  isInert_of_class (p := isBlank) (by decide) hc

theorem Reader.run_inert {text : List Char} (htext : forall c, c ∈ text -> IsInert c)
    (depth : Int) : Reader.run ⟨.plain, depth⟩ text = ⟨.plain, depth⟩ := by
  induction text with
  | nil =>
      rfl
  | cons c rest ih =>
      have hc := htext c List.mem_cons_self
      have hstep : Reader.step ⟨.plain, depth⟩ c = ⟨.plain, depth⟩ := by
        simp [Reader.step, hc.quote, hc.depth]
      rw [Reader.run_cons, hstep]
      exact ih fun d hd => htext d (List.mem_cons_of_mem c hd)

theorem depth_of_mem_spotsFrom_inert {text : List Char}
    (htext : forall c, c ∈ text -> IsInert c) {depth : Int} {previous : Option Char} {s : Spot}
    (hs : s ∈ spotsFrom .plain depth previous text) : s.depth = depth := by
  rcases run_of_mem_spotsFrom hs with ⟨front, rfl, hrun⟩
  have hinitial : front ++ [s.char] <+: front ++ s.char :: s.rest := ⟨s.rest, by simp⟩
  have hflat := Reader.run_inert (fun c hc => htext c (hinitial.subset hc)) depth
  rw [hrun] at hflat
  exact congrArg Reader.depth hflat

theorem balanced_of_inert {text : List Char} (htext : forall c, c ∈ text -> IsInert c) :
    Balanced text where
  nonneg := by
    intro initial hinitial
    have hrun := Reader.run_inert (fun c hc => htext c (hinitial.subset hc)) 0
    exact Int.le_of_eq (congrArg Reader.depth hrun).symm
  closed := Reader.run_inert htext 0

namespace Balanced

variable {text : List Char}

theorem run_eq (h : Balanced text) (depth : Int) :
    Reader.run ⟨.plain, depth⟩ text = ⟨.plain, depth⟩ := by
  have hraised := Reader.run_raised Reader.start depth text
  rw [h.closed] at hraised
  simpa [Reader.start, Reader.raised] using hraised

theorem le_run_depth (h : Balanced text) (depth : Int) {initial : List Char}
    (hinitial : initial <+: text) : depth <= (Reader.run ⟨.plain, depth⟩ initial).depth := by
  have hraised := Reader.run_raised Reader.start depth initial
  have hnonneg := h.nonneg initial hinitial
  have hstart : Reader.start.raised depth = ⟨.plain, depth⟩ := by
    simp [Reader.start, Reader.raised]
  rw [hstart] at hraised
  rw [hraised]
  show depth <= (Reader.start.run initial).depth + depth
  omega

/-- What is in a balanced text stays above the brackets around it. -/
theorem le_depth (h : Balanced text) {depth : Int} {previous : Option Char} {s : Spot}
    (hs : s ∈ spotsFrom .plain depth previous text) : depth <= s.depth := by
  rcases run_of_mem_spotsFrom hs with ⟨front, htext, hrun⟩
  have hinitial : front ++ [s.char] <+: text := ⟨s.rest, by simp [htext]⟩
  have hle := h.le_run_depth depth hinitial
  rwa [hrun] at hle

/-- What comes after a balanced text is read as if the text were not there. -/
theorem spotsFrom_append (h : Balanced text) (depth : Int) (previous : Option Char)
    (rest : List Char) :
    spotsFrom .plain depth previous (text ++ rest) =
      (spotsFrom .plain depth previous text).map (·.followedBy rest) ++
        spotsFrom .plain depth (text.getLast?.or previous) rest := by
  rw [Expression.spotsFrom_append, h.run_eq]

theorem append {rest : List Char} (h : Balanced text) (hrest : Balanced rest) :
    Balanced (text ++ rest) where
  nonneg := by
    intro initial hinitial
    rcases List.prefix_or_prefix_of_prefix hinitial (List.prefix_append text rest) with
      hshort | ⟨more, rfl⟩
    · exact h.nonneg initial hshort
    · rw [Reader.run_append, h.closed]
      exact hrest.nonneg more ((List.prefix_append_right_inj text).mp hinitial)
  closed := by
    rw [Reader.run_append, h.closed, hrest.closed]

theorem of_append {front rest : List Char} (hfront : Balanced front)
    (h : Balanced (front ++ rest)) : Balanced rest where
  nonneg := by
    intro initial hinitial
    have hnonneg := h.nonneg (front ++ initial) ((List.prefix_append_right_inj front).mpr hinitial)
    rwa [Reader.run_append, hfront.closed] at hnonneg
  closed := by
    have hclosed := h.closed
    rwa [Reader.run_append, hfront.closed] at hclosed

theorem trimmed (h : Balanced text) : Balanced (trimStart text) := by
  have hblanks : Balanced (text.takeWhile isBlank) := balanced_of_inert fun c hc =>
    isInert_of_isBlank (List.all_eq_true.mp List.all_takeWhile c hc)
  apply of_append hblanks
  rwa [trimStart, List.takeWhile_append_dropWhile]

theorem enclosed (h : Balanced text) : Balanced ('(' :: (text ++ [')'])) where
  nonneg := by
    intro initial hinitial
    rcases List.prefix_cons_iff.mp hinitial with rfl | ⟨inner, rfl, hinner⟩
    · exact Int.le_refl 0
    · have hopen : Reader.start.run ('(' :: inner) = Reader.run ⟨.plain, 1⟩ inner := rfl
      rw [hopen]
      rcases List.prefix_concat_iff.mp hinner with rfl | hinner
      · rw [Reader.run_append, h.run_eq]
        decide
      · have hle := h.le_run_depth 1 hinner
        omega
  closed := by
    have hopen : Reader.start.run ('(' :: (text ++ [')'])) =
        Reader.run ⟨.plain, 1⟩ (text ++ [')']) := rfl
    rw [hopen, Reader.run_append, h.run_eq]
    decide

theorem closesAtEnd_enclosed (h : Balanced text) : closesAtEnd ('(' :: (text ++ [')'])) = true := by
  have hspots : spots ('(' :: (text ++ [')'])) =
      ⟨none, '(', text ++ [')'], 1⟩ :: spotsFrom .plain 1 (some '(') (text ++ [')']) := rfl
  -- inside, the depth never falls below 1, so that only the last spot qualifies
  have hinner : (((spotsFrom .plain 1 (some '(') text).map (·.followedBy [')'])).find?
      fun s => s.char == ')' && s.depth == 0) = none := by
    rw [List.find?_eq_none]
    intro s hs
    rcases List.mem_map.mp hs with ⟨s, hmem, rfl⟩
    have hle := h.le_depth hmem
    have hdepth : (s.followedBy [')']).depth = s.depth := rfl
    simp only [hdepth, Bool.and_eq_true, beq_iff_eq, not_and]
    omega
  unfold closesAtEnd
  rw [hspots, h.spotsFrom_append, List.find?_cons_of_neg (by simp), List.find?_append, hinner]
  rfl

end Balanced

/-!
# Parentheses around a text
-/

/-- The text as a whole reads as one pair of parentheses. -/
def IsEnclosed (text : List Char) : Prop :=
  text.head? = some '(' ∧ closesAtEnd text = true

instance (text : List Char) : Decidable (IsEnclosed text) :=
  inferInstanceAs (Decidable (_ ∧ _))

theorem stripParens_of_not_isEnclosed {text : List Char} (h : ¬ IsEnclosed text) :
    stripParens text = text := by
  cases text with
  | nil =>
      rw [stripParens]
  | cons c rest =>
      rw [stripParens, if_neg]
      intro hboth
      rw [Bool.and_eq_true, beq_iff_eq] at hboth
      exact h ⟨congrArg some hboth.1, hboth.2⟩

theorem stripParens_of_isEnclosed {text : List Char} (h : IsEnclosed text) :
    stripParens text = stripParens (trim text.tail.dropLast) := by
  rcases h with ⟨hhead, hcloses⟩
  rcases List.head?_eq_some_iff.mp hhead with ⟨rest, rfl⟩
  rw [stripParens, if_pos (by rw [hcloses]; rfl), List.tail_cons]

/-- A text with blanks around it and pairs of parentheses around both, any number
of times. -/
inductive Parenthesized (text : List Char) : List Char -> Prop where
  | bare : Parenthesized text text
  | padded (before after : List Char) {inner : List Char} :
      (forall c, c ∈ before -> isBlank c = true) ->
      (forall c, c ∈ after -> isBlank c = true) ->
      Parenthesized text inner ->
      Parenthesized text (before ++ inner ++ after)
  | enclosed {inner : List Char} :
      Parenthesized text inner ->
      Parenthesized text ('(' :: (inner ++ [')']))

theorem Parenthesized.balanced {text outer : List Char} (h : Parenthesized text outer)
    (htext : Balanced text) : Balanced outer := by
  induction h with
  | bare =>
      exact htext
  | padded before after hbefore hafter _ ih =>
      have hbefore := balanced_of_inert fun c hc => isInert_of_isBlank (hbefore c hc)
      have hafter := balanced_of_inert fun c hc => isInert_of_isBlank (hafter c hc)
      exact (hbefore.append ih).append hafter
  | enclosed _ ih =>
      exact ih.enclosed

theorem Parenthesized.stripParens_trim {text outer : List Char} (h : Parenthesized text outer)
    (htext : Balanced text) : stripParens (trim outer) = stripParens (trim text) := by
  induction h with
  | bare =>
      rfl
  | padded before after hbefore hafter _ ih =>
      rw [trim_padded _ hbefore hafter, ih]
  | @enclosed inner hinner ih =>
      have hopen : trim ('(' :: (inner ++ [')'])) = '(' :: (inner ++ [')']) := by
        have hclose := trimEnd_append_cons inner (c := ')') (by decide) []
        have htrim := trim_append_cons [] (c := '(') (by decide) (inner ++ [')'])
        rw [hclose] at htrim
        exact htrim
      have hbalanced := hinner.balanced htext
      rw [hopen, stripParens_of_isEnclosed ⟨rfl, hbalanced.closesAtEnd_enclosed⟩, List.tail_cons,
        List.dropLast_concat, ih]

/-- Parentheses around a balanced text, and blanks around and inside them, do not
change its kind. -/
theorem classify_parenthesized {text outer : String} (htext : Balanced text.toList)
    (houter : Parenthesized text.toList outer.toList) : classify outer = classify text := by
  rw [classify, classify, houter.stripParens_trim htext]

theorem fallback_parenthesized :
    Balanced "zone ?? f(')')".toList ∧
      Parenthesized "zone ?? f(')')".toList " ( (zone ?? f(')')\t) )".toList ∧
      classify " ( (zone ?? f(')')\t) )" = classify "zone ?? f(')')" := by
  have hnone : forall c, c ∈ [] -> isBlank c = true := List.forall_mem_nil _
  have hspace : forall c, c ∈ [' '] -> isBlank c = true :=
    List.forall_mem_singleton.mpr (by decide)
  have htab : forall c, c ∈ ['\t'] -> isBlank c = true :=
    List.forall_mem_singleton.mpr (by decide)
  have htext : Balanced "zone ?? f(')')".toList := by decide
  have hinner : Parenthesized "zone ?? f(')')".toList "(zone ?? f(')')\t)".toList :=
    .enclosed (.padded [] ['\t'] hnone htab .bare)
  have houter : Parenthesized "zone ?? f(')')".toList " ( (zone ?? f(')')\t) )".toList :=
    .padded [' '] [] hspace hnone (.enclosed (.padded [' '] [' '] hspace hspace hinner))
  exact ⟨htext, houter, classify_parenthesized htext houter⟩

end Expression
end PayloadFlow
