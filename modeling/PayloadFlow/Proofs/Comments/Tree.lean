import Mathlib.Data.List.Find
import PayloadFlow.Script.Chain

/-!
# Trees without comments

A comment is a node among the children of the construct it stands in.  The tree without
comments has the same constructs at the same places; in their texts comments are
blanked, with line breaks kept.
-/

namespace PayloadFlow
namespace Script
namespace Node

/-!
# Comments below a node
-/

/-- A node and all nodes below it, comments and operators included. -/
def family (n : Node) : List Node :=
  n :: n.children.attach.flatMap fun ⟨c, _⟩ => family c
termination_by sizeOf n
decreasing_by exact sizeOf_lt_of_mem_children ‹_›

def isComment (n : Node) : Bool :=
  n.kind == .comment

def comments (n : Node) : List Node :=
  (n.children.flatMap family).filter isComment

/-!
# Blanks in place of comments
-/

def blankChar (c : Char) : Char :=
  if c == '\n' || c == '\r' || c == Char.ofNat 0x2028 || c == Char.ofNat 0x2029 then c else ' '

/-- A text that starts at some place, with blanks where it lies in a comment. -/
def blank (comments : List Node) (start : Nat) (text : List Char) : List Char :=
  text.mapIdx fun i c =>
    if comments.any fun k => k.start ≤ start + i && start + i < k.stop then blankChar c else c

/-- The tree without comments. -/
def uncommented (n : Node) : Node :=
  { n with
    text := String.ofList (blank n.comments n.start n.text.toList)
    children := (n.children.filter fun c => !c.isComment).attach.map fun ⟨c, _⟩ => uncommented c }
termination_by sizeOf n
decreasing_by exact sizeOf_lt_of_mem_children (List.mem_filter.mp ‹_›).1

/-- A source with blanks where a comment of its tree stands. -/
def blankedSource (program : Node) (source : String) : String :=
  String.ofList (blank program.comments 0 source.toList)

/-!
# Where comments may stand
-/

def isLeaf (n : Node) : Bool :=
  match n.kind with
  | .identifier | .thisWord | .string | .shorthandProperty | .shorthandPropertyPattern => true
  | .templateString => !n.parts.any fun c => c.kind == .templateSubstitution
  | _ => false

def isTypeof (n : Node) : Bool :=
  n.kind == .unaryExpression && "typeof".toList.isPrefixOf n.text.toList

def namingParts (n : Node) : List Node :=
  (n.child? .key).toList ++ (n.child? .property).toList ++ (n.child? .operator).toList ++
    match n.kind with
    | .variableDeclarator => []
    | .objectAssignmentPattern => (n.child? .left).toList
    | .restPattern => n.firstNamed?.toList
    | .exportClause => n.parts.flatMap fun specifier => (specifier.child? .name).toList
    | _ => (n.child? .name).toList

/-- Nodes that are about their first child. -/
def isAboutFirst (n : Node) : Bool :=
  n.kind.isWrapper || n.kind == .restPattern || n.kind == .spreadElement ||
    n.kind == .returnStatement

structure StandsIn (source : String) (n : Node) : Prop where
  text : n.text.toList = (source.toList.drop n.start).take n.text.length
  within : forall c, c ∈ n.children -> n.start ≤ c.start ∧ c.stop ≤ n.stop
  comment : n.isComment = true -> n.label = none ∧ n.text.toList.head? = some '/'
  identifier : n.kind = .identifier -> '/' ∉ n.text.toList ∧ ' ' ∉ n.text.toList
  leaf : n.isLeaf = true -> n.comments = []

def IsReadFrom (source : String) (n : Node) : Prop :=
  forall m, m ∈ n.family -> m.StandsIn source

/-- The comments at a node stand where the text of the node is not read and where no other
node is expected. -/
structure Unread (n : Node) : Prop where
  typeof : n.isTypeof = true -> n.comments = []
  naming : forall c, c ∈ n.namingParts -> c.comments = []
  notFirst : n.isAboutFirst = true -> forall c, c ∈ n.firstNamed? -> c.isComment = false
  /-- no comment between an object and its member holds the mark of an optional step -/
  optional : n.kind = .memberExpression -> forall object, object ∈ n.child? .object ->
    forall property, property ∈ n.child? .property ->
      (n.uncommented.between object property).contains '?' =
        (n.between object property).contains '?'

def CommentsUnread (n : Node) : Prop :=
  forall m, m ∈ n.family -> m.Unread

/-- What is known of a node that is read from a source and whose comments are unread. -/
structure Tidy (n : Node) : Prop extends n.Unread where
  unlabelled : forall c, c ∈ n.children -> c.isComment = true -> c.label = none
  placed : forall c, c ∈ n.comments ->
    n.start ≤ c.start ∧ n.text.toList[c.start - n.start]? = some '/' ∧ c.text ≠ ""
  identifier : n.kind = .identifier -> '/' ∉ n.text.toList ∧ ' ' ∉ n.text.toList
  leaf : n.isLeaf = true -> n.comments = []

def Tidied (n : Node) : Prop :=
  forall m, m ∈ n.family -> m.Tidy

/-!
# Deciding where comments stand
-/

mutual

def decEq : (a b : Node) -> Decidable (a = b)
  | ⟨kind, label, start, line, text, children⟩, ⟨kind', label', start', line', text', children'⟩ =>
      have : Decidable (children = children') := decEqList children children'
      decidable_of_iff
        (kind = kind' ∧ label = label' ∧ start = start' ∧ line = line' ∧
          text.toList = text'.toList ∧ children = children')
        (by simp [String.toList_inj])

def decEqList : (ns ms : List Node) -> Decidable (ns = ms)
  | [], [] => isTrue rfl
  | [], _ :: _ => isFalse (by simp)
  | _ :: _, [] => isFalse (by simp)
  | n :: ns, m :: ms =>
      have : Decidable (n = m) := decEq n m
      have : Decidable (ns = ms) := decEqList ns ms
      decidable_of_iff (n = m ∧ ns = ms) (by simp)

end

instance (source : String) (n : Node) : Decidable (n.StandsIn source) :=
  decidable_of_iff
    (n.text.toList = (source.toList.drop n.start).take n.text.length ∧
      (forall c, c ∈ n.children -> n.start ≤ c.start ∧ c.stop ≤ n.stop) ∧
      (n.isComment = true -> n.label = none ∧ n.text.toList.head? = some '/') ∧
      (n.kind = .identifier -> '/' ∉ n.text.toList ∧ ' ' ∉ n.text.toList) ∧
      (n.isLeaf = true -> n.comments = []))
    ⟨fun ⟨text, within, comment, identifier, leaf⟩ => ⟨text, within, comment, identifier, leaf⟩,
      fun h => ⟨h.text, h.within, h.comment, h.identifier, h.leaf⟩⟩

instance (source : String) (n : Node) : Decidable (n.IsReadFrom source) :=
  inferInstanceAs (Decidable (forall m, m ∈ n.family -> m.StandsIn source))

instance (n : Node) : Decidable n.Unread :=
  decidable_of_iff
    ((n.isTypeof = true -> n.comments = []) ∧ (forall c, c ∈ n.namingParts -> c.comments = []) ∧
      (n.isAboutFirst = true -> forall c, c ∈ n.firstNamed? -> c.isComment = false) ∧
      (n.kind = .memberExpression -> forall object, object ∈ n.child? .object ->
        forall property, property ∈ n.child? .property ->
          (n.uncommented.between object property).contains '?' =
            (n.between object property).contains '?'))
    ⟨fun ⟨typeof, naming, notFirst, optional⟩ => ⟨typeof, naming, notFirst, optional⟩,
      fun h => ⟨h.typeof, h.naming, h.notFirst, h.optional⟩⟩

instance (n : Node) : Decidable n.CommentsUnread :=
  inferInstanceAs (Decidable (forall m, m ∈ n.family -> m.Unread))

/-!
# Families
-/

theorem family_eq (n : Node) : n.family = n :: n.children.flatMap family := by
  rw [family, List.flatMap_subtype (g := family) (fun _ _ => rfl), List.unattach_attach]

theorem mem_family_self (n : Node) : n ∈ n.family := by
  rw [family_eq]
  exact List.mem_cons_self

theorem family_subset_of_mem_children {n c : Node} (hc : c ∈ n.children) :
    c.family ⊆ n.family := by
  intro m hm
  rw [family_eq n]
  exact List.mem_cons_of_mem _ (List.mem_flatMap.mpr ⟨c, hc, hm⟩)

theorem family_subset_of_mem_family (n : Node) {m : Node} (hm : m ∈ n.family) :
    m.family ⊆ n.family := by
  rw [family_eq] at hm
  rcases List.mem_cons.mp hm with rfl | hm
  · exact fun _ hk => hk
  · rcases List.mem_flatMap.mp hm with ⟨c, hc, hm⟩
    intro k hk
    exact family_subset_of_mem_children hc (family_subset_of_mem_family c hm hk)
termination_by sizeOf n
decreasing_by exact sizeOf_lt_of_mem_children hc

section

variable {tree n m : Node}

theorem mem_family_child (hn : n ∈ tree.family) {l : Label} (hm : n.child? l = some m) :
    m ∈ tree.family :=
  family_subset_of_mem_family tree hn
    (family_subset_of_mem_children (List.mem_of_find?_eq_some hm) (mem_family_self m))

theorem mem_family_part (hn : n ∈ tree.family) (hm : m ∈ n.parts) : m ∈ tree.family :=
  family_subset_of_mem_family tree hn
    (family_subset_of_mem_children (List.mem_filter.mp hm).1 (mem_family_self m))

theorem mem_family_firstNamed (hn : n ∈ tree.family) (hm : n.firstNamed? = some m) :
    m ∈ tree.family :=
  family_subset_of_mem_family tree hn
    (family_subset_of_mem_children (List.mem_of_find?_eq_some hm) (mem_family_self m))

theorem mem_family_unwrap (hn : n ∈ tree.family) : n.unwrap ∈ tree.family := by
  fun_induction Node.unwrap n with
  | case1 n hkind inner hinner ih =>
      exact ih (mem_family_firstNamed hn hinner)
  | case2 n hkind hinner =>
      exact hn
  | case3 n hkind =>
      exact hn

end

theorem comments_subset_of_mem_children {n c : Node} (hc : c ∈ n.children) :
    c.comments ⊆ n.comments := by
  intro m hm
  rcases List.mem_filter.mp hm with ⟨hbelow, hm⟩
  refine List.mem_filter.mpr ⟨List.mem_flatMap.mpr ⟨c, hc, ?_⟩, hm⟩
  rw [family_eq]
  exact List.mem_cons_of_mem _ hbelow

theorem comments_of_mem_children {n c : Node} (hn : n.comments = []) (hc : c ∈ n.children) :
    c.comments = [] := by
  have hsubset := comments_subset_of_mem_children hc
  rw [hn] at hsubset
  exact List.eq_nil_of_subset_nil hsubset

theorem not_isComment_of_mem_children {n c : Node} (hn : n.comments = []) (hc : c ∈ n.children) :
    c.isComment = false := by
  rw [← Bool.not_eq_true]
  intro hcomment
  have hmem : c ∈ n.comments :=
    List.mem_filter.mpr ⟨List.mem_flatMap.mpr ⟨c, hc, mem_family_self c⟩, hcomment⟩
  rw [hn] at hmem
  cases hmem

namespace Tidied

variable {n c : Node}

theorem self (h : n.Tidied) : n.Tidy :=
  h n (mem_family_self n)

theorem of_mem_family (h : n.Tidied) (hm : c ∈ n.family) : c.Tidied := by
  intro k hk
  exact h k (family_subset_of_mem_family n hm hk)

theorem of_mem_children (h : n.Tidied) (hc : c ∈ n.children) : c.Tidied :=
  h.of_mem_family (family_subset_of_mem_children hc (mem_family_self c))

theorem child (h : n.Tidied) {l : Label} (hc : n.child? l = some c) : c.Tidied :=
  h.of_mem_family (mem_family_child (mem_family_self n) hc)

theorem part (h : n.Tidied) (hc : c ∈ n.parts) : c.Tidied :=
  h.of_mem_family (mem_family_part (mem_family_self n) hc)

theorem firstNamed (h : n.Tidied) (hc : n.firstNamed? = some c) : c.Tidied :=
  h.of_mem_family (mem_family_firstNamed (mem_family_self n) hc)

theorem unwrap (h : n.Tidied) : n.unwrap.Tidied :=
  h.of_mem_family (mem_family_unwrap (mem_family_self n))

end Tidied

/-!
# Trees read from a source
-/

section

variable {n c : Node} {source : String}

theorem IsReadFrom.of_mem_children (h : n.IsReadFrom source) (hc : c ∈ n.children) :
    c.IsReadFrom source := by
  intro m hm
  exact h m (family_subset_of_mem_children hc hm)

theorem IsReadFrom.within (n : Node) (h : n.IsReadFrom source) {m : Node} (hm : m ∈ n.family) :
    n.start ≤ m.start ∧ m.stop ≤ n.stop := by
  rw [family_eq] at hm
  rcases List.mem_cons.mp hm with rfl | hm
  · exact ⟨Nat.le_refl _, Nat.le_refl _⟩
  · rcases List.mem_flatMap.mp hm with ⟨c, hc, hm⟩
    rcases (h n (mem_family_self n)).within c hc with ⟨hstart, hstop⟩
    rcases IsReadFrom.within c (h.of_mem_children hc) hm with ⟨hstart', hstop'⟩
    exact ⟨Nat.le_trans hstart hstart', Nat.le_trans hstop' hstop⟩
termination_by sizeOf n
decreasing_by exact sizeOf_lt_of_mem_children hc

theorem StandsIn.getElem? (h : n.StandsIn source) {i : Nat} (hi : i < n.text.length) :
    n.text.toList[i]? = source.toList[n.start + i]? := by
  rw [h.text, List.getElem?_take_of_lt hi, List.getElem?_drop]

/-- A comment starts with a slash in the text of every node around it. -/
theorem IsReadFrom.placed (h : n.IsReadFrom source) (hc : c ∈ n.comments) :
    n.start ≤ c.start ∧ n.text.toList[c.start - n.start]? = some '/' ∧ c.text ≠ "" := by
  rcases List.mem_filter.mp hc with ⟨hbelow, hcomment⟩
  have hfamily : c ∈ n.family := by
    rw [family_eq]
    exact List.mem_cons_of_mem n hbelow
  have hc := h c hfamily
  have hn := h n (mem_family_self n)
  rcases IsReadFrom.within n h hfamily with ⟨hstart, hstop⟩
  have hslash := (hc.comment hcomment).2
  have hnonempty : c.text ≠ "" := by
    intro hempty
    rw [hempty] at hslash
    cases hslash
  have hlength : 0 < c.text.length := by
    rw [Nat.pos_iff_ne_zero, Ne, String.length_eq_zero_iff]
    exact hnonempty
  refine ⟨hstart, ?_, hnonempty⟩
  have hi : c.start - n.start < n.text.length := by
    unfold stop at hstop
    omega
  rw [List.head?_eq_getElem?, hc.getElem? hlength] at hslash
  rw [hn.getElem? hi, Nat.add_sub_cancel' hstart]
  exact hslash

theorem tidied_of_isReadFrom (h : n.IsReadFrom source) (hunread : n.CommentsUnread) :
    n.Tidied := by
  intro m hm
  have hfrom : m.IsReadFrom source := fun k hk => h k (family_subset_of_mem_family n hm hk)
  have hself := h m hm
  refine { hunread m hm with unlabelled := ?_, placed := ?_, identifier := ?_, leaf := ?_ }
  · intro c hc hcomment
    exact ((hfrom.of_mem_children hc c (mem_family_self c)).comment hcomment).1
  · intro c hc
    exact hfrom.placed hc
  · exact hself.identifier
  · exact hself.leaf

end

/-!
# The tree without comments, node by node
-/

theorem uncommented_eq (n : Node) :
    n.uncommented =
      { n with
        text := String.ofList (blank n.comments n.start n.text.toList)
        children := (n.children.filter fun c => !c.isComment).map uncommented } := by
  rw [uncommented, List.map_subtype (g := uncommented) (fun _ _ => rfl), List.unattach_attach]

@[simp] theorem kind_uncommented (n : Node) : n.uncommented.kind = n.kind := by
  rw [uncommented_eq]

@[simp] theorem label_uncommented (n : Node) : n.uncommented.label = n.label := by
  rw [uncommented_eq]

@[simp] theorem start_uncommented (n : Node) : n.uncommented.start = n.start := by
  rw [uncommented_eq]

@[simp] theorem line_uncommented (n : Node) : n.uncommented.line = n.line := by
  rw [uncommented_eq]

theorem children_uncommented (n : Node) :
    n.uncommented.children = (n.children.filter fun c => !c.isComment).map uncommented := by
  rw [uncommented_eq]

theorem text_uncommented (n : Node) :
    n.uncommented.text.toList = blank n.comments n.start n.text.toList := by
  rw [uncommented_eq, String.toList_ofList]

@[simp] theorem length_text_uncommented (n : Node) :
    n.uncommented.text.length = n.text.length := by
  rw [← String.length_toList, text_uncommented, blank, List.length_mapIdx, String.length_toList]

@[simp] theorem stop_uncommented (n : Node) : n.uncommented.stop = n.stop := by
  unfold stop
  rw [start_uncommented, length_text_uncommented]

theorem getElem?_blank (comments : List Node) (start : Nat) (text : List Char) (i : Nat) :
    (blank comments start text)[i]? = (text[i]?).map fun c =>
      if comments.any fun k => k.start ≤ start + i && start + i < k.stop then blankChar c
      else c := by
  rw [blank, List.getElem?_mapIdx]

theorem blank_nil (start : Nat) (text : List Char) : blank [] start text = text := by
  apply List.ext_getElem?
  intro i
  rw [getElem?_blank]
  simp

/-- Without comments below it, a node stays as it is. -/
theorem uncommented_of_comments_eq_nil (n : Node) (hn : n.comments = []) : n.uncommented = n := by
  have hchildren : (n.children.filter fun c => !c.isComment).map uncommented = n.children := by
    have hfilter : (n.children.filter fun c => !c.isComment) = n.children := by
      rw [List.filter_eq_self]
      intro c hc
      rw [not_isComment_of_mem_children hn hc]
      rfl
    rw [hfilter]
    refine (List.map_congr_left ?_).trans (List.map_id _)
    intro c hc
    exact uncommented_of_comments_eq_nil c (comments_of_mem_children hn hc)
  rw [uncommented_eq, hchildren, hn, blank_nil, String.ofList_toList]
  cases n
  rfl
termination_by sizeOf n
decreasing_by exact sizeOf_lt_of_mem_children hc

section

variable {n : Node} {l : Label}

theorem child?_uncommented (h : n.Tidied) :
    n.uncommented.child? l = (n.child? l).map uncommented := by
  unfold child?
  rw [children_uncommented, List.find?_map, List.find?_filter]
  congr 1
  apply List.find?_congr
  intro c hc
  rw [Function.comp_apply, label_uncommented]
  cases hcomment : c.isComment with
  | true =>
      rw [h.self.unlabelled c hc hcomment]
      rfl
  | false =>
      rw [Bool.eq_iff_iff]
      simp

theorem isPart_uncommented (c : Node) : c.uncommented.isPart = c.isPart := by
  unfold isPart
  rw [kind_uncommented]

theorem parts_uncommented (n : Node) : n.uncommented.parts = n.parts.map uncommented := by
  unfold parts
  rw [children_uncommented, List.filter_map, List.filter_filter]
  congr 1
  apply List.filter_congr
  intro c hc
  rw [Function.comp_apply, isPart_uncommented]
  unfold isPart isComment bne
  cases c.kind == .comment with
  | true =>
      simp
  | false =>
      simp

theorem firstNamed?_uncommented (h : n.Tidied) (hn : n.isAboutFirst = true) :
    n.uncommented.firstNamed? = n.firstNamed?.map uncommented := by
  have hfirst := h.self.notFirst hn
  unfold firstNamed? at hfirst ⊢
  rw [children_uncommented, List.find?_map, List.find?_filter]
  congr 1
  cases hfound : n.children.find? fun c => c.kind.isNamed with
  | none =>
      rw [List.find?_eq_none] at hfound ⊢
      intro c hc
      have hnot := hfound c hc
      simp [hnot]
  | some c =>
      rcases List.find?_eq_some_iff_append.mp hfound with ⟨hnamed, before, after, hsplit, hbefore⟩
      rw [List.find?_eq_some_iff_append]
      refine ⟨?_, before, after, hsplit, ?_⟩
      · simp [hfirst c hfound, hnamed]
      · intro d hd
        have hnot := hbefore d hd
        simp_all

theorem unwrap_uncommented (h : n.Tidied) : n.uncommented.unwrap = n.unwrap.uncommented := by
  fun_induction Node.unwrap n with
  | case1 n hkind inner hinner ih =>
      have hfirst := firstNamed?_uncommented h (by simp [isAboutFirst, hkind])
      rw [hinner] at hfirst
      rw [unwrap, kind_uncommented, if_pos hkind]
      split
      · rename_i other hother
        rw [hother] at hfirst
        cases hfirst
        exact ih (h.firstNamed hinner)
      · rename_i hnone
        rw [hnone] at hfirst
        cases hfirst
  | case2 n hkind hinner =>
      have hfirst := firstNamed?_uncommented h (by simp [isAboutFirst, hkind])
      rw [hinner] at hfirst
      rw [unwrap, kind_uncommented, if_pos hkind]
      split
      · rename_i other hother
        rw [hother] at hfirst
        cases hfirst
      · rfl
  | case3 n hkind =>
      rw [unwrap, kind_uncommented, if_neg hkind]

theorem uncommented_of_isLeaf (h : n.Tidied) (hn : n.isLeaf = true) : n.uncommented = n :=
  uncommented_of_comments_eq_nil n (h.self.leaf hn)

theorem uncommented_of_mem_namingParts (h : n.Tidied) {c : Node} (hc : c ∈ n.namingParts) :
    c.uncommented = c :=
  uncommented_of_comments_eq_nil c (h.self.naming c hc)

end

/-!
# Texts with a comment in them

No word has a comment in it, neither as it is written nor blanked.
-/

def IsWord (text : String) : Prop :=
  '/' ∉ text.toList ∧ ' ' ∉ text.toList

theorem slash_mem_of_comments_ne_nil {n : Node} (h : n.Tidied) (hn : n.comments ≠ []) :
    '/' ∈ n.text.toList ∧ ' ' ∈ n.uncommented.text.toList := by
  rcases List.exists_mem_of_ne_nil _ hn with ⟨c, hc⟩
  rcases h.self.placed c hc with ⟨hstart, hslash, hnonempty⟩
  refine ⟨List.mem_of_getElem? hslash, ?_⟩
  have hlength : 0 < c.text.length := by
    rw [Nat.pos_iff_ne_zero, Ne, String.length_eq_zero_iff]
    exact hnonempty
  have hcovered : (n.comments.any fun k =>
      k.start ≤ n.start + (c.start - n.start) &&
        n.start + (c.start - n.start) < k.stop) = true := by
    rw [List.any_eq_true]
    refine ⟨c, hc, ?_⟩
    rw [Nat.add_sub_cancel' hstart]
    simp [stop, hlength]
  have hblank : n.uncommented.text.toList[c.start - n.start]? = some ' ' := by
    rw [text_uncommented, getElem?_blank, hslash, hcovered]
    rfl
  exact List.mem_of_getElem? hblank

theorem text_uncommented_eq_iff {n : Node} (h : n.Tidied) {word : String} (hword : IsWord word) :
    n.uncommented.text = word <-> n.text = word := by
  by_cases hn : n.comments = []
  · rw [uncommented_of_comments_eq_nil n hn]
  · rcases slash_mem_of_comments_ne_nil h hn with ⟨hslash, hblank⟩
    constructor
    · rintro rfl
      exact absurd hblank hword.2
    · rintro rfl
      exact absurd hslash hword.1

theorem isWord_of_identifier {n : Node} (h : n.Tidied) (hkind : n.kind = .identifier) :
    IsWord n.text :=
  h.self.identifier hkind

/-!
# Values and chains
-/

section

variable {n : Node}

theorem operator?_uncommented (h : n.Tidied) : n.uncommented.operator? = n.operator? := by
  unfold operator?
  rw [child?_uncommented h]
  cases hoperator : n.child? .operator with
  | none =>
      rfl
  | some c =>
      have hc := uncommented_of_mem_namingParts h (c := c) (by simp [namingParts, hoperator])
      rw [Option.map_some, hc]

theorem stringValue?_uncommented (h : n.Tidied) :
    n.uncommented.stringValue? = n.stringValue? := by
  unfold stringValue?
  rw [unwrap_uncommented h]
  have hinner := h.unwrap
  generalize n.unwrap = m at hinner
  cases hleaf : m.isLeaf with
  | true =>
      rw [uncommented_of_isLeaf hinner hleaf]
  | false =>
      simp only [length_text_uncommented, kind_uncommented]
      cases hkind : m.kind with
      | string =>
          simp [isLeaf, hkind] at hleaf
      | templateString =>
          simp only [isLeaf, hkind, Bool.not_eq_eq_eq_not, Bool.not_false] at hleaf
          have hsubstitution : (m.uncommented.parts.any fun c => c.kind == .templateSubstitution) =
              true := by
            rw [parts_uncommented, List.any_map]
            simpa [Function.comp_def] using hleaf
          simp [hleaf, hsubstitution]
      | _ =>
          rfl

theorem propertyKey_uncommented {c : Node} (hc : c.comments = []) :
    c.uncommented.propertyKey = c.propertyKey := by
  rw [uncommented_of_comments_eq_nil c hc]

theorem between_uncommented (n object property : Node) :
    n.uncommented.between object.uncommented property.uncommented =
      n.uncommented.between object property := by
  unfold between
  rw [stop_uncommented, start_uncommented property]

theorem segment?_uncommented (h : n.Tidied) (hkind : n.kind = .memberExpression)
    {object property : Node} (hobject : n.child? .object = some object)
    (hproperty : n.child? .property = some property) :
    n.uncommented.segment? object.uncommented property.uncommented =
      n.segment? object property := by
  have hname := uncommented_of_mem_namingParts h (c := property)
    (by simp [namingParts, hproperty])
  unfold segment?
  rw [between_uncommented, h.self.optional hkind object hobject property hproperty, hname]

theorem memberChain?_eq (n : Node) :
    n.memberChain? =
      match n.kind with
      | .identifier | .thisWord => some ⟨n.text, []⟩
      | .parenthesizedExpression | .nonNullExpression => n.firstNamed?.bind memberChain?
      | .memberExpression =>
          (n.child? .object).bind fun object =>
            (n.child? .property).bind fun property =>
              (n.segment? object property).bind fun s => object.memberChain?.map (·.push s)
      | _ => none := by
  fun_cases memberChain? n with
  | case9 hkind hnone =>
      rw [hkind]
      cases hobject : n.child? .object with
      | none =>
          rfl
      | some object =>
          cases hproperty : n.child? .property with
          | none =>
              rfl
          | some property =>
              cases hnone object property hobject hproperty
  | _ =>
      simp_all

theorem memberChain?_uncommented (n : Node) (h : n.Tidied) :
    n.uncommented.memberChain? = n.memberChain? := by
  rw [memberChain?_eq n.uncommented, memberChain?_eq n, kind_uncommented]
  cases hkind : n.kind with
  | identifier =>
      rw [uncommented_of_isLeaf h (by rw [isLeaf, hkind])]
  | thisWord =>
      rw [uncommented_of_isLeaf h (by rw [isLeaf, hkind])]
  | parenthesizedExpression =>
      rw [firstNamed?_uncommented h (by rw [isAboutFirst, hkind]; rfl)]
      cases hfirst : n.firstNamed? with
      | none =>
          rfl
      | some inner =>
          exact memberChain?_uncommented inner (h.firstNamed hfirst)
  | nonNullExpression =>
      rw [firstNamed?_uncommented h (by rw [isAboutFirst, hkind]; rfl)]
      cases hfirst : n.firstNamed? with
      | none =>
          rfl
      | some inner =>
          exact memberChain?_uncommented inner (h.firstNamed hfirst)
  | memberExpression =>
      rw [child?_uncommented h, child?_uncommented h]
      cases hobject : n.child? .object with
      | none =>
          rfl
      | some object =>
          cases hproperty : n.child? .property with
          | none =>
              rfl
          | some property =>
              simp only [Option.map_some, Option.bind_some]
              rw [segment?_uncommented h hkind hobject hproperty,
                memberChain?_uncommented object (h.child hobject)]
  | _ =>
      rfl
termination_by sizeOf n
decreasing_by
  · exact sizeOf_lt_of_firstNamed? hfirst
  · exact sizeOf_lt_of_child? hobject
  · exact sizeOf_lt_of_firstNamed? hfirst

end

end Node
end Script
end PayloadFlow
