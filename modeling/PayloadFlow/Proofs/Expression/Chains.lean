import PayloadFlow.Proofs.Expression.Names

/-!
# Chains of members

ASCII names with `.` or `?.` between them.  Outside brackets such a chain holds
nothing but names, dots, and question marks before a dot, so that no operator is
found in it, and every name but the first stands behind a dot.  What is called
with balanced arguments at its end stays inside their parentheses.
-/

namespace PayloadFlow
namespace Expression

open Text

structure AsciiName where
  chars : List Char
  identifier : isIdentifier chars = true
  ascii : (chars.all fun c => c.toNat < 0x80) = true

namespace AsciiName

def text (name : AsciiName) : String :=
  String.ofList name.chars

theorem isNameChar_of_mem (name : AsciiName) {c : Char} (hc : c ∈ name.chars) :
    isNameChar c = true :=
  isNameChar_of_isIdentifier name.identifier hc

theorem exists_word (name : AsciiName) :
    exists c word, name.chars = c :: word ∧ isWordStart c = true ∧
      forall d, d ∈ word -> isWordChar d = true := by
  apply exists_word_of_ascii name.identifier
  intro c hc
  exact of_decide_eq_true (List.all_eq_true.mp name.ascii c hc)

end AsciiName

/-- A member that is read by name, perhaps only if there is something to read it
from. -/
structure MemberName where
  optional : Bool
  name : AsciiName

def MemberName.chars (m : MemberName) : List Char :=
  if m.optional then '?' :: '.' :: m.name.chars else '.' :: m.name.chars

structure MemberChain where
  root : AsciiName
  members : List MemberName

namespace MemberChain

def chars (chain : MemberChain) : List Char :=
  chain.root.chars ++ chain.members.flatMap MemberName.chars

def text (chain : MemberChain) : String :=
  String.ofList chain.chars

end MemberChain

/-!
# The characters of a chain
-/

theorem MemberName.mem_chars {m : MemberName} {c : Char} (hc : c ∈ m.chars) :
    c = '?' ∨ c = '.' ∨ isNameChar c = true := by
  unfold MemberName.chars at hc
  split at hc
  · rcases List.mem_cons.mp hc with hc | hc
    · exact Or.inl hc
    · exact Or.inr ((List.mem_cons.mp hc).imp_right m.name.isNameChar_of_mem)
  · exact Or.inr ((List.mem_cons.mp hc).imp_right m.name.isNameChar_of_mem)

namespace MemberChain

theorem mem_chars {chain : MemberChain} {c : Char} (hc : c ∈ chain.chars) :
    c = '?' ∨ c = '.' ∨ isNameChar c = true := by
  rcases List.mem_append.mp hc with hc | hc
  · exact Or.inr (Or.inr (chain.root.isNameChar_of_mem hc))
  · rcases List.mem_flatMap.mp hc with ⟨m, _, hc⟩
    exact m.mem_chars hc

theorem isInert_of_mem (chain : MemberChain) {c : Char} (hc : c ∈ chain.chars) : IsInert c := by
  rcases mem_chars hc with rfl | rfl | hc
  · exact ⟨rfl, fun _ => rfl⟩
  · exact ⟨rfl, fun _ => rfl⟩
  · exact isInert_of_isNameChar hc

theorem exists_last_name (chain : MemberChain) :
    exists front, exists name : AsciiName, chain.chars = front ++ name.chars := by
  rcases List.eq_nil_or_concat' chain.members with hnone | ⟨members, m, hmembers⟩
  · exact ⟨[], chain.root, by simp [chars, hnone]⟩
  · cases hoptional : m.optional with
    | true =>
        refine ⟨chain.root.chars ++ members.flatMap MemberName.chars ++ ['?', '.'], m.name, ?_⟩
        simp [chars, hmembers, MemberName.chars, hoptional]
    | false =>
        refine ⟨chain.root.chars ++ members.flatMap MemberName.chars ++ ['.'], m.name, ?_⟩
        simp [chars, hmembers, MemberName.chars, hoptional]

theorem exists_last (chain : MemberChain) :
    exists initial last, chain.chars = initial ++ [last] ∧ isNameChar last = true := by
  rcases chain.exists_last_name with ⟨front, name, hchars⟩
  rcases exists_ends_of_isIdentifier name.identifier with ⟨initial, last, hname, hlast⟩
  exact ⟨front ++ initial, last, by rw [hchars, hname, List.append_assoc], hlast⟩

theorem head?_any_isWordStart (chain : MemberChain) (rest : List Char) :
    (chain.chars ++ rest).head?.any isWordStart = true := by
  rcases chain.root.exists_word with ⟨c, word, hroot, hc, _⟩
  simp [chars, hroot, hc]

end MemberChain

/-!
# The spots of a chain
-/

theorem isDigit_of_isWordStart {c : Char} (hc : isWordStart c = true) : c.isDigit = false :=
  forall_ascii (P := fun c => isWordStart c = true -> c.isDigit = false) (by decide)
    (ascii_of_isWordChar (isWordChar_of_isWordStart hc)) hc

theorem mem_spotsFrom_name (name : AsciiName) {previous : Option Char} {rest : List Char}
    {s : Spot} (hs : s ∈ spotsFrom .plain 0 previous (name.chars ++ rest)) :
    s.InChain ∨ exists p, s ∈ spotsFrom .plain 0 p rest := by
  apply (mem_spotsFrom_names (fun c hc => name.isNameChar_of_mem hc) hs).imp_left
  rintro ⟨hdepth, hchar⟩
  exact .name hdepth (name.isNameChar_of_mem hchar)

theorem mem_spotsFrom_dot (name : AsciiName) {previous : Option Char} {rest : List Char}
    {s : Spot} (hs : s ∈ spotsFrom .plain 0 previous ('.' :: name.chars ++ rest)) :
    s.InChain ∨ exists p, s ∈ spotsFrom .plain 0 p rest := by
  rcases List.mem_cons.mp hs with rfl | hs
  · exact Or.inl (.dot rfl rfl)
  · exact mem_spotsFrom_name name hs

theorem mem_spotsFrom_member (m : MemberName) {previous : Option Char} {rest : List Char}
    {s : Spot} (hs : s ∈ spotsFrom .plain 0 previous (m.chars ++ rest)) :
    s.InChain ∨ exists p, s ∈ spotsFrom .plain 0 p rest := by
  unfold MemberName.chars at hs
  split at hs
  · rcases List.mem_cons.mp hs with rfl | hs
    · rcases m.name.exists_word with ⟨c, word, hname, hc, _⟩
      refine Or.inl (.mark rfl rfl ⟨c, word ++ rest, ?_, isDigit_of_isWordStart hc⟩)
      simp [hname]
    · exact mem_spotsFrom_dot m.name hs
  · exact mem_spotsFrom_dot m.name hs

theorem inChain_members {rest : List Char}
    (hrest : forall p s, s ∈ spotsFrom .plain 0 p rest -> s.InChain) (members : List MemberName)
    {previous : Option Char} {s : Spot}
    (hs : s ∈ spotsFrom .plain 0 previous (members.flatMap MemberName.chars ++ rest)) :
    s.InChain := by
  induction members generalizing previous with
  | nil =>
      exact hrest previous s hs
  | cons m members ih =>
      rw [List.flatMap_cons, List.append_assoc] at hs
      rcases mem_spotsFrom_member m hs with hs | ⟨p, hs⟩
      · exact hs
      · exact ih hs

theorem MemberChain.readsAsChain (chain : MemberChain) {rest : List Char}
    (hrest : forall p s, s ∈ spotsFrom .plain 0 p rest -> s.InChain) :
    ReadsAsChain (chain.chars ++ rest) where
  start := by
    rcases chain.root.exists_word with ⟨c, word, hroot, hc, _⟩
    refine ⟨c, word ++ (chain.members.flatMap MemberName.chars ++ rest), ?_,
      isNameChar_of_isWordChar (isWordChar_of_isWordStart hc)⟩
    simp [chars, hroot]
  spots := by
    intro s hs
    rw [spots, chars, List.append_assoc] at hs
    rcases mem_spotsFrom_name chain.root hs with hs | ⟨p, hs⟩
    · exact hs
    · exact inChain_members hrest chain.members hs

theorem depth_of_linkOf_call {s : Spot} (hlink : linkOf s = .call) : s.depth = 1 := by
  by_cases hopen : (s.char == '(' && s.depth == 1) = true
  · rw [Bool.and_eq_true, beq_iff_eq, beq_iff_eq] at hopen
    exact hopen.2
  · rw [linkOf, if_neg hopen] at hlink
    (repeat' split at hlink) <;> cases hlink

theorem call_not_mem_links (chain : MemberChain) :
    ((spots chain.chars).map linkOf).contains .call = false := by
  rw [Bool.eq_false_iff, ne_eq, contains_links_iff]
  rintro ⟨s, hs, hlink⟩
  have hflat : s.depth = 0 := depth_of_mem_spotsFrom_inert (fun c hc => chain.isInert_of_mem hc) hs
  have hdepth := depth_of_linkOf_call hlink
  omega

theorem access_mem_links (chain : MemberChain) (hmembers : chain.members ≠ []) :
    ((spots chain.chars).map linkOf).contains .access = true := by
  rcases List.exists_cons_of_ne_nil hmembers with ⟨m, members, hmembers⟩
  have hroot : Balanced chain.root.chars :=
    balanced_of_inert fun c hc => isInert_of_isNameChar (chain.root.isNameChar_of_mem hc)
  have hchars : chain.chars = chain.root.chars ++
      (m.chars ++ members.flatMap MemberName.chars) := by
    rw [MemberChain.chars, hmembers, List.flatMap_cons]
  rw [List.contains_eq_mem, decide_eq_true_iff, hchars, spots, hroot.spotsFrom_append,
    List.map_append]
  apply List.mem_append_right
  unfold MemberName.chars
  split
  · simp [spotsFrom, isQuote, depthAfter, linkOf]
  · simp [spotsFrom, isQuote, depthAfter, linkOf]

/-!
# A call at the end of a chain
-/

theorem inChain_arguments {arguments : List Char} (harguments : Balanced arguments)
    (p : Option Char) (s : Spot)
    (hs : s ∈ spotsFrom .plain 0 p ('(' :: (arguments ++ [')']))) : s.InChain := by
  rcases List.mem_cons.mp hs with rfl | hs
  · exact .inside Int.one_pos
  · have hinner : s ∈ spotsFrom .plain 1 (some '(') (arguments ++ [')']) := hs
    rw [harguments.spotsFrom_append, List.mem_append] at hinner
    rcases hinner with hinner | hlast
    · rcases List.mem_map.mp hinner with ⟨t, ht, rfl⟩
      have hle := harguments.le_depth ht
      exact .inside (by show 0 < t.depth; omega)
    · rw [List.mem_singleton.mp hlast]
      exact .closing rfl rfl

theorem call_mem_links (chain : MemberChain) (arguments : List Char) :
    ((spots (chain.chars ++ '(' :: (arguments ++ [')']))).map linkOf).contains .call = true := by
  have hchain : Balanced chain.chars := balanced_of_inert fun c hc => chain.isInert_of_mem hc
  rw [List.contains_eq_mem, decide_eq_true_iff, spots, hchain.spotsFrom_append, List.map_append]
  apply List.mem_append_right
  simp [spotsFrom, isQuote, depthAfter, linkOf]

/-!
# References of a chain
-/

theorem isAfterDot_dot {before : List Char} (hbefore : before.head? ≠ some '.') :
    isAfterDot ('.' :: before) = true := by
  have hdot : trimStart ('.' :: before) = '.' :: before :=
    trimStart_append_cons [] (by decide) before
  rw [isAfterDot, hdot]
  cases before with
  | nil =>
      rfl
  | cons c before =>
      have hc : c ≠ '.' := fun hc => hbefore (congrArg some hc)
      simp [List.isPrefixOf, hc.symm]

theorem referencesFrom_dot (name : AsciiName) {before : List Char}
    (hbefore : before.head? ≠ some '.') (braces : Nat) (substitutions : List Nat)
    (rest : List Char) :
    referencesFrom ⟨.plain, braces, substitutions⟩ ('.' :: before) (name.chars ++ rest) =
      referencesFrom ⟨.word, braces, substitutions⟩ (name.chars.reverse ++ '.' :: before) rest := by
  rcases name.exists_word with ⟨c, word, hname, hc, hword⟩
  rw [hname, referencesFrom_start_word hc hword, referenceAt, isAfterDot_dot hbefore]
  rfl

theorem head?_reverse_name_append (name : AsciiName) (before : List Char) :
    (name.chars.reverse ++ before).head? ≠ some '.' := by
  rcases exists_ends_of_isIdentifier name.identifier with ⟨initial, last, hname, hlast⟩
  rw [hname, List.reverse_append]
  intro hhead
  exact ne_of_isNameChar hlast (by decide) (Option.some.inj hhead)

theorem referencesFrom_members (members : List MemberName) {before : List Char}
    (hbefore : before.head? ≠ some '.') :
    referencesFrom ⟨.word, 0, []⟩ before (members.flatMap MemberName.chars) = [] := by
  induction members generalizing before with
  | nil =>
      rfl
  | cons m members ih =>
      have hdot : forall before rest,
          referencesFrom ⟨.word, 0, []⟩ before ('.' :: rest) =
            referencesFrom ⟨.plain, 0, []⟩ ('.' :: before) rest := fun before rest => rfl
      have hmark : forall before rest,
          referencesFrom ⟨.word, 0, []⟩ before ('?' :: '.' :: rest) =
            referencesFrom ⟨.plain, 0, []⟩ ('.' :: '?' :: before) rest := fun before rest => rfl
      rw [List.flatMap_cons, MemberName.chars]
      split
      · rw [List.cons_append, List.cons_append, hmark, referencesFrom_dot m.name (by simp)]
        exact ih (head?_reverse_name_append m.name _)
      · rw [List.cons_append, hdot, referencesFrom_dot m.name hbefore]
        exact ih (head?_reverse_name_append m.name _)

theorem references_chain (chain : MemberChain) :
    references chain.text =
      if chain.root.text ∈ keywordLiterals ++ keywords then [] else [chain.root.text] := by
  rcases chain.root.exists_word with ⟨c, word, hroot, hc, hword⟩
  have hrest : forall d, (chain.members.flatMap MemberName.chars).head? = some d ->
      isWordChar d = false := by
    intro d hd
    cases hmembers : chain.members with
    | nil =>
        rw [hmembers] at hd
        cases hd
    | cons m members =>
        rw [hmembers, List.flatMap_cons, MemberName.chars] at hd
        split at hd
        · rw [← Option.some.inj hd]
          decide
        · rw [← Option.some.inj hd]
          decide
  have hfirst := references_first_word hc hword _ hrest
  rw [← hroot] at hfirst
  have hbefore := head?_reverse_name_append chain.root []
  rw [List.append_nil] at hbefore
  rw [referencesFrom_members chain.members hbefore, List.append_nil] at hfirst
  rw [references, MemberChain.text, String.toList_ofList]
  exact hfirst

/-!
# The kind of a chain
-/

theorem classify_access (chain : MemberChain) (hmembers : chain.members ≠ []) :
    classify chain.text = .propertyAccess := by
  have hnothing : forall p s, s ∈ spotsFrom .plain 0 p [] -> s.InChain := by
    intro p s hs
    cases hs
  have hchars : chain.text.toList = chain.chars ++ [] := by simp [MemberChain.text]
  have hchain := chain.readsAsChain hnothing
  have hword := chain.head?_any_isWordStart []
  rw [← hchars] at hchain hword
  rw [List.append_nil] at hchars
  rcases chain.exists_last with ⟨initial, last, hend, hlast⟩
  have hdot := ne_of_isNameChar hlast (m := '.') (by decide)
  have hspace : ' ' ∉ chain.text.toList := by
    rw [hchars]
    intro hmem
    rcases chain.mem_chars hmem with hmark | hdot | hname
    · cases hmark
    · cases hdot
    · exact absurd hname (by decide)
  rw [hchain.classify_eq (hchars.trans hend) (not_isBlank_of_isNameChar hlast) hdot,
    not_startsWith_operator hspace, hword, hchars, call_not_mem_links,
    access_mem_links chain hmembers]
  rfl

theorem classify_call (chain : MemberChain) {arguments : String}
    (harguments : Balanced arguments.toList) :
    classify (chain.text ++ "(" ++ arguments ++ ")") = .generated := by
  have hchars : (chain.text ++ "(" ++ arguments ++ ")").toList =
      chain.chars ++ '(' :: (arguments.toList ++ [')']) := by
    simp [MemberChain.text]
  have hend : (chain.text ++ "(" ++ arguments ++ ")").toList =
      (chain.chars ++ '(' :: arguments.toList) ++ [')'] := by
    rw [hchars]
    simp
  have hchain := chain.readsAsChain (inChain_arguments harguments)
  have hword := chain.head?_any_isWordStart ('(' :: (arguments.toList ++ [')']))
  have hcall := call_mem_links chain arguments.toList
  rw [← hchars] at hchain hword hcall
  rw [hchain.classify_eq hend (by decide) (by decide), hword, hcall]
  split
  · rfl
  · rfl

/-- A chain of ASCII names is a member of something, or a parameter if it is one name
that does not stand for a value of its own.  It refers to its first name only.
With balanced arguments at its end it is generated. -/
theorem member_chain_recognized (chain : MemberChain) (arguments : String)
    (harguments : Balanced arguments.toList) :
    (chain.members ≠ [] -> classify chain.text = .propertyAccess) ∧
      (chain.members = [] -> chain.root.text ∉ keywordLiterals ->
        classify chain.text = .parameter) ∧
      (references chain.text =
        if chain.root.text ∈ keywordLiterals ++ keywords then [] else [chain.root.text]) ∧
      classify (chain.text ++ "(" ++ arguments ++ ")") = .generated := by
  refine ⟨classify_access chain, ?_, references_chain chain, classify_call chain harguments⟩
  intro hmembers hliteral
  have hname : chain.text = chain.root.text := by
    simp [MemberChain.text, MemberChain.chars, hmembers, AsciiName.text]
  have hidentifier : isIdentifier chain.root.text.toList = true := by
    rw [AsciiName.text, String.toList_ofList, chain.root.identifier]
  rcases chain.root.exists_word with ⟨c, word, hroot, hc, _⟩
  rw [hname, classify_of_isIdentifier hidentifier hliteral, if_pos]
  simp [AsciiName.text, hroot, hc]

def eventTarget : MemberChain where
  root := ⟨"event".toList, by decide, by decide⟩
  members := [⟨true, ⟨"target".toList, by decide, by decide⟩⟩,
    ⟨false, ⟨"id".toList, by decide, by decide⟩⟩]

theorem eventTarget_recognized :
    Balanced "ok ? [1] : ')'".toList ∧ classify "event?.target.id" = .propertyAccess ∧
      references "event?.target.id" = ["event"] ∧
      classify "event?.target.id(ok ? [1] : ')')" = .generated := by
  have harguments : Balanced "ok ? [1] : ')'".toList := by decide
  rcases member_chain_recognized eventTarget _ harguments with ⟨haccess, _, hreferences, hcall⟩
  exact ⟨harguments, haccess (List.cons_ne_nil _ _), hreferences, hcall⟩

end Expression
end PayloadFlow
