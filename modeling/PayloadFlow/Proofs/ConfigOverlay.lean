import Mathlib.Data.Option.Basic
import PayloadFlow.ConfigFile

/-!
# Partial configuration files

A configuration file may leave out any section and any field.  What it holds is
read as written, and what it leaves out has its default, whatever the order of the
members is: what the reader takes for a field that is left out is the default of the
structure.  So a file with everything in it gives the configuration back, and a
section that is left out counts like an empty one.
-/

namespace PayloadFlow

namespace Json

/-!
# Deleting members
-/

mutual

/-- A value without the members at some paths, which lead through objects. -/
def without (gone : List String -> Bool) (path : List String) : Json -> Json
  | .object members => .object (membersWithout gone path members)
  | j => j

def membersWithout (gone : List String -> Bool) (path : List String) :
    List (Option String × Json) -> List (Option String × Json)
  | [] => []
  | (none, value) :: rest => (none, value) :: membersWithout gone path rest
  | (some key, value) :: rest =>
      if gone (path ++ [key]) then membersWithout gone path rest
      else (some key, without gone (path ++ [key]) value) :: membersWithout gone path rest

end

def kept (gone : List String -> Bool) (path : List String) (members : List (String × Json)) :
    List (String × Json) :=
  (members.filter fun m => !gone (path ++ [m.1])).map fun m =>
    (m.1, without gone (path ++ [m.1]) m.2)

theorem without_record (gone : List String -> Bool) (path : List String)
    (members : List (String × Json)) :
    (record members).without gone path = record (kept gone path members) := by
  rw [record, without, record]
  congr 1
  induction members with
  | nil =>
      rfl
  | cons m members ih =>
      rw [List.map_cons, membersWithout, ih]
      by_cases hgone : gone (path ++ [m.1]) = true
      · simp [kept, hgone]
      · simp [kept, hgone]

theorem keys_kept_sublist (gone : List String -> Bool) (path : List String)
    (members : List (String × Json)) :
    ((kept gone path members).map Prod.fst).Sublist (members.map Prod.fst) := by
  have hkeys : (kept gone path members).map Prod.fst =
      (members.filter fun m => !gone (path ++ [m.1])).map Prod.fst := by
    simp [kept]
  rw [hkeys]
  exact List.filter_sublist.map Prod.fst

theorem lookup_kept (gone : List String -> Bool) (path : List String)
    (members : List (String × Json)) (name : String) :
    (kept gone path members).lookup name =
      if gone (path ++ [name]) then none
      else (members.lookup name).map (without gone (path ++ [name])) := by
  induction members with
  | nil =>
      simp [kept]
  | cons m members ih =>
      rcases m with ⟨key, value⟩
      by_cases hname : name = key
      · subst hname
        by_cases hgone : gone (path ++ [name]) = true
        · rw [if_pos hgone] at ih ⊢
          rw [← ih]
          simp [kept, hgone]
        · simp [kept, hgone]
      · have hne : (name == key) = false := beq_false_of_ne hname
        have hcons : (kept gone path ((key, value) :: members)).lookup name =
            (kept gone path members).lookup name := by
          by_cases hgone : gone (path ++ [key]) = true
          · simp [kept, hgone]
          · simp [kept, hgone, List.lookup_cons, hne]
        rw [hcons, ih, List.lookup_cons, hne]

/-!
# The order of members
-/

mutual

/-- Values that differ in the order of the members of their objects only. -/
inductive Reordered : Json -> Json -> Prop
  | same (j : Json) : Reordered j j
  | object {first second : List (Option String × Json)} : ReorderedMembers first second ->
      Reordered (.object first) (.object second)

/-- The members of two such objects: each one of the first stands somewhere in the
second. -/
inductive ReorderedMembers : List (Option String × Json) -> List (Option String × Json) -> Prop
  | nil : ReorderedMembers [] []
  | cons {key : Option String} {value other : Json} {first : List (Option String × Json)}
      (front back : List (Option String × Json)) : Reordered value other ->
      ReorderedMembers first (front ++ back) ->
      ReorderedMembers ((key, value) :: first) (front ++ (key, other) :: back)

end

def HasNoMembers : Json -> Prop
  | .object _ => False
  | _ => True

theorem eq_of_reordered {j other : Json} (hj : j.HasNoMembers) (hother : Reordered j other) :
    other = j := by
  cases hother with
  | same => rfl
  | object _ => exact False.elim hj

/-- A look-up finds values that differ in the order of members only. -/
def LookAlike (first second : List (String × Json)) : Prop :=
  forall name, Option.Rel Reordered (first.lookup name) (second.lookup name)

theorem lookAlike_refl (members : List (String × Json)) : LookAlike members members := by
  intro name
  cases members.lookup name with
  | none => exact .none
  | some value => exact .some (.same value)

theorem lookAlike_insert {key : String} {value other : Json}
    {members front back : List (String × Json)} (hother : Reordered value other)
    (hfront : key ∉ front.map Prod.fst) (halike : LookAlike members (front ++ back)) :
    LookAlike ((key, value) :: members) (front ++ (key, other) :: back) := by
  intro name
  rw [List.lookup_append]
  by_cases hname : name = key
  · subst hname
    have hnone : front.lookup name = none := by
      rw [List.lookup_eq_none_iff]
      intro p hp
      rw [bne_iff_ne]
      intro heq
      exact hfront (heq ▸ List.mem_map_of_mem hp)
    rw [hnone, List.lookup_cons_self, List.lookup_cons_self, Option.none_or]
    exact .some hother
  · have hne : (name == key) = false := beq_false_of_ne hname
    rw [List.lookup_cons, List.lookup_cons, hne, ← List.lookup_append]
    exact halike name

theorem exists_members {members : List (String × Json)} (hkeys : (members.map Prod.fst).Nodup)
    {second : List (Option String × Json)}
    (hsecond : ReorderedMembers (members.map fun m => (some m.1, m.2)) second) :
    exists others : List (String × Json), second = others.map (fun m => (some m.1, m.2)) ∧
      (others.map Prod.fst).Perm (members.map Prod.fst) ∧ LookAlike members others := by
  induction members generalizing second with
  | nil =>
      cases hsecond
      exact ⟨[], rfl, .nil, lookAlike_refl []⟩
  | cons m members ih =>
      rcases m with ⟨key, value⟩
      cases hsecond with
      | cons front back hother hrest =>
          rename_i other
          rw [List.map_cons, List.nodup_cons] at hkeys
          rcases ih hkeys.2 hrest with ⟨others, hothers, hperm, halike⟩
          rcases List.map_eq_append_iff.mp hothers.symm with ⟨before, after, rfl, rfl, rfl⟩
          have hmoved : ((before ++ (key, other) :: after).map Prod.fst).Perm
              (((key, value) :: members).map Prod.fst) := by
            rw [List.map_append, List.map_cons, List.map_cons]
            rw [List.map_append] at hperm
            exact List.perm_middle.trans (hperm.cons key)
          refine ⟨before ++ (key, other) :: after, by simp, hmoved, ?_⟩
          apply lookAlike_insert hother ?_ halike
          intro hmem
          apply hkeys.1
          rw [← hperm.mem_iff, List.map_append]
          exact List.mem_append_left _ hmem

theorem filterMap_map_self {α β : Type} {f : β -> Option α} {g : α -> β} {items : List α}
    (hitems : forall a, a ∈ items -> f (g a) = some a) : (items.map g).filterMap f = items := by
  induction items with
  | nil =>
      rfl
  | cons a items ih =>
      rcases List.forall_mem_cons.mp hitems with ⟨hhere, hlater⟩
      rw [List.map_cons, List.filterMap_cons_some hhere, ih hlater]

theorem fields?_record {names : List String} {members : List (String × Json)}
    (hkeys : (members.map Prod.fst).Nodup) (hnames : forall m, m ∈ members -> m.1 ∈ names) :
    fields? names (record members) = some members := by
  have htexts : (members.map fun m => (some m.1, m.2)).all (·.1.isSome) = true := by simp
  simp only [record, fields?, knownMembers?]
  rw [filterMap_map_self (by intro m hm; simp [hnames m hm]), htexts, if_pos (by simpa using hkeys)]

theorem exists_fields {names : List String} {members : List (String × Json)}
    (hkeys : (members.map Prod.fst).Nodup) (hnames : forall m, m ∈ members -> m.1 ∈ names)
    {value : Json} (hvalue : Reordered (record members) value) :
    exists others, fields? names value = some others ∧ LookAlike members others := by
  cases hvalue with
  | same =>
      exact ⟨members, fields?_record hkeys hnames, lookAlike_refl members⟩
  | object hmembers =>
      rcases exists_members hkeys hmembers with ⟨others, rfl, hperm, halike⟩
      refine ⟨others, fields?_record (hperm.nodup_iff.mpr hkeys) ?_, halike⟩
      intro m hm
      have hmem := hperm.mem_iff.mp (List.mem_map_of_mem hm)
      rcases List.mem_map.mp hmem with ⟨n, hn, heq⟩
      rw [← heq]
      exact hnames n hn

theorem exists_fields_kept (names : List String) (hnodup : names.Nodup)
    {members : List (String × Json)} (hmembers : members.map Prod.fst = names)
    {gone : List String -> Bool} {path : List String} {value : Json}
    (hvalue : Reordered ((record members).without gone path) value) :
    exists fields, fields? names value = some fields ∧
      LookAlike (kept gone path members) fields := by
  have hkeys := keys_kept_sublist gone path members
  rw [hmembers] at hkeys
  rw [without_record] at hvalue
  apply exists_fields (hkeys.nodup hnodup) ?_ hvalue
  intro m hm
  exact hkeys.subset (List.mem_map_of_mem hm)

/-!
# Fields
-/

/-- A value that is read as `a`, whatever the order of its members is. -/
def ReadsAs {α : Type} (read : Json -> Option α) (value : Json) (a : α) : Prop :=
  forall other, Reordered value other -> read other = some a

/-- What stays of a field is read as written, and what is deleted has its
default. -/
theorem fieldOr_kept {α : Type} {gone : List String -> Bool} {path : List String}
    {members fields : List (String × Json)} (halike : LookAlike (kept gone path members) fields)
    (name : String) {value : Json} (hvalue : members.lookup name = some value)
    {read : Json -> Option α} {a : α} (hread : ReadsAs read (value.without gone (path ++ [name])) a)
    (default : α) :
    fieldOr fields name read default = some (if gone (path ++ [name]) then default else a) := by
  have hfound := halike name
  rw [lookup_kept, hvalue] at hfound
  unfold fieldOr
  by_cases hgone : gone (path ++ [name]) = true
  · rw [if_pos hgone] at hfound ⊢
    cases hfield : fields.lookup name with
    | none => rfl
    | some other =>
        rw [hfield] at hfound
        cases hfound
  · rw [if_neg hgone] at hfound ⊢
    cases hfield : fields.lookup name with
    | none =>
        rw [hfield] at hfound
        cases hfound
    | some other =>
        rw [hfield] at hfound
        cases hfound with
        | some hother => exact hread other hother

theorem readsAs_of_hasNoMembers {α : Type} {read : Json -> Option α} {a : α} (value : Json)
    (hvalue : value.HasNoMembers) (hread : read value = some a) (gone : List String -> Bool)
    (path : List String) : ReadsAs read (value.without gone path) a := by
  have hsame : value.without gone path = value := by
    cases value with
    | object members => exact False.elim hvalue
    | null => rfl
    | bool b => rfl
    | number digits => rfl
    | string text => rfl
    | array items => rfl
  intro other hother
  rw [hsame] at hother
  rw [eq_of_reordered hvalue hother, hread]

theorem readsAs_texts (gone : List String -> Bool) (path : List String) (texts : List String) :
    ReadsAs asTexts? ((ofStrings texts).without gone path) texts := by
  refine readsAs_of_hasNoMembers (ofStrings texts) trivial ?_ gone path
  induction texts with
  | nil =>
      rfl
  | cons text texts ih =>
      simp only [ofStrings, asTexts?] at ih
      simp [ofStrings, asTexts?, asText?, ih]

theorem readsAs_optionalText (gone : List String -> Bool) (path : List String)
    (text : Option String) : ReadsAs asOptionalText? ((ofOption text).without gone path) text := by
  cases text with
  | none =>
      refine readsAs_of_hasNoMembers .null trivial ?_ gone path
      rfl
  | some text =>
      refine readsAs_of_hasNoMembers (.string (some text)) trivial ?_ gone path
      rfl

theorem readsAs_bool (gone : List String -> Bool) (path : List String) (b : Bool) :
    ReadsAs asBool? (without gone path (.bool b)) b := by
  refine readsAs_of_hasNoMembers (.bool b) trivial ?_ gone path
  rfl

theorem natOfDigits?_toDigits (n : Nat) : natOfDigits? (Nat.toDigits 10 n) = some n := by
  have hdigits : ((Nat.toDigits 10 n).all Char.isDigit && !(Nat.toDigits 10 n).isEmpty) = true := by
    rw [Bool.and_eq_true, List.all_eq_true]
    constructor
    · intro c hc
      exact Nat.isDigit_of_mem_toDigits (by decide) (by decide) hc
    · simp [Nat.toDigits_ne_nil]
  rw [natOfDigits?, if_pos hdigits, Nat.ofDigitChars_toDigits (by decide) (by decide)]

theorem readsAs_word (gone : List String -> Bool) (path : List String) (n : UInt64) :
    ReadsAs asWord? ((ofNat n.toNat).without gone path) n := by
  refine readsAs_of_hasNoMembers (ofNat n.toNat) trivial ?_ gone path
  simp only [ofNat, asWord?, String.toList_ofList, natOfDigits?_toDigits]
  rw [if_pos n.toNat_lt, UInt64.ofNat_toNat]

end Json

/-!
# Sections
-/

namespace RolePatterns

theorem leftOut_eq : leftOut = {} :=
  rfl

/-- The patterns with the deleted ones replaced by the defaults. -/
def reset (gone : List String -> Bool) (r : RolePatterns) : RolePatterns :=
  let unset : RolePatterns := {}
  { producer := if gone ["roles", "producer_globs"] then unset.producer else r.producer
    consumer := if gone ["roles", "consumer_globs"] then unset.consumer else r.consumer
    broker := if gone ["roles", "broker_globs"] then unset.broker else r.broker }

theorem readsAs_reset (gone : List String -> Bool) (r : RolePatterns) :
    Json.ReadsAs ofJson? ((Json.record r.members).without gone ["roles"]) (r.reset gone) := by
  intro value hvalue
  rcases Json.exists_fields_kept fieldNames (by decide) rfl hvalue with ⟨fields, hfields, halike⟩
  have hproducer :=
    Json.fieldOr_kept halike "producer_globs" rfl (Json.readsAs_texts gone _ r.producer)
  have hconsumer :=
    Json.fieldOr_kept halike "consumer_globs" rfl (Json.readsAs_texts gone _ r.consumer)
  have hbroker := Json.fieldOr_kept halike "broker_globs" rfl (Json.readsAs_texts gone _ r.broker)
  rw [ofJson?, hfields, leftOut_eq]
  simp only [Option.bind_eq_bind, Option.bind_some, hproducer, hconsumer, hbroker]
  rfl

end RolePatterns

namespace BrokerSettings

theorem leftOut_eq : leftOut = {} :=
  rfl

def reset (gone : List String -> Bool) (b : BrokerSettings) : BrokerSettings :=
  let unset : BrokerSettings := {}
  { path := if gone ["broker", "path"] then unset.path else b.path
    entryPoints := if gone ["broker", "entry_points"] then unset.entryPoints else b.entryPoints
    prepareFunctions :=
      if gone ["broker", "prepare_functions"] then unset.prepareFunctions else b.prepareFunctions
    generators := if gone ["broker", "generators"] then unset.generators else b.generators }

theorem readsAs_reset (gone : List String -> Bool) (b : BrokerSettings) :
    Json.ReadsAs ofJson? ((Json.record b.members).without gone ["broker"]) (b.reset gone) := by
  intro value hvalue
  rcases Json.exists_fields_kept fieldNames (by decide) rfl hvalue with ⟨fields, hfields, halike⟩
  have hpath := Json.fieldOr_kept halike "path" rfl (Json.readsAs_optionalText gone _ b.path)
  have hentry :=
    Json.fieldOr_kept halike "entry_points" rfl (Json.readsAs_texts gone _ b.entryPoints)
  have hprepare :=
    Json.fieldOr_kept halike "prepare_functions" rfl (Json.readsAs_texts gone _ b.prepareFunctions)
  have hgenerators :=
    Json.fieldOr_kept halike "generators" rfl (Json.readsAs_texts gone _ b.generators)
  rw [ofJson?, hfields, leftOut_eq]
  simp only [Option.bind_eq_bind, Option.bind_some, hpath, hentry, hprepare, hgenerators]
  rfl

end BrokerSettings

namespace ConsumerSettings

theorem leftOut_eq : leftOut = {} :=
  rfl

def reset (gone : List String -> Bool) (c : ConsumerSettings) : ConsumerSettings :=
  let unset : ConsumerSettings := {}
  { handlerPrefixes :=
      if gone ["consumer", "handler_prefixes"] then unset.handlerPrefixes else c.handlerPrefixes
    registrationCalls :=
      if gone ["consumer", "registration_calls"] then unset.registrationCalls
      else c.registrationCalls }

theorem readsAs_reset (gone : List String -> Bool) (c : ConsumerSettings) :
    Json.ReadsAs ofJson? ((Json.record c.members).without gone ["consumer"]) (c.reset gone) := by
  intro value hvalue
  rcases Json.exists_fields_kept fieldNames (by decide) rfl hvalue with ⟨fields, hfields, halike⟩
  have hprefixes :=
    Json.fieldOr_kept halike "handler_prefixes" rfl (Json.readsAs_texts gone _ c.handlerPrefixes)
  have hcalls :=
    Json.fieldOr_kept halike "registration_calls" rfl
      (Json.readsAs_texts gone _ c.registrationCalls)
  rw [ofJson?, hfields, leftOut_eq]
  simp only [Option.bind_eq_bind, Option.bind_some, hprefixes, hcalls]
  rfl

end ConsumerSettings

namespace Scoring

theorem leftOut_eq : leftOut = {} :=
  rfl

def reset (gone : List String -> Bool) (s : Scoring) : Scoring :=
  let unset : Scoring := {}
  { genericTokens :=
      if gone ["scoring", "generic_tokens"] then unset.genericTokens else s.genericTokens }

theorem readsAs_reset (gone : List String -> Bool) (s : Scoring) :
    Json.ReadsAs ofJson? ((Json.record s.members).without gone ["scoring"]) (s.reset gone) := by
  intro value hvalue
  rcases Json.exists_fields_kept fieldNames (by decide) rfl hvalue with ⟨fields, hfields, halike⟩
  have htokens :=
    Json.fieldOr_kept halike "generic_tokens" rfl (Json.readsAs_texts gone _ s.genericTokens)
  rw [ofJson?, hfields, leftOut_eq]
  simp only [Option.bind_eq_bind, Option.bind_some, htokens]
  rfl

end Scoring

namespace Limits

theorem leftOut_eq : leftOut = {} :=
  rfl

def reset (gone : List String -> Bool) (l : Limits) : Limits :=
  let unset : Limits := {}
  { maxFileBytes := if gone ["limits", "max_file_bytes"] then unset.maxFileBytes else l.maxFileBytes
    parseTimeoutMs :=
      if gone ["limits", "parse_timeout_ms"] then unset.parseTimeoutMs else l.parseTimeoutMs
    workers := if gone ["limits", "workers"] then unset.workers else l.workers }

theorem readsAs_reset (gone : List String -> Bool) (l : Limits) :
    Json.ReadsAs ofJson? ((Json.record l.members).without gone ["limits"]) (l.reset gone) := by
  intro value hvalue
  rcases Json.exists_fields_kept fieldNames (by decide) rfl hvalue with ⟨fields, hfields, halike⟩
  have hbytes :=
    Json.fieldOr_kept halike "max_file_bytes" rfl (Json.readsAs_word gone _ l.maxFileBytes)
  have htimeout :=
    Json.fieldOr_kept halike "parse_timeout_ms" rfl (Json.readsAs_word gone _ l.parseTimeoutMs)
  have hworkers := Json.fieldOr_kept halike "workers" rfl (Json.readsAs_word gone _ l.workers)
  rw [ofJson?, hfields, leftOut_eq]
  simp only [Option.bind_eq_bind, Option.bind_some, hbytes, htimeout, hworkers]
  rfl

end Limits

/-!
# Configurations
-/

namespace Config

theorem leftOut_eq : leftOut = {} :=
  rfl

/-- The configuration with the deleted sections and fields replaced by those of the
default one. -/
def reset (gone : List String -> Bool) (c : Config) : Config :=
  let unset : Config := {}
  { roles := if gone ["roles"] then unset.roles else c.roles.reset gone
    broker := if gone ["broker"] then unset.broker else c.broker.reset gone
    consumer := if gone ["consumer"] then unset.consumer else c.consumer.reset gone
    scoring := if gone ["scoring"] then unset.scoring else c.scoring.reset gone
    limits := if gone ["limits"] then unset.limits else c.limits.reset gone
    reportOrphans := if gone ["report_orphans"] then unset.reportOrphans else c.reportOrphans
    ignorePatterns := if gone ["ignore_patterns"] then unset.ignorePatterns else c.ignorePatterns
    projectRoot := if gone ["project_root"] then unset.projectRoot else c.projectRoot }

theorem readsAs_reset (gone : List String -> Bool) (c : Config) :
    Json.ReadsAs ofJson? (c.toJson.without gone []) (c.reset gone) := by
  intro value hvalue
  rcases Json.exists_fields_kept fieldNames (by decide) rfl hvalue with ⟨fields, hfields, halike⟩
  have hroles := Json.fieldOr_kept halike "roles" rfl (c.roles.readsAs_reset gone)
  have hbroker := Json.fieldOr_kept halike "broker" rfl (c.broker.readsAs_reset gone)
  have hconsumer := Json.fieldOr_kept halike "consumer" rfl (c.consumer.readsAs_reset gone)
  have hscoring := Json.fieldOr_kept halike "scoring" rfl (c.scoring.readsAs_reset gone)
  have hlimits := Json.fieldOr_kept halike "limits" rfl (c.limits.readsAs_reset gone)
  have horphans :=
    Json.fieldOr_kept halike "report_orphans" rfl (Json.readsAs_bool gone _ c.reportOrphans)
  have hignored :=
    Json.fieldOr_kept halike "ignore_patterns" rfl (Json.readsAs_texts gone _ c.ignorePatterns)
  have hproject :=
    Json.fieldOr_kept halike "project_root" rfl (Json.readsAs_optionalText gone _ c.projectRoot)
  rw [ofJson?, hfields, leftOut_eq]
  simp only [Option.bind_eq_bind, Option.bind_some, hroles, hbroker, hconsumer, hscoring, hlimits,
    horphans, hignored, hproject]
  rfl

def sectionNames : List String :=
  ["roles", "broker", "consumer", "scoring", "limits"]

/-- A section with all its fields deleted counts like one that is deleted itself. -/
theorem reset_section (gone : List String -> Bool) (c : Config) {name : String}
    (hname : name ∈ sectionNames) (hfields : forall field, gone [name, field] = true) :
    c.reset gone = c.reset fun path => gone path || path == [name] := by
  simp only [sectionNames, List.mem_cons, List.not_mem_nil, or_false] at hname
  rcases hname with rfl | rfl | rfl | rfl | rfl <;>
    simp [reset, RolePatterns.reset, BrokerSettings.reset, ConsumerSettings.reset, Scoring.reset,
      Limits.reset, hfields]

theorem load_of_parse {text : String} {value : Json} (htext : Json.parse? text = some value)
    {c : Config} (hvalue : ofJson? value = some c) : load (some text.toUTF8) = c := by
  have hutf8 : String.fromUTF8? text.toUTF8 = some text := dif_pos text.isValidUTF8
  rw [load, Option.bind_some, ofContent?, hutf8]
  simp [htext, hvalue]

/-- A file with the members of a configuration, less some of them and in any order,
gives the configuration with the missing ones replaced by those of the default.
In particular a complete file gives the configuration back, and an absent section
is like an empty one.  What the reader takes for the fields of each record that are
left out agrees with the default of the record. -/
theorem partial_file_overlays_defaults (c : Config) (gone : List String -> Bool) (value : Json)
    (hvalue : Json.Reordered (c.toJson.without gone []) value) (text : String)
    (htext : Json.parse? text = some value) :
    load (some text.toUTF8) = c.reset gone ∧
      c.reset (fun _ => false) = c ∧
      (forall name, name ∈ sectionNames -> (forall field, gone [name, field] = true) ->
        c.reset gone = c.reset fun path => gone path || path == [name]) ∧
      leftOut = {} ∧ RolePatterns.leftOut = {} ∧ BrokerSettings.leftOut = {} ∧
        ConsumerSettings.leftOut = {} ∧ Scoring.leftOut = {} ∧ Limits.leftOut = {} := by
  refine ⟨load_of_parse htext (c.readsAs_reset gone value hvalue), rfl, ?_, leftOut_eq,
    RolePatterns.leftOut_eq, BrokerSettings.leftOut_eq, ConsumerSettings.leftOut_eq,
    Scoring.leftOut_eq, Limits.leftOut_eq⟩
  intro name hname hfields
  exact c.reset_section gone hname hfields

/-- A configuration with a broker of its own and four workers, which does not report
orphans. -/
def ownBroker : Config :=
  { broker := { path := some "bus.js", generators := [] }
    limits := { workers := 4, maxFileBytes := 10 }
    reportOrphans := false }

/-- All members but one field of the broker, the number of workers and the mark for
orphans. -/
def mostMembers (path : List String) : Bool :=
  !([["broker"], ["broker", "path"], ["limits"], ["limits", "workers"], ["report_orphans"]].contains
    path)

def shortFile : String :=
  "\x7b \"report_orphans\": false, \"limits\": \x7b\"workers\": 4\x7d, " ++
    "\"broker\": \x7b\"path\": \"bus.js\"\x7d \x7d"

def shortValue : Json :=
  .object
    [(some "report_orphans", .bool false),
      (some "limits", .object [(some "workers", .number "4")]),
      (some "broker", .object [(some "path", .string (some "bus.js"))])]

theorem ownBroker_overlaid :
    Json.Reordered (ownBroker.toJson.without mostMembers []) shortValue ∧
      Json.parse? shortFile = some shortValue ∧
      load (some shortFile.toUTF8) =
        { broker := { path := some "bus.js" }
          limits := { workers := 4 }
          reportOrphans := false } := by
  have hmembers : ownBroker.toJson.without mostMembers [] = .object
      [(some "broker", .object [(some "path", .string (some "bus.js"))]),
        (some "limits", .object [(some "workers", .number "4")]),
        (some "report_orphans", .bool false)] := rfl
  have hvalue : Json.Reordered (ownBroker.toJson.without mostMembers []) shortValue := by
    rw [hmembers]
    exact .object (.cons [_, _] [] (.same _) (.cons [_] [] (.same _) (.cons [] [] (.same _) .nil)))
  have htext : Json.parse? shortFile = some shortValue := rfl
  rcases partial_file_overlays_defaults ownBroker mostMembers _ hvalue _ htext with ⟨hload, _⟩
  refine ⟨hvalue, htext, hload.trans ?_⟩
  decide

end Config

end PayloadFlow
