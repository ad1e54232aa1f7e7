import BundleLedger.Proofs.Json.Equality
import BundleLedger.Proofs.LoaderFile.DistinctKeys
import BundleLedger.Proofs.OrderedEntries
import Mathlib.Data.List.Induction

/-!
# What a sequence of calls sets

Several calls of a file may give values for one key. What the key ends with is said here of these
values in turn (`Settles`): the last of them, where it is no object; and else an object into which
the objects at the end of the sequence went, one level deep. One call more settles every key it sets
anew, and from this the fold over the calls follows.

Results:

* `apply_eq_putAll`: a call puts a value for each of its keys, and leaves all others.
* `apply_apply`: the same call once more changes nothing.
* `Settles.unique`: no two values are settled by one sequence.
* `Accumulated.next` and `accumulated_foldl`: what the calls have set so far.
* `parse_calls_settle`: the configuration that a file with calls sets.
-/
namespace BundleLedger.LoaderConfig

open Json Json.Value Script

/-! ## One call -/

/-- What becomes of a key when a call gives a value for it. -/
def settle (old : Option Value) : Value → Value
  | .object members => .object (Entries.putAll ((old.bind Value.members?).getD []) members)
  | v => v

theorem settle_of_members?_eq_none (old : Option Value) {v : Value} (h : v.members? = none) :
    settle old v = v := by
  cases v with
  | object members => cases h
  | null | bool _ | number _ | string _ | array _ => rfl

theorem applyMember_eq_set (c : LoaderConfig) (key : String) (v : Value) :
    c.applyMember key v = c.set key (settle (c.get? key) v) := by
  cases v <;> rfl

variable {c : LoaderConfig} {members : Members}

theorem apply_eq_putAll (c : LoaderConfig) (h : (Entries.keys members).Nodup) : c.apply members =
    ⟨Entries.putAll c.entries (members.map fun (key, v) => (key, settle (c.get? key) v))⟩ := by
  induction members generalizing c with
  | nil => rfl
  | cons m members ih =>
    obtain ⟨key, v⟩ := m
    have hnodup : key ∉ Entries.keys members ∧ (Entries.keys members).Nodup := List.nodup_cons.1 h
    have hothers : (members.map fun (k, w) => (k, settle ((c.applyMember key v).get? k) w)) =
        members.map fun (k, w) => (k, settle (c.get? k) w) := by
      refine List.map_congr_left fun m hm => ?_
      have hne : ¬ key = m.1 := fun he => hnodup.1 (he ▸ List.mem_map_of_mem hm)
      simp only [applyMember_eq_set, get?_set, if_neg hne]
    show (c.applyMember key v).apply members = _
    rw [ih _ hnodup.2, hothers, applyMember_eq_set]
    rfl

theorem keys_apply (hc : (Entries.keys c.entries).Nodup) (h : (Entries.keys members).Nodup) :
    Entries.keys (c.apply members).entries =
      (Entries.keys c.entries ++ Entries.keys members).eraseDups := by
  rw [apply_eq_putAll c h, Entries.keys_putAll hc, Entries.keys_map fun key => settle (c.get? key)]

theorem get?_apply (c : LoaderConfig) (h : (Entries.keys members).Nodup) (key : String) :
    (c.apply members).get? key =
      ((Entries.get? members key).map (settle (c.get? key))).or (c.get? key) := by
  have hsettled := (Entries.keys_map (fun key => settle (c.get? key)) members).symm ▸ h
  rw [apply_eq_putAll c h, get?, Entries.get?_putAll hsettled,
    Entries.get?_map fun key => settle (c.get? key)]
  rfl

/-! ## The same call once more -/

theorem settle_settle (old : Option Value) {v : Value} (h : v.DistinctKeys) :
    settle (some (settle old v)) v = settle old v := by
  cases v with
  | object members =>
    have hkeys := (distinctKeys_object_iff.1 h).1
    refine congrArg Value.object (Entries.putAll_eq_self fun m hm => ?_)
    rw [Option.bind_some, settle, Value.members?, Option.getD_some, Entries.get?_putAll hkeys,
      Entries.get?_of_mem hkeys hm, Option.some_or]
  | null | bool _ | number _ | string _ | array _ => rfl

theorem apply_apply (c : LoaderConfig) (h : Value.DistinctKeys (.object members)) :
    (c.apply members).apply members = c.apply members := by
  obtain ⟨hkeys, hvalues⟩ := distinctKeys_object_iff.1 h
  rw [apply_eq_putAll (c.apply members) hkeys]
  refine congrArg LoaderConfig.mk (Entries.putAll_eq_self fun m hm => ?_)
  obtain ⟨⟨key, v⟩, hmem, rfl⟩ := List.mem_map.1 hm
  have hget : (c.apply members).get? key = some (settle (c.get? key) v) := by
    rw [get?_apply c hkeys, Entries.get?_of_mem hkeys hmem]
    rfl
  show (c.apply members).get? key = some (settle ((c.apply members).get? key) v)
  rw [hget, settle_settle _ (hvalues _ hmem)]

/-! ## Values in turn -/

def firstKeys (calls : List Members) : List String := (calls.flatMap Entries.keys).eraseDups

/-- The values that calls give for a key, in turn. -/
def given (calls : List Members) (key : String) : List Value := calls.filterMap (Entries.get? · key)

def NoObjectLast (values : List Value) : Prop := ∀ v, values.getLast? = some v → v.members? = none

/-- `Settles values v`: a key for which these values are given in turn ends with `v`. An object that is
given after a value that is none, or first of all, starts anew, and the objects after it go into it,
each member with the value that was given for it last. -/
inductive Settles : List Value → Value → Prop where
  | last (before : List Value) (v : Value) (h : v.members? = none) : Settles (before ++ [v]) v
  | merged (before : List Value) (objects : List Members) (members : Members)
      (hbefore : NoObjectLast before) (hobjects : objects ≠ [])
      (hkeys : Entries.keys members = firstKeys objects)
      (hvalues : ∀ name, Entries.get? members name = (given objects name).getLast?) :
      Settles (before ++ objects.map .object) (.object members)

variable {calls : List Members} {values : List Value} {v w : Value}

theorem nodup_firstKeys (calls : List Members) : (firstKeys calls).Nodup := Text.nodup_eraseDups _

theorem mem_firstKeys {key : String} :
    key ∈ firstKeys calls ↔ ∃ members ∈ calls, key ∈ Entries.keys members := by
  rw [firstKeys, List.mem_eraseDups, List.mem_flatMap]

theorem firstKeys_append (calls : List Members) (members : Members) :
    firstKeys (calls ++ [members]) = (firstKeys calls ++ Entries.keys members).eraseDups := by
  rw [firstKeys, firstKeys, Text.eraseDups_append_eraseDups, List.flatMap_append,
    List.flatMap_singleton]

theorem given_append (calls : List Members) (members : Members) (key : String) :
    given (calls ++ [members]) key = given calls key ++ (Entries.get? members key).toList := by
  rw [given, List.filterMap_append]
  cases h : Entries.get? members key <;> simp [given, h]

theorem given_eq_nil_iff {key : String} : given calls key = [] ↔ key ∉ firstKeys calls := by
  simp only [given, List.filterMap_eq_nil_iff, Entries.get?_eq_none_iff, mem_firstKeys, not_exists,
    not_and]

theorem noObjectLast_concat (h : v.members? = none) (before : List Value) :
    NoObjectLast (before ++ [v]) := by
  intro v' hv'
  rw [List.getLast?_concat, Option.some.injEq] at hv'
  rwa [← hv']

/-- The first object of those that go into each other. -/
theorem NoObjectLast.settles {before : List Value} (hbefore : NoObjectLast before)
    (h : (Entries.keys members).Nodup) :
    Settles (before ++ [.object members]) (.object (Entries.putAll [] members)) := by
  refine .merged before [members] _ hbefore (List.cons_ne_nil _ _) ?_ fun name => ?_
  · have hnil : (Entries.keys ([] : Members)).Nodup := List.nodup_nil
    rw [Entries.keys_putAll hnil, firstKeys, List.flatMap_singleton]
    rfl
  · rw [Entries.get?_putAll h, Entries.get?_nil, Option.or_none]
    cases hname : Entries.get? members name <;> simp [given, hname]

theorem settles_first (hw : w.DistinctKeys) : Settles [w] (settle none w) := by
  cases hmembers : w.members? with
  | none =>
    rw [settle_of_members?_eq_none _ hmembers]
    exact .last [] w hmembers
  | some members =>
    obtain rfl := Value.members?_eq_some_iff.1 hmembers
    have hstart : NoObjectLast [] := nofun
    exact hstart.settles (distinctKeys_object_iff.1 hw).1

/-- One value more is given for a key. -/
theorem Settles.next (h : Settles values v) (hw : w.DistinctKeys) :
    Settles (values ++ [w]) (settle (some v) w) := by
  cases hmembers : w.members? with
  | none =>
    rw [settle_of_members?_eq_none _ hmembers]
    exact .last values w hmembers
  | some members =>
    obtain rfl := Value.members?_eq_some_iff.1 hmembers
    have hkeys := (distinctKeys_object_iff.1 hw).1
    cases h with
    | last before v hv =>
      rw [settle, Option.bind_some, hv, Option.getD_none]
      exact (noObjectLast_concat hv before).settles hkeys
    | merged before objects old hbefore hobjects hold hvalues =>
      have hsplit : before ++ objects.map Value.object ++ [.object members] =
          before ++ (objects ++ [members]).map .object := by simp
      rw [hsplit]
      refine .merged before (objects ++ [members]) _ hbefore (by simp) ?_ fun name => ?_
      · rw [Option.bind_some, Value.members?, Option.getD_some,
          Entries.keys_putAll (hold ▸ nodup_firstKeys objects), hold, firstKeys_append]
      · rw [Option.bind_some, Value.members?, Option.getD_some, Entries.get?_putAll hkeys, hvalues,
          given_append, List.getLast?_append]
        cases Entries.get? members name <;> rfl

theorem Settles.ne_nil (h : Settles values v) : values ≠ [] := by
  cases h with
  | last before v h => simp
  | merged before objects members _ hobjects => simp [hobjects]

theorem NoObjectLast.objects_eq_nil {before : List Value} {objects : List Members}
    (h : NoObjectLast (before ++ objects.map .object)) : objects = [] := by
  cases objects using List.reverseRecOn with
  | nil => rfl
  | append_singleton objects members => cases h (.object members) (by simp)

/-- What stands before the objects at the end is known, for no object stands at its end. -/
theorem NoObjectLast.objects_unique {before before' : List Value} {objects objects' : List Members}
    (hbefore : NoObjectLast before) (hbefore' : NoObjectLast before')
    (h : before ++ objects.map .object = before' ++ objects'.map .object) : objects = objects' := by
  have hinjective : Function.Injective (List.map Value.object) :=
    List.map_injective_iff.2 fun _ _ => Value.object.inj
  -- of two beginnings, the longer one would end with an object
  rcases List.append_eq_append_iff.1 h with ⟨between, rfl, heq⟩ | ⟨between, rfl, heq⟩
  · obtain ⟨front, back, rfl, rfl, hback⟩ := List.map_eq_append_iff.1 heq
    rw [hbefore'.objects_eq_nil]
    exact hinjective hback
  · obtain ⟨front, back, rfl, rfl, hback⟩ := List.map_eq_append_iff.1 heq
    rw [hbefore.objects_eq_nil]
    exact (hinjective hback).symm

theorem Settles.unique (h : Settles values v) (h' : Settles values w) : v = w := by
  generalize hvalues : values = values' at h'
  cases h with
  | last before v hv =>
    cases h' with
    | last before' w hw => exact List.singleton_inj.1 (List.append_inj' hvalues rfl).2
    | merged before' objects members _ hobjects =>
      exact absurd (hvalues ▸ noObjectLast_concat hv before).objects_eq_nil hobjects
  | merged before objects members hbefore hobjects hkeys hget =>
    cases h' with
    | last before' w hw =>
      exact absurd (hvalues ▸ noObjectLast_concat hw before').objects_eq_nil hobjects
    | merged before' objects' members' hbefore' _ hkeys' hget' =>
      obtain rfl := hbefore.objects_unique hbefore' hvalues
      refine congrArg Value.object (Entries.ext_of_nodup ?_ (hkeys.trans hkeys'.symm) fun name => ?_)
      · exact hkeys ▸ nodup_firstKeys objects
      · exact (hget name).trans (hget' name).symm

/-! ## All calls -/

/-- What the calls have set so far. -/
structure Accumulated (calls : List Members) (c : LoaderConfig) : Prop where
  keys : Entries.keys c.entries = firstKeys calls
  values : ∀ key v, c.get? key = some v → Settles (given calls key) v

theorem Accumulated.given_eq_nil (h : Accumulated calls c) {key : String} (hkey : c.get? key = none) :
    given calls key = [] := by
  rw [given_eq_nil_iff, ← h.keys]
  exact Entries.get?_eq_none_iff.1 hkey

theorem Accumulated.get?_eq_some_iff (h : Accumulated calls c) {key : String} :
    c.get? key = some v ↔ Settles (given calls key) v := by
  refine ⟨h.values key v, fun hv => ?_⟩
  cases hkey : c.get? key with
  | none => exact absurd (h.given_eq_nil hkey) hv.ne_nil
  | some w => rw [(h.values key w hkey).unique hv]

theorem accumulated_empty : Accumulated [] empty := ⟨rfl, nofun⟩

/-- One more call is applied. -/
theorem Accumulated.next (h : Accumulated calls c) (hm : Value.DistinctKeys (.object members)) :
    Accumulated (calls ++ [members]) (c.apply members) := by
  obtain ⟨hkeys, hvalues⟩ := distinctKeys_object_iff.1 hm
  refine ⟨?_, fun key v hv => ?_⟩
  · rw [keys_apply (h.keys ▸ nodup_firstKeys calls) hkeys, h.keys, firstKeys_append]
  rw [get?_apply c hkeys] at hv
  rw [given_append]
  cases hgiven : Entries.get? members key with
  | none =>
    rw [hgiven, Option.map_none, Option.none_or] at hv
    rw [Option.toList_none, List.append_nil]
    exact h.values key v hv
  | some w =>
    have hw : w.DistinctKeys := hvalues _ (Entries.get?_mem hgiven)
    rw [hgiven, Option.map_some, Option.some_or, Option.some.injEq] at hv
    rw [Option.toList_some, ← hv]
    cases hold : c.get? key with
    | none =>
      rw [h.given_eq_nil hold]
      exact settles_first hw
    | some old => exact (h.values key old hold).next hw

theorem accumulated_foldl (h : ∀ members ∈ calls, Value.DistinctKeys (.object members)) :
    Accumulated calls (calls.foldl apply empty) := by
  induction calls using List.reverseRecOn with
  | nil => exact accumulated_empty
  | append_singleton calls members ih =>
    rw [List.foldl_append]
    rw [List.forall_mem_append, List.forall_mem_singleton] at h
    exact (ih h.1).next h.2

/-! ## A file -/

/-- The arguments of each call begin with a literal of these members. -/
def ReadAs (calls : List (List Element)) (members : List Members) : Prop :=
  List.Forall₂ (fun arguments members => callMembers arguments = .ok members) calls members

theorem readAs_iff {arguments : List (List Element)} : ReadAs arguments calls ↔
    arguments.map (fun a => (callMembers a).toOption) = calls.map some := by
  have hread : ∀ (a : List Element) (members : Members),
      callMembers a = .ok members ↔ (callMembers a).toOption = some members := by
    intro a members
    cases callMembers a <;> simp [Except.toOption]
  rw [← List.forall₂_eq_eq_eq, List.forall₂_map_left_iff, List.forall₂_map_right_iff]
  simp only [ReadAs, hread]

instance (arguments : List (List Element)) (calls : List Members) :
    Decidable (ReadAs arguments calls) :=
  decidable_of_iff _ readAs_iff.symm

theorem foldlM_callMembers {arguments : List (List Element)} (h : ReadAs arguments calls)
    (c : LoaderConfig) :
    arguments.foldlM (fun c arguments => do return c.apply (← callMembers arguments)) c =
      Except.ok (calls.foldl apply c) := by
  induction h generalizing c with
  | nil => rfl
  | cons hcall _ ih =>
    rw [List.foldlM_cons, hcall]
    exact ih _

theorem ReadAs.distinctKeys {arguments : List (List Element)} (h : ReadAs arguments calls) :
    ∀ members ∈ calls, Value.DistinctKeys (.object members) := by
  induction h with
  | nil => nofun
  | cons hcall _ ih => exact List.forall_mem_cons.2 ⟨callMembers_distinctKeys hcall, ih⟩

theorem parse_eq_foldl {source : String} {statements : List Statement}
    (hscript : Script.parse? source.toList = some statements)
    (hcalls : ReadAs (configCalls statements) calls) (hne : calls ≠ []) :
    parse source = .ok (calls.foldl apply empty) := by
  rw [parse, hscript]
  show ofStatements statements = _
  unfold ofStatements
  split
  · rename_i hnone
    rw [hnone] at hcalls
    cases hcalls
    exact absurd rfl hne
  · exact foldlM_callMembers hcalls empty

/-- A file with calls whose arguments can be read sets the keys of all of them, in the order in which
they appear first, whatever stands between the calls; each key has the value that the calls settle;
and the last call once more would change nothing. -/
theorem parse_calls_settle {source : String} {statements : List Statement} {calls : List Members}
    (hscript : Script.parse? source.toList = some statements)
    (hcalls : ReadAs (configCalls statements) calls) (hne : calls ≠ []) :
    ∃ c, parse source = .ok c ∧ Entries.keys c.entries = firstKeys calls ∧
      (∀ key, key ∈ Entries.keys c.entries ↔ ∃ members ∈ calls, key ∈ Entries.keys members) ∧
      (∀ key v, c.get? key = some v ↔ Settles (given calls key) v) ∧
      c.apply (calls.getLast hne) = c := by
  have hdistinct := hcalls.distinctKeys
  have haccumulated := accumulated_foldl hdistinct
  refine ⟨calls.foldl apply empty, parse_eq_foldl hscript hcalls hne, haccumulated.keys,
    fun key => ?_, fun key v => haccumulated.get?_eq_some_iff, ?_⟩
  · rw [haccumulated.keys, mem_firstKeys]
  · have hlast : calls.foldl apply empty =
        (calls.dropLast.foldl apply empty).apply (calls.getLast hne) := by
      rw [← List.foldl_concat apply, List.dropLast_append_getLast]
    rw [hlast, apply_apply _ (hdistinct _ (List.getLast_mem hne))]

/-- A script in which `b` is a number first and then an object, with a statement between its calls. -/
def turningScript : String :=
  "System.config(\x7b a: \x7b x: \x7b p: 1 \x7d \x7d, b: 1 \x7d);\n" ++
    "var n = 0;\n" ++
    "(SystemJS.config(\x7b b: \x7b y: 2 \x7d, a: \x7b z: 3, x: \x7b q: 2 \x7d \x7d \x7d));\n" ++
    "System.config(\x7b b: \x7b w: 1 \x7d \x7d);\n"

def turningCalls : List Members :=
  [[("a", .object [("x", .object [("p", .number (.integer 1))])]), ("b", .number (.integer 1))],
    [("b", .object [("y", .number (.integer 2))]),
      ("a", .object [("z", .number (.integer 3)), ("x", .object [("q", .number (.integer 2))])])],
    [("b", .object [("w", .number (.integer 1))])]]

theorem parse_calls_settle_turning :
    ∃ statements, Script.parse? turningScript.toList = some statements ∧
      ReadAs (configCalls statements) turningCalls ∧
      ∃ c, parse turningScript = .ok c ∧ Entries.keys c.entries = ["a", "b"] ∧
        (∀ v, c.get? "b" = some v ↔ Settles [.number (.integer 1),
          .object [("y", .number (.integer 2))], .object [("w", .number (.integer 1))]] v) ∧
        c.apply [("b", .object [("w", .number (.integer 1))])] = c := by
  have hread : (Script.parse? turningScript.toList).any
      (fun statements => decide (ReadAs (configCalls statements) turningCalls)) = true := by
    decide +kernel
  obtain ⟨statements, hscript, hcalls⟩ := (Option.any_eq_true _ _).1 hread
  obtain ⟨c, hparse, hkeys, -, hvalues, hlast⟩ :=
    parse_calls_settle hscript (of_decide_eq_true hcalls) (List.cons_ne_nil _ _)
  refine ⟨statements, hscript, of_decide_eq_true hcalls, c, hparse, ?_, fun v => hvalues "b" v, hlast⟩
  rw [hkeys]
  decide +kernel

end BundleLedger.LoaderConfig
