import BundleLedger.Bundle.Save
import BundleLedger.Proofs.Json.Acceptance

/-!
# What a relocated map says

A map is relocated by reading it, putting a text in front of its relative sources and writing what
that makes. As integers of 64 bits survive this, nothing else in the map changes (`Led`), and whether
it can be done depends on the text of the map alone.

Where the text that is put in front is itself a relative one, what was relative stays relative. So a
map may be relocated step by step: the texts of the steps come one before the other.

Results:

* `relocateValue_object`: the members are changed one by one, where they stand.
* `relocateValue_led`: and only the relative sources among them change.
* `relocateValue_relocateValue`: two steps are one.
* `legible_relocateValue`: a map that can be written can still be written.
* `relocate?_reads`: a map is relocated if it can be read, what it then says, and that two steps are
  one.
-/
namespace BundleLedger.SourceMap

open Json

/-! ## Relative sources -/

theorem isRelative_iff {source : List Char} :
    isRelative source = true ↔ source.head? ≠ some '/' ∧ ':' ∉ source := by
  simp [isRelative]

/-- Behind a relative text a relative source is relative still. -/
theorem isRelative_append {lead source : List Char} (hlead : isRelative lead = true)
    (hsource : isRelative source = true) : isRelative (lead ++ source) = true := by
  rw [isRelative_iff] at hlead hsource ⊢
  refine ⟨?_, by simp [hlead.2, hsource.2]⟩
  cases lead with
  | nil => exact hsource.1
  | cons c lead => exact hlead.1

theorem relocateSource_relocateSource {lead : String} (hlead : isRelative lead.toList = true)
    (outer : String) (v : Value) :
    relocateSource outer (relocateSource lead v) = relocateSource (outer ++ lead) v := by
  cases v with
  | string s =>
    by_cases hs : isRelative s.toList = true
    · have hmoved : isRelative (lead ++ s).toList = true := by
        rw [String.toList_append]
        exact isRelative_append hlead hs
      rw [relocateSource, if_pos hs, relocateSource, if_pos hmoved, relocateSource, if_pos hs,
        String.append_assoc]
    · simp [relocateSource, hs]
  | null | bool | number | array | object => rfl

/-! ## Members -/

/-- What is under `sources` with `lead` in front of the relative ones, if it is a list. -/
def relocateItems (lead : String) : Value → Value
  | .array sources => .array (sources.map (relocateSource lead))
  | v => v

/-- A member of a map whose relative sources have `lead` in front. -/
def relocateMember (lead : String) (m : String × Value) : String × Value :=
  (m.1, if m.1 = "sources" then relocateItems lead m.2 else m.2)

theorem keys_map_relocateMember (lead : String) (members : Members) :
    Entries.keys (members.map (relocateMember lead)) = Entries.keys members := by
  simp [Entries.keys, relocateMember]

/-- Without a list of sources there is nothing to change. -/
theorem relocateItems_eq_self {lead : String} {v : Value} (h : ∀ sources, v ≠ .array sources) :
    relocateItems lead v = v := by
  cases v with
  | array sources => exact absurd rfl (h sources)
  | null | bool | number | string | object => rfl

theorem relocateValue_object {members : Members} (hkeys : (Entries.keys members).Nodup)
    (lead : String) :
    relocateValue lead (.object members) = .object (members.map (relocateMember lead)) := by
  rw [relocateValue]
  split
  · rename_i sources hsources
    have hmem : "sources" ∈ Entries.keys members := List.mem_map_of_mem (Entries.get?_mem hsources)
    rw [Entries.put_eq_map hkeys hmem]
    congr 1
    refine List.map_congr_left fun m hm => ?_
    by_cases hkey : m.1 = "sources"
    · have hvalue : m.2 = .array sources := by
        have hget : Entries.get? members m.1 = some m.2 := Entries.get?_of_mem hkeys hm
        rw [hkey, hsources] at hget
        exact (Option.some.inj hget).symm
      simp [relocateMember, hkey, hvalue, relocateItems]
    · simp [relocateMember, hkey]
  · rename_i hsources
    congr 1
    refine (List.map_id members).symm.trans (List.map_congr_left fun m hm => ?_)
    by_cases hkey : m.1 = "sources"
    · have hlist : ∀ sources, m.2 ≠ .array sources := by
        intro sources hvalue
        refine hsources sources ?_
        rw [← hkey, ← hvalue]
        exact Entries.get?_of_mem hkeys hm
      rw [relocateMember, if_pos hkey, relocateItems_eq_self hlist, id]
    · simp [relocateMember, hkey]

theorem relocateItems_relocateItems {lead : String} (hlead : isRelative lead.toList = true)
    (outer : String) (v : Value) :
    relocateItems outer (relocateItems lead v) = relocateItems (outer ++ lead) v := by
  cases v with
  | array sources => simp [relocateItems, relocateSource_relocateSource hlead]
  | null | bool | number | string | object => rfl

theorem relocateMember_relocateMember {lead : String} (hlead : isRelative lead.toList = true)
    (outer : String) (m : String × Value) :
    relocateMember outer (relocateMember lead m) = relocateMember (outer ++ lead) m := by
  by_cases hkey : m.1 = "sources"
  · simp [relocateMember, hkey, relocateItems_relocateItems hlead]
  · simp [relocateMember, hkey]

/-- A map whose keys are distinct is relocated in two steps as in one. -/
theorem relocateValue_relocateValue {lead : String} (hlead : isRelative lead.toList = true)
    (outer : String) {limit : ℕ} {v : Value} (h : Legible limit v) :
    relocateValue outer (relocateValue lead v) = relocateValue (outer ++ lead) v := by
  cases h with
  | object hkeys _ =>
    have hmoved := hkeys
    rw [← keys_map_relocateMember lead] at hmoved
    rw [relocateValue_object hkeys, relocateValue_object hmoved, relocateValue_object hkeys]
    simp [relocateMember_relocateMember hlead]
  | null | bool | string | integer | negativeZero | array => rfl

/-! ## What is left can be written -/

theorem legible_relocateSource {limit : ℕ} {v : Value} (h : Legible limit v) (lead : String) :
    Legible limit (relocateSource lead v) := by
  unfold relocateSource
  split
  · split <;> exact .string _
  · exact h

theorem legible_relocateItems {limit : ℕ} {v : Value} (h : Legible limit v) (lead : String) :
    Legible limit (relocateItems lead v) := by
  cases h with
  | array hitems =>
    refine .array fun item hitem => ?_
    obtain ⟨source, hsource, rfl⟩ := List.mem_map.1 hitem
    exact legible_relocateSource (hitems source hsource) lead
  | null => exact .null
  | bool b => exact .bool b
  | string s => exact .string s
  | integer low high => exact .integer low high
  | negativeZero => exact .negativeZero
  | object hkeys hmembers => exact .object hkeys hmembers

theorem legible_relocateValue {limit : ℕ} {v : Value} (h : Legible limit v) (lead : String) :
    Legible limit (relocateValue lead v) := by
  cases h with
  | object hkeys hmembers =>
    rw [relocateValue_object hkeys]
    refine .object (by rwa [keys_map_relocateMember]) fun m hm => ?_
    obtain ⟨m, hmem, rfl⟩ := List.mem_map.1 hm
    rw [relocateMember]
    dsimp only
    split
    · exact legible_relocateItems (hmembers m hmem) lead
    · exact hmembers m hmem
  | null => exact .null
  | bool b => exact .bool b
  | string s => exact .string s
  | integer low high => exact .integer low high
  | negativeZero => exact .negativeZero
  | array hitems => exact .array hitems

/-! ## What changes -/

/-- What `lead` makes of an item of the sources. -/
inductive SourceLed (lead : String) : Value → Value → Prop where
  | relative {s : String} (start : s.toList.head? ≠ some '/') (scheme : ':' ∉ s.toList) :
      SourceLed lead (.string s) (.string (lead ++ s))
  | rooted {s : String} (start : s.toList.head? = some '/') : SourceLed lead (.string s) (.string s)
  | located {s : String} (scheme : ':' ∈ s.toList) : SourceLed lead (.string s) (.string s)
  | other {v : Value} (h : ∀ s, v ≠ .string s) : SourceLed lead v v

/-- What `lead` makes of a member of a map: its key stays, and its value too, unless it is the list of
the sources. -/
inductive MemberLed (lead : String) : String × Value → String × Value → Prop where
  | sources {items items' : List Value} (h : List.Forall₂ (SourceLed lead) items items') :
      MemberLed lead ("sources", .array items) ("sources", .array items')
  | scalar {v : Value} (h : ∀ items, v ≠ .array items) : MemberLed lead ("sources", v) ("sources", v)
  | other {key : String} {v : Value} (h : key ≠ "sources") : MemberLed lead (key, v) (key, v)

/-- What `lead` makes of a map. -/
inductive Led (lead : String) : Value → Value → Prop where
  | object {members members' : Members} (h : List.Forall₂ (MemberLed lead) members members') :
      Led lead (.object members) (.object members')
  | other {v : Value} (h : ∀ members, v ≠ .object members) : Led lead v v

theorem relocateSource_led (lead : String) (v : Value) : SourceLed lead v (relocateSource lead v) := by
  cases v with
  | string s =>
    by_cases hs : isRelative s.toList = true
    · rw [relocateSource, if_pos hs]
      rw [isRelative_iff] at hs
      exact .relative hs.1 hs.2
    · rw [relocateSource, if_neg hs]
      rw [isRelative_iff, not_and_or, not_not, not_not] at hs
      exact hs.elim .rooted .located
  | null | bool | number | array | object =>
    refine .other ?_
    intro _ h
    cases h

theorem relocateMember_led (lead : String) (m : String × Value) :
    MemberLed lead m (relocateMember lead m) := by
  obtain ⟨key, v⟩ := m
  by_cases hkey : key = "sources"
  · subst hkey
    cases v with
    | array items =>
      refine .sources ?_
      rw [List.forall₂_map_right_iff, List.forall₂_same]
      exact fun item _ => relocateSource_led lead item
    | null | bool | number | string | object =>
      refine .scalar ?_
      intro _ h
      cases h
  · rw [relocateMember, if_neg hkey]
    exact .other hkey

theorem relocateValue_led {limit : Nat} {v : Value} (h : Legible limit v) (lead : String) :
    Led lead v (relocateValue lead v) := by
  cases h with
  | object hkeys _ =>
    rw [relocateValue_object hkeys]
    refine .object ?_
    rw [List.forall₂_map_right_iff, List.forall₂_same]
    exact fun m _ => relocateMember_led lead m
  | null | bool | string | integer | negativeZero | array =>
    refine .other ?_
    intro _ h
    cases h

/-! ## Texts -/

section Texts

variable {map : String}

/-- A map that was read from integers of 64 bits survives being relocated. -/
theorem legible_of_parse? (hwords : ∀ tree, Tree.read? map.toList = some tree →
    ∀ n ∈ tree.numbers, n.IsWord) {v : Value} (h : parse? map = some v) : Legible nestingLimit v := by
  obtain ⟨tree, hread, -⟩ := parse?_isSome_iff.1 (Option.isSome_of_eq_some h)
  exact legible_of_read? hread (hwords tree hread) h

/-- A map whose numbers are integers of 64 bits is relocated exactly if it can be read: it follows the
grammar, is nested no deeper than the limit, and has no escape without a meaning. What it then says is
the same but for the relative sources. With a relative text in front, a second step comes to the same
text as one step with both. -/
theorem relocate?_reads (hwords : ∀ tree, Tree.read? map.toList = some tree →
    ∀ n ∈ tree.numbers, n.IsWord) (lead : String) :
    ((relocate? map lead).isSome ↔ ∃ tree, Tree.read? map.toList = some tree ∧
        tree.depth ≤ nestingLimit ∧ ∀ raw ∈ tree.texts, (decode raw).isSome) ∧
      ((relocate? map lead).isSome ↔ (parse? map).isSome) ∧
      (∀ v, parse? map = some v → ∃ text v', relocate? map lead = some text ∧
        parse? text = some v' ∧ Led lead v v') ∧
      (lead.toList.head? ≠ some '/' → ':' ∉ lead.toList → ∀ outer,
        (relocate? map lead).bind (relocate? · outer) = relocate? map (outer ++ lead)) := by
  have hsome : (relocate? map lead).isSome ↔ (parse? map).isSome := by simp [relocate?]
  refine ⟨?_, hsome, ?_, ?_⟩
  · rw [hsome, parse?_isSome_iff]
    refine exists_congr fun tree => and_congr_right fun hread => and_congr_right fun _ => ?_
    exact and_iff_left fun n hn => NumberLiteral.isSome_number?_of_isWord (hwords tree hread n hn)
  · intro v hv
    have hlegible := legible_of_parse? hwords hv
    exact ⟨_, _, by rw [relocate?, hv, Option.map_some],
      parse?_text (legible_relocateValue hlegible lead), relocateValue_led hlegible lead⟩
  · intro hstart hscheme outer
    have hlead : isRelative lead.toList = true := isRelative_iff.2 ⟨hstart, hscheme⟩
    cases hv : parse? map with
    | none => simp [relocate?, hv]
    | some v =>
      have hlegible := legible_of_parse? hwords hv
      have hstep := parse?_text (legible_relocateValue hlegible lead)
      simp [relocate?, hv, hstep, relocateValue_relocateValue hlead outer hlegible]

end Texts

/-- A map with a list of sources in its first member, and another one further in. -/
def mixedMap : String :=
  "\x7b\"sources\":[\"a.js\",\"/b.js\",\"c:d.js\",-7],\"inner\":\x7b\"sources\":[\"e.js\"]\x7d\x7d"

def mixedMapLed : String :=
  "\x7b\"sources\":[\"src/a.js\",\"/b.js\",\"c:d.js\",-7],\"inner\":\x7b\"sources\":[\"e.js\"]\x7d\x7d"

def mixedMapLedTwice : String :=
  "\x7b\"sources\":[\"/w/src/a.js\",\"/b.js\",\"c:d.js\",-7],\"inner\":\x7b\"sources\":[\"e.js\"]\x7d\x7d"

/-- The second text starts with `/`, the first does not. -/
theorem relocate?_reads_mixed : relocate? mixedMap "src/" = some mixedMapLed ∧
    (∃ v v', parse? mixedMap = some v ∧ parse? mixedMapLed = some v' ∧ Led "src/" v v') ∧
    relocate? mixedMapLed "/w/" = some mixedMapLedTwice ∧
    relocate? mixedMap "/w/src/" = some mixedMapLedTwice := by
  have hread : Tree.read? mixedMap.toList = some (.object
      [("sources".toList, .array [.string "a.js".toList, .string "/b.js".toList,
          .string "c:d.js".toList, .number ⟨true, [7], [], none⟩]),
        ("inner".toList, .object [("sources".toList, .array [.string "e.js".toList])])]) := by
    simp only [mixedMap, String.reduceToList]
    rfl
  have hnumber : NumberLiteral.number? ⟨true, [7], [], none⟩ = some (.integer (-7)) := by decide
  have hwords : ∀ tree, Tree.read? mixedMap.toList = some tree → ∀ n ∈ tree.numbers, n.IsWord := by
    intro tree htree
    rw [hread] at htree
    cases htree
    exact List.forall_mem_singleton.2 (NumberLiteral.isWord_of_number? hnumber)
  have hled : relocate? mixedMap "src/" = some mixedMapLed := by decide +kernel
  have htwice : relocate? mixedMapLed "/w/" = some mixedMapLedTwice := by decide +kernel
  obtain ⟨-, hsome, hvalue, hsteps⟩ := relocate?_reads hwords "src/"
  obtain ⟨v, hv⟩ := Option.isSome_iff_exists.1 (hsome.1 (Option.isSome_of_eq_some hled))
  obtain ⟨text, v', htext, hv', hspec⟩ := hvalue v hv
  obtain rfl : mixedMapLed = text := Option.some.inj (hled.symm.trans htext)
  have hstep := hsteps (by decide) (by decide) "/w/"
  rw [hled, Option.bind_some, htwice] at hstep
  exact ⟨hled, ⟨v, v', hv, hv', hspec⟩, htwice, hstep.symm⟩

end BundleLedger.SourceMap
