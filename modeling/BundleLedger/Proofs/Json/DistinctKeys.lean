import BundleLedger.Json.Value
import BundleLedger.Proofs.Ledger

/-!
# Distinct keys at every level

A value may hold objects in objects. `Within w v` says that `w` occurs somewhere in `v`, so that what
is asked of a value at every level can be asked of all that occurs in it.

Results:

* `distinctKeys_object_iff` and `distinctKeys_array_iff`: the keys of a value are distinct where those
  of its parts are.
* `mem_parts_iff`: all that occurs in a value can be listed, so what is asked of it can be decided.
* `DistinctKeys.put` and `DistinctKeys.putAll`: they stay distinct when members are put in.
-/
namespace BundleLedger.Json.Value

/-- `Within w v` says that the value `w` occurs in `v`: it is `v`, or it occurs in an item or a
member. -/
inductive Within (w : Value) : Value → Prop where
  | self : Within w w
  | item {items : List Value} {v : Value} (hv : v ∈ items) (h : Within w v) :
      Within w (.array items)
  | member {members : Members} {m : String × Value} (hm : m ∈ members) (h : Within w m.2) :
      Within w (.object members)

mutual

/-- All that occurs in a value. -/
def parts : Value → List Value
  | .array items => .array items :: itemParts items
  | .object members => .object members :: memberParts members
  | .null => [.null]
  | .bool b => [.bool b]
  | .number n => [.number n]
  | .string s => [.string s]

def itemParts : List Value → List Value
  | [] => []
  | item :: items => parts item ++ itemParts items

def memberParts : List (String × Value) → List Value
  | [] => []
  | (_, item) :: members => parts item ++ memberParts members

end

mutual

theorem mem_parts_iff {w : Value} : ∀ {v : Value}, w ∈ v.parts ↔ Within w v
  | .null | .bool _ | .number _ | .string _ => by
    rw [parts, List.mem_singleton]
    constructor
    · rintro rfl
      exact .self
    · intro h
      cases h
      rfl
  | .array items => by
    rw [parts, List.mem_cons, mem_itemParts_iff]
    constructor
    · rintro (rfl | ⟨v, hv, h⟩)
      · exact .self
      · exact .item hv h
    · intro h
      cases h with
      | self => exact .inl rfl
      | item hv h => exact .inr ⟨_, hv, h⟩
  | .object members => by
    rw [parts, List.mem_cons, mem_memberParts_iff]
    constructor
    · rintro (rfl | ⟨m, hm, h⟩)
      · exact .self
      · exact .member hm h
    · intro h
      cases h with
      | self => exact .inl rfl
      | member hm h => exact .inr ⟨_, hm, h⟩

theorem mem_itemParts_iff {w : Value} :
    ∀ {items : List Value}, w ∈ itemParts items ↔ ∃ v ∈ items, Within w v
  | [] => by simp [itemParts]
  | item :: items => by simp [itemParts, mem_parts_iff, mem_itemParts_iff]

theorem mem_memberParts_iff {w : Value} :
    ∀ {members : List (String × Value)}, w ∈ memberParts members ↔ ∃ m ∈ members, Within w m.2
  | [] => by simp [memberParts]
  | (key, item) :: members => by simp [memberParts, mem_parts_iff, mem_memberParts_iff]

end

/-- In no object that occurs in a value, a key stands twice. -/
def DistinctKeys (v : Value) : Prop :=
  ∀ members, Within (.object members) v → (Entries.keys members).Nodup

instance (v : Value) : Decidable v.DistinctKeys :=
  decidable_of_iff (∀ w ∈ v.parts, ∀ members ∈ w.members?, (Entries.keys members).Nodup) <| by
    simp only [mem_parts_iff, Option.mem_def, members?_eq_some_iff]
    constructor
    · intro h members hw
      exact h _ hw members rfl
    · rintro h w hw members rfl
      exact h members hw

theorem distinctKeys_object_iff {members : Members} :
    DistinctKeys (.object members) ↔
      (Entries.keys members).Nodup ∧ ∀ m ∈ members, m.2.DistinctKeys := by
  constructor
  · intro h
    exact ⟨h members .self, fun m hm inner hw => h inner (.member hm hw)⟩
  · rintro ⟨hkeys, hmembers⟩ inner hw
    cases hw with
    | self => exact hkeys
    | member hm hw => exact hmembers _ hm inner hw

theorem distinctKeys_nil : DistinctKeys (.object []) :=
  distinctKeys_object_iff.2 ⟨List.nodup_nil, nofun⟩

theorem distinctKeys_array_iff {items : List Value} :
    DistinctKeys (.array items) ↔ ∀ v ∈ items, v.DistinctKeys := by
  constructor
  · intro h v hv inner hw
    exact h inner (.item hv hw)
  · intro h inner hw
    cases hw with
    | item hv hw => exact h _ hv inner hw

theorem distinctKeys_null : DistinctKeys .null := nofun

theorem distinctKeys_bool (b : Bool) : DistinctKeys (.bool b) := nofun

theorem distinctKeys_string (s : String) : DistinctKeys (.string s) := nofun

theorem distinctKeys_number (n : Number) : DistinctKeys (.number n) := nofun

theorem distinctKeys_strings (texts : List String) : DistinctKeys (.strings texts) := by
  refine distinctKeys_array_iff.2 fun v hv => ?_
  obtain ⟨s, -, rfl⟩ := List.mem_map.1 hv
  exact distinctKeys_string s

theorem DistinctKeys.put {members : Members} (h : DistinctKeys (.object members)) (key : String)
    {v : Value} (hv : v.DistinctKeys) : DistinctKeys (.object (Entries.put members key v)) := by
  rw [distinctKeys_object_iff] at h ⊢
  refine ⟨Entries.keys_nodup_put key v h.1, fun m hm => ?_⟩
  rcases Entries.mem_of_mem_put hm with rfl | hm
  · exact hv
  · exact h.2 m hm

theorem DistinctKeys.putAll {members more : Members} (h : DistinctKeys (.object members))
    (hmore : ∀ m ∈ more, m.2.DistinctKeys) : DistinctKeys (.object (Entries.putAll members more)) := by
  induction more generalizing members with
  | nil => exact h
  | cons m more ih =>
    exact ih (h.put m.1 (hmore m List.mem_cons_self)) fun m' hm' =>
      hmore m' (List.mem_cons_of_mem _ hm')

end BundleLedger.Json.Value
