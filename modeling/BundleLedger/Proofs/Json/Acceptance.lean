import BundleLedger.Proofs.Json.DistinctKeys
import BundleLedger.Proofs.Json.Integers

/-!
# Which documents have a value

A text that follows the grammar of JSON can still be refused: its collections are nested too deep, an
escape stands for half of a surrogate pair, or a number is beyond the greatest double. There is no
other reason.

Results:

* `value?_isSome_iff` and `parse?_isSome_iff`: which documents are accepted.
* `isSome_number?_of_isWord`: an integer of 64 bits is never refused.
* `legible_of_depth`: which values survive being written and read, by how deep they are nested.
-/
namespace BundleLedger.Json

open BundleLedger.Decimal

/-! ## Documents -/

namespace Tree

mutual

/-- How many arrays and objects are nested in a document. -/
def depth : Tree → Nat
  | .array items => itemsDepth items + 1
  | .object members => membersDepth members + 1
  | .null | .bool _ | .number _ | .string _ => 0

def itemsDepth : List Tree → Nat
  | [] => 0
  | item :: items => max (depth item) (itemsDepth items)

def membersDepth : List (List Char × Tree) → Nat
  | [] => 0
  | (_, item) :: members => max (depth item) (membersDepth members)

end

mutual

/-- The strings of a document as they are written, keys among them. -/
def texts : Tree → List (List Char)
  | .string raw => [raw]
  | .array items => itemTexts items
  | .object members => memberTexts members
  | .null | .bool _ | .number _ => []

def itemTexts : List Tree → List (List Char)
  | [] => []
  | item :: items => texts item ++ itemTexts items

def memberTexts : List (List Char × Tree) → List (List Char)
  | [] => []
  | (key, item) :: members => key :: (texts item ++ memberTexts members)

end

/-- Nothing in some strings and numbers is refused. -/
def Meaningful (texts : List (List Char)) (numbers : List NumberLiteral) : Prop :=
  (∀ raw ∈ texts, (decode raw).isSome) ∧ ∀ n ∈ numbers, n.number?.isSome

theorem meaningful_append_iff {texts more : List (List Char)} {numbers others : List NumberLiteral} :
    Meaningful (texts ++ more) (numbers ++ others) ↔
      Meaningful texts numbers ∧ Meaningful more others := by
  simp only [Meaningful, List.forall_mem_append]
  constructor
  · rintro ⟨⟨ht, hm⟩, hn, ho⟩
    exact ⟨⟨ht, hn⟩, hm, ho⟩
  · rintro ⟨⟨ht, hn⟩, hm, ho⟩
    exact ⟨⟨ht, hm⟩, hn, ho⟩

theorem meaningful_cons_iff {raw : List Char} {texts : List (List Char)}
    {numbers : List NumberLiteral} :
    Meaningful (raw :: texts) numbers ↔ (decode raw).isSome ∧ Meaningful texts numbers := by
  simp only [Meaningful, List.forall_mem_cons, and_assoc]

mutual

theorem value?_isSome_iff : ∀ (tree : Tree) (limit : Nat), (tree.value? limit).isSome ↔
    tree.depth ≤ limit ∧ Meaningful tree.texts tree.numbers
  | .null, limit => by simp [value?, depth, texts, numbers, Meaningful]
  | .bool b, limit => by simp [value?, depth, texts, numbers, Meaningful]
  | .number literal, limit => by simp [value?, depth, texts, numbers, Meaningful]
  | .string raw, limit => by simp [value?, depth, texts, numbers, Meaningful]
  | .array items, limit => by
    rw [value?, depth, texts, numbers]
    cases limit with
    | zero => simp
    | succ limit => simp [values?_isSome_iff items limit]
  | .object members, limit => by
    rw [value?, depth, texts, numbers]
    cases limit with
    | zero => simp
    | succ limit => simp [members?_isSome_iff members limit]

theorem values?_isSome_iff : ∀ (items : List Tree) (limit : Nat), (values? limit items).isSome ↔
    itemsDepth items ≤ limit ∧ Meaningful (itemTexts items) (itemNumbers items)
  | [], limit => by simp [values?, itemsDepth, itemTexts, itemNumbers, Meaningful]
  | item :: items, limit => by
    have hsome : (values? limit (item :: items)).isSome ↔
        (item.value? limit).isSome ∧ (values? limit items).isSome := by
      rw [values?]
      cases item.value? limit <;> cases values? limit items <;> simp
    rw [hsome, value?_isSome_iff item limit, values?_isSome_iff items limit, itemsDepth, itemTexts,
      itemNumbers, meaningful_append_iff, Nat.max_le, and_and_and_comm]

theorem members?_isSome_iff : ∀ (members : List (List Char × Tree)) (limit : Nat),
    (members? limit members).isSome ↔
      membersDepth members ≤ limit ∧ Meaningful (memberTexts members) (memberNumbers members)
  | [], limit => by simp [members?, membersDepth, memberTexts, memberNumbers, Meaningful]
  | (key, item) :: members, limit => by
    have hsome : (members? limit ((key, item) :: members)).isSome ↔
        (decode key).isSome ∧ (item.value? limit).isSome ∧ (members? limit members).isSome := by
      rw [members?]
      cases decode key <;> cases item.value? limit <;> cases members? limit members <;> simp
    rw [hsome, value?_isSome_iff item limit, members?_isSome_iff members limit, membersDepth,
      memberTexts, memberNumbers, meaningful_cons_iff, meaningful_append_iff, Nat.max_le,
      and_and_and_comm, and_left_comm]

end

end Tree

/-- A text has a value if it follows the grammar, is nested no deeper than the limit, and its strings
and numbers have a meaning. -/
theorem parse?_isSome_iff {text : String} : (parse? text).isSome ↔
    ∃ tree, Tree.read? text.toList = some tree ∧ tree.depth ≤ nestingLimit ∧
      Tree.Meaningful tree.texts tree.numbers := by
  rw [parse?]
  cases Tree.read? text.toList with
  | none => simp
  | some tree => simp [Tree.value?_isSome_iff]

theorem NumberLiteral.isSome_number?_of_isWord {literal : NumberLiteral} (h : literal.IsWord) :
    literal.number?.isSome := by
  rcases number?_of_isWord h with ⟨k, hk⟩ | hzero
  · simp [hk]
  · simp [hzero]

/-! ## Values -/

/-- An integer that fits 64 bits, with a sign or without one. -/
def Number.IsWord : Number → Prop
  | .integer k => -(wordSize / 2 : Nat) ≤ k ∧ k < wordSize
  | .double _ => False

instance : DecidablePred Number.IsWord
  | .integer _ => inferInstanceAs (Decidable (_ ∧ _))
  | .double _ => inferInstanceAs (Decidable False)

namespace Value

mutual

/-- How many arrays and objects are nested in a value. -/
def depth : Value → Nat
  | .array items => itemsDepth items + 1
  | .object members => membersDepth members + 1
  | .null | .bool _ | .number _ | .string _ => 0

def itemsDepth : List Value → Nat
  | [] => 0
  | item :: items => max (depth item) (itemsDepth items)

def membersDepth : List (String × Value) → Nat
  | [] => 0
  | (_, item) :: members => max (depth item) (membersDepth members)

end

def number? : Value → Option Number
  | .number n => some n
  | _ => none

theorem number?_eq_some_iff {v : Value} {n : Number} : v.number? = some n ↔ v = .number n := by
  cases v <;> simp [number?]

/-- All numbers in a value are integers of 64 bits. -/
def HasWords (v : Value) : Prop := ∀ n, Within (.number n) v → n.IsWord

instance (v : Value) : Decidable v.HasWords :=
  decidable_of_iff (∀ w ∈ v.parts, ∀ n ∈ w.number?, n.IsWord) <| by
    simp only [mem_parts_iff, Option.mem_def, number?_eq_some_iff]
    constructor
    · intro h n hw
      exact h _ hw n rfl
    · rintro h w hw n rfl
      exact h n hw

theorem hasWords_array_iff {items : List Value} :
    HasWords (.array items) ↔ ∀ v ∈ items, v.HasWords := by
  constructor
  · intro h v hv n hn
    exact h n (.item hv hn)
  · intro h n hn
    cases hn with
    | item hv hn => exact h _ hv n hn

theorem hasWords_object_iff {members : Members} :
    HasWords (.object members) ↔ ∀ m ∈ members, m.2.HasWords := by
  constructor
  · intro h m hm n hn
    exact h n (.member hm hn)
  · intro h n hn
    cases hn with
    | member hm hn => exact h _ hm n hn

mutual

theorem legible_of_depth : ∀ (v : Value) {limit : Nat}, v.HasWords → v.DistinctKeys →
    v.depth ≤ limit → Legible limit v
  | .null, _, _, _, _ => .null
  | .bool b, _, _, _, _ => .bool b
  | .number n, _, hwords, _, _ => by
    have hword := hwords n .self
    cases n with
    | integer k => exact .integer hword.1 hword.2
    | double d => exact absurd hword id
  | .string s, _, _, _, _ => .string s
  | .array items, limit, hwords, hkeys, hdepth => by
    rw [hasWords_array_iff] at hwords
    rw [distinctKeys_array_iff] at hkeys
    rw [depth] at hdepth
    cases limit with
    | zero => omega
    | succ limit => exact .array (legible_of_itemsDepth items hwords hkeys (by omega))
  | .object members, limit, hwords, hkeys, hdepth => by
    rw [hasWords_object_iff] at hwords
    rw [distinctKeys_object_iff] at hkeys
    rw [depth] at hdepth
    cases limit with
    | zero => omega
    | succ limit =>
      exact .object hkeys.1 (legible_of_membersDepth members hwords hkeys.2 (by omega))

theorem legible_of_itemsDepth : ∀ (items : List Value) {limit : Nat}, (∀ v ∈ items, v.HasWords) →
    (∀ v ∈ items, v.DistinctKeys) → itemsDepth items ≤ limit → ∀ v ∈ items, Legible limit v
  | [], _, _, _, _ => nofun
  | item :: items, limit, hwords, hkeys, hdepth => by
    rw [itemsDepth, Nat.max_le] at hdepth
    rw [List.forall_mem_cons] at hwords hkeys ⊢
    exact ⟨legible_of_depth item hwords.1 hkeys.1 hdepth.1,
      legible_of_itemsDepth items hwords.2 hkeys.2 hdepth.2⟩

theorem legible_of_membersDepth : ∀ (members : List (String × Value)) {limit : Nat},
    (∀ m ∈ members, m.2.HasWords) → (∀ m ∈ members, m.2.DistinctKeys) →
      membersDepth members ≤ limit → ∀ m ∈ members, Legible limit m.2
  | [], _, _, _, _ => nofun
  | (key, item) :: members, limit, hwords, hkeys, hdepth => by
    rw [membersDepth, Nat.max_le] at hdepth
    rw [List.forall_mem_cons] at hwords hkeys ⊢
    exact ⟨legible_of_depth item hwords.1 hkeys.1 hdepth.1,
      legible_of_membersDepth members hwords.2 hkeys.2 hdepth.2⟩

end

end Value

end BundleLedger.Json
