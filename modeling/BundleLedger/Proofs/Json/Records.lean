import BundleLedger.Json.Decoder
import BundleLedger.Proofs.Json.ReadBack

/-!
# What is read of a written value

A decoder reads trees, and a value is written as a tree of its own shape. `d.Takes limit v a` says
that `d` reads `a` from what `v` is written as. The fields of a record may be written in any order;
where they are written in the order of the record, each comes to stand in its slot.

Results:

* `takes_list` and `takes_entries`: a list, or entries, are read where their parts are.
* `of_ofValue`: a record that was written has its fields in its slots.
* `run_text`: what is read of a written value is read of its text.
-/
namespace BundleLedger.Json

open BundleLedger.Decimal

theorem decodeText_encode (s : String) : decodeText (encode s.toList) = some s := by
  simp [decodeText, decode_encode]

namespace Tree

theorem ofItems_eq_map (items : List Value) : ofItems items = items.map ofValue := by
  induction items with
  | nil => rfl
  | cons item items ih => rw [ofItems, ih, List.map_cons]

theorem ofMembers_eq_map (members : Members) :
    ofMembers members = members.map fun m => (encode m.1.toList, ofValue m.2) := by
  induction members with
  | nil => rfl
  | cons m members ih => rw [ofMembers, ih, List.map_cons]

theorem members?_ofMembers {limit : Nat} {members : Members}
    (h : ∀ m ∈ members, Legible limit m.2) : members? limit (ofMembers members) = some members := by
  induction members with
  | nil => rfl
  | cons m members ih =>
    rw [List.forall_mem_cons] at h
    exact members?_cons m.1 (reads_of_legible h.1).2 (ih h.2)

end Tree

/-! ## Records -/

namespace Slots

/-- The first empty slot takes the field that is its own. -/
theorem fill_next {before : List String} {key : String} (hkey : key ∉ before) (after : List String)
    {filled : Slots} (hlength : filled.length = before.length) (rest : Slots) (tree : Tree) :
    fill (before ++ key :: after) (filled ++ none :: rest) key tree =
      some (filled ++ some tree :: rest) := by
  induction before generalizing filled with
  | nil =>
    obtain rfl : filled = [] := List.eq_nil_of_length_eq_zero hlength
    simp [fill]
  | cons field before ih =>
    obtain ⟨slot, filled, rfl⟩ := List.exists_cons_of_length_eq_add_one hlength
    simp only [List.mem_cons, not_or] at hkey
    have hlength : filled.length = before.length := by simpa using hlength
    rw [List.cons_append, List.cons_append, fill, if_neg (Ne.symm hkey.1), ih hkey.2 hlength]
    rfl

/-- The members that are still to come fill the slots that are still empty. -/
theorem foldlM_ofMembers (members : Members) {before : List String} {filled : Slots}
    (hlength : filled.length = before.length) (hkeys : (before ++ Entries.keys members).Nodup) :
    (Tree.ofMembers members).foldlM (fun slots (raw, tree) => do
      let key ← decodeText raw
      fill (before ++ Entries.keys members) slots key tree)
        (filled ++ members.map fun _ => none) =
      some (filled ++ members.map fun m => some (Tree.ofValue m.2)) := by
  induction members generalizing before filled with
  | nil => rfl
  | cons m members ih =>
    obtain ⟨key, v⟩ := m
    have hnew : key ∉ before := by
      intro hmem
      rw [List.nodup_append] at hkeys
      exact hkeys.2.2 key hmem key (by simp [Entries.keys]) rfl
    have hnext := @ih (before ++ [key]) (filled ++ [some (Tree.ofValue v)]) (by simp [hlength])
      (by simpa [Entries.keys] using hkeys)
    simp only [List.append_assoc, List.singleton_append] at hnext
    rw [Tree.ofMembers, List.foldlM_cons]
    simp only [decodeText_encode, Entries.keys, List.map_cons, Option.bind_eq_bind,
      Option.bind_some] at hnext ⊢
    rw [fill_next hnew _ hlength]
    exact hnext

theorem ofMembers_ofMembers {members : Members} (hkeys : (Entries.keys members).Nodup) :
    ofMembers (Entries.keys members) (Tree.ofMembers members) =
      some (members.map fun m => some (Tree.ofValue m.2)) := by
  have hstart : ((Entries.keys members).map fun _ => (none : Option Tree)) =
      members.map fun _ => none := by
    rw [Entries.keys, List.map_map]
    rfl
  rw [ofMembers, hstart]
  exact @foldlM_ofMembers members [] [] rfl hkeys

/-- An object with the fields of a record as its members fills the slots of the record. -/
theorem of_ofValue (members : Members) (hkeys : (Entries.keys members).Nodup) (limit : Nat) :
    of (Entries.keys members) (limit + 1) (Tree.ofValue (.object members)) =
      some (members.map fun m => some (Tree.ofValue m.2), limit) := by
  rw [Tree.ofValue, of, ofMembers_ofMembers hkeys]
  rfl

end Slots

/-! ## Decoders -/

namespace Decoder

variable {α : Type} {d : Decoder α} {limit : Nat}

/-- What a value is written as is read by `d` as `a`. -/
def Takes (d : Decoder α) (limit : Nat) (v : Value) (a : α) : Prop :=
  d limit (Tree.ofValue v) = some a

theorem takes_string (limit : Nat) (s : String) : string.Takes limit (.string s) s :=
  decodeText_encode s

theorem takes_bool (limit : Nat) (b : Bool) : bool.Takes limit (.bool b) b := rfl

theorem takes_count (limit : Nat) {n : Nat} (h : n < wordSize) :
    count.Takes limit (.number (.integer n)) n := by
  have hread : ReadsAs (Number.write (.integer n)) _ := readsAs_natText n
  rw [Takes, ofValue_number hread, count, number?_wholeLiteral h]
  simp

/-- What is read back one by one is read back as a whole. -/
theorem mapM_map_eq_some {β : Type} {read : β → Option α} {write : α → β} {as : List α}
    (h : ∀ a ∈ as, read (write a) = some a) : (as.map write).mapM read = some as := by
  induction as with
  | nil => rfl
  | cons a as ih =>
    rw [List.forall_mem_cons] at h
    simp only [List.map_cons, List.mapM_cons, h.1, ih h.2]
    rfl

/-- What was read one by one came each from a part of what was read. -/
theorem exists_of_mem_mapM {β : Type} {read : β → Option α} {bs : List β} {as : List α}
    (h : bs.mapM read = some as) {a : α} (ha : a ∈ as) : ∃ b ∈ bs, read b = some a := by
  induction bs generalizing as with
  | nil =>
    cases h
    cases ha
  | cons b bs ih =>
    rw [List.mapM_cons] at h
    obtain ⟨first, hfirst, h⟩ := Option.bind_eq_some_iff.1 h
    obtain ⟨rest, hrest, h⟩ := Option.bind_eq_some_iff.1 h
    cases h
    rcases List.mem_cons.1 ha with rfl | ha
    · exact ⟨b, List.mem_cons_self, hfirst⟩
    · obtain ⟨b', hb', hread⟩ := ih hrest ha
      exact ⟨b', List.mem_cons_of_mem _ hb', hread⟩

/-- An entry that was read came from a member of what was read. -/
theorem exists_of_mem_entries {tree : Tree} {es : Entries α} (h : entries d limit tree = some es)
    {e : String × α} (he : e ∈ es) : ∃ limit' members raw item, limit = limit' + 1 ∧
      tree = .object members ∧ (raw, item) ∈ members ∧ d limit' item = some e.2 := by
  unfold entries at h
  split at h
  · obtain ⟨pairs, hpairs, rfl⟩ := Option.map_eq_some_iff.1 h
    have hmem : e ∈ pairs := (Entries.mem_of_mem_putAll he).resolve_left List.not_mem_nil
    obtain ⟨⟨raw, item⟩, hitem, hread⟩ := exists_of_mem_mapM hpairs hmem
    obtain ⟨key, -, hread⟩ := Option.bind_eq_some_iff.1 hread
    obtain ⟨a, ha, hread⟩ := Option.bind_eq_some_iff.1 hread
    cases hread
    exact ⟨_, _, raw, item, rfl, rfl, hitem, ha⟩
  · cases h

theorem takes_list {toValue : α → Value} {as : List α} (h : ∀ a ∈ as, d.Takes limit (toValue a) a) :
    (list d).Takes (limit + 1) (.array (as.map toValue)) as := by
  rw [Takes, Tree.ofValue, Tree.ofItems_eq_map, list, List.map_map]
  exact mapM_map_eq_some h

/-- Entries with distinct keys are read as they are. -/
theorem takes_entries {toValue : α → Value} {es : Entries α} (hkeys : (Entries.keys es).Nodup)
    (h : ∀ e ∈ es, d.Takes limit (toValue e.2) e.2) :
    (entries d).Takes (limit + 1) (.object (es.map fun e => (e.1, toValue e.2))) es := by
  have hpairs : ((Tree.ofMembers (es.map fun e => (e.1, toValue e.2))).mapM fun (raw, tree) => do
      let key ← decodeText raw
      let value ← d limit tree
      return (key, value)) = some es := by
    rw [Tree.ofMembers_eq_map, List.map_map]
    refine mapM_map_eq_some fun e he => ?_
    have hvalue : d limit (Tree.ofValue (toValue e.2)) = some e.2 := h e he
    simp [decodeText_encode, hvalue]
  rw [Takes, Tree.ofValue, entries, hpairs, Option.map_some]
  exact congrArg some (Entries.putAll_eq_append (by simpa using hkeys))

/-- What is read of a written value is read of its text. -/
theorem run_text {v : Value} {a : α} (hv : Legible limit v) (h : d.Takes nestingLimit v a) :
    d.run v.text = some a := by
  rw [run, read?_text hv]
  exact h

end Decoder

end BundleLedger.Json
