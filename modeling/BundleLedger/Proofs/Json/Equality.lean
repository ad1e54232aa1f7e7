import BundleLedger.Json.Value

/-!
# Equal values

Values can be compared, with the order of their members, by going through both at once.

Results:

* `equals_iff`: the comparison finds values equal just if they are.
-/
namespace BundleLedger.Json.Value

mutual

def equals : Value → Value → Bool
  | .null, .null => true
  | .bool a, .bool b => a == b
  | .number a, .number b => a == b
  | .string a, .string b => a == b
  | .array items, .array items' => equalItems items items'
  | .object members, .object members' => equalMembers members members'
  | _, _ => false

/-- Whether two lists hold equal values. -/
def equalItems : List Value → List Value → Bool
  | [], [] => true
  | v :: items, v' :: items' => equals v v' && equalItems items items'
  | _, _ => false

def equalMembers : List (String × Value) → List (String × Value) → Bool
  | [], [] => true
  | (key, v) :: members, (key', v') :: members' =>
    key == key' && equals v v' && equalMembers members members'
  | _, _ => false

end

mutual

theorem equals_iff : ∀ {v v' : Value}, equals v v' = true ↔ v = v'
  | .null, v' | .bool _, v' | .number _, v' | .string _, v' => by cases v' <;> simp [equals]
  | .array items, v' => by cases v' <;> simp [equals, equalItems_iff]
  | .object members, v' => by cases v' <;> simp [equals, equalMembers_iff]

theorem equalItems_iff : ∀ {items items' : List Value}, equalItems items items' = true ↔ items = items'
  | [], items' => by cases items' <;> simp [equalItems]
  | v :: items, items' => by
    cases items' <;> simp [equalItems, equals_iff, equalItems_iff]

theorem equalMembers_iff : ∀ {members members' : List (String × Value)},
    equalMembers members members' = true ↔ members = members'
  | [], members' => by cases members' <;> simp [equalMembers]
  | (key, v) :: members, members' => by
    cases members' <;> simp [equalMembers, equals_iff, equalMembers_iff, Prod.ext_iff]

end

instance : DecidableEq Value := fun v v' => decidable_of_iff (equals v v' = true) equals_iff

end BundleLedger.Json.Value
