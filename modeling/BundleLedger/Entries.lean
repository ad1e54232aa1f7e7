/-!
# Ordered entries

Keyed entries in the order in which their keys first appeared. A key that is put again keeps its
place and takes the new value.

Results:

* `get?_put`: what looking up sees after a `put`.
* `keys_put`: a new key comes last, a known key stays where it is.
* `keys_nodup_put`: distinct keys stay distinct.
-/
namespace BundleLedger

/-- Keyed entries in order of first appearance. -/
abbrev Entries (α : Type) := List (String × α)

namespace Entries

variable {α : Type}

/-- The value under `key`. -/
def get? (entries : Entries α) (key : String) : Option α :=
  match entries with
  | [] => none
  | (k, v) :: rest => if k = key then some v else get? rest key

/-- The entries with `value` under `key`. -/
def put (entries : Entries α) (key : String) (value : α) : Entries α :=
  match entries with
  | [] => [(key, value)]
  | (k, v) :: rest => if k = key then (key, value) :: rest else (k, v) :: put rest key value

def keys (entries : Entries α) : List String := entries.map (·.1)

def values (entries : Entries α) : List α := entries.map (·.2)

/-- Whether some entry has this key. -/
def has (entries : Entries α) (key : String) : Bool := (get? entries key).isSome

def putAll (entries more : Entries α) : Entries α :=
  more.foldl (fun acc (k, v) => put acc k v) entries

def ofPairs (pairs : List (String × α)) : Entries α := putAll [] pairs

@[simp] theorem get?_nil (key : String) : get? ([] : Entries α) key = none := rfl

@[simp] theorem put_nil (key : String) (v : α) : put [] key v = [(key, v)] := rfl

theorem get?_put (entries : Entries α) (key k : String) (v : α) :
    get? (put entries key v) k = if key = k then some v else get? entries k := by
  induction entries with
  | nil => simp [put, get?]
  | cons e rest ih =>
    obtain ⟨k', v'⟩ := e
    by_cases h : k' = key
    · subst h
      by_cases hk : k' = k <;> simp [put, get?, hk]
    · by_cases hk : k' = k
      · subst hk
        simp [put, get?, h, Ne.symm h]
      · simp [put, get?, h, hk, ih]

theorem get?_eq_none_iff {entries : Entries α} {key : String} :
    get? entries key = none ↔ key ∉ keys entries := by
  induction entries with
  | nil => simp [keys]
  | cons e rest ih =>
    obtain ⟨k, v⟩ := e
    by_cases h : k = key
    · simp [get?, keys, h]
    · simp only [keys] at ih
      simp [get?, keys, h, ih, Ne.symm h]

theorem keys_put (entries : Entries α) (key : String) (v : α) :
    keys (put entries key v) = if key ∈ keys entries then keys entries else keys entries ++ [key] := by
  induction entries with
  | nil => simp [put, keys]
  | cons e rest ih =>
    obtain ⟨k, w⟩ := e
    by_cases h : k = key
    · simp [put, keys, h]
    · simp only [keys] at ih
      by_cases hm : key ∈ rest.map (·.1) <;> simp [put, keys, h, Ne.symm h, ih, hm]

theorem keys_nodup_put {entries : Entries α} (key : String) (v : α) (h : (keys entries).Nodup) :
    (keys (put entries key v)).Nodup := by
  rw [keys_put]
  split
  · exact h
  · rename_i hm
    rw [List.nodup_append]
    refine ⟨h, by simp, ?_⟩
    intro a ha b hb he
    rw [List.mem_singleton] at hb
    exact hm (hb ▸ he ▸ ha)

theorem keys_nodup_putAll {entries more : Entries α} (h : (keys entries).Nodup) :
    (keys (putAll entries more)).Nodup := by
  induction more generalizing entries with
  | nil => exact h
  | cons e rest ih => exact ih (keys_nodup_put e.1 e.2 h)

theorem get?_mem {entries : Entries α} {key : String} {v : α} (h : get? entries key = some v) :
    (key, v) ∈ entries := by
  induction entries with
  | nil => simp at h
  | cons e rest ih =>
    obtain ⟨k, w⟩ := e
    by_cases hk : k = key
    · simp [get?, hk] at h
      simp [hk, h]
    · simp [get?, hk] at h
      exact List.mem_cons_of_mem _ (ih h)

end Entries

end BundleLedger
