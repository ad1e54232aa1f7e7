import BundleLedger.Proofs.Ledger
import BundleLedger.Proofs.Text.Sorting

/-!
# Entries that are put in

Entries with distinct keys are known by their keys in order and by what looking up sees of them
(`ext_of_nodup`). So it is enough to say these two things of entries that were put into others.

Results:

* `ext_of_nodup`: entries with the same keys that look the same are the same.
* `put_eq_self` and `putAll_eq_self`: putting in what is there changes nothing.
* `getElem?_put_of_ne`: an entry keeps its place when another key is put.
* `keys_putAll` and `get?_putAll`: the keys of entries that were put into others, and what is under
  them.
-/
namespace BundleLedger.Entries

variable {α : Type} {entries entries' more : Entries α} {key : String} {v : α}

theorem ext_of_nodup (h : (keys entries).Nodup) (hkeys : keys entries = keys entries')
    (hget : ∀ key, get? entries key = get? entries' key) : entries = entries' := by
  induction entries generalizing entries' with
  | nil => exact (List.map_eq_nil_iff.1 hkeys.symm).symm
  | cons e rest ih =>
    obtain ⟨k, v⟩ := e
    obtain ⟨⟨k', v'⟩, rest', rfl, hk : k' = k, hrest⟩ := List.map_eq_cons_iff.1 hkeys.symm
    subst hk
    have hnodup : k' ∉ keys rest ∧ (keys rest).Nodup := List.nodup_cons.1 h
    have hv : v = v' := by simpa [get?] using hget k'
    have hlook : ∀ key, get? rest key = get? rest' key := by
      intro key
      by_cases hkey : k' = key
      · rw [← hkey, get?_eq_none_iff.2 hnodup.1, eq_comm, get?_eq_none_iff]
        exact (congrArg (k' ∉ ·) hrest).mpr hnodup.1
      · simpa [get?, hkey] using hget key
    rw [hv, ih hnodup.2 hrest.symm hlook]

theorem put_eq_self (h : get? entries key = some v) : put entries key v = entries := by
  induction entries with
  | nil => cases h
  | cons e rest ih =>
    obtain ⟨k, w⟩ := e
    by_cases hk : k = key <;> simp [get?, put, hk] at h ⊢
    · exact h.symm
    · exact ih h

theorem putAll_eq_self (h : ∀ e ∈ more, get? entries e.1 = some e.2) : putAll entries more = entries := by
  induction more with
  | nil => rfl
  | cons e more ih =>
    rw [List.forall_mem_cons] at h
    show putAll (put entries e.1 e.2) more = entries
    rw [put_eq_self h.1, ih h.2]

theorem getElem?_put_of_ne {i : Nat} {k : String} {w : α} (h : entries[i]? = some (k, w))
    (hk : k ≠ key) (v : α) : (put entries key v)[i]? = some (k, w) := by
  induction entries generalizing i with
  | nil => simp at h
  | cons e rest ih =>
    obtain ⟨k', w'⟩ := e
    cases i with
    | zero =>
      simp only [List.getElem?_cons_zero, Option.some.injEq, Prod.mk.injEq] at h
      simp [put, h, hk]
    | succ i =>
      rw [List.getElem?_cons_succ] at h
      by_cases hkey : k' = key <;> simp [put, hkey, h, ih]

theorem keys_prefix_put (entries : Entries α) (key : String) (v : α) :
    keys entries <+: keys (put entries key v) := by
  rw [keys_put]
  split
  · exact List.prefix_rfl
  · exact List.prefix_append ..

theorem mem_put (h : (keys entries).Nodup) {e : String × α} (hmem : e ∈ put entries key v) :
    e = (key, v) ∨ e ∈ entries ∧ e.1 ≠ key := by
  obtain ⟨k, w⟩ := e
  have hget := get?_of_mem (keys_nodup_put key v h) hmem
  rw [get?_put] at hget
  split at hget
  · rename_i hk
    cases hget
    exact .inl (by rw [hk])
  · rename_i hk
    exact .inr ⟨get?_mem hget, Ne.symm hk⟩

/-- New keys come behind the old ones, in the order in which they are put first. -/
theorem keys_putAll (h : (keys entries).Nodup) :
    keys (putAll entries more) = (keys entries ++ keys more).eraseDups := by
  induction more generalizing entries with
  | nil => rw [show keys ([] : Entries α) = [] from rfl, List.append_nil, Text.eraseDups_of_nodup h]; rfl
  | cons e more ih =>
    obtain ⟨key, v⟩ := e
    show keys (putAll (put entries key v) more) = (keys entries ++ key :: keys more).eraseDups
    rw [ih (keys_nodup_put key v h), keys_put]
    split
    · rename_i hmem
      have hdrop : (key :: keys more).removeAll (keys entries) =
          (keys more).removeAll (keys entries) := by
        simp [List.removeAll, hmem]
      rw [List.eraseDups_append, List.eraseDups_append, hdrop]
    · rw [List.append_assoc, List.singleton_append]

theorem get?_putAll (h : (keys more).Nodup) (key : String) :
    get? (putAll entries more) key = (get? more key).or (get? entries key) := by
  induction more generalizing entries with
  | nil => rfl
  | cons e more ih =>
    obtain ⟨k, v⟩ := e
    have hnodup : k ∉ keys more ∧ (keys more).Nodup := List.nodup_cons.1 h
    show get? (putAll (put entries k v) more) key = _
    rw [ih hnodup.2, get?_put]
    by_cases hk : k = key
    · simp [get?, ← hk, get?_eq_none_iff.2 hnodup.1]
    · simp [get?, hk]

theorem get?_append (entries more : Entries α) (key : String) :
    get? (entries ++ more) key = (get? entries key).or (get? more key) := by
  induction entries with
  | nil => rfl
  | cons e rest ih => by_cases hk : e.1 = key <;> simp [get?, hk, ih]

/-- Of the values that are put under one key, the last one stays. -/
theorem get?_putAll_reverse (entries more : Entries α) (key : String) :
    get? (putAll entries more) key = (get? more.reverse key).or (get? entries key) := by
  induction more generalizing entries with
  | nil => rfl
  | cons e more ih =>
    show get? (putAll (put entries e.1 e.2) more) key = _
    rw [ih, List.reverse_cons, get?_append, Option.or_assoc, get?_put]
    by_cases hk : e.1 = key <;> simp [get?, hk]

theorem putAll_append (entries first second : Entries α) :
    putAll entries (first ++ second) = putAll (putAll entries first) second :=
  List.foldl_append

end BundleLedger.Entries
