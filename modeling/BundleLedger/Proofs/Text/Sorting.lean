/-!
# Sorted texts

Texts that are sorted and of which none occurs twice stand for a set: two such lists with the same
members are equal.

Results:

* `nodup_eraseDups`: nothing stands twice in a list without its repetitions.
* `eraseDups_of_nodup`: where nothing stands twice, nothing is left out.
* `eraseDups_append_eraseDups`: repetitions may be left out twice.
* `pairwise_lt_mergeSort`: texts of which none occurs twice are strictly increasing once sorted.
* `eq_of_pairwise_lt`: strictly increasing lists with the same members are equal.
-/
namespace BundleLedger.Text

theorem nodup_eraseDups (texts : List String) : texts.eraseDups.Nodup := by
  induction h : texts.length using Nat.strongRecOn generalizing texts with
  | ind n ih =>
    cases texts with
    | nil => simp
    | cons text texts =>
      rw [List.eraseDups_cons, List.nodup_cons]
      have hshorter : (texts.filter fun t => !t == text).length < n := by
        rw [← h, List.length_cons]
        exact Nat.lt_succ_of_le (List.length_filter_le _ _)
      exact ⟨by simp [List.mem_eraseDups], ih _ hshorter _ rfl⟩

theorem eraseDups_of_nodup {texts : List String} (h : texts.Nodup) : texts.eraseDups = texts := by
  induction texts with
  | nil => rfl
  | cons text texts ih =>
    rw [List.nodup_cons] at h
    have hothers : texts.filter (fun t => !t == text) = texts := by
      refine List.filter_eq_self.2 fun t ht => ?_
      have hne : t ≠ text := fun heq => h.1 (heq ▸ ht)
      simpa using hne
    rw [List.eraseDups_cons, hothers, ih h.2]

theorem eraseDups_append_eraseDups (texts more : List String) :
    (texts.eraseDups ++ more).eraseDups = (texts ++ more).eraseDups := by
  have hmore : more.removeAll texts.eraseDups = more.removeAll texts := by
    simp [List.removeAll, List.mem_eraseDups]
  rw [List.eraseDups_append, List.eraseDups_append, eraseDups_of_nodup (nodup_eraseDups texts), hmore]

theorem pairwise_mergeSort_le (texts : List String) :
    (texts.mergeSort fun a b => decide (a ≤ b)).Pairwise (· ≤ ·) := by
  have hle : (texts.mergeSort fun a b => decide (a ≤ b)).Pairwise fun a b => decide (a ≤ b) = true :=
    List.pairwise_mergeSort (fun a b c => by simpa using String.le_trans)
      (fun a b => by simpa using String.le_total a b) texts
  simpa using hle

theorem pairwise_lt_mergeSort {texts : List String} (h : texts.Nodup) :
    (texts.mergeSort fun a b => decide (a ≤ b)).Pairwise (· < ·) := by
  have hnodup : (texts.mergeSort fun a b => decide (a ≤ b)).Nodup :=
    (List.mergeSort_perm _ _).nodup_iff.2 h
  refine (pairwise_mergeSort_le texts).imp₂ ?_ hnodup
  intro a b hle hne
  rw [← String.not_le]
  exact fun hge => hne (String.le_antisymm hle hge)

theorem eq_of_pairwise_lt {texts texts' : List String} (h : texts.Pairwise (· < ·))
    (h' : texts'.Pairwise (· < ·)) (hmem : ∀ t, t ∈ texts ↔ t ∈ texts') : texts = texts' := by
  have hnodup : ∀ {l : List String}, l.Pairwise (· < ·) → l.Nodup := by
    intro l hl
    refine hl.imp ?_
    rintro a _ hlt rfl
    exact String.lt_irrefl a hlt
  have hperm : texts.Perm texts' := (List.perm_ext_iff_of_nodup (hnodup h) (hnodup h')).2 hmem
  refine hperm.eq_of_pairwise (fun a b _ _ hab hba => ?_) h h'
  exact absurd (String.lt_trans hab hba) (String.lt_irrefl a)

end BundleLedger.Text
