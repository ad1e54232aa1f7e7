import BundleLedger.LoaderConfig.Render

/-!
# Editing lines

The text of the configuration file comes about by edits at the beginnings of lines. A key rule looks
for a quote right after one unit of indentation (`IsKeyRule`), so whether it finds one depends on the
indentation of the line.

Results:

* `editLines_eq_edit`: enough fuel is as good as any.
* `edit_line`: nothing is edited in a line that the rule does not match.
* `quote_of_indentation`: a key rule matches behind one unit of indentation, or where there is none.
-/
namespace BundleLedger.LoaderConfig

open Json.Value

/-! ## Editing lines -/

/-- A rule that finds something is left with less text. -/
def Shrinks (rule : List Char → Option (List Char × List Char)) : Prop :=
  ∀ s written rest, rule s = some (written, rest) → rest.length < s.length

/-- `editLines` with as much fuel as the text needs. -/
def edit (rule : List Char → Option (List Char × List Char)) (atStart : Bool) (s : List Char) :
    List Char :=
  editLines rule s.length atStart s

section

variable {rule : List Char → Option (List Char × List Char)}

theorem editLines_eq_edit (hr : Shrinks rule) {fuel : Nat} {s : List Char} (h : s.length ≤ fuel)
    (atStart : Bool) : editLines rule fuel atStart s = edit rule atStart s := by
  induction fuel using Nat.strongRecOn generalizing s atStart with
  | ind fuel ih =>
    cases s with
    | nil => simp [edit, editLines]
    | cons c s =>
      obtain ⟨fuel, rfl⟩ : ∃ n, fuel = n + 1 := ⟨fuel - 1, by simp at h; omega⟩
      simp only [List.length_cons] at h
      simp only [edit, List.length_cons, editLines]
      split
      · rename_i written rest hrule
        have hlt : rest.length < s.length + 1 := by
          split at hrule
          · simpa using hr _ _ _ hrule
          · cases hrule
        rw [ih fuel (by omega) (by omega), ih s.length (by omega) (by omega)]
      · rw [ih fuel (by omega) (by omega)]
        rfl

@[simp] theorem edit_nil (atStart : Bool) : edit rule atStart [] = [] := by simp [edit, editLines]

theorem edit_cons (c : Char) (s : List Char) :
    edit rule false (c :: s) = c :: edit rule (c == '\n') s := rfl

theorem edit_of_none {c : Char} {s : List Char} (h : rule (c :: s) = none) :
    edit rule true (c :: s) = c :: edit rule (c == '\n') s := by
  simp [edit, editLines, h]

theorem edit_of_some (hr : Shrinks rule) {s written rest : List Char}
    (h : rule s = some (written, rest)) : edit rule true s = written ++ edit rule false rest := by
  have hlt := hr _ _ _ h
  cases s with
  | nil => simp at hlt
  | cons c s =>
    simp only [List.length_cons] at hlt
    simp only [edit, List.length_cons, editLines, if_true, h]
    rw [editLines_eq_edit hr (by omega)]
    rfl

theorem edit_append {line : List Char} (h : '\n' ∉ line) (s : List Char) :
    edit rule false (line ++ s) = line ++ edit rule false s := by
  induction line with
  | nil => rfl
  | cons c line ih =>
    simp only [List.mem_cons, not_or] at h
    have hc : (c == '\n') = false := by simpa using Ne.symm h.1
    rw [List.cons_append, edit_cons, hc, ih h.2, List.cons_append]

/-- Where the rule does not match, the beginning of a line is like any other place. -/
theorem edit_true_of_none {s : List Char} (h : rule s = none) : edit rule true s = edit rule false s := by
  cases s with
  | nil => simp
  | cons c s => rw [edit_of_none h, edit_cons]

/-- Nothing is edited in a line that the rule does not match. -/
theorem edit_line {line s : List Char} (hline : '\n' ∉ line) (hrule : rule (line ++ s) = none) :
    edit rule true (line ++ s) = line ++ edit rule false s := by
  rw [edit_true_of_none hrule, edit_append hline]

end

/-! ## Keys after one unit of indentation -/

/-- Spaces and tabs, or nothing. -/
def IsBlank (tab : List Char) : Prop := ∀ c ∈ tab, c = ' ' ∨ c = '\t'

theorem isBlank_iff {tab : List Char} :
    IsBlank tab ↔ (tab.all fun c => c == ' ' || c == '\t') = true := by
  simp only [IsBlank, List.all_eq_true, Bool.or_eq_true, beq_iff_eq]

instance (tab : List Char) : Decidable (IsBlank tab) := decidable_of_iff _ isBlank_iff.symm

/-- A unit of indentation: some spaces and tabs. -/
structure IsTab (tab : List Char) : Prop where
  ne_nil : tab ≠ []
  blank : ∀ c ∈ tab, c = ' ' ∨ c = '\t'

theorem isTab_iff {tab : List Char} :
    IsTab tab ↔ (!tab.isEmpty && tab.all fun c => c == ' ' || c == '\t') = true := by
  simp only [Bool.and_eq_true, Bool.not_eq_true', List.isEmpty_eq_false_iff, List.all_eq_true,
    Bool.or_eq_true, beq_iff_eq]
  exact ⟨fun h => ⟨h.ne_nil, h.blank⟩, fun h => ⟨h.1, h.2⟩⟩

instance (tab : List Char) : Decidable (IsTab tab) := decidable_of_iff _ isTab_iff.symm

/-- A rule that only matches where a quote follows one unit of indentation. -/
structure IsKeyRule (tab : List Char) (rule : List Char → Option (List Char × List Char)) : Prop where
  shrinks : Shrinks rule
  quoted : ∀ s found, rule s = some found → ∃ t, s = tab ++ '"' :: t

def indentation (tab : List Char) (level : Nat) : List Char := (List.replicate level tab).flatten

section

variable {tab : List Char}

theorem IsBlank.indentation (h : IsBlank tab) (level : Nat) : IsBlank (indentation tab level) := by
  intro c hc
  obtain ⟨l, hl, hc⟩ := List.mem_flatten.1 hc
  rw [List.eq_of_mem_replicate hl] at hc
  exact h c hc

theorem IsBlank.newline_not_mem (h : IsBlank tab) : '\n' ∉ tab := fun hm => by
  rcases h _ hm with hc | hc <;> cases hc

@[simp] theorem indentation_zero (tab : List Char) : indentation tab 0 = [] := rfl

theorem indentation_succ (tab : List Char) (level : Nat) :
    indentation tab (level + 1) = tab ++ indentation tab level := by
  simp [indentation, List.replicate_succ]

theorem newLine_eq (tab : List Char) (level : Nat) :
    newLine tab level = '\n' :: indentation tab level := rfl

/-- Where one unit of indentation and a quote follow, on a line that begins with something else than
a blank: that is the quote, and either the unit is all of the indentation or there is none. -/
theorem quote_of_indentation (hb : IsBlank tab) {level : Nat} {c : Char} {s t : List Char}
    (hc : c ≠ ' ' ∧ c ≠ '\t') (h : indentation tab level ++ c :: s = tab ++ '"' :: t) :
    c = '"' ∧ (level = 1 ∨ tab = []) := by
  cases tab with
  | nil =>
    have hnil : indentation [] level = [] := by simp [indentation]
    rw [hnil] at h
    cases h
    exact ⟨rfl, .inr rfl⟩
  | cons b tab =>
    have hblank := hb b List.mem_cons_self
    match level with
    | 0 =>
      rw [indentation_zero, List.nil_append, List.cons_append, List.cons.injEq] at h
      rw [h.1] at hc
      rcases hblank with rfl | rfl
      · exact absurd rfl hc.1
      · exact absurd rfl hc.2
    | 1 =>
      rw [indentation_succ, indentation_zero, List.append_nil, List.append_cancel_left_eq,
        List.cons.injEq] at h
      exact ⟨h.1, .inl rfl⟩
    | level + 2 =>
      rw [indentation_succ, indentation_succ, List.append_assoc, List.append_cancel_left_eq,
        List.append_assoc, List.cons_append, List.cons.injEq] at h
      rcases hblank with rfl | rfl <;> cases h.1

variable {rule : List Char → Option (List Char × List Char)}

theorem IsKeyRule.eq_none (h : IsKeyRule tab rule) {c : Char} {s : List Char} (hc : c ≠ '"') :
    rule (tab ++ c :: s) = none := by
  cases hr : rule (tab ++ c :: s) with
  | none => rfl
  | some found =>
    obtain ⟨t, ht⟩ := h.quoted _ _ hr
    rw [List.append_cancel_left_eq, List.cons.injEq] at ht
    exact absurd ht.1 hc

theorem IsKeyRule.eq_none_of_head (h : IsKeyRule tab rule) (hb : IsBlank tab) {c : Char}
    {s : List Char} (hc : c ≠ ' ' ∧ c ≠ '\t') (hq : c ≠ '"') : rule (c :: s) = none := by
  cases hr : rule (c :: s) with
  | none => rfl
  | some found =>
    obtain ⟨t, ht⟩ := h.quoted _ _ hr
    rw [← List.nil_append (c :: s), ← indentation_zero tab] at ht
    exact absurd (quote_of_indentation hb hc ht).1 hq

end

end BundleLedger.LoaderConfig
