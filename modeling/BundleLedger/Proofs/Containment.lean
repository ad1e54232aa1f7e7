import BundleLedger.Proofs.NearestComponent

/-!
# What lies within a directory

Whether a name lies within a directory is asked of the two texts: one has to begin with the other,
and the next character has to be a separator. That is a question about segments. A name that has
another one and a separator before it has the segments of the other before its own, and segments can
be put together again, so it is the other way round as well (`split_isPrefix_iff`). As a relation on
names it is therefore the prefix order on segments, but for the two names of the project, which hold
everything.

Results:

* `isWithin_iff_segments`: containment by segments.
* `isProject_of_isWithin`: only the project holds the project.
* `isWithin_order`: containment for all names, and the order that it is.
-/
namespace BundleLedger

namespace Text

theorem join_append (sep : List Char) {pieces more : List (List Char)} (h : pieces ≠ [])
    (hmore : more ≠ []) : join sep (pieces ++ more) = join sep pieces ++ sep ++ join sep more := by
  induction pieces with
  | nil => exact absurd rfl h
  | cons piece pieces ih =>
    rw [List.cons_append, join_cons_of_ne_nil _ _ (List.append_ne_nil_of_right_ne_nil _ hmore)]
    cases pieces with
    | nil => rfl
    | cons p rest =>
      rw [ih (List.cons_ne_nil _ _), join_cons_of_ne_nil _ _ (List.cons_ne_nil _ _)]
      simp only [List.append_assoc]

theorem split_injective (sep : Char) : Function.Injective (split sep) := by
  intro a b h
  rw [← join_split sep a, h, join_split]

/-- A text has the pieces of another before its own when it is the other, or has a separator right
behind it. -/
theorem split_isPrefix_iff {sep : Char} {a b : List Char} :
    split sep a <+: split sep b ↔ b = a ∨ ∃ rest, b = a ++ sep :: rest := by
  constructor
  · rintro ⟨more, h⟩
    have hb : b = join [sep] (split sep a ++ more) := by rw [h, join_split]
    cases more with
    | nil =>
      left
      rw [hb, List.append_nil, join_split]
    | cons piece more =>
      right
      refine ⟨join [sep] (piece :: more), ?_⟩
      rw [hb, join_append _ (split_ne_nil sep a) (List.cons_ne_nil _ _), join_split,
        List.append_assoc, List.singleton_append]
  · rintro (rfl | ⟨rest, rfl⟩)
    · exact List.prefix_rfl
    · rw [split_append]
      exact List.prefix_append _ _

end Text

namespace ModuleName

open Ownership

/-- What stands between the separators of a name. -/
def segments (name : String) : List (List Char) := Text.split '/' name.toList

theorem segments_injective : Function.Injective segments :=
  (Text.split_injective '/').comp fun _ _ => String.toList_inj.1

theorem isWithin_of_isProject {child root : String} (h : isProject root.toList = true) :
    isWithin child root = true := by
  rw [isWithin, isWithinChars, h, Bool.true_or]

theorem isWithin_iff_segments {child root : String} (h : isProject root.toList = false) :
    isWithin child root = true ↔ segments root <+: segments child := by
  rw [isWithin, isWithinChars_iff h, segments, segments, Text.split_isPrefix_iff]
  rfl

theorem isProject_iff {root : String} : isProject root.toList = true ↔ root = "" ∨ root = "." := by
  rw [isProject, Bool.or_eq_true, beq_iff_eq, beq_iff_eq, ← String.toList_inj, ← String.toList_inj]
  rfl

/-- Only the project holds the project. -/
theorem isProject_of_isWithin {child root : String} (h : isWithin child root = true)
    (hchild : isProject child.toList = true) : isProject root.toList = true := by
  by_contra hroot
  rw [Bool.not_eq_true] at hroot
  rcases (isWithinChars_iff hroot).1 h with heq | ⟨rest, heq⟩
  · rw [heq, hroot] at hchild
    cases hchild
  -- a name of the project has no separator, so there is no directory above it
  · have hmem : '/' ∈ child.toList := by simp [heq]
    rcases isProject_iff.1 hchild with rfl | rfl
    · exact absurd hmem (by decide)
    · exact absurd hmem (by decide)

theorem isProject_eq_false_of_isWithin {child root : String} (h : isWithin child root = true)
    (hroot : isProject root.toList = false) : isProject child.toList = false := by
  rw [← Bool.not_eq_true] at hroot ⊢
  exact fun hchild => hroot (isProject_of_isWithin h hchild)

theorem isWithin_trans {a b c : String} (hab : isWithin a b = true) (hbc : isWithin b c = true) :
    isWithin a c = true := by
  cases hc : isProject c.toList with
  | true => exact isWithin_of_isProject hc
  | false =>
    have hb := isProject_eq_false_of_isWithin hbc hc
    rw [isWithin_iff_segments hc] at hbc ⊢
    exact hbc.trans ((isWithin_iff_segments hb).1 hab)

/-- Names that hold each other are one name, or both are names of the project. -/
theorem isWithin_both_iff {a b : String} : isWithin a b = true ∧ isWithin b a = true ↔
    a = b ∨ isProject a.toList = true ∧ isProject b.toList = true := by
  constructor
  · rintro ⟨hab, hba⟩
    cases ha : isProject a.toList with
    | true => exact .inr ⟨rfl, isProject_of_isWithin hab ha⟩
    | false =>
      left
      have hb := isProject_eq_false_of_isWithin hba ha
      have hle := (isWithin_iff_segments hb).1 hab
      have hge := (isWithin_iff_segments ha).1 hba
      exact segments_injective (hge.eq_of_length_le hle.length_le)
  · rintro (rfl | ⟨ha, hb⟩)
    · exact ⟨isWithin_self a, isWithin_self a⟩
    · exact ⟨isWithin_of_isProject hb, isWithin_of_isProject ha⟩

/-- Containment for all names. Within a root that is no name of the project lie the names whose
segments begin with those of the root, and within the project lies everything. So containment is
reflexive and transitive, and two names hold each other only if they are one, or both are names of
the project. -/
theorem isWithin_order :
    (∀ child root : String, root ≠ "" → root ≠ "." →
      (isWithin child root = true ↔ segments root <+: segments child)) ∧
    (∀ child : String, isWithin child "" = true ∧ isWithin child "." = true) ∧
    (∀ name : String, isWithin name name = true) ∧
    (∀ a b c : String, isWithin a b = true → isWithin b c = true → isWithin a c = true) ∧
    ∀ a b : String, isWithin a b = true ∧ isWithin b a = true ↔
      a = b ∨ (a = "" ∨ a = ".") ∧ (b = "" ∨ b = ".") := by
  refine ⟨?_, ?_, isWithin_self, fun a b c => isWithin_trans, ?_⟩
  · intro child root hempty hhere
    refine isWithin_iff_segments ?_
    rw [← Bool.not_eq_true, isProject_iff, not_or]
    exact ⟨hempty, hhere⟩
  · intro child
    exact ⟨isWithin_of_isProject rfl, isWithin_project child⟩
  · intro a b
    rw [isWithin_both_iff, isProject_iff, isProject_iff]

/-- Names with empty segments: `é/b//c` lies within `é/b/`, and so within `é/b`. -/
theorem isWithin_order_doubled :
    "é/b/" ≠ "" ∧ "é/b/" ≠ "." ∧ segments "é/b/" <+: segments "é/b//c" ∧
      isWithin "é/b//c" "é/b/" = true ∧ isWithin "é/b/" "é/b" = true ∧
      isWithin "é/b//c" "é/b" = true := by
  have hempty : "é/b/" ≠ "" := by decide
  have hhere : "é/b/" ≠ "." := by decide
  have hsegments : segments "é/b/" <+: segments "é/b//c" := by decide
  have hdoubled : isWithin "é/b//c" "é/b/" = true :=
    (isWithin_order.1 _ _ hempty hhere).2 hsegments
  have htrailing : isWithin "é/b/" "é/b" = true := by decide
  exact ⟨hempty, hhere, hsegments, hdoubled, htrailing,
    isWithin_order.2.2.2.1 _ _ _ hdoubled htrailing⟩

end ModuleName

end BundleLedger
