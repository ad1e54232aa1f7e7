import BundleLedger.Discovery.Search
import BundleLedger.Proofs.FilePath.Leading

/-!
# Patterns of plain text

A text without `?`, `*` and `[` has no special meaning as a pattern. So the pattern of the entry files
below a directory with such a name is never malformed: its steps are the pieces of the name as they
stand, the step for any number of directories, and the name of an entry file.

Results:

* `parse?_plain`: plain text stands for itself.
* `literal?_map_char` and `isMatch_map_char`: it matches nothing else.
* `steps?_pattern`: the steps of a plain directory.
-/
namespace BundleLedger

namespace Text

theorem getLast?_split {s : List Char} :
    (split '/' s).getLast? = some [] ↔ s = [] ∨ s.getLast? = some '/' := by
  induction s with
  | nil => simp [split]
  | cons c s ih =>
    obtain ⟨piece, rest, hsplit⟩ := List.exists_cons_of_ne_nil (split_ne_nil '/' s)
    by_cases hc : c = '/'
    · rw [split, if_pos hc, List.getLast?_cons_of_ne_nil (split_ne_nil '/' s), ih]
      cases s with
      | nil => simp [hc]
      | cons d s => simp
    · rw [split, if_neg hc, hsplit]
      have hs : s = join ['/'] (piece :: rest) := by rw [← hsplit, join_split]
      cases rest with
      | nil =>
        rw [hsplit] at ih
        cases s with
        | nil => simp [hc]
        | cons d s =>
          have hpiece : piece ≠ [] := by
            rintro rfl
            cases hs
          simpa [hpiece] using ih
      | cons next rest =>
        have hne : s ≠ [] := by
          rintro rfl
          cases hsplit
        rw [hsplit] at ih
        rw [List.getLast?_cons_of_ne_nil (List.cons_ne_nil _ _)] at ih ⊢
        rw [ih, List.getLast?_cons_of_ne_nil hne]
        simp [hne]

end Text

namespace Discovery

/-- The characters with a meaning of their own. -/
def specials : List Char := ['?', '*', '[']

/-- Without characters that have a meaning of their own. -/
def IsPlainText (s : List Char) : Prop := ∀ c ∈ s, c ∉ specials

instance (s : List Char) : Decidable (IsPlainText s) := List.decidableBAll (· ∉ specials) s

theorem mapM_eq_map {α β : Type} {f : α → Option β} {g : α → β} {l : List α}
    (h : ∀ a ∈ l, f a = some (g a)) : l.mapM f = some (l.map g) := by
  induction l with
  | nil => rfl
  | cons a l ih =>
    rw [List.forall_mem_cons] at h
    simp [List.mapM_cons, h.1, ih h.2]

namespace Pattern

/-! ## Reading a pattern -/

/-- Whether a step starts behind a text that continues one. -/
def startsAfter (atStart : Bool) (s : List Char) : Bool := s.foldl (fun _ c => c == '/') atStart

/-- Plain text stands for itself, whatever follows. -/
theorem parseFrom_append {s : List Char} (h : IsPlainText s) (atStart : Bool) (fuel : Nat)
    (rest : List Char) : parseFrom atStart (s.length + fuel) (s ++ rest) =
      (parseFrom (startsAfter atStart s) fuel rest).map (s.map .char ++ ·) := by
  induction s generalizing atStart with
  | nil => simp [startsAfter]
  | cons c s ih =>
    have hplain : c ∉ specials := h c List.mem_cons_self
    simp only [specials, List.mem_cons, List.not_mem_nil, or_false, not_or] at hplain
    obtain ⟨hany, hsequence, hbracket⟩ := hplain
    have hfuel : (c :: s).length + fuel = s.length + fuel + 1 := by
      simp only [List.length_cons]
      omega
    rw [hfuel, List.cons_append, parseFrom, if_neg hany, if_neg hsequence, if_neg hbracket,
      ih (fun d hd => h d (List.mem_cons_of_mem _ hd)), Option.map_map]
    rfl

theorem parse?_plain {s : List Char} (h : IsPlainText s) : parse? s = some (s.map .char) := by
  have hread := parseFrom_append h true 0 []
  simpa [parse?, parseFrom] using hread

theorem literal?_map_char (s : List Char) : literal? (s.map .char) = some s := by
  rw [literal?, List.mapM_map]
  exact (mapM_eq_map fun c _ => rfl).trans (congrArg some (List.map_id s))

theorem isRecursive_map_char (s : List Char) : isRecursive (s.map .char) = false := by
  simp [isRecursive]

theorem isMatch_map_char {s name : List Char} : isMatch (s.map .char) name = true ↔ name = s := by
  induction s generalizing name with
  | nil => simp [isMatch]
  | cons c s ih =>
    cases name with
    | nil => simp [isMatch]
    | cons d name =>
      simp only [List.map_cons, isMatch, Bool.and_eq_true, beq_iff_eq, ih, List.cons.injEq]
      exact and_congr_left fun _ => eq_comm

end Pattern

/-! ## The steps to a directory -/

def deepStep : Pattern := [.directories]

def entryStep : Pattern := ModuleName.entryFile.toList.map .char

/-- The pieces of a path without an empty one at the end. -/
def closedPieces (base : List Char) : List (List Char) :=
  if base = [] ∨ base.getLast? = some '/' then (Text.split '/' base).dropLast else Text.split '/' base

/-- The pieces that a search for entry files goes through one by one: the root is not among them. -/
def leadPieces (base : List Char) : List (List Char) :=
  if FilePath.isAbsolute base then (closedPieces base).tail else closedPieces base

theorem split_eq_closedPieces (base : List Char) : Text.split '/' base = closedPieces base ∨
    Text.split '/' base = closedPieces base ++ [[]] := by
  rw [closedPieces]
  split
  · rename_i hempty
    right
    rw [← Text.getLast?_split] at hempty
    obtain ⟨pieces, hpieces⟩ := List.getLast?_eq_some_iff.1 hempty
    rw [hpieces, List.dropLast_concat]
  · exact .inl rfl

theorem mem_split_of_mem_leadPieces {base piece : List Char} (h : piece ∈ leadPieces base) :
    piece ∈ Text.split '/' base := by
  have hclosed : piece ∈ closedPieces base := by
    unfold leadPieces at h
    split at h
    · exact List.mem_of_mem_tail h
    · exact h
  rcases split_eq_closedPieces base with heq | heq <;> rw [heq]
  · exact hclosed
  · exact List.mem_append_left _ hclosed

theorem isPlainText_of_mem_split {s piece : List Char} (h : IsPlainText s)
    (hpiece : piece ∈ Text.split '/' s) : IsPlainText piece :=
  fun c hc => h c (FilePath.mem_of_mem_split hpiece hc)

/-- A pattern is the directory, closed by a separator, and two steps. -/
theorem pattern_eq (base : List Char) : ∃ lead,
    pattern base = lead ++ (anyDirectories ++ '/' :: ModuleName.entryFile.toList) ∧
      (base = [] ∧ lead = [] ∨ base ≠ [] ∧ ∃ init, lead = init ++ ['/'] ∧
        Text.split '/' init = closedPieces base ∧ FilePath.isAbsolute lead = FilePath.isAbsolute base ∧
        (IsPlainText base → IsPlainText lead)) := by
  have hdeep : FilePath.isAbsolute anyDirectories = false := by decide
  have hentry : FilePath.isAbsolute ModuleName.entryFile.toList = false := by decide
  have hjoin : ∀ lead : List Char, FilePath.join (lead ++ anyDirectories) ModuleName.entryFile.toList =
      lead ++ (anyDirectories ++ '/' :: ModuleName.entryFile.toList) := by
    intro lead
    simp [FilePath.join, hentry, anyDirectories]
  rw [pattern]
  by_cases hnil : base = []
  · refine ⟨[], ?_, .inl ⟨hnil, rfl⟩⟩
    simp [FilePath.join, hentry, hnil, anyDirectories]
  by_cases hslash : base.getLast? = some '/'
  · obtain ⟨init, rfl⟩ := List.getLast?_eq_some_iff.1 hslash
    refine ⟨init ++ ['/'], ?_, .inr ⟨hnil, init, rfl, ?_, rfl, id⟩⟩
    · have hinner : FilePath.join (init ++ ['/']) anyDirectories = init ++ ['/'] ++ anyDirectories := by
        rw [FilePath.join, hdeep]
        simp
      rw [hinner, hjoin]
    · rw [closedPieces, if_pos (.inr hslash), Text.split_append]
      simp [Text.split]
  · refine ⟨base ++ ['/'], ?_, .inr ⟨hnil, base, rfl, ?_, ?_, ?_⟩⟩
    · have hinner : FilePath.join base anyDirectories = base ++ ['/'] ++ anyDirectories := by
        rw [FilePath.join, hdeep]
        simp [hnil, hslash]
      rw [hinner, hjoin]
    · rw [closedPieces, if_neg (by simp [hnil, hslash])]
    · cases base with
      | nil => exact absurd rfl hnil
      | cons c base => rfl
    · intro h c hc
      rw [List.mem_append, List.mem_singleton] at hc
      rcases hc with hc | rfl
      · exact h c hc
      · decide

theorem isAbsolute_pattern (base : List Char) :
    FilePath.isAbsolute (pattern base) = FilePath.isAbsolute base := by
  obtain ⟨lead, hpattern, ⟨rfl, rfl⟩ | ⟨-, init, rfl, -, habsolute, -⟩⟩ := pattern_eq base
  · rw [hpattern]
    decide
  · rw [hpattern, ← habsolute]
    cases init <;> rfl

/-- The pieces that a pattern is cut into. -/
theorem split_pattern (base : List Char) : Text.split '/' (if FilePath.isAbsolute (pattern base) then
      (pattern base).tail else pattern base) =
      leadPieces base ++ [anyDirectories, ModuleName.entryFile.toList] := by
  have htail : ∀ s : List Char, FilePath.isAbsolute s = true →
      Text.split '/' s.tail = (Text.split '/' s).tail := by
    intro s hs
    cases s with
    | nil => cases hs
    | cons c s =>
      have hc : c = '/' := by simpa [FilePath.isAbsolute] using hs
      rw [Text.split, if_pos hc]
      rfl
  have hentry : Text.split '/' (anyDirectories ++ '/' :: ModuleName.entryFile.toList) =
      [anyDirectories, ModuleName.entryFile.toList] := by decide
  have habsolute := isAbsolute_pattern base
  obtain ⟨lead, hpattern, ⟨rfl, rfl⟩ | ⟨-, init, rfl, hinit, -, -⟩⟩ := pattern_eq base
  · rw [hpattern]
    decide
  · have hsplit : Text.split '/' (pattern base) =
        closedPieces base ++ [anyDirectories, ModuleName.entryFile.toList] := by
      rw [hpattern, List.append_assoc, List.singleton_append, Text.split_append, hinit, hentry]
    have hne : closedPieces base ≠ [] := hinit ▸ Text.split_ne_nil '/' init
    rw [leadPieces, habsolute]
    split
    · rw [htail _ (by rwa [habsolute]), hsplit, List.tail_append_of_ne_nil hne]
    · exact hsplit

/-- A directory without special characters makes a pattern that is well formed, and each piece of it a
step that stands for itself. -/
theorem steps?_pattern {base : List Char} (h : IsPlainText base) : steps? (pattern base) =
    some ((leadPieces base).map (·.map Token.char) ++ [deepStep, entryStep]) := by
  have hentry : Pattern.parseFrom true (anyDirectories ++ '/' :: ModuleName.entryFile.toList).length
      (anyDirectories ++ '/' :: ModuleName.entryFile.toList) =
        some (deepStep ++ entryStep) := by decide
  have hwhole : ∃ tokens, Pattern.parse? (pattern base) = some tokens := by
    obtain ⟨lead, hpattern, hlead⟩ := pattern_eq base
    have hplain : IsPlainText lead ∧ Pattern.startsAfter true lead = true := by
      rcases hlead with ⟨-, rfl⟩ | ⟨-, init, rfl, -, -, hplain⟩
      · exact ⟨nofun, rfl⟩
      · exact ⟨hplain h, by simp [Pattern.startsAfter]⟩
    rw [hpattern, Pattern.parse?, List.length_append, Pattern.parseFrom_append hplain.1, hplain.2, hentry]
    exact ⟨_, rfl⟩
  obtain ⟨tokens, htokens⟩ := hwhole
  have hpieces : (leadPieces base).mapM Pattern.parse? =
      some ((leadPieces base).map (·.map Token.char)) :=
    mapM_eq_map fun piece hpiece =>
      Pattern.parse?_plain (isPlainText_of_mem_split h (mem_split_of_mem_leadPieces hpiece))
  have hlast : [anyDirectories, ModuleName.entryFile.toList].mapM Pattern.parse? =
      some [deepStep, entryStep] := by decide
  rw [steps?, htokens]
  simp only [split_pattern, Option.bind_eq_bind, Option.bind_some, List.mapM_append, hpieces, hlast]
  rfl

end Discovery

end BundleLedger
