/-!
# Cutting text

Texts are cut on their characters. Every function here works on `List Char`, where prefixes,
suffixes and separators are facts about lists.

Results:

* `split_ne_nil`: cutting at a separator leaves at least one piece.
* `join_split`: joining the pieces with the separator gives the text back.
* `cut?_eq_some`: a text cut at a character is its two sides with that character between them.
-/
namespace BundleLedger.Text

/-- The pieces of `s` between the occurrences of `sep`; always at least one. -/
def split (sep : Char) : List Char → List (List Char)
  | [] => [[]]
  | c :: s =>
    if c = sep then [] :: split sep s
    else match split sep s with
      | [] => [[c]]
      | piece :: rest => (c :: piece) :: rest

/-- The pieces with `sep` between them. -/
def join (sep : List Char) : List (List Char) → List Char
  | [] => []
  | [piece] => piece
  | piece :: rest => piece ++ sep ++ join sep rest

/-- The two sides of the first `c`, if there is one. -/
def cut? (c : Char) : List Char → Option (List Char × List Char)
  | [] => none
  | d :: s => if d = c then some ([], s) else (cut? c s).map fun (a, b) => (d :: a, b)

/-- How many characters stand before the first occurrence of `needle`. -/
def indexOf? (needle : List Char) : List Char → Option Nat
  | [] => if needle.isEmpty then some 0 else none
  | c :: s =>
    if needle.isPrefixOf (c :: s) then some 0 else (indexOf? needle s).map (· + 1)

/-- Without the trailing characters that satisfy `p`. -/
def dropTrailing (p : Char → Bool) (s : List Char) : List Char :=
  (s.reverse.dropWhile p).reverse

/-- Whether `c` has the property White_Space. -/
def isBlank (c : Char) : Bool :=
  let n := c.toNat
  (0x9 ≤ n && n ≤ 0xd) || n == 0x20 || n == 0x85 || n == 0xa0 || n == 0x1680 ||
  (0x2000 ≤ n && n ≤ 0x200a) || n == 0x2028 || n == 0x2029 || n == 0x202f || n == 0x205f ||
  n == 0x3000

/-- Without blanks at either end. -/
def trim (s : List Char) : List Char :=
  (((s.dropWhile isBlank).reverse).dropWhile isBlank).reverse

def replaceChar (a b : Char) (s : List Char) : List Char :=
  s.map fun c => if c = a then b else c

/-- The pieces of `s` between the occurrences of the non-empty text `sep`. -/
def splitAtText (sep : List Char) (s : List Char) : List (List Char) :=
  go s.length [] s
where
  /-- `piece` is the current piece, backwards. -/
  go : Nat → List Char → List Char → List (List Char)
    | 0, piece, s => [piece.reverse ++ s]
    | _ + 1, piece, [] => [piece.reverse]
    | n + 1, piece, c :: s =>
      match sep.isPrefixOf? (c :: s) with
      | some rest => piece.reverse :: go n [] rest
      | none => go n (c :: piece) s

theorem split_ne_nil (sep : Char) (s : List Char) : split sep s ≠ [] := by
  cases s with
  | nil => simp [split]
  | cons c s =>
    unfold split
    split
    · simp
    · split <;> simp

theorem join_cons_of_ne_nil (sep piece : List Char) {rest : List (List Char)} (h : rest ≠ []) :
    join sep (piece :: rest) = piece ++ sep ++ join sep rest := by
  cases rest with
  | nil => exact absurd rfl h
  | cons p r => rfl

theorem join_split (sep : Char) (s : List Char) : join [sep] (split sep s) = s := by
  induction s with
  | nil => rfl
  | cons c s ih =>
    have hne := split_ne_nil sep s
    by_cases h : c = sep
    · simp [split, h, join_cons_of_ne_nil _ _ hne, ih]
    · cases hs : split sep s with
      | nil => exact absurd hs hne
      | cons piece rest =>
        rw [hs] at ih
        cases rest with
        | nil => simp [split, h, hs, join] at ih ⊢; exact ih
        | cons p r => simp [split, h, hs, join] at ih ⊢; exact ih

theorem cut?_eq_some {c : Char} {s a b : List Char} (h : cut? c s = some (a, b)) :
    s = a ++ c :: b ∧ c ∉ a := by
  induction s generalizing a b with
  | nil => simp [cut?] at h
  | cons d s ih =>
    by_cases hd : d = c
    · simp [cut?, hd] at h
      obtain ⟨rfl, rfl⟩ := h
      simp [hd]
    · simp only [cut?, hd, if_false, Option.map_eq_some_iff] at h
      obtain ⟨⟨x, y⟩, hxy, he⟩ := h
      simp only [Prod.mk.injEq] at he
      obtain ⟨rfl, rfl⟩ := he
      have := ih hxy
      exact ⟨by simp [this.1], by simp [this.2, Ne.symm hd]⟩

theorem replaceChar_of_not_mem {a b : Char} {s : List Char} (h : a ∉ s) : replaceChar a b s = s := by
  refine (List.map_congr_left fun c hc => ?_).trans (List.map_id s)
  have hne : c ≠ a := fun heq => h (heq ▸ hc)
  exact if_neg hne

theorem not_mem_replaceChar {a b : Char} (h : b ≠ a) (s : List Char) : a ∉ replaceChar a b s := by
  rw [replaceChar, List.mem_map]
  rintro ⟨c, -, hc⟩
  split at hc
  · exact h hc
  · exact absurd hc ‹_›

end BundleLedger.Text
