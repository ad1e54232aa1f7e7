import BundleLedger.LoaderConfig.Location
import Mathlib.Data.List.Infix
import Mathlib.Data.List.Induction

/-!
# The alias that counts

`paths` declares aliases, each with a target. What an alias stands for and what becomes of its target
are said here as relations on texts (`Matches`, `Filled`, `PathOf`), and which alias counts by where it
is declared: those before it that match are shorter, those after it are not longer (`Chosen`). The
choice is made by going once over the aliases and keeping the better of two matches; what is kept so
far is always the choice among those that were seen.

Results:

* `matchAlias?_eq_some_iff`: an alias matches a location as the relations say.
* `BestSoFar.next` and `bestSoFar_foldl`: what is kept is the first of the longest matches so far.
* `bestMatch?_eq_some_iff`: the match of a location is that of the alias that counts.
* `resolve?_longest`: when a location has a path, which one it is, and that the order in which aliases
  are declared only matters where two of them are as long as each other.
-/
namespace BundleLedger

/-! ## Cutting at a character -/

namespace Text

variable {c : Char} {s : List Char}

theorem cut?_append {before : List Char} (h : c ∉ before) (after : List Char) :
    cut? c (before ++ c :: after) = some (before, after) := by
  induction before with
  | nil => simp [cut?]
  | cons d before ih =>
    rw [List.mem_cons, not_or] at h
    rw [List.cons_append, cut?, if_neg (Ne.symm h.1), ih h.2]
    rfl

theorem cut?_eq_none_iff : cut? c s = none ↔ c ∉ s := by
  induction s with
  | nil => simp [cut?]
  | cons d s ih =>
    by_cases hd : d = c
    · simp [cut?, hd]
    · simp [cut?, hd, Ne.symm hd, ih]

end Text

namespace LoaderConfig

open Json

/-! ## What an alias stands for -/

/-- `Matches name location captured`: the alias stands for the location, and `captured` is what its
first `*` captures, if it has one. -/
inductive Matches : List Char → List Char → Option (List Char) → Prop where
  | exact (name : List Char) (h : '*' ∉ name) : Matches name name none
  | wildcard (before captured after : List Char) (h : '*' ∉ before) :
      Matches (before ++ '*' :: after) (before ++ captured ++ after) (some captured)

/-- `Filled target captured filled`: what is captured stands for the first `*` of the target. -/
inductive Filled : List Char → Option (List Char) → List Char → Prop where
  | exact (target : List Char) : Filled target none target
  | starless (target captured : List Char) (h : '*' ∉ target) : Filled target (some captured) target
  | wildcard (before after captured : List Char) (h : '*' ∉ before) :
      Filled (before ++ '*' :: after) (some captured) (before ++ captured ++ after)

/-- `PathOf target path`: the path that a target is, be it written as a file URL or not. -/
inductive PathOf : List Char → List Char → Prop where
  | root (rest : List Char) : PathOf ("file:///".toList ++ rest) ('/' :: rest)
  | host (rest : List Char) (h : rest.head? ≠ some '/') : PathOf ("file://".toList ++ rest) rest
  | path (target : List Char) (h : ¬ "file://".toList <+: target) : PathOf target target

def fill (target : List Char) : Option (List Char) → List Char
  | none => target
  | some captured => fillStar target captured

theorem captured?_eq_some_iff {before after location captured : List Char} :
    captured? before after location = some captured ↔ location = before ++ captured ++ after := by
  constructor
  · intro h
    unfold captured? at h
    split at h
    · rename_i rest hrest
      obtain ⟨reversed, hreversed, rfl⟩ := Option.map_eq_some_iff.1 h
      have hbefore : before ++ rest = location := List.isPrefixOf?_eq_some_iff_append_eq.1 hrest
      have hafter : after.reverse ++ reversed = rest.reverse :=
        List.isPrefixOf?_eq_some_iff_append_eq.1 hreversed
      rw [← hbefore, List.append_assoc, ← List.reverse_reverse rest, ← hafter, List.reverse_append,
        List.reverse_reverse]
    · cases h
  · rintro rfl
    exact captured?_append before captured after

theorem fillStar_append {before : List Char} (h : '*' ∉ before) (after captured : List Char) :
    fillStar (before ++ '*' :: after) captured = before ++ captured ++ after := by
  rw [fillStar, Text.cut?_append h]

theorem fillStar_of_not_mem {target : List Char} (h : '*' ∉ target) (captured : List Char) :
    fillStar target captured = target := by
  rw [fillStar, Text.cut?_eq_none_iff.2 h]

theorem filled_iff {target filled : List Char} {captured : Option (List Char)} :
    Filled target captured filled ↔ fill target captured = filled := by
  constructor
  · intro h
    cases h with
    | exact => rfl
    | starless _ captured h => exact fillStar_of_not_mem h captured
    | wildcard before after captured h => exact fillStar_append h after captured
  · rintro rfl
    cases captured with
    | none => exact .exact target
    | some captured =>
      cases hcut : Text.cut? '*' target with
      | none =>
        have hnot := Text.cut?_eq_none_iff.1 hcut
        rw [fill, fillStar_of_not_mem hnot]
        exact .starless target captured hnot
      | some sides =>
        obtain ⟨rfl, hnot⟩ := Text.cut?_eq_some hcut
        rw [fill, fillStar_append hnot]
        exact .wildcard sides.1 sides.2 captured hnot

theorem withoutFileScheme_append (rest : List Char) :
    withoutFileScheme ("file://".toList ++ rest) = rest := by
  cases hroot : "file:///".toList.isPrefixOf? ("file://".toList ++ rest) with
  | none => rw [withoutFileScheme, hroot, ModuleName.isPrefixOf?_append, Option.getD_some]
  | some below =>
    have hrest : "file:///".toList ++ below = "file://".toList ++ rest :=
      List.isPrefixOf?_eq_some_iff_append_eq.1 hroot
    have hscheme : "file:///".toList = "file://".toList ++ ['/'] := rfl
    rw [hscheme, List.append_assoc] at hrest
    rw [withoutFileScheme, hroot]
    exact List.append_cancel_left hrest

theorem withoutFileScheme_of_path {target : List Char} (h : ¬ "file://".toList <+: target) :
    withoutFileScheme target = target := by
  have hnone : ∀ scheme : List Char, "file://".toList <+: scheme →
      scheme.isPrefixOf? target = none := by
    intro scheme hscheme
    rw [Option.eq_none_iff_forall_ne_some]
    intro rest hrest
    exact h (hscheme.trans ⟨rest, List.isPrefixOf?_eq_some_iff_append_eq.1 hrest⟩)
  have hroot : "file://".toList <+: "file:///".toList := ⟨['/'], rfl⟩
  rw [withoutFileScheme, hnone _ hroot, hnone _ List.prefix_rfl, Option.getD_none]

theorem pathOf_iff {target path : List Char} : PathOf target path ↔ withoutFileScheme target = path := by
  constructor
  · intro h
    cases h with
    | root rest => exact withoutFileScheme_append ('/' :: rest)
    | host => exact withoutFileScheme_append path
    | path _ h => exact withoutFileScheme_of_path h
  · rintro rfl
    by_cases h : "file://".toList <+: target
    · obtain ⟨rest, rfl⟩ := h
      rw [withoutFileScheme_append]
      by_cases hhead : rest.head? = some '/'
      · obtain ⟨below, rfl⟩ := List.head?_eq_some_iff.1 hhead
        exact .root below
      · exact .host rest hhead
    · rw [withoutFileScheme_of_path h]
      exact .path target h

theorem matchAlias?_eq_some_iff {name target location filled : List Char} :
    matchAlias? name target location = some filled ↔
      ∃ captured, Matches name location captured ∧ fill target captured = filled := by
  constructor
  · intro h
    unfold matchAlias? at h
    split at h
    · rename_i before after hcut
      obtain ⟨captured, hcaptured, rfl⟩ := Option.map_eq_some_iff.1 h
      obtain ⟨rfl, hnot⟩ := Text.cut?_eq_some hcut
      rw [captured?_eq_some_iff.1 hcaptured]
      exact ⟨some captured, .wildcard before captured after hnot, rfl⟩
    · rename_i hcut
      split at h
      · rename_i hname
        rw [← hname]
        exact ⟨none, .exact name (Text.cut?_eq_none_iff.1 hcut), Option.some.inj h⟩
      · cases h
  · rintro ⟨captured, hmatches, rfl⟩
    cases hmatches with
    | exact _ h => rw [matchAlias?, Text.cut?_eq_none_iff.2 h]; exact if_pos rfl
    | wildcard before captured after h =>
      rw [matchAlias?, Text.cut?_append h]
      simp only [captured?_append, Option.map_some, fill]

/-! ## The better of two matches -/

section

variable {α : Type} {f : α → Option (Nat × List Char)}

/-- The match `best` is the first of the longest that `f` finds in `seen`. -/
def FirstLongest (f : α → Option (Nat × List Char)) (seen : List α) (best : Nat × List Char) : Prop :=
  ∃ before x after, seen = before ++ x :: after ∧ f x = some best ∧
    (∀ y ∈ before, ∀ m, f y = some m → m.1 < best.1) ∧ ∀ y ∈ after, ∀ m, f y = some m → m.1 ≤ best.1

theorem FirstLongest.unique {seen : List α} {best best' : Nat × List Char}
    (h : FirstLongest f seen best) (h' : FirstLongest f seen best') : best = best' := by
  obtain ⟨before, x, after, rfl, hx, hbefore, hafter⟩ := h
  obtain ⟨before', x', after', heq, hx', hbefore', hafter'⟩ := h'
  rcases List.append_eq_append_iff.1 heq with ⟨between, rfl, hrest⟩ | ⟨between, rfl, hrest⟩ <;>
    cases between with
    | nil =>
      obtain ⟨rfl, -⟩ := List.cons.inj hrest
      exact Option.some.inj (hx.symm.trans hx')
    | cons y between => ?_
  case inl.cons =>
    obtain ⟨rfl, rfl⟩ := List.cons.inj hrest
    have hlt := hbefore' x (by simp) best hx
    have hle := hafter x' (by simp) best' hx'
    exact absurd hlt (Nat.not_lt.2 hle)
  case inr.cons =>
    obtain ⟨rfl, rfl⟩ := List.cons.inj hrest
    have hlt := hbefore x' (by simp) best' hx'
    have hle := hafter' x (by simp) best hx
    exact absurd hlt (Nat.not_lt.2 hle)

/-- What the search has seen, and what it keeps of it. -/
inductive BestSoFar (f : α → Option (Nat × List Char)) (seen : List α) :
    Option (Nat × List Char) → Prop where
  | nothing (h : ∀ x ∈ seen, f x = none) : BestSoFar f seen none
  | best (m : Nat × List Char) (h : FirstLongest f seen m) : BestSoFar f seen (some m)

theorem FirstLongest.keep {seen : List α} {best : Nat × List Char} (h : FirstLongest f seen best)
    {x : α} (hx : ∀ m, f x = some m → m.1 ≤ best.1) : FirstLongest f (seen ++ [x]) best := by
  obtain ⟨before, y, after, rfl, hy, hbefore, hafter⟩ := h
  refine ⟨before, y, after ++ [x], by simp, hy, hbefore, fun z hz => ?_⟩
  rcases List.mem_append.1 hz with hz | hz
  · exact hafter z hz
  · rwa [List.mem_singleton.1 hz]

theorem FirstLongest.le {seen : List α} {best : Nat × List Char} (h : FirstLongest f seen best)
    {x : α} (hx : x ∈ seen) {m : Nat × List Char} (hm : f x = some m) : m.1 ≤ best.1 := by
  obtain ⟨before, y, after, rfl, hy, hbefore, hafter⟩ := h
  rcases List.mem_append.1 hx with hx | hx
  · exact Nat.le_of_lt (hbefore x hx m hm)
  · rcases List.mem_cons.1 hx with rfl | hx
    · rw [Option.some.inj (hm.symm.trans hy)]
    · exact hafter x hx m hm

/-- One more alias is seen. -/
theorem BestSoFar.next {seen : List α} {kept : Option (Nat × List Char)} (h : BestSoFar f seen kept)
    (x : α) : BestSoFar f (seen ++ [x]) (better kept (f x)) := by
  cases h with
  | nothing h =>
    cases hx : f x with
    | none =>
      refine .nothing fun y hy => ?_
      rcases List.mem_append.1 hy with hy | hy
      · exact h y hy
      · rwa [List.mem_singleton.1 hy]
    | some m =>
      refine .best m ⟨seen, x, [], rfl, hx, fun y hy m' hm' => ?_, nofun⟩
      rw [h y hy] at hm'
      cases hm'
  | best b h =>
    cases hx : f x with
    | none => exact .best b (h.keep (by simp [hx]))
    | some m =>
      by_cases hlt : b.1 < m.1
      · rw [better, if_pos hlt]
        exact .best m ⟨seen, x, [], rfl, hx, fun y hy m' hm' => (h.le hy hm').trans_lt hlt, nofun⟩
      · rw [better, if_neg hlt]
        refine .best b (h.keep fun m' hm' => ?_)
        rw [← Option.some.inj (hx.symm.trans hm')]
        exact Nat.le_of_not_lt hlt

theorem bestSoFar_foldl (f : α → Option (Nat × List Char)) (seen : List α) :
    BestSoFar f seen (seen.foldl (fun best x => better best (f x)) none) := by
  induction seen using List.reverseRecOn with
  | nil => exact .nothing nofun
  | append_singleton seen x ih =>
    rw [List.foldl_append]
    exact ih.next x

theorem bestSoFar_eq_some_iff {seen : List α} {kept : Option (Nat × List Char)} (h : BestSoFar f seen kept)
    {m : Nat × List Char} : kept = some m ↔ FirstLongest f seen m := by
  cases h with
  | nothing h =>
    refine ⟨nofun, ?_⟩
    rintro ⟨before, x, after, rfl, hx, -, -⟩
    rw [h x (by simp)] at hx
    cases hx
  | best b h =>
    constructor
    · intro he
      rwa [← Option.some.inj he]
    · exact fun hm => congrArg some (h.unique hm)

theorem bestSoFar_eq_none_iff {seen : List α} {kept : Option (Nat × List Char)} (h : BestSoFar f seen kept) :
    kept = none ↔ ∀ x ∈ seen, f x = none := by
  cases h with
  | nothing h => exact ⟨fun _ => h, fun _ => rfl⟩
  | best b h =>
    obtain ⟨before, x, after, rfl, hx, -, -⟩ := h
    refine ⟨nofun, fun hnone => ?_⟩
    rw [hnone x (by simp)] at hx
    cases hx

end

/-! ## Declared aliases -/

def paths (c : LoaderConfig) : Members := (c.section? "paths").getD []

/-- A declared alias that has a target and matches the location. -/
def IsCandidate (location : String) (m : String × Value) : Prop :=
  ∃ target captured, m.2 = .string target ∧ Matches m.1.toList location.toList captured

/-- `Chosen paths location name target captured`: of the aliases that are declared, this one counts for
the location, with what it captures. It is longer than those before it that match, and as long as
those after it, or longer. -/
def Chosen (paths : Members) (location name target : String) (captured : Option (List Char)) : Prop :=
  ∃ before after, paths = before ++ (name, .string target) :: after ∧
    Matches name.toList location.toList captured ∧
    (∀ m ∈ before, IsCandidate location m → m.1.utf8ByteSize < name.utf8ByteSize) ∧
    ∀ m ∈ after, IsCandidate location m → m.1.utf8ByteSize ≤ name.utf8ByteSize

/-- The match of a declared alias, with the length of the alias. -/
def candidate? (location : String) (m : String × Value) : Option (Nat × List Char) :=
  m.2.string?.bind fun target =>
    (matchAlias? m.1.toList target.toList location.toList).map (m.1.utf8ByteSize, ·)

variable {c : LoaderConfig} {location : String}

theorem candidate?_eq_some_iff {m : String × Value} {best : Nat × List Char} :
    candidate? location m = some best ↔ ∃ target captured, m.2 = .string target ∧
      Matches m.1.toList location.toList captured ∧
      (m.1.utf8ByteSize, fill target.toList captured) = best := by
  simp only [candidate?, Option.bind_eq_some_iff, Value.string?_eq_some_iff, Option.map_eq_some_iff,
    matchAlias?_eq_some_iff]
  constructor
  · rintro ⟨target, hm, _, ⟨captured, hmatches, rfl⟩, rfl⟩
    exact ⟨target, captured, hm, hmatches, rfl⟩
  · rintro ⟨target, captured, hm, hmatches, rfl⟩
    exact ⟨target, hm, _, ⟨captured, hmatches, rfl⟩, rfl⟩

theorem isCandidate_iff {m : String × Value} :
    IsCandidate location m ↔ ∃ best, candidate? location m = some best := by
  simp only [candidate?_eq_some_iff]
  constructor
  · rintro ⟨target, captured, hm, hmatches⟩
    exact ⟨_, target, captured, hm, hmatches, rfl⟩
  · rintro ⟨_, target, captured, hm, hmatches, -⟩
    exact ⟨target, captured, hm, hmatches⟩

theorem candidate?_length {m : String × Value} {best : Nat × List Char}
    (h : candidate? location m = some best) : best.1 = m.1.utf8ByteSize := by
  obtain ⟨target, captured, -, -, rfl⟩ := candidate?_eq_some_iff.1 h
  rfl

/-- The search for the longest alias goes over all that is declared. -/
theorem bestMatch?_eq (c : LoaderConfig) (location : String) : c.bestMatch? location.toList =
    c.paths.foldl (fun best m => better best (candidate? location m)) none := by
  rw [bestMatch?, aliases, List.foldl_filterMap, paths]
  congr 1
  funext best ⟨name, v⟩
  unfold candidate?
  dsimp only
  cases v.string? with
  | none => cases best <;> rfl
  | some target => rfl

theorem firstLongest_iff {paths : Members} {best : Nat × List Char} :
    FirstLongest (candidate? location) paths best ↔ ∃ name target captured,
      Chosen paths location name target captured ∧
        (name.utf8ByteSize, fill target.toList captured) = best := by
  -- a condition on all matches of an alias is one on its length
  have hlengths : ∀ (ms : Members) (holds : Nat → Prop),
      (∀ m ∈ ms, ∀ b, candidate? location m = some b → holds b.1) ↔
        ∀ m ∈ ms, IsCandidate location m → holds m.1.utf8ByteSize := by
    intro ms holds
    refine forall₂_congr fun m hm => ?_
    rw [isCandidate_iff]
    constructor
    · rintro h ⟨b, hb⟩
      rw [← candidate?_length hb]
      exact h b hb
    · intro h b hb
      rw [candidate?_length hb]
      exact h ⟨b, hb⟩
  constructor
  · rintro ⟨before, ⟨name, v⟩, after, rfl, hm, hbefore, hafter⟩
    obtain ⟨target, captured, rfl, hmatches, rfl⟩ := candidate?_eq_some_iff.1 hm
    exact ⟨name, target, captured, ⟨before, after, rfl, hmatches,
      (hlengths before (· < name.utf8ByteSize)).1 hbefore,
      (hlengths after (· ≤ name.utf8ByteSize)).1 hafter⟩, rfl⟩
  · rintro ⟨name, target, captured, ⟨before, after, rfl, hmatches, hbefore, hafter⟩, rfl⟩
    exact ⟨before, _, after, rfl, candidate?_eq_some_iff.2 ⟨target, captured, rfl, hmatches, rfl⟩,
      (hlengths before (· < name.utf8ByteSize)).2 hbefore,
      (hlengths after (· ≤ name.utf8ByteSize)).2 hafter⟩

theorem bestMatch?_eq_some_iff {best : Nat × List Char} :
    c.bestMatch? location.toList = some best ↔ ∃ name target captured,
      Chosen c.paths location name target captured ∧
        (name.utf8ByteSize, fill target.toList captured) = best := by
  rw [bestMatch?_eq, bestSoFar_eq_some_iff (bestSoFar_foldl _ _), firstLongest_iff]

theorem resolve?_eq_some_iff {baseUrl path : String} :
    c.resolve? location baseUrl = some path ↔ ∃ name target captured,
      Chosen c.paths location name target captured ∧ path.toList =
        FilePath.join baseUrl.toList (withoutFileScheme (fill target.toList captured)) := by
  simp only [resolve?, Option.map_eq_some_iff, bestMatch?_eq_some_iff]
  constructor
  · rintro ⟨_, ⟨name, target, captured, hchosen, rfl⟩, rfl⟩
    exact ⟨name, target, captured, hchosen, String.toList_ofList⟩
  · rintro ⟨name, target, captured, hchosen, hpath⟩
    refine ⟨_, ⟨name, target, captured, hchosen, rfl⟩, ?_⟩
    rw [← hpath, String.ofList_toList]

theorem resolve?_isSome_iff {baseUrl : String} :
    (∃ path, c.resolve? location baseUrl = some path) ↔ ∃ m ∈ c.paths, IsCandidate location m := by
  have hnone : c.bestMatch? location.toList = none ↔ ∀ m ∈ c.paths, ¬ IsCandidate location m := by
    rw [bestMatch?_eq, bestSoFar_eq_none_iff (bestSoFar_foldl _ _)]
    simp only [isCandidate_iff, not_exists, Option.eq_none_iff_forall_ne_some]
  rw [← Option.isSome_iff_exists, resolve?, Option.isSome_map, ← Option.ne_none_iff_isSome, Ne, hnone]
  simp only [not_forall, not_not, exists_prop]

instance (location : String) (m : String × Value) : Decidable (IsCandidate location m) :=
  decidable_of_iff ((candidate? location m).isSome = true) (by
    rw [isCandidate_iff, Option.isSome_iff_exists])

/-- No two of the declared aliases that match a location are as long as each other. -/
def DistinctLengths (location : String) (ms : Members) : Prop :=
  ms.Pairwise fun m m' => IsCandidate location m → IsCandidate location m' →
    m.1.utf8ByteSize ≠ m'.1.utf8ByteSize

instance (location : String) (ms : Members) : Decidable (DistinctLengths location ms) :=
  inferInstanceAs (Decidable (List.Pairwise _ ms))

theorem DistinctLengths.perm {ms ms' : Members} (h : DistinctLengths location ms)
    (hperm : ms.Perm ms') : DistinctLengths location ms' :=
  (hperm.pairwise_iff fun hlengths hm hm' => (hlengths hm' hm).symm).1 h

theorem Chosen.perm {ms ms' : Members} {name target : String} {captured : Option (List Char)}
    (h : Chosen ms location name target captured) (hperm : ms.Perm ms')
    (hlengths : DistinctLengths location ms) : Chosen ms' location name target captured := by
  obtain ⟨before, after, rfl, hmatches, hbefore, hafter⟩ := h
  have hchosen : IsCandidate location (name, .string target) := ⟨target, captured, rfl, hmatches⟩
  obtain ⟨before', after', rfl⟩ :=
    List.append_of_mem (hperm.mem_iff.1 List.mem_append_cons_self)
  have hfirst := hperm.trans List.perm_middle
  have hothers : ∀ m ∈ before' ++ after', IsCandidate location m →
      m.1.utf8ByteSize < name.utf8ByteSize := by
    intro m hm hcandidate
    have hne : name.utf8ByteSize ≠ m.1.utf8ByteSize :=
      (List.pairwise_cons.1 (hlengths.perm hfirst)).1 m hm hchosen hcandidate
    have hle : m.1.utf8ByteSize ≤ name.utf8ByteSize := by
      rcases List.mem_append.1 (hfirst.mem_iff.2 (List.mem_cons_of_mem _ hm)) with hm | hm
      · exact (hbefore m hm hcandidate).le
      · rcases List.mem_cons.1 hm with rfl | hm
        · exact le_rfl
        · exact hafter m hm hcandidate
    exact lt_of_le_of_ne hle hne.symm
  exact ⟨before', after', rfl, hmatches,
    fun m hm => hothers m (List.mem_append_left _ hm),
    fun m hm hcandidate => (hothers m (List.mem_append_right _ hm) hcandidate).le⟩

theorem resolve?_perm {c' : LoaderConfig} {baseUrl path : String} (hperm : c.paths.Perm c'.paths)
    (hlengths : DistinctLengths location c.paths) (h : c.resolve? location baseUrl = some path) :
    c'.resolve? location baseUrl = some path := by
  obtain ⟨name, target, captured, hchosen, hpath⟩ := resolve?_eq_some_iff.1 h
  exact resolve?_eq_some_iff.2 ⟨name, target, captured, hchosen.perm hperm hlengths, hpath⟩

/-- A location has a path exactly if some alias with a target matches it. The path comes from the
longest of these, the one declared first if there are several: its target, filled with what the alias
captures and without the scheme of a file URL, seen from the base. The order of the aliases makes no
difference unless two that match are as long as each other. -/
theorem resolve?_longest (c : LoaderConfig) (location baseUrl : String) :
    ((∃ path, c.resolve? location baseUrl = some path) ↔ ∃ m ∈ c.paths, IsCandidate location m) ∧
      (∀ path, c.resolve? location baseUrl = some path ↔ ∃ name target captured filled plain,
        Chosen c.paths location name target captured ∧ Filled target.toList captured filled ∧
          PathOf filled plain ∧ path.toList = FilePath.join baseUrl.toList plain) ∧
      ∀ c' : LoaderConfig, c.paths.Perm c'.paths → DistinctLengths location c.paths →
        c'.resolve? location baseUrl = c.resolve? location baseUrl := by
  refine ⟨resolve?_isSome_iff, fun path => ?_, fun c' hperm hlengths => ?_⟩
  · simp only [resolve?_eq_some_iff, filled_iff, pathOf_iff]
    constructor
    · rintro ⟨name, target, captured, hchosen, hpath⟩
      exact ⟨name, target, captured, _, _, hchosen, rfl, rfl, hpath⟩
    · rintro ⟨name, target, captured, _, _, hchosen, rfl, rfl, hpath⟩
      exact ⟨name, target, captured, hchosen, hpath⟩
  · refine Option.ext fun path => ⟨?_, resolve?_perm hperm hlengths⟩
    exact resolve?_perm hperm.symm (hlengths.perm hperm)

/-- Aliases of which the longest has no target and the first would take every location. -/
def registryAliases : Members :=
  [("*", .string "src/*"), ("npm:*", .string "file:///srv/*/main.*"), ("npm:lib*", .bool true),
    ("npm:lib", .string "lib")]

theorem resolve?_longest_reversed :
    DistinctLengths "npm:lib@1" registryAliases ∧
      registryAliases.Perm registryAliases.reverse ∧
      LoaderConfig.resolve? ⟨[("paths", .object registryAliases)]⟩ "npm:lib@1" "/p" =
        some "/srv/lib@1/main.*" ∧
      LoaderConfig.resolve? ⟨[("paths", .object registryAliases.reverse)]⟩ "npm:lib@1" "/p" =
        some "/srv/lib@1/main.*" := by
  have hlengths : DistinctLengths "npm:lib@1" registryAliases := by decide +kernel
  have hperm : registryAliases.Perm registryAliases.reverse := (List.reverse_perm _).symm
  have hpath : LoaderConfig.resolve? ⟨[("paths", .object registryAliases)]⟩ "npm:lib@1" "/p" =
      some "/srv/lib@1/main.*" := by decide +kernel
  refine ⟨hlengths, hperm, hpath, ?_⟩
  rw [← hpath]
  exact (resolve?_longest ⟨[("paths", .object registryAliases)]⟩ "npm:lib@1" "/p").2.2
    ⟨[("paths", .object registryAliases.reverse)]⟩ hperm hlengths

end LoaderConfig

end BundleLedger
