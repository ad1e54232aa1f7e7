import BundleLedger.Proofs.NearestComponent
import BundleLedger.Text.Utf8

/-!
# Climbing from a module to the components above it

Whether a module belongs to a nested component, or to a foreign one, is found out by climbing from
directory to directory and looking for an entry file. Within the root the climb begins at the
directory of the module and goes on as long as it stands at a directory longer than the root;
elsewhere it begins at the module itself and goes on as long as there is a separator left. Either
climb is over where it finds an entry file.

Both are a climb with conditions of its own (`Climb`), and what settles a climb are the directories
that it would look into if it found nothing (`Climb.Due`): it ends at the first of them with an entry
file, or after the last. They are the ones above the module, and of these, within the root, the ones
that are longer than it. Lengths are counted in bytes there. The root and the directories all begin
the name of the module, so that characters say the same (`byteLength_lt_iff`).

Results:

* `ancestors_of_mem`: above a name are the directory that it lies in, and those above that.
* `Climb.ends_iff`: where a climb ends.
* `inside_due` and `outside_due`: what the two climbs would look into.
* `looksInside_iff` and `looksOutside_iff`: what they look into, and what they find.
* `climbs_settle`: both climbs end, and what they find is what the filters of a component ask for.
-/
namespace BundleLedger

namespace Text

theorem byteLength_pos_iff {s : List Char} : 0 < byteLength s ↔ 0 < s.length := by
  cases s with
  | nil => simp [byteLength]
  | cons c s =>
    have hsize := c.utf8Size_pos
    simp only [byteLength, List.foldr_cons, List.length_cons]
    omega

/-- Of two beginnings of one text, the longer one in bytes is the longer one in characters. -/
theorem byteLength_lt_iff {a b s : List Char} (ha : a <+: s) (hb : b <+: s) :
    byteLength a < byteLength b ↔ a.length < b.length := by
  rcases List.prefix_or_prefix_of_prefix ha hb with ⟨t, rfl⟩ | ⟨t, rfl⟩
  · have hpos := byteLength_pos_iff (s := t)
    rw [byteLength_append, List.length_append]
    omega
  · rw [byteLength_append, List.length_append]
    omega

end Text

namespace Ownership

open ModuleName Text

variable {isComponent : List Char → Bool}

/-! ## One directory after the other -/

theorem ancestors_of_not_mem {name : List Char} (h : '/' ∉ name) : ancestors name = [] := by
  rw [List.eq_nil_iff_forall_not_mem]
  intro dir hdir
  obtain ⟨rest, rfl⟩ := mem_ancestors.1 hdir
  simp at h

theorem ancestors_append {file : List Char} (h : '/' ∉ file) (dir : List Char) :
    ancestors (dir ++ '/' :: file) = dir :: ancestors dir := by
  induction dir with
  | nil => simp [ancestors, ancestors_of_not_mem h]
  | cons c dir ih => rw [List.cons_append, ancestors, ih, List.map_cons, List.cons_append, ancestors]

/-- The directories above a name: the one that it lies in, and those above that. -/
theorem ancestors_of_mem {name : List Char} (h : '/' ∈ name) :
    ancestors name = above name :: ancestors (above name) := by
  obtain ⟨dir, file, rfl, hfile⟩ := (path_cases name).resolve_left (not_not_intro h)
  rw [above_append hfile, ancestors_append hfile]

example : ancestors "/é//x".toList = ["/é/".toList, "/é".toList, []] := by decide

/-- A name that lies in no directory has the empty name above it, which a condition may leave out. -/
theorem filter_ancestors_above {p : List Char → Bool} (hp : p [] = false) (name : List Char) :
    (above name :: ancestors (above name)).filter p = (ancestors name).filter p := by
  by_cases h : '/' ∈ name
  · rw [ancestors_of_mem h]
  · rw [above_of_not_mem h, ancestors_of_not_mem h]
    simp [ancestors, hp]

/-! ## Climbs -/

/-- A climb by what it does where it stands. It always goes on at the directory above. -/
structure Climb where
  /-- Whether there is something left to look into. -/
  goesOn : List Char → Bool
  /-- The directory that is looked into. -/
  looksInto : List Char → List Char

/-- Whether a directory is found to have an entry file; the empty name is no directory. -/
def hasEntry (isComponent : List Char → Bool) (dir : List Char) : Bool := dir != [] && isComponent dir

namespace Climb

variable {c : Climb} {dir : List Char} {seen : List (List Char)} {found : Bool}

/-- How a climb from a directory ends: the directories that it looked into on the way, and whether
the last of them had an entry file. -/
inductive Ends (c : Climb) (isComponent : List Char → Bool) :
    List Char → List (List Char) → Bool → Prop where
  | out {dir : List Char} (hout : c.goesOn dir = false) : Ends c isComponent dir [] false
  | hit {dir : List Char} (hon : c.goesOn dir = true)
      (hentry : hasEntry isComponent (c.looksInto dir) = true) :
      Ends c isComponent dir [c.looksInto dir] true
  | up {dir : List Char} {seen : List (List Char)} {found : Bool} (hon : c.goesOn dir = true)
      (hentry : hasEntry isComponent (c.looksInto dir) = false)
      (hrest : Ends c isComponent (above dir) seen found) :
      Ends c isComponent dir (c.looksInto dir :: seen) found

theorem ends_of_out (hout : c.goesOn dir = false) :
    c.Ends isComponent dir seen found ↔ seen = [] ∧ found = false := by
  constructor
  · intro h
    cases h with
    | out => exact ⟨rfl, rfl⟩
    | hit hon => rw [hon] at hout; cases hout
    | up hon => rw [hon] at hout; cases hout
  · rintro ⟨rfl, rfl⟩
    exact .out hout

theorem ends_of_hit (hon : c.goesOn dir = true)
    (hentry : hasEntry isComponent (c.looksInto dir) = true) :
    c.Ends isComponent dir seen found ↔ seen = [c.looksInto dir] ∧ found = true := by
  constructor
  · intro h
    cases h with
    | out hout => rw [hon] at hout; cases hout
    | hit => exact ⟨rfl, rfl⟩
    | up _ hnone => rw [hentry] at hnone; cases hnone
  · rintro ⟨rfl, rfl⟩
    exact .hit hon hentry

theorem ends_of_up (hon : c.goesOn dir = true)
    (hentry : hasEntry isComponent (c.looksInto dir) = false) :
    c.Ends isComponent dir seen found ↔
      ∃ rest, seen = c.looksInto dir :: rest ∧ c.Ends isComponent (above dir) rest found := by
  constructor
  · intro h
    cases h with
    | out hout => rw [hon] at hout; cases hout
    | hit _ hsome => rw [hentry] at hsome; cases hsome
    | up _ _ hrest => exact ⟨_, rfl, hrest⟩
  · rintro ⟨rest, rfl, hrest⟩
    exact .up hon hentry hrest

/-- What a climb from each directory would look into if it found nothing. -/
structure Due (c : Climb) (due : List Char → List (List Char)) : Prop where
  out : ∀ dir, c.goesOn dir = false → due dir = []
  on : ∀ dir, c.goesOn dir = true → due dir = c.looksInto dir :: due (above dir)

def upToEntry (isComponent : List Char → Bool) (dirs : List (List Char)) : List (List Char) :=
  dirs.take (dirs.findIdx (hasEntry isComponent) + 1)

/-- A climb ends, at the first directory with an entry file or after the last that is due. -/
theorem ends_iff {due : List Char → List (List Char)} (hdue : c.Due due) :
    c.Ends isComponent dir seen found ↔
      seen = upToEntry isComponent (due dir) ∧ found = (due dir).any (hasEntry isComponent) := by
  -- what is due gets shorter with every turn, which is why there is a last one
  induction hl : due dir generalizing dir seen found with
  | nil =>
    have hout : c.goesOn dir = false := by
      rw [← Bool.not_eq_true]
      intro hon
      rw [hdue.on dir hon] at hl
      cases hl
    exact ends_of_out hout
  | cons d rest ih =>
    have hon : c.goesOn dir = true := by
      rw [← Bool.not_eq_false]
      intro hout
      rw [hdue.out dir hout] at hl
      cases hl
    rw [hdue.on dir hon, List.cons.injEq] at hl
    obtain ⟨rfl, hrest⟩ := hl
    cases hentry : hasEntry isComponent (c.looksInto dir) with
    | true =>
      rw [ends_of_hit hon hentry]
      simp [upToEntry, List.findIdx_cons, hentry]
    | false =>
      have hseen : upToEntry isComponent (c.looksInto dir :: rest) =
          c.looksInto dir :: upToEntry isComponent rest := by
        simp [upToEntry, List.findIdx_cons, hentry]
      rw [ends_of_up hon hentry, hseen, List.any_cons, hentry, Bool.false_or]
      constructor
      · rintro ⟨seen', rfl, hup⟩
        obtain ⟨rfl, rfl⟩ := (ih hrest).1 hup
        exact ⟨rfl, rfl⟩
      · rintro ⟨rfl, rfl⟩
        exact ⟨_, rfl, (ih hrest).2 ⟨rfl, rfl⟩⟩

end Climb

/-! ## Within a root and elsewhere -/

/-- What a directory below a root is longer than; the project root counts as empty. -/
def boundary (root : List Char) : List Char := if root = ['.'] then [] else root

/-- Whether a directory is longer than a root, in bytes. -/
def isLonger (root dir : List Char) : Bool := byteLength (boundary root) < byteLength dir

/-- Within a root: as long as the directory is longer than the root, it is looked into. -/
def Climb.inside (root : List Char) : Climb where
  goesOn := isLonger root
  looksInto dir := dir

/-- Elsewhere: as long as there is a separator, the directory above it is looked into. -/
def Climb.outside : Climb where
  goesOn dir := dir.contains '/'
  looksInto := above

theorem isLonger_iff {root dir : List Char} :
    isLonger root dir = true ↔ byteLength (boundary root) < byteLength dir := decide_eq_true_iff

theorem isLonger_nil (root : List Char) : isLonger root [] = false := by
  simp [isLonger, byteLength]

theorem isLonger_of_isPrefix {root dir dir' : List Char} (h : dir <+: dir')
    (hlong : isLonger root dir = true) : isLonger root dir' = true := by
  obtain ⟨rest, rfl⟩ := h
  rw [isLonger_iff] at hlong ⊢
  rw [byteLength_append]
  omega

theorem inside_due (root : List Char) :
    (Climb.inside root).Due fun dir => (dir :: ancestors dir).filter (isLonger root) where
  out := by
    intro dir hout
    rw [List.filter_eq_nil_iff]
    intro d hd hlong
    have hprefix : d <+: dir := by
      rcases List.mem_cons.1 hd with rfl | hd
      · exact List.prefix_rfl
      · exact LiesAbove.isPrefix (mem_ancestors.1 hd)
    have hon : isLonger root dir = true := isLonger_of_isPrefix hprefix hlong
    exact Bool.false_ne_true (hout.symm.trans hon)
  on := by
    intro dir hon
    rw [List.filter_cons_of_pos (p := isLonger root) hon]
    exact congrArg (dir :: ·) (filter_ancestors_above (isLonger_nil root) dir).symm

theorem outside_due : Climb.outside.Due ancestors where
  out := by
    intro dir hout
    exact ancestors_of_not_mem (by simpa [Climb.outside] using hout)
  on := by
    intro dir hon
    exact ancestors_of_mem (by simpa [Climb.outside] using hon)

/-- The climb for a component nested in `root`, which is made for what lies within `root`. -/
def LooksInside (isComponent : List Char → Bool) (child root : List Char)
    (seen : List (List Char)) (found : Bool) : Prop :=
  if isWithinChars child root then
    (Climb.inside root).Ends isComponent (above (resourceChars child)) seen found
  else seen = [] ∧ found = false

/-- The climb for a component outside of `root`, which is made for what does not lie within it. -/
def LooksOutside (isComponent : List Char → Bool) (child root : List Char)
    (seen : List (List Char)) (found : Bool) : Prop :=
  if isWithinChars child root then seen = [] ∧ found = false
  else Climb.outside.Ends isComponent (resourceChars child) seen found

/-! ## What the climbs find -/

variable {child root : List Char} {seen : List (List Char)} {found : Bool}

theorem length_boundary (root : List Char) : (boundary root).length = rootLength root := by
  rw [boundary, rootLength]
  split <;> rfl

theorem boundary_isPrefix (h : isWithinChars child root = true) : boundary root <+: child := by
  rw [boundary]
  split
  · exact List.nil_prefix
  · rename_i hhere
    cases hproject : isProject root with
    | true =>
      rw [isProject, Bool.or_eq_true, beq_iff_eq, beq_iff_eq] at hproject
      rw [hproject.resolve_right hhere]
      exact List.nil_prefix
    | false =>
      rcases (isWithinChars_iff hproject).1 h with rfl | habove
      · exact List.prefix_rfl
      · exact habove.isPrefix

/-- For directories above a module, bytes and characters say the same. -/
theorem isLonger_iff_rootLength_lt {dir : List Char} (h : isWithinChars child root = true)
    (habove : LiesAbove dir (resourceChars child)) :
    isLonger root dir = true ↔ rootLength root < dir.length := by
  rw [isLonger_iff, byteLength_lt_iff (boundary_isPrefix h)
    (habove.isPrefix.trans (resourceChars_isPrefix child)), length_boundary]

theorem hasEntry_iff {dir : List Char} :
    hasEntry isComponent dir = true ↔ dir ≠ [] ∧ isComponent dir = true := by
  simp [hasEntry]

/-- A module is nested by the measure of the climb. -/
theorem isNested_iff_isLonger :
    isNested isComponent child root = true ↔ isWithinChars child root = true ∧
      ∃ dir, LiesAbove dir (resourceChars child) ∧ dir ≠ [] ∧ isLonger root dir = true ∧
        isComponent dir = true := by
  rw [isNested_iff]
  refine and_congr_right fun hwithin => exists_congr fun dir => ?_
  constructor
  · rintro ⟨habove, hlong, hcomponent⟩
    refine ⟨habove, ?_, (isLonger_iff_rootLength_lt hwithin habove).2 hlong, hcomponent⟩
    exact List.ne_nil_of_length_pos (Nat.zero_lt_of_lt hlong)
  · rintro ⟨habove, -, hlong, hcomponent⟩
    exact ⟨habove, (isLonger_iff_rootLength_lt hwithin habove).1 hlong, hcomponent⟩

/-- The directories that a climb within a root is due to look into. -/
def insideDirs (child root : List Char) : List (List Char) :=
  if isWithinChars child root then (ancestors (resourceChars child)).filter (isLonger root) else []

/-- The directories that a climb elsewhere is due to look into. -/
def outsideDirs (child root : List Char) : List (List Char) :=
  if isWithinChars child root then [] else ancestors (resourceChars child)

theorem any_insideDirs (isComponent : List Char → Bool) (child root : List Char) :
    (insideDirs child root).any (hasEntry isComponent) = isNested isComponent child root := by
  rw [Bool.eq_iff_iff, isNested_iff_isLonger, List.any_eq_true, insideDirs]
  cases h : isWithinChars child root with
  | true =>
    simp only [if_true, List.mem_filter, mem_ancestors, hasEntry_iff, LiesAbove, true_and]
    refine exists_congr fun dir => ?_
    constructor
    · rintro ⟨⟨habove, hlong⟩, hne, hcomponent⟩
      exact ⟨habove, hne, hlong, hcomponent⟩
    · rintro ⟨habove, hne, hlong, hcomponent⟩
      exact ⟨⟨habove, hlong⟩, hne, hcomponent⟩
  | false => simp

theorem any_outsideDirs (isComponent : List Char → Bool) (child root : List Char) :
    (outsideDirs child root).any (hasEntry isComponent) = isForeign isComponent child root := by
  rw [outsideDirs, isForeign]
  cases h : isWithinChars child root with
  | true => rfl
  | false => rfl

theorem looksInside_iff : LooksInside isComponent child root seen found ↔
    seen = Climb.upToEntry isComponent (insideDirs child root) ∧
      found = isNested isComponent child root := by
  rw [← any_insideDirs, LooksInside, insideDirs]
  split
  · rw [Climb.ends_iff (inside_due root), filter_ancestors_above (isLonger_nil root)]
  · rfl

theorem looksOutside_iff : LooksOutside isComponent child root seen found ↔
    seen = Climb.upToEntry isComponent (outsideDirs child root) ∧
      found = isForeign isComponent child root := by
  rw [← any_outsideDirs, LooksOutside, outsideDirs]
  split
  · rfl
  · rw [Climb.ends_iff outside_due]

/-- For all modules, roots and sets of components, both climbs end, and each in one way. They look
into the directories above the module up to the first component, within the root into those only that
are longer than the root, and what they find is what the filters of a component ask for. So a module
is nested when it lies within the root and some directory above it that is longer than the root is a
component, foreign when it does not and some directory above it is one, and never both. -/
theorem climbs_settle (isComponent : List Char → Bool) (child root : List Char) :
    (∀ seen found, LooksInside isComponent child root seen found ↔
      seen = Climb.upToEntry isComponent (insideDirs child root) ∧
        found = isNested isComponent child root) ∧
    (∀ seen found, LooksOutside isComponent child root seen found ↔
      seen = Climb.upToEntry isComponent (outsideDirs child root) ∧
        found = isForeign isComponent child root) ∧
    (isNested isComponent child root = true ↔ isWithinChars child root = true ∧
      ∃ dir, LiesAbove dir (resourceChars child) ∧ dir ≠ [] ∧ isLonger root dir = true ∧
        isComponent dir = true) ∧
    (isForeign isComponent child root = true ↔ isWithinChars child root = false ∧
      ∃ dir, LiesAbove dir (resourceChars child) ∧ dir ≠ [] ∧ isComponent dir = true) ∧
    ¬ (isNested isComponent child root = true ∧ isForeign isComponent child root = true) := by
  refine ⟨fun _ _ => looksInside_iff, fun _ _ => looksOutside_iff, isNested_iff_isLonger,
    isForeign_iff, ?_⟩
  rintro ⟨hnested, hforeign⟩
  have hnot := not_nested_and_foreign isComponent child root
  rw [hnested, hforeign] at hnot
  cases hnot

end Ownership

end BundleLedger
