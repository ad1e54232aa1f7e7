import BundleLedger.Proofs.FilePath.Leading
import Mathlib.Data.List.Induction

/-!
# The way from one directory to another

`prefixBetween` writes down how to get from one directory to another: up as often as the source has
strides of its own, and then down those of the target. Going up once for a stride undoes it only if
the stride is a name. So a `..` that is left in the source is answered by one more `..`, and where one
begins what the source has of its own, the absolute form of the target is taken, with `\` turned into
`/`. Two trails can also lead to the same directory without being the same.

Results:

* `prefixBetween_eq`: what the prefix is, by where the two trails part.
* `detour_iff`: when going up once for each stride comes back to where they part.
* `prefixBetween_right_of_names`: the prefix is right where no trail has a `..`.
* `prefixBetween_right_iff`: exactly when it is right.
-/
namespace BundleLedger.FilePath

open Disk (pointed stepPlace pointed_append pointed_names)

/-! ## Up and down again -/

abbrev up : List Char := ['.', '.']

theorem stepPlace_up (place : Place) : stepPlace place up = place.dropLast := rfl

theorem pointed_ups (start : Place) (n : Nat) :
    pointed start (List.replicate n up) = start.take (start.length - n) := by
  induction n generalizing start with
  | zero => simp [pointed]
  | succ n ih =>
    have hcons : pointed start (List.replicate (n + 1) up) =
        pointed start.dropLast (List.replicate n up) := rfl
    rw [hcons, ih, List.length_dropLast, List.dropLast_eq_take, List.take_take]
    congr 1
    omega

/-- Pieces take away some of the place where they start, and add names of their own. -/
theorem pointed_reduce (pieces : List (List Char)) : ∃ (ups : Nat) (names : Place),
    names.length + pieces.count up ≤ pieces.length ∧
      ∀ start, pointed start pieces = start.take (start.length - ups) ++ names := by
  induction pieces using List.reverseRecOn with
  | nil => exact ⟨0, [], by simp, fun start => by simp [pointed]⟩
  | append_singleton pieces piece ih =>
    obtain ⟨ups, names, hcount, hpointed⟩ := ih
    have hsnoc : ∀ start, pointed start (pieces ++ [piece]) =
        stepPlace (start.take (start.length - ups) ++ names) piece := by
      intro start
      rw [pointed_append, hpointed]
      rfl
    by_cases hskip : piece = [] ∨ piece = ['.']
    · refine ⟨ups, names, ?_, fun start => by rw [hsnoc, stepPlace, if_pos hskip]⟩
      have hne : piece ≠ up := by rcases hskip with rfl | rfl <;> decide
      simp [List.count_append, hne]
      omega
    · by_cases hup : piece = up
      · subst hup
        rcases List.eq_nil_or_concat names with rfl | ⟨init, last, rfl⟩
        · refine ⟨ups + 1, [], ?_, fun start => ?_⟩
          · simpa [List.count_append] using hcount
          · rw [hsnoc, stepPlace_up, List.append_nil, List.append_nil, List.dropLast_eq_take,
              List.take_take, List.length_take]
            congr 1
            omega
        · refine ⟨ups, init, ?_, fun start => ?_⟩
          · simp [List.count_append] at hcount ⊢
            omega
          · rw [hsnoc, stepPlace_up, List.concat_eq_append, ← List.append_assoc, List.dropLast_concat]
      · refine ⟨ups, names ++ [piece], ?_, fun start => ?_⟩
        · simp [List.count_append, hup]
          omega
        · rw [hsnoc, stepPlace, if_neg hskip, if_neg hup, List.append_assoc]

/-- From too far above, pieces lead where they should only if they go all the way up. -/
theorem pointed_take_iff {place : Place} {n : Nat} (h : n < place.length ∨ place = [])
    (pieces : List (List Char)) :
    pointed (place.take n) pieces = pointed place pieces ↔
      pointed [] pieces = pointed place pieces := by
  rcases h with h | rfl
  · obtain ⟨ups, names, -, hpointed⟩ := pointed_reduce pieces
    simp only [hpointed, List.take_take, List.length_take, List.append_cancel_right_eq,
      List.length_nil, List.take_nil]
    have hlength : ∀ m, (place.take m).length = min m place.length := fun m => List.length_take
    constructor <;> intro he <;> have hlengths := congrArg List.length he
    · rw [hlength, hlength] at hlengths
      have hzero : place.length - ups = 0 := by omega
      rw [hzero, List.take_zero]
    · rw [hlength, List.length_nil] at hlengths
      have hzero : place.length - ups = 0 := by omega
      rw [hzero, List.take_zero, show min _ n = 0 by omega, List.take_zero]
  · simp

/-- Going up once for each of some strides comes back to where they start exactly if all of them are
names; or else it makes no difference for what follows. -/
theorem detour_iff {back : List (List Char)} (hback : ∀ piece ∈ back, IsStride piece) (place : Place)
    (onward : List (List Char)) :
    pointed (pointed place back) (List.replicate back.length up ++ onward) = pointed place onward ↔
      up ∉ back ∨ pointed [] onward = pointed place onward := by
  rw [pointed_append, pointed_ups]
  by_cases hup : up ∈ back
  · obtain ⟨ups, names, hcount, hpointed⟩ := pointed_reduce back
    have hpos := List.count_pos_iff.2 hup
    have htake : (pointed place back).take ((pointed place back).length - back.length) =
        place.take (place.length - ups - (back.length - names.length)) := by
      rw [hpointed, List.length_append, List.take_append_of_le_length (by omega), List.take_take,
        List.length_take]
      congr 1
      omega
    rw [htake, pointed_take_iff, or_iff_right (not_not.2 hup)]
    rcases List.eq_nil_or_concat place with rfl | ⟨init, last, rfl⟩
    · exact .inr rfl
    · left
      rw [List.concat_eq_append, List.length_append, List.length_singleton]
      omega
  · have hnames : ∀ piece ∈ back, IsName piece := fun piece hpiece =>
      ⟨(hback piece hpiece).1, (hback piece hpiece).2, fun he : piece = up => hup (he ▸ hpiece)⟩
    rw [pointed_names hnames, List.length_append, Nat.add_sub_cancel, List.take_left]
    simp [hup]

/-! ## Where trails part -/

/-- Two trails go together for a while, and then each has strides of its own. -/
structure Fork (source target shared back onward : List (List Char)) : Prop where
  source_eq : source = shared ++ back
  target_eq : target = shared ++ onward
  apart : ∀ piece, back.head? = some piece → onward.head? ≠ some piece

theorem exists_fork (source target : List (List Char)) :
    ∃ shared back onward, Fork source target shared back onward := by
  induction source generalizing target with
  | nil => exact ⟨[], [], target, rfl, rfl, by simp⟩
  | cons piece source ih =>
    by_cases h : target.head? = some piece
    · obtain ⟨rest, rfl⟩ := List.head?_eq_some_iff.1 h
      obtain ⟨shared, back, onward, rfl, rfl, hapart⟩ := ih rest
      exact ⟨piece :: shared, back, onward, rfl, rfl, hapart⟩
    · refine ⟨[], piece :: source, target, rfl, rfl, fun other hother => ?_⟩
      cases hother
      exact h

variable {source target shared back onward : List (List Char)}

theorem Fork.eq_iff (h : Fork source target shared back onward) :
    source = target ↔ back = [] ∧ onward = [] := by
  rw [h.source_eq, h.target_eq, List.append_cancel_left_eq]
  refine ⟨fun he => ?_, fun he => he.1.trans he.2.symm⟩
  subst he
  cases back with
  | nil => exact ⟨rfl, rfl⟩
  | cons piece back => exact absurd rfl (h.apart piece rfl)

/-- Whether the absolute form of the target is taken: the source goes up where the trails part. -/
def Restarts (back onward : List (List Char)) : Prop := back.head? = some up ∧ onward ≠ []

instance (back onward : List (List Char)) : Decidable (Restarts back onward) :=
  inferInstanceAs (Decidable (_ ∧ _))

theorem steps?_ups (back : List (List Char)) :
    steps? true [] (back.map stride) = some ((List.replicate back.length up).map stride) := by
  induction back with
  | nil => rfl
  | cons piece back ih =>
    rw [List.map_cons, steps?, ih]
    rfl

theorem stride_ne_here (piece : List Char) : stride piece ≠ .here := by
  unfold stride
  split <;> exact Component.noConfusion

theorem stride_eq_up_iff {piece : List Char} : stride piece = .up ↔ piece = up := by
  unfold stride
  split <;> simp_all

theorem steps?_fork (hapart : ∀ piece, back.head? = some piece → onward.head? ≠ some piece)
    (shared : List (List Char)) :
    steps? false ((shared ++ onward).map stride) ((shared ++ back).map stride) =
      if Restarts back onward then none
      else some ((List.replicate back.length up ++ onward).map stride) := by
  induction shared with
  | cons piece shared ih =>
    simpa [steps?] using ih
  | nil =>
    rw [List.nil_append, List.nil_append]
    cases back with
    | nil => simp [steps?, Restarts]
    | cons piece back =>
      cases onward with
      | nil =>
        rw [List.map_nil, List.map_cons, steps?, steps?_ups]
        simp [Restarts, List.replicate_succ, stride]
      | cons first onward =>
        have hne : first ≠ piece := by
          rintro rfl
          exact hapart first rfl rfl
        have hdiffer : ¬ stride first = stride piece := fun he => hne (stride_injective he)
        have hups : (.up : Component) :: (back.map stride).map (fun _ => .up) =
            (List.replicate (back.length + 1) up).map stride := by
          rw [List.map_replicate, List.replicate_succ, List.map_map]
          exact congrArg _ (List.map_const' ..)
        rw [List.map_cons, List.map_cons, steps?, if_neg (by simpa using hdiffer),
          if_neg (stride_ne_here piece), hups]
        by_cases hup : piece = up
        · rw [if_pos (stride_eq_up_iff.2 hup), if_pos ⟨congrArg some hup, List.cons_ne_nil first onward⟩]
        · rw [if_neg (mt stride_eq_up_iff.1 hup), if_neg fun h => hup (Option.some.inj h.1),
            List.map_append]
          rfl

/-! ## The text of the prefix -/

/-- Strides as a text that can stand before a path. -/
def spelled (pieces : List (List Char)) : List Char :=
  if pieces = [] then [] else Text.join ['/'] pieces ++ ['/']

theorem strides_spelled {pieces : List (List Char)} (h : ∀ piece ∈ pieces, IsSegment piece) :
    strides (spelled pieces) = pieces := by
  unfold spelled
  split
  · rename_i hnil
    rw [hnil]
    rfl
  · rename_i hne
    induction pieces with
    | nil => exact absurd rfl hne
    | cons piece pieces ih =>
      rw [List.forall_mem_cons] at h
      rcases eq_or_ne pieces [] with rfl | hrest
      · exact (strides_append piece []).trans (by rw [h.1.strides]; rfl)
      · rw [Text.join_cons_of_ne_nil _ _ hrest, List.append_assoc, List.append_assoc,
          List.singleton_append, strides_append, h.1.strides, ih h.2 hrest]
        rfl

theorem isAbsolute_spelled {pieces : List (List Char)} (h : ∀ piece ∈ pieces, IsSegment piece) :
    isAbsolute (spelled pieces) = false := by
  cases pieces with
  | nil => rfl
  | cons piece pieces =>
    have hpiece := h piece List.mem_cons_self
    obtain ⟨c, rest, rfl⟩ := List.exists_cons_of_ne_nil hpiece.stride.1
    have habsolute := hpiece.isAbsolute
    have hbegins : (spelled ((c :: rest) :: pieces)).head? = some c := by
      cases pieces <;> rfl
    rwa [isAbsolute, hbegins]

theorem leads_spelled {pieces : List (List Char)} (h : ∀ piece ∈ pieces, IsSegment piece)
    (start : Place) : leads start (spelled pieces) = pointed start pieces := by
  rw [leads_eq, isAbsolute_spelled h, strides_spelled h]
  rfl

/-- The target itself as a prefix. -/
def spelledAbsolute (path : List Char) : List Char :=
  Text.dropTrailing (· == '/') (Text.replaceChar '\\' '/' path) ++ ['/']

theorem dropTrailing_slash (s : List Char) :
    Text.dropTrailing (· == '/') (s ++ ['/']) = Text.dropTrailing (· == '/') s := by
  simp [Text.dropTrailing]

theorem strides_closed (s : List Char) :
    strides (Text.dropTrailing (· == '/') s ++ ['/']) = strides s := by
  induction s using List.reverseRecOn with
  | nil => rfl
  | append_singleton s c ih =>
    by_cases hc : c = '/'
    · rw [hc, dropTrailing_slash, ih, strides_append]
      exact (List.append_nil _).symm
    · rw [Disk.dropTrailing_of_getLast (by simpa using hc), strides_append]
      exact List.append_nil _

theorem isAbsolute_closed {s : List Char} (h : isAbsolute s = true ∨ s = []) :
    isAbsolute (Text.dropTrailing (· == '/') s ++ ['/']) = true := by
  induction s using List.reverseRecOn with
  | nil => rfl
  | append_singleton s c ih =>
    have hs : isAbsolute s = true ∨ s = [] := by
      cases s with
      | nil => exact .inr rfl
      | cons first s => exact .inl (h.resolve_right (by simp))
    by_cases hc : c = '/'
    · rw [hc, dropTrailing_slash]
      exact ih hs
    · rw [Disk.dropTrailing_of_getLast (by simpa using hc)]
      rcases hs with hs | rfl
      · obtain ⟨first, s, rfl⟩ := List.exists_cons_of_ne_nil (l := s) (by rintro rfl; cases hs)
        exact hs
      · exact h.resolve_right (by simp)

/-- The target leads to itself from everywhere, but for what becomes of `\\`. -/
theorem leads_spelledAbsolute {path : List Char} (h : isAbsolute path = true) (start : Place) :
    leads start (spelledAbsolute path) = leads [] (Text.replaceChar '\\' '/' path) := by
  have hreplaced : isAbsolute (Text.replaceChar '\\' '/' path) = true := by
    obtain ⟨rest, rfl⟩ := List.head?_eq_some_iff.1 (beq_iff_eq.1 h)
    rfl
  rw [leads_eq, leads_eq, spelledAbsolute, strides_closed, isAbsolute_closed (.inl hreplaced),
    if_pos rfl, ite_self]

variable {workingDir fromDir toDir : List Char}

theorem isSegment_detour (h : Fork (trail workingDir fromDir) (trail workingDir toDir) shared back onward)
    (n : Nat) : ∀ piece ∈ List.replicate n up ++ onward, IsSegment piece := by
  have hup : IsSegment up := ⟨by decide, by decide⟩
  have htarget : ∀ piece ∈ shared ++ onward, IsSegment piece := by
    rw [← h.target_eq]
    exact fun _ => isSegment_of_mem
  intro piece hpiece
  rcases List.mem_append.1 hpiece with hpiece | hpiece
  · exact (List.eq_of_mem_replicate hpiece).symm ▸ hup
  · exact htarget piece (List.mem_append_right _ hpiece)

theorem relative?_fork (hwd : isAbsolute workingDir = true) (hfrom : fromDir ≠ []) (hto : toDir ≠ [])
    (h : Fork (trail workingDir fromDir) (trail workingDir toDir) shared back onward) :
    relative? (absoluteDir workingDir toDir) (absoluteDir workingDir fromDir) =
      if Restarts back onward then none
      else some (ofComponents ((List.replicate back.length up ++ onward).map stride)) := by
  have hroots : steps? false (.root :: (shared ++ onward).map stride)
      (.root :: (shared ++ back).map stride) =
        steps? false ((shared ++ onward).map stride) ((shared ++ back).map stride) := by
    simp [steps?]
  rw [relative?, (absoluteDir_spec hwd hfrom).1, (absoluteDir_spec hwd hto).1, bne_self_eq_false,
    if_neg Bool.false_ne_true, components_absoluteDir hwd hfrom, components_absoluteDir hwd hto,
    h.source_eq, h.target_eq, hroots, steps?_fork h.apart]
  split <;> rfl

/-- The prefix is what leads back to where the trails part and from there to the target, or the
target itself. -/
theorem prefixBetween_eq (hwd : isAbsolute workingDir = true) (hfrom : fromDir ≠ []) (hto : toDir ≠ [])
    (h : Fork (trail workingDir fromDir) (trail workingDir toDir) shared back onward) :
    prefixBetween workingDir fromDir toDir =
      if Restarts back onward then spelledAbsolute (absoluteDir workingDir toDir)
      else spelled (List.replicate back.length up ++ onward) := by
  have hcomponents := components_ofComponents (isSegment_detour h back.length)
  rw [prefixBetween, relative?_fork hwd hfrom hto h]
  by_cases hrestarts : Restarts back onward
  · rw [if_pos hrestarts, if_pos hrestarts]
    rfl
  · rw [if_neg hrestarts, if_neg hrestarts]
    dsimp only
    have htexts : Component.text ∘ stride = id := funext text_stride
    rw [hcomponents, List.map_map, htexts, List.map_id]
    cases List.replicate back.length up ++ onward <;> rfl

theorem spelled_eq_nil_iff {pieces : List (List Char)} : spelled pieces = [] ↔ pieces = [] := by
  unfold spelled
  split <;> simp_all

theorem getLast?_spelled {pieces : List (List Char)} (h : spelled pieces ≠ []) :
    (spelled pieces).getLast? = some '/' := by
  unfold spelled at h ⊢
  split
  · simp_all
  · exact List.getLast?_concat

/-! ## When the prefix is right -/

/-- A text leads from one directory to another, wherever it stands before a relative path. -/
structure IsRight (workingDir fromDir toDir lead : List Char) : Prop where
  /-- It leads from the one to the other. -/
  arrives : leads (placeOf workingDir fromDir) lead = placeOf workingDir toDir
  /-- It is empty if the two are the same, and only then. -/
  empty_iff : lead = [] ↔ placeOf workingDir fromDir = placeOf workingDir toDir
  /-- Otherwise it ends in a separator. -/
  closed : lead ≠ [] → lead.getLast? = some '/'

/-- The prefix is empty where the trails are the same, not just the directories. -/
theorem prefixBetween_eq_nil_iff (hwd : isAbsolute workingDir = true) (hfrom : fromDir ≠ [])
    (hto : toDir ≠ []) : prefixBetween workingDir fromDir toDir = [] ↔
      trail workingDir fromDir = trail workingDir toDir := by
  obtain ⟨shared, back, onward, h⟩ := exists_fork (trail workingDir fromDir) (trail workingDir toDir)
  rw [prefixBetween_eq hwd hfrom hto h, h.eq_iff]
  split
  · rename_i hrestarts
    simp [spelledAbsolute, hrestarts.2]
  · rw [spelled_eq_nil_iff, List.append_eq_nil_iff, List.replicate_eq_nil_iff, List.length_eq_zero_iff]

theorem prefixBetween_closed (hwd : isAbsolute workingDir = true) (hfrom : fromDir ≠ [])
    (hto : toDir ≠ []) (hne : prefixBetween workingDir fromDir toDir ≠ []) :
    (prefixBetween workingDir fromDir toDir).getLast? = some '/' := by
  obtain ⟨shared, back, onward, h⟩ := exists_fork (trail workingDir fromDir) (trail workingDir toDir)
  rw [prefixBetween_eq hwd hfrom hto h] at hne ⊢
  split
  · exact List.getLast?_concat
  · rename_i hrestarts
    rw [if_neg hrestarts] at hne
    exact getLast?_spelled hne

theorem placeOf_eq_trail {path : List Char} (h : up ∉ trail workingDir path) :
    placeOf workingDir path = trail workingDir path := by
  have hnames : ∀ piece ∈ trail workingDir path, IsName piece := by
    intro piece hpiece
    have hstride : IsStride piece := isStride_of_mem hpiece
    exact ⟨hstride.1, hstride.2, fun he : piece = up => h (he ▸ hpiece)⟩
  rw [placeOf_eq, pointed_names hnames]
  rfl

/-- Where the prefix leads. -/
theorem leads_prefixBetween_iff (hwd : isAbsolute workingDir = true) (hfrom : fromDir ≠ [])
    (hto : toDir ≠ []) (h : Fork (trail workingDir fromDir) (trail workingDir toDir) shared back onward) :
    leads (placeOf workingDir fromDir) (prefixBetween workingDir fromDir toDir) =
        placeOf workingDir toDir ↔
      if Restarts back onward then
        leads [] (Text.replaceChar '\\' '/' (absoluteDir workingDir toDir)) = placeOf workingDir toDir
      else up ∉ back ∨ pointed [] onward = placeOf workingDir toDir := by
  have hback : ∀ piece ∈ back, IsStride piece := by
    have hsource : ∀ piece ∈ shared ++ back, IsStride piece := by
      rw [← h.source_eq]
      exact fun _ => isStride_of_mem
    exact fun piece hpiece => hsource piece (List.mem_append_right _ hpiece)
  rw [prefixBetween_eq hwd hfrom hto h]
  split
  · rw [leads_spelledAbsolute (absoluteDir_spec hwd hto).1]
  · rw [leads_spelled (isSegment_detour h back.length), placeOf_eq, placeOf_eq, h.source_eq,
      h.target_eq, pointed_append [] shared back, pointed_append [] shared onward, detour_iff hback]

/-- Without a `..` in the trails, the prefix is right. -/
theorem prefixBetween_right_of_names (hwd : isAbsolute workingDir = true) (hfrom : fromDir ≠ [])
    (hto : toDir ≠ []) (hup : up ∉ trail workingDir fromDir) (hup' : up ∉ trail workingDir toDir) :
    IsRight workingDir fromDir toDir (prefixBetween workingDir fromDir toDir) := by
  obtain ⟨shared, back, onward, h⟩ := exists_fork (trail workingDir fromDir) (trail workingDir toDir)
  have hback : up ∉ back := by
    rw [h.source_eq, List.mem_append, not_or] at hup
    exact hup.2
  have hrestarts : ¬ Restarts back onward := fun hr => hback (List.mem_of_mem_head? hr.1)
  constructor
  case arrives => exact (leads_prefixBetween_iff hwd hfrom hto h).2 (by simp [hrestarts, hback])
  case empty_iff =>
    rw [prefixBetween_eq_nil_iff hwd hfrom hto, placeOf_eq_trail hup, placeOf_eq_trail hup']
  case closed => exact prefixBetween_closed hwd hfrom hto

/-- The prefix is right exactly if trails to one directory are one trail, and the strides that the
source has of its own are names: or going up too far makes no difference, or the target is taken and
reads the same with `/` for `\\`. So it is right where neither trail has a `..`. -/
theorem prefixBetween_right_iff (hwd : isAbsolute workingDir = true) (hfrom : fromDir ≠ [])
    (hto : toDir ≠ []) :
    (∃ shared back onward, Fork (trail workingDir fromDir) (trail workingDir toDir) shared back onward ∧
      (IsRight workingDir fromDir toDir (prefixBetween workingDir fromDir toDir) ↔
        (placeOf workingDir fromDir = placeOf workingDir toDir →
          trail workingDir fromDir = trail workingDir toDir) ∧
        if Restarts back onward then
          leads [] (Text.replaceChar '\\' '/' (absoluteDir workingDir toDir)) =
            placeOf workingDir toDir
        else up ∉ back ∨ pointed [] onward = placeOf workingDir toDir)) ∧
      (up ∉ trail workingDir fromDir → up ∉ trail workingDir toDir →
        IsRight workingDir fromDir toDir (prefixBetween workingDir fromDir toDir)) := by
  obtain ⟨shared, back, onward, h⟩ := exists_fork (trail workingDir fromDir) (trail workingDir toDir)
  have harrives := leads_prefixBetween_iff hwd hfrom hto h
  have hempty := prefixBetween_eq_nil_iff hwd hfrom hto
  have hright : IsRight workingDir fromDir toDir (prefixBetween workingDir fromDir toDir) ↔
      (placeOf workingDir fromDir = placeOf workingDir toDir →
        trail workingDir fromDir = trail workingDir toDir) ∧
      leads (placeOf workingDir fromDir) (prefixBetween workingDir fromDir toDir) =
        placeOf workingDir toDir := by
    have hsame : trail workingDir fromDir = trail workingDir toDir →
        placeOf workingDir fromDir = placeOf workingDir toDir := by
      rw [placeOf_eq, placeOf_eq]
      exact congrArg _
    constructor
    · exact fun hr => ⟨fun hplaces => hempty.1 (hr.empty_iff.2 hplaces), hr.arrives⟩
    · exact fun hr => ⟨hr.2, hempty.trans ⟨hsame, hr.1⟩, prefixBetween_closed hwd hfrom hto⟩
  exact ⟨⟨shared, back, onward, h, hright.trans (and_congr_right' harrives)⟩,
    prefixBetween_right_of_names hwd hfrom hto⟩

/-- Down into a directory and out again is where the prefix goes wrong: it goes up twice. -/
theorem prefixBetween_detour : ¬ ∀ workingDir fromDir toDir : List Char,
    isAbsolute workingDir = true → fromDir ≠ [] → toDir ≠ [] →
      IsRight workingDir fromDir toDir (prefixBetween workingDir fromDir toDir) := by
  intro h
  have hright := h "/".toList "/p/a/..".toList "/p".toList (by decide) (by decide) (by decide)
  have hplaces : placeOf "/".toList "/p/a/..".toList = placeOf "/".toList "/p".toList := by decide
  have hlead : prefixBetween "/".toList "/p/a/..".toList "/p".toList = "../../".toList := by decide
  rw [hlead] at hright
  exact absurd (hright.empty_iff.2 hplaces) (by decide)

/-- From an output directory to the sources beside it. -/
theorem prefixBetween_right_beside :
    prefixBetween "/p".toList "out/./bundles".toList "src".toList = "../../src/".toList ∧
      up ∉ trail "/p".toList "out/./bundles".toList ∧ up ∉ trail "/p".toList "src".toList ∧
      IsRight "/p".toList "out/./bundles".toList "src".toList
        (prefixBetween "/p".toList "out/./bundles".toList "src".toList) := by
  have hfrom : up ∉ trail "/p".toList "out/./bundles".toList := by decide
  have hto : up ∉ trail "/p".toList "src".toList := by decide
  exact ⟨by decide, hfrom, hto,
    (prefixBetween_right_iff (by decide) (by decide) (by decide)).2 hfrom hto⟩

end BundleLedger.FilePath
