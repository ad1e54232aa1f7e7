import BundleLedger.Proofs.FilePath.Leading
import BundleLedger.Proofs.Location.EngineConfig

/-!
# The engine finds what the session finds

The engine is given absolute targets, in which `*` is still to be filled, while the session fills a
target and makes the path absolute. Both lead through the same strides, for filling can be read off
the strides of a path: of these, the first one with a `*` is replaced by the strides of that piece with
the captured text in it (`strides_fillStar`). So it does not matter whether a path was made absolute
before. What has to be kept apart is the beginning: a captured text must not make a file URL or an
absolute path of a target that was none, and it cannot where a `/` stands in front of the `*`.

Results:

* `mem_absolute?`: an absolute form has no characters of its own, but for separators.
* `strides_fillStar`: the strides of a filled path.
* `absoluteTarget_spec`: what a target becomes when it is made absolute.
* `samePlace_fill`: filling before and after a target is made absolute.
* `resolve?_forEngine_agree`: a location lies at the same place for the engine and for the session.
-/
namespace BundleLedger

/-! ## Characters of a path -/

namespace FilePath

variable {left right workingDir path : List Char} {c : Char}

theorem isAbsolute_join_eq (left right : List Char) :
    isAbsolute (join left right) = (isAbsolute right || isAbsolute left) := by
  cases h : isAbsolute right with
  | true => rw [join_absolute h, h, Bool.true_or]
  | false => rw [isAbsolute_join left h, Bool.false_or]

theorem mem_foldl_join {pieces : List (List Char)} {base : List Char}
    (h : c ∈ pieces.foldl join base) : c ∈ base ∨ (∃ piece ∈ pieces, c ∈ piece) ∨ c = '/' := by
  induction pieces generalizing base with
  | nil => exact .inl h
  | cons piece pieces ih =>
    rcases ih h with hbase | ⟨p, hp, hc⟩ | hslash
    · rcases mem_join hbase with hbase | hpiece | hslash
      · exact .inl hbase
      · exact .inr (.inl ⟨piece, List.mem_cons_self, hpiece⟩)
      · exact .inr (.inr hslash)
    · exact .inr (.inl ⟨p, List.mem_cons_of_mem _ hp, hc⟩)
    · exact .inr (.inr hslash)

theorem mem_of_mem_strides {piece : List Char} (h : piece ∈ strides path) (hc : c ∈ piece) :
    c ∈ path :=
  mem_of_mem_split (List.mem_filter.1 h).1 hc

theorem mem_formStart (h : c ∈ formStart workingDir path) : c ∈ workingDir ∨ c = '/' := by
  unfold formStart at h
  split at h
  · split at h <;> exact .inr (by simpa using h)
  · exact .inl h

theorem mem_absolute? {form : List Char} (h : absolute? workingDir path = some form)
    (hc : c ∈ form) : c ∈ workingDir ∨ c ∈ path ∨ c = '/' := by
  have hpath : path ≠ [] := fun he => by simp [absolute?, he] at h
  have hbase : c ∈ (strides path).foldl join (formStart workingDir path) ∨ c = '/' := by
    rw [absolute?_eq hpath, Option.some.injEq] at h
    rw [← h] at hc
    split at hc
    · rcases mem_join hc with hc | hc | hc
      · exact .inl hc
      · cases hc
      · exact .inr hc
    · exact .inl hc
  rcases hbase with hbase | hslash
  · rcases mem_foldl_join hbase with hstart | ⟨piece, hpiece, hc⟩ | hslash
    · exact (mem_formStart hstart).imp_right .inr
    · exact .inr (.inl (mem_of_mem_strides hpiece hc))
    · exact .inr (.inr hslash)
  · exact .inr (.inr hslash)

/-- `SamePlace workingDir path path'`: made absolute, both paths have the same components. The empty path
cannot be made absolute. -/
inductive SamePlace (workingDir : List Char) : List Char → List Char → Prop where
  | nowhere : SamePlace workingDir [] []
  | place (path path' form form' : List Char) (h : absolute? workingDir path = some form)
      (h' : absolute? workingDir path' = some form') (hsame : components form = components form') :
      SamePlace workingDir path path'

theorem SamePlace.of_trail {path' : List Char} (hwd : isAbsolute workingDir = true) (h : path ≠ [])
    (h' : path' ≠ []) (htrail : trail workingDir path = trail workingDir path') :
    SamePlace workingDir path path' := by
  obtain ⟨form, hform, habsolute, hstrides⟩ := absolute?_spec hwd h
  obtain ⟨form', hform', habsolute', hstrides'⟩ := absolute?_spec hwd h'
  refine .place path path' form form' hform hform' ?_
  rw [components_absolute habsolute, components_absolute habsolute', hstrides, hstrides', htrail]

theorem SamePlace.refl (hwd : isAbsolute workingDir = true) (path : List Char) :
    SamePlace workingDir path path := by
  by_cases h : path = []
  · rw [h]
    exact .nowhere
  · exact .of_trail hwd h h rfl

theorem strides_of_not_mem {piece : List Char} (h : '/' ∉ piece) :
    strides piece = if IsStride piece then [piece] else [] := by
  rw [strides, Text.split_of_not_mem h]
  by_cases hp : IsStride piece <;> simp [hp]

end FilePath

namespace LoaderConfig

open FilePath Json

/-! ## Filling -/

theorem fillStar_append_of_not_mem {before : List Char} (h : '*' ∉ before)
    (after captured : List Char) :
    fillStar (before ++ after) captured = before ++ fillStar after captured := by
  by_cases hafter : '*' ∈ after
  · obtain ⟨front, back, rfl, hfront⟩ := List.eq_append_cons_of_mem hafter
    have hboth : '*' ∉ before ++ front := by simp [h, hfront]
    rw [← List.append_assoc, fillStar_append hboth, fillStar_append hfront]
    simp only [List.append_assoc]
  · rw [fillStar_of_not_mem hafter, fillStar_of_not_mem (by simp [h, hafter])]

theorem fillStar_append_of_mem {before : List Char} (h : '*' ∈ before)
    (after captured : List Char) :
    fillStar (before ++ after) captured = fillStar before captured ++ after := by
  obtain ⟨front, back, rfl, hfront⟩ := List.eq_append_cons_of_mem h
  rw [List.append_assoc, List.cons_append, fillStar_append hfront, fillStar_append hfront]
  simp only [List.append_assoc]

def fillStrides (captured : List Char) : List (List Char) → List (List Char)
  | [] => []
  | piece :: pieces =>
    if '*' ∈ piece then strides (fillStar piece captured) ++ pieces
    else piece :: fillStrides captured pieces

theorem fillStrides_append {front : List (List Char)} (h : ∀ piece ∈ front, '*' ∉ piece)
    (captured : List Char) (back : List (List Char)) :
    fillStrides captured (front ++ back) = front ++ fillStrides captured back := by
  induction front with
  | nil => rfl
  | cons piece front ih =>
    rw [List.forall_mem_cons] at h
    rw [List.cons_append, fillStrides, if_neg h.1, ih h.2, List.cons_append]

/-- A `*` makes a stride of its piece. -/
theorem isStride_of_star {piece : List Char} (h : '*' ∈ piece) : IsStride piece := by
  constructor <;> rintro rfl <;> simp at h

theorem star_not_mem_strides {piece : List Char} (h : '*' ∉ piece) :
    ∀ p ∈ strides piece, '*' ∉ p :=
  fun _ hp hstar => h (mem_of_mem_strides hp hstar)

theorem strides_fillStar (path captured : List Char) :
    strides (fillStar path captured) = fillStrides captured (strides path) := by
  induction h : path.length using Nat.strongRecOn generalizing path with
  | ind n ih =>
    by_cases hslash : '/' ∈ path
    · obtain ⟨first, rest, rfl, hfirst⟩ := List.eq_append_cons_of_mem hslash
      have hrest : strides (fillStar rest captured) = fillStrides captured (strides rest) :=
        ih rest.length (by simp at h; omega) rest rfl
      by_cases hstar : '*' ∈ first
      · rw [fillStar_append_of_mem hstar, strides_append, strides_append,
          strides_of_not_mem hfirst, if_pos (isStride_of_star hstar), List.singleton_append,
          fillStrides, if_pos hstar]
      · have hlead : '*' ∉ first ++ ['/'] := by simp [hstar]
        have hsplit : first ++ '/' :: rest = (first ++ ['/']) ++ rest := by simp
        rw [strides_append, fillStrides_append (star_not_mem_strides hstar), ← hrest, hsplit,
          fillStar_append_of_not_mem hlead, List.append_assoc, List.singleton_append, strides_append]
    · by_cases hstar : '*' ∈ path
      · rw [strides_of_not_mem hslash, if_pos (isStride_of_star hstar), fillStrides, if_pos hstar,
          List.append_nil]
      · have hnone := fillStrides_append (star_not_mem_strides hstar) captured []
        rw [fillStar_of_not_mem hstar]
        simpa [fillStrides] using hnone.symm

theorem fill_append_of_not_mem {before : List Char} (h : '*' ∉ before) (after : List Char)
    (captured : Option (List Char)) : fill (before ++ after) captured = before ++ fill after captured := by
  cases captured with
  | none => rfl
  | some captured => exact fillStar_append_of_not_mem h after captured

/-- Paths with the same strides have the same strides when they are filled. -/
theorem strides_fill_congr {path path' : List Char} (h : strides path = strides path')
    (captured : Option (List Char)) : strides (fill path captured) = strides (fill path' captured) := by
  cases captured with
  | none => exact h
  | some captured => simp only [fill, strides_fillStar, h]

theorem fill_join {left right : List Char} {captured : Option (List Char)} (h : '*' ∉ left)
    (hright : isAbsolute (fill right captured) = isAbsolute right) :
    fill (join left right) captured = join left (fill right captured) := by
  have hslash : '*' ∉ left ++ ['/'] := by simp [h]
  unfold join
  rw [hright]
  split
  · rfl
  · split
    · rfl
    · split
      · exact fill_append_of_not_mem h right captured
      · simpa using fill_append_of_not_mem hslash right captured

/-! ## Targets -/

/-- A target that keeps its kind when it is filled. -/
structure Steady (target : List Char) : Prop where
  ne_nil : target ≠ []
  backslash : '\\' ∉ target
  /-- It is a file URL, or it has no `*`, or a `/` stands in front of its first `*`. -/
  start : "file:".toList <+: target ∨ '*' ∉ target ∨
    ∃ before after, target = before ++ '*' :: after ∧ '*' ∉ before ∧ '/' ∈ before

/-- A filled target is the target, or both are the same up to their first `/`. -/
theorem fill_begins {target : List Char} (h : '*' ∉ target ∨
      ∃ before after, target = before ++ '*' :: after ∧ '*' ∉ before ∧ '/' ∈ before)
    (captured : Option (List Char)) : fill target captured = target ∨
      ∃ lead rest rest', '/' ∉ lead ∧ target = lead ++ '/' :: rest ∧
        fill target captured = lead ++ '/' :: rest' := by
  cases captured with
  | none => exact .inl rfl
  | some captured =>
    rcases h with hstar | ⟨before, after, rfl, hstar, hslash⟩
    · exact .inl (fillStar_of_not_mem hstar captured)
    · obtain ⟨lead, back, rfl, hlead⟩ := List.eq_append_cons_of_mem hslash
      refine .inr ⟨lead, back ++ '*' :: after, back ++ captured ++ after, hlead, by simp, ?_⟩
      rw [fill, fillStar_append hstar]
      simp

variable {target : List Char} {captured : Option (List Char)}

/-- A target that is no file URL is none when it is filled, and is absolute just if it was. -/
theorem Steady.fill (h : Steady target) (hscheme : ¬ "file:".toList <+: target)
    (captured : Option (List Char)) : LoaderConfig.fill target captured ≠ [] ∧
      isAbsolute (LoaderConfig.fill target captured) = isAbsolute target ∧
      ¬ "file://".toList <+: LoaderConfig.fill target captured := by
  have hfile : "file://".toList = "file:".toList ++ '/' :: ['/'] := rfl
  rcases fill_begins (h.start.resolve_left hscheme) captured with
    he | ⟨lead, rest, rest', hlead, htarget, he⟩
  · rw [he]
    exact ⟨h.ne_nil, rfl, fun hp => hscheme (List.IsPrefix.trans ⟨_, hfile.symm⟩ hp)⟩
  · rw [he, htarget]
    refine ⟨by simp, by cases lead <;> rfl, ?_⟩
    rintro ⟨back, hback⟩
    rw [hfile, List.append_assoc, List.cons_append] at hback
    have hcolon : '/' ∉ "file:".toList := by decide
    have hcut := Text.cut?_append hcolon (['/'] ++ back)
    rw [hback, Text.cut?_append hlead] at hcut
    have hlead' : lead = "file:".toList := (Prod.mk.inj (Option.some.inj hcut)).1
    exact hscheme ⟨'/' :: rest, by rw [htarget, hlead']⟩

/-- A target that is no file URL becomes one: that of an absolute path with the strides of its own. -/
theorem absoluteTarget_spec {workingDir baseUrl : List Char} (hwd : isAbsolute workingDir = true)
    (hbackslash : '\\' ∉ workingDir ∧ '\\' ∉ baseUrl) (h : Steady target)
    (hscheme : ¬ "file:".toList <+: target) : ∃ form,
      absoluteTarget workingDir baseUrl target = "file://".toList ++ form ∧
        isAbsolute form = true ∧ strides form = trail workingDir (join baseUrl target) := by
  obtain ⟨form, hform, habsolute, hstrides⟩ := absolute?_spec hwd (join_ne_nil baseUrl h.ne_nil)
  refine ⟨form, ?_, habsolute, hstrides⟩
  have hclean : '\\' ∉ form := by
    intro hmem
    rcases mem_absolute? hform hmem with hmem | hmem | hmem
    · exact hbackslash.1 hmem
    · rcases mem_join hmem with hmem | hmem | hmem
      · exact hbackslash.2 hmem
      · exact h.backslash hmem
      · cases hmem
    · cases hmem
  simp only [absoluteTarget, if_neg (mt List.isPrefixOf_iff_prefix.1 hscheme), hform,
    Option.getD_some, Text.replaceChar_of_not_mem hclean]

theorem isAbsolute_fill {form : List Char} (h : isAbsolute form = true)
    (captured : Option (List Char)) : isAbsolute (LoaderConfig.fill form captured) = true := by
  obtain ⟨below, rfl⟩ := List.head?_eq_some_iff.1 (beq_iff_eq.1 h)
  rw [← List.singleton_append, fill_append_of_not_mem (by decide)]
  rfl

/-- Whether a target is first made absolute or first filled, it leads to the same place. -/
theorem samePlace_fill {workingDir baseUrl : List Char} (hwd : isAbsolute workingDir = true)
    (hstar : '*' ∉ workingDir ∧ '*' ∉ baseUrl) (hbackslash : '\\' ∉ workingDir ∧ '\\' ∉ baseUrl)
    (h : Steady target) (captured : Option (List Char)) : SamePlace workingDir
      (join baseUrl (withoutFileScheme (fill (absoluteTarget workingDir baseUrl target) captured)))
      (join baseUrl (withoutFileScheme (fill target captured))) := by
  by_cases hscheme : "file:".toList <+: target
  · rw [absoluteTarget_of_scheme hscheme]
    exact .refl hwd _
  obtain ⟨hfill, hkind, hplain⟩ := h.fill hscheme captured
  obtain ⟨form, htarget, habsolute, hstrides⟩ := absoluteTarget_spec hwd hbackslash h hscheme
  have hrooted := isAbsolute_fill habsolute captured
  have hjoined : isAbsolute (fill (join baseUrl target) captured) =
      isAbsolute (join baseUrl target) := by
    rw [fill_join hstar.2 hkind, isAbsolute_join_eq, isAbsolute_join_eq, hkind]
  have hway : trail workingDir (fill form captured) =
      trail workingDir (join baseUrl (fill target captured)) :=
    calc trail workingDir (fill form captured)
      _ = strides (fill form captured) := by rw [trail, join_absolute hrooted]
      _ = strides (fill (join workingDir (join baseUrl target)) captured) :=
        strides_fill_congr hstrides captured
      _ = trail workingDir (join baseUrl (fill target captured)) := by
        rw [fill_join hstar.1 hjoined, fill_join hstar.2 hkind, trail]
  have hne : fill form captured ≠ [] := by
    intro he
    rw [he] at hrooted
    cases hrooted
  rw [htarget, fill_append_of_not_mem (by decide), withoutFileScheme_append,
    withoutFileScheme_of_path hplain, join_absolute hrooted]
  exact .of_trail hwd hne (join_ne_nil baseUrl hfill) hway

/-! ## The aliases of the engine -/

variable {workingDir baseUrl location : String}

theorem absoluteAlias_eq_string_iff {v : Value} {absolute : String} :
    absoluteAlias workingDir baseUrl v = .string absolute ↔ ∃ target, v = .string target ∧
      absolute.toList = absoluteTarget workingDir.toList baseUrl.toList target.toList := by
  constructor
  · intro h
    cases v with
    | string target =>
      rw [← Value.string.inj h]
      exact ⟨target, rfl, String.toList_ofList⟩
    | null | bool _ | number _ | array _ | object _ => cases h
  · rintro ⟨target, rfl, h⟩
    rw [absoluteAlias, ← h, String.ofList_toList]

/-- The engine has a candidate where there is one. -/
theorem isCandidate_absoluteAlias {name : String} {v : Value} :
    IsCandidate location (name, absoluteAlias workingDir baseUrl v) ↔
      IsCandidate location (name, v) := by
  simp only [IsCandidate, absoluteAlias_eq_string_iff]
  constructor
  · rintro ⟨_, captured, ⟨target, rfl, -⟩, hmatches⟩
    exact ⟨target, captured, rfl, hmatches⟩
  · rintro ⟨target, captured, rfl, hmatches⟩
    exact ⟨String.ofList _, captured, ⟨target, rfl, String.toList_ofList⟩, hmatches⟩

/-- The alias that counts for the engine counts for the session. -/
theorem Chosen.of_absoluteAliases {paths : Members} {name absolute : String}
    {captured : Option (List Char)}
    (h : Chosen (absoluteAliases workingDir baseUrl paths) location name absolute captured) :
    ∃ target, Chosen paths location name target captured ∧
      absolute.toList = absoluteTarget workingDir.toList baseUrl.toList target.toList := by
  obtain ⟨before, after, hsplit, hmatches, hbefore, hafter⟩ := h
  obtain ⟨front, rest, rfl, rfl, hrest⟩ := List.map_eq_append_iff.1 hsplit
  obtain ⟨⟨name', v⟩, back, rfl, hchosen, rfl⟩ := List.map_eq_cons_iff.1 hrest
  obtain ⟨rfl, hv⟩ := Prod.mk.inj hchosen
  obtain ⟨target, rfl, htarget⟩ := absoluteAlias_eq_string_iff.1 hv
  refine ⟨target, ⟨front, back, rfl, hmatches, fun m hm hcandidate => ?_, fun m hm hcandidate => ?_⟩,
    htarget⟩
  · exact hbefore (m.1, absoluteAlias workingDir baseUrl m.2) (List.mem_map.2 ⟨m, hm, rfl⟩)
      (isCandidate_absoluteAlias.2 hcandidate)
  · exact hafter (m.1, absoluteAlias workingDir baseUrl m.2) (List.mem_map.2 ⟨m, hm, rfl⟩)
      (isCandidate_absoluteAlias.2 hcandidate)

theorem exists_candidate_forEngine (c : LoaderConfig) (workingDir baseUrl location : String) :
    (∃ m ∈ (c.forEngine workingDir baseUrl).paths, IsCandidate location m) ↔
      ∃ m ∈ c.paths, IsCandidate location m := by
  rw [paths_forEngine, absoluteAliases]
  constructor
  · rintro ⟨_, hmem, hcandidate⟩
    obtain ⟨m, hm, rfl⟩ := List.mem_map.1 hmem
    exact ⟨m, hm, isCandidate_absoluteAlias.1 hcandidate⟩
  · rintro ⟨m, hm, hcandidate⟩
    exact ⟨_, List.mem_map.2 ⟨m, hm, rfl⟩, isCandidate_absoluteAlias.2 hcandidate⟩

/-- A location has a path for the engine just if it has one for the session, and both paths lead to
the same place. A working directory is an absolute path; the rest is asked so that nothing but the
`*` of the target is filled, and that what is captured cannot change how the target begins. -/
theorem resolve?_forEngine_agree (c : LoaderConfig) (workingDir baseUrl location : String)
    (hwd : isAbsolute workingDir.toList = true)
    (hstar : '*' ∉ workingDir.toList ∧ '*' ∉ baseUrl.toList)
    (hbackslash : '\\' ∉ workingDir.toList ∧ '\\' ∉ baseUrl.toList)
    (hsteady : ∀ name target captured, Chosen c.paths location name target captured →
      Steady target.toList) :
    ((∃ path, (c.forEngine workingDir baseUrl).resolve? location baseUrl = some path) ↔
        ∃ path, c.resolve? location baseUrl = some path) ∧
      ∀ path path', (c.forEngine workingDir baseUrl).resolve? location baseUrl = some path →
        c.resolve? location baseUrl = some path' →
          SamePlace workingDir.toList path.toList path'.toList := by
  refine ⟨?_, fun path path' hpath hpath' => ?_⟩
  · rw [resolve?_isSome_iff, resolve?_isSome_iff, exists_candidate_forEngine]
  · obtain ⟨name, absolute, captured, hchosen, hjoin⟩ := resolve?_eq_some_iff.1 hpath
    rw [paths_forEngine] at hchosen
    obtain ⟨target, hchosen, htarget⟩ := hchosen.of_absoluteAliases
    have hsession : c.resolve? location baseUrl = some (String.ofList
        (join baseUrl.toList (withoutFileScheme (fill target.toList captured)))) :=
      resolve?_eq_some_iff.2 ⟨name, target, captured, hchosen, String.toList_ofList⟩
    rw [hpath'] at hsession
    rw [Option.some.inj hsession, String.toList_ofList, hjoin, htarget]
    exact samePlace_fill hwd hstar hbackslash (hsteady name target captured hchosen) captured

/-- Aliases with dots and repeated separators in their targets. -/
def dottedConfig : LoaderConfig :=
  ⟨[("paths", .object [("*", .string "./src/*"), ("npm:*", .string "./packages//npm/*.x")])]⟩

theorem steady_of_chosen_dotted {name target : String} {captured : Option (List Char)}
    (h : Chosen dottedConfig.paths location name target captured) : Steady target.toList := by
  obtain ⟨before, after, hpaths, -⟩ := h
  have hmem : (name, Value.string target) ∈ dottedConfig.paths := hpaths ▸ List.mem_append_cons_self
  have htargets : dottedConfig.paths =
      [("*", .string "./src/*"), ("npm:*", .string "./packages//npm/*.x")] := rfl
  rw [htargets, List.mem_pair] at hmem
  rcases hmem with h | h <;> cases h
  · exact ⟨by decide, by decide, .inr (.inr ⟨"./src/".toList, [], by decide, by decide, by decide⟩)⟩
  · exact ⟨by decide, by decide,
      .inr (.inr ⟨"./packages//npm/".toList, ".x".toList, by decide, by decide, by decide⟩)⟩

theorem resolve?_forEngine_agree_dotted :
    (∀ name target captured, Chosen dottedConfig.paths "npm:../a//b" name target captured →
        Steady target.toList) ∧
      (dottedConfig.forEngine "/p" "lib/.").resolve? "npm:../a//b" "lib/." =
        some "/p/lib/packages/npm/../a//b.x" ∧
      dottedConfig.resolve? "npm:../a//b" "lib/." = some "lib/././packages//npm/../a//b.x" ∧
      SamePlace "/p".toList "/p/lib/packages/npm/../a//b.x".toList
        "lib/././packages//npm/../a//b.x".toList := by
  have hengine : (dottedConfig.forEngine "/p" "lib/.").resolve? "npm:../a//b" "lib/." =
      some "/p/lib/packages/npm/../a//b.x" := by decide +kernel
  have hsession : dottedConfig.resolve? "npm:../a//b" "lib/." =
      some "lib/././packages//npm/../a//b.x" := by decide +kernel
  have hsteady : ∀ name target captured,
      Chosen dottedConfig.paths "npm:../a//b" name target captured → Steady target.toList :=
    fun _ _ _ => steady_of_chosen_dotted
  obtain ⟨-, hagree⟩ := resolve?_forEngine_agree dottedConfig "/p" "lib/." "npm:../a//b"
    (by decide) (by decide) (by decide) hsteady
  exact ⟨hsteady, hengine, hsession, hagree _ _ hengine hsession⟩

end LoaderConfig

end BundleLedger
