import BundleLedger.Proofs.Bundle.Places

/-!
# Where a path leads

A path leads from a directory to a place, whatever is there: pieces that are empty or `.` are
skipped, `..` goes up, and names go down (`leads`). The pieces that are not skipped are its strides,
so a path leads where its strides do, and a path with components in a usual form has its strides in
another coat.

Results:

* `leads_eq`: a path leads where its strides lead.
* `strides_join`: the strides of a joined path are those of both sides.
* `components_absoluteDir`: the absolute form of a directory has the strides of the path to it.
* `components_ofComponents`: strides are written in one way.
-/
namespace BundleLedger.FilePath

open Disk (pointed stepPlace pointed_append)

/-! ## Joined paths -/

section

variable {left right path : List Char} {c : Char}

theorem join_cases (left right : List Char) : join left right = right ∨
    join left right = left ++ right ∨ join left right = left ++ '/' :: right := by
  unfold join
  split
  · exact .inl rfl
  · split
    · exact .inl rfl
    · split
      · exact .inr (.inl rfl)
      · exact .inr (.inr rfl)

theorem mem_join (h : c ∈ join left right) : c ∈ left ∨ c ∈ right ∨ c = '/' := by
  rcases join_cases left right with he | he | he <;> rw [he] at h
  · exact .inr (.inl h)
  · exact (List.mem_append.1 h).imp_right .inl
  · rcases List.mem_append.1 h with h | h
    · exact .inl h
    · exact .inr (List.mem_cons.1 h).symm

theorem join_ne_nil (left : List Char) (h : right ≠ []) : join left right ≠ [] := by
  rcases join_cases left right with he | he | he <;> simp [he, h]

theorem join_ne_nil_of_left (hleft : left ≠ []) (h : isAbsolute right = false) :
    join left right ≠ [] := by
  simp only [join, h, Bool.false_eq_true, if_false, if_neg hleft]
  split <;> simp [hleft]

theorem mem_of_mem_split {piece : List Char} (h : piece ∈ Text.split '/' path) (hc : c ∈ piece) :
    c ∈ path := by
  induction path generalizing piece with
  | nil =>
    rw [Text.split, List.mem_singleton] at h
    rwa [h] at hc
  | cons d path ih =>
    obtain ⟨first, rest, hsplit⟩ := List.exists_cons_of_ne_nil (Text.split_ne_nil '/' path)
    rw [hsplit] at ih
    rw [Text.split, hsplit] at h
    split at h
    · rcases List.mem_cons.1 h with rfl | h
      · cases hc
      · exact List.mem_cons_of_mem _ (ih h hc)
    · rcases List.mem_cons.1 h with rfl | h
      · rcases List.mem_cons.1 hc with rfl | hc
        · exact List.mem_cons_self
        · exact List.mem_cons_of_mem _ (ih List.mem_cons_self hc)
      · exact List.mem_cons_of_mem _ (ih (List.mem_cons_of_mem _ h) hc)

end

/-! ## Strides -/

/-- A piece of a path for which a step is taken. -/
def IsStride (piece : List Char) : Prop := piece ≠ [] ∧ piece ≠ ['.']

instance (piece : List Char) : Decidable (IsStride piece) := inferInstanceAs (Decidable (_ ∧ _))

/-- The pieces of a path for which steps are taken, `..` among them. -/
def strides (path : List Char) : List (List Char) := (Text.split '/' path).filter (IsStride ·)

/-- Where a path leads from a place; an absolute one starts at the root. -/
def leads (start : Place) (path : List Char) : Place :=
  pointed (if isAbsolute path then [] else start) (Text.split '/' path)

theorem pointed_filter (start : Place) (pieces : List (List Char)) :
    pointed start (pieces.filter (IsStride ·)) = pointed start pieces := by
  induction pieces generalizing start with
  | nil => rfl
  | cons piece pieces ih =>
    have hcons : pointed start (piece :: pieces) = pointed (stepPlace start piece) pieces := rfl
    by_cases h : IsStride piece
    · rw [List.filter_cons_of_pos (by simpa using h), hcons, ← ih]
      rfl
    · have hskipped : stepPlace start piece = start :=
        if_pos (by rwa [IsStride, ← not_or, not_not] at h)
      rw [List.filter_cons_of_neg (by simpa using h), hcons, hskipped, ih]

theorem leads_eq (start : Place) (path : List Char) :
    leads start path = pointed (if isAbsolute path then [] else start) (strides path) :=
  (pointed_filter _ _).symm

theorem strides_append (a b : List Char) : strides (a ++ '/' :: b) = strides a ++ strides b := by
  rw [strides, Text.split_append, List.filter_append]
  rfl

theorem strides_join (left : List Char) {right : List Char} (h : isAbsolute right = false) :
    strides (join left right) = strides left ++ strides right := by
  obtain ⟨above, hsplit, hleft⟩ := split_join left h
  rw [strides, hsplit, List.filter_append]
  rcases hleft with hleft | hleft <;> rw [strides, strides, hleft]
  have hempty : [([] : List Char)].filter (IsStride ·) = [] := rfl
  rw [List.filter_append, hempty, List.append_nil]

/-- A relative path with a directory before it leads from where the directory leads. -/
theorem leads_append {lead path : List Char} (hlead : lead ≠ [] → lead.getLast? = some '/')
    (hpath : isAbsolute path = false) (start : Place) :
    leads start (lead ++ path) = leads (leads start lead) path := by
  rcases eq_or_ne lead [] with rfl | hne
  · rfl
  · obtain ⟨init, rfl⟩ := List.getLast?_eq_some_iff.1 (hlead hne)
    have habsolute : isAbsolute (init ++ '/' :: path) = isAbsolute (init ++ ['/']) := by
      cases init <;> rfl
    have hstrides : strides (init ++ ['/']) = strides init :=
      (strides_append init []).trans (List.append_nil _)
    rw [List.append_assoc, List.singleton_append, leads_eq, leads_eq (leads _ _), leads_eq start,
      hpath, habsolute, hstrides, strides_append, pointed_append]
    rfl

theorem isStride_of_mem {path piece : List Char} (h : piece ∈ strides path) : IsStride piece := by
  simpa using (List.mem_filter.1 h).2

theorem slash_not_mem_of_mem_split {path piece : List Char} (h : piece ∈ Text.split '/' path) :
    '/' ∉ piece := by
  induction path generalizing piece with
  | nil => simp_all [Text.split]
  | cons c path ih =>
    obtain ⟨first, rest, hsplit⟩ := List.exists_cons_of_ne_nil (Text.split_ne_nil '/' path)
    rw [hsplit] at ih
    rw [Text.split, hsplit] at h
    split at h
    · rcases List.mem_cons.1 h with rfl | h
      · exact List.not_mem_nil
      · exact ih h
    · rename_i hc
      rcases List.mem_cons.1 h with rfl | h
      · rw [List.mem_cons, not_or]
        exact ⟨Ne.symm hc, ih List.mem_cons_self⟩
      · exact ih (List.mem_cons_of_mem _ h)

/-- A stride without a separator in it. -/
structure IsSegment (piece : List Char) : Prop where
  stride : IsStride piece
  slash : '/' ∉ piece

theorem isSegment_of_mem {path piece : List Char} (h : piece ∈ strides path) : IsSegment piece :=
  ⟨isStride_of_mem h, slash_not_mem_of_mem_split (List.mem_filter.1 h).1⟩

theorem IsSegment.isAbsolute {piece : List Char} (h : IsSegment piece) :
    FilePath.isAbsolute piece = false := by
  rw [← Bool.not_eq_true, FilePath.isAbsolute, beq_iff_eq]
  exact fun hhead => h.slash (List.mem_of_mem_head? hhead)

theorem IsSegment.strides {piece : List Char} (h : IsSegment piece) :
    FilePath.strides piece = [piece] := by
  rw [FilePath.strides, Text.split_of_not_mem h.slash]
  simp [h.stride]

/-! ## Components -/

def stride (piece : List Char) : Component := if piece = ['.', '.'] then .up else .name piece

theorem stride_injective : Function.Injective stride := by
  intro piece piece' h
  unfold stride at h
  split at h <;> split at h <;> simp_all

@[simp] theorem text_stride (piece : List Char) : (stride piece).text = piece := by
  unfold stride
  split
  · rename_i h
    rw [h]
    rfl
  · rfl

theorem component?_eq (piece : List Char) :
    component? piece = if IsStride piece then some (stride piece) else none := by
  by_cases h : IsStride piece
  · rw [if_pos h, component?, if_neg (by rwa [not_or]), stride]
    split <;> rfl
  · rw [if_neg h, component?, if_pos (by rwa [IsStride, ← not_or, not_not] at h)]

theorem filterMap_component? (pieces : List (List Char)) :
    pieces.filterMap component? = (pieces.filter (IsStride ·)).map stride := by
  induction pieces with
  | nil => rfl
  | cons piece pieces ih =>
    rw [List.filterMap_cons, component?_eq]
    by_cases h : IsStride piece <;> simp [h, ih]

theorem components_absolute {path : List Char} (h : isAbsolute path = true) :
    components path = .root :: (strides path).map stride := by
  rw [components, h, filterMap_component?]
  rfl

theorem ne_here_of_mem_strides {path : List Char} {c : Component}
    (h : c ∈ (strides path).map stride) : c ≠ .here := by
  obtain ⟨piece, -, rfl⟩ := List.mem_map.1 h
  unfold stride
  split <;> exact Component.noConfusion

/-- The components of a path without `.`. -/
theorem components_filter (path : List Char) : (components path).filter (· ≠ .here) =
    (if isAbsolute path then [.root] else []) ++ (strides path).map stride := by
  have hrest : ((strides path).map stride).filter (· ≠ .here) = (strides path).map stride :=
    List.filter_eq_self.2 fun c hc => by simpa using ne_here_of_mem_strides hc
  rw [components, filterMap_component?, List.filter_append]
  change _ ++ ((strides path).map stride).filter (· ≠ .here) = _
  rw [hrest]
  split
  · rfl
  · split <;> rfl

/-- Joining strides to a path adds them to its own. -/
theorem strides_foldl_join {pieces : List (List Char)} (h : ∀ piece ∈ pieces, IsSegment piece)
    (base : List Char) : strides (pieces.foldl join base) = strides base ++ pieces ∧
      isAbsolute (pieces.foldl join base) = isAbsolute base := by
  induction pieces generalizing base with
  | nil => simp
  | cons piece pieces ih =>
    rw [List.forall_mem_cons] at h
    obtain ⟨hstrides, habsolute⟩ := ih h.2 (join base piece)
    rw [List.foldl_cons, hstrides, habsolute, strides_join _ h.1.isAbsolute, h.1.strides,
      isAbsolute_join _ h.1.isAbsolute, List.append_assoc]
    exact ⟨rfl, rfl⟩

theorem foldl_join_stride (pieces : List (List Char)) (base : List Char) :
    (pieces.map stride).foldl (fun path c => join path c.text) base = pieces.foldl join base := by
  simp only [List.foldl_map, text_stride]

/-! ## Absolute forms -/

/-- The strides from the root to a directory. -/
def trail (workingDir path : List Char) : List (List Char) := strides (join workingDir path)

def placeOf (workingDir path : List Char) : Place := leads [] (join workingDir path)

variable {workingDir path : List Char}

theorem placeOf_eq (workingDir path : List Char) :
    placeOf workingDir path = pointed [] (trail workingDir path) := by
  rw [placeOf, leads_eq, ite_self, trail]

def formStart (workingDir path : List Char) : List Char :=
  if isAbsolute path then
    if ['/', '/'].isPrefixOf path && !(['/', '/', '/'].isPrefixOf path) then ['/', '/'] else ['/']
  else workingDir

theorem absolute?_eq (hpath : path ≠ []) : absolute? workingDir path =
    some (if path.getLast? = some '/' then
        join ((strides path).foldl join (formStart workingDir path)) []
      else (strides path).foldl join (formStart workingDir path)) := by
  have hroot : ofComponents (.root :: (strides path).map stride) = (strides path).foldl join ['/'] :=
    foldl_join_stride (strides path) ['/']
  rw [absolute?, if_neg hpath, components_filter, formStart]
  by_cases habsolute : isAbsolute path = true
  · simp only [habsolute, if_true, List.singleton_append, List.tail_cons, foldl_join_stride, hroot]
    split <;> split <;> rfl
  · simp only [habsolute, if_false, List.nil_append, foldl_join_stride, Bool.false_eq_true]
    split <;> rfl

theorem absolute?_spec (hwd : isAbsolute workingDir = true) (hpath : path ≠ []) :
    ∃ form, absolute? workingDir path = some form ∧ isAbsolute form = true ∧
      strides form = trail workingDir path := by
  have hsegments : ∀ piece ∈ strides path, IsSegment piece := fun _ => isSegment_of_mem
  obtain ⟨hstrides, habsolute⟩ := strides_foldl_join hsegments (formStart workingDir path)
  have hstart : isAbsolute (formStart workingDir path) = true ∧
      strides (formStart workingDir path) ++ strides path = trail workingDir path := by
    unfold formStart trail
    by_cases h : isAbsolute path = true
    · rw [if_pos h, join_absolute h]
      split <;> exact ⟨rfl, rfl⟩
    · rw [if_neg h, strides_join _ (by simpa using h)]
      exact ⟨hwd, rfl⟩
  rw [hstart.2] at hstrides
  rw [hstart.1] at habsolute
  refine ⟨_, absolute?_eq hpath, ?_, ?_⟩ <;> split
  · exact (isAbsolute_join _ rfl).trans habsolute
  · exact habsolute
  · rw [strides_join _ rfl, hstrides]
    exact List.append_nil _
  · exact hstrides

theorem ofComponents_root {pieces : List (List Char)} (h : ∀ piece ∈ pieces, IsSegment piece) :
    strides (ofComponents (.root :: pieces.map stride)) = pieces ∧
      isAbsolute (ofComponents (.root :: pieces.map stride)) = true := by
  have hroot : ofComponents (.root :: pieces.map stride) = pieces.foldl join ['/'] :=
    foldl_join_stride pieces ['/']
  rw [hroot]
  exact strides_foldl_join h ['/']

/-- The absolute form of a directory has the strides from the root to it. -/
theorem absoluteDir_spec (hwd : isAbsolute workingDir = true) (hpath : path ≠ []) :
    isAbsolute (absoluteDir workingDir path) = true ∧
      strides (absoluteDir workingDir path) = trail workingDir path := by
  obtain ⟨form, hform, habsolute, hstrides⟩ := absolute?_spec hwd hpath
  rw [absoluteDir, hform, Option.getD_some, components_filter, habsolute, if_pos rfl, hstrides]
  exact (ofComponents_root fun _ => isSegment_of_mem).symm

theorem components_absoluteDir (hwd : isAbsolute workingDir = true) (hpath : path ≠ []) :
    components (absoluteDir workingDir path) = .root :: (trail workingDir path).map stride := by
  obtain ⟨habsolute, hstrides⟩ := absoluteDir_spec hwd hpath
  rw [components_absolute habsolute, hstrides]

/-- A path begins as it did when more is joined to it. -/
theorem head?_split_foldl_join {pieces : List (List Char)} (h : ∀ piece ∈ pieces, IsSegment piece)
    {base first : List Char} (hfirst : first ≠ []) (hbase : (Text.split '/' base).head? = some first) :
    (Text.split '/' (pieces.foldl join base)).head? = some first := by
  induction pieces generalizing base with
  | nil => exact hbase
  | cons piece pieces ih =>
    rw [List.forall_mem_cons] at h
    refine ih h.2 ?_
    obtain ⟨above, hsplit, hleft⟩ := split_join base h.1.isAbsolute
    rw [hsplit]
    rcases hleft with hleft | hleft <;> rw [hleft] at hbase <;> cases above with
    | nil => simp_all
    | cons p above => exact hbase

/-- Strides are written in one way. -/
theorem components_ofComponents {pieces : List (List Char)} (h : ∀ piece ∈ pieces, IsSegment piece) :
    components (ofComponents (pieces.map stride)) = pieces.map stride := by
  obtain ⟨hstrides, habsolute⟩ := strides_foldl_join h []
  have hhere : (Text.split '/' (pieces.foldl join [])).head? ≠ some ['.'] := by
    cases pieces with
    | nil => decide
    | cons first pieces =>
      rw [List.forall_mem_cons] at h
      have hjoin : join [] first = first := join_empty_left first
      rw [List.foldl_cons, hjoin, head?_split_foldl_join h.2 h.1.stride.1
        (by rw [Text.split_of_not_mem h.1.slash]; rfl)]
      exact fun he => h.1.stride.2 (Option.some.inj he)
  rw [ofComponents, foldl_join_stride, components, habsolute, if_neg hhere, filterMap_component?]
  exact congrArg (List.map stride) hstrides

end BundleLedger.FilePath
