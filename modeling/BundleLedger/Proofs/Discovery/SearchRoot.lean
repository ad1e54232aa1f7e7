import BundleLedger.Proofs.Discovery.DeepSearch

/-!
# The way to the root of a search

The source root is spelled out in the pattern of a search. Where it has no character that is special in
a pattern, the search goes through its pieces as they stand, and the path from which it goes down
(`searchPath`) leads where the root leads. Only an empty piece behind nothing but `.` stops it, for the
path of the working directory is left out, and then there is no path at all (`Stumbles`).

Results:

* `walk_leadPieces`: the pieces lead where the root leads.
* `stepsFrom_pieces`: a search goes through them one by one.
* `stepsFrom_stumbles`: where it is stopped.
* `strides_searchPath`: the path from which a search goes down has the strides of the root.
* `finds_searchPath`: what it finds.
-/
namespace BundleLedger

open FilePath

namespace Text

theorem join_concat {sep piece : List Char} {pieces : List (List Char)} (h : pieces ≠ []) :
    join sep (pieces ++ [piece]) = join sep pieces ++ sep ++ piece := by
  induction pieces with
  | nil => exact absurd rfl h
  | cons first rest ih =>
    by_cases hrest : rest = []
    · simp [hrest, join]
    · rw [List.cons_append, join_cons_of_ne_nil _ _ (by simp), ih hrest,
        join_cons_of_ne_nil _ _ hrest]
      simp

end Text

namespace Discovery

variable {d : Disk} {base path : List Char} {place : Place}

/-! ## The pieces of the root -/

theorem closedPieces_of_absolute (h : isAbsolute base = true) :
    closedPieces base = [] :: leadPieces base := by
  have hhead : ∃ rest, closedPieces base = [] :: rest := by
    cases base with
    | nil => cases h
    | cons c base =>
      have hc : c = '/' := by simpa [isAbsolute] using h
      rw [closedPieces, Text.split, if_pos hc]
      split
      · exact ⟨_, List.dropLast_cons_of_ne_nil (Text.split_ne_nil '/' base)⟩
      · exact ⟨_, rfl⟩
  obtain ⟨rest, hrest⟩ := hhead
  rw [leadPieces, if_pos h, hrest]
  rfl

theorem strides_eq_filter (base : List Char) : strides base = (leadPieces base).filter (IsStride ·) := by
  have hclosed : strides base = (closedPieces base).filter (IsStride ·) := by
    rw [strides]
    rcases split_eq_closedPieces base with heq | heq <;> rw [heq]
    rw [List.filter_append]
    exact List.append_nil _
  rw [hclosed]
  cases habsolute : isAbsolute base with
  | true => rw [closedPieces_of_absolute habsolute]; rfl
  | false => rw [leadPieces, habsolute]; rfl

/-- A search goes the way to the root piece by piece. -/
theorem walk_leadPieces (h : d.resolve base = .ok place) :
    d.walk (d.startOf base) (leadPieces base) = .ok place := by
  obtain ⟨-, hwalk⟩ := Disk.resolve_eq_ok_iff.1 h
  have hclosed : d.walk (d.startOf base) (closedPieces base) = .ok place := by
    rcases split_eq_closedPieces base with heq | heq <;> rw [heq] at hwalk
    · exact hwalk
    · obtain ⟨between, hbetween, hend⟩ := Disk.exists_of_walk_append hwalk
      have hsame := Disk.walk_eq_ok hend
      rw [hbetween, hsame]
      rfl
  cases habsolute : isAbsolute base with
  | true =>
    rw [closedPieces_of_absolute habsolute] at hclosed
    rwa [Disk.walk_cons (Disk.passable_of_walk hclosed)] at hclosed
  | false =>
    rw [leadPieces, habsolute]
    exact hclosed

/-- The pieces take no more room than the root. -/
theorem byteLength_leadPieces (hne : leadPieces base ≠ []) :
    (if isAbsolute base then 1 else 0) + Text.byteLength (Text.join ['/'] (leadPieces base)) ≤
      Text.byteLength base := by
  have hseparator : Text.byteLength ['/'] = 1 := by decide
  have hclosed : closedPieces base ≠ [] →
      Text.byteLength (Text.join ['/'] (closedPieces base)) ≤ Text.byteLength base := by
    intro hclosed
    have hbase := congrArg Text.byteLength (Text.join_split '/' base)
    rcases split_eq_closedPieces base with heq | heq <;> rw [heq] at hbase
    · omega
    · rw [Text.join_concat hclosed] at hbase
      simp only [Text.byteLength_append] at hbase
      omega
  cases habsolute : isAbsolute base with
  | true =>
    rw [closedPieces_of_absolute habsolute] at hclosed
    have hle := hclosed (List.cons_ne_nil _ _)
    rw [Text.join_cons_of_ne_nil _ _ hne] at hle
    simp only [List.nil_append, Text.byteLength_append, hseparator] at hle
    simpa using hle
  | false =>
    rw [leadPieces, habsolute] at hne ⊢
    simpa using hclosed hne

/-! ## Steps that stand for themselves -/

theorem stepsFrom_literal {rest : List Pattern} (hrest : rest ≠ []) (fuel : Nat) (name path : List Char) :
    stepsFrom d (fuel + 1) (name.map .char :: rest) path =
      if (if dotNames.contains name then d.isDirectory path
          else d.exists? (String.ofList (child path name))) then
        stepsFrom d fuel rest (child path name) else [] := by
  rw [stepsFrom, Pattern.literal?_map_char]
  simp [hrest]

/-- A piece of a path that leads somewhere is passed. -/
theorem stepsFrom_piece {piece : List Char} {rest : List Pattern} (hrest : rest ≠ []) (fuel : Nat)
    (hpath : d.resolve path = .ok place) (hpass : d.Passable place piece) (hslash : '/' ∉ piece)
    (hnul : '\x00' ∉ piece) (hne : isHere path = true → piece ≠ [])
    (hlimit : Text.byteLength (child path piece) ≤ Disk.pathLimit) :
    d.resolve (child path piece) = .ok (Disk.stepPlace place piece) ∧
      stepsFrom d (fuel + 1) (piece.map .char :: rest) path =
        stepsFrom d fuel rest (child path piece) := by
  have hresolve := Disk.resolve_child hpath hpass hslash hnul hne hlimit
  refine ⟨hresolve, ?_⟩
  rw [stepsFrom_literal hrest, if_pos]
  split
  · exact isDirectory_of_resolve hpath hpass.1
  · rw [Disk.exists?, String.toList_ofList, hresolve]
    rfl

/-- Whether an empty piece follows on nothing but `.`. -/
def Stumbles (pieces : List (List Char)) : Prop := (pieces.dropWhile (· == ['.'])).head? = some []

instance (pieces : List (List Char)) : Decidable (Stumbles pieces) :=
  inferInstanceAs (Decidable (_ = _))

/-- Whether a search can go on through pieces from a path. -/
def GoesOn (path : List Char) (pieces : List (List Char)) : Prop :=
  isHere path = true ∧ ¬ Stumbles pieces ∨ Bare path

section GoesOn

variable {piece : List Char} {pieces : List (List Char)}

theorem GoesOn.ne_nil (h : GoesOn path (piece :: pieces)) (hhere : isHere path = true) : piece ≠ [] := by
  rintro rfl
  rcases h with ⟨-, hno⟩ | hbare
  · exact hno rfl
  · rw [isHere_of_bare hbare] at hhere
    cases hhere

theorem GoesOn.child (hpath : path ≠ []) (hslash : '/' ∉ piece) (h : GoesOn path (piece :: pieces)) :
    child path piece ≠ [] ∧ GoesOn (child path piece) pieces := by
  rcases h with ⟨hhere, hno⟩ | hbare
  · have hne : piece ≠ [] := GoesOn.ne_nil (.inl ⟨hhere, hno⟩) hhere
    rw [child_of_isHere hhere]
    refine ⟨hne, ?_⟩
    by_cases hdot : piece = ['.']
    · rw [hdot] at hno ⊢
      exact .inl ⟨isHere_dot, hno⟩
    · right
      rw [Bare, Text.split_of_not_mem hslash]
      simpa using hdot
  · rw [child_of_not_isHere (isHere_of_bare hbare)]
    exact ⟨join_ne_nil_of_left hpath (isAbsolute_of_not_mem hslash), .inr (bare_join hpath hbare hslash)⟩

theorem GoesOn.descend (hpath : path ≠ []) (hslash : ∀ piece ∈ pieces, '/' ∉ piece)
    (h : GoesOn path pieces) :
    descend path pieces ≠ [] ∧ (isHere (descend path pieces) = true ∨ Bare (descend path pieces)) := by
  induction pieces generalizing path with
  | nil => exact ⟨hpath, h.imp_left And.left⟩
  | cons piece pieces ih =>
    rw [List.forall_mem_cons] at hslash
    obtain ⟨hne, hnext⟩ := h.child hpath hslash.1
    exact ih hne hslash.2 hnext

end GoesOn

/-- A search goes through pieces one by one. -/
theorem stepsFrom_pieces {pieces : List (List Char)} {rest : List Pattern} (hrest : rest ≠ [])
    (fuel : Nat) {path : List Char} {place goal : Place} (hpath : d.resolve path = .ok place)
    (hwalk : d.walk place pieces = .ok goal) (hslash : ∀ piece ∈ pieces, '/' ∉ piece)
    (hnul : ∀ piece ∈ pieces, '\x00' ∉ piece) (hstart : GoesOn path pieces)
    (hlimit : pieces ≠ [] →
      room path + Text.byteLength (Text.join ['/'] pieces) ≤ Disk.pathLimit) :
    d.resolve (descend path pieces) = .ok goal ∧
      stepsFrom d (pieces.length + fuel) (pieces.map (·.map Token.char) ++ rest) path =
        stepsFrom d fuel rest (descend path pieces) := by
  induction pieces generalizing path place with
  | nil =>
    cases hwalk
    exact ⟨hpath, by rw [List.length_nil, Nat.zero_add]; rfl⟩
  | cons piece pieces ih =>
    have hnonempty : path ≠ [] := (Disk.resolve_eq_ok_iff.1 hpath).1.2.1
    have hpass := Disk.passable_of_walk hwalk
    rw [Disk.walk_cons hpass] at hwalk
    rw [List.forall_mem_cons] at hslash hnul
    have hlength := byteLength_child hnonempty hslash.1
    have hroom := room_le (child path piece)
    have hall := hlimit (List.cons_ne_nil _ _)
    have hshort : Text.byteLength (child path piece) ≤ Disk.pathLimit ∧ (pieces ≠ [] →
        room (child path piece) + Text.byteLength (Text.join ['/'] pieces) ≤ Disk.pathLimit) := by
      by_cases hne : pieces = []
      · rw [hne, Text.join] at hall
        exact ⟨by omega, fun h => absurd hne h⟩
      · have hseparator : Text.byteLength ['/'] = 1 := by decide
        rw [Text.join_cons_of_ne_nil _ _ hne, Text.byteLength_append, Text.byteLength_append,
          hseparator] at hall
        exact ⟨by omega, fun _ => by omega⟩
    have hmore : pieces.map (·.map Token.char) ++ rest ≠ [] := by simp [hrest]
    obtain ⟨hresolve, hstep⟩ := stepsFrom_piece hmore (pieces.length + fuel) hpath hpass hslash.1
      hnul.1 hstart.ne_nil hshort.1
    obtain ⟨hgoal, hsteps⟩ := ih hresolve hwalk hslash.2 hnul.2 (hstart.child hnonempty hslash.1).2
      hshort.2
    have hfuel : (piece :: pieces).length + fuel = pieces.length + fuel + 1 := by
      simp only [List.length_cons]
      omega
    exact ⟨hgoal, by rw [hfuel, List.map_cons, List.cons_append, hstep, hsteps, descend_cons]⟩

/-- An empty piece behind the working directory leads nowhere. -/
theorem stepsFrom_stumbles {pieces : List (List Char)} {rest : List Pattern} (hrest : rest ≠ [])
    {fuel : Nat} (hfuel : pieces.length ≤ fuel) (hhere : isHere path = true) (h : Stumbles pieces) :
    stepsFrom d fuel (pieces.map (·.map Token.char) ++ rest) path = [] := by
  induction pieces generalizing path fuel with
  | nil => cases h
  | cons piece pieces ih =>
    obtain ⟨fuel, rfl⟩ := Nat.exists_eq_add_one_of_ne_zero
      (by rw [List.length_cons] at hfuel; omega : fuel ≠ 0)
    have hmore : pieces.map (·.map Token.char) ++ rest ≠ [] := by simp [hrest]
    rw [List.map_cons, List.cons_append, stepsFrom_literal hmore, child_of_isHere hhere]
    by_cases hdot : piece = ['.']
    · rw [hdot] at h ⊢
      rw [ih (by simpa using hfuel) isHere_dot h, ite_self]
    · obtain rfl : piece = [] := by simpa [Stumbles, hdot] using h
      have hnowhere : d.exists? (String.ofList []) = false := rfl
      simp [dotNames, hnowhere]

/-! ## The whole search -/

def searchStart (base : List Char) : List Char := if isAbsolute base then ['/'] else ['.']

def searchPath (base : List Char) : List Char := descend (searchStart base) (leadPieces base)

def searchSteps (base : List Char) : List Pattern :=
  (leadPieces base).map (·.map Token.char) ++ [deepStep, entryStep]

theorem slash_not_mem_leadPieces {piece : List Char} (h : piece ∈ leadPieces base) : '/' ∉ piece :=
  slash_not_mem_of_mem_split (mem_split_of_mem_leadPieces h)

theorem searchStart_ne_nil (base : List Char) : searchStart base ≠ [] := by
  unfold searchStart
  split <;> exact List.cons_ne_nil _ _

theorem isHere_searchStart (h : isAbsolute base = false) : isHere (searchStart base) = true := by
  rw [searchStart, h]
  exact isHere_dot

/-- The path from which a search goes down has the strides of the root. -/
theorem strides_searchPath (base : List Char) :
    strides (searchPath base) = strides base ∧ isAbsolute (searchPath base) = isAbsolute base := by
  obtain ⟨hstrides, habsolute⟩ := strides_descend (fun _ => slash_not_mem_leadPieces) (searchStart base)
  rw [searchPath, hstrides, habsolute, ← strides_eq_filter, searchStart]
  cases isAbsolute base <;> exact ⟨rfl, rfl⟩

theorem searchPath_spec (h : GoesOn (searchStart base) (leadPieces base)) :
    searchPath base ≠ [] ∧ (isHere (searchPath base) = true ∨ Bare (searchPath base)) :=
  h.descend (searchStart_ne_nil base) fun _ => slash_not_mem_leadPieces

/-- From where a search begins, it can go the way of the root, if that begins anywhere. -/
theorem resolve_searchStart (h : d.resolve base = .ok place) :
    d.resolve (searchStart base) = .ok (d.startOf base) := by
  have hstart : d.node? (d.startOf base) = some .directory := by
    obtain ⟨-, hwalk⟩ := Disk.resolve_eq_ok_iff.1 h
    obtain ⟨piece, pieces, hsplit⟩ := List.exists_cons_of_ne_nil (Text.split_ne_nil '/' base)
    rw [hsplit] at hwalk
    exact (Disk.passable_of_walk hwalk).1
  unfold searchStart Disk.startOf at *
  rw [Disk.resolve_eq_ok_iff]
  split at hstart <;> rename_i habsolute
  · have hpass : d.Passable [] [] := ⟨hstart, .inl rfl⟩
    simp only [if_pos habsolute]
    refine ⟨by decide, ?_⟩
    change d.walk [] [[], []] = _
    rw [Disk.walk_cons hpass, Disk.stepPlace, if_pos (.inl rfl), Disk.walk_cons hpass]
    rfl
  · have hpass : d.Passable d.workingDir ['.'] := ⟨hstart, .inr (.inl rfl)⟩
    simp only [if_neg habsolute]
    refine ⟨by decide, ?_⟩
    change d.walk d.workingDir [['.']] = _
    rw [Disk.walk_cons hpass]
    rfl

/-- A search has fuel for its way to the root and for what lies below. -/
theorem fuelFor_searchSteps (d : Disk) (base : List Char) (place : Place) :
    ∃ fuel, fuelFor d (searchSteps base) = (leadPieces base).length + fuel ∧
      2 * d.countBelow place + 1 ≤ fuel := by
  have hcount : d.countBelow place ≤ d.nodes.length := List.countP_le_length
  have hlength : (searchSteps base).length = (leadPieces base).length + 2 := by simp [searchSteps]
  have hbelow : 2 * d.nodes.length ≤ 3 * ((leadPieces base).length + 2 + 1) * d.nodes.length :=
    Nat.mul_le_mul_right _ (by omega)
  rw [fuelFor, hlength, Nat.mul_add]
  exact ⟨_, (Nat.add_sub_of_le (by omega)).symm, by omega⟩

/-- Below a plain root each entry file is found once, whose directory the system takes the path of. -/
theorem finds_searchPath (hd : d.Tidy) (hbase : d.resolve base = .ok place)
    (hdir : d.node? place = some .directory) (hstart : GoesOn (searchStart base) (leadPieces base)) :
    Finds (searchPath base) (Reached d (searchPath base) place)
      (stepsFrom d (fuelFor d (searchSteps base)) (searchSteps base) (searchStart base)) := by
  obtain ⟨⟨hnul, -, hlimit⟩, -⟩ := Disk.resolve_eq_ok_iff.1 hbase
  obtain ⟨fuel, hfuel, hdeep⟩ := fuelFor_searchSteps d base place
  have hroom : room (searchStart base) = if isAbsolute base then 1 else 0 := by
    rw [searchStart]
    cases isAbsolute base <;> decide
  obtain ⟨hgoal, hsteps⟩ := stepsFrom_pieces (List.cons_ne_nil deepStep [entryStep]) fuel
    (resolve_searchStart hbase) (walk_leadPieces hbase) (fun _ => slash_not_mem_leadPieces)
    (fun piece hpiece hmem => hnul (mem_of_mem_split (mem_split_of_mem_leadPieces hpiece) hmem))
    hstart fun hne => hroom ▸ (byteLength_leadPieces hne).trans hlimit
  rw [hfuel, searchSteps, hsteps]
  exact finds_deep hd hdeep hgoal hdir

end Discovery

end BundleLedger
