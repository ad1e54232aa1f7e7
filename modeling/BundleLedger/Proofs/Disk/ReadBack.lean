import BundleLedger.Proofs.Disk.Frame

/-!
# A written file reads back

A path that can be written to does not end in a slash, so the path that is read afterwards has the
same names. All of them but the last lead through directories, which a write leaves standing.

Results:

* `walk_of_standing`: a walk goes the same way as long as what stands on it does.
* `readText_of_write`: what a successful write put at a path is what is read there.
* `readText_of_standing` and `Keeps.readText`: it is read there as long as it stands, and the
  directories on the way.
-/
namespace BundleLedger.Disk

variable {d d' : Disk}

theorem walk_append {start place : Place} {above : List (List Char)}
    (h : d.walk start above = .ok place) (below : List (List Char)) :
    d.walk start (above ++ below) = d.walk place below := by
  induction above generalizing start with
  | nil =>
    simp only [walk, Except.ok.injEq] at h
    rw [List.nil_append, h]
  | cons piece pieces ih =>
    have hpass := passable_of_walk h
    rw [walk_cons hpass] at h
    rw [List.cons_append, walk_cons hpass]
    exact ih h

/-- A walk goes the same way as long as the directories on it stand, and what it leads to. -/
theorem walk_of_standing {start place : Place} {pieces : List (List Char)}
    (hd : ∀ p ∈ passed start pieces, d.node? p = some .directory → d'.node? p = some .directory)
    (hend : (d.node? place).isSome → (d'.node? place).isSome)
    (h : d.walk start pieces = .ok place) : d'.walk start pieces = .ok place := by
  induction pieces generalizing start with
  | nil => exact h
  | cons piece pieces ih =>
    have hpass := passable_of_walk h
    rw [walk_cons hpass] at h
    simp only [passed, List.mem_cons, forall_eq_or_imp] at hd
    have hpass' : d'.Passable start piece := by
      refine ⟨hd.1 hpass.1, ?_⟩
      rcases hpass.2 with hp | hp | hp | ⟨hlimit, hnode⟩
      · exact .inl hp
      · exact .inr (.inl hp)
      · exact .inr (.inr (.inl hp))
      · by_cases hp : (piece = [] ∨ piece = ['.']) ∨ piece = ['.', '.']
        · rcases hp with (hp | hp) | hp <;> simp [hp]
        · rw [not_or] at hp
          have hstep : stepPlace start piece = start ++ [piece] := by
            rw [stepPlace, if_neg hp.1, if_neg hp.2]
          refine .inr (.inr (.inr ⟨hlimit, ?_⟩))
          rw [← hstep] at hnode ⊢
          -- what the name leads to is the end, or the walk goes on from there
          cases pieces with
          | nil =>
            simp only [walk, Except.ok.injEq] at h
            rw [h] at hnode ⊢
            exact hend hnode
          | cons p ps =>
            rw [hd.2 _ (start_mem_passed _ _) (passable_of_walk h).1]
            rfl
    rw [walk_cons hpass']
    exact ih hd.2 h

theorem walk_of_directories (hd : ∀ p, d.node? p = some .directory → d'.node? p = some .directory)
    {start place : Place} {pieces : List (List Char)} (h : d.walk start pieces = .ok place)
    (hplace : d.node? place = some .directory) : d'.walk start pieces = .ok place :=
  walk_of_standing (fun p _ => hd p) (fun _ => by rw [hd _ hplace]; rfl) h

theorem dropTrailing_of_getLast {p : Char → Bool} {s : List Char}
    (h : ∀ c, s.getLast? = some c → p c = false) : Text.dropTrailing p s = s := by
  rcases List.eq_nil_or_concat s with rfl | ⟨init, last, rfl⟩
  · rfl
  · have hl := h last (by simp)
    simp [Text.dropTrailing, hl]

theorem resolve_of_resolveNew {path name : List Char} {place : Place}
    (hslash : path.getLast? ≠ some '/') (h : d.resolveNew path = .ok (place, some name))
    (hwd : d'.workingDir = d.workingDir)
    (hd : ∀ p, d.node? p = some .directory → d'.node? p = some .directory)
    (hfile : (d'.node? (place ++ [name])).isSome) : d'.resolve path = .ok (place ++ [name]) := by
  have hdrop : Text.dropTrailing (· == '/') path = path := by
    refine dropTrailing_of_getLast fun c hc => ?_
    rw [beq_eq_false_iff_ne]
    rintro rfl
    exact hslash hc
  have hstart : d'.startOf path = d.startOf path := startOf_congr hwd path
  unfold resolveNew at h
  rw [hdrop] at h
  unfold resolve
  rw [hstart]
  cases hfault : pathFault? path with
  | some e => simp [hfault] at h
  | none =>
    rw [hfault] at h
    dsimp only at h ⊢
    split at h
    · cases h
    · rename_i last hlast
      obtain ⟨above, habove⟩ := List.getLast?_eq_some_iff.1 hlast
      rw [habove] at h ⊢
      rw [List.dropLast_concat] at h
      split at h
      · cases h
      · rename_i parent hwalk
        split at h
        · rename_i hparent
          split at h
          · simp at h
          · rename_i hplain
            split at h
            · cases h
            · rename_i hlimit
              simp only [Except.ok.injEq, Prod.mk.injEq, Option.some.injEq] at h
              obtain ⟨rfl, rfl⟩ := h
              simp only [not_or] at hplain
              have hpass : d'.Passable parent last :=
                ⟨hd _ hparent, .inr (.inr (.inr ⟨by omega, hfile⟩))⟩
              rw [walk_append (walk_of_directories hd hwalk hparent), walk_cons hpass]
              simp [walk, stepPlace, hplain]
        · cases h

/-- What was stored at a path stands there as a file. -/
theorem store_eq_ok {path : String} {content : Content} (h : d.store path content = .ok d') :
    ∃ place name executable, path.toList.getLast? ≠ some '/' ∧
      d.resolveNew path.toList = .ok (place, some name) ∧
      d' = d.put (place ++ [name]) (.file content executable) := by
  unfold store at h
  split at h
  · cases h
  · cases h
  · rename_i place name hr
    split at h
    · cases h
    · rename_i hslash
      split at h
      · cases h
      · rename_i executable _
        cases h
        exact ⟨place, name, executable, hslash, hr, rfl⟩
      · cases h
        exact ⟨place, name, false, hslash, hr, rfl⟩

theorem read_of_store {path : String} {content : Content} (h : d.store path content = .ok d') :
    d'.read path = .ok content := by
  have hext := store_extends h
  obtain ⟨place, name, executable, hslash, hr, rfl⟩ := store_eq_ok h
  have hne : place ++ [name] ≠ [] := by simp
  have hnode : (d.put (place ++ [name]) (.file content executable)).node? (place ++ [name]) =
      some (.file content executable) := by
    rw [node?_put d _ hne, if_pos rfl]
  have hres := resolve_of_resolveNew hslash hr hext.workingDir hext.directories (by simp [hnode])
  simp only [read, hres, hnode]

theorem readText_of_write {path text : String} (h : d.write path text = (.ok (), d')) :
    d'.readText path = .ok text := by
  unfold write at h
  split at h
  · cases h
  · split at h
    · rename_i hs
      simp only [Prod.mk.injEq, true_and] at h
      subst h
      simp [readText, read_of_store hs]
    · cases h

/-! ## Reading on -/

/-- The places on the way of a path, with both ends. -/
def way (d : Disk) (path : List Char) : List Place := passed (d.startOf path) (Text.split '/' path)

/-- Where a path leads, if it leads anywhere. -/
def led (d : Disk) (path : List Char) : Place := pointed (d.startOf path) (Text.split '/' path)

theorem readText_eq_ok {path text : String} :
    d.readText path = .ok text ↔ ∃ place executable, d.resolve path.toList = .ok place ∧
      d.node? place = some (.file (.text text) executable) := by
  unfold readText read
  cases hr : d.resolve path.toList with
  | error e => simp
  | ok place =>
    simp only [Except.ok.injEq, exists_and_left, exists_eq_left']
    rcases d.node? place with _ | _ | ⟨content, executable⟩
    · simp
    · simp
    · cases content <;> simp

theorem resolve_eq_ok {path : List Char} {place : Place} (h : d.resolve path = .ok place) :
    place = d.led path := by
  unfold resolve at h
  split at h
  · cases h
  · exact walk_eq_ok h

theorem resolve_of_standing {path : List Char} {place : Place} (hwd : d'.workingDir = d.workingDir)
    (hd : ∀ p ∈ d.way path, d.node? p = some .directory → d'.node? p = some .directory)
    (hend : (d.node? place).isSome → (d'.node? place).isSome) (h : d.resolve path = .ok place) :
    d'.resolve path = .ok place := by
  have hstart : d'.startOf path = d.startOf path := startOf_congr hwd path
  unfold resolve at h ⊢
  split at h
  · cases h
  · rw [hstart]
    exact walk_of_standing hd hend h

theorem readText_of_standing {path text : String} (hwd : d'.workingDir = d.workingDir)
    (hd : ∀ p ∈ d.way path.toList, d.node? p = some .directory → d'.node? p = some .directory)
    (hend : (d.node? (d.led path.toList)).isSome →
      d'.node? (d.led path.toList) = d.node? (d.led path.toList))
    (h : d.readText path = .ok text) : d'.readText path = .ok text := by
  obtain ⟨place, executable, hr, hnode⟩ := readText_eq_ok.1 h
  rw [← resolve_eq_ok hr] at hend
  have hnode' : d'.node? place = d.node? place := hend (by rw [hnode]; rfl)
  refine readText_eq_ok.2 ⟨place, executable, ?_, hnode' ▸ hnode⟩
  exact resolve_of_standing hwd hd (fun hs => by rwa [hnode']) hr

theorem led_congr (hwd : d'.workingDir = d.workingDir) (path : List Char) :
    d'.led path = d.led path := by
  rw [led, led, startOf_congr hwd]

/-- A text is read as before after operations that left its place alone. -/
theorem Keeps.readText {places : List Place} (h : Keeps places d d') {path text : String}
    (hp : d.led path.toList ∉ places) (hr : d.readText path = .ok text) :
    d'.readText path = .ok text :=
  readText_of_standing h.workingDir (fun p _ => h.directories p) (h.standing _ hp) hr

/-- A component stays one as long as nothing is gone. -/
theorem Remains.isComponent (h : Remains d d') {base : String} {dir : List Char}
    (hc : d.isComponent base dir = true) : d'.isComponent base dir = true := by
  simp only [Disk.isComponent, exists?, Bool.and_eq_true] at hc ⊢
  refine ⟨hc.1, ?_⟩
  cases hr : d.resolve (entryPath base dir).toList with
  | error e =>
    rw [hr] at hc
    cases hc.2
  | ok place =>
    rw [resolve_of_standing h.workingDir (fun p _ => h.directories p) (h.nodes place) hr]
    rfl

end BundleLedger.Disk
