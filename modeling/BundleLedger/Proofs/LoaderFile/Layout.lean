import BundleLedger.Proofs.LoaderFile.Lines

/-!
# The layout of the configuration file

The two rules of the writer are key rules, so the text of the file has the lines of the indented
object, with other leads on the lines that the rules reach: those of word characters stand bare, and a
blank line stands in front of those that begin a block (`Line.form`). Where lines are indented, these
are the lines of the outermost members.

Results:

* `encode_append_quote`: what stands between quotes as it is is the text itself.
* `renderChars_eq_lines`: the text of the file, line by line.
* `renderChars_eq`: the text of the file, with the outermost keys as they are in the end.
-/
namespace BundleLedger.LoaderConfig

open Json Json.Value

/-! ## Quoted keys -/

/-- A text without escapes between quotes stands for itself. -/
theorem encode_append_quote {s plain rest rest' : List Char}
    (hplain : ∀ c ∈ plain, c ≠ '\\' ∧ c ≠ '"')
    (h : encode s ++ '"' :: rest = plain ++ '"' :: rest') : s = plain ∧ rest = rest' := by
  induction s generalizing plain with
  | nil =>
    cases plain with
    | nil => simpa [encode] using h
    | cons d plain =>
      simp only [encode, List.flatMap_nil, List.nil_append, List.cons_append, List.cons.injEq] at h
      exact absurd h.1.symm (hplain d List.mem_cons_self).2
  | cons c s ih =>
    have hcons : encode (c :: s) = encodeChar c ++ encode s := by simp [encode]
    rw [hcons] at h
    unfold encodeChar at h
    split at h
    · -- an escaped character begins with a backslash, which stands nowhere in `plain`
      cases plain with
      | nil => simp at h
      | cons d plain =>
        simp only [List.cons_append, List.cons.injEq] at h
        exact absurd h.1.symm (hplain d List.mem_cons_self).1
    · rename_i hshort
      split at h
      · cases plain with
        | nil => simp at h
        | cons d plain =>
          simp only [List.cons_append, List.cons.injEq] at h
          exact absurd h.1.symm (hplain d List.mem_cons_self).1
      · cases plain with
        | nil =>
          simp only [List.cons_append, List.nil_append, List.cons.injEq] at h
          rw [h.1] at hshort
          simp [shortEscape?] at hshort
        | cons d plain =>
          simp only [List.cons_append, List.nil_append, List.cons.injEq] at h
          obtain ⟨hs, hrest⟩ := ih (fun c hc => hplain c (List.mem_cons_of_mem _ hc)) h.2
          exact ⟨by rw [h.1, hs], hrest⟩

theorem isWord_plain {c : Char} (h : Text.isWord c = true) : c ≠ '\\' ∧ c ≠ '"' ∧ 48 ≤ c.toNat := by
  have hfirst : ∀ range ∈ Text.wordRanges.toList, 48 ≤ range.1 := by decide +kernel
  obtain ⟨range, hmem, hle, -⟩ := Text.Ranges.bisect_mem h
  have hnat : 48 ≤ c.toNat := Nat.le_trans (hfirst range hmem) hle
  refine ⟨?_, ?_, hnat⟩
  · rintro rfl
    revert h
    decide +kernel
  · rintro rfl
    revert hnat
    decide

theorem encode_of_isWord {s : List Char} (h : ∀ c ∈ s, Text.isWord c = true) : encode s = s := by
  induction s with
  | nil => rfl
  | cons c s ih =>
    obtain ⟨hb, hq, hnat⟩ := isWord_plain (h c List.mem_cons_self)
    have hne : ∀ d : Char, d.toNat < 48 → c ≠ d := by
      rintro d hd rfl
      omega
    have hshort : shortEscape? c = none := by
      simp [shortEscape?, hb, hq, hne '\x08' (by decide), hne '\x0c' (by decide),
        hne '\n' (by decide), hne '\r' (by decide), hne '\t' (by decide)]
    have hc : encodeChar c = [c] := by
      simp only [encodeChar, hshort]
      rw [if_neg (by omega)]
    have hs := ih fun d hd => h d (List.mem_cons_of_mem _ hd)
    rw [encode, List.flatMap_cons, hc, ← encode, hs, List.singleton_append]

theorem blockKeys_isWord : ∀ key ∈ blockKeys, ∀ c ∈ key.toList, Text.isWord c = true := by
  have hall : ∀ key ∈ blockKeys, key.toList.all Text.isWord = true := by decide +kernel
  exact fun key hkey => List.all_eq_true.1 (hall key hkey)

/-! ## The two rules -/

theorem blockKey?_eq_some {tab s key rest : List Char} (h : blockKey? tab s = some (key, rest)) :
    ∃ k ∈ blockKeys, key = k.toList ∧ s = tab ++ '"' :: (key ++ '"' :: rest) := by
  simp only [blockKey?, Option.bind_eq_bind, Option.bind_eq_some_iff,
    List.isPrefixOf?_eq_some_iff_append_eq, List.findSome?_eq_some_iff, Option.pure_def,
    Option.some.injEq, Prod.mk.injEq] at h
  obtain ⟨s₁, rfl, s₂, rfl, before, k, after, hk, ⟨s₃, rfl, s₄, rfl, rfl, rfl⟩, -⟩ := h
  exact ⟨k, by simp [hk], rfl, by simp⟩

theorem blockKey?_of_mem {key : String} (hkey : key ∈ blockKeys) (tab rest : List Char) :
    blockKey? tab (tab ++ '"' :: (key.toList ++ '"' :: rest)) = some (key.toList, rest) := by
  have hsome : (blockKey? tab (tab ++ '"' :: (key.toList ++ '"' :: rest))).isSome := by
    simp only [blockKey?, ModuleName.isPrefixOf?_append, Option.bind_eq_bind, Option.bind_some]
    rw [show '"' :: (key.toList ++ '"' :: rest) = ['"'] ++ (key.toList ++ ['"'] ++ rest) by simp,
      ModuleName.isPrefixOf?_append, Option.bind_some, List.findSome?_isSome_iff]
    refine ⟨key, hkey, ?_⟩
    rw [List.append_assoc, ModuleName.isPrefixOf?_append, Option.bind_some,
      ModuleName.isPrefixOf?_append]
    rfl
  obtain ⟨⟨key', rest'⟩, hfound⟩ := Option.isSome_iff_exists.1 hsome
  obtain ⟨k, hk, rfl, heq⟩ := blockKey?_eq_some hfound
  rw [List.append_cancel_left_eq, List.cons.injEq] at heq
  have hplain : ∀ c ∈ k.toList, c ≠ '\\' ∧ c ≠ '"' := fun c hc =>
    have hc := isWord_plain (blockKeys_isWord k hk c hc)
    ⟨hc.1, hc.2.1⟩
  have h := heq.2
  rw [← encode_of_isWord (blockKeys_isWord key hkey)] at h
  obtain ⟨hs, rfl⟩ := encode_append_quote hplain h
  rw [hfound, hs]

theorem wordKey?_eq_some {tab s key rest : List Char} (h : wordKey? tab s = some (key, rest)) :
    key ≠ [] ∧ (∀ c ∈ key, Text.isWord c = true) ∧ s = tab ++ '"' :: (key ++ '"' :: rest) := by
  simp only [wordKey?, Option.bind_eq_bind, Option.bind_eq_some_iff,
    List.isPrefixOf?_eq_some_iff_append_eq] at h
  obtain ⟨s₁, rfl, s₂, rfl, h⟩ := h
  split at h
  · cases h
  · rename_i hne
    simp only [Option.bind_eq_some_iff, List.isPrefixOf?_eq_some_iff_append_eq, Option.pure_def,
      Option.some.injEq, Prod.mk.injEq] at h
    obtain ⟨s₃, hdrop, rfl, rfl⟩ := h
    refine ⟨hne, fun c hc => List.all_eq_true.1 List.all_takeWhile c hc, ?_⟩
    have hs : s₂.takeWhile Text.isWord ++ s₂.dropWhile Text.isWord = s₂ :=
      List.takeWhile_append_dropWhile
    rw [← hdrop] at hs
    simpa using hs.symm

theorem wordKey?_of_isWord {key : List Char} (hne : key ≠ []) (h : ∀ c ∈ key, Text.isWord c = true)
    (tab rest : List Char) : wordKey? tab (tab ++ '"' :: (key ++ '"' :: rest)) = some (key, rest) := by
  have hstop : ¬ Text.isWord '"' = true := by decide +kernel
  have htake : (key ++ '"' :: rest).takeWhile Text.isWord = key := by
    rw [List.takeWhile_append_of_pos h, List.takeWhile_cons_of_neg hstop, List.append_nil]
  have hdrop : (key ++ '"' :: rest).dropWhile Text.isWord = '"' :: rest := by
    rw [List.dropWhile_append_of_pos h, List.dropWhile_cons_of_neg hstop]
  have hquote : ∀ s : List Char, ['"'].isPrefixOf? ('"' :: s) = some s := fun s =>
    ModuleName.isPrefixOf?_append ['"'] s
  unfold wordKey?
  simp only [ModuleName.isPrefixOf?_append, Option.bind_eq_bind, Option.bind_some, hquote, htake,
    hdrop, if_neg hne]
  rfl

def separating (tab s : List Char) : Option (List Char × List Char) :=
  (blockKey? tab s).map fun (key, rest) => ('\n' :: tab ++ key, rest)

/-- The rule that takes quotes away. -/
def unquoting (tab s : List Char) : Option (List Char × List Char) :=
  (wordKey? tab s).map fun (key, rest) => (tab ++ key, rest)

section

variable {tab : List Char} {find : List Char → Option (List Char × List Char)}
  {write : List Char → List Char}

/-- What finds a quoted key after the indentation makes a key rule. -/
theorem isKeyRule_of_find
    (hfind : ∀ s key rest, find s = some (key, rest) → s = tab ++ '"' :: (key ++ '"' :: rest)) :
    IsKeyRule tab fun s => (find s).map fun (key, rest) => (write key, rest) := by
  constructor
  · intro s written rest h
    obtain ⟨⟨key, rest'⟩, hk, he⟩ := Option.map_eq_some_iff.1 h
    cases he
    rw [hfind s key rest hk]
    simp
    omega
  · intro s found h
    obtain ⟨⟨key, rest⟩, hk, -⟩ := Option.map_eq_some_iff.1 h
    exact ⟨_, hfind s key rest hk⟩

end

theorem isKeyRule_separating (tab : List Char) : IsKeyRule tab (separating tab) :=
  isKeyRule_of_find fun _ _ _ h => by
    obtain ⟨k, -, -, hs⟩ := blockKey?_eq_some h
    exact hs

theorem isKeyRule_unquoting (tab : List Char) : IsKeyRule tab (unquoting tab) :=
  isKeyRule_of_find fun _ _ _ h => (wordKey?_eq_some h).2.2

/-! ## Outermost keys -/

/-- What stands in front of the colon of an outermost member once blocks are separated. -/
def blockLead (tab : List Char) (key : String) : List Char :=
  if key ∈ blockKeys then '\n' :: tab ++ key.toList else quotedLead tab 1 key

/-- Whether a key loses its quotes. -/
def IsBare (key : String) : Prop := key.toList ≠ [] ∧ ∀ c ∈ key.toList, Text.isWord c = true

instance (key : String) : Decidable (IsBare key) :=
  decidable_of_iff ((!key.toList.isEmpty && key.toList.all Text.isWord) = true) (by simp [IsBare])

/-- What stands in front of the colon of an outermost member in the end. -/
def finalLead (tab : List Char) (key : String) : List Char :=
  if key ∈ blockKeys then '\n' :: tab ++ key.toList
  else if IsBare key then tab ++ key.toList
  else quotedLead tab 1 key

theorem quotedLead_one (tab : List Char) (key : String) :
    quotedLead tab 1 key = tab ++ quote key.toList := by
  simp [quotedLead]

/-- A key that is found without escapes is the key that stands there. -/
theorem eq_of_quotedLead {tab found rest s : List Char} {key : String}
    (hplain : ∀ c ∈ found, Text.isWord c = true)
    (h : quotedLead tab 1 key ++ s = tab ++ '"' :: (found ++ '"' :: rest)) :
    key.toList = found ∧ s = rest := by
  rw [quotedLead_one, List.append_assoc, List.append_cancel_left_eq, quote] at h
  simp only [List.cons_append, List.append_assoc, List.nil_append, List.cons.injEq, true_and] at h
  refine encode_append_quote (fun c hc => ?_) h
  obtain ⟨hback, hquote, -⟩ := isWord_plain (hplain c hc)
  exact ⟨hback, hquote⟩

theorem quotedLead_of_isWord {key : String} (h : ∀ c ∈ key.toList, Text.isWord c = true)
    (tab s : List Char) :
    quotedLead tab 1 key ++ s = tab ++ '"' :: (key.toList ++ '"' :: s) := by
  simp [quotedLead_one, quote, encode_of_isWord h]

variable {tab : List Char}

/-- Where a rule does not match, the quoted key stays. -/
theorem edit_quotedLead {rule : List Char → Option (List Char × List Char)} (hb : IsBlank tab)
    {key : String} {s : List Char} (h : rule (quotedLead tab 1 key ++ s) = none) :
    edit rule true (quotedLead tab 1 key ++ s) = quotedLead tab 1 key ++ edit rule false s := by
  have hline : '\n' ∉ quotedLead tab 1 key := by
    rw [quotedLead_one, List.mem_append, not_or]
    exact ⟨hb.newline_not_mem, newline_not_mem_quote _⟩
  exact edit_line hline h

theorem edit_separating (hb : IsBlank tab) (key : String) (s : List Char) :
    edit (separating tab) true (quotedLead tab 1 key ++ s) =
      blockLead tab key ++ edit (separating tab) false s := by
  by_cases hkey : key ∈ blockKeys
  · rw [blockLead, if_pos hkey]
    refine edit_of_some (isKeyRule_separating tab).shrinks ?_
    rw [separating, quotedLead_of_isWord (blockKeys_isWord key hkey), blockKey?_of_mem hkey]
    rfl
  · rw [blockLead, if_neg hkey]
    refine edit_quotedLead hb ?_
    rw [separating, Option.map_eq_none_iff, Option.eq_none_iff_forall_not_mem]
    rintro ⟨found, rest⟩ hfound
    obtain ⟨k, hk, rfl, heq⟩ := blockKey?_eq_some hfound
    have hs := (eq_of_quotedLead (blockKeys_isWord k hk) heq).1
    rw [String.toList_inj] at hs
    exact hkey (hs ▸ hk)

theorem edit_unquoting (hb : IsBlank tab) (key : String) (s : List Char) :
    edit (unquoting tab) true (blockLead tab key ++ s) =
      finalLead tab key ++ edit (unquoting tab) false s := by
  have hrule := isKeyRule_unquoting tab
  by_cases hkey : key ∈ blockKeys
  · -- the blank line holds no quote, and neither does the line of the key any more
    rw [blockLead, finalLead, if_pos hkey, if_pos hkey]
    have hword := blockKeys_isWord key hkey
    have hfirst : unquoting tab ('\n' :: (tab ++ key.toList ++ s)) = none :=
      hrule.eq_none_of_head hb (by decide) (by decide)
    obtain ⟨c, rest, hc⟩ : ∃ c rest, key.toList = c :: rest := by
      have hall : ∀ key ∈ blockKeys, key.toList ≠ [] := by decide
      exact List.exists_cons_of_ne_nil (hall key hkey)
    have hsecond : unquoting tab (tab ++ key.toList ++ s) = none := by
      have hne : c ≠ '"' := (isWord_plain (hword c (by simp [hc]))).2.1
      rw [hc, List.append_assoc]
      exact hrule.eq_none hne
    have hline : '\n' ∉ tab ++ key.toList := by
      rw [List.mem_append, not_or]
      refine ⟨hb.newline_not_mem, fun hm => ?_⟩
      have := (isWord_plain (hword _ hm)).2.2
      revert this
      decide
    rw [List.cons_append, List.cons_append, edit_of_none hfirst, beq_self_eq_true,
      edit_line hline hsecond]
    rfl
  · rw [blockLead, finalLead, if_neg hkey, if_neg hkey]
    by_cases hbare : IsBare key
    · rw [if_pos hbare]
      refine edit_of_some hrule.shrinks ?_
      rw [unquoting, quotedLead_of_isWord hbare.2, wordKey?_of_isWord hbare.1 hbare.2]
      rfl
    · rw [if_neg hbare]
      refine edit_quotedLead hb ?_
      rw [unquoting, Option.map_eq_none_iff, Option.eq_none_iff_forall_not_mem]
      rintro ⟨found, rest⟩ hfound
      obtain ⟨hne, hword, heq⟩ := wordKey?_eq_some hfound
      obtain ⟨rfl, -⟩ := eq_of_quotedLead hword heq
      exact hbare ⟨hne, hword⟩

/-! ## The lines of the file -/

theorem isBare_of_mem_blockKeys {key : String} (h : key ∈ blockKeys) : IsBare key := by
  have hall : ∀ key ∈ blockKeys, IsBare key := by decide +kernel
  exact hall key h

def Line.form (tab : List Char) (l : Line) : Form where
  blank := (l.reached tab).any fun key => decide (key ∈ blockKeys)
  bare := (l.reached tab).any fun key => decide (IsBare key)

def Line.blockForm (tab : List Char) (l : Line) : Form where
  blank := (l.form tab).blank
  bare := (l.form tab).blank

abbrev filed (tab : List Char) (l : Line) : List Char := l.written tab (l.form tab)

theorem Line.form_of_unreached {l : Line} (h : l.reached tab = none) : l.form tab = .plain := by
  simp [Line.form, h, Form.plain]

section

variable {l : Line} {key : String}

/-- On a line that is reached, one unit of indentation stands in front of the lead. -/
theorem Line.written_of_reached (h : l.reached tab = some key) (f : Form) :
    l.written tab f = (if f.blank then ['\n'] else []) ++
      (tab ++ ((if f.bare then key.toList else quote key.toList) ++ l.rest)) := by
  unfold Line.reached at h
  split at h
  · rename_i hunit
    have hindent : indentation tab l.level = tab := by
      rcases hunit with hlevel | rfl
      · rw [hlevel, indentation_succ, indentation_zero, List.append_nil]
      · simp [indentation]
    rw [Line.written, hindent, Line.leading, h]
  · cases h

theorem printed_of_reached (h : l.reached tab = some key) :
    printed tab l = quotedLead tab 1 key ++ l.rest := by
  rw [printed, Line.written_of_reached h, quotedLead_one]
  simp [Form.plain]

theorem blockForm_of_reached (h : l.reached tab = some key) :
    l.written tab (l.blockForm tab) = blockLead tab key ++ l.rest := by
  rw [Line.written_of_reached h, blockLead]
  by_cases hkey : key ∈ blockKeys
  · simp [Line.blockForm, Line.form, h, hkey]
  · simp [Line.blockForm, Line.form, h, hkey, quotedLead_one]

theorem filed_of_reached (h : l.reached tab = some key) :
    filed tab l = finalLead tab key ++ l.rest := by
  rw [filed, Line.written_of_reached h, finalLead]
  by_cases hkey : key ∈ blockKeys
  · simp [Line.form, h, hkey, isBare_of_mem_blockKeys hkey]
  · by_cases hbare : IsBare key <;> simp [Line.form, h, hkey, hbare, quotedLead_one]

end

theorem edit_separating_line (hb : IsBlank tab) {l : Line} (hl : l.Sound) (s : List Char) :
    edit (separating tab) true (printed tab l ++ s) =
      l.written tab (l.blockForm tab) ++ edit (separating tab) false s := by
  cases hreached : l.reached tab with
  | none =>
    rw [(isKeyRule_separating tab).edit_unreached hb hl hreached, Line.blockForm,
      Line.form_of_unreached hreached]
    rfl
  | some key =>
    rw [printed_of_reached hreached, blockForm_of_reached hreached, List.append_assoc,
      edit_separating hb, edit_append hl.oneLine, List.append_assoc]

theorem edit_unquoting_line (hb : IsBlank tab) {l : Line} (hl : l.Sound) (s : List Char) :
    edit (unquoting tab) true (l.written tab (l.blockForm tab) ++ s) =
      filed tab l ++ edit (unquoting tab) false s := by
  cases hreached : l.reached tab with
  | none =>
    have hplain : l.blockForm tab = .plain := by
      rw [Line.blockForm, Line.form_of_unreached hreached]
      rfl
    rw [hplain, filed, Line.form_of_unreached hreached]
    exact (isKeyRule_unquoting tab).edit_unreached hb hl hreached s
  | some key =>
    rw [blockForm_of_reached hreached, filed_of_reached hreached, List.append_assoc,
      edit_unquoting hb, edit_append hl.oneLine, List.append_assoc]

/-! ## The file -/

def lines (c : LoaderConfig) : List Line := documentLines c.toValue

theorem separateBlocks_eq (tab s : List Char) : separateBlocks tab s = edit (separating tab) true s :=
  rfl

theorem unquote_eq (tab s : List Char) : unquote tab s = edit (unquoting tab) true s := rfl

theorem lines_ne_nil (c : LoaderConfig) : c.lines ≠ [] := List.cons_ne_nil _ _

theorem newLine_pretty_eq_lines (tab : List Char) (c : LoaderConfig) :
    '\n' :: c.toValue.pretty tab 0 = broken (printed tab) c.lines :=
  newLine_pretty_eq_broken tab c.toValue

/-- The object in the file. -/
theorem unquote_separateBlocks_eq (hb : IsBlank tab) (c : LoaderConfig) :
    unquote tab (separateBlocks tab (c.toValue.pretty tab 0)) = joined (filed tab) c.lines := by
  have hsound : ∀ l ∈ c.lines, l.Sound := sound_documentLines c.entries
  have hseparated : edit (separating tab) false (broken (printed tab) c.lines) =
      broken (fun l => l.written tab (l.blockForm tab)) c.lines :=
    edit_broken fun l hl => edit_separating_line hb (hsound l hl)
  have hunquoted : edit (unquoting tab) false
      (broken (fun l => l.written tab (l.blockForm tab)) c.lines) = broken (filed tab) c.lines :=
    edit_broken fun l hl => edit_unquoting_line hb (hsound l hl)
  -- a line break in front makes the text one of lines that begin with a line break
  rw [← newLine_pretty_eq_lines, edit_cons, beq_self_eq_true, ← separateBlocks_eq] at hseparated
  rw [← hseparated, edit_cons, beq_self_eq_true, ← unquote_eq] at hunquoted
  have hjoined := broken_eq_joined (filed tab) c.lines_ne_nil
  exact (List.cons.inj (hunquoted.trans hjoined)).2

theorem renderChars_eq_lines (hb : IsBlank tab) (c : LoaderConfig) :
    c.renderChars tab =
      "System.config(".toList ++ joined (filed tab) c.lines ++ [')', ';', '\n'] := by
  unfold renderChars
  rw [unquote_separateBlocks_eq hb]

/-! ## The outermost members -/

/-- Behind a unit of indentation that is not empty, nothing changes inside of the outermost values. -/
theorem filed_inner (ht : IsTab tab) {v : Value} {level : Nat} {stop : List Char} (h : '\n' ∉ stop) :
    ∀ l ∈ inner (level + 1) stop v, filed tab l = printed tab l := by
  intro l hl
  have hreached : l.reached tab = none := by
    rcases (below_inner v _ _ h l hl).further with hlead | hlevel
    · simp [Line.reached, hlead]
    · have hne : ¬ (l.level = 1 ∨ tab = []) := by
        rintro (h | h)
        · omega
        · exact ht.ne_nil h
      rw [Line.reached, if_neg hne]
  rw [filed, Line.form_of_unreached hreached]

theorem comma_broken_filed (ht : IsTab tab) (members : Members) :
    comma members ++ broken (filed tab) (memberLines 1 members) =
      laidMembers tab (finalLead tab) 1 members := by
  induction members with
  | nil => simp [memberLines, laidMembers]
  | cons m members ih =>
    obtain ⟨key, value⟩ := m
    have hvalue := opening_broken_inner tab value 1 (comma members)
    rw [← broken_congr (filed_inner ht (newline_not_mem_comma members))] at hvalue
    have hfirst : filed tab ⟨1, some key, ':' :: ' ' :: opening (comma members) value⟩ =
        finalLead tab key ++ ':' :: ' ' :: opening (comma members) value :=
      filed_of_reached (by simp [Line.reached])
    simp only [memberLines, laidMembers, broken_cons, broken_append, comma_cons, hfirst, ← ih]
    simp only [List.cons_append, List.append_assoc, List.nil_append]
    rw [← List.append_assoc (opening _ _), hvalue, List.append_assoc]

theorem joined_filed_eq_laid (ht : IsTab tab) (c : LoaderConfig) :
    joined (filed tab) c.lines = laidObject tab (finalLead tab) 0 c.entries := by
  have hjoined := broken_eq_joined (filed tab) c.lines_ne_nil
  have hbrace : ∀ rest, filed tab ⟨0, none, rest⟩ = rest := fun rest => by
    rw [filed, Line.form_of_unreached (by simp [Line.reached])]
    simp [Line.written, Line.leading, Form.plain]
  suffices hbroken : broken (filed tab) c.lines =
      '\n' :: laidObject tab (finalLead tab) 0 c.entries from
    (List.cons.inj (hjoined.symm.trans hbroken)).2
  rw [lines, toValue, documentLines, broken_cons, hbrace]
  cases hentries : c.entries with
  | nil => simp [opening, inner, laidObject, compact]
  | cons m members =>
    have hmembers := comma_broken_filed ht (m :: members)
    simp only [comma_cons, laidMembers, List.cons_append, List.nil_append, List.cons.injEq,
      true_and] at hmembers
    simp [opening, inner, laidObject, hmembers, hbrace, newLine_eq]

/-- The text of the file, with the outermost keys as they are in the end. -/
theorem renderChars_eq (ht : IsTab tab) (c : LoaderConfig) :
    c.renderChars tab =
      "System.config(".toList ++ (laidObject tab (finalLead tab) 0 c.entries ++ [')', ';', '\n']) := by
  rw [renderChars_eq_lines ht.blank, joined_filed_eq_laid ht, List.append_assoc]

end BundleLedger.LoaderConfig
