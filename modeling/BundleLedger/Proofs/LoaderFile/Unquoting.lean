import BundleLedger.Proofs.LoaderFile.ConfigCall

/-!
# Which texts lose their quotes

The file is meant to be the indented object with two changes: a blank line in front of each block of
the outermost level, and no quotes around the outermost keys that are names (`Line.Allows`). All other
texts keep their quotes, whatever they consist of.

The rules take word characters for names, although no name begins with a digit, and behind an empty
unit of indentation they reach the lines inside of the outermost values as well. So the file is as it
is meant to be if and only if all outermost keys of word characters are names and, where nothing is
indented, no key and no item inside consists of word characters.

That there is no other way to write these lines that is allowed and comes to the same text takes an
argument of its own: the text shows how each line was written (`eq_of_written_append`).

**Hypotheses.** The unit of indentation consists of spaces and tabs, and may be empty (`IsBlank`).

Results:

* `mem_lines_first_iff` and `mem_lines_further_iff`: the outermost keys lead the lines of the first
  level, and what is inside leads further lines.
* `forms_eq`: lines that come to the same text are written in the same way.
* `keepsQuotes_iff`: the text of the file, and when it is as it is meant to be.
-/
namespace BundleLedger.LoaderConfig

open Json Json.Value

/-! ## Which text leads which line -/

section

variable {s : String}

/-- What leads a line inside of a member stands further to the right than its key. -/
theorem level_lt_of_mem_inner {members : Members} {value : Value} {level : Nat} {l : Line}
    (hl : l ∈ inner level (comma members) value) (hlead : l.lead = some s) : level < l.level := by
  rcases (below_inner value level _ (newline_not_mem_comma members) l hl).further with h | h
  · rw [h] at hlead
    cases hlead
  · exact h

theorem mem_memberLines_first_iff (members : Members) (level : Nat) :
    (∃ l ∈ memberLines level members, l.level = level ∧ l.lead = some s) ↔
      s ∈ Entries.keys members := by
  induction members with
  | nil => simp [memberLines, Entries.keys]
  | cons m members ih =>
    obtain ⟨key, value⟩ := m
    have hinner : ¬ ∃ l ∈ inner level (comma members) value, l.level = level ∧ l.lead = some s := by
      intro ⟨l, hl, hlevel, hlead⟩
      have hlt := level_lt_of_mem_inner hl hlead
      omega
    simp only [memberLines, List.cons_append, List.mem_cons, List.mem_append, or_and_right,
      exists_or, exists_eq_left, true_and, hinner, false_or, ih, Entries.keys, List.map_cons,
      Option.some.injEq]
    rw [eq_comm]

theorem mem_memberLines_further_iff (members : Members) (level : Nat) :
    (∃ l ∈ memberLines level members, l.level ≠ level ∧ l.lead = some s) ↔
      ∃ m ∈ members, Inside s m.2 := by
  induction members with
  | nil => simp [memberLines]
  | cons m members ih =>
    obtain ⟨key, value⟩ := m
    have hinner : (∃ l ∈ inner level (comma members) value, l.level ≠ level ∧ l.lead = some s) ↔
        Inside s value := by
      rw [← lead_inner value level (comma members)]
      refine exists_congr fun l => and_congr_right fun hl => and_iff_right_of_imp fun hlead => ?_
      have hlt := level_lt_of_mem_inner hl hlead
      omega
    simp only [memberLines, List.cons_append, List.mem_cons, List.mem_append, or_and_right,
      exists_or, exists_eq_left, ne_eq, not_true_eq_false, false_and, false_or] at hinner ih ⊢
    rw [hinner, ih]

/-- The first and the last line of the object are led by nothing. -/
theorem mem_lines_iff (c : LoaderConfig) (l : Line) (h : l.lead = some s) :
    l ∈ c.lines ↔ l ∈ memberLines 1 c.entries := by
  have hbrace : ∀ rest, l ≠ ⟨0, none, rest⟩ := by
    rintro rest rfl
    cases h
  rw [lines, toValue, documentLines]
  cases c.entries with
  | nil => simp [inner, memberLines, hbrace]
  | cons m members => simp [inner, hbrace]

theorem mem_lines_first_iff (c : LoaderConfig) :
    (∃ l ∈ c.lines, l.level = 1 ∧ l.lead = some s) ↔ s ∈ Entries.keys c.entries := by
  rw [← mem_memberLines_first_iff c.entries 1]
  exact exists_congr fun l => and_congr_left fun h => mem_lines_iff c l h.2

theorem mem_lines_further_iff (c : LoaderConfig) :
    (∃ l ∈ c.lines, l.level ≠ 1 ∧ l.lead = some s) ↔ ∃ m ∈ c.entries, Inside s m.2 := by
  rw [← mem_memberLines_further_iff c.entries 1]
  exact exists_congr fun l => and_congr_left fun h => mem_lines_iff c l h.2

end

/-! ## How a line was written -/

/-- A form that can be told from the text: a lead without quotes is there, and begins with neither a
quote nor a line break. -/
def Line.Shows (l : Line) (f : Form) : Prop :=
  f.bare = true →
    ∃ key, l.lead = some key ∧ ∃ c rest, key.toList = c :: rest ∧ c ≠ '"' ∧ c ≠ '\n'

section

variable {tab : List Char} {l : Line} {f g : Form}

theorem Line.leading_cases (hl : l.Sound) (hf : l.Shows f) :
    ∃ c rest, l.leading f ++ l.rest = c :: rest ∧ c ≠ '\n' ∧
      (l.lead ≠ none → (c = '"' ↔ f.bare = false)) := by
  cases hlead : l.lead with
  | none =>
    obtain ⟨c, rest, hrest, -⟩ := hl.head hlead
    have hc : c ≠ '\n' := by
      rintro rfl
      exact hl.oneLine (by simp [hrest])
    exact ⟨c, rest, by simp [Line.leading, hlead, hrest], hc, fun h => absurd rfl h⟩
  | some key =>
    cases hbare : f.bare with
    | false =>
      exact ⟨'"', _, by simp [Line.leading, hlead, hbare, quote]; rfl, by decide, fun _ => by simp⟩
    | true =>
      obtain ⟨key', hkey, c, rest, hc, hquote, hbreak⟩ := hf hbare
      rw [hlead] at hkey
      cases hkey
      exact ⟨c, rest ++ l.rest, by simp [Line.leading, hlead, hbare, hc], hbreak,
        fun _ => by simp [hquote]⟩

/-- A line without a blank line in front does not begin with a line break. -/
theorem Line.indented_ne_newline (hb : IsBlank tab) (hl : l.Sound) (hf : l.Shows f)
    (s t : List Char) : indentation tab l.level ++ (l.leading f ++ l.rest) ++ s ≠ '\n' :: t := by
  obtain ⟨c, rest, htext, hc, -⟩ := leading_cases hl hf
  rw [htext]
  cases hindent : indentation tab l.level with
  | nil =>
    intro h
    exact hc (List.cons.inj h).1
  | cons d indent =>
    intro h
    have hd := hb.indentation l.level d (by simp [hindent])
    rw [(List.cons.inj h).1] at hd
    rcases hd with hd | hd <;> cases hd

theorem eq_of_written_append (hb : IsBlank tab) (hl : l.Sound) (hf : l.Shows f) (hg : l.Shows g)
    {s s' : List Char} (h : l.written tab f ++ s = l.written tab g ++ s') : f = g ∧ s = s' := by
  have hblank : f.blank = g.blank := by
    cases hfb : f.blank <;> cases hgb : g.blank
    · rfl
    · simp only [Line.written, hfb, hgb] at h
      exact absurd h (Line.indented_ne_newline hb hl hf _ _)
    · simp only [Line.written, hfb, hgb] at h
      exact absurd h.symm (Line.indented_ne_newline hb hl hg _ _)
    · rfl
  simp only [Line.written, hblank, List.append_assoc, List.append_cancel_left_eq] at h
  have hbare : f.bare = g.bare := by
    cases hlead : l.lead with
    | none =>
      have hnot : ∀ f : Form, l.Shows f → f.bare = false := by
        intro f hf
        by_contra hne
        obtain ⟨key, hkey, -⟩ := hf (by simpa using hne)
        rw [hlead] at hkey
        cases hkey
      rw [hnot f hf, hnot g hg]
    | some key =>
      obtain ⟨c, rest, htext, -, hc⟩ := Line.leading_cases hl hf
      obtain ⟨d, rest', htext', -, hd⟩ := Line.leading_cases hl hg
      rw [← List.append_assoc, htext, ← List.append_assoc, htext', List.cons_append,
        List.cons_append, List.cons.injEq] at h
      have hc := hc (by simp [hlead])
      have hd := hd (by simp [hlead])
      rw [← h.1] at hd
      rw [Bool.eq_iff_iff, ← not_iff_not]
      simpa using hc.symm.trans hd
  have hleading : l.leading f = l.leading g := by simp [Line.leading, hbare]
  rw [hleading, List.append_cancel_left_eq, List.append_cancel_left_eq] at h
  refine ⟨?_, h⟩
  cases f
  cases g
  simp_all

end

/-- Lines in forms, with line breaks between them. -/
def laid (tab : List Char) (lines : List Line) (forms : List Form) : List Char :=
  List.intercalate ['\n'] (List.zipWith (Line.written tab) lines forms)

theorem joined_eq_laid (tab : List Char) (form : Line → Form) (lines : List Line) :
    joined (fun l => l.written tab (form l)) lines = laid tab lines (lines.map form) := by
  rw [joined, laid, List.zipWith_map_right, List.zipWith_self]

/-- Two ways to write the same lines that come to the same text are one. -/
theorem forms_eq {tab : List Char} (hb : IsBlank tab) {lines : List Line} {forms forms' : List Form}
    (hsound : ∀ l ∈ lines, l.Sound) (h : List.Forall₂ Line.Shows lines forms)
    (h' : List.Forall₂ Line.Shows lines forms')
    (heq : laid tab lines forms = laid tab lines forms') : forms = forms' := by
  have hbroken : (List.zipWith (Line.written tab) lines forms).flatMap ('\n' :: ·) =
      (List.zipWith (Line.written tab) lines forms').flatMap ('\n' :: ·) := by
    cases h with
    | nil => rfl
    | cons _ _ =>
      cases h' with
      | cons _ _ =>
        rw [flatMap_newline (by simp), flatMap_newline (by simp)]
        exact congrArg _ heq
  clear heq
  induction h generalizing forms' with
  | nil =>
    cases h'
    rfl
  | cons hf _ ih =>
    cases h' with
    | cons hg h' =>
      simp only [List.zipWith_cons_cons, List.flatMap_cons, List.cons_append, List.cons.injEq,
        true_and] at hbroken
      obtain ⟨rfl, hrest⟩ := eq_of_written_append hb (hsound _ List.mem_cons_self) hf hg hbroken
      rw [ih (fun l hl => hsound l (List.mem_cons_of_mem _ hl)) h' hrest]

/-! ## The file as it is meant to be -/

/-- What may be changed on a line: it gets a blank line exactly where it begins a block of the
outermost level, and its lead loses its quotes only where it is an outermost key and a name. -/
structure Line.Allows (l : Line) (f : Form) : Prop where
  blank : f.blank = true ↔ l.level = 1 ∧ ∃ key, l.lead = some key ∧ key ∈ blockKeys
  bare : f.bare = true →
    l.level = 1 ∧ ∃ key, l.lead = some key ∧ Text.isIdentifierName key.toList = true

/-- The file is the indented object in a call, changed in nothing but what its lines allow. -/
def KeepsQuotes (c : LoaderConfig) (tab : String) : Prop :=
  ∃ forms : List Form, List.Forall₂ Line.Allows c.lines forms ∧ (c.render tab).toList =
    "System.config(".toList ++ laid tab.toList c.lines forms ++ [')', ';', '\n']

theorem Line.Allows.shows {l : Line} {f : Form} (h : l.Allows f) : l.Shows f := by
  intro hbare
  obtain ⟨-, key, hkey, hname⟩ := h.bare hbare
  have hquote : Text.isIdentifierPart '"' = false := by decide +kernel
  have hbreak : Text.isIdentifierPart '\n' = false := by decide +kernel
  have hpart := Script.isIdentifierName_plain hname
  refine ⟨key, hkey, ?_⟩
  cases hkey : key.toList with
  | nil => simp [hkey, Text.isIdentifierName] at hname
  | cons c rest =>
    have hc := (hpart c (by simp [hkey])).2
    refine ⟨c, rest, rfl, ?_, ?_⟩ <;> rintro rfl <;> simp_all

section

variable {tab : List Char} {l : Line} {key : String}

theorem Line.reached_eq_some_iff :
    l.reached tab = some key ↔ (l.level = 1 ∨ tab = []) ∧ l.lead = some key := by
  unfold Line.reached
  split <;> simp [*]

theorem Line.blank_form_iff :
    (l.form tab).blank = true ↔ ∃ key, l.reached tab = some key ∧ key ∈ blockKeys := by
  simp [Line.form, Option.any_eq_true]

theorem Line.bare_form_iff :
    (l.form tab).bare = true ↔ ∃ key, l.reached tab = some key ∧ IsBare key := by
  simp [Line.form, Option.any_eq_true]

theorem Line.shows_form (tab : List Char) (l : Line) : l.Shows (l.form tab) := by
  intro hbare
  obtain ⟨key, hreached, hne, hword⟩ := Line.bare_form_iff.1 hbare
  obtain ⟨c, rest, hc⟩ := List.exists_cons_of_ne_nil hne
  obtain ⟨-, hquote, hnat⟩ := isWord_plain (hword c (by simp [hc]))
  refine ⟨key, (Line.reached_eq_some_iff.1 hreached).2, c, rest, hc, hquote, ?_⟩
  rintro rfl
  revert hnat
  decide

end

/-! ## Leads that the lines allow to stand bare -/

section

variable {c : LoaderConfig} {tab : List Char}

/-- An outermost key of word characters loses its quotes, so it has to be a name. -/
theorem hasNameKeys_of_allows (h : ∀ l ∈ c.lines, l.Allows (l.form tab)) : c.HasNameKeys := by
  intro key hkey hbare
  obtain ⟨l, hl, hlevel, hlead⟩ := (mem_lines_first_iff c).2 hkey
  have hreached : l.reached tab = some key := Line.reached_eq_some_iff.2 ⟨.inl hlevel, hlead⟩
  obtain ⟨-, key', hkey', hname⟩ := (h l hl).bare (Line.bare_form_iff.2 ⟨key, hreached, hbare⟩)
  rw [hlead] at hkey'
  cases hkey'
  exact hname

/-- Without indentation, a text of word characters loses its quotes wherever it leads a line. -/
theorem not_isBare_of_allows (h : ∀ l ∈ c.lines, l.Allows (l.form [])) {m : String × Value}
    (hm : m ∈ c.entries) {s : String} (hs : Inside s m.2) : ¬ IsBare s := by
  intro hbare
  obtain ⟨l, hl, hlevel, hlead⟩ := (mem_lines_further_iff c).2 ⟨m, hm, hs⟩
  have hreached : l.reached [] = some s := Line.reached_eq_some_iff.2 ⟨.inr rfl, hlead⟩
  exact hlevel ((h l hl).bare (Line.bare_form_iff.2 ⟨s, hreached, hbare⟩)).1

/-- Where nothing inside loses its quotes, what is reached and consists of word characters is an
outermost key. -/
theorem level_of_reached (hinside : tab = [] → ∀ m ∈ c.entries, ∀ s, Inside s m.2 → ¬ IsBare s)
    {l : Line} (hl : l ∈ c.lines) {key : String} (hreached : l.reached tab = some key)
    (hbare : IsBare key) : l.level = 1 ∧ l.lead = some key := by
  obtain ⟨hunit, hlead⟩ := Line.reached_eq_some_iff.1 hreached
  by_cases hlevel : l.level = 1
  · exact ⟨hlevel, hlead⟩
  · obtain ⟨m, hm, hs⟩ := (mem_lines_further_iff c).1 ⟨l, hl, hlevel, hlead⟩
    exact absurd hbare (hinside (hunit.resolve_left hlevel) m hm key hs)

theorem allows_form_iff : (∀ l ∈ c.lines, l.Allows (l.form tab)) ↔
    c.HasNameKeys ∧ (tab = [] → ∀ m ∈ c.entries, ∀ s, Inside s m.2 → ¬ IsBare s) := by
  constructor
  · intro h
    refine ⟨hasNameKeys_of_allows h, ?_⟩
    intro htab m hm s hs
    subst htab
    exact not_isBare_of_allows h hm hs
  · intro ⟨hnames, hinside⟩ l hl
    refine ⟨⟨?_, ?_⟩, ?_⟩
    · intro hblank
      obtain ⟨key, hreached, hkey⟩ := Line.blank_form_iff.1 hblank
      obtain ⟨hlevel, hlead⟩ := level_of_reached hinside hl hreached (isBare_of_mem_blockKeys hkey)
      exact ⟨hlevel, key, hlead, hkey⟩
    · intro ⟨hlevel, key, hlead, hkey⟩
      exact Line.blank_form_iff.2 ⟨key, Line.reached_eq_some_iff.2 ⟨.inl hlevel, hlead⟩, hkey⟩
    · intro hbare
      obtain ⟨key, hreached, hkey⟩ := Line.bare_form_iff.1 hbare
      obtain ⟨hlevel, hlead⟩ := level_of_reached hinside hl hreached hkey
      exact ⟨hlevel, key, hlead, hnames key ((mem_lines_first_iff c).1 ⟨l, hl, hlevel, hlead⟩) hkey⟩

end

/-! ## The text of the file -/

section

variable {c : LoaderConfig} {tab : String}

theorem pretty_eq_joined (c : LoaderConfig) (tab : List Char) :
    c.toValue.pretty tab 0 = joined (printed tab) c.lines := by
  have hprinted := newLine_pretty_eq_lines tab c
  rw [broken_eq_joined _ c.lines_ne_nil] at hprinted
  exact (List.cons.inj hprinted).2

theorem toList_render (hb : IsBlank tab.toList) (c : LoaderConfig) : (c.render tab).toList =
    "System.config(".toList ++ joined (filed tab.toList) c.lines ++ [')', ';', '\n'] := by
  rw [render, String.toList_ofList, renderChars_eq_lines hb]

/-- As the text shows how each line was written, the lines allow what was done to them. -/
theorem allows_form_of_keepsQuotes (hb : IsBlank tab.toList) (h : c.KeepsQuotes tab) :
    ∀ l ∈ c.lines, l.Allows (l.form tab.toList) := by
  obtain ⟨forms, hforms, htext⟩ := h
  rw [toList_render hb, List.append_cancel_right_eq, List.append_cancel_left_eq,
    joined_eq_laid] at htext
  have hfiled : List.Forall₂ Line.Shows c.lines (c.lines.map (Line.form tab.toList)) :=
    List.forall₂_map_right_iff.2 (List.forall₂_same.2 fun l _ => l.shows_form _)
  have heq := forms_eq hb (sound_documentLines c.entries) hfiled
    (hforms.imp fun _ _ => Line.Allows.shows) htext
  rw [← heq, List.forall₂_map_right_iff, List.forall₂_same] at hforms
  exact hforms

theorem keepsQuotes_iff_allows (hb : IsBlank tab.toList) :
    c.KeepsQuotes tab ↔ ∀ l ∈ c.lines, l.Allows (l.form tab.toList) := by
  refine ⟨allows_form_of_keepsQuotes hb, fun h => ?_⟩
  refine ⟨c.lines.map (Line.form tab.toList), ?_, ?_⟩
  · rw [List.forall₂_map_right_iff, List.forall₂_same]
    exact h
  · rw [toList_render hb, joined_eq_laid]

/-- The text of the file is the indented object, line by line, with what the rules do to the lines that
they reach. The outermost keys lead the lines of the first level, and what is inside leads further
lines. The file is as it is meant to be if and only if all outermost keys of word characters are names
and, with an empty unit of indentation, no key and no item inside consists of word characters. -/
theorem keepsQuotes_iff (c : LoaderConfig) (tab : String) (hb : IsBlank tab.toList) :
    c.toValue.pretty tab.toList 0 = joined (printed tab.toList) c.lines ∧
      (∀ s, (∃ l ∈ c.lines, l.level = 1 ∧ l.lead = some s) ↔ s ∈ Entries.keys c.entries) ∧
      (∀ s, (∃ l ∈ c.lines, l.level ≠ 1 ∧ l.lead = some s) ↔ ∃ m ∈ c.entries, Inside s m.2) ∧
      (c.render tab).toList =
        "System.config(".toList ++ joined (filed tab.toList) c.lines ++ [')', ';', '\n'] ∧
      (c.KeepsQuotes tab ↔ c.HasNameKeys ∧
        (tab = "" → ∀ m ∈ c.entries, ∀ s, Inside s m.2 → ¬ IsBare s)) := by
  have hnames := keepsQuotes_iff_allows (c := c) hb
  rw [allows_form_iff, String.toList_eq_nil_iff] at hnames
  exact ⟨pretty_eq_joined c tab.toList, fun s => mem_lines_first_iff c,
    fun s => mem_lines_further_iff c, toList_render hb c, hnames⟩

end

/-- Below the outermost level even a key of word characters stays in its quotes. -/
def versionedConfig : LoaderConfig where
  entries := [("map", .object [("lodash", .string "npm:lodash@4.17.4"), ("2to3", .string "lib/2to3")]),
    ("base-url", .string "/")]

theorem keepsQuotes_iff_versioned :
    IsBlank "\t".toList ∧ versionedConfig.HasNameKeys ∧ versionedConfig.KeepsQuotes "\t" := by
  have hblank : IsBlank "\t".toList := by decide +kernel
  have hnames : versionedConfig.HasNameKeys := by
    unfold HasNameKeys
    decide +kernel
  have hiff := (keepsQuotes_iff versionedConfig "\t" hblank).2.2.2.2
  exact ⟨hblank, hnames, hiff.2 ⟨hnames, fun h => absurd h (by decide)⟩⟩

/-- Without indentation the lines inside are edited as well. -/
example : LoaderConfig.render ⟨[("paths", .object [("map", .bool true)])]⟩ "" =
    "System.config(\x7b\npaths: \x7b\n\nmap: true\n\x7d\n\x7d);\n" := by
  decide +kernel

def numberedConfig : LoaderConfig where
  entries := [("1a", .bool true)]

/-- The key of word characters is written as what is neither a name nor a number. -/
theorem number_loses_quotes :
    IsBlank "  ".toList ∧ numberedConfig.render "  " = "System.config(\x7b\n  1a: true\n\x7d);\n" ∧
      ¬ numberedConfig.KeepsQuotes "  " := by
  have hblank : IsBlank "  ".toList := by decide +kernel
  refine ⟨hblank, by decide +kernel, fun h => ?_⟩
  have hline : Line.mk 1 (some "1a") ": true".toList ∈ numberedConfig.lines := by decide +kernel
  obtain ⟨-, key, hkey, hname⟩ :=
    (allows_form_of_keepsQuotes hblank h _ hline).bare (by decide +kernel)
  cases hkey
  revert hname
  decide +kernel

end BundleLedger.LoaderConfig
