import BundleLedger.Proofs.Decimal.Marks
import BundleLedger.Proofs.LoaderFile.DistinctKeys
import BundleLedger.Proofs.LoaderFile.Editing

/-!
# Lines of the configuration file

The text of the configuration file is an indented object whose lines are edited. A line begins with
its indentation and then, where it has one, with a quoted text: the key of a member, or a string
that is an item (`Line`). The line breaks of a text stand in it as escapes, so an object has the same
lines for every unit of indentation.

Behind a unit that is not empty, a key rule reaches only the lines of the first level, which are those
of the outermost members; behind an empty unit, it reaches all lines that begin with a quoted text
(`Line.reached`).

Results:

* `newLine_pretty_eq_broken`: the indented text of a value is that of its lines.
* `below_inner` and `lead_inner`: what stands on the lines inside of a value, and what leads them.
* `IsKeyRule.edit_unreached`: a key rule leaves alone the lines that it does not reach.
-/
namespace BundleLedger.LoaderConfig

open Json Json.Value Decimal

/-! ## Quoted texts -/

theorem newline_not_mem_hexDigit {n : Nat} (h : n < 16) : '\n' ≠ hexDigit n := by
  have hall : ∀ n, n < 16 → '\n' ≠ hexDigit n := by decide
  exact hall n h

theorem newline_not_mem_encodeChar (c : Char) : '\n' ∉ encodeChar c := by
  unfold encodeChar
  split
  · rename_i e he
    unfold shortEscape? at he
    repeat' split at he
    all_goals first
      | (cases he; decide)
      | cases he
  · rename_i hs
    split
    · have h1 := newline_not_mem_hexDigit (n := c.toNat / 16) (by omega)
      have h2 := newline_not_mem_hexDigit (n := c.toNat % 16) (by omega)
      simp [h1, h2]
    · rw [List.mem_singleton]
      rintro rfl
      simp [shortEscape?] at hs

theorem newline_not_mem_quote (s : List Char) : '\n' ∉ quote s := by
  simp only [quote, encode, List.cons_append, List.mem_cons, List.mem_append, List.mem_flatMap,
    List.not_mem_nil, or_false, not_or, not_exists, not_and]
  exact ⟨by decide, fun c _ => newline_not_mem_encodeChar c, by decide⟩

/-! ## Lines of the indented text -/

/-- A line: what leads it, where that is a key or an item, and what stands behind. -/
structure Line where
  level : Nat
  lead : Option String
  rest : List Char
  deriving DecidableEq, Repr

/-- How a line is written: behind a blank line or not, and with or without the quotes of its lead. -/
structure Form where
  blank : Bool
  bare : Bool
  deriving DecidableEq, Repr

/-- With quotes and no blank line. -/
def Form.plain : Form := ⟨false, false⟩

def Line.leading (l : Line) (f : Form) : List Char :=
  match l.lead with
  | none => []
  | some s => if f.bare then s.toList else quote s.toList

def Line.written (tab : List Char) (l : Line) (f : Form) : List Char :=
  (if f.blank then ['\n'] else []) ++ (indentation tab l.level ++ (l.leading f ++ l.rest))

/-- What follows an item or a member, depending on what there is after it. -/
def comma {α : Type} : List α → List Char
  | [] => []
  | _ :: _ => [',']

@[simp] theorem comma_nil {α : Type} : comma ([] : List α) = [] := rfl

@[simp] theorem comma_cons {α : Type} (a : α) (as : List α) : comma (a :: as) = [','] := rfl

/-- What a value leaves on the line where it begins. -/
def opening (stop : List Char) : Value → List Char
  | .array (_ :: _) => ['[']
  | .object (_ :: _) => ['\x7b']
  | v => v.compact ++ stop

def itemLine (level : Nat) (stop : List Char) : Value → Line
  | .string s => ⟨level, some s, stop⟩
  | item => ⟨level, none, opening stop item⟩

mutual

/-- The lines of a value after the one where it begins; `stop` follows the value. -/
def inner (level : Nat) (stop : List Char) : Value → List Line
  | .array (item :: items) =>
    itemLines (level + 1) (item :: items) ++ [⟨level, none, ']' :: stop⟩]
  | .object (member :: members) =>
    memberLines (level + 1) (member :: members) ++ [⟨level, none, '\x7d' :: stop⟩]
  | _ => []

def itemLines (level : Nat) : List Value → List Line
  | [] => []
  | item :: items =>
    itemLine level (comma items) item :: inner level (comma items) item ++ itemLines level items

def memberLines (level : Nat) : List (String × Value) → List Line
  | [] => []
  | (key, value) :: members =>
    ⟨level, some key, ':' :: ' ' :: opening (comma members) value⟩ ::
      inner level (comma members) value ++ memberLines level members

end

def documentLines (v : Value) : List Line := ⟨0, none, opening [] v⟩ :: inner 0 [] v

/-- Lines, each behind a line break. -/
def broken (text : Line → List Char) (lines : List Line) : List Char :=
  lines.flatMap fun l => '\n' :: text l

/-- Lines with line breaks between them. -/
def joined (text : Line → List Char) (lines : List Line) : List Char :=
  List.intercalate ['\n'] (lines.map text)

abbrev printed (tab : List Char) (l : Line) : List Char := l.written tab .plain

@[simp] theorem broken_nil (text : Line → List Char) : broken text [] = [] := rfl

@[simp] theorem broken_cons (text : Line → List Char) (l : Line) (lines : List Line) :
    broken text (l :: lines) = '\n' :: text l ++ broken text lines := rfl

@[simp] theorem broken_append (text : Line → List Char) (lines lines' : List Line) :
    broken text (lines ++ lines') = broken text lines ++ broken text lines' := List.flatMap_append

theorem broken_congr {text text' : Line → List Char} {lines : List Line}
    (h : ∀ l ∈ lines, text l = text' l) : broken text lines = broken text' lines :=
  List.flatMap_congr fun l hl => congrArg _ (h l hl)

/-- Texts behind line breaks are a line break and the texts with line breaks between them. -/
theorem flatMap_newline {texts : List (List Char)} (h : texts ≠ []) :
    texts.flatMap ('\n' :: ·) = '\n' :: List.intercalate ['\n'] texts := by
  induction texts with
  | nil => exact absurd rfl h
  | cons text texts ih =>
    cases texts with
    | nil => simp
    | cons text' texts =>
      rw [List.flatMap_cons, ih (List.cons_ne_nil _ _), List.intercalate_cons_cons]
      simp

theorem broken_eq_joined (text : Line → List Char) {lines : List Line} (h : lines ≠ []) :
    broken text lines = '\n' :: joined text lines := by
  rw [joined, ← flatMap_newline (by simpa using h), List.flatMap_map]
  rfl

section

variable (tab : List Char)

theorem printed_itemLine (level : Nat) (stop : List Char) (item : Value) :
    printed tab (itemLine level stop item) = indentation tab level ++ opening stop item := by
  cases item <;> simp [itemLine, printed, Line.written, Line.leading, Form.plain, opening, compact]

mutual

/-- A value is what it leaves on its first line, and its further lines. -/
theorem opening_broken_inner : ∀ (v : Value) (level : Nat) (stop : List Char),
    opening stop v ++ broken (printed tab) (inner level stop v) = pretty tab level v ++ stop
  | .null, _, _ | .bool true, _, _ | .bool false, _, _ | .number _, _, _ | .string _, _, _
  | .array [], _, _ | .object [], _, _ => by simp [opening, inner, compact, pretty]
  | .array (item :: items), level, stop => by
    have hitems := comma_broken_itemLines (item :: items) (level + 1)
    simp only [comma_cons, prettyItems, List.cons_append, List.nil_append, List.cons.injEq,
      true_and] at hitems
    simp [opening, inner, pretty, hitems, Line.written, Line.leading, Form.plain, newLine_eq]
  | .object ((key, value) :: members), level, stop => by
    have hmembers := comma_broken_memberLines ((key, value) :: members) (level + 1)
    simp only [comma_cons, prettyMembers, List.cons_append, List.nil_append, List.cons.injEq,
      true_and] at hmembers
    simp [opening, inner, pretty, hmembers, Line.written, Line.leading, Form.plain, newLine_eq]

theorem comma_broken_itemLines : ∀ (items : List Value) (level : Nat),
    comma items ++ broken (printed tab) (itemLines level items) = prettyItems tab level items
  | [], _ => by simp [itemLines, prettyItems]
  | item :: items, level => by
    have hitem := opening_broken_inner item level (comma items)
    have hitems := comma_broken_itemLines items level
    simp only [comma_cons, itemLines, broken_cons, broken_append, printed_itemLine, prettyItems,
      newLine_eq, ← hitems]
    simp only [List.cons_append, List.append_assoc, List.nil_append]
    rw [← List.append_assoc (opening _ _), hitem, List.append_assoc]

theorem comma_broken_memberLines : ∀ (members : Members) (level : Nat),
    comma members ++ broken (printed tab) (memberLines level members) =
      prettyMembers tab level members
  | [], _ => by simp [memberLines, prettyMembers]
  | (key, value) :: members, level => by
    have hvalue := opening_broken_inner value level (comma members)
    have hmembers := comma_broken_memberLines members level
    simp only [comma_cons, memberLines, broken_cons, broken_append, printed, Line.written, Line.leading,
      Form.plain, prettyMembers, newLine_eq, ← hmembers]
    simp only [Bool.false_eq_true, if_false, List.cons_append, List.append_assoc, List.nil_append]
    rw [← List.append_assoc (opening _ _), hvalue, List.append_assoc]

end

theorem newLine_pretty_eq_broken (v : Value) :
    '\n' :: pretty tab 0 v = broken (printed tab) (documentLines v) := by
  have h := opening_broken_inner tab v 0 []
  rw [List.append_nil] at h
  simp [documentLines, ← h, Line.written, Line.leading, Form.plain]

end

/-! ### What stands on a line -/

/-- There is no line break behind the lead, and without a lead something else than a blank or a quote
comes first. -/
structure Line.Sound (l : Line) : Prop where
  oneLine : '\n' ∉ l.rest
  head : l.lead = none → ∃ c rest, l.rest = c :: rest ∧ (c ≠ ' ' ∧ c ≠ '\t') ∧ c ≠ '"'

theorem isMark_plain {c : Char} (h : isMark c = true) :
    c ≠ '\n' ∧ (c ≠ ' ' ∧ c ≠ '\t') ∧ c ≠ '"' := by
  refine ⟨?_, ⟨?_, ?_⟩, ?_⟩ <;> · rintro rfl; revert h; decide

theorem newline_not_mem_write (n : Number) : '\n' ∉ n.write := fun h =>
  (isMark_plain (n.write_marks _ h)).1 rfl

theorem newline_not_mem_opening {stop : List Char} (h : '\n' ∉ stop) (v : Value) :
    '\n' ∉ opening stop v := by
  have hcompact : '\n' ∉ v.compact → '\n' ∉ v.compact ++ stop := fun hv hm =>
    (List.mem_append.1 hm).elim hv h
  match v with
  | .null | .bool true | .bool false | .array [] | .object [] =>
    exact hcompact (by simp [compact])
  | .number n => exact hcompact (by rw [compact]; exact newline_not_mem_write n)
  | .string s => exact hcompact (by rw [compact]; exact newline_not_mem_quote _)
  | .array (_ :: _) | .object (_ :: _) => simp [opening]

theorem sound_itemLine {stop : List Char} (h : '\n' ∉ stop) (level : Nat) (item : Value) :
    (itemLine level stop item).Sound := by
  have hopening := newline_not_mem_opening h item
  match item, hopening with
  | .string s, _ => exact ⟨h, nofun⟩
  | .number n, hopening =>
    refine ⟨hopening, fun _ => ?_⟩
    obtain ⟨c, rest, hc⟩ := List.exists_cons_of_ne_nil n.write_ne_nil
    have hmark := (isMark_plain (n.write_marks c (by simp [hc]))).2
    exact ⟨c, rest ++ stop, by simp [itemLine, opening, compact, hc], hmark⟩
  | .null, hopening | .bool true, hopening | .bool false, hopening | .array [], hopening
  | .object [], hopening | .array (_ :: _), hopening | .object (_ :: _), hopening =>
    exact ⟨hopening, fun _ => ⟨_, _, rfl, by decide⟩⟩

/-- A line that only closes something. -/
theorem sound_closing {stop : List Char} (h : '\n' ∉ stop) (level : Nat) {c : Char}
    (hc : c = ']' ∨ c = '\x7d') : (Line.mk level none (c :: stop)).Sound := by
  refine ⟨?_, fun _ => ⟨c, stop, rfl, ?_⟩⟩
  · rcases hc with rfl | rfl <;> simpa using h
  · rcases hc with rfl | rfl <;> decide

theorem newline_not_mem_comma {α : Type} (as : List α) : '\n' ∉ comma as := by
  cases as <;> simp

/-- A line inside of a value at `level`: a lead is indented further than the value. -/
structure Line.Below (level : Nat) (l : Line) : Prop where
  sound : l.Sound
  further : l.lead = none ∨ level < l.level

theorem Line.Below.mono {level level' : Nat} {l : Line} (h : l.Below level') (hle : level ≤ level') :
    l.Below level :=
  ⟨h.sound, h.further.imp_right fun hlt => by omega⟩

mutual

theorem below_inner : ∀ (v : Value) (level : Nat) (stop : List Char), '\n' ∉ stop →
    ∀ l ∈ inner level stop v, l.Below level
  | .null, _, _, _ | .bool _, _, _, _ | .number _, _, _, _ | .string _, _, _, _
  | .array [], _, _, _ | .object [], _, _, _ => by simp [inner]
  | .array (item :: items), level, stop, h => by
    intro l hl
    rcases List.mem_append.1 (by rwa [inner] at hl) with hl | hl
    · exact below_itemLines _ level l hl
    · exact List.mem_singleton.1 hl ▸ ⟨sound_closing h level (.inl rfl), .inl rfl⟩
  | .object (member :: members), level, stop, h => by
    intro l hl
    rcases List.mem_append.1 (by rwa [inner] at hl) with hl | hl
    · exact below_memberLines _ level l hl
    · exact List.mem_singleton.1 hl ▸ ⟨sound_closing h level (.inr rfl), .inl rfl⟩

theorem below_itemLines : ∀ (items : List Value) (level : Nat),
    ∀ l ∈ itemLines (level + 1) items, l.Below level
  | [], _ => by simp [itemLines]
  | item :: items, level => by
    have hcomma := newline_not_mem_comma items
    intro l hl
    simp only [itemLines, List.cons_append, List.mem_cons, List.mem_append] at hl
    rcases hl with rfl | hl | hl
    · refine ⟨sound_itemLine hcomma _ item, ?_⟩
      cases item <;> simp [itemLine]
    · exact (below_inner item _ _ hcomma l hl).mono (Nat.le_succ level)
    · exact below_itemLines items level l hl

theorem below_memberLines : ∀ (members : Members) (level : Nat),
    ∀ l ∈ memberLines (level + 1) members, l.Below level
  | [], _ => by simp [memberLines]
  | (key, value) :: members, level => by
    have hcomma := newline_not_mem_comma members
    intro l hl
    simp only [memberLines, List.cons_append, List.mem_cons, List.mem_append] at hl
    rcases hl with rfl | hl | hl
    · refine ⟨⟨?_, nofun⟩, .inr (Nat.lt_succ_self level)⟩
      simpa using newline_not_mem_opening hcomma value
    · exact (below_inner value _ _ hcomma l hl).mono (Nat.le_succ level)
    · exact below_memberLines members level l hl

end

theorem sound_documentLines (members : Members) : ∀ l ∈ documentLines (.object members), l.Sound := by
  have hstop : '\n' ∉ ([] : List Char) := List.not_mem_nil
  have hfirst := sound_itemLine hstop 0 (.object members)
  rw [show itemLine 0 [] (.object members) = ⟨0, none, opening [] (.object members)⟩ from rfl] at hfirst
  exact List.forall_mem_cons.2 ⟨hfirst, fun l hl => (below_inner _ 0 [] hstop l hl).sound⟩

/-! ### What leads a line -/

/-- Somewhere in a value, `s` is a key of an object or a string of an array. -/
def Inside (s : String) (v : Value) : Prop :=
  (∃ members, Within (.object members) v ∧ s ∈ Entries.keys members) ∨
    ∃ items, Within (.array items) v ∧ .string s ∈ items

section

variable {s : String}

theorem inside_array_iff {items : List Value} :
    Inside s (.array items) ↔ .string s ∈ items ∨ ∃ v ∈ items, Inside s v := by
  constructor
  · rintro (⟨members, hw, hs⟩ | ⟨items', hw, hs⟩)
    · cases hw with
      | item hv hw => exact .inr ⟨_, hv, .inl ⟨members, hw, hs⟩⟩
    · cases hw with
      | self => exact .inl hs
      | item hv hw => exact .inr ⟨_, hv, .inr ⟨items', hw, hs⟩⟩
  · rintro (hs | ⟨v, hv, ⟨members, hw, hs⟩ | ⟨items', hw, hs⟩⟩)
    · exact .inr ⟨items, .self, hs⟩
    · exact .inl ⟨members, .item hv hw, hs⟩
    · exact .inr ⟨items', .item hv hw, hs⟩

theorem inside_object_iff {members : Members} :
    Inside s (.object members) ↔ s ∈ Entries.keys members ∨ ∃ m ∈ members, Inside s m.2 := by
  constructor
  · rintro (⟨members', hw, hs⟩ | ⟨items, hw, hs⟩)
    · cases hw with
      | self => exact .inl hs
      | member hm hw => exact .inr ⟨_, hm, .inl ⟨members', hw, hs⟩⟩
    · cases hw with
      | member hm hw => exact .inr ⟨_, hm, .inr ⟨items, hw, hs⟩⟩
  · rintro (hs | ⟨m, hm, ⟨members', hw, hs⟩ | ⟨items, hw, hs⟩⟩)
    · exact .inl ⟨members, .self, hs⟩
    · exact .inl ⟨members', .member hm hw, hs⟩
    · exact .inr ⟨items, .member hm hw, hs⟩

theorem lead_itemLine (level : Nat) (stop : List Char) (item : Value) :
    (itemLine level stop item).lead = some s ↔ item = .string s := by
  cases item <;> simp [itemLine]

mutual

/-- The lines of a value after the first are led by what stands inside of it. -/
theorem lead_inner : ∀ (v : Value) (level : Nat) (stop : List Char),
    (∃ l ∈ inner level stop v, l.lead = some s) ↔ Inside s v
  | .null, _, _ | .bool _, _, _ | .number _, _, _ | .string _, _, _ => by
    simp only [inner, List.not_mem_nil, false_and, exists_false, false_iff]
    rintro (⟨_, hw, -⟩ | ⟨_, hw, -⟩) <;> cases hw
  | .array [], _, _ => by simp [inner, inside_array_iff]
  | .object [], _, _ => by simp [inner, inside_object_iff, Entries.keys]
  | .array (item :: items), level, stop => by
    have hitems := lead_itemLines (item :: items) (level + 1)
    rw [inside_array_iff, ← hitems]
    simp [inner, or_and_right, exists_or]
  | .object (member :: members), level, stop => by
    have hmembers := lead_memberLines (member :: members) (level + 1)
    rw [inside_object_iff, ← hmembers]
    simp [inner, or_and_right, exists_or]

theorem lead_itemLines : ∀ (items : List Value) (level : Nat),
    (∃ l ∈ itemLines level items, l.lead = some s) ↔
      .string s ∈ items ∨ ∃ v ∈ items, Inside s v
  | [], _ => by simp [itemLines]
  | item :: items, level => by
    have hitem := lead_inner item level (comma items)
    have hitems := lead_itemLines items level
    simp only [itemLines, List.cons_append, List.mem_cons, List.mem_append, or_and_right, exists_or,
      exists_eq_left, lead_itemLine, hitem, hitems]
    rw [eq_comm]
    tauto

theorem lead_memberLines : ∀ (members : Members) (level : Nat),
    (∃ l ∈ memberLines level members, l.lead = some s) ↔
      s ∈ Entries.keys members ∨ ∃ m ∈ members, Inside s m.2
  | [], _ => by simp [memberLines, Entries.keys]
  | (key, value) :: members, level => by
    have hvalue := lead_inner value level (comma members)
    have hmembers := lead_memberLines members level
    simp only [memberLines, List.cons_append, List.mem_cons, List.mem_append, or_and_right,
      exists_or, exists_eq_left, hvalue, hmembers, Entries.keys, List.map_cons, Option.some.injEq]
    rw [eq_comm]
    tauto

end

end

/-! ### Lines that a rule reaches -/

/-- The lead of a line where it stands right behind one unit of indentation. -/
def Line.reached (tab : List Char) (l : Line) : Option String :=
  if l.level = 1 ∨ tab = [] then l.lead else none

section

variable {tab : List Char} {rule : List Char → Option (List Char × List Char)}

theorem newline_not_mem_printed (hb : IsBlank tab) {l : Line} (hl : l.Sound) :
    '\n' ∉ printed tab l := by
  have hindent := (hb.indentation l.level).newline_not_mem
  have hlead : '\n' ∉ l.leading .plain := by
    unfold Line.leading
    split
    · exact List.not_mem_nil
    · exact newline_not_mem_quote _
  simp [printed, Line.written, Form.plain, hindent, hl.oneLine] at hlead ⊢
  exact hlead

/-- A key rule leaves a line alone that it does not reach. -/
theorem IsKeyRule.edit_unreached (h : IsKeyRule tab rule) (hb : IsBlank tab) {l : Line} (hl : l.Sound)
    (hreached : l.reached tab = none) (s : List Char) :
    edit rule true (printed tab l ++ s) = printed tab l ++ edit rule false s := by
  refine edit_line (newline_not_mem_printed hb hl) ?_
  -- what the line has behind its indentation
  obtain ⟨c, rest, htext, hblank, hquote⟩ : ∃ c rest, l.leading .plain ++ l.rest = c :: rest ∧
      (c ≠ ' ' ∧ c ≠ '\t') ∧ (c = '"' → l.lead ≠ none) := by
    cases hlead : l.lead with
    | none =>
      obtain ⟨c, rest, hrest, hblank, hquote⟩ := hl.head hlead
      exact ⟨c, rest, by simp [Line.leading, hlead, hrest], hblank, fun hc => absurd hc hquote⟩
    | some s =>
      exact ⟨'"', encode s.toList ++ '"' :: l.rest,
        by simp [Line.leading, hlead, Form.plain, quote], by decide, nofun⟩
  cases hr : rule (printed tab l ++ s) with
  | none => rfl
  | some found =>
    obtain ⟨t, ht⟩ := h.quoted _ _ hr
    have hline : printed tab l ++ s = indentation tab l.level ++ c :: (rest ++ s) := by
      simp [printed, Line.written, Form.plain] at htext ⊢
      rw [← List.append_assoc, htext]
      rfl
    obtain ⟨hc, hunit⟩ := quote_of_indentation hb hblank (hline.symm.trans ht)
    rw [Line.reached, if_pos hunit] at hreached
    exact absurd hreached (hquote hc)

theorem edit_broken {before after : Line → List Char} {lines : List Line}
    (h : ∀ l ∈ lines, ∀ s, edit rule true (before l ++ s) = after l ++ edit rule false s) :
    edit rule false (broken before lines) = broken after lines := by
  induction lines with
  | nil => simp
  | cons l lines ih =>
    rw [broken_cons, broken_cons, List.cons_append, edit_cons, beq_self_eq_true,
      h l List.mem_cons_self, ih fun l' hl' => h l' (List.mem_cons_of_mem _ hl'), List.cons_append]

end

/-! ## The outermost object -/

/-- Further members of an object, with what `lead` says on each line in front of the colon. -/
def laidMembers (tab : List Char) (lead : String → List Char) (level : Nat) : Members → List Char
  | [] => []
  | (key, value) :: members =>
    ',' :: '\n' :: lead key ++ ':' :: ' ' :: pretty tab level value ++
      laidMembers tab lead level members

/-- An indented object, with what `lead` says on each line in front of the colon. -/
def laidObject (tab : List Char) (lead : String → List Char) (level : Nat) : Members → List Char
  | [] => ['\x7b', '\x7d']
  | (key, value) :: members =>
    '\x7b' :: '\n' :: lead key ++ ':' :: ' ' :: pretty tab (level + 1) value ++
      laidMembers tab lead (level + 1) members ++ newLine tab level ++ ['\x7d']

def quotedLead (tab : List Char) (level : Nat) (key : String) : List Char :=
  (List.replicate level tab).flatten ++ quote key.toList

theorem prettyMembers_eq_laid (tab : List Char) (level : Nat) (members : Members) :
    prettyMembers tab level members = laidMembers tab (quotedLead tab level) level members := by
  induction members with
  | nil => simp [prettyMembers, laidMembers]
  | cons m members ih => simp [prettyMembers, laidMembers, quotedLead, newLine, ih]

theorem pretty_object_eq_laid (tab : List Char) (level : Nat) (members : Members) :
    pretty tab level (.object members) = laidObject tab (quotedLead tab (level + 1)) level members := by
  cases members with
  | nil => simp [pretty, laidObject]
  | cons m members => simp [pretty, laidObject, prettyMembers_eq_laid, quotedLead, newLine]

end BundleLedger.LoaderConfig
