import BundleLedger.Proofs.Decimal.Integers
import BundleLedger.Proofs.Script.Reading
import BundleLedger.Proofs.Text.Classes

/-!
# The tokens of a printed text

The tokens that a printer of JSON writes, and bare names: what each of them looks like and what may
follow it.

Results:

* `begins_mark`, `begins_minus`, `begins_dot`: punctuators.
* `begins_quote`: a quoted text is a string token with that text.
* `begins_name`: an identifier name is a name token up to the first character that is no part of it.
* `begins_natText`: so is a decimal text a number token, with the number as its value.
-/
namespace BundleLedger.Script

open BundleLedger.Decimal
open BundleLedger.Json (quote encode encodeChar shortEscape? hexDigit fourHex? isHighSurrogate
  isLowSurrogate)

/-- A token stands at once where no blank and no comment begins. -/
theorem begins_of_head {c : Char} {s rest : List Char} {tok : Token} (hgap : ¬ IsGap c)
    (hslash : c ≠ '/')
    (h : ∀ offset, ∃ next, token? ⟨c :: s, offset⟩ = some (tok, next) ∧ next.rest = rest) :
    Begins (c :: s) tok rest := by
  intro newline offset
  obtain ⟨next, htoken, hrest⟩ := h offset
  refine ⟨⟨c :: s, offset⟩, newline, next, ?_, htoken, hrest⟩
  rw [IsGap, not_or] at hgap
  rw [skip, if_neg hgap.1, if_neg hgap.2]
  · rintro _ rfl
    exact absurd rfl hslash
  · rintro _ rfl
    exact absurd rfl hslash

theorem begins_nil : Begins [] .ending [] := fun newline offset =>
  ⟨⟨[], offset⟩, newline, ⟨[], offset⟩, rfl, rfl, rfl⟩

/-! ## Punctuators -/

/-- The punctuators of one character that begin no longer one. -/
def marks : List (Char × String) :=
  [('\x7b', "\x7b"), ('\x7d', "\x7d"), ('[', "["), (']', "]"), ('(', "("), (')', ")"), (',', ","),
    (':', ":"), (';', ";")]

theorem begins_punctuator {c : Char} {s rest : List Char} {text : String}
    (hchar : ¬ IsGap c ∧ c ∉ ['/', '"', '\'', '\x60', '#', '\\'] ∧ c.isDigit = false ∧
      Text.isIdentifierStart c = false)
    (hdot : c = '.' → s.head?.any Char.isDigit = false)
    (h : punctuator? (c :: s) = some (text, rest)) : Begins (c :: s) (.punctuator text) rest := by
  obtain ⟨hgap, hspecial, hdigit, hstart⟩ := hchar
  simp only [List.mem_cons, List.not_mem_nil, or_false, not_or] at hspecial
  obtain ⟨hslash, hquote, hsingle, htick, hhash, hback⟩ := hspecial
  refine begins_of_head hgap hslash fun offset => ?_
  refine ⟨⟨rest, offset + text.length⟩, ?_, rfl⟩
  have hnumber : ¬ (c.isDigit = true ∨ (c = '.' ∧ s.head?.any Char.isDigit = true)) := by
    rintro (hd | ⟨hd, hs⟩)
    · simp [hdigit] at hd
    · simp [hdot hd] at hs
  simp only [token?, hquote, hsingle, htick, hhash, hback, hstart, if_neg hnumber, or_self, if_false,
    Bool.false_eq_true, h, Option.map_some]

theorem marks_plain : ∀ mark ∈ marks, ¬ IsGap mark.1 ∧
    mark.1 ∉ ['/', '"', '\'', '\x60', '#', '\\'] ∧ mark.1.isDigit = false ∧
      Text.isIdentifierStart mark.1 = false ∧ mark.1 ≠ '.' := by
  unfold IsGap
  decide +kernel

theorem punctuator?_mark {mark : Char × String} (h : mark ∈ marks) (s : List Char) :
    punctuator? (mark.1 :: s) = some (mark.2, s) := by
  simp only [marks, List.mem_cons, List.not_mem_nil, or_false] at h
  rcases h with rfl | rfl | rfl | rfl | rfl | rfl | rfl | rfl | rfl <;> rfl

theorem begins_mark {c : Char} {text : String} (h : (c, text) ∈ marks) (s : List Char) :
    Begins (c :: s) (.punctuator text) s := by
  obtain ⟨hgap, hspecial, hdigit, hstart, hdot⟩ := marks_plain _ h
  exact begins_punctuator ⟨hgap, hspecial, hdigit, hstart⟩ (fun hc => absurd hc hdot)
    (punctuator?_mark h s)

theorem punctuator?_minus {d : Char} (hne : d ≠ '-' ∧ d ≠ '=') (s : List Char) :
    punctuator? ('-' :: d :: s) = some ("-", d :: s) := by
  simp [punctuator?, punctuatorChars, punctuators, List.isPrefixOf?, Ne.symm hne.1, Ne.symm hne.2]

theorem punctuator?_dot {d : Char} (hne : d ≠ '.') (s : List Char) :
    punctuator? ('.' :: d :: s) = some (".", d :: s) := by
  simp [punctuator?, punctuatorChars, punctuators, List.isPrefixOf?, Ne.symm hne]

theorem begins_minus {d : Char} (hd : d.isDigit = true) (s : List Char) :
    Begins ('-' :: d :: s) (.punctuator "-") (d :: s) := by
  refine begins_punctuator ?_ (fun h => absurd h (by decide)) (punctuator?_minus ⟨?_, ?_⟩ s)
  · unfold IsGap
    decide +kernel
  all_goals
    rintro rfl
    revert hd
    decide

theorem begins_dot {c : Char} (hdigit : c.isDigit = false) (hne : c ≠ '.') (s : List Char) :
    Begins ('.' :: c :: s) (.punctuator ".") (c :: s) := by
  refine begins_punctuator ?_ (fun _ => by simp [hdigit]) (punctuator?_dot hne s)
  unfold IsGap
  decide +kernel

/-! ## Strings -/

theorem spanString_plain {c : Char} (h : c ≠ '\\' ∧ c ≠ '"' ∧ c ≠ '\n' ∧ c ≠ '\r') (s : List Char) :
    spanString '"' (c :: s) = (spanString '"' s).map fun (raw, rest) => (c :: raw, rest) := by
  obtain ⟨hback, hquote, hnewline, hreturn⟩ := h
  rw [spanString]
  · simp [hquote, hnewline, hreturn]
  · rintro _ rfl
    exact absurd rfl hback
  · rintro _ _ rfl
    exact absurd rfl hback

theorem spanString_escape {e : Char} (h : e ≠ '\r') (s : List Char) :
    spanString '"' ('\\' :: e :: s) =
      (spanString '"' s).map fun (raw, rest) => ('\\' :: e :: raw, rest) := by
  rw [spanString]
  rintro _ rfl
  exact absurd rfl h

theorem shortEscape?_eq_some {c e : Char} (h : shortEscape? c = some e) :
    (c, e) ∈ [('"', '"'), ('\\', '\\'), ('\x08', 'b'), ('\x0c', 'f'), ('\n', 'n'), ('\r', 'r'),
      ('\t', 't')] := by
  unfold shortEscape? at h
  repeat' split at h
  all_goals first
    | (cases h; subst_vars; simp)
    | cases h

theorem encode_cons (c : Char) (s : List Char) : encode (c :: s) = encodeChar c ++ encode s := by
  simp [encode]

theorem hexDigit_plain {n : Nat} (h : n < 16) :
    hexDigit n ≠ '\\' ∧ hexDigit n ≠ '"' ∧ hexDigit n ≠ '\n' ∧ hexDigit n ≠ '\r' := by
  have hall : ∀ n, n < 16 →
      hexDigit n ≠ '\\' ∧ hexDigit n ≠ '"' ∧ hexDigit n ≠ '\n' ∧ hexDigit n ≠ '\r' := by decide
  exact hall n h

theorem spanString_encodeChar (c : Char) (s : List Char) :
    spanString '"' (encodeChar c ++ s) =
      (spanString '"' s).map fun (raw, rest) => (encodeChar c ++ raw, rest) := by
  unfold encodeChar
  split
  · rename_i e he
    have hreturn : e ≠ '\r' := by
      have hmem := shortEscape?_eq_some he
      rintro rfl
      simp at hmem
    exact spanString_escape hreturn s
  · rename_i hshort
    split
    · have h1 := hexDigit_plain (n := c.toNat / 16) (by omega)
      have h2 := hexDigit_plain (n := c.toNat % 16) (by omega)
      simp only [List.cons_append, List.nil_append]
      rw [spanString_escape (by decide), spanString_plain (by decide), spanString_plain (by decide),
        spanString_plain h1, spanString_plain h2]
      simp [Option.map_map, Function.comp_def]
    · refine spanString_plain ⟨?_, ?_, ?_, ?_⟩ s <;> (rintro rfl; simp [shortEscape?] at hshort)

theorem spanString_encode (s rest : List Char) :
    spanString '"' (encode s ++ '"' :: rest) = some (encode s, rest) := by
  induction s with
  | nil =>
    rw [encode, List.flatMap_nil, List.nil_append, spanString]
    · rfl
    · rintro _ h
      cases h
    · rintro _ _ h
      cases h
  | cons c s ih =>
    rw [encode_cons, List.append_assoc, spanString_encodeChar, ih]
    rfl

/-- A character that is written with a letter is read from it. -/
theorem escape?_short {c e : Char} (h : shortEscape? c = some e) (s : List Char) :
    escape? false (e :: s) = some ([c.toNat], s) := by
  have hmem := shortEscape?_eq_some h
  simp only [List.mem_cons, Prod.mk.injEq, List.not_mem_nil, or_false] at hmem
  rcases hmem with ⟨rfl, rfl⟩ | ⟨rfl, rfl⟩ | ⟨rfl, rfl⟩ | ⟨rfl, rfl⟩ | ⟨rfl, rfl⟩ | ⟨rfl, rfl⟩ |
    ⟨rfl, rfl⟩ <;> rfl

theorem escape?_control {n : Nat} (hn : n < 32) (s : List Char) :
    escape? false ('u' :: '0' :: '0' :: hexDigit (n / 16) :: hexDigit (n % 16) :: s) =
      some ([n], s) := by
  have hhex : ∀ n, n < 32 → fourHex? '0' '0' (hexDigit (n / 16)) (hexDigit (n % 16)) = some n := by
    decide
  have hhigh : isHighSurrogate n = false := by
    simp [isHighSurrogate]
    omega
  have hunicode : unicodeEscape? ('0' :: '0' :: hexDigit (n / 16) :: hexDigit (n % 16) :: s) =
      some (n, s) := by
    simp [unicodeEscape?, fourDigits?, hhex n hn, hhigh]
  have hend : isLineEnd 'u' = false := by decide
  simp [escape?, hend, hunicode]

theorem codes?_encodeChar (c : Char) (fuel : Nat) (s : List Char) :
    codes? false (fuel + 1) (encodeChar c ++ s) = (codes? false fuel s).map (c.toNat :: ·) := by
  have hescape : ∀ raw rest, escape? false raw = some ([c.toNat], rest) →
      codes? false (fuel + 1) ('\\' :: raw) = (codes? false fuel rest).map (c.toNat :: ·) := by
    intro raw rest h
    rw [codes?, if_pos rfl, h]
    rfl
  unfold encodeChar
  split
  · rename_i e he
    exact hescape _ _ (escape?_short he s)
  · rename_i hshort
    split
    · rename_i hn
      exact hescape _ _ (escape?_control hn s)
    · have hback : c ≠ '\\' := by
        rintro rfl
        simp [shortEscape?] at hshort
      rw [List.singleton_append, codes?, if_neg hback, if_neg (by simp)]

theorem codes?_encode (s : List Char) {fuel : Nat} (h : (encode s).length ≤ fuel) :
    codes? false fuel (encode s) = some (s.map Char.toNat) := by
  induction s generalizing fuel with
  | nil =>
    rw [encode, List.flatMap_nil]
    unfold codes?
    rfl
  | cons c s ih =>
    have hlength := Json.encodeChar_length c
    rw [encode_cons, List.length_append] at h
    obtain ⟨fuel, rfl⟩ : ∃ n, fuel = n + 1 := ⟨fuel - 1, by omega⟩
    rw [encode_cons, codes?_encodeChar, ih (by omega), Option.map_some, List.map_cons]

theorem not_isHalf (c : Char) : isHalf c.toNat = false := by
  have hvalid := c.valid
  simp only [isHalf, isHighSurrogate, isLowSurrogate, UInt32.isValidChar, Nat.isValidChar] at *
  have hval : c.val.toNat = c.toNat := rfl
  rw [hval] at hvalid
  simp
  omega

theorem stringValue?_encode (s : List Char) : stringValue? (encode s) = some (String.ofList s) := by
  rw [stringValue?, codes?_encode s (Nat.le_refl _), Option.map_some,
    encodeCodes_plain s fun c _ => not_isHalf c]

theorem begins_quote (s : String) (rest : List Char) :
    Begins (quote s.toList ++ rest) (.string s) rest := by
  have heq : quote s.toList ++ rest = '"' :: (encode s.toList ++ '"' :: rest) := by simp [quote]
  rw [heq]
  refine begins_of_head ?_ (by decide) fun offset => ?_
  · unfold IsGap
    decide
  · exact ⟨_, by simp [token?, spanString_encode, stringValue?_encode]; rfl, rfl⟩

/-! ## Names -/

def highGaps : List Nat :=
  [0x85, 0xa0, 0x1680, 0x2000, 0x2001, 0x2002, 0x2003, 0x2004, 0x2005, 0x2006, 0x2007, 0x2008,
    0x2009, 0x200a, 0x200b, 0x2028, 0x2029, 0x202f, 0x205f, 0x3000, 0xfeff]

theorem IsGap.mem_highGaps {c : Char} (h : IsGap c) (hlow : 0x41 ≤ c.toNat) : c.toNat ∈ highGaps := by
  rcases h with h | h
  · simp only [isLineEnd, Bool.or_eq_true, beq_iff_eq] at h
    rcases h with ((rfl | rfl) | rfl) | rfl <;> revert hlow <;> decide
  · simp only [isBlank, Bool.or_eq_true, Bool.and_eq_true, beq_iff_eq, decide_eq_true_eq] at h
    simp only [highGaps, List.mem_cons, List.not_mem_nil, or_false]
    omega

/-- What may start a name is none of the characters that begin other tokens. -/
theorem isIdentifierStart_plain {c : Char} (h : Text.isIdentifierStart c = true) :
    ¬ IsGap c ∧ c ∉ ['/', '"', '\'', '\x60', '#', '\\', '.'] ∧ c.isDigit = false := by
  have hfirst : ∀ range ∈ Text.identifierStartRanges.toList, 0x41 ≤ range.1 := by decide +kernel
  have hgaps : ∀ n ∈ highGaps, Text.identifierStartRanges.bisect n
      (Nat.log2 Text.identifierStartRanges.size + 2) 0 Text.identifierStartRanges.size = false := by
    decide +kernel
  have htick : Text.identifierStartRanges.contains '\x60' = false := by decide +kernel
  have hback : Text.identifierStartRanges.contains '\\' = false := by decide +kernel
  simp only [Text.isIdentifierStart, Bool.or_eq_true, beq_iff_eq] at h
  rcases h with (rfl | rfl) | h
  · unfold IsGap
    decide
  · unfold IsGap
    decide
  · obtain ⟨range, hmem, hle, -⟩ := Text.Ranges.bisect_mem h
    have hlow : 0x41 ≤ c.toNat := Nat.le_trans (hfirst range hmem) hle
    have hne : ∀ d : Char, d.toNat < 0x41 → c ≠ d := by
      rintro d hd rfl
      omega
    have hmark : ∀ d, Text.identifierStartRanges.contains d = false → c ≠ d := by
      rintro d hd rfl
      rw [hd] at h
      cases h
    refine ⟨fun hgap => ?_, ?_, ?_⟩
    · have hnone := hgaps _ (hgap.mem_highGaps hlow)
      rw [Text.Ranges.contains, hnone] at h
      cases h
    · simp [hne '/' (by decide), hne '"' (by decide), hne '\'' (by decide), hne '#' (by decide),
        hne '.' (by decide), hmark '\x60' htick, hmark '\\' hback]
    · simp only [Char.isDigit, Bool.and_eq_false_iff, decide_eq_false_iff_not]
      right
      intro hle
      have hnat : c.toNat ≤ 57 := hle
      omega

theorem spanName_append {name : List Char}
    (hname : ∀ c ∈ name, c ≠ '\\' ∧ Text.isIdentifierPart c = true) {stop : Char}
    (hstop : stop ≠ '\\' ∧ Text.isIdentifierPart stop = false) (rest : List Char) :
    spanName false (name ++ stop :: rest) = (name, stop :: rest) := by
  induction name with
  | nil =>
    rw [List.nil_append, spanName, if_neg (by simp [hstop.2])]
    · rintro _ rfl
      exact absurd rfl hstop.1
    · rintro rfl
      exact absurd rfl hstop.1
  | cons c name ih =>
    obtain ⟨hback, hpart⟩ := hname c List.mem_cons_self
    rw [List.cons_append, spanName, if_pos hpart,
      ih fun d hd => hname d (List.mem_cons_of_mem _ hd)]
    · rintro _ rfl
      exact absurd rfl hback
    · rintro rfl
      exact absurd rfl hback

theorem nameChars?_plain {s : List Char} (hs : ∀ c ∈ s, c ≠ '\\' ∧ Text.isIdentifierPart c = true)
    {fuel : Nat} (hfuel : s.length ≤ fuel) : nameChars? fuel false s = some s := by
  induction s generalizing fuel with
  | nil =>
    unfold nameChars?
    rfl
  | cons c s ih =>
    obtain ⟨fuel, rfl⟩ : ∃ n, fuel = n + 1 := ⟨fuel - 1, by simp at hfuel; omega⟩
    obtain ⟨hback, hpart⟩ := hs c List.mem_cons_self
    simp only [List.length_cons] at hfuel
    have hrest : nameChars? fuel false s = some s :=
      ih (fun d hd => hs d (List.mem_cons_of_mem _ hd)) (by omega)
    simp [nameChars?, hback, hpart, hrest]

theorem not_isIdentifierPart_backslash : Text.isIdentifierPart '\\' = false := by decide +kernel

theorem isIdentifierName_plain {name : List Char} (h : Text.isIdentifierName name = true) :
    ∀ c ∈ name, c ≠ '\\' ∧ Text.isIdentifierPart c = true := by
  have hpart : ∀ c, Text.isIdentifierPart c = true → c ≠ '\\' ∧ Text.isIdentifierPart c = true := by
    intro c hc
    refine ⟨?_, hc⟩
    rintro rfl
    rw [not_isIdentifierPart_backslash] at hc
    cases hc
  cases name with
  | nil => simp
  | cons c name =>
    simp only [Text.isIdentifierName, Bool.and_eq_true, List.all_eq_true] at h
    exact List.forall_mem_cons.2
      ⟨hpart c (Text.isIdentifierPart_of_start h.1), fun d hd => hpart d (h.2 d hd)⟩

theorem nameValue?_plain {name : List Char} (h : Text.isIdentifierName name = true) :
    nameValue? name = some (String.ofList name) := by
  have hplain := isIdentifierName_plain h
  cases name with
  | nil => simp [Text.isIdentifierName] at h
  | cons c name =>
    simp only [Text.isIdentifierName, Bool.and_eq_true] at h
    have hrest := nameChars?_plain (fun d hd => hplain d (List.mem_cons_of_mem _ hd))
      (Nat.le_refl name.length)
    have hback := (hplain c List.mem_cons_self).1
    simp [nameValue?, nameChars?, hback, h.1, hrest]

theorem begins_name {name : String} (hname : Text.isIdentifierName name.toList = true) {stop : Char}
    (hstop : stop ≠ '\\' ∧ Text.isIdentifierPart stop = false) (rest : List Char) :
    Begins (name.toList ++ stop :: rest) (.name name false) (stop :: rest) := by
  have hplain := isIdentifierName_plain hname
  have hspan := spanName_append hplain hstop rest
  have hvalue := nameValue?_plain hname
  rw [String.ofList_toList] at hvalue
  have hescape : name.toList.contains '\\' = false := by
    rw [List.contains_eq_mem, decide_eq_false_iff_not]
    exact fun hm => (hplain _ hm).1 rfl
  generalize name.toList = text at *
  cases text with
  | nil => simp [Text.isIdentifierName] at hname
  | cons c text =>
    simp only [Text.isIdentifierName, Bool.and_eq_true] at hname
    obtain ⟨hgap, hspecial, hdigit⟩ := isIdentifierStart_plain hname.1
    simp only [List.mem_cons, List.not_mem_nil, or_false, not_or] at hspecial
    obtain ⟨hslash, hquote, hsingle, htick, hhash, hback, hdot⟩ := hspecial
    rw [List.cons_append] at hspan ⊢
    refine begins_of_head hgap hslash fun offset =>
      ⟨Point.after ⟨c :: (text ++ stop :: rest), offset⟩ (c :: text) (stop :: rest), ?_, rfl⟩
    simp only [token?, hquote, hsingle, htick, hhash, hback, hdot, hdigit, hname.1, or_self, or_true,
      false_and, if_false, if_true, Bool.false_eq_true, hspan, hvalue, hescape, Option.map_some]

/-! ## Numbers -/

/-- What may stand behind a number that is printed: it goes on neither with the number nor with a
name. -/
def EndsNumber (c : Char) : Prop := c = ',' ∨ c = '\n' ∨ c = ')'

theorem EndsNumber.plain {c : Char} (h : EndsNumber c) :
    c.isDigit = false ∧ c ≠ '_' ∧ c ≠ '.' ∧ c ≠ 'e' ∧ c ≠ 'E' ∧ c ≠ 'n' ∧
      c ∉ ['x', 'X', 'o', 'O', 'b', 'B'] ∧
      (Text.isIdentifierStart c || c.isDigit || c == '\\') = false := by
  rcases h with rfl | rfl | rfl <;> decide +kernel

theorem EndsNumber.endsName {c : Char} (h : EndsNumber c) :
    c ≠ '\\' ∧ Text.isIdentifierPart c = false := by
  rcases h with rfl | rfl | rfl <;> decide +kernel

theorem digit_ne {c d : Char} (hc : c.isDigit = true) (hd : d.isDigit = false) : c ≠ d := by
  rintro rfl
  rw [hc] at hd
  cases hd

theorem not_isGap_of_isDigit {c : Char} (hc : c.isDigit = true) : ¬ IsGap c := by
  have hnat : 48 ≤ c.toNat ∧ c.toNat ≤ 57 := by
    simpa [Char.isDigit, UInt32.le_iff_toNat_le] using hc
  rintro (h | h)
  · simp only [isLineEnd, Bool.or_eq_true, beq_iff_eq] at h
    rcases h with ((rfl | rfl) | rfl) | rfl <;> revert hnat <;> decide
  · simp only [isBlank, Bool.or_eq_true, Bool.and_eq_true, beq_iff_eq, decide_eq_true_eq] at h
    omega

theorem separated?_natText (n : Nat) {stop : Char} (hstop : EndsNumber stop) (rest : List Char) :
    separated? Char.isDigit (natText n ++ stop :: rest) = some (natText n, stop :: rest) := by
  obtain ⟨hdigit, hunder, -⟩ := hstop.plain
  have hall := natText_isDigit n
  have hnone : ∀ c ∈ natText n, c ≠ '_' := fun c hc => digit_ne (hall c hc) (by decide)
  have htake : (natText n ++ stop :: rest).takeWhile (fun c => c.isDigit || c == '_') = natText n := by
    rw [List.takeWhile_append_of_pos fun c hc => by simp [hall c hc]]
    simp [hdigit, hunder]
  have hhead : (natText n).head?.any Char.isDigit = true := by
    cases hn : natText n with
    | nil => exact absurd hn (natText_ne_nil n)
    | cons c s => exact hall c (by simp [hn])
  have hlast : (natText n).getLast?.any Char.isDigit = true := by
    rw [List.getLast?_eq_some_getLast (natText_ne_nil n)]
    exact hall _ (List.getLast_mem _)
  have hfilter : (natText n).filter (· != '_') = natText n :=
    List.filter_eq_self.2 fun c hc => by simp [hnone c hc]
  unfold separated?
  dsimp only
  rw [htake, hhead, hlast, List.any_eq_false.2, hfilter, List.drop_left]
  · rfl
  · -- no two separators follow each other, since there are none
    rintro ⟨a, b⟩ hab
    simp [hnone a (List.of_mem_zip hab).1]

theorem decimal?_natText (n : Nat) {stop : Char} (hstop : EndsNumber stop) (rest : List Char) :
    decimal? (natText n) (stop :: rest) =
      some (.number (Double.ofDecimal false n 0), stop :: rest) := by
  obtain ⟨-, -, hdot, he, hE, -⟩ := hstop.plain
  simp [decimal?, exponent?, hdot, he, hE, decimalNumber_natText]

theorem anyNumber?_natText (n : Nat) {stop : Char} (hstop : EndsNumber stop) (rest : List Char) :
    anyNumber? (natText n ++ stop :: rest) =
      some (.number (Double.ofDecimal false n 0), stop :: rest) := by
  have hdecimal := decimal?_natText n hstop rest
  obtain ⟨hdigit, hunder, hdot, he, hE, hbig, hradix, -⟩ := hstop.plain
  simp only [List.mem_cons, List.not_mem_nil, or_false, not_or] at hradix
  by_cases h0 : n = 0
  · subst h0
    have htext : natText 0 = ['0'] := rfl
    rw [htext] at hdecimal ⊢
    simp [anyNumber?, hradix, hdigit, hunder, hbig, hdecimal]
  · have hseparated := separated?_natText n hstop rest
    cases htext : natText n with
    | nil => exact absurd htext (natText_ne_nil n)
    | cons d digits =>
      have hzero := natText_head h0 htext
      have hpoint : d ≠ '.' := digit_ne (natText_isDigit n d (by simp [htext])) (by decide)
      rw [htext] at hseparated hdecimal
      rw [List.cons_append] at hseparated ⊢
      unfold anyNumber?
      split
      · rename_i heq
        simp only [List.cons.injEq] at heq
        exact absurd heq.1 hzero
      · rename_i heq
        simp only [List.cons.injEq] at heq
        exact absurd heq.1 hpoint
      · simp [hseparated, hbig, hdecimal]

/-- The number itself is what the decimal text of a number reads as. -/
theorem begins_natText (n : Nat) {stop : Char} (hstop : EndsNumber stop) (rest : List Char) :
    Begins (natText n ++ stop :: rest) (.number (Double.ofDecimal false n 0)) (stop :: rest) := by
  have hany := anyNumber?_natText n hstop rest
  have hnext := hstop.plain.2.2.2.2.2.2.2
  cases htext : natText n with
  | nil => exact absurd htext (natText_ne_nil n)
  | cons d digits =>
    have hd : d.isDigit = true := natText_isDigit n d (by simp [htext])
    rw [htext] at hany
    rw [List.cons_append] at hany ⊢
    have hnumber : number? (d :: (digits ++ stop :: rest)) =
        some (.number (Double.ofDecimal false n 0), stop :: rest) := by
      simp only [number?, hany, List.head?_cons, Option.any_some, hnext, Bool.false_eq_true, if_false]
    have hquote : ¬ (d = '"' ∨ d = '\'') := by
      rintro (rfl | rfl)
      · exact absurd rfl (digit_ne hd (by decide))
      · exact absurd rfl (digit_ne hd (by decide))
    have htick : d ≠ '\x60' := digit_ne hd (by decide)
    have htoken : ∀ offset, ∃ after, token? ⟨d :: (digits ++ stop :: rest), offset⟩ =
        some (.number (Double.ofDecimal false n 0), ⟨stop :: rest, after⟩) := fun offset =>
      ⟨_, by simp only [token?, if_neg hquote, if_neg htick, hd, true_or, if_true, hnumber,
        Option.map_some]; rfl⟩
    refine begins_of_head (not_isGap_of_isDigit hd) (digit_ne hd (by decide)) fun offset => ?_
    obtain ⟨after, hafter⟩ := htoken offset
    exact ⟨_, hafter, rfl⟩

end BundleLedger.Script
