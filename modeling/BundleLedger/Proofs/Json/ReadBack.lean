import BundleLedger.Json.Printer
import BundleLedger.Json.Tree
import BundleLedger.Proofs.Decimal.Marks
import BundleLedger.Proofs.Ledger

/-!
# A value that was written reads back

A value is written without blanks, and each part of its text shows where it ends: strings and
collections by their last mark, numbers by what follows them. So the text reads as a tree with the
same parts, and the tree stands for the value again, as long as its numbers are written in full, no
key stands twice and the collections are not nested too deep (`Legible`).

Results:

* `readQuoted_encode` and `readMagnitude_natText`: a string and a number read as they were written.
* `reads_of_legible`: so does every value.
* `read?_text` and `parse?_text`: the text of a legible value reads as its tree and stands for it.
-/
namespace BundleLedger.Json

open BundleLedger.Decimal

/-! ## What can be written and read -/

/-- The values that survive being written and read, with collections nested at most `limit` deep:
numbers are whole and fit 64 bits, or are the negative zero, and in no object a key stands twice. -/
inductive Legible : Nat → Value → Prop where
  | null {limit : Nat} : Legible limit .null
  | bool {limit : Nat} (b : Bool) : Legible limit (.bool b)
  | string {limit : Nat} (s : String) : Legible limit (.string s)
  | integer {limit : Nat} {k : Int} (low : -(wordSize / 2 : Nat) ≤ k) (high : k < wordSize) :
      Legible limit (.number (.integer k))
  | negativeZero {limit : Nat} : Legible limit (.number (.double (.zero true)))
  | array {limit : Nat} {items : List Value} (h : ∀ v ∈ items, Legible limit v) :
      Legible (limit + 1) (.array items)
  | object {limit : Nat} {members : Members} (keys : (Entries.keys members).Nodup)
      (h : ∀ m ∈ members, Legible limit m.2) : Legible (limit + 1) (.object members)

/-! ## Strings -/

/-- The rest of a string behind one character, as it is written. -/
def behind (written : List Char) (rest : List Char) : Option (List Char × List Char) :=
  (readQuoted rest).map fun (raw, rest) => (written ++ raw, rest)

theorem readQuoted_letter {e : Char} (he : (escaped? e).isSome = true) (hu : e ≠ 'u')
    (rest : List Char) : readQuoted ('\\' :: e :: rest) = behind ['\\', e] rest := by
  simp [readQuoted, he, hu, behind]

theorem readQuoted_code {a b c d : Char} (h : (fourHex? a b c d).isSome = true) (rest : List Char) :
    readQuoted ('\\' :: 'u' :: a :: b :: c :: d :: rest) =
      behind ['\\', 'u', a, b, c, d] rest := by
  simp [readQuoted, h, behind]

theorem readQuoted_plain {c : Char} (hquote : c ≠ '"') (hback : c ≠ '\\') (hcode : ¬ c.toNat < 32)
    (rest : List Char) : readQuoted (c :: rest) = behind [c] rest := by
  simp [readQuoted, hback, hcode, behind]

theorem shortEscape?_letter {c e : Char} (h : shortEscape? c = some e) :
    (escaped? e).isSome = true ∧ e ≠ 'u' := by
  unfold shortEscape? at h
  repeat' split at h
  all_goals first
    | (cases h; decide)
    | cases h

theorem readQuoted_encodeChar (c : Char) (rest : List Char) :
    readQuoted (encodeChar c ++ rest) = behind (encodeChar c) rest := by
  unfold encodeChar
  split
  · rename_i e he
    obtain ⟨hletter, hu⟩ := shortEscape?_letter he
    exact readQuoted_letter hletter hu rest
  · rename_i hshort
    split
    · rename_i hcode
      have hall : ∀ n, n < 32 → (fourHex? '0' '0' (hexDigit (n / 16)) (hexDigit (n % 16))).isSome =
          true := by decide
      exact readQuoted_code (hall _ hcode) rest
    · rename_i hcode
      refine readQuoted_plain ?_ ?_ hcode rest <;> rintro rfl <;> cases hshort

theorem readQuoted_encode (s rest : List Char) :
    readQuoted (encode s ++ '"' :: rest) = some (encode s, rest) := by
  induction s with
  | nil => rfl
  | cons c s ih =>
    have hcons : encode (c :: s) = encodeChar c ++ encode s := rfl
    rw [hcons, List.append_assoc, readQuoted_encodeChar, behind, ih]
    rfl

/-! ## Numbers -/

/-- What may follow a value: nothing, or a mark that ends it. -/
def Ends (rest : List Char) : Prop := ∀ c, rest.head? = some c → c = ',' ∨ c = ']' ∨ c = '}'

theorem Ends.nil : Ends [] := nofun

theorem Ends.digits {rest : List Char} (h : Ends rest) :
    rest.takeWhile Char.isDigit = [] ∧ rest.dropWhile Char.isDigit = rest := by
  cases rest with
  | nil => exact ⟨rfl, rfl⟩
  | cons c rest =>
    have hc : c.isDigit = false := by
      rcases h c rfl with rfl | rfl | rfl <;> decide
    simp [hc]

theorem Ends.readFraction {rest : List Char} (h : Ends rest) :
    Json.readFraction rest = some ([], rest) := by
  unfold Json.readFraction
  split
  · rename_i s
    rcases h '.' rfl with h | h | h <;> cases h
  · rfl

theorem Ends.readExponent {rest : List Char} (h : Ends rest) :
    Json.readExponent rest = some (none, rest) := by
  cases rest with
  | nil => rfl
  | cons c rest =>
    have hc : ¬ (c = 'e' ∨ c = 'E') := by
      rintro (rfl | rfl) <;> rcases h _ rfl with h | h | h <;> cases h
    unfold Json.readExponent
    exact if_neg hc

theorem spanDigits_natText (n : Nat) {rest : List Char} (h : Ends rest) :
    spanDigits (natText n ++ rest) = ((natText n).map digitValue, rest) := by
  rw [spanDigits, List.takeWhile_append_of_pos (natText_isDigit n), List.dropWhile_append_of_pos
    (natText_isDigit n), h.digits.1, h.digits.2, List.append_nil]

theorem numberOf_natText (n : Nat) : numberOf ((natText n).map digitValue) = n := by
  rw [numberOf, List.foldl_map]
  exact decimalNumber_natText n

/-- Only zero begins with a zero, and nothing follows it. -/
theorem natText_leading_zero (n d : Nat) (digits : List Nat) :
    (natText n).map digitValue ≠ 0 :: d :: digits := by
  intro heq
  obtain ⟨c, text, htext⟩ := List.exists_cons_of_ne_nil (natText_ne_nil n)
  have hdigit := natText_isDigit n c (htext ▸ List.mem_cons_self)
  rw [htext, List.map_cons, List.cons.injEq] at heq
  by_cases hn : n = 0
  · rw [hn, natText, if_pos rfl, List.cons.injEq] at htext
    rw [← htext.2] at heq
    cases heq.2
  · refine natText_head hn htext (Char.toNat_inj.1 ?_)
    simp only [Char.isDigit, Bool.and_eq_true, decide_eq_true_eq] at hdigit
    have hzero : c.toNat - 48 = 0 := heq.1
    have hlow : 48 ≤ c.toNat := hdigit.1
    show c.toNat = 48
    omega

theorem readMagnitude_natText (negative : Bool) (n : Nat) {rest : List Char} (h : Ends rest) :
    readMagnitude negative (natText n ++ rest) =
      some (⟨negative, (natText n).map digitValue, [], none⟩, rest) := by
  rw [readMagnitude, spanDigits_natText n h]
  dsimp only
  have hzero := natText_leading_zero n
  have hne : (natText n).map digitValue ≠ [] := by simpa using natText_ne_nil n
  split
  · rename_i hnil
    exact absurd hnil hne
  · rename_i hlong
    exact absurd hlong (hzero _ _)
  · rw [h.readFraction]
    dsimp only [bind, Option.bind]
    rw [h.readExponent]
    rfl

/-! ## Values -/

theorem skipSpace_cons {c : Char} (h : isSpace c = false) (s : List Char) :
    skipSpace (c :: s) = c :: s := by
  rw [skipSpace, List.dropWhile_cons_of_neg (by simp [h])]

/-- Whatever ends it, a text is read as a tree. -/
def ReadsAs (text : List Char) (tree : Tree) : Prop :=
  ∀ fuel rest, text.length < fuel → Ends rest →
    Tree.readValue fuel (text ++ rest) = some (tree, rest)

theorem ReadsAs.read? {text : List Char} {tree : Tree} (h : ReadsAs text tree) :
    Tree.read? text = some tree := by
  have htree := h (text.length + 1) [] (Nat.lt_succ_self _) Ends.nil
  rw [List.append_nil] at htree
  rw [Tree.read?, htree]
  rfl

mutual

def Tree.ofValue : Value → Tree
  | .null => .null
  | .bool b => .bool b
  | .number n => (Tree.read? n.write).getD .null
  | .string s => .string (encode s.toList)
  | .array items => .array (ofItems items)
  | .object members => .object (ofMembers members)

def Tree.ofItems : List Value → List Tree
  | [] => []
  | item :: items => ofValue item :: ofItems items

def Tree.ofMembers : List (String × Value) → List (List Char × Tree)
  | [] => []
  | (key, item) :: members => (encode key.toList, ofValue item) :: ofMembers members

end

/-- What a value is written as reads as its tree, and that stands for it. -/
def Reads (limit : Nat) (v : Value) : Prop :=
  ReadsAs v.compact (Tree.ofValue v) ∧ Tree.value? limit (Tree.ofValue v) = some v

theorem ofValue_number {n : Number} {tree : Tree} (h : ReadsAs n.write tree) :
    Tree.ofValue (.number n) = tree := by
  rw [Tree.ofValue, h.read?, Option.getD_some]

/-! ### Words, strings and numbers -/

theorem reads_null (limit : Nat) : Reads limit .null := by
  refine ⟨fun fuel rest hfuel _ => ?_, rfl⟩
  obtain ⟨fuel, rfl⟩ := Nat.exists_eq_add_one_of_ne_zero (Nat.ne_zero_of_lt hfuel)
  rfl

theorem reads_bool (limit : Nat) (b : Bool) : Reads limit (.bool b) := by
  refine ⟨fun fuel rest hfuel _ => ?_, rfl⟩
  obtain ⟨fuel, rfl⟩ := Nat.exists_eq_add_one_of_ne_zero (Nat.ne_zero_of_lt hfuel)
  cases b <;> rfl

theorem readValue_quote (fuel : Nat) (s : List Char) : Tree.readValue (fuel + 1) ('"' :: s) =
    (readQuoted s).map fun (raw, rest) => (.string raw, rest) := by
  rw [Tree.readValue, skipSpace_cons (by decide)]
  rfl

theorem readValue_minus (fuel : Nat) (s : List Char) : Tree.readValue (fuel + 1) ('-' :: s) =
    (readMagnitude true s).map fun (n, rest) => (.number n, rest) := by
  rw [Tree.readValue, skipSpace_cons (by decide)]
  rfl

theorem readValue_digit (fuel : Nat) {c : Char} (h : c.isDigit = true) (s : List Char) :
    Tree.readValue (fuel + 1) (c :: s) =
      (readMagnitude false (c :: s)).map fun (n, rest) => (.number n, rest) := by
  have hne : ∀ mark : Char, mark.isDigit = false → c ≠ mark := by
    rintro mark hmark rfl
    rw [h] at hmark
    cases hmark
  have hspace : isSpace c = false := by
    simp [isSpace, hne ' ' (by decide), hne '\n' (by decide), hne '\t' (by decide),
      hne '\r' (by decide)]
  rw [Tree.readValue, skipSpace_cons hspace]
  dsimp only
  rw [if_neg (hne '\x7b' (by decide)), if_neg (hne '[' (by decide)), if_neg (hne '"' (by decide)),
    if_neg (hne '-' (by decide)), if_pos h]

theorem reads_string (limit : Nat) (s : String) : Reads limit (.string s) := by
  rw [Reads, Tree.ofValue]
  refine ⟨fun fuel rest hfuel _ => ?_, ?_⟩
  · obtain ⟨fuel, rfl⟩ := Nat.exists_eq_add_one_of_ne_zero (Nat.ne_zero_of_lt hfuel)
    have hquoted : Value.compact (.string s) ++ rest = '"' :: (encode s.toList ++ '"' :: rest) := by
      simp [Value.compact, quote]
    rw [hquoted, readValue_quote, readQuoted_encode]
    rfl
  · rw [Tree.value?, decode_encode]
    simp

def wholeLiteral (negative : Bool) (n : Nat) : NumberLiteral :=
  ⟨negative, (natText n).map digitValue, [], none⟩

theorem readsAs_natText (n : Nat) : ReadsAs (natText n) (.number (wholeLiteral false n)) := by
  intro fuel rest hfuel hends
  obtain ⟨fuel, rfl⟩ := Nat.exists_eq_add_one_of_ne_zero (Nat.ne_zero_of_lt hfuel)
  obtain ⟨c, text, htext⟩ := List.exists_cons_of_ne_nil (natText_ne_nil n)
  have hread := readMagnitude_natText false n hends
  rw [htext, List.cons_append] at hread ⊢
  rw [readValue_digit fuel (natText_isDigit n c (htext ▸ List.mem_cons_self)), hread, Option.map_some,
    wholeLiteral, htext]

theorem readsAs_negative (n : Nat) : ReadsAs ('-' :: natText n) (.number (wholeLiteral true n)) := by
  intro fuel rest hfuel hends
  obtain ⟨fuel, rfl⟩ := Nat.exists_eq_add_one_of_ne_zero (Nat.ne_zero_of_lt hfuel)
  rw [List.cons_append, readValue_minus, readMagnitude_natText true n hends]
  rfl

theorem number?_wholeLiteral {n : Nat} (h : n < wordSize) :
    (wholeLiteral false n).number? = some (.integer n) := by
  have hfits : n ≤ maxWord := Nat.le_sub_one_of_lt h
  simp [NumberLiteral.number?, wholeLiteral, numberOf_natText, hfits]

theorem number?_negative {n : Nat} (hpos : 0 < n) (h : n ≤ wordSize / 2) :
    (wholeLiteral true n).number? = some (.integer (-n)) := by
  simp [NumberLiteral.number?, wholeLiteral, numberOf_natText, hpos, h]

theorem reads_integer (limit : Nat) {k : Int} (low : -(wordSize / 2 : Nat) ≤ k)
    (high : k < wordSize) : Reads limit (.number (.integer k)) := by
  cases k with
  | ofNat n =>
    have hread : ReadsAs (Number.write (.integer (.ofNat n))) _ := readsAs_natText n
    rw [Reads, ofValue_number hread]
    refine ⟨readsAs_natText n, ?_⟩
    rw [Tree.value?, number?_wholeLiteral (Int.ofNat_lt.1 high)]
    rfl
  | negSucc n =>
    have hread : ReadsAs (Number.write (.integer (.negSucc n))) _ := readsAs_negative (n + 1)
    rw [Reads, ofValue_number hread]
    refine ⟨readsAs_negative (n + 1), ?_⟩
    rw [Tree.value?, number?_negative (Nat.succ_pos n) (by omega)]
    rfl

/-- The negative zero is written with a point. -/
theorem readsAs_negativeZero :
    ReadsAs (Number.write (.double (.zero true))) (.number ⟨true, [0], [0], none⟩) := by
  intro fuel rest hfuel hends
  obtain ⟨fuel, rfl⟩ := Nat.exists_eq_add_one_of_ne_zero (Nat.ne_zero_of_lt hfuel)
  have hwritten : Number.write (.double (.zero true)) = ['-', '0', '.', '0'] := by decide
  have hwhole : spanDigits ('0' :: '.' :: '0' :: rest) = ([0], '.' :: '0' :: rest) := rfl
  have hplaces : spanDigits ('0' :: rest) = ([0], rest) := by
    simpa [natText, digitValue] using spanDigits_natText 0 hends
  have hfraction : readFraction ('.' :: '0' :: rest) = some ([0], rest) := by
    rw [readFraction, hplaces]
  have hread : readMagnitude true ('0' :: '.' :: '0' :: rest) =
      some (⟨true, [0], [0], none⟩, rest) := by
    rw [readMagnitude, hwhole]
    dsimp only [bind, Option.bind]
    rw [hfraction]
    dsimp only
    rw [hends.readExponent]
    rfl
  rw [hwritten, List.cons_append, readValue_minus]
  show (readMagnitude true ('0' :: '.' :: '0' :: rest)).map _ = _
  rw [hread]
  rfl

theorem reads_negativeZero (limit : Nat) : Reads limit (.number (.double (.zero true))) := by
  rw [Reads, ofValue_number readsAs_negativeZero]
  refine ⟨readsAs_negativeZero, ?_⟩
  have hnumber : NumberLiteral.number? ⟨true, [0], [0], none⟩ = some (.double (.zero true)) := by
    decide
  rw [Tree.value?, hnumber]
  rfl

/-! ### Collections -/

theorem ends_bracket (rest : List Char) : Ends (']' :: rest) := by
  rintro c ⟨⟩
  exact .inr (.inl rfl)

theorem ends_brace (rest : List Char) : Ends ('}' :: rest) := by
  rintro c ⟨⟩
  exact .inr (.inr rfl)

theorem ends_items (items : List Value) (rest : List Char) :
    Ends (Value.compactItems items ++ ']' :: rest) := by
  cases items with
  | nil => simpa [Value.compactItems] using ends_bracket rest
  | cons item items =>
    rw [Value.compactItems_cons]
    rintro c ⟨⟩
    exact .inl rfl

theorem ends_members (members : Members) (rest : List Char) :
    Ends (Value.compactMembers members ++ '}' :: rest) := by
  cases members with
  | nil => simpa [Value.compactMembers] using ends_brace rest
  | cons m members =>
    rw [Value.compactMembers_cons]
    rintro c ⟨⟩
    exact .inl rfl

section Steps

variable {fuel : Nat} {s rest : List Char} {tree : Tree}

theorem skipSpace_comma (s : List Char) : skipSpace (',' :: s) = ',' :: s :=
  skipSpace_cons (by decide) s

theorem readItems_last (h : Tree.readValue fuel s = some (tree, ']' :: rest)) :
    Tree.readItems (fuel + 1) s = some ([tree], rest) := by
  rw [Tree.readItems, h]
  dsimp only
  rw [skipSpace_cons (by decide)]
  rfl

theorem readItems_more (h : Tree.readValue fuel s = some (tree, ',' :: rest)) :
    Tree.readItems (fuel + 1) s =
      (Tree.readItems fuel rest).map fun (trees, rest) => (tree :: trees, rest) := by
  rw [Tree.readItems, h]
  dsimp only
  rw [skipSpace_comma]
  rfl

def readBehindMember (fuel : Nat) (member : List Char × Tree) :
    List Char → Option (List (List Char × Tree) × List Char)
  | '}' :: rest => some ([member], rest)
  | ',' :: rest => (Tree.readMembers fuel rest).map fun (members, rest) => (member :: members, rest)
  | _ => none

/-- A member is read up to what follows its value. -/
theorem readMembers_step (key : String) (h : Tree.readValue fuel s = some (tree, rest)) :
    Tree.readMembers (fuel + 1) (quote key.toList ++ ':' :: s) =
      readBehindMember fuel (encode key.toList, tree) (skipSpace rest) := by
  have hquoted : quote key.toList ++ ':' :: s = '"' :: (encode key.toList ++ '"' :: ':' :: s) := by
    simp [quote]
  rw [hquoted, Tree.readMembers, skipSpace_cons (by decide)]
  simp only [readQuoted_encode, skipSpace_cons (show isSpace ':' = false by decide), h]
  rfl

theorem readMembers_last (key : String) (h : Tree.readValue fuel s = some (tree, '}' :: rest)) :
    Tree.readMembers (fuel + 1) (quote key.toList ++ ':' :: s) =
      some ([(encode key.toList, tree)], rest) := by
  rw [readMembers_step key h, skipSpace_cons (by decide)]
  rfl

theorem readMembers_more (key : String) (h : Tree.readValue fuel s = some (tree, ',' :: rest)) :
    Tree.readMembers (fuel + 1) (quote key.toList ++ ':' :: s) =
      (Tree.readMembers fuel rest).map fun (members, rest) =>
        ((encode key.toList, tree) :: members, rest) := by
  rw [readMembers_step key h, skipSpace_comma]
  rfl

theorem members?_cons {limit : Nat} {value : Value} {trees : List (List Char × Tree)}
    {members : Members} (key : String) (hvalue : Tree.value? limit tree = some value)
    (hmembers : Tree.members? limit trees = some members) :
    Tree.members? limit ((encode key.toList, tree) :: trees) = some ((key, value) :: members) := by
  simp [Tree.members?, decode_encode, hvalue, hmembers]

end Steps

/-- Items read one after the other, up to the bracket. -/
theorem readItems_compact {limit : Nat} {item : Value} {items : List Value}
    (h : ∀ v ∈ item :: items, Reads limit v) :
    (∀ fuel rest, (item.compact ++ Value.compactItems items).length + 1 < fuel →
      Tree.readItems fuel (item.compact ++ (Value.compactItems items ++ ']' :: rest)) =
        some (Tree.ofItems (item :: items), rest)) ∧
      Tree.values? limit (Tree.ofItems (item :: items)) = some (item :: items) := by
  induction items generalizing item with
  | nil =>
    obtain ⟨hread, hvalue⟩ := h item List.mem_cons_self
    refine ⟨fun fuel rest hfuel => ?_, by simp [Tree.ofItems, Tree.values?, hvalue]⟩
    obtain ⟨fuel, rfl⟩ := Nat.exists_eq_add_one_of_ne_zero (Nat.ne_zero_of_lt hfuel)
    rw [List.length_append] at hfuel
    exact readItems_last (hread fuel _ (by omega) (ends_items [] rest))
  | cons next items ih =>
    obtain ⟨hread, hvalue⟩ := h item List.mem_cons_self
    obtain ⟨hreads, hvalues⟩ := ih fun v hv => h v (List.mem_cons_of_mem _ hv)
    refine ⟨fun fuel rest hfuel => ?_, by rw [Tree.ofItems, Tree.values?, hvalue, hvalues]⟩
    obtain ⟨fuel, rfl⟩ := Nat.exists_eq_add_one_of_ne_zero (Nat.ne_zero_of_lt hfuel)
    have hitem := hread fuel _ (by rw [List.length_append] at hfuel; omega)
      (ends_items (next :: items) rest)
    rw [Value.compactItems_cons] at hfuel hitem ⊢
    simp only [List.length_append, List.length_cons] at hfuel hreads
    simp only [List.cons_append, List.append_assoc] at hitem ⊢
    rw [readItems_more hitem, hreads fuel rest (by omega)]
    rfl

/-- Members read one after the other, up to the brace. -/
theorem readMembers_compact {limit : Nat} {key : String} {value : Value} {members : Members}
    (h : ∀ m ∈ (key, value) :: members, Reads limit m.2) :
    (∀ fuel rest, (quote key.toList ++ ':' :: value.compact ++
        Value.compactMembers members).length + 1 < fuel →
      Tree.readMembers fuel (quote key.toList ++
          ':' :: (value.compact ++ (Value.compactMembers members ++ '}' :: rest))) =
        some (Tree.ofMembers ((key, value) :: members), rest)) ∧
      Tree.members? limit (Tree.ofMembers ((key, value) :: members)) =
        some ((key, value) :: members) := by
  induction members generalizing key value with
  | nil =>
    obtain ⟨hread, hvalue⟩ := h _ List.mem_cons_self
    refine ⟨fun fuel rest hfuel => ?_, members?_cons key hvalue rfl⟩
    obtain ⟨fuel, rfl⟩ := Nat.exists_eq_add_one_of_ne_zero (Nat.ne_zero_of_lt hfuel)
    simp only [List.length_append, List.length_cons] at hfuel
    exact readMembers_last key (hread fuel _ (by dsimp only; omega) (ends_members [] rest))
  | cons m members ih =>
    obtain ⟨next, nextValue⟩ := m
    obtain ⟨hread, hvalue⟩ := h _ List.mem_cons_self
    obtain ⟨hreads, hvalues⟩ := ih fun m hm => h m (List.mem_cons_of_mem _ hm)
    refine ⟨fun fuel rest hfuel => ?_, members?_cons key hvalue hvalues⟩
    obtain ⟨fuel, rfl⟩ := Nat.exists_eq_add_one_of_ne_zero (Nat.ne_zero_of_lt hfuel)
    simp only [List.length_append, List.length_cons] at hfuel hreads
    have hvalue := hread fuel _ (by dsimp only; omega) (ends_members ((next, nextValue) :: members) rest)
    rw [Value.compactMembers_cons] at hfuel hvalue ⊢
    simp only [List.length_append, List.length_cons] at hfuel
    simp only [List.cons_append, List.append_assoc] at hvalue ⊢
    rw [readMembers_more key hvalue, hreads fuel rest (by omega)]
    rfl

/-- No value begins with a blank or a closing bracket. -/
theorem compact_head (v : Value) :
    ∃ c text, v.compact = c :: text ∧ isSpace c = false ∧ c ≠ ']' := by
  cases v with
  | null => exact ⟨'n', _, rfl, by decide, by decide⟩
  | bool b =>
    cases b
    · exact ⟨'f', _, rfl, by decide, by decide⟩
    · exact ⟨'t', _, rfl, by decide, by decide⟩
  | number n =>
    obtain ⟨c, text, htext⟩ := List.exists_cons_of_ne_nil n.write_ne_nil
    have hmark : isMark c = true := n.write_marks c (htext ▸ List.mem_cons_self)
    have hne : ∀ d : Char, isMark d = false → c ≠ d := by
      rintro d hd rfl
      rw [hmark] at hd
      cases hd
    refine ⟨c, text, by rw [Value.compact, htext], ?_, hne ']' (by decide)⟩
    simp [isSpace, hne ' ' (by decide), hne '\n' (by decide), hne '\t' (by decide),
      hne '\r' (by decide)]
  | string s => exact ⟨'"', _, rfl, by decide, by decide⟩
  | array items =>
    cases items with
    | nil => exact ⟨'[', _, rfl, by decide, by decide⟩
    | cons item items => exact ⟨'[', _, by rw [Value.compact]; rfl, by decide, by decide⟩
  | object members =>
    cases members with
    | nil => exact ⟨'\x7b', _, rfl, by decide, by decide⟩
    | cons m members => exact ⟨'\x7b', _, by rw [Value.compact]; rfl, by decide, by decide⟩

theorem readValue_bracket (fuel : Nat) {c : Char} (hspace : isSpace c = false) (hc : c ≠ ']')
    (s : List Char) : Tree.readValue (fuel + 1) ('[' :: c :: s) =
      (Tree.readItems fuel (c :: s)).map fun (items, rest) => (.array items, rest) := by
  rw [Tree.readValue, skipSpace_cons (by decide)]
  dsimp only
  rw [if_neg (by decide), if_pos rfl, skipSpace_cons hspace]
  split
  · rename_i heq
    exact absurd (List.cons.inj heq).1 hc
  · rfl

theorem readValue_brace (fuel : Nat) (s : List Char) :
    Tree.readValue (fuel + 1) ('{' :: '"' :: s) =
      (Tree.readMembers fuel ('"' :: s)).map fun (members, rest) => (.object members, rest) := by
  rw [Tree.readValue, skipSpace_cons (by decide)]
  dsimp only
  rw [if_pos rfl, skipSpace_cons (by decide)]
  rfl

theorem reads_array {limit : Nat} {items : List Value} (h : ∀ v ∈ items, Reads limit v) :
    Reads (limit + 1) (.array items) := by
  rw [Reads, Tree.ofValue]
  cases items with
  | nil =>
    refine ⟨fun fuel rest hfuel _ => ?_, by simp [Tree.ofItems, Tree.value?, Tree.values?]⟩
    obtain ⟨fuel, rfl⟩ := Nat.exists_eq_add_one_of_ne_zero (Nat.ne_zero_of_lt hfuel)
    rfl
  | cons item items =>
    obtain ⟨hread, hvalues⟩ := readItems_compact h
    refine ⟨fun fuel rest hfuel _ => ?_, by simp [Tree.value?, hvalues]⟩
    obtain ⟨fuel, rfl⟩ := Nat.exists_eq_add_one_of_ne_zero (Nat.ne_zero_of_lt hfuel)
    have hcompact : Value.compact (.array (item :: items)) =
        '[' :: (item.compact ++ (Value.compactItems items ++ [']'])) := by
      rw [Value.compact, List.cons_append, List.cons_append, List.append_assoc]
    have hitems := hread fuel rest (by
      rw [hcompact] at hfuel
      simp only [List.length_cons, List.length_append, List.length_nil] at hfuel ⊢
      omega)
    obtain ⟨c, text, htext, hspace, hc⟩ := compact_head item
    simp only [hcompact, htext, List.cons_append, List.append_assoc, List.nil_append] at hitems ⊢
    rw [readValue_bracket fuel hspace hc, hitems]
    rfl

theorem reads_object {limit : Nat} {members : Members} (hkeys : (Entries.keys members).Nodup)
    (h : ∀ m ∈ members, Reads limit m.2) : Reads (limit + 1) (.object members) := by
  rw [Reads, Tree.ofValue]
  cases members with
  | nil =>
    refine ⟨fun fuel rest hfuel _ => ?_, by simp [Tree.ofMembers, Tree.value?, Tree.members?]; rfl⟩
    obtain ⟨fuel, rfl⟩ := Nat.exists_eq_add_one_of_ne_zero (Nat.ne_zero_of_lt hfuel)
    rfl
  | cons m members =>
    obtain ⟨key, value⟩ := m
    obtain ⟨hread, hvalues⟩ := readMembers_compact h
    have hpairs : Entries.ofPairs ((key, value) :: members) = (key, value) :: members :=
      Entries.putAll_eq_append (by simpa using hkeys)
    refine ⟨fun fuel rest hfuel _ => ?_, by simp [Tree.value?, hvalues, hpairs]⟩
    obtain ⟨fuel, rfl⟩ := Nat.exists_eq_add_one_of_ne_zero (Nat.ne_zero_of_lt hfuel)
    have hcompact : Value.compact (.object ((key, value) :: members)) =
        '{' :: (quote key.toList ++ ':' :: (value.compact ++
          (Value.compactMembers members ++ ['}']))) := by
      simp [Value.compact]
    have hmembers := hread fuel rest (by
      rw [hcompact] at hfuel
      simp only [List.length_cons, List.length_append, List.length_nil] at hfuel ⊢
      omega)
    simp only [hcompact, quote, List.cons_append, List.append_assoc, List.nil_append] at hmembers ⊢
    rw [readValue_brace, hmembers]
    rfl

theorem reads_of_legible {limit : Nat} {v : Value} (h : Legible limit v) : Reads limit v := by
  induction h with
  | null => exact reads_null _
  | bool b => exact reads_bool _ b
  | string s => exact reads_string _ s
  | integer low high => exact reads_integer _ low high
  | negativeZero => exact reads_negativeZero _
  | array _ ih => exact reads_array ih
  | object hkeys _ ih => exact reads_object hkeys ih

/-- The text of a value reads as its tree. -/
theorem read?_text {limit : Nat} {v : Value} (h : Legible limit v) :
    Tree.read? v.text.toList = some (Tree.ofValue v) := by
  rw [Value.text, String.toList_ofList]
  exact (reads_of_legible h).1.read?

/-- The text of a value stands for the value. -/
theorem parse?_text {v : Value} (h : Legible nestingLimit v) : parse? v.text = some v := by
  rw [parse?, read?_text h]
  exact (reads_of_legible h).2

end BundleLedger.Json
