import BundleLedger.Proofs.Ledger
import BundleLedger.Proofs.LoaderFile.Collections

/-!
# Printed values are read back

`pretty_readsAs` goes along the fuel of the grammar: what is nested one deeper is read by a grammar
with four parts less.

Results:

* `reads_object`: an object whose keys are written in any way that names them.
* `pretty_readsAs`: a printed value is a literal of that value.
-/
namespace BundleLedger.LoaderConfig

open BundleLedger.Decimal
open BundleLedger.Json BundleLedger.Json.Value
open BundleLedger.Script BundleLedger.Script.Parser

variable {g : Grammar} {ctx : Context} {tab : List Char}

/-! ## Literals by their first token -/

theorem literalMembers_of_fields {before members : Members} {properties : List Property}
    (h : AreFields members properties) (hkeys : (Entries.keys (before ++ members)).Nodup) :
    literalMembers before properties = .ok (before ++ members) := by
  induction h generalizing before with
  | nil => simp [literalMembers]
  | @cons m p members properties hp _ ih =>
    obtain ⟨start, name, e, rfl, hname, he⟩ := hp
    have hnew : m.1 ∉ Entries.keys before := by
      intro hm
      rw [Entries.keys, List.map_append, List.nodup_append] at hkeys
      exact hkeys.2.2 m.1 hm m.1 (by simp) rfl
    have hput : Entries.put before m.1 m.2 = before ++ [m] := Entries.put_of_not_mem hnew m.2
    have hrest : literalMembers (before ++ [m]) properties = .ok (before ++ [m] ++ members) :=
      ih (by simpa using hkeys)
    simp only [literalMembers, hname, he]
    show literalMembers (Entries.put before m.1 m.2) properties = _
    rw [hput, hrest]
    simp

section

variable {text mid rest : List Char} {tok : Token} {P : Expr → Prop}

/-- A value is read by itself: no operator, no arrow and no chain goes with it. -/
theorem reads_assignment_of_primary {n : Nat} (hn : 0 < n) (hb : Begins text tok mid)
    (htok : Plain tok) (hsystem : tok ≠ .name "System" false)
    (hprimary : Reads ((grammar n).primary ctx) text P rest) (hrest : Closes rest) :
    Reads ((grammar (n + 4)).assignment ctx) text P rest := by
  have hoperand : Reads ((grammar (n + 2)).operand ctx) text P rest :=
    reads_operand_of_primary hn hb htok hprimary hrest
  have harrow : Refuses ((grammar (n + 3)).arrow ctx) text := by
    refine refuses_arrow hb (htok.ne_punctuator (by decide)) ?_ fun c hc hv => ?_
    · exact (Leads.ne_word (.inl htok) (by decide))
    · rw [htok.not_isVariable hsystem ctx hc] at hv
      cases hv
  exact reads_assignment_of_operand hb (.inl htok) harrow hoperand hrest

theorem reads_string {s : String} {tok' : Token} {rest' : List Char}
    (hb : Begins text (.string s) rest) (hrest : Begins rest tok' rest') :
    Reads (g.primary ctx) text (literal · = .ok (.string s)) rest := by
  unfold Grammar.primary
  refine Reads.get hb fun c hc => ?_
  rw [hc]
  exact (reads_advance hb hrest).bind fun _ _ => .pure (by simp [literal])

theorem reads_number {d : Option Double} {tok' : Token} {rest' : List Char}
    (hb : Begins text (.number d) rest) (hrest : Begins rest tok' rest') :
    Reads (g.primary ctx) text (fun e => ∃ start, e = .number start d) rest := by
  unfold Grammar.primary
  refine Reads.get hb fun c hc => ?_
  rw [hc]
  exact (reads_advance hb hrest).bind fun _ _ => .pure ⟨_, rfl⟩

def words : List (String × Value) := [("null", .null), ("true", .bool true), ("false", .bool false)]

theorem reads_word {word : String} {v : Value} (hword : (word, v) ∈ words) {tok' : Token}
    {rest' : List Char} (hb : Begins text (.name word false) rest) (hrest : Begins rest tok' rest') :
    Reads (g.primary ctx) text (literal · = .ok v) rest := by
  have hnext := reads_advance hb hrest
  unfold Grammar.primary
  refine Reads.get hb fun c hc => ?_
  rw [hc]
  show Reads (g.wordExpression ctx) text _ rest
  unfold Grammar.wordExpression
  refine Reads.get hb fun c hc => ?_
  simp only [Cursor.isWord, hc]
  simp only [words, List.mem_cons, Prod.mk.injEq, List.not_mem_nil, or_false] at hword
  rcases hword with ⟨rfl, rfl⟩ | ⟨rfl, rfl⟩ | ⟨rfl, rfl⟩
  · exact hnext.bind fun _ _ => .pure (by simp [literal])
  · exact hnext.bind fun _ _ => .pure (by simp [literal])
  · exact hnext.bind fun _ _ => .pure (by simp [literal])

theorem reads_bracket {tok' : Token} {rest' : List Char} {Q : List Element → Prop}
    (hb : Begins text (.punctuator "[") mid) (hmid : Begins mid tok' rest')
    (helements : Reads (g.elements ctx g.fuel) mid Q rest) :
    Reads (g.primary ctx) text (fun e => ∃ start es, e = .array start es ∧ Q es) rest := by
  unfold Grammar.primary
  refine Reads.get hb fun c hc => ?_
  rw [hc]
  show Reads (g.markedExpression ctx) text _ rest
  unfold Grammar.markedExpression
  refine Reads.get hb fun c _ => ?_
  refine (reads_accept_not hb (by decide)).next ?_
  refine (reads_accept hb hmid).next ?_
  exact helements.bind fun es hes => .pure ⟨_, es, rfl, hes⟩

theorem reads_brace {tok' : Token} {rest' : List Char} {Q : List Property → Prop}
    (hb : Begins text (.punctuator "\x7b") mid) (hmid : Begins mid tok' rest')
    (hproperties : Reads (listUpTo "\x7d" (g.property ctx) g.fuel) mid Q rest) :
    Reads (g.primary ctx) text (fun e => ∃ start ps, e = .object start ps ∧ Q ps) rest := by
  unfold Grammar.primary
  refine Reads.get hb fun c hc => ?_
  rw [hc]
  show Reads (g.markedExpression ctx) text _ rest
  unfold Grammar.markedExpression
  refine Reads.get hb fun c _ => ?_
  refine (reads_accept_not hb (by decide)).next ?_
  refine (reads_accept_not hb (by decide)).next ?_
  refine (reads_accept hb hmid).next ?_
  exact hproperties.bind fun ps hps => .pure ⟨_, ps, rfl, hps⟩

end

/-! ## Objects -/

def IsObjectOf (members : Members) (e : Expr) : Prop :=
  ∃ start ps, e = .object start ps ∧ literalMembers [] ps = .ok members

theorem begins_laidObject (tab : List Char) (lead : String → List Char) (level : Nat)
    (members : Members) (rest : List Char) :
    ∃ mid, Begins (laidObject tab lead level members ++ rest) (.punctuator "\x7b") mid := by
  have hopen : ('\x7b', "\x7b") ∈ marks := by decide
  cases members with
  | nil => exact ⟨_, begins_mark hopen _⟩
  | cons m members => exact ⟨_, begins_mark hopen _⟩

/-- An object whose keys are named in any way. -/
theorem reads_object (ht : IsTab tab) (lead : String → List Char) (level : Nat) {members : Members}
    (hkeys : (Entries.keys members).Nodup)
    (hmembers : ∀ m ∈ members, IsKeyText ('\n' :: lead m.1) m.1 ∧
      ReadsAs (g.assignment (Grammar.inside ctx)) (pretty tab (level + 1) m.2) m.2)
    (hfuel : members.length < g.fuel) {rest : List Char} (hrest : Closes rest) :
    Reads (g.primary ctx) (laidObject tab lead level members ++ rest) (IsObjectOf members) rest := by
  have hopen : ('\x7b', "\x7b") ∈ marks := by decide
  have hfields : ∀ ps, AreFields members ps → literalMembers [] ps = .ok members := fun ps hps =>
    literalMembers_of_fields hps hkeys
  cases members with
  | nil =>
    have hclose : ('\x7d', "\x7d") ∈ marks := by decide
    have hbrace := begins_mark hclose rest
    obtain ⟨close, -, rest', hrest⟩ := hrest
    obtain ⟨fuel, hg⟩ : ∃ n, g.fuel = n + 1 := ⟨g.fuel - 1, by omega⟩
    have hproperties : Reads (listUpTo "\x7d" (g.property ctx) g.fuel) ('\x7d' :: rest)
        (AreFields []) rest := by
      rw [hg]
      unfold listUpTo
      refine (reads_accept hbrace hrest).next ?_
      exact .pure .nil
    refine (reads_brace (begins_mark hopen _) hbrace hproperties).mono fun e he => ?_
    obtain ⟨start, ps, rfl, hps⟩ := he
    exact ⟨start, ps, rfl, hfields ps hps⟩
  | cons first members =>
    obtain ⟨tok, hkey, -⟩ := (hmembers first List.mem_cons_self).1 (' ' ::
      (pretty tab (level + 1) first.2 ++ (laidMembers tab lead (level + 1) members ++
        (newLine tab level ++ '\x7d' :: rest))))
    have hproperties := reads_properties ht lead level hmembers (Nat.lt_of_succ_lt hfuel) hrest
    simp only [laidObject, List.cons_append, List.append_assoc, List.nil_append] at hkey hproperties ⊢
    refine (reads_brace (begins_mark hopen _) hkey hproperties).mono fun e he => ?_
    obtain ⟨start, ps, rfl, hps⟩ := he
    exact ⟨start, ps, rfl, hfields ps hps⟩

/-- So are the quoted keys after their indentation. -/
theorem isKeyText_quotedLead (ht : IsTab tab) (level : Nat) (key : String) :
    IsKeyText ('\n' :: quotedLead tab level key) key := by
  intro s
  have hquote := begins_quote key (':' :: s)
  refine ⟨_, ?_, .inl rfl⟩
  simpa [quotedLead, newLine] using hquote.blanks (newLine_gap ht level)

/-! ## Values -/

/-- An integer as it is read: the value of a double that some fraction is rounded to. -/
def IsReadInteger (n : Number) : Prop :=
  (∃ k, n = .integer k) ∧ ∃ negative num den d, den ≠ 0 ∧
    Double.ofRatio negative num den = some d ∧ numberValue (some d) = .number n

/-- All numbers in a value are integers as they are read. -/
def HasReadIntegers (v : Value) : Prop := ∀ n, Within (.number n) v → IsReadInteger n

/-- Such a number is its own nearest double. -/
theorem IsReadInteger.exact {k : Int} (h : IsReadInteger (.integer k)) :
    ∃ d, Double.ofDecimal false k.natAbs 0 = some d ∧ d.toInt? = some (k.natAbs : Int) ∧
      k.natAbs < wordSize / 2 := by
  obtain ⟨-, negative, num, den, d, hden, hd, hvalue⟩ := h
  have hmantissa := Double.mantissa_lt_of_ofRatio hden hd
  simp only [numberValue] at hvalue
  split at hvalue
  · rename_i n hn
    split at hvalue
    · rename_i hlt
      cases hvalue
      have hword : wordSize / 2 = 2 ^ 63 := by decide
      obtain ⟨d', hd', hint⟩ :=
        Double.ofDecimal_exact (Double.fits_of_toInt? hmantissa hn) (hword ▸ hlt)
      exact ⟨d', hd', hint, hlt⟩
    · cases hvalue
  · cases hvalue

theorem numberValue_of_toInt? {d : Double} {k : Int} (hint : d.toInt? = some k)
    (hlt : k.natAbs < wordSize / 2) : numberValue (some d) = .number (.integer k) := by
  simp only [numberValue, hint, if_pos hlt]

section

variable {n : Nat} {text : List Char} {v : Value}

theorem readsAs_of_primary {tok : Token} (hn : 0 < n) (htok : Plain tok)
    (hsystem : tok ≠ .name "System" false)
    (h : ∀ rest, Follows rest → (∃ mid, Begins (text ++ rest) tok mid) ∧
      Reads ((grammar n).primary ctx) (text ++ rest) (literal · = .ok v) rest) :
    ReadsAs ((grammar (n + 4)).assignment ctx) text v := by
  intro rest hrest
  obtain ⟨⟨mid, hb⟩, hprimary⟩ := h rest hrest
  exact ⟨⟨tok, mid, .inl htok, hb⟩,
    reads_assignment_of_primary hn hb htok hsystem hprimary hrest.closes⟩

theorem readsAs_string (hn : 0 < n) (s : String) :
    ReadsAs ((grammar (n + 4)).assignment ctx) (quote s.toList) (.string s) := by
  refine readsAs_of_primary hn (.string s) nofun fun rest hrest => ?_
  obtain ⟨close, -, rest', hclose⟩ := hrest.closes
  have hb := begins_quote s rest
  exact ⟨⟨rest, hb⟩, reads_string hb hclose⟩

theorem readsAs_word (hn : 0 < n) {word : String} (hword : (word, v) ∈ words) :
    ReadsAs ((grammar (n + 4)).assignment ctx) word.toList v := by
  have hwords : ∀ w ∈ words, w.1 ∈ ["null", "true", "false", "System"] ∧
      w.1 ≠ "System" ∧ Text.isIdentifierName w.1.toList = true := by
    unfold words
    decide +kernel
  obtain ⟨hplain, hsystem, hname⟩ := hwords _ hword
  have hne : Token.name word false ≠ .name "System" false := fun h => hsystem (Token.name.inj h).1
  refine readsAs_of_primary hn (.name word hplain) hne fun rest hrest => ?_
  obtain ⟨close, -, rest', hclose⟩ := hrest.closes
  obtain ⟨stop, s, rfl, hstop⟩ := hrest.ends
  have hb := begins_name hname hstop.endsName s
  exact ⟨⟨stop :: s, hb⟩, reads_word hword hb hclose⟩

theorem natText_plain (k : Nat) {rest : List Char} (hrest : Follows rest) :
    Begins (natText k ++ rest) (.number (Double.ofDecimal false k 0)) rest := by
  obtain ⟨stop, s, rfl, hstop⟩ := hrest.ends
  exact begins_natText k hstop s

theorem readsAs_integer (hn : 1 < n) {k : Int} (hk : IsReadInteger (.integer k)) :
    ReadsAs ((grammar (n + 4)).assignment ctx) (intText k) (.number (.integer k)) := by
  obtain ⟨d, hd, hint, hlt⟩ := hk.exact
  cases k with
  | ofNat k =>
    simp only [Int.ofNat_eq_natCast, Int.natAbs_natCast] at hd hint hlt
    refine readsAs_of_primary (by omega) (.number (some d)) nofun fun rest hrest => ?_
    obtain ⟨close, -, rest', hclose⟩ := hrest.closes
    have hb := natText_plain k hrest
    rw [hd] at hb
    refine ⟨⟨rest, hb⟩, (reads_number hb hclose).mono fun e he => ?_⟩
    obtain ⟨start, rfl⟩ := he
    rw [literal, numberValue_of_toInt? hint (by simpa using hlt)]
    rfl
  | negSucc k =>
    intro rest hrest
    obtain ⟨n, rfl⟩ : ∃ m, n = m + 1 := ⟨n - 1, by omega⟩
    obtain ⟨close, -, rest', hclose⟩ := hrest.closes
    simp only [Int.natAbs_negSucc] at hd hint hlt
    have hb := natText_plain (k + 1) hrest
    rw [hd] at hb
    have hminus : Begins (intText (Int.negSucc k) ++ rest) (.punctuator "-")
        (natText (k + 1) ++ rest) := by
      cases htext : natText (k + 1) with
      | nil => exact absurd htext (natText_ne_nil _)
      | cons c s =>
        have hc := natText_isDigit (k + 1) c (by simp [htext])
        rw [intText, htext]
        exact begins_minus hc (s ++ rest)
    have hoperand : Reads ((grammar (n + 2)).operand ctx) (natText (k + 1) ++ rest)
        (fun e => ∃ start, e = .number start (some d)) rest :=
      reads_operand_of_primary (by omega) hb (.number (some d)) (reads_number hb hclose) hrest.closes
    have hnegation : Reads ((grammar (n + 3)).operand ctx) (intText (Int.negSucc k) ++ rest)
        (literal · = .ok (.number (.integer (Int.negSucc k)))) rest := by
      refine reads_negation hminus hb hoperand fun start e he => ?_
      obtain ⟨start', rfl⟩ := he
      have hneg := Double.toInt?_neg hint
      have habs : (-((k + 1 : Nat) : Int)).natAbs < wordSize / 2 := by
        rw [Int.natAbs_neg, Int.natAbs_natCast]
        exact hlt
      rw [literal, Option.map_some, numberValue_of_toInt? hneg habs]
      rfl
    have hleads : Leads (.punctuator "-") := .inr rfl
    have harrow : Refuses ((grammar (n + 4)).arrow ctx) (intText (Int.negSucc k) ++ rest) := by
      refine refuses_arrow hminus (by decide) (by decide) fun c hc hv => ?_
      simp [Cursor.isVariable, hc] at hv
    exact ⟨⟨_, _, hleads, hminus⟩,
      reads_assignment_of_operand hminus hleads harrow hnegation hrest.closes⟩

end

/-! ## Arrays and objects -/

theorem readsAs_array (ht : IsTab tab) (level : Nat) {n : Nat} {items : List Value}
    (hitems : ∀ v ∈ items, ∀ ctx, ReadsAs ((grammar n).assignment ctx) (pretty tab (level + 1) v) v)
    (hn : items.length < n) :
    ReadsAs ((grammar (n + 4)).assignment ctx) (pretty tab level (.array items)) (.array items) := by
  have hopen : ('[', "[") ∈ marks := by decide
  refine readsAs_of_primary (by omega) (.mark "[" (by decide)) nofun fun rest hrest => ?_
  have hvalue : ∀ e, (∃ start es, e = .array start es ∧ literalItems es = .ok items) →
      literal e = .ok (.array items) := by
    rintro e ⟨start, es, rfl, hes⟩
    simp only [literal, hes]
    rfl
  cases items with
  | nil =>
    have hclose : (']', "]") ∈ marks := by decide
    have hbracket := begins_mark hclose rest
    obtain ⟨close, -, rest', hclosed⟩ := hrest.closes
    obtain ⟨n, rfl⟩ : ∃ m, n = m + 1 := ⟨n - 1, by simp at hn; omega⟩
    have helements : Reads ((grammar (n + 1)).elements ctx (grammar (n + 1)).fuel) (']' :: rest)
        (literalItems · = .ok []) rest := by
      rw [fuel_grammar]
      unfold Grammar.elements
      refine (reads_accept hbracket hclosed).next ?_
      exact .pure rfl
    simp only [pretty, List.cons_append, List.nil_append]
    exact ⟨⟨_, begins_mark hopen _⟩,
      (reads_bracket (begins_mark hopen _) hbracket helements).mono hvalue⟩
  | cons first items =>
    have hgap := newLine_gap ht (level + 1)
    obtain ⟨⟨tok, mid, -, hfirst⟩, -⟩ := hitems first List.mem_cons_self ctx _
      (follows_prettyItems ht level items rest)
    have hfuel : items.length < (grammar n).fuel := by
      rw [fuel_grammar]
      exact Nat.lt_of_succ_lt hn
    have helements := (reads_elements ht level (fun v hv => hitems v hv (Grammar.inside ctx)) hfuel
      hrest.closes).blanks hgap
    simp only [pretty, List.cons_append, List.append_assoc, List.nil_append]
    exact ⟨⟨_, begins_mark hopen _⟩,
      (reads_bracket (begins_mark hopen _) (hfirst.blanks hgap) helements).mono hvalue⟩

theorem readsAs_object (ht : IsTab tab) (lead : String → List Char) (level : Nat) {n : Nat}
    {members : Members} (hkeys : (Entries.keys members).Nodup)
    (hmembers : ∀ m ∈ members, IsKeyText ('\n' :: lead m.1) m.1 ∧
      ∀ ctx, ReadsAs ((grammar n).assignment ctx) (pretty tab (level + 1) m.2) m.2)
    (hn : members.length < n) :
    ReadsAs ((grammar (n + 4)).assignment ctx) (laidObject tab lead level members)
      (.object members) := by
  refine readsAs_of_primary (by omega) (.mark "\x7b" (by decide)) nofun fun rest hrest => ⟨?_, ?_⟩
  · exact begins_laidObject tab lead level members rest
  · have hfuel : members.length < (grammar n).fuel := by rwa [fuel_grammar]
    have hparts : ∀ m ∈ members, IsKeyText ('\n' :: lead m.1) m.1 ∧
        ReadsAs ((grammar n).assignment (Grammar.inside ctx)) (pretty tab (level + 1) m.2) m.2 :=
      fun m hm => ⟨(hmembers m hm).1, (hmembers m hm).2 (Grammar.inside ctx)⟩
    refine (reads_object ht lead level hkeys hparts hfuel hrest.closes).mono fun e he => ?_
    obtain ⟨start, ps, rfl, hps⟩ := he
    simp only [literal, hps]
    rfl

/-! ## All values -/

theorem length_prettyItems (tab : List Char) (level : Nat) (items : List Value) :
    (∀ v ∈ items, (pretty tab level v).length < (prettyItems tab level items).length) ∧
      items.length ≤ (prettyItems tab level items).length := by
  induction items with
  | nil => simp
  | cons v items ih =>
    simp only [prettyItems, List.forall_mem_cons, List.length_append, List.length_cons]
    refine ⟨⟨by omega, fun w hw => ?_⟩, by omega⟩
    have := ih.1 w hw
    omega

/-- An array is longer than each of its items by two brackets at least. -/
theorem length_pretty_array (tab : List Char) (level : Nat) (items : List Value) :
    (∀ v ∈ items, (pretty tab (level + 1) v).length + 2 ≤ (pretty tab level (.array items)).length) ∧
      items.length + 2 ≤ (pretty tab level (.array items)).length := by
  cases items with
  | nil => simp [pretty]
  | cons v items =>
    obtain ⟨heach, hcount⟩ := length_prettyItems tab (level + 1) items
    simp only [pretty, newLine, List.forall_mem_cons, List.length_append, List.length_cons]
    refine ⟨⟨by omega, fun w hw => ?_⟩, by omega⟩
    have := heach w hw
    omega

theorem length_laidMembers (tab : List Char) (lead : String → List Char) (level : Nat)
    (members : Members) :
    (∀ m ∈ members, (pretty tab level m.2).length < (laidMembers tab lead level members).length) ∧
      members.length ≤ (laidMembers tab lead level members).length := by
  induction members with
  | nil => simp
  | cons m members ih =>
    simp only [laidMembers, List.forall_mem_cons, List.length_append, List.length_cons]
    refine ⟨⟨by omega, fun w hw => ?_⟩, by omega⟩
    have := ih.1 w hw
    omega

/-- So is an object. -/
theorem length_laidObject (tab : List Char) (lead : String → List Char) (level : Nat)
    (members : Members) :
    (∀ m ∈ members,
        (pretty tab (level + 1) m.2).length + 2 ≤ (laidObject tab lead level members).length) ∧
      members.length + 2 ≤ (laidObject tab lead level members).length := by
  cases members with
  | nil => simp [laidObject]
  | cons m members =>
    obtain ⟨heach, hcount⟩ := length_laidMembers tab lead (level + 1) members
    simp only [laidObject, newLine, List.forall_mem_cons, List.length_append, List.length_cons]
    refine ⟨⟨by omega, fun w hw => ?_⟩, by omega⟩
    have := heach w hw
    omega

theorem intText_ne_nil (k : Int) : intText k ≠ [] := by
  cases k with
  | ofNat k => exact natText_ne_nil k
  | negSucc k => simp [intText]

theorem hasReadIntegers_array_iff {items : List Value} :
    HasReadIntegers (.array items) ↔ ∀ v ∈ items, HasReadIntegers v := by
  constructor
  · intro h v hv n hw
    exact h n (.item hv hw)
  · intro h n hw
    cases hw with
    | item hv hw => exact h _ hv n hw

theorem hasReadIntegers_object_iff {members : Members} :
    HasReadIntegers (.object members) ↔ ∀ m ∈ members, HasReadIntegers m.2 := by
  constructor
  · intro h m hm n hw
    exact h n (.member hm hw)
  · intro h n hw
    cases hw with
    | member hm hw => exact h _ hm n hw

theorem pretty_ne_nil (tab : List Char) (level : Nat) {v : Value} (h : HasReadIntegers v) :
    0 < (pretty tab level v).length := by
  cases v with
  | null => simp [pretty]
  | bool b => cases b <;> simp [pretty]
  | number n =>
    obtain ⟨⟨k, rfl⟩, -⟩ := h n .self
    simp only [pretty, Number.write]
    exact List.length_pos_iff.2 (intText_ne_nil k)
  | string s => simp [pretty, quote]
  | array items =>
    have := (length_pretty_array tab level items).2
    omega
  | object members =>
    rw [pretty_object_eq_laid]
    have := (length_laidObject tab (quotedLead tab (level + 1)) level members).2
    omega

/-- The induction is on the fuel: the parts of a value are shorter than the value. -/
theorem pretty_readsAs (ht : IsTab tab) (n : Nat) : ∀ (v : Value) (level : Nat),
    v.DistinctKeys → HasReadIntegers v → 5 * (pretty tab level v).length + 1 ≤ n →
      ∀ ctx, ReadsAs ((grammar n).assignment ctx) (pretty tab level v) v := by
  induction n using Nat.strongRecOn with
  | ind n ih =>
    intro v level hkeys hints hfuel ctx
    have hpos := pretty_ne_nil tab level hints
    obtain ⟨n, rfl⟩ : ∃ m, n = m + 4 := ⟨n - 4, by omega⟩
    have hn : 1 < n := by omega
    cases v with
    | null =>
      simp only [pretty]
      exact readsAs_word (by omega) (by simp [words] : ("null", Value.null) ∈ words)
    | bool b =>
      cases b with
      | true =>
        simp only [pretty]
        exact readsAs_word (by omega) (by simp [words] : ("true", Value.bool true) ∈ words)
      | false =>
        simp only [pretty]
        exact readsAs_word (by omega) (by simp [words] : ("false", Value.bool false) ∈ words)
    | number k =>
      have hk := hints k .self
      obtain ⟨⟨k, rfl⟩, -⟩ := id hk
      simp only [pretty, Number.write]
      exact readsAs_integer hn hk
    | string s =>
      simp only [pretty]
      exact readsAs_string (by omega) s
    | array items =>
      obtain ⟨heach, hcount⟩ := length_pretty_array tab level items
      refine readsAs_array ht level (fun v hv => ?_) (by omega)
      have hlength := heach v hv
      have hints' := hasReadIntegers_array_iff.1 hints v hv
      exact ih n (by omega) v (level + 1) (distinctKeys_array_iff.1 hkeys v hv) hints' (by omega)
    | object members =>
      obtain ⟨hnodup, hvalues⟩ := distinctKeys_object_iff.1 hkeys
      rw [pretty_object_eq_laid] at hfuel ⊢
      obtain ⟨heach, hcount⟩ := length_laidObject tab (quotedLead tab (level + 1)) level members
      refine readsAs_object ht _ level hnodup (fun m hm => ⟨isKeyText_quotedLead ht _ _, ?_⟩) (by omega)
      have hlength := heach m hm
      have hints' := hasReadIntegers_object_iff.1 hints m hm
      exact ih n (by omega) m.2 (level + 1) (hvalues m hm) hints' (by omega)

end BundleLedger.LoaderConfig
