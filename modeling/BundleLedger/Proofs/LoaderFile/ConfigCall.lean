import BundleLedger.LoaderConfig.Source
import BundleLedger.Proofs.LoaderFile.Layout
import BundleLedger.Proofs.LoaderFile.Values

/-!
# The one statement of the configuration file

The file is a call of `System.config` with one object, and a semicolon. It is read from the outside
in: the statement, the chain of a member and a call, and the argument, whose keys may be bare.

Results:

* `isKeyText_finalLead`: the outermost keys name their members, bare or quoted.
* `reads_assignment_call`: the call is read as one, with the object as its argument.
* `parse?_configCall`: it is all that the script holds.
-/
namespace BundleLedger.LoaderConfig

open BundleLedger.Json BundleLedger.Json.Value
open BundleLedger.Script BundleLedger.Script.Parser

variable {g : Grammar} {ctx : Context} {tab : List Char}

/-! ## Outermost keys -/

/-- The outermost keys that lose their quotes are identifiers. -/
def HasNameKeys (c : LoaderConfig) : Prop :=
  ∀ key ∈ Entries.keys c.entries, IsBare key → Text.isIdentifierName key.toList = true

theorem begins_bareKey {key : String} (hkey : Text.isIdentifierName key.toList = true)
    (s : List Char) : Begins (key.toList ++ ':' :: s) (.name key false) (':' :: s) := by
  have hstop : ':' ≠ '\\' ∧ Text.isIdentifierPart ':' = false := by decide +kernel
  exact begins_name hkey hstop s

theorem isKeyText_finalLead (ht : IsTab tab) {key : String}
    (hkey : IsBare key → Text.isIdentifierName key.toList = true) :
    IsKeyText ('\n' :: finalLead tab key) key := by
  have hblock : ∀ key ∈ blockKeys, Text.isIdentifierName key.toList = true := by decide +kernel
  have htab : ∀ b ∈ tab, IsGap b := fun b hb => isGap_of_tab (ht.blank b hb)
  intro s
  unfold finalLead
  split
  · rename_i hmem
    refine ⟨_, ?_, .inr rfl⟩
    have hb := (begins_bareKey (hblock key hmem) s).blanks htab
    simpa using (hb.blank isGap_newline).blank isGap_newline
  · split
    · rename_i hbare
      refine ⟨_, ?_, .inr rfl⟩
      have hb := (begins_bareKey (hkey hbare) s).blanks htab
      simpa using hb.blank isGap_newline
    · exact isKeyText_quotedLead ht 1 key s

/-! ## The call -/

def IsCallOf (P : Expr → Prop) (e : Expr) : Prop :=
  ∃ start start' start'' object, P object ∧
    e = .call start (.member start' (.identifier start'' "System") "config") [.item object]

/-- `p` reads the text of an object, where it is the argument of the call, as something that
satisfies `P`. -/
structure ReadsArgument (p : Parser Expr) (object : List Char) (P : Expr → Prop) : Prop where
  begins : ∃ mid, Begins (object ++ [')', ';', '\n']) (.punctuator "\x7b") mid
  reads : Reads p (object ++ [')', ';', '\n']) P [')', ';', '\n']

/-- What stands behind the name of the receiver. -/
def afterSystem (object : List Char) : List Char :=
  '.' :: ("config".toList ++ '(' :: (object ++ [')', ';', '\n']))

def callText (object : List Char) : List Char := "System".toList ++ afterSystem object

section

variable {object : List Char} {P : Expr → Prop}

theorem begins_system (object : List Char) :
    Begins (callText object) (.name "System" false) (afterSystem object) := by
  have hstop : '.' ≠ '\\' ∧ Text.isIdentifierPart '.' = false := by decide +kernel
  have hname : Text.isIdentifierName "System".toList = true := by decide +kernel
  exact begins_name hname hstop _

theorem begins_afterSystem (object : List Char) :
    Begins (afterSystem object) (.punctuator ".")
      ("config".toList ++ '(' :: (object ++ [')', ';', '\n'])) :=
  begins_dot (by decide) (by decide) _

theorem begins_config (s : List Char) :
    Begins ("config".toList ++ '(' :: s) (.name "config" false) ('(' :: s) := by
  have hstop : '(' ≠ '\\' ∧ Text.isIdentifierPart '(' = false := by decide +kernel
  have hname : Text.isIdentifierName "config".toList = true := by decide +kernel
  exact begins_name hname hstop s

theorem begins_end : Begins ['\n'] .ending [] := begins_nil.blank isGap_newline

theorem begins_semicolon : Begins [';', '\n'] (.punctuator ";") ['\n'] :=
  begins_mark (by decide : (';', ";") ∈ marks) _

theorem closes_semicolon : Closes [';', '\n'] :=
  ⟨.punctuator ";", by decide, ['\n'], begins_semicolon⟩

/-! ### The receiver -/

theorem allowsName_system (ctx : Context) : ctx.allowsName "System" = true := by
  have hwords : reservedWords.contains "System" = false ∧ ("System" == "await") = false ∧
      ("System" == "yield") = false := by
    decide
  simp only [Context.allowsName, hwords, Bool.and_false, Bool.not_false, Bool.and_self]

/-- `System` is no word of the language. -/
theorem plain_system : Plain (.name "System" false) := .name "System" (by decide)

theorem leads_system : Leads (.name "System" false) := .inl plain_system

theorem isWord_system {c : Cursor} (hc : c.token = .name "System" false) {word : String}
    (hne : word ≠ "System") : c.isWord word = false := by
  simpa [Cursor.isWord, hc] using Ne.symm hne

theorem reads_atAsyncFunction (object : List Char) :
    Reads Grammar.atAsyncFunction (callText object) (· = false) (callText object) := by
  unfold Grammar.atAsyncFunction
  refine Reads.get (begins_system object) fun c hc => ?_
  rw [isWord_system hc (by decide)]
  exact .pure rfl

theorem reads_receiver (object : List Char) :
    Reads (g.primary ctx) (callText object)
      (fun e => ∃ start, e = .identifier start "System") (afterSystem object) := by
  have hb := begins_system object
  unfold Grammar.primary
  refine Reads.get hb fun c hc => ?_
  rw [hc]
  show Reads (g.wordExpression ctx) _ _ _
  unfold Grammar.wordExpression
  refine Reads.get hb fun c hc => ?_
  have hnot : c.isWord "this" = false ∧ c.isWord "null" = false ∧ c.isWord "true" = false ∧
      c.isWord "false" = false ∧ c.isWord "function" = false ∧ c.isWord "class" = false := by
    refine ⟨?_, ?_, ?_, ?_, ?_, ?_⟩ <;> exact isWord_system hc (by decide)
  simp only [hnot, Bool.false_eq_true, if_false]
  refine (reads_atAsyncFunction object).next ?_
  have hvariable : Reads (Parser.variable ctx) (callText object)
      (· = "System") (afterSystem object) := by
    unfold Parser.variable
    refine Reads.get hb fun c hc => ?_
    rw [hc]
    refine (reads_require (allowsName_system ctx)).bind fun _ _ => ?_
    exact (reads_advance hb (begins_afterSystem object)).bind fun _ _ => .pure rfl
  rw [if_neg Bool.false_ne_true]
  refine hvariable.next ?_
  exact .pure ⟨_, rfl⟩

/-! ### The chain -/

/-- The arguments of the call. -/
theorem reads_arguments (hfuel : 0 < g.fuel)
    (hobject : ReadsArgument (g.assignment (Grammar.inside ctx)) object P) :
    Reads (g.arguments ctx) (object ++ [')', ';', '\n']) (fun es => ∃ a, es = [.item a] ∧ P a)
      [';', '\n'] := by
  have hparen : (')', ")") ∈ marks := by decide
  obtain ⟨⟨mid, hb⟩, hread⟩ := hobject
  obtain ⟨fuel, hg⟩ : ∃ n, g.fuel = n + 1 := ⟨g.fuel - 1, by omega⟩
  unfold Grammar.arguments
  rw [hg]
  unfold listUpTo
  refine (reads_accept_not hb (by decide)).next ?_
  refine (reads_element hb (.inl (.mark _ (by decide))) hread).bind fun e he => ?_
  obtain ⟨a, rfl, ha⟩ := he
  refine (reads_accept (begins_mark hparen _) begins_semicolon).next ?_
  exact .pure ⟨a, rfl, ha⟩

theorem reads_accessRest_call (hfuel : 0 < g.fuel) {fuel : Nat} (hf : 1 < fuel) (e : Expr)
    (hobject : ReadsArgument (g.assignment (Grammar.inside ctx)) object P) :
    Reads (g.accessRest ctx true fuel false e) ('(' :: (object ++ [')', ';', '\n']))
      (fun e' => ∃ start a, P a ∧ e' = .call start e [.item a]) [';', '\n'] := by
  have hparen : ('(', "(") ∈ marks := by decide
  have hopen := begins_mark hparen (object ++ [')', ';', '\n'])
  obtain ⟨fuel, rfl⟩ : ∃ n, fuel = n + 1 := ⟨fuel - 1, by omega⟩
  unfold Grammar.accessRest
  refine (reads_accept_not hopen (by decide)).next ?_
  refine (reads_accept_not hopen (by decide)).next ?_
  refine Reads.get hopen fun c hc => ?_
  rw [hc]
  simp only [if_true]
  obtain ⟨mid, hb⟩ := hobject.begins
  refine (reads_advance hopen hb).bind fun _ _ => ?_
  refine (reads_arguments hfuel hobject).bind fun es hes => ?_
  obtain ⟨a, rfl, ha⟩ := hes
  refine (reads_accessRest true (by omega) closes_semicolon _).mono fun e' he => ?_
  exact ⟨_, a, ha, he⟩

theorem reads_dotted_config (start : Nat) (e : Expr) (s : List Char) {tok : Token}
    {rest : List Char} (hs : Begins ('(' :: s) tok rest) :
    Reads (Grammar.dotted start e) ("config".toList ++ '(' :: s) (· = .member start e "config")
      ('(' :: s) := by
  unfold Grammar.dotted
  refine Reads.get (begins_config s) fun c hc => ?_
  rw [hc]
  exact (reads_advance (begins_config s) hs).bind fun _ _ => .pure rfl

/-- The receiver, the member and the call. -/
theorem reads_access_call (hfuel : 2 < g.fuel)
    (hobject : ReadsArgument (g.assignment (Grammar.inside ctx)) object P) :
    Reads (g.accessWith ctx) (callText object) (IsCallOf P) [';', '\n'] := by
  have hparen : ('(', "(") ∈ marks := by decide
  have hopen := begins_mark hparen (object ++ [')', ';', '\n'])
  obtain ⟨fuel, hg⟩ : ∃ n, g.fuel = n + 1 := ⟨g.fuel - 1, by omega⟩
  unfold Grammar.accessWith
  refine (reads_accessHead (begins_system object) leads_system (reads_receiver object)).bind
    fun e he => ?_
  obtain ⟨start, rfl⟩ := he
  rw [hg]
  unfold Grammar.accessRest
  refine (reads_accept (begins_afterSystem object) (begins_config _)).next ?_
  refine (reads_dotted_config _ _ _ hopen).next ?_
  refine (reads_accessRest_call (by omega) (by omega) _ hobject).mono fun e he => ?_
  obtain ⟨start', a, ha, rfl⟩ := he
  exact ⟨_, _, _, a, ha, rfl⟩

/-! ## The statement -/

/-- No arrow and no operator goes with the call. -/
theorem reads_assignment_call {n : Nat} (hn : 2 < n)
    (hobject : ReadsArgument ((grammar n).assignment (Grammar.inside ctx)) object P) :
    Reads ((grammar (n + 4)).assignment ctx) (callText object) (IsCallOf P)
      [';', '\n'] := by
  have hsystem := begins_system object
  have haccess : Reads ((grammar (n + 1)).access ctx) (callText object)
      (IsCallOf P) [';', '\n'] :=
    reads_access_call (by rwa [fuel_grammar]) hobject
  have hoperand : Reads ((grammar (n + 2)).operand ctx) (callText object)
      (IsCallOf P) [';', '\n'] :=
    reads_operand_of_access hsystem plain_system haccess closes_semicolon
  have harrow : Refuses ((grammar (n + 3)).arrow ctx) (callText object) :=
    refuses_arrow hsystem (by decide) (by decide) fun _ _ _ =>
      ⟨_, _, begins_afterSystem object, by decide⟩
  exact reads_assignment_of_operand hsystem leads_system harrow hoperand closes_semicolon

theorem reads_semicolon : Reads semicolon [';', '\n'] (fun _ => True) ['\n'] := by
  unfold semicolon
  refine Reads.get begins_semicolon fun c hc => ?_
  rw [Cursor.is, hc, beq_self_eq_true, if_pos rfl]
  exact reads_advance begins_semicolon begins_end

theorem reads_expressionStatement
    (h : Reads (g.assignment (Grammar.inside ctx)) (callText object) P
      [';', '\n']) :
    Reads (g.expressionStatement ctx) (callText object)
      (fun s => ∃ e, s = .expression e ∧ P e) ['\n'] := by
  have hexpression : Reads (g.expression (Grammar.inside ctx))
      (callText object) P [';', '\n'] := by
    unfold Grammar.expression
    refine h.bind fun e he => ?_
    refine (reads_accept_not begins_semicolon (by decide)).next ?_
    exact .pure he
  have hcolon : Reads (followedBy fun n => n.is ":") (callText object)
      (· = false) (callText object) :=
    reads_followedBy (begins_system object) (begins_afterSystem object) fun c hc => by
      simp [Cursor.is, hc]
  unfold Grammar.expressionStatement
  refine Reads.get (begins_system object) fun c hc => ?_
  have hvariable : c.isVariable ctx = true := by
    simp only [Cursor.isVariable, hc, allowsName_system]
  refine hcolon.next ?_
  rw [Bool.and_false, if_neg Bool.false_ne_true]
  refine hexpression.bind fun e he => ?_
  exact reads_semicolon.bind fun _ _ => .pure ⟨e, rfl, he⟩

theorem reads_declarer_none (declares : Bool) :
    Reads (Grammar.declarer? ctx declares) (callText object) (· = none)
      (callText object) := by
  unfold Grammar.declarer?
  refine Reads.get (begins_system object) fun c hc => ?_
  have hnot : c.isWord "var" = false ∧ c.isWord "const" = false ∧ c.isWord "let" = false ∧
      c.isWord "using" = false ∧ c.isWord "await" = false := by
    refine ⟨?_, ?_, ?_, ?_, ?_⟩ <;> exact isWord_system hc (by decide)
  simp only [hnot, Bool.false_and, Bool.false_eq_true, if_false]
  exact .pure rfl

/-- No statement begins with the name `System` but an expression. -/
theorem reads_statementWith (declares : Bool)
    (h : Reads (g.assignment (Grammar.inside (Grammar.inside ctx))) (callText object) P
      [';', '\n']) :
    Reads (g.statementWith ctx declares) (callText object)
      (fun s => ∃ e, s = .expression e ∧ P e) ['\n'] := by
  have hb := begins_system object
  unfold Grammar.statementWith
  refine Reads.get hb fun c hc => ?_
  have hnot : c.is "\x7b" = false ∧ c.is "@" = false ∧ c.isWord "class" = false ∧
      c.isWord "function" = false := by
    refine ⟨?_, ?_, isWord_system hc (by decide), isWord_system hc (by decide)⟩ <;>
      simp [Cursor.is, hc]
  simp only [hnot, Bool.false_or, Bool.or_self, Bool.false_eq_true, if_false]
  refine (reads_accept_not hb (by decide)).next ?_
  rw [if_neg Bool.false_ne_true]
  refine (reads_atAsyncFunction object).next ?_
  rw [if_neg Bool.false_ne_true]
  refine (reads_declarer_none declares).next ?_
  rw [hc]
  exact reads_expressionStatement h

/-! ## The file -/

/-- The script has one statement, and it is neither an import nor an export. -/
theorem reads_item {Q : Statement → Prop}
    (h : Reads (g.statement Grammar.topLevel true) (callText object) Q ['\n']) :
    Reads g.item (callText object) Q ['\n'] := by
  have hb := begins_system object
  have himport : Reads Grammar.atImport (callText object) (· = false) (callText object) := by
    unfold Grammar.atImport
    refine Reads.get hb fun c hc => ?_
    rw [isWord_system hc (by decide)]
    exact .pure rfl
  unfold Grammar.item
  refine himport.next ?_
  rw [if_neg Bool.false_ne_true]
  refine Reads.get hb fun c hc => ?_
  rw [isWord_system hc (by decide), if_neg Bool.false_ne_true]
  exact h

theorem reads_items {Q : Statement → Prop} {fuel : Nat}
    (h : Reads (g.statement Grammar.topLevel true) (callText object) Q ['\n']) :
    Reads (g.items (fuel + 2)) (callText object) (fun ss => ∃ s, ss = [s] ∧ Q s) ['\n'] := by
  unfold Grammar.items
  refine Reads.get (begins_system object) fun c hc => ?_
  rw [hc, if_neg (by decide)]
  refine (reads_item h).bind fun s hs => ?_
  have hend : Reads (g.items (fuel + 1)) ['\n'] (· = []) ['\n'] := by
    unfold Grammar.items
    refine Reads.get begins_end fun c hc => ?_
    rw [hc, beq_self_eq_true, if_pos rfl]
    exact .pure rfl
  exact hend.bind fun ss hss => .pure ⟨s, by rw [hss], hs⟩

end

theorem reads_configObject (ht : IsTab tab) {c : LoaderConfig} (hkeys : c.DistinctKeys)
    (hints : HasReadIntegers c.toValue) (hnames : c.HasNameKeys) {n : Nat}
    (hn : 5 * (laidObject tab (finalLead tab) 0 c.entries).length + 1 ≤ n) :
    ∀ ctx, ReadsArgument ((grammar (n + 4)).assignment ctx)
      (laidObject tab (finalLead tab) 0 c.entries) (IsObjectOf c.entries) := by
  intro ctx
  obtain ⟨hnodup, hvalues⟩ := distinctKeys_object_iff.1 hkeys
  obtain ⟨heach, hcount⟩ := length_laidObject tab (finalLead tab) 0 c.entries
  have hmembers : ∀ m ∈ c.entries, IsKeyText ('\n' :: finalLead tab m.1) m.1 ∧
      ReadsAs ((grammar n).assignment (Grammar.inside ctx)) (pretty tab (0 + 1) m.2) m.2 := by
    intro m hm
    have hlength := heach m hm
    have hints' := hasReadIntegers_object_iff.1 hints m hm
    refine ⟨isKeyText_finalLead ht (hnames m.1 (List.mem_map_of_mem hm)), ?_⟩
    exact pretty_readsAs ht n m.2 (0 + 1) (hvalues m hm) hints' (by omega) _
  have hprimary : Reads ((grammar n).primary ctx)
      (laidObject tab (finalLead tab) 0 c.entries ++ [')', ';', '\n']) (IsObjectOf c.entries)
      [')', ';', '\n'] :=
    reads_object ht _ 0 hnodup hmembers (by rw [fuel_grammar]; omega) (follows_paren _).closes
  obtain ⟨mid, hb⟩ := begins_laidObject tab (finalLead tab) 0 c.entries [')', ';', '\n']
  exact ⟨⟨mid, hb⟩, reads_assignment_of_primary (by omega) hb (.mark "\x7b" (by decide)) nofun
    hprimary (follows_paren _).closes⟩

theorem renderChars_eq_callText (ht : IsTab tab) (c : LoaderConfig) :
    c.renderChars tab = callText (laidObject tab (finalLead tab) 0 c.entries) := by
  have hopening : "System.config(".toList =
      "System".toList ++ '.' :: ("config".toList ++ ['(']) := by decide +kernel
  rw [renderChars_eq ht c, hopening]
  simp [callText, afterSystem]

/-- The file does not name an interpreter. -/
theorem codeStart_callText (object : List Char) :
    codeStart (callText object) = ⟨callText object, 0⟩ := by
  have hsystem : "System".toList = 'S' :: "ystem".toList := by decide +kernel
  rw [callText, hsystem]
  rfl

/-- The whole file is one statement, the call. -/
theorem parse?_configCall (ht : IsTab tab) {c : LoaderConfig} (hkeys : c.DistinctKeys)
    (hints : HasReadIntegers c.toValue) (hnames : c.HasNameKeys) :
    ∃ e, Script.parse? (c.renderChars tab) = some [.expression e] ∧
      IsCallOf (IsObjectOf c.entries) e := by
  rw [renderChars_eq_callText ht]
  generalize hobj : laidObject tab (finalLead tab) 0 c.entries = object
  -- five parts of the grammar for each character are more than the statement and its call take
  obtain ⟨n, hn, hfuel⟩ : ∃ n, 5 * object.length + 1 ≤ n ∧
      5 * (callText object).length + 10 = n + 9 := by
    refine ⟨5 * (callText object).length + 1, ?_, by omega⟩
    simp only [callText, afterSystem, List.length_append, List.length_cons]
    omega
  have hobject := reads_configObject ht hkeys hints hnames (hobj ▸ hn)
  simp only [hobj] at hobject
  have hstatement : Reads ((grammar (n + 9)).statement Grammar.topLevel true) (callText object)
      (fun s => ∃ e, s = .expression e ∧ IsCallOf (IsObjectOf c.entries) e) ['\n'] :=
    reads_statementWith true (reads_assignment_call (by omega) (hobject _))
  have hread : Reads ((grammar (n + 9)).items (n + 9)) _ _ _ := reads_items hstatement
  obtain ⟨start, hat, hstart⟩ := at?_standsAt (begins_system object) 0
  obtain ⟨ss, stop, hitems, ⟨s, rfl, e, rfl, he⟩, hstop⟩ := hread start hstart
  refine ⟨e, ?_, he⟩
  unfold Script.parse?
  rw [codeStart_callText, hfuel, hat]
  simp only [Option.bind_eq_bind, Option.bind_some, hitems, hstop.1]
  rfl

end BundleLedger.LoaderConfig
