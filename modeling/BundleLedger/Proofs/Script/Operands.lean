import BundleLedger.Proofs.Script.Tokens
import BundleLedger.Script.Program

/-!
# Expressions without operators

A value that ends at a comma or at a closing mark is read through all layers of the grammar, from
assignments down to chains of members and calls, and none of them finds anything to do.

Results:

* `reads_accessWith`, `reads_operandWith`, …: one lemma for each layer.
* `reads_assignment_of_operand`: an operand is read as an assignment when nothing goes with it.
-/
namespace BundleLedger.Script

open Script.Parser

/-! ## What surrounds a value -/

/-- The tokens that end an expression. -/
def closers : List Token :=
  [.punctuator ",", .punctuator "]", .punctuator "\x7d", .punctuator ")", .punctuator ";"]

/-- `rest` begins with a token that ends an expression. -/
def Closes (rest : List Char) : Prop := ∃ tok ∈ closers, ∃ rest', Begins rest tok rest'

/-- The tokens that begin an operand without an operator in front of it. -/
inductive Plain : Token → Prop where
  | string (s : String) : Plain (.string s)
  | number (value : Option Decimal.Double) : Plain (.number value)
  | name (word : String) (h : word ∈ ["null", "true", "false", "System"]) : Plain (.name word false)
  | mark (text : String) (h : text ∈ ["\x7b", "["]) : Plain (.punctuator text)

/-- The tokens that begin a printed value. -/
def Leads (tok : Token) : Prop := Plain tok ∨ tok = .punctuator "-"

section

variable {tok : Token}

theorem Leads.ne_punctuator (h : Leads tok) {text : String} (hne : text ∉ ["\x7b", "[", "-"]) :
    tok ≠ .punctuator text := by
  rintro rfl
  simp only [List.mem_cons, List.not_mem_nil, or_false, not_or] at hne
  rcases h with h | h
  · cases h with
    | mark _ hm =>
      simp only [List.mem_cons, List.not_mem_nil, or_false] at hm
      exact hm.elim hne.1 hne.2.1
  · exact hne.2.2 (Token.punctuator.inj h)

theorem Leads.ne_word (h : Leads tok) {word : String}
    (hne : word ∉ ["null", "true", "false", "System"]) : tok ≠ .name word false := by
  rintro rfl
  rcases h with h | h
  · cases h with
    | name _ hw => exact hne hw
  · cases h

theorem Plain.ne_punctuator (h : Plain tok) {text : String} (hne : text ∉ ["\x7b", "["]) :
    tok ≠ .punctuator text := by
  rintro rfl
  cases h with
  | mark _ hm => exact hne hm

/-- Among them only `System` is the name of a variable. -/
theorem Plain.not_isVariable (h : Plain tok) (hne : tok ≠ .name "System" false) (ctx : Context)
    {c : Cursor} (hc : c.token = tok) : c.isVariable ctx = false := by
  have hwords : ∀ word ∈ ["null", "true", "false", "System"],
      word ≠ "System" → reservedWords.contains word = true := by
    decide
  cases h with
  | string | number | mark => simp only [Cursor.isVariable, hc]
  | name word hw =>
    have hreserved := hwords word hw fun he => hne (he ▸ rfl)
    simp only [Cursor.isVariable, hc, Context.allowsName, hreserved, Bool.not_true, Bool.false_and]

theorem Leads.ne_privateName (h : Leads tok) (name : String) : tok ≠ .privateName name := by
  rintro rfl
  rcases h with h | h <;> cases h

end

variable {g : Grammar} {ctx : Context} {text mid rest : List Char} {tok : Token} {P : Expr → Prop}

/-! ## From chains to assignments -/

theorem reads_accessRest (calls : Bool) {fuel : Nat} (hfuel : 0 < fuel) (hrest : Closes rest)
    (e : Expr) : Reads (g.accessRest ctx calls fuel false e) rest (· = e) rest := by
  obtain ⟨fuel, rfl⟩ : ∃ n, fuel = n + 1 := ⟨fuel - 1, by omega⟩
  obtain ⟨tok, htok, rest', hb⟩ := hrest
  have hall : ∀ tok ∈ closers, tok ≠ .punctuator "." ∧ tok ≠ .punctuator "[" := by decide
  unfold Grammar.accessRest
  refine (reads_accept_not hb (hall tok htok).1).next ?_
  refine (reads_accept_not hb (hall tok htok).2).next ?_
  refine Reads.get hb fun c hc => ?_
  rw [hc]
  simp only [closers, List.mem_cons, List.not_mem_nil, or_false] at htok
  rcases htok with rfl | rfl | rfl | rfl | rfl <;> exact .pure rfl

theorem reads_accessWith (hfuel : 0 < g.fuel) (hhead : Reads (g.accessHead ctx true) text P rest)
    (hrest : Closes rest) : Reads (g.accessWith ctx) text P rest := by
  unfold Grammar.accessWith
  refine hhead.bind fun e he => ?_
  exact (reads_accessRest true hfuel hrest e).mono fun e' h => h ▸ he

theorem reads_accessHead (hb : Begins text tok mid) (htok : Leads tok)
    (hprimary : Reads (g.primary ctx) text P rest) : Reads (g.accessHead ctx true) text P rest := by
  unfold Grammar.accessHead
  refine Reads.get hb fun c _ => ?_
  refine (reads_acceptWord_not hb (htok.ne_word (by decide))).next ?_
  refine (reads_acceptWord_not hb (htok.ne_word (by decide))).next ?_
  refine (reads_acceptWord_not hb (htok.ne_word (by decide))).next ?_
  exact hprimary

theorem reads_stepped (haccess : Reads (g.access ctx) text P rest) (hrest : Closes rest) :
    Reads (g.stepped ctx) text P rest := by
  obtain ⟨tok, htok, rest', hb⟩ := hrest
  have hall : ∀ tok ∈ closers,
      (tok == .punctuator "++") = false ∧ (tok == .punctuator "--") = false := by
    decide
  unfold Grammar.stepped
  refine haccess.bind fun e he => ?_
  refine Reads.get hb fun c hc => ?_
  simp only [Cursor.is, hc, hall tok htok, Bool.or_self, Bool.false_and, Bool.false_eq_true, if_false]
  exact .pure he

theorem reads_operandWith (hb : Begins text tok mid) (htok : Plain tok)
    (hstepped : Reads (g.stepped ctx) text P rest) : Reads (g.operandWith ctx) text P rest := by
  have hup : tok ≠ .punctuator "++" := htok.ne_punctuator (by decide)
  have hdown : tok ≠ .punctuator "--" := htok.ne_punctuator (by decide)
  have hwords : ∀ inAsync, ∀ word ∈ ["null", "true", "false", "System"],
      (unaryWords.contains word || (inAsync && word == "await")) = false := by decide
  have hmarks : ∀ mark ∈ ["\x7b", "["], unaryOperators.contains mark = false := by decide
  unfold Grammar.operandWith
  refine Reads.get hb fun c hc => ?_
  have hnot : c.is "++" = false ∧ c.is "--" = false := by simp [Cursor.is, hc, hup, hdown]
  have hminus : Reads (accept "-") text (· = false) text :=
    reads_accept_not hb (htok.ne_punctuator (by decide))
  simp only [hc, hnot, Bool.or_self, Bool.false_eq_true, if_false]
  -- whichever token it is, no operator stands in front
  cases htok with
  | string | number =>
    refine hminus.next ?_
    exact hstepped
  | name word hw =>
    simp only [hwords ctx.inAsync word hw, Bool.false_eq_true, if_false]
    refine hminus.next ?_
    exact hstepped
  | mark mark hm =>
    simp only [hmarks mark hm, Bool.false_eq_true, if_false]
    refine hminus.next ?_
    exact hstepped

/-- A minus and an operand behind it. -/
theorem reads_negation {Q : Expr → Prop} (hb : Begins text (.punctuator "-") mid)
    {tok' : Token} {rest' : List Char} (hmid : Begins mid tok' rest')
    (hoperand : Reads (g.operand ctx) mid P rest) (hq : ∀ start e, P e → Q (.negation start e)) :
    Reads (g.operandWith ctx) text Q rest := by
  unfold Grammar.operandWith
  refine Reads.get hb fun c hc => ?_
  have hunary : unaryOperators.contains "-" = false := by decide
  simp only [hc, hunary, Bool.false_eq_true, if_false]
  refine (reads_accept hb hmid).next ?_
  exact hoperand.bind fun e he => .pure (hq _ e he)

theorem reads_operationRest (level : Nat) {fuel : Nat} (hfuel : 0 < fuel) (hrest : Closes rest)
    (e : Expr) : Reads (g.operationRest ctx level fuel e) rest (· = e) rest := by
  obtain ⟨fuel, rfl⟩ : ∃ n, fuel = n + 1 := ⟨fuel - 1, by omega⟩
  obtain ⟨tok, htok, rest', hb⟩ := hrest
  have hall : ∀ tok ∈ closers, operatorLevel? ctx tok = none := by
    simp only [closers, List.forall_mem_cons, List.not_mem_nil, false_imp_iff, implies_true, and_true]
    exact ⟨rfl, rfl, rfl, rfl, rfl⟩
  unfold Grammar.operationRest
  refine Reads.get hb fun c hc => ?_
  simp only [hc, hall tok htok]
  exact .pure rfl

theorem reads_operationWith (hfuel : 0 < g.fuel) (level : Nat) (hb : Begins text tok mid)
    (htok : Leads tok) (hoperand : Reads (g.operand ctx) text P rest) (hrest : Closes rest) :
    Reads (g.operationWith ctx level) text P rest := by
  unfold Grammar.operationWith
  refine Reads.get hb fun c hc => ?_
  rw [hc]
  split
  · exact absurd rfl (htok.ne_privateName _)
  · refine hoperand.bind fun e he => ?_
    exact (reads_operationRest level hfuel hrest e).mono fun e' h => h ▸ he

theorem reads_conditional (hoperation : Reads (g.operation ctx 0) text P rest) (hrest : Closes rest) :
    Reads (g.conditional ctx) text P rest := by
  obtain ⟨tok, htok, rest', hb⟩ := hrest
  have hall : ∀ tok ∈ closers, tok ≠ .punctuator "?" := by decide
  unfold Grammar.conditional
  refine hoperation.bind fun e he => ?_
  refine (reads_accept_not hb (hall tok htok)).next ?_
  exact .pure he

theorem reads_assignmentRest (hrest : Closes rest) (e : Expr) :
    Reads (g.assignmentRest ctx e) rest (· = e) rest := by
  obtain ⟨tok, htok, rest', hb⟩ := hrest
  have hall : ∀ tok ∈ closers, (tok == .punctuator "=") = false ∧
      (assignmentOperators.any fun text => tok == .punctuator text) = false := by
    decide
  unfold Grammar.assignmentRest
  refine Reads.get hb fun c hc => ?_
  have hany : assignmentOperators.any c.is = false := by
    rw [← (hall tok htok).2, ← hc]
    rfl
  simp only [hany, Cursor.is, hc, hall tok htok, Bool.false_eq_true, if_false]
  exact .pure rfl

/-- No arrow function begins with a value, nor with a name that no arrow follows. -/
theorem refuses_arrow (hb : Begins text tok mid) (hparen : tok ≠ .punctuator "(")
    (hasync : tok ≠ .name "async" false)
    (hname : ∀ c : Cursor, c.token = tok → c.isVariable ctx = true →
      ∃ tok' rest', Begins mid tok' rest' ∧ tok' ≠ .punctuator "=>") :
    Refuses (g.arrow ctx) text := by
  unfold Grammar.arrow
  refine refuses_get hb fun c hc => ?_
  have hword : c.isWord "async" = false := by simpa [Cursor.isWord, hc] using hasync
  have hmark : c.is "(" = false := by simpa [Cursor.is, hc] using hparen
  refine (reads_followedBy_any _).refuses fun _ _ => ?_
  simp only [hword, hmark, Bool.false_and, Bool.false_or, Bool.false_eq_true, if_false]
  by_cases hv : c.isVariable ctx = true
  · obtain ⟨tok', rest', hmid, hne⟩ := hname c hc hv
    have hlook : Reads (followedBy fun n => n.is "=>") text (· = false) text :=
      reads_followedBy hb hmid fun c' hc' => by simpa [Cursor.is, hc'] using hne
    refine hlook.refuses fun b hb => ?_
    subst hb
    exact refuses_require (by simp)
  · refine (reads_followedBy_any _).refuses fun _ _ => ?_
    exact refuses_require (by simp [hv])

theorem reads_assignmentWith (hb : Begins text tok mid) (hyield : tok ≠ .name "yield" false)
    (harrow : Refuses (g.arrow ctx) text) (hconditional : Reads (g.conditional ctx) text P rest)
    (hrest : Closes rest) : Reads (g.assignmentWith ctx) text P rest := by
  unfold Grammar.assignmentWith
  refine Reads.get hb fun c hc => ?_
  have hword : c.isWord "yield" = false := by simpa [Cursor.isWord, hc] using hyield
  simp only [hword, Bool.and_false, Bool.false_eq_true, if_false]
  refine Reads.orElse harrow (hconditional.bind fun e he => ?_)
  exact (reads_assignmentRest hrest e).mono fun e' h => h ▸ he

/-! ## Through the layers -/

theorem reads_operand_of_access {n : Nat} (hb : Begins text tok mid) (htok : Plain tok)
    (haccess : Reads ((grammar (n + 1)).access ctx) text P rest) (hrest : Closes rest) :
    Reads ((grammar (n + 2)).operand ctx) text P rest := by
  have hstepped : Reads ((grammar (n + 1)).stepped ctx) text P rest := reads_stepped haccess hrest
  exact reads_operandWith hb htok hstepped

theorem reads_assignment_of_operand {n : Nat} (hb : Begins text tok mid) (htok : Leads tok)
    (harrow : Refuses ((grammar (n + 2)).arrow ctx) text)
    (hoperand : Reads ((grammar (n + 1)).operand ctx) text P rest) (hrest : Closes rest) :
    Reads ((grammar (n + 3)).assignment ctx) text P rest := by
  have hfuel : 0 < (grammar (n + 1)).fuel := Nat.succ_pos n
  have hoperation : Reads ((grammar (n + 2)).operation ctx 0) text P rest :=
    reads_operationWith hfuel 0 hb htok hoperand hrest
  exact reads_assignmentWith hb (htok.ne_word (by decide)) harrow
    (reads_conditional hoperation hrest) hrest

theorem fuel_grammar (n : Nat) : (grammar n).fuel = n := by
  cases n <;> rfl

theorem reads_operand_of_primary {n : Nat} (hn : 0 < n) (hb : Begins text tok mid) (htok : Plain tok)
    (hprimary : Reads ((grammar n).primary ctx) text P rest) (hrest : Closes rest) :
    Reads ((grammar (n + 2)).operand ctx) text P rest := by
  have haccess : Reads ((grammar (n + 1)).access ctx) text P rest :=
    reads_accessWith (by rwa [fuel_grammar]) (reads_accessHead hb (.inl htok) hprimary) hrest
  exact reads_operand_of_access hb htok haccess hrest

end BundleLedger.Script
