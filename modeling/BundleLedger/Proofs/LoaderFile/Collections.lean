import BundleLedger.Proofs.LoaderFile.Lines
import BundleLedger.Proofs.Script.Operands

/-!
# Arrays and objects of printed values

An array and an object are read part by part. What a part looks like is left open here: `ReadsAs`
says that a text is read as a value wherever a printed value may stand, and `IsKeyText` that a text
names a property. The values themselves follow in `Values`.

Results:

* `reads_elements`: the items of an array, each on a line of its own.
* `reads_property`: a member, where a colon follows its key.
* `reads_properties`: the members of an object, each on a line of its own.
-/
namespace BundleLedger.LoaderConfig

open BundleLedger.Decimal
open BundleLedger.Json BundleLedger.Json.Value
open BundleLedger.Script BundleLedger.Script.Parser

/-! ## What follows a value -/

/-- What stands behind a printed value. -/
structure Follows (rest : List Char) : Prop where
  closes : Closes rest
  ends : ∃ stop s, rest = stop :: s ∧ EndsNumber stop

theorem follows_comma (s : List Char) : Follows (',' :: s) where
  closes := ⟨.punctuator ",", by decide, s, begins_mark (by decide : (',', ",") ∈ marks) s⟩
  ends := ⟨',', s, rfl, .inl rfl⟩

theorem follows_paren (s : List Char) : Follows (')' :: s) where
  closes := ⟨.punctuator ")", by decide, s, begins_mark (by decide : (')', ")") ∈ marks) s⟩
  ends := ⟨')', s, rfl, .inr (.inr rfl)⟩

section

variable {tab : List Char}

theorem newLine_gap (ht : IsTab tab) (level : Nat) : ∀ b ∈ newLine tab level, IsGap b := by
  intro b hb
  simp only [newLine, List.mem_cons, List.mem_flatten] at hb
  rcases hb with rfl | ⟨l, hl, hb⟩
  · exact isGap_newline
  · rw [List.eq_of_mem_replicate hl] at hb
    exact isGap_of_tab (ht.blank b hb)

theorem follows_newLine (ht : IsTab tab) (level : Nat) {c : Char} {mark : String}
    (h : (c, mark) ∈ marks) (hclose : .punctuator mark ∈ closers) (s : List Char) :
    Follows (newLine tab level ++ c :: s) where
  closes := ⟨_, hclose, s, (begins_mark h s).blanks (newLine_gap ht level)⟩
  ends := ⟨'\n', _, rfl, .inr (.inl rfl)⟩

end

/-! ## Elements -/

variable {g : Grammar} {ctx : Context} {tab : List Char}

/-- What `text` is in front of what may follow a value: `p` reads it as `v`. -/
def ReadsAs (p : Parser Expr) (text : List Char) (v : Value) : Prop :=
  ∀ rest, Follows rest →
    (∃ tok mid, Leads tok ∧ Begins (text ++ rest) tok mid) ∧
      Reads p (text ++ rest) (literal · = .ok v) rest

theorem reads_element {text mid rest : List Char} {tok : Token} {P : Expr → Prop}
    (hb : Begins text tok mid) (htok : Leads tok)
    (hread : Reads (g.assignment (Grammar.inside ctx)) text P rest) :
    Reads (g.element ctx) text (fun e => ∃ a, e = .item a ∧ P a) rest := by
  unfold Grammar.element
  refine Reads.get hb fun c _ => ?_
  refine (reads_accept_not hb (htok.ne_punctuator (by decide))).next ?_
  exact hread.bind fun a ha => .pure ⟨a, rfl, ha⟩

theorem literalItems_cons {e : Expr} {v : Value} {es : List Element} {vs : List Value}
    (he : literal e = .ok v) (hes : literalItems es = .ok vs) :
    literalItems (.item e :: es) = .ok (v :: vs) := by
  simp only [literalItems, he, hes]
  rfl

/-- One element, and what is made of the rest. -/
theorem reads_elements_step {text tail rest : List Char} {v : Value} {fuel : Nat}
    {P : List Element → Prop} (hv : ReadsAs (g.assignment (Grammar.inside ctx)) text v)
    (htail : Follows tail)
    (hrest : ∀ a, literal a = .ok v → Reads (do
      if ← accept "]" then return [.item a]
      expect ","
      return .item a :: (← g.elements ctx fuel)) tail P rest) :
    Reads (g.elements ctx (fuel + 1)) (text ++ tail) P rest := by
  obtain ⟨⟨tok, mid, htok, hb⟩, hread⟩ := hv tail htail
  unfold Grammar.elements
  refine (reads_accept_not hb (htok.ne_punctuator (by decide))).next ?_
  refine (reads_accept_not hb (htok.ne_punctuator (by decide))).next ?_
  refine (reads_element hb htok hread).bind fun e he => ?_
  obtain ⟨a, rfl, ha⟩ := he
  exact hrest a ha

theorem follows_prettyItems (ht : IsTab tab) (level : Nat) (items : List Value) (rest : List Char) :
    Follows (prettyItems tab (level + 1) items ++ (newLine tab level ++ ']' :: rest)) := by
  cases items with
  | nil =>
    have hmark : (']', "]") ∈ marks := by decide
    simpa [prettyItems] using follows_newLine ht level hmark (by decide) rest
  | cons v items => simpa [prettyItems] using follows_comma _

theorem reads_elements (ht : IsTab tab) (level : Nat) {first : Value} {items : List Value}
    (hitems : ∀ v ∈ first :: items,
      ReadsAs (g.assignment (Grammar.inside ctx)) (pretty tab (level + 1) v) v)
    {fuel : Nat} (hfuel : items.length < fuel) {rest : List Char} (hrest : Closes rest) :
    Reads (g.elements ctx fuel)
      (pretty tab (level + 1) first ++ (prettyItems tab (level + 1) items ++
        (newLine tab level ++ ']' :: rest)))
      (literalItems · = .ok (first :: items)) rest := by
  obtain ⟨close, hclose, rest', hrest⟩ := hrest
  induction items generalizing first fuel with
  | nil =>
    obtain ⟨fuel, rfl⟩ : ∃ n, fuel = n + 1 := ⟨fuel - 1, by omega⟩
    have hmark : (']', "]") ∈ marks := by decide
    have hbracket := (begins_mark hmark rest).blanks (newLine_gap ht level)
    refine reads_elements_step (hitems first List.mem_cons_self)
      (follows_prettyItems ht level [] rest) fun a ha => ?_
    refine (reads_accept hbracket hrest).next ?_
    exact .pure (literalItems_cons ha rfl)
  | cons next items ih =>
    obtain ⟨fuel, rfl⟩ : ∃ n, fuel = n + 1 := ⟨fuel - 1, by omega⟩
    have hmark : (',', ",") ∈ marks := by decide
    have hgap := newLine_gap ht (level + 1)
    have hmore := ih (fun v hv => hitems v (List.mem_cons_of_mem _ hv)) (by simpa using hfuel)
    obtain ⟨⟨tok, mid, -, hnext⟩, -⟩ :=
      hitems next (by simp) _ (follows_prettyItems ht level items rest)
    refine reads_elements_step (hitems first List.mem_cons_self)
      (follows_prettyItems ht level (next :: items) rest) fun a ha => ?_
    simp only [prettyItems, List.cons_append, List.append_assoc]
    refine (reads_accept_not (begins_mark hmark _) (by decide)).next ?_
    refine (reads_expect (begins_mark hmark _) (hnext.blanks hgap)).bind fun _ _ => ?_
    exact (hmore.blanks hgap).bind fun es hes => .pure (literalItems_cons ha hes)

/-! ## Members -/

/-- A property that sets `key` to `v`. -/
def IsField (key : String) (v : Value) (p : Property) : Prop :=
  ∃ start name e, p = .field start name e ∧ keyText? name = some key ∧ literal e = .ok v

/-- What `text` is in front of a colon: the name of a property. -/
def IsKeyText (text : List Char) (key : String) : Prop :=
  ∀ s, ∃ tok, Begins (text ++ ':' :: s) tok (':' :: s) ∧ (tok = .string key ∨ tok = .name key false)

theorem reads_propertyName {text mid rest : List Char} {tok tok' : Token} {key : String}
    (hb : Begins text tok mid) (hmid : Begins mid tok' rest)
    (htok : tok = .string key ∨ tok = .name key false) :
    Reads (g.propertyName ctx) text (fun name => ∃ k, name = .key k ∧ keyText? k = some key) mid := by
  unfold Grammar.propertyName
  refine Reads.get hb fun c hc => ?_
  rw [hc]
  rcases htok with rfl | rfl
  · exact (reads_advance hb hmid).bind fun _ _ => .pure ⟨_, rfl, rfl⟩
  · exact (reads_advance hb hmid).bind fun _ _ => .pure ⟨_, rfl, rfl⟩

theorem reads_namedProperty {text value rest : List Char} {key : String} {v : Value}
    (hkey : IsKeyText text key) (hv : ReadsAs (g.assignment (Grammar.inside ctx)) value v)
    (hrest : Follows rest) :
    Reads (g.namedProperty ctx) (text ++ ':' :: ' ' :: (value ++ rest)) (IsField key v) rest := by
  obtain ⟨tok, hb, htok⟩ := hkey (' ' :: (value ++ rest))
  obtain ⟨⟨tok', mid, -, hvalue⟩, hread⟩ := hv rest hrest
  have hblank : IsGap ' ' := isGap_of_tab (.inl rfl)
  have hmark : (':', ":") ∈ marks := by decide
  have hcolon := begins_mark hmark (' ' :: (value ++ rest))
  unfold Grammar.namedProperty
  refine Reads.get hb fun c _ => ?_
  refine (reads_propertyName hb hcolon htok).bind fun name hname => ?_
  obtain ⟨k, rfl, hk⟩ := hname
  refine Reads.get hcolon fun c' hc' => ?_
  have hparen : c'.is "(" = false := by simp [Cursor.is, hc']
  simp only [hparen, Bool.false_eq_true, if_false]
  refine (reads_accept hcolon (hvalue.blank hblank)).next ?_
  exact (hread.blank hblank).bind fun e he => .pure ⟨_, k, e, rfl, hk, he⟩

/-- No word changes what a property is when a colon follows. -/
theorem reads_property {text value rest : List Char} {key : String} {v : Value}
    (hkey : IsKeyText text key) (hv : ReadsAs (g.assignment (Grammar.inside ctx)) value v)
    (hrest : Follows rest) :
    Reads (g.property ctx) (text ++ ':' :: ' ' :: (value ++ rest)) (IsField key v) rest := by
  obtain ⟨tok, hb, htok⟩ := hkey (' ' :: (value ++ rest))
  have hmark : (':', ":") ∈ marks := by decide
  have hcolon := begins_mark hmark (' ' :: (value ++ rest))
  have hspread : ∀ mark, tok ≠ .punctuator mark := by
    rcases htok with rfl | rfl <;> simp
  have hends : ∀ c : Cursor, c.token = .punctuator ":" →
      (!Grammar.endsPropertyName c && !c.newline) = false := by
    intro c hc
    rw [Grammar.endsPropertyName_colon (by simp [Cursor.is, hc])]
    rfl
  have hbegins : ∀ c : Cursor, c.token = .punctuator ":" → c.beginsName = false := by
    intro c hc
    simp [Cursor.beginsName, hc]
  unfold Grammar.property
  refine Reads.get hb fun c _ => ?_
  refine (reads_accept_not hb (hspread _)).next ?_
  refine (reads_accept_not hb (hspread _)).next ?_
  refine (reads_followedBy hb hcolon hends).next ?_
  simp only [Bool.and_false, Bool.false_eq_true, if_false]
  refine (reads_followedBy hb hcolon hbegins).next ?_
  simp only [Bool.and_false, Bool.false_eq_true, if_false]
  exact reads_namedProperty hkey hv hrest

theorem follows_laidMembers (ht : IsTab tab) (lead : String → List Char) (level : Nat)
    (members : Members) (rest : List Char) :
    Follows (laidMembers tab lead (level + 1) members ++ (newLine tab level ++ '\x7d' :: rest)) := by
  cases members with
  | nil =>
    have hmark : ('\x7d', "\x7d") ∈ marks := by decide
    simpa [laidMembers] using follows_newLine ht level hmark (by decide) rest
  | cons m members => simpa [laidMembers] using follows_comma _

/-- The properties set the members, one after the other. -/
def AreFields : Members → List Property → Prop := List.Forall₂ fun m p => IsField m.1 m.2 p

/-- One property, and what is made of the rest. -/
theorem reads_properties_step {text value tail rest : List Char} {key : String} {v : Value}
    {fuel : Nat} {P : List Property → Prop} (hkey : IsKeyText text key)
    (hv : ReadsAs (g.assignment (Grammar.inside ctx)) value v) (htail : Follows tail)
    (hrest : ∀ p, IsField key v p → Reads (do
      if ← accept "\x7d" then return [p]
      expect ","
      return p :: (← listUpTo "\x7d" (g.property ctx) fuel)) tail P rest) :
    Reads (listUpTo "\x7d" (g.property ctx) (fuel + 1)) (text ++ ':' :: ' ' :: (value ++ tail)) P
      rest := by
  obtain ⟨tok, hb, htok⟩ := hkey (' ' :: (value ++ tail))
  have hclose : tok ≠ .punctuator "\x7d" := by rcases htok with rfl | rfl <;> simp
  unfold listUpTo
  refine (reads_accept_not hb hclose).next ?_
  exact (reads_property hkey hv htail).bind hrest

theorem reads_properties (ht : IsTab tab) (lead : String → List Char) (level : Nat)
    {first : String × Value} {members : Members}
    (hmembers : ∀ m ∈ first :: members, IsKeyText ('\n' :: lead m.1) m.1 ∧
      ReadsAs (g.assignment (Grammar.inside ctx)) (pretty tab (level + 1) m.2) m.2)
    {fuel : Nat} (hfuel : members.length < fuel) {rest : List Char} (hrest : Closes rest) :
    Reads (listUpTo "\x7d" (g.property ctx) fuel)
      ('\n' :: lead first.1 ++ ':' :: ' ' :: (pretty tab (level + 1) first.2 ++
        (laidMembers tab lead (level + 1) members ++ (newLine tab level ++ '\x7d' :: rest))))
      (AreFields (first :: members)) rest := by
  obtain ⟨close, hclose, rest', hrest⟩ := hrest
  induction members generalizing first fuel with
  | nil =>
    obtain ⟨fuel, rfl⟩ : ∃ n, fuel = n + 1 := ⟨fuel - 1, by omega⟩
    have hmark : ('\x7d', "\x7d") ∈ marks := by decide
    have hbrace := (begins_mark hmark rest).blanks (newLine_gap ht level)
    obtain ⟨hkey, hv⟩ := hmembers first List.mem_cons_self
    refine reads_properties_step hkey hv (follows_laidMembers ht lead level [] rest) fun p hp => ?_
    refine (reads_accept hbrace hrest).next ?_
    exact .pure (.cons hp .nil)
  | cons next members ih =>
    obtain ⟨fuel, rfl⟩ : ∃ n, fuel = n + 1 := ⟨fuel - 1, by omega⟩
    have hmark : (',', ",") ∈ marks := by decide
    have hmore := ih (fun m hm => hmembers m (List.mem_cons_of_mem _ hm)) (by simpa using hfuel)
    obtain ⟨hkey, hv⟩ := hmembers first List.mem_cons_self
    obtain ⟨tok, hnext, -⟩ := (hmembers next (by simp)).1 (' ' :: (pretty tab (level + 1) next.2 ++
      (laidMembers tab lead (level + 1) members ++ (newLine tab level ++ '\x7d' :: rest))))
    refine reads_properties_step hkey hv (follows_laidMembers ht lead level _ rest) fun p hp => ?_
    simp only [laidMembers, List.cons_append, List.append_assoc] at hnext hmore ⊢
    refine (reads_accept_not (begins_mark hmark _) (by decide)).next ?_
    refine (reads_expect (begins_mark hmark _) hnext).bind fun _ _ => ?_
    exact hmore.bind fun ps hps => .pure (.cons hp hps)

end BundleLedger.LoaderConfig
