import BundleLedger.Script.Cursor

/-!
# What a parser makes of a text

`Begins text token rest` says which token a text begins with, wherever the text stands. A cursor
stands at a text (`StandsAt`) when it is on that token. `Reads p text P rest` says that `p`, at
`text`, gives something that satisfies `P` and then stands at `rest`, and `Refuses p text` that it
gives nothing.

Results:

* `Reads.bind` and `Reads.next`: what two parsers read one after the other.
* `reads_advance`, `reads_accept`, `reads_followedBy`: what the basic parsers do at a known token.
* `Reads.blank`: blanks in front of a text make no difference.
-/
namespace BundleLedger.Script

open Script.Parser

/-- `text` begins with `token`, and `rest` follows that. -/
def Begins (text : List Char) (token : Token) (rest : List Char) : Prop :=
  ∀ newline offset, ∃ point newline' next,
    skip .code newline offset text = some (point, newline') ∧ token? point = some (token, next) ∧
      next.rest = rest

/-- The cursor is on the first token of `text`, and no name with a default is pending. -/
def Cursor.StandsAt (c : Cursor) (text : List Char) : Prop :=
  c.defaults = 0 ∧ ∃ newline offset point newline',
    skip .code newline offset text = some (point, newline') ∧ token? point = some (c.token, c.next)

section

variable {text rest : List Char} {token : Token} {c : Cursor}

theorem Cursor.StandsAt.begins (hc : c.StandsAt text) (h : Begins text token rest) :
    c.token = token ∧ c.next.rest = rest := by
  obtain ⟨-, newline, offset, point, newline', hskip, htoken⟩ := hc
  obtain ⟨point', newline'', next, hskip', htoken', hrest⟩ := h newline offset
  rw [hskip, Option.some.injEq, Prod.mk.injEq] at hskip'
  obtain ⟨rfl, -⟩ := hskip'
  rw [htoken, Option.some.injEq, Prod.mk.injEq] at htoken'
  exact ⟨htoken'.1, by rw [htoken'.2, hrest]⟩

theorem Cursor.StandsAt.token_eq (hc : c.StandsAt text) (h : Begins text token rest) :
    c.token = token :=
  (hc.begins h).1

/-- A token is found where a text stands. -/
theorem at?_standsAt (h : Begins text token rest) (offset : Nat) :
    ∃ c, Cursor.at? ⟨text, offset⟩ 0 = some c ∧ c.StandsAt text := by
  obtain ⟨point, newline, next, hskip, htoken, -⟩ := h false offset
  refine ⟨⟨point, token, newline, next, 0⟩, ?_, rfl, false, offset, point, newline, hskip, htoken⟩
  simp [Cursor.at?, hskip, htoken]

/-! ## Blanks -/

/-- Whether a character is passed over between tokens. -/
def IsGap (c : Char) : Prop := isLineEnd c = true ∨ isBlank c = true

theorem isGap_of_tab {c : Char} (h : c = ' ' ∨ c = '\t') : IsGap c := by
  rcases h with rfl | rfl <;> exact .inr (by decide)

theorem isGap_newline : IsGap '\n' := .inl (by decide)

theorem skip_gap {b : Char} (hb : IsGap b) (newline : Bool) (offset : Nat) (text : List Char) :
    ∃ newline', skip .code newline offset (b :: text) =
      skip .code newline' (offset + b.utf8Size) text := by
  have hslash : b ≠ '/' := by
    rintro rfl
    revert hb
    simp only [IsGap]
    decide
  have heq : skip .code newline offset (b :: text) =
      if isLineEnd b then skip .code true (offset + b.utf8Size) text
      else if isBlank b then skip .code newline (offset + b.utf8Size) text
      else some (⟨b :: text, offset⟩, newline) := by
    rw [skip]
    · rintro _ rfl
      exact absurd rfl hslash
    · rintro _ rfl
      exact absurd rfl hslash
  rw [heq]
  by_cases hend : isLineEnd b = true
  · exact ⟨true, by rw [if_pos hend]⟩
  · rcases hb with hb | hb
    · exact absurd hb hend
    · exact ⟨newline, by rw [if_neg hend, if_pos hb]⟩

theorem Begins.blank {b : Char} (hb : IsGap b) (h : Begins text token rest) :
    Begins (b :: text) token rest := by
  intro newline offset
  obtain ⟨newline', heq⟩ := skip_gap hb newline offset text
  rw [heq]
  exact h newline' _

theorem Begins.blanks {blanks : List Char} (hb : ∀ b ∈ blanks, IsGap b)
    (h : Begins text token rest) : Begins (blanks ++ text) token rest := by
  induction blanks with
  | nil => exact h
  | cons b blanks ih =>
    exact (ih fun c hc => hb c (List.mem_cons_of_mem _ hc)).blank (hb b List.mem_cons_self)

theorem Cursor.StandsAt.of_blank {b : Char} (hb : IsGap b) (h : c.StandsAt (b :: text)) :
    c.StandsAt text := by
  obtain ⟨hdefaults, newline, offset, point, newline', hskip, htoken⟩ := h
  obtain ⟨newline'', heq⟩ := skip_gap hb newline offset text
  rw [heq] at hskip
  exact ⟨hdefaults, newline'', _, point, newline', hskip, htoken⟩

theorem Cursor.StandsAt.of_blanks {blanks : List Char} (hb : ∀ b ∈ blanks, IsGap b)
    (h : c.StandsAt (blanks ++ text)) : c.StandsAt text := by
  induction blanks with
  | nil => exact h
  | cons b blanks ih =>
    exact ih (fun c hc => hb c (List.mem_cons_of_mem _ hc)) (h.of_blank (hb b List.mem_cons_self))

end

/-! ## Parsers -/

/-- At `text`, `p` gives something that satisfies `P`, and it stands at `rest` then. -/
def Reads {α : Type} (p : Parser α) (text : List Char) (P : α → Prop) (rest : List Char) : Prop :=
  ∀ c : Cursor, c.StandsAt text → ∃ a c', p c = some (a, c') ∧ P a ∧ c'.StandsAt rest

/-- At `text`, `p` gives nothing. -/
def Refuses {α : Type} (p : Parser α) (text : List Char) : Prop :=
  ∀ c : Cursor, c.StandsAt text → p c = none

section

variable {α β : Type} {p q : Parser α} {text mid rest rest' : List Char} {P P' : α → Prop}
  {Q : β → Prop} {token : Token}

theorem Reads.pure {a : α} (h : P a) : Reads (pure a) text P text := fun c hc =>
  ⟨a, c, rfl, h, hc⟩

theorem Reads.bind {f : α → Parser β} (hp : Reads p text P mid)
    (hf : ∀ a, P a → Reads (f a) mid Q rest) : Reads (p >>= f) text Q rest := by
  intro c hc
  obtain ⟨a, c', hpc, ha, hc'⟩ := hp c hc
  obtain ⟨b, c'', hfc, hb, hc''⟩ := hf a ha c' hc'
  refine ⟨b, c'', ?_, hb, hc''⟩
  show (p c).bind (fun r => f r.1 r.2) = some (b, c'')
  rw [hpc, Option.bind_some, hfc]

/-- When the first parser can give one thing only, the second one goes on with that. -/
theorem Reads.next {a : α} {f : α → Parser β} (hp : Reads p text (· = a) mid)
    (hf : Reads (f a) mid Q rest) : Reads (p >>= f) text Q rest :=
  hp.bind fun _ h => h ▸ hf

/-- What is looked up at the cursor is known from the token there. -/
theorem Reads.get {f : Cursor → Parser β} (hb : Begins text token rest')
    (hf : ∀ c : Cursor, c.token = token → Reads (f c) text Q rest) :
    Reads (MonadState.get >>= f) text Q rest := fun c hc => hf c (hc.token_eq hb) c hc

theorem Reads.mono (hp : Reads p text P rest) (h : ∀ a, P a → P' a) : Reads p text P' rest := by
  intro c hc
  obtain ⟨a, c', hpc, ha, hc'⟩ := hp c hc
  exact ⟨a, c', hpc, h a ha, hc'⟩

theorem Reads.blank {b : Char} (hb : IsGap b) (h : Reads p text P rest) :
    Reads p (b :: text) P rest := fun c hc => h c (hc.of_blank hb)

theorem Reads.blanks {blanks : List Char} (hb : ∀ b ∈ blanks, IsGap b) (h : Reads p text P rest) :
    Reads p (blanks ++ text) P rest := fun c hc => h c (hc.of_blanks hb)

/-- A first alternative that refuses a text leaves it to the second. -/
theorem Reads.orElse (hp : Refuses p text) (hq : Reads q text P rest) :
    Reads (p <|> q) text P rest := by
  intro c hc
  obtain ⟨a, c', hqc, ha, hc'⟩ := hq c hc
  refine ⟨a, c', ?_, ha, hc'⟩
  show (p c <|> q c) = _
  rw [hp c hc, hqc]
  rfl

theorem refuses_require {b : Bool} (h : b = false) {f : Unit → Parser β} :
    Refuses (require b >>= f) text := by
  intro c _
  subst h
  rfl

/-- What refuses the rest of a text refuses the text. -/
theorem Reads.refuses {f : α → Parser β} (hp : Reads p text P mid)
    (hf : ∀ a, P a → Refuses (f a) mid) : Refuses (p >>= f) text := by
  intro c hc
  obtain ⟨a, c', hpc, ha, hc'⟩ := hp c hc
  show (p c).bind (fun r => f r.1 r.2) = none
  rw [hpc, Option.bind_some, hf a ha c' hc']

theorem refuses_get {f : Cursor → Parser β} (hb : Begins text token rest')
    (hf : ∀ c : Cursor, c.token = token → Refuses (f c) text) :
    Refuses (MonadState.get >>= f) text := fun c hc => hf c (hc.token_eq hb) c hc

theorem reads_require {b : Bool} (h : b = true) : Reads (require b) text (fun _ => True) text := by
  intro c hc
  subst h
  exact ⟨(), c, rfl, trivial, hc⟩

theorem reads_advance {token' : Token} (hb : Begins text token mid) (hmid : Begins mid token' rest) :
    Reads advance text (fun _ => True) mid := by
  intro c hc
  obtain ⟨-, hnext⟩ := hc.begins hb
  obtain ⟨c', hat, hc'⟩ := at?_standsAt hmid c.next.offset
  refine ⟨(), c', ?_, trivial, hc'⟩
  show (Cursor.at? c.next c.defaults).map _ = _
  rw [hc.1]
  have hpoint : c.next = ⟨mid, c.next.offset⟩ := by rw [← hnext]
  rw [hpoint, hat]
  rfl

theorem reads_accept {mark : String} {token' : Token} (hb : Begins text (.punctuator mark) mid)
    (hmid : Begins mid token' rest) : Reads (accept mark) text (· = true) mid := by
  refine Reads.get hb fun c hc => ?_
  rw [Cursor.is, hc, beq_self_eq_true, if_pos rfl]
  exact (reads_advance hb hmid).bind fun _ _ => .pure rfl

theorem reads_accept_not {mark : String} (hb : Begins text token rest)
    (hne : token ≠ .punctuator mark) : Reads (accept mark) text (· = false) text := by
  refine Reads.get hb fun c hc => ?_
  have his : c.is mark = false := by simpa [Cursor.is, hc] using hne
  rw [his, if_neg Bool.false_ne_true]
  exact .pure rfl

theorem reads_expect {mark : String} {token' : Token} (hb : Begins text (.punctuator mark) mid)
    (hmid : Begins mid token' rest) : Reads (expect mark) text (fun _ => True) mid :=
  (reads_accept hb hmid).bind fun _ h => reads_require h

theorem reads_acceptWord_not {word : String} (hb : Begins text token rest)
    (hne : token ≠ .name word false) : Reads (acceptWord word) text (· = false) text := by
  refine Reads.get hb fun c hc => ?_
  have his : c.isWord word = false := by simpa [Cursor.isWord, hc] using hne
  rw [his, if_neg Bool.false_ne_true]
  exact .pure rfl

/-- What is known about the next token but one. -/
theorem reads_followedBy {test : Cursor → Bool} {b : Bool} {token' : Token}
    (hb : Begins text token mid) (hmid : Begins mid token' rest)
    (htest : ∀ c : Cursor, c.token = token' → test c = b) :
    Reads (followedBy test) text (· = b) text := by
  intro c hc
  obtain ⟨-, hnext⟩ := hc.begins hb
  obtain ⟨c', hat, hc'⟩ := at?_standsAt hmid c.next.offset
  refine ⟨b, c, ?_, rfl, hc⟩
  have hpoint : c.next = ⟨mid, c.next.offset⟩ := by rw [← hnext]
  show some ((Cursor.at? c.next 0).any test, c) = some (b, c)
  rw [hpoint, hat, Option.any_some, htest c' (hc'.token_eq hmid)]

/-- Looking ahead never fails and moves nothing. -/
theorem reads_followedBy_any (test : Cursor → Bool) :
    Reads (followedBy test) text (fun _ => True) text := fun c hc =>
  ⟨(Cursor.at? c.next 0).any test, c, rfl, trivial, hc⟩

end

end BundleLedger.Script
