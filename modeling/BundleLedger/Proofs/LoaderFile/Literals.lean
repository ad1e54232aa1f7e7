import BundleLedger.LoaderConfig.Source
import BundleLedger.Proofs.OrderedEntries
import Mathlib.Algebra.Group.Nat.Defs

/-!
# What is a literal

A configuration is made of literals. Which expressions these are and what they stand for is said by
a relation (`Denotes`) that follows the grammar, and what is wrong with all others by the list of
their faults in the order of the source (`faults`), which goes on where reading has long given up.
Reading an expression comes to one of two ends: it has no fault and denotes what is read, or what is
read is its first fault. So a file fails with the first fault of its first call that has one.

Results:

* `isNumber_numberValue`: what numbers denote.
* `literal_outcome`: the two ends of reading an expression.
* `literal_of_denotes`: what an expression denotes is read from it.
* `parse_of_fault`: how a file with a fault is read.
* `literal_denotes`: which expressions are read, as what, and where all others fail.
-/
namespace BundleLedger.LoaderConfig

open Decimal Json Script

/-! ## The grammar of literals -/

/-- The value that a number of a script has in JSON. -/
inductive IsNumber : Option Double → Value → Prop where
  | beyond : IsNumber none .null
  | whole {d : Double} {n : Int} (h : d.toInt? = some n) (small : n.natAbs < 2 ^ 63) :
      IsNumber (some d) (.number (.integer n))
  | double {d : Double} (h : ∀ n, d.toInt? = some n → 2 ^ 63 ≤ n.natAbs) :
      IsNumber (some d) (.number (.double d))

mutual

/-- `Denotes e v`: the expression is a literal, and stands for the value. -/
inductive Denotes : Expr → Value → Prop where
  /-- A key has the place where it stands first and the value that it has last. -/
  | object {start : Nat} {properties : List Property} {fields members : List (String × Value)}
      (hfields : DenotesFields properties fields)
      (hkeys : Entries.keys members = (Entries.keys fields).eraseDups)
      (hvalues : ∀ key, Entries.get? members key = Entries.get? fields.reverse key) :
      Denotes (.object start properties) (.object members)
  | array {start : Nat} {elements : List Element} {items : List Value}
      (hitems : DenotesItems elements items) : Denotes (.array start elements) (.array items)
  | string {start : Nat} {s : String} : Denotes (.string start s) (.string s)
  | number {start : Nat} {value : Option Double} {v : Value} (h : IsNumber value v) :
      Denotes (.number start value) v
  | boolean {start : Nat} {b : Bool} : Denotes (.boolean start b) (.bool b)
  | null {start : Nat} : Denotes (.null start) .null
  | undefined {start : Nat} : Denotes (.identifier start "undefined") .null
  | template {start : Nat} {parts : List String} :
      Denotes (.template start parts []) (.string (String.join parts))
  /-- The operand is a number as it stands. -/
  | negation {start inner : Nat} {value : Option Double} {v : Value}
      (h : IsNumber (value.map Double.neg) v) : Denotes (.negation start (.number inner value)) v
  | parenthesized {start : Nat} {e : Expr} {v : Value} (h : Denotes e v) :
      Denotes (.parenthesized start e) v

/-- The elements of an array are literals or holes, and stand for the items. -/
inductive DenotesItems : List Element → List Value → Prop where
  | nil : DenotesItems [] []
  | hole {rest : List Element} {items : List Value} (h : DenotesItems rest items) :
      DenotesItems (.hole :: rest) (.null :: items)
  | item {e : Expr} {v : Value} {rest : List Element} {items : List Value} (he : Denotes e v)
      (h : DenotesItems rest items) : DenotesItems (.item e :: rest) (v :: items)

/-- The properties of an object are plain ones, and stand for the fields one by one. -/
inductive DenotesFields : List Property → List (String × Value) → Prop where
  | nil : DenotesFields [] []
  | field {start : Nat} {key : Key} {text : String} {e : Expr} {v : Value} {rest : List Property}
      {fields : List (String × Value)} (hkey : keyText? key = some text) (he : Denotes e v)
      (h : DenotesFields rest fields) :
      DenotesFields (.field start key e :: rest) ((text, v) :: fields)

end

/-! ## Faults -/

/-- Something that may not stand where a literal is read. -/
structure Fault where
  offset : Nat
  what : String
  deriving DecidableEq, Repr

def Fault.failure (fault : Fault) : ConfigFailure := unsupported fault.offset fault.what

mutual

/-- All that keeps an expression from being a literal, in the order of the source. What stands within
a fault is not looked at. -/
def faults : Expr → List Fault
  | .object _ properties => propertyFaults properties
  | .array _ elements => elementFaults elements
  | .string .. | .number .. | .boolean .. | .null _ => []
  | .identifier start name => if name = "undefined" then [] else [⟨start, "expression"⟩]
  | .template start _ holes => if holes.isEmpty then [] else [⟨start, "expression"⟩]
  | .negation _ operand =>
    match operand with
    | .number .. => []
    | e => [⟨e.start, "negated expression"⟩]
  | .parenthesized _ inner => faults inner
  | .call start .. | .member start .. | .index start _ | .assignment start _ | .compound start _ =>
    [⟨start, "expression"⟩]

def elementFaults : List Element → List Fault
  | [] => []
  | .hole :: rest => elementFaults rest
  | .spread start .. :: rest => ⟨start, "spread element"⟩ :: elementFaults rest
  | .item e :: rest => faults e ++ elementFaults rest

def propertyFaults : List Property → List Fault
  | [] => []
  | .field start key e :: rest =>
    (if key = .bigint then [⟨start, "property key"⟩] else []) ++ faults e ++ propertyFaults rest
  | .spread start .. :: rest => ⟨start, "spread property"⟩ :: propertyFaults rest
  | .computed start _ :: rest => ⟨start, "accessor or computed property"⟩ :: propertyFaults rest
  | .method start :: rest => ⟨start, "accessor or computed property"⟩ :: propertyFaults rest
  | .defaulted start _ :: rest => ⟨start, "expression"⟩ :: propertyFaults rest

end

/-! ## Reading an expression -/

theorem isNumber_numberValue (value : Option Double) : IsNumber value (numberValue value) := by
  cases value with
  | none => exact .beyond
  | some d =>
    have hword : wordSize / 2 = 2 ^ 63 := by decide
    rw [numberValue]
    split
    · rename_i n hn
      split
      · rename_i hsmall
        exact .whole hn (hword ▸ hsmall)
      · rename_i hlarge
        refine .double fun m hm => ?_
        rw [hn, Option.some.injEq] at hm
        omega
    · rename_i hnone
      refine .double fun m hm => ?_
      rw [hnone] at hm
      cases hm

theorem IsNumber.eq_numberValue {value : Option Double} {v : Value} (h : IsNumber value v) :
    v = numberValue value := by
  have hword : wordSize / 2 = 2 ^ 63 := by decide
  cases h with
  | beyond => rfl
  | whole hn hsmall =>
    rw [← hword] at hsmall
    simp only [numberValue, hn, if_pos hsmall]
  | double h =>
    rw [numberValue]
    split
    · rename_i n hn
      rw [if_neg (by have := h n hn; omega)]
    · rfl

theorem keyText?_eq_none_iff {key : Key} : keyText? key = none ↔ key = .bigint := by
  cases key with
  | number value => cases value <;> simp [keyText?]
  | name | string | bigint => simp [keyText?]

/-- The two ends of reading: a value that is denoted, or the first of some faults. -/
inductive Outcome {α : Type} (denotes : α → Prop) (faults : List Fault) :
    Except ConfigFailure α → Prop where
  | value {v : α} (hfaults : faults = []) (h : denotes v) : Outcome denotes faults (.ok v)
  | fault {first : Fault} {rest : List Fault} (hfaults : faults = first :: rest) :
      Outcome denotes faults (.error first.failure)

section Outcome

variable {α β : Type} {denotes : α → Prop} {denotes' : β → Prop} {first second : List Fault}
  {x : Except ConfigFailure α}

theorem Outcome.mono (hx : Outcome denotes first x) {wider : α → Prop}
    (h : ∀ a, denotes a → wider a) : Outcome wider first x := by
  cases hx with
  | value hfaults hv => exact .value hfaults (h _ hv)
  | fault hfaults => exact .fault hfaults

/-- The second part is read only if the first has no fault. -/
theorem Outcome.bind (hx : Outcome denotes first x) {next : α → Except ConfigFailure β}
    (hnext : ∀ a, denotes a → Outcome denotes' second (next a)) :
    Outcome denotes' (first ++ second) (x >>= next) := by
  cases hx with
  | value hfaults h =>
    rw [hfaults, List.nil_append]
    exact hnext _ h
  | fault hfaults =>
    rw [hfaults]
    exact .fault rfl

theorem Outcome.map (hx : Outcome denotes first x) {f : α → β} (hf : ∀ a, denotes a → denotes' (f a)) :
    Outcome denotes' first (do return f (← x)) := by
  cases hx with
  | value hfaults h => exact .value hfaults (hf _ h)
  | fault hfaults => exact .fault hfaults

end Outcome

/-- What the fields of an object make of it. -/
theorem denotes_object {start : Nat} {properties : List Property} {fields : List (String × Value)}
    (h : DenotesFields properties fields) :
    Denotes (.object start properties) (.object (Entries.putAll [] fields)) := by
  have hnil : (Entries.keys ([] : Members)).Nodup := List.nodup_nil
  refine .object h (Entries.keys_putAll hnil) fun key => ?_
  rw [Entries.get?_putAll_reverse, Entries.get?_nil, Option.or_none]

mutual

theorem literal_outcome : ∀ e, Outcome (Denotes e) (faults e) (literal e)
  | .object start properties => by
    rw [literal, faults]
    refine (literalMembers_outcome [] properties).map fun members h => ?_
    obtain ⟨fields, hfields, rfl⟩ := h
    exact denotes_object hfields
  | .array start elements => by
    rw [literal, faults]
    exact (literalItems_outcome elements).map fun items h => .array h
  | .string start s => by
    rw [literal, faults]
    exact .value rfl .string
  | .number start value => by
    rw [literal, faults]
    exact .value rfl (.number (isNumber_numberValue value))
  | .boolean start b => by
    rw [literal, faults]
    exact .value rfl .boolean
  | .null start => by
    rw [literal, faults]
    exact .value rfl .null
  | .identifier start name => by
    rw [literal, faults]
    split
    · rename_i hname
      exact hname ▸ .value rfl .undefined
    · exact .fault rfl
  | .template start parts holes => by
    rw [literal, faults]
    split
    · rename_i hholes
      rw [List.isEmpty_iff.1 hholes]
      exact .value rfl .template
    · exact .fault rfl
  | .negation start operand => by
    cases operand with
    | number inner value =>
      rw [literal, faults]
      exact .value rfl (.negation (isNumber_numberValue _))
    | object | array | string | boolean | null | identifier | template | negation | parenthesized
    | call | member | index | assignment | compound =>
      simp only [literal, faults]
      exact .fault rfl
  | .parenthesized start e => by
    rw [literal, faults]
    exact (literal_outcome e).mono fun v h => .parenthesized h
  | .call .. | .member .. | .index .. | .assignment .. | .compound .. => by
    rw [literal, faults]
    exact .fault rfl

theorem literalItems_outcome : ∀ elements,
    Outcome (DenotesItems elements) (elementFaults elements) (literalItems elements)
  | [] => by
    rw [literalItems, elementFaults]
    exact .value rfl .nil
  | .hole :: rest => by
    rw [literalItems, elementFaults]
    exact (literalItems_outcome rest).map fun items h => .hole h
  | .spread .. :: rest => by
    rw [literalItems, elementFaults]
    exact .fault rfl
  | .item e :: rest => by
    rw [literalItems, elementFaults]
    exact (literal_outcome e).bind fun v hv =>
      (literalItems_outcome rest).map fun items h => .item hv h

/-- The fields are put behind the members that were there before. -/
theorem literalMembers_outcome : ∀ (members : Members) properties,
    Outcome (fun result => ∃ fields, DenotesFields properties fields ∧
      result = Entries.putAll members fields) (propertyFaults properties)
      (literalMembers members properties)
  | members, [] => by
    rw [literalMembers, propertyFaults]
    exact .value rfl ⟨[], .nil, rfl⟩
  | members, .field start key e :: rest => by
    rw [literalMembers, propertyFaults]
    cases hkey : keyText? key with
    | none =>
      rw [if_pos (keyText?_eq_none_iff.1 hkey)]
      exact .fault rfl
    | some text =>
      have hplain : ¬ key = .bigint := by
        intro hbig
        rw [keyText?_eq_none_iff.2 hbig] at hkey
        cases hkey
      rw [if_neg hplain, List.nil_append]
      refine (literal_outcome e).bind fun v hv => ?_
      refine (literalMembers_outcome (Entries.put members text v) rest).mono fun result h => ?_
      obtain ⟨fields, hfields, rfl⟩ := h
      exact ⟨_, .field hkey hv hfields, rfl⟩
  | members, .spread .. :: rest | members, .computed .. :: rest | members, .method _ :: rest
  | members, .defaulted .. :: rest => by
    rw [literalMembers, propertyFaults]
    exact .fault rfl

end

mutual

theorem literal_of_denotes : ∀ {e : Expr} {v : Value}, Denotes e v → literal e = .ok v
  | _, _, .object hfields hkeys hvalues => by
    have hnil : (Entries.keys ([] : Members)).Nodup := List.nodup_nil
    rw [literal, literalMembers_of_denotes [] hfields]
    refine congrArg (fun ms => Except.ok (Value.object ms)) ?_
    refine Entries.ext_of_nodup (Entries.keys_nodup_putAll hnil) ?_ fun key => ?_
    · rw [hkeys, Entries.keys_putAll hnil]
      rfl
    · rw [hvalues, Entries.get?_putAll_reverse, Entries.get?_nil, Option.or_none]
  | _, _, .array hitems => by
    rw [literal, literalItems_of_denotes hitems]
    rfl
  | _, _, .string | _, _, .boolean | _, _, .null | _, _, .undefined | _, _, .template => by
    simp [literal]
  | _, _, .number h => by rw [literal, h.eq_numberValue]
  | _, _, .negation h => by rw [literal, h.eq_numberValue]
  | _, _, .parenthesized h => by rw [literal, literal_of_denotes h]

theorem literalItems_of_denotes : ∀ {elements : List Element} {items : List Value},
    DenotesItems elements items → literalItems elements = .ok items
  | _, _, .nil => by rw [literalItems]
  | _, _, .hole h => by
    rw [literalItems, literalItems_of_denotes h]
    rfl
  | _, _, .item he h => by
    rw [literalItems, literal_of_denotes he, literalItems_of_denotes h]
    rfl

theorem literalMembers_of_denotes : ∀ (members : Members) {properties : List Property}
    {fields : List (String × Value)}, DenotesFields properties fields →
      literalMembers members properties = .ok (Entries.putAll members fields)
  | _, _, _, .nil => by
    rw [literalMembers]
    rfl
  | _, _, _, .field hkey he h => by
    rw [literalMembers, hkey, literal_of_denotes he]
    exact literalMembers_of_denotes _ h

end

theorem literal_eq_ok_iff {e : Expr} {v : Value} : literal e = .ok v ↔ Denotes e v := by
  refine ⟨fun h => ?_, literal_of_denotes⟩
  have houtcome := literal_outcome e
  rw [h] at houtcome
  cases houtcome with
  | value _ hv => exact hv

theorem faults_eq_nil_iff {e : Expr} : faults e = [] ↔ ∃ v, Denotes e v := by
  have houtcome := literal_outcome e
  constructor
  · intro hnone
    cases hread : literal e with
    | ok v => exact ⟨v, literal_eq_ok_iff.1 hread⟩
    | error f =>
      rw [hread, hnone] at houtcome
      cases houtcome with
      | fault hfaults => cases hfaults
  · rintro ⟨v, hv⟩
    rw [literal_of_denotes hv] at houtcome
    cases houtcome with
    | value hfaults _ => exact hfaults

theorem literal_eq_error_iff {e : Expr} {f : ConfigFailure} :
    literal e = .error f ↔ ∃ first rest, faults e = first :: rest ∧ f = first.failure := by
  have houtcome := literal_outcome e
  constructor
  · intro h
    rw [h] at houtcome
    cases houtcome with
    | fault hfaults => exact ⟨_, _, hfaults, rfl⟩
  · rintro ⟨first, rest, hfirst, rfl⟩
    rw [hfirst] at houtcome
    cases hread : literal e with
    | ok v =>
      rw [hread] at houtcome
      cases houtcome with
      | value hfaults _ => cases hfaults
    | error f =>
      rw [hread] at houtcome
      cases houtcome with
      | fault hfaults => rw [(List.cons.inj hfaults).1]

/-! ## Reading a file -/

def objectOf? : List Element → Option Expr
  | .item (.object start properties) :: _ => some (.object start properties)
  | _ => none

/-- What a call sets are the members of the object it is given. -/
theorem callMembers_of_objectOf? {arguments : List Element} {e : Expr}
    (h : objectOf? arguments = some e) :
    literal e = (do return .object (← callMembers arguments)) := by
  unfold objectOf? at h
  split at h
  · cases h
    rw [literal, callMembers]
  · cases h

/-- A call without a fault sets something. -/
theorem callMembers_of_literal {arguments : List Element} {e : Expr}
    (h : objectOf? arguments = some e) (hfaults : faults e = []) :
    ∃ members, callMembers arguments = .ok members := by
  obtain ⟨v, hv⟩ := faults_eq_nil_iff.1 hfaults
  have hread := callMembers_of_objectOf? h
  rw [literal_of_denotes hv] at hread
  cases hmembers : callMembers arguments with
  | ok members => exact ⟨members, rfl⟩
  | error f => rw [hmembers] at hread; cases hread

theorem callMembers_of_fault {arguments : List Element} {e : Expr} {first : Fault}
    {rest : List Fault} (h : objectOf? arguments = some e) (hfaults : faults e = first :: rest) :
    callMembers arguments = .error first.failure := by
  have hread := callMembers_of_objectOf? h
  rw [literal_eq_error_iff.2 ⟨first, rest, hfaults, rfl⟩] at hread
  cases hmembers : callMembers arguments with
  | ok members => rw [hmembers] at hread; cases hread
  | error f => rw [hmembers] at hread; cases hread; rfl

section File

variable {source : String} {statements : List Statement} {before after : List (List Element)}
  {arguments : List Element} {e : Expr} {first : Fault} {rest : List Fault}

/-- The calls after one with a fault are not looked at. -/
theorem foldlM_of_fault (hbefore : ∀ a ∈ before, ∃ e, objectOf? a = some e ∧ faults e = [])
    (h : objectOf? arguments = some e) (hfaults : faults e = first :: rest) (c : LoaderConfig) :
    (before ++ arguments :: after).foldlM
      (fun c arguments => do return c.apply (← callMembers arguments)) c = .error first.failure := by
  induction before generalizing c with
  | nil =>
    rw [List.nil_append, List.foldlM_cons, callMembers_of_fault h hfaults]
    rfl
  | cons a before ih =>
    rw [List.forall_mem_cons] at hbefore
    obtain ⟨⟨e, he, hnone⟩, hbefore⟩ := hbefore
    obtain ⟨members, hmembers⟩ := callMembers_of_literal he hnone
    rw [List.cons_append, List.foldlM_cons, hmembers]
    exact ih hbefore (c.apply members)

theorem parse_of_fault (hscript : Script.parse? source.toList = some statements)
    (hcalls : configCalls statements = before ++ arguments :: after)
    (hbefore : ∀ a ∈ before, ∃ e, objectOf? a = some e ∧ faults e = [])
    (h : objectOf? arguments = some e) (hfaults : faults e = first :: rest) :
    parse source = .error first.failure := by
  rw [parse, hscript]
  show ofStatements statements = _
  unfold ofStatements
  rw [hcalls]
  split
  · rename_i hnil
    simp at hnil
  · exact foldlM_of_fault hbefore h hfaults empty

end File

/-- An expression is read exactly if it is a literal, as the value it denotes; every expression either
denotes something or has a fault; and one with faults fails with the first of them. A file fails with
the first fault of its first call that has one. -/
theorem literal_denotes :
    (∀ e v, literal e = .ok v ↔ Denotes e v) ∧
    (∀ e, (∃ v, Denotes e v) ↔ faults e = []) ∧
    (∀ e f, literal e = .error f ↔ ∃ first rest, faults e = first :: rest ∧
      f = .unsupported first.offset (first.what ++ " is not a literal value")) ∧
    ∀ source statements before arguments after e first rest,
      Script.parse? source.toList = some statements →
      configCalls statements = before ++ arguments :: after →
      (∀ a ∈ before, ∃ e, objectOf? a = some e ∧ faults e = []) →
      objectOf? arguments = some e → faults e = first :: rest →
      parse source = .error (.unsupported first.offset (first.what ++ " is not a literal value")) := by
  refine ⟨fun _ _ => literal_eq_ok_iff, fun _ => faults_eq_nil_iff.symm,
    fun _ _ => literal_eq_error_iff, ?_⟩
  intro source statements before arguments after e first rest hscript hcalls hbefore he hfaults
  exact parse_of_fault hscript hcalls hbefore he hfaults

/-- A script whose second call has two faults, and whose third is no configuration at all. -/
def faultyScript : String :=
  "System.config(\x7b a: 1, \"b\": [, undefined, -2.5] \x7d);\n" ++
    "(SystemJS.config(\x7b a: (null), c: \x7b d: \x60x\x60, ...e \x7d, f: -(1) \x7d));\n" ++
    "System.config(7);\n"

/-- The spread stands further in than the negation, and before it. -/
theorem literal_denotes_faulty : ∃ statements first second third e e',
    Script.parse? faultyScript.toList = some statements ∧
      configCalls statements = [first, second, third] ∧
      objectOf? first = some e ∧ (∃ v, Denotes e v) ∧ objectOf? second = some e' ∧
      faults e' = [⟨94, "spread property"⟩, ⟨106, "negated expression"⟩] ∧
      parse faultyScript = .error (.unsupported 94 "spread property is not a literal value") := by
  have hread : (Script.parse? faultyScript.toList).any (fun statements =>
      decide ((configCalls statements).map (fun a => (objectOf? a).map faults) =
        [some [], some [⟨94, "spread property"⟩, ⟨106, "negated expression"⟩], none])) = true := by
    decide +kernel
  obtain ⟨statements, hscript, hcalls⟩ := (Option.any_eq_true _ _).1 hread
  have hcalls := of_decide_eq_true hcalls
  obtain ⟨first, others, hsplit, hfirst, hothers⟩ := List.map_eq_cons_iff.1 hcalls
  obtain ⟨second, last, rfl, hsecond, hlast⟩ := List.map_eq_cons_iff.1 hothers
  obtain ⟨third, last, rfl, -, hnil⟩ := List.map_eq_cons_iff.1 hlast
  obtain rfl := List.map_eq_nil_iff.1 hnil
  obtain ⟨e, he, hnone⟩ := Option.map_eq_some_iff.1 hfirst
  obtain ⟨e', he', hfaults⟩ := Option.map_eq_some_iff.1 hsecond
  obtain ⟨-, hdenotes, -, hfile⟩ := literal_denotes
  have hbefore : ∀ a ∈ [first], ∃ e, objectOf? a = some e ∧ faults e = [] :=
    List.forall_mem_singleton.2 ⟨e, he, hnone⟩
  exact ⟨statements, first, second, third, e, e', hscript, hsplit, he, (hdenotes e).2 hnone, he',
    hfaults, hfile _ _ [first] second [third] e' _ _ hscript hsplit hbefore he' hfaults⟩

end BundleLedger.LoaderConfig
