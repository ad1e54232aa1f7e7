import BundleLedger.LoaderConfig.Source
import BundleLedger.Proofs.Concurrency.Machine
import BundleLedger.Proofs.Json.DistinctKeys

/-!
# No key occurs twice

A text of JSON with a key that occurs twice in one object reads back without the first one. No
configuration holds such an object: members are only ever put into objects, both when literals are
read and when the ledger grows.

Results:

* `literal_distinctKeys`: what is read from a literal has distinct keys at every level.
* `parse_distinctKeys`: so has a configuration that is read from a file.
* `reachable_distinctKeys`: and it still has them whatever a session does.
-/
namespace BundleLedger

open Json

namespace LoaderConfig

open Json.Value Script

/-! ## Reading -/

theorem numberValue_distinctKeys (d : Option Decimal.Double) : (numberValue d).DistinctKeys := by
  unfold numberValue
  split
  · exact distinctKeys_null
  · split
    · split <;> exact distinctKeys_number _
    · exact distinctKeys_number _

mutual

theorem literal_distinctKeys : ∀ (e : Expr) {v : Value}, literal e = .ok v → v.DistinctKeys
  | .object _ properties, v, h => by
    simp only [literal] at h
    cases hm : literalMembers [] properties with
    | error f => rw [hm] at h; cases h
    | ok members =>
      rw [hm] at h
      cases h
      exact literalMembers_distinctKeys properties distinctKeys_nil hm
  | .array _ elements, v, h => by
    simp only [literal] at h
    cases hi : literalItems elements with
    | error f => rw [hi] at h; cases h
    | ok items =>
      rw [hi] at h
      cases h
      exact distinctKeys_array_iff.2 (literalItems_distinctKeys elements hi)
  | .string _ value, v, h => by
    simp only [literal, Except.ok.injEq] at h
    exact h ▸ distinctKeys_string value
  | .number _ value, v, h => by
    simp only [literal, Except.ok.injEq] at h
    exact h ▸ numberValue_distinctKeys value
  | .boolean _ value, v, h => by
    simp only [literal, Except.ok.injEq] at h
    exact h ▸ distinctKeys_bool value
  | .null _, v, h => by
    simp only [literal, Except.ok.injEq] at h
    exact h ▸ distinctKeys_null
  | .identifier _ _, v, h => by
    simp only [literal] at h
    split at h
    · cases h
      exact distinctKeys_null
    · cases h
  | .template _ _ _, v, h => by
    simp only [literal] at h
    split at h
    · cases h
      exact distinctKeys_string _
    · cases h
  | .negation _ operand, v, h => by
    simp only [literal] at h
    split at h
    · cases h
      exact numberValue_distinctKeys _
    · cases h
  | .parenthesized _ inner, v, h => by
    simp only [literal] at h
    exact literal_distinctKeys inner h
  | .call .., v, h => by simp [literal] at h
  | .member .., v, h => by simp [literal] at h
  | .index .., v, h => by simp [literal] at h
  | .assignment .., v, h => by simp [literal] at h
  | .compound .., v, h => by simp [literal] at h

theorem literalItems_distinctKeys : ∀ (elements : List Element) {items : List Value},
    literalItems elements = .ok items → ∀ v ∈ items, v.DistinctKeys
  | [], items, h => by
    simp only [literalItems, Except.ok.injEq] at h
    simp [← h]
  | .hole :: rest, items, h => by
    simp only [literalItems] at h
    cases hr : literalItems rest with
    | error f => rw [hr] at h; cases h
    | ok more =>
      rw [hr] at h
      cases h
      exact List.forall_mem_cons.2 ⟨distinctKeys_null, literalItems_distinctKeys rest hr⟩
  | .spread .. :: _, items, h => by simp [literalItems] at h
  | .item e :: rest, items, h => by
    simp only [literalItems] at h
    cases he : literal e with
    | error f => rw [he] at h; cases h
    | ok v =>
      rw [he] at h
      cases hr : literalItems rest with
      | error f => rw [hr] at h; cases h
      | ok more =>
        rw [hr] at h
        cases h
        exact List.forall_mem_cons.2 ⟨literal_distinctKeys e he, literalItems_distinctKeys rest hr⟩

theorem literalMembers_distinctKeys : ∀ (properties : List Property) {before members : Members},
    DistinctKeys (.object before) → literalMembers before properties = .ok members →
      DistinctKeys (.object members)
  | [], before, members, hb, h => by
    simp only [literalMembers, Except.ok.injEq] at h
    exact h ▸ hb
  | .field _ key e :: rest, before, members, hb, h => by
    simp only [literalMembers] at h
    split at h
    · cases h
    · rename_i text _
      cases he : literal e with
      | error f => rw [he] at h; cases h
      | ok v =>
        rw [he] at h
        exact literalMembers_distinctKeys rest (hb.put text (literal_distinctKeys e he)) h
  | .spread .. :: _, before, members, hb, h => by simp [literalMembers] at h
  | .computed .. :: _, before, members, hb, h => by simp [literalMembers] at h
  | .method _ :: _, before, members, hb, h => by simp [literalMembers] at h
  | .defaulted .. :: _, before, members, hb, h => by simp [literalMembers] at h

end

/-- No key of a configuration stands twice, at any level. -/
def DistinctKeys (c : LoaderConfig) : Prop := c.toValue.DistinctKeys

theorem DistinctKeys.set {c : LoaderConfig} (h : c.DistinctKeys) (key : String) {v : Value}
    (hv : v.DistinctKeys) : (c.set key v).DistinctKeys :=
  Value.DistinctKeys.put h key hv

/-- The members of a section are those of an object, or there are none. -/
theorem DistinctKeys.section {c : LoaderConfig} (h : c.DistinctKeys) (key : String) :
    Value.DistinctKeys (.object ((c.section? key).getD [])) := by
  cases hs : c.section? key with
  | none => exact distinctKeys_nil
  | some members =>
    obtain ⟨v, hv, hm⟩ := Option.bind_eq_some_iff.1 hs
    have hval := (distinctKeys_object_iff.1 h).2 (key, v) (Entries.get?_mem hv)
    cases v with
    | object ms =>
      simp only [Value.members?, Option.some.injEq] at hm
      exact hm ▸ hval
    | null | bool _ | number _ | string _ | array _ => simp [Value.members?] at hm

theorem DistinctKeys.applyMember {c : LoaderConfig} (h : c.DistinctKeys) (key : String) {v : Value}
    (hv : v.DistinctKeys) : (c.applyMember key v).DistinctKeys := by
  cases v with
  | object members =>
    exact h.set key ((h.section key).putAll (distinctKeys_object_iff.1 hv).2)
  | null | bool _ | number _ | string _ | array _ => exact h.set key hv

theorem DistinctKeys.apply {c : LoaderConfig} (h : c.DistinctKeys) {members : Members}
    (hm : ∀ m ∈ members, m.2.DistinctKeys) : (c.apply members).DistinctKeys := by
  induction members generalizing c with
  | nil => exact h
  | cons m members ih =>
    exact ih (h.applyMember m.1 (hm m List.mem_cons_self)) fun m' hm' =>
      hm m' (List.mem_cons_of_mem _ hm')

theorem callMembers_distinctKeys {arguments : List Element} {members : Members}
    (h : callMembers arguments = .ok members) : Value.DistinctKeys (.object members) := by
  unfold callMembers at h
  split at h
  · exact literalMembers_distinctKeys _ distinctKeys_nil h
  · cases h

theorem applyCalls_distinctKeys {calls : List (List Element)} {c c' : LoaderConfig}
    (hc : c.DistinctKeys)
    (h : calls.foldlM (fun c arguments => do return c.apply (← callMembers arguments)) c = .ok c') :
    c'.DistinctKeys := by
  induction calls generalizing c with
  | nil =>
    cases h
    exact hc
  | cons arguments calls ih =>
    rw [List.foldlM_cons] at h
    cases hm : callMembers arguments with
    | error f => rw [hm] at h; cases h
    | ok members =>
      rw [hm] at h
      exact ih (hc.apply (distinctKeys_object_iff.1 (callMembers_distinctKeys hm)).2) h

theorem parse_distinctKeys {source : String} {c : LoaderConfig} (h : parse source = .ok c) :
    c.DistinctKeys := by
  unfold parse at h
  split at h
  · cases h
  · unfold ofStatements at h
    split at h
    · cases h
    · exact applyCalls_distinctKeys distinctKeys_nil h

/-! ## The ledger -/

theorem DistinctKeys.register {c : LoaderConfig} (h : c.DistinctKeys) (id : String)
    (modules : List String) : (c.register id modules).DistinctKeys :=
  h.set "bundles" ((h.section "bundles").put id (distinctKeys_strings modules))

theorem DistinctKeys.clearBundles {c : LoaderConfig} (h : c.DistinctKeys) :
    c.clearBundles.DistinctKeys :=
  h.set "bundles" distinctKeys_nil

end LoaderConfig

namespace Concurrency

variable {ε : Type}

theorem Step.distinctKeys {st st' : State ε} (h : Step st st')
    (hc : st.session.config.DistinctKeys) : st'.session.config.DistinctKeys := by
  rcases h.config with he | ⟨root, bundle, -, he⟩
  · rw [he]
    exact hc
  · rw [he]
    rcases saved_config_cases st.session root bundle with hs | hs
    · rw [hs]
      exact hc
    · rw [hs]
      exact hc.register _ _

theorem reachable_distinctKeys {s : Session ε} {st : State ε} (h : Reachable s st)
    (hs : s.config.DistinctKeys) : st.session.config.DistinctKeys := by
  induction h with
  | start => exact hs
  | call st request _ ih => exact ih
  | step st st' _ hstep ih => exact hstep.distinctKeys ih

end Concurrency

namespace Session

variable {ε : Type}

theorem start_distinctKeys (options : Options) (engine : Engine ε) (memory : ε) {c : LoaderConfig}
    (disk : Disk) (h : c.DistinctKeys) : (start options engine memory c disk).config.DistinctKeys := by
  unfold start
  dsimp only
  split
  · exact h
  · exact h.clearBundles

end Session

end BundleLedger
