import BundleLedger.LoaderConfig.Merge

/-!
# The ledger under registration

A registration gives one id a new list of modules. The ledger afterwards is, up to the order of the
entries, the new entry and all entries but the one that it replaces (`bundles_register_perm`). What
the theorems about sessions need of the ledger follows from that one fact.

Results:

* `get?_bundles_register` and `isBundled_register`: what the ledger says after a registration.
* `otherEntries_register`: all else that is set stays, in its order.
* `entriesDisjoint_register`: modules that no bundle holds yet keep the entries disjoint.
* `bundles_register_of_new`: under a new id the entry comes last and nothing is replaced.
* `lost_iff`: a registration of new modules loses what only the replaced entry held.
-/
namespace BundleLedger

namespace Entries

variable {α : Type}

theorem put_perm (entries : Entries α) (key : String) (v : α) :
    (put entries key v).Perm ((key, v) :: entries.eraseP fun e => e.1 = key) := by
  induction entries with
  | nil => exact List.Perm.refl _
  | cons e rest ih =>
    obtain ⟨k, w⟩ := e
    by_cases h : k = key
    · simp [put, h]
    · simp only [put, h, if_false, decide_false, Bool.false_eq_true, not_false_eq_true,
        List.eraseP_cons_of_neg]
      exact (ih.cons (k, w)).trans (List.Perm.swap ..)

theorem mem_of_mem_put {entries : Entries α} {key : String} {v : α} {e : String × α}
    (h : e ∈ put entries key v) : e = (key, v) ∨ e ∈ entries := by
  rcases List.mem_cons.1 ((put_perm entries key v).mem_iff.1 h) with h | h
  · exact .inl h
  · exact .inr (List.mem_of_mem_eraseP h)

theorem mem_of_mem_putAll {entries more : Entries α} {e : String × α} (h : e ∈ putAll entries more) :
    e ∈ entries ∨ e ∈ more := by
  induction more generalizing entries with
  | nil => exact .inl h
  | cons x more ih =>
    rcases ih h with h | h
    · rcases mem_of_mem_put h with rfl | h
      · exact .inr List.mem_cons_self
      · exact .inl h
    · exact .inr (List.mem_cons_of_mem _ h)

theorem put_of_not_mem {entries : Entries α} {key : String} (h : key ∉ keys entries) (v : α) :
    put entries key v = entries ++ [(key, v)] := by
  induction entries with
  | nil => rfl
  | cons e rest ih =>
    obtain ⟨k, w⟩ := e
    simp only [keys, List.map_cons, List.mem_cons, not_or] at h
    have hk : k ≠ key := fun he => h.1 he.symm
    rw [put, if_neg hk, ih h.2]
    rfl

theorem putAll_eq_append {entries more : Entries α} (h : (keys (entries ++ more)).Nodup) :
    putAll entries more = entries ++ more := by
  induction more generalizing entries with
  | nil => simp [putAll]
  | cons e more ih =>
    have hnew : e.1 ∉ keys entries := by
      rw [keys, List.map_append, List.nodup_append] at h
      exact fun hm => h.2.2 e.1 hm e.1 (by simp) rfl
    show putAll (put entries e.1 e.2) more = _
    rw [put_of_not_mem hnew, ih (by simpa using h), List.append_assoc, List.singleton_append]

theorem mem_keys {entries : Entries α} {key : String} :
    key ∈ keys entries ↔ ∃ v, (key, v) ∈ entries := by
  simp [keys]

theorem get?_of_mem {entries : Entries α} (h : (keys entries).Nodup) {key : String} {v : α}
    (hmem : (key, v) ∈ entries) : get? entries key = some v := by
  induction entries with
  | nil => simp at hmem
  | cons e rest ih =>
    obtain ⟨k, w⟩ := e
    rw [keys, List.map_cons, List.nodup_cons] at h
    rcases List.mem_cons.1 hmem with heq | hrest
    · cases heq
      simp [get?]
    · have hne : k ≠ key := fun he => h.1 (he ▸ mem_keys.2 ⟨v, hrest⟩)
      rw [get?, if_neg hne, ih h.2 hrest]

/-- Where keys are distinct, a `put` on a known key changes one entry. -/
theorem put_eq_map {entries : Entries α} (h : (keys entries).Nodup) {key : String}
    (hkey : key ∈ keys entries) (v : α) :
    put entries key v = entries.map fun e => if e.1 = key then (key, v) else e := by
  induction entries with
  | nil => cases hkey
  | cons e rest ih =>
    obtain ⟨k, w⟩ := e
    simp only [keys, List.map_cons, List.nodup_cons] at h
    rw [put, List.map_cons]
    split
    · rename_i hk
      have hrest : ∀ e ∈ rest, ¬ e.1 = key := by
        rintro e he rfl
        exact h.1 (List.mem_map.2 ⟨e, he, hk.symm⟩)
      rw [List.map_congr_left fun e he => if_neg (hrest e he), List.map_id']
    · rename_i hk
      rw [ih h.2 (by simpa [keys, Ne.symm hk] using hkey)]

theorem get?_map {β : Type} (f : String → α → β) (entries : Entries α) (key : String) :
    get? (entries.map fun (k, v) => (k, f k v)) key = (get? entries key).map (f key) := by
  induction entries with
  | nil => rfl
  | cons e rest ih =>
    obtain ⟨k, v⟩ := e
    by_cases h : k = key <;> simp [get?, h, ih]

theorem keys_map {β : Type} (f : String → α → β) (entries : Entries α) :
    keys (entries.map fun (k, v) => (k, f k v)) = keys entries := by
  rw [keys, List.map_map]
  rfl

/-- A `put` leaves the entries of other keys, in their order. -/
theorem map_put {β : Type} (f : α → β) (entries : Entries α) (key : String) (v : α) :
    (put entries key v).map (fun (k, v) => (k, f v)) =
      put (entries.map fun (k, v) => (k, f v)) key (f v) := by
  induction entries with
  | nil => rfl
  | cons e rest ih =>
    obtain ⟨k, w⟩ := e
    by_cases h : k = key <;> simp [put, h, ih]

theorem filter_put (entries : Entries α) (key : String) (v : α) :
    (put entries key v).filter (fun e => decide (e.1 ≠ key)) =
      entries.filter fun e => decide (e.1 ≠ key) := by
  induction entries with
  | nil => simp
  | cons e rest ih =>
    obtain ⟨k, w⟩ := e
    by_cases h : k = key
    · simp [put, h]
    · rw [put, if_neg h, List.filter_cons, List.filter_cons, ih]

theorem has_eq_false_iff {entries : Entries α} {key : String} :
    has entries key = false ↔ key ∉ keys entries := by
  rw [← get?_eq_none_iff, has]
  cases get? entries key <;> simp

end Entries

namespace LoaderConfig

/-- The ledger without the entry that a registration under `id` replaces. -/
def otherBundles (c : LoaderConfig) (id : String) : List (String × List String) :=
  c.bundles.eraseP fun b => b.1 = id

/-- Whether a bundle holds `module`, also when the entry of `id` does not count. -/
def isBundledBeside (c : LoaderConfig) (id module : String) : Bool :=
  ((c.otherBundles id).flatMap (·.2)).contains module

/-- No module stands in two entries of the ledger. -/
def EntriesDisjoint (c : LoaderConfig) : Prop := c.bundles.Pairwise fun a b => ∀ m ∈ a.2, m ∉ b.2

/-- Everything that a configuration sets but the ledger, in order. -/
def otherEntries (c : LoaderConfig) : Json.Members := c.entries.filter fun e => decide (e.1 ≠ "bundles")

theorem otherEntries_register (c : LoaderConfig) (id : String) (modules : List String) :
    (c.register id modules).otherEntries = c.otherEntries :=
  Entries.filter_put ..

theorem otherEntries_clearBundles (c : LoaderConfig) : c.clearBundles.otherEntries = c.otherEntries :=
  Entries.filter_put ..

/-- The ledger after a registration is the old one with the entry of one id set. -/
theorem bundles_register_eq_put (c : LoaderConfig) (id : String) (modules : List String) :
    (c.register id modules).bundles = Entries.put c.bundles id modules := by
  rw [bundles_register, Entries.map_put, listedNames_strings]
  rfl

/-- What the ledger says for an id after a registration. -/
theorem get?_bundles_register (c : LoaderConfig) (id : String) (modules : List String) (k : String) :
    Entries.get? (c.register id modules).bundles k =
      if id = k then some modules else Entries.get? c.bundles k := by
  rw [bundles_register, bundles, Entries.get?_map fun _ => listedNames,
    Entries.get?_map fun _ => listedNames, Entries.get?_put]
  split
  · rw [Option.map_some, listedNames_strings]
  · rfl

theorem isBundled_iff {c : LoaderConfig} {m : String} :
    c.isBundled m = true ↔ ∃ b ∈ c.bundles, m ∈ b.2 := by
  simp [isBundled, bundledModules]

theorem isBundled_eq_false_iff {c : LoaderConfig} {m : String} :
    c.isBundled m = false ↔ ∀ b ∈ c.bundles, m ∉ b.2 := by
  simp [isBundled, bundledModules]

theorem isBundledBeside_iff {c : LoaderConfig} {id m : String} :
    c.isBundledBeside id m = true ↔ ∃ b ∈ c.otherBundles id, m ∈ b.2 := by
  simp [isBundledBeside]

theorem mem_of_mem_otherBundles {c : LoaderConfig} {id : String} {b : String × List String}
    (h : b ∈ c.otherBundles id) : b ∈ c.bundles :=
  List.mem_of_mem_eraseP h

theorem mem_otherBundles_of_ne {c : LoaderConfig} {id : String} {b : String × List String}
    (h : b ∈ c.bundles) (hne : b.1 ≠ id) : b ∈ c.otherBundles id :=
  (List.mem_eraseP_of_neg (by simpa using hne)).2 h

/-- A registration replaces one entry. -/
theorem bundles_register_perm (c : LoaderConfig) (id : String) (modules : List String) :
    (c.register id modules).bundles.Perm ((id, modules) :: c.otherBundles id) := by
  have h := (Entries.put_perm ((c.section? "bundles").getD []) id (.strings modules)).map
    fun b => (b.1, listedNames b.2)
  rw [List.map_cons, listedNames_strings] at h
  rw [bundles_register, otherBundles, bundles, List.eraseP_map]
  exact h

/-- What is held after a registration: the modules of the new entry, and what the others hold. -/
theorem isBundled_register {c : LoaderConfig} {id : String} {modules : List String} {m : String} :
    (c.register id modules).isBundled m = true ↔ m ∈ modules ∨ c.isBundledBeside id m = true := by
  rw [isBundled_iff, isBundledBeside_iff]
  constructor
  · rintro ⟨b, hb, hm⟩
    rcases List.mem_cons.1 ((bundles_register_perm c id modules).mem_iff.1 hb) with rfl | hb
    · exact .inl hm
    · exact .inr ⟨b, hb, hm⟩
  · rintro (hm | ⟨b, hb, hm⟩)
    · exact ⟨(id, modules), (bundles_register_perm c id modules).mem_iff.2 (by simp), hm⟩
    · exact ⟨b, (bundles_register_perm c id modules).mem_iff.2 (List.mem_cons_of_mem _ hb), hm⟩

theorem entriesDisjoint_of_bundles_nil {c : LoaderConfig} (h : c.bundles = []) :
    c.EntriesDisjoint := by
  rw [EntriesDisjoint, h]
  exact List.Pairwise.nil

theorem bundles_clearBundles (c : LoaderConfig) : c.clearBundles.bundles = [] := by
  simp [bundles, section?, clearBundles, get?_set, Json.Value.members?]

theorem entriesDisjoint_register {c : LoaderConfig} {id : String} {modules : List String}
    (hc : c.EntriesDisjoint) (hm : ∀ m ∈ modules, c.isBundled m = false) :
    (c.register id modules).EntriesDisjoint := by
  have hsymm : ∀ {a b : String × List String}, (∀ m ∈ a.2, m ∉ b.2) → ∀ m ∈ b.2, m ∉ a.2 :=
    fun h m hb ha => h m ha hb
  rw [EntriesDisjoint, (bundles_register_perm c id modules).pairwise_iff hsymm, List.pairwise_cons]
  refine ⟨?_, hc.sublist List.eraseP_sublist⟩
  intro b hb m hmem
  exact isBundled_eq_false_iff.1 (hm m hmem) b (mem_of_mem_otherBundles hb)

theorem keys_bundles (c : LoaderConfig) :
    c.bundles.map (·.1) = Entries.keys ((c.section? "bundles").getD []) := by
  simp [bundles, Entries.keys, Function.comp_def]

theorem hasBundle_iff {c : LoaderConfig} {id : String} :
    c.hasBundle id = true ↔ ∃ b ∈ c.bundles, b.1 = id := by
  have h : c.hasBundle id = false ↔ id ∉ c.bundles.map (·.1) := by
    rw [keys_bundles]
    exact Entries.has_eq_false_iff
  rw [← Bool.not_eq_false, h]
  simp

theorem bundles_register_of_new {c : LoaderConfig} {id : String} (h : c.hasBundle id = false)
    (modules : List String) : (c.register id modules).bundles = c.bundles ++ [(id, modules)] := by
  rw [bundles_register, Entries.put_of_not_mem (Entries.has_eq_false_iff.1 h), List.map_append]
  simp only [List.map_cons, List.map_nil, listedNames_strings]
  rfl

/-- An entry with another id is kept. -/
theorem mem_bundles_register_of_ne {c : LoaderConfig} {id : String} {modules : List String}
    {b : String × List String} (hb : b ∈ c.bundles) (hne : b.1 ≠ id) :
    b ∈ (c.register id modules).bundles :=
  (bundles_register_perm c id modules).mem_iff.2
    (List.mem_cons_of_mem _ (mem_otherBundles_of_ne hb hne))

/-- A registration of new modules loses a module when only the replaced entry held it. -/
theorem lost_iff {c : LoaderConfig} {id : String} {modules : List String}
    (hnew : ∀ m ∈ modules, c.isBundled m = false) {m : String} (hm : c.isBundled m = true) :
    (c.register id modules).isBundled m = false ↔ c.isBundledBeside id m = false := by
  have hmem : m ∉ modules := by
    intro hmem
    rw [hnew m hmem] at hm
    cases hm
  rw [← Bool.not_eq_true, ← Bool.not_eq_true, isBundled_register, or_iff_right hmem]

end LoaderConfig

end BundleLedger
