import BundleLedger.Proofs.Concurrency.Isolation

/-!
# Bulk operations in the machine

A bulk operation has two descriptions. In the machine its units trace, take the lock, compile and
save, step by step; as moves, each unit commits in one go. Moves are runs of the machine
(`takeMoves_steps`). Here is the other direction: a run of the machine comes from moves.

A commit in one go sees one state of the files, so the run must be one in which the holder of the
lock is left alone: from where it takes the lock until it gives it back, no one else takes a step
(`Undivided`). Each such step is mimicked by at most two moves (`undivided_step`), where all that the
holder of the lock will do counts as done when it takes the lock (`released`). A unit whose trace
fails ends there, and among the moves it commits its failure, which changes nothing.

The reports are left out of it: in the machine they may change at any time.

Results:

* `undivided_step` and `undivided_run`: the moves of one step, and those of a run.
* `undivided_moves`: the units of a bulk operation end as after some moves.
* `request_moves` and `request_isolated`: what a bulk request in the machine comes to.
-/
namespace BundleLedger.Concurrency

open Session

variable {ε : Type}

/-! ## Units under way -/

/-- A step that leaves the holder of the lock alone: while the lock is held, it moves on. -/
structure Undivided (st st' : State ε) : Prop where
  step : Step st st'
  holder : st.lock ≠ .free → st'.lock ≠ st.lock

/-- A unit that has not got the lock yet, with its position among the units. -/
inductive Underway where
  | tracing (position : Nat) (single : Single)
  | traced (position : Nat) (single : Single) (graph : Graph)

/-- What is left to do for a unit. -/
def Underway.task : Underway → Task
  | .tracing _ single => .tracing single
  | .traced _ single graph => .waiting (single.commit graph)

/-- A job can be what becomes of a unit. -/
def Underway.Becomes : Underway → Job ε → Prop
  | .tracing position single, job => job.position = position ∧ job.pipeline = single.pipeline
  | .traced position single graph, job => job = ⟨position, single.pipeline, .ok graph⟩

/-- Each unit becomes one of some jobs. -/
def Become (us : Multiset Underway) (settled : List (Job ε)) : Prop :=
  Multiset.Rel Underway.Becomes us (Multiset.ofList settled)

theorem Underway.Becomes.pipeline {u : Underway} {job : Job ε} (h : u.Becomes job) :
    ∃ single : Single, job.pipeline = single.pipeline := by
  cases u with
  | tracing position single => exact ⟨single, h.2⟩
  | traced position single graph => exact ⟨single, congrArg Job.pipeline h⟩

theorem exists_underway {t : Task} {rest : Multiset Task} {us : Multiset Underway}
    (h : t ::ₘ rest = us.map Underway.task) :
    ∃ u others, us = u ::ₘ others ∧ u.task = t ∧ rest = others.map Underway.task := by
  obtain ⟨u, hu, ht⟩ := Multiset.mem_map.1 (h ▸ Multiset.mem_cons_self t rest)
  obtain ⟨others, rfl⟩ := Multiset.exists_cons_of_mem hu
  rw [Multiset.map_cons, ht, Multiset.cons_inj_right] at h
  exact ⟨u, others, rfl, ht, h⟩

theorem Become.pipeline {us : Multiset Underway} {settled : List (Job ε)} (h : Become us settled) :
    ∀ job ∈ settled, ∃ single : Single, job.pipeline = single.pipeline := by
  intro job hjob
  obtain ⟨u, -, hu⟩ := Multiset.exists_mem_of_rel_of_mem (Multiset.rel_flip.2 h)
    (Multiset.mem_coe.2 hjob)
  exact Underway.Becomes.pipeline hu

theorem Become.cons {u : Underway} {us : Multiset Underway} {job : Job ε} {settled : List (Job ε)}
    (hu : u.Becomes job) (h : Become us settled) : Become (u ::ₘ us) (job :: settled) := by
  rw [Become, ← Multiset.cons_coe]
  exact Multiset.Rel.cons hu h

/-- A unit that is traced may become less than before. -/
theorem Become.traced {position : Nat} {single : Single} {graph : Graph} {us : Multiset Underway}
    {settled : List (Job ε)} (h : Become (.traced position single graph ::ₘ us) settled) :
    Become (.tracing position single ::ₘ us) settled := by
  obtain ⟨job, rest, rfl, hrest, heq⟩ := Multiset.rel_cons_left.1 h
  exact Multiset.rel_cons_left.2 ⟨_, rest, ⟨rfl, rfl⟩, hrest, heq⟩

/-! ## Steps as moves -/

/-- The session after the lock is given back, if its holder is left alone. -/
def released (s : Session ε) : Lock → Session ε
  | .free => s
  | .compiling root graph => (s.compileAndSave root graph).2
  | .saving root bundle => saved s root bundle

theorem released_compiled (s : Session ε) (root : String) {graph : Graph} (h : graph ≠ []) :
    released (compiled s root graph).1 (compiled s root graph).2 = (s.compileAndSave root graph).2 := by
  rw [compileAndSave_eq, if_neg (by simpa using h)]
  unfold compiled
  split <;> rfl

/-- Moves lead from one session to another, and from some units under way to others. -/
structure Leads (moves : List (Move ε)) (us us' : Multiset Underway) (s s' : Session ε) : Prop where
  units : ∀ later, Become us' (jobs later) → Become us (jobs (moves ++ later))
  session : ButReports (takeMoves s moves).2 s'

theorem Leads.refl (us : Multiset Underway) (s : Session ε) : Leads [] us us s s :=
  ⟨fun _ h => h, .refl s⟩

/-- The trace of a unit ends. If it failed, the unit commits that. -/
theorem leads_trace (s : Session ε) (position : Nat) (single : Single) (others : Multiset Underway) :
    ∃ us' moves, single.next (s.trace single.expression).1 + others.map Underway.task =
        us'.map Underway.task ∧
      Leads moves (.tracing position single ::ₘ others) us' s (s.trace single.expression).2 := by
  obtain ⟨memory, disk, hafter⟩ := aside_trace s single.expression
  rw [hafter]
  cases (s.trace single.expression).1 with
  | error e =>
    refine ⟨others, [.outside memory disk, .commit ⟨position, single.pipeline, .error e⟩],
      zero_add _, fun later h => ?_, .refl _⟩
    exact .cons ⟨rfl, rfl⟩ h
  | ok graph =>
    refine ⟨.traced position single graph ::ₘ others, [.outside memory disk], ?_,
      fun later h => h.traced, .refl _⟩
    rw [Multiset.map_cons]
    rfl

/-- A unit takes the lock. -/
theorem leads_acquire (s : Session ε) (position : Nat) (single : Single) (graph : Graph)
    (others : Multiset Underway) :
    Leads [.commit ⟨position, single.pipeline, .ok graph⟩] (.traced position single graph ::ₘ others)
      others s (s.compileAndSave (single.commit graph).root ((single.commit graph).modules s)).2 := by
  refine ⟨fun later h => .cons rfl h, ?_⟩
  rw [← Single.pipeline_commit]
  exact .refl _

/-- Each step of a bulk operation that leaves the holder of the lock alone is mimicked by moves. -/
theorem undivided_step {st st' : State ε} (hs : Undivided st st') {us : Multiset Underway}
    (hu : st.tasks = us.map Underway.task) :
    ∃ us' moves, st'.tasks = us'.map Underway.task ∧
      Leads moves us us' (released st.session st.lock) (released st'.session st'.lock) := by
  -- who does not hold the lock can only move while it is free
  have hfree : st'.lock = st.lock → st.lock = .free := fun hl => by
    by_contra hheld
    exact hs.holder hheld hl
  cases hs.step with
  | outside s lock tasks memory disk events =>
    obtain rfl : lock = .free := hfree rfl
    exact ⟨us, [.outside memory disk], hu, fun _ h => h, events, rfl⟩
  | start s lock request rest _ =>
    obtain ⟨u | u, others, -, ht, -⟩ := exists_underway hu <;> cases ht
  | trace s lock single rest =>
    obtain rfl : lock = .free := hfree rfl
    obtain ⟨⟨position, _⟩ | u, others, rfl, ht, rfl⟩ := exists_underway hu <;> cases ht
    exact leads_trace s position single others
  | slot s lock before after root packages saveAs rest =>
    obtain ⟨u | u, others, -, ht, -⟩ := exists_underway hu <;> cases ht
  | gather s lock traces packages saveAs rest =>
    obtain ⟨u | u, others, -, ht, -⟩ := exists_underway hu <;> cases ht
  | acquire s commit rest =>
    obtain ⟨u | ⟨position, single, graph⟩, others, rfl, ht, rfl⟩ := exists_underway hu <;> cases ht
    exact ⟨others, _, rfl, leads_acquire s position single graph others⟩
  | skip s root tasks => exact ⟨us, [], hu, .refl us _⟩
  | compile s root graph tasks hne =>
    refine ⟨us, [], hu, ?_⟩
    rw [released_compiled s root hne]
    exact .refl us _
  | save s root bundle tasks => exact ⟨us, [], hu, .refl us _⟩

theorem takeMoves_append (s : Session ε) (moves later : List (Move ε)) :
    (takeMoves s (moves ++ later)).2 = (takeMoves (takeMoves s moves).2 later).2 := by
  induction moves generalizing s with
  | nil => rfl
  | cons move moves ih =>
    cases move with
    | outside memory disk => exact ih _
    | commit job => exact ih _

/-- A run of a bulk operation that leaves the holders of the lock alone is mimicked by moves. -/
theorem undivided_run {st : State ε} {s' : Session ε}
    (h : Relation.ReflTransGen Undivided st ⟨s', .free, 0⟩) :
    ∀ us : Multiset Underway, st.tasks = us.map Underway.task →
      ∃ moves, Become us (jobs moves) ∧
        ButReports (takeMoves (released st.session st.lock) moves).2 s' := by
  induction h using Relation.ReflTransGen.head_induction_on with
  | refl =>
    intro us hu
    rw [eq_comm, Multiset.map_eq_zero] at hu
    rw [hu]
    exact ⟨[], .zero, .refl s'⟩
  | head hs _ ih =>
    intro us hu
    obtain ⟨us', first, hu', hleads⟩ := undivided_step hs hu
    obtain ⟨later, hjobs, hlast⟩ := ih us' hu'
    refine ⟨first ++ later, hleads.units later hjobs, ?_⟩
    rw [takeMoves_append]
    exact (takeMoves_butReports hleads.session hjobs.pipeline).2.trans hlast

/-! ## All units of a bulk operation -/

/-- The units before their traces. -/
def underwayAll (units : List Single) : List Underway :=
  units.zipIdx.map fun unit => .tracing unit.2 unit.1

theorem task_underwayAll (units : List Single) :
    (underwayAll units).map Underway.task = units.map Task.tracing := by
  have htask : Underway.task ∘ (fun unit : Single × Nat => .tracing unit.2 unit.1) =
      Task.tracing ∘ Prod.fst := rfl
  rw [underwayAll, List.map_map, htask, ← List.map_map, List.zipIdx_map_fst]

theorem exists_forall₂_of_rel {α β : Type} {R : α → β → Prop} {as : List α} {bs : Multiset β}
    (h : Multiset.Rel R as bs) : ∃ bs' : List β, List.Forall₂ R as bs' ∧ bs = bs' := by
  induction as generalizing bs with
  | nil => exact ⟨[], .nil, Multiset.rel_zero_left.1 h⟩
  | cons a as ih =>
    rw [← Multiset.cons_coe] at h
    obtain ⟨b, rest, hb, hrest, rfl⟩ := Multiset.rel_cons_left.1 h
    obtain ⟨bs', hbs', rfl⟩ := ih hrest
    exact ⟨b :: bs', .cons hb hbs', Multiset.cons_coe b bs'⟩

/-- The jobs that units become have the positions and the pipelines of the units. -/
theorem jobsOf_of_becomes {units : List Single} {jobs : List (Job ε)}
    (h : List.Forall₂ Underway.Becomes (underwayAll units) jobs) :
    jobs = jobsOf (units.map Single.pipeline) (jobs.map (·.traced)) := by
  have hl : jobs.length = units.length := by simpa [underwayAll] using h.length_eq.symm
  refine List.ext_getElem (by simp [jobsOf, hl]) fun i hi _ => ?_
  have hbecomes := h.get (by simpa [underwayAll, hl] using hi) hi
  simp only [underwayAll, List.get_eq_getElem, List.getElem_map, List.getElem_zipIdx,
    Underway.Becomes, zero_add] at hbecomes
  simp only [jobsOf, List.getElem_map, List.getElem_zipIdx, List.getElem_zip, zero_add]
  generalize jobs[i] = job at hbecomes ⊢
  obtain ⟨position, pipeline, traced⟩ := job
  dsimp only at hbecomes
  obtain ⟨rfl, rfl⟩ := hbecomes
  rfl

/-- The units of a bulk operation, with nothing else under way: when all are through, the session is,
but for the reports, as after moves in which each unit commits once. -/
theorem undivided_moves {s s' : Session ε} {units : List Single}
    (h : Relation.ReflTransGen Undivided ⟨s, .free, (units.map Task.tracing : List Task)⟩
      ⟨s', .free, 0⟩) :
    ∃ graphs moves, graphs.length = units.length ∧
      (jobs moves).Perm (jobsOf (units.map Single.pipeline) graphs) ∧
      ButReports (takeMoves s moves).2 s' := by
  obtain ⟨moves, hrel, hlast⟩ := undivided_run h (underwayAll units)
    (by rw [Multiset.map_coe, task_underwayAll])
  obtain ⟨settled, hbecomes, heq⟩ := exists_forall₂_of_rel hrel
  have hl : settled.length = units.length := by simpa [underwayAll] using hbecomes.length_eq.symm
  refine ⟨settled.map (·.traced), moves, by simpa using hl, ?_, hlast⟩
  rw [← jobsOf_of_becomes hbecomes]
  exact Multiset.coe_eq_coe.1 heq

/-! ## Bulk requests -/

theorem exists_units {request : Request} (hr : request.isBulk = true) (s : Session ε) :
    ∃ units, IsBulk s units ∧ request.tasks s = (units.map Task.tracing : List Task) := by
  cases request with
  | remainingComponents => exact ⟨_, .inl rfl, rfl⟩
  | remainingPackages => exact ⟨_, .inr rfl, rfl⟩
  | _ => cases hr

/-- The first step of a request that was only called: something happens outside, or it starts. -/
theorem first_step {s : Session ε} {request : Request} {st : State ε}
    (hs : Step ⟨s, .free, {.called request}⟩ st) :
    (∃ memory disk events, st = ⟨{ s with memory, disk, events }, .free, {.called request}⟩) ∨
      st = ⟨s, .free, request.tasks s⟩ := by
  generalize htasks : ({.called request} : Multiset Task) = tasks at hs
  cases hs with
  | outside s lock tasks memory disk events => exact .inl ⟨memory, disk, events, rfl⟩
  | start s lock request' rest _ =>
    obtain ⟨he, rfl⟩ := (Multiset.singleton_eq_cons_iff rest).1 htasks
    cases he
    rw [add_zero]
    exact .inr rfl
  | trace | slot | gather | acquire => cases ((Multiset.singleton_eq_cons_iff _).1 htasks).1

/-- A bulk request in the machine, with nothing else under way. Its units are found in a session `s₁`
with the ledger of `s`, and when all are through, the session is, but for the reports, as after moves
in which each of them commits once. -/
theorem request_moves {s s' : Session ε} {request : Request} (hr : request.isBulk = true)
    (h : Relation.ReflTransGen Undivided ⟨s, .free, {.called request}⟩ ⟨s', .free, 0⟩) :
    ∃ s₁ units graphs moves, s₁.config = s.config ∧ s₁.options = s.options ∧ IsBulk s₁ units ∧
      graphs.length = units.length ∧ (jobs moves).Perm (jobsOf (units.map Single.pipeline) graphs) ∧
      ButReports (takeMoves s₁ moves).2 s' := by
  generalize hst : (⟨s, .free, {.called request}⟩ : State ε) = st at h
  induction h using Relation.ReflTransGen.head_induction_on generalizing s with
  | refl => cases congrArg (fun st : State ε => st.tasks.card) hst
  | @head st st' hs hrest ih =>
    subst hst
    -- until the request looks into the ledger, no one but the world outside takes a step
    rcases first_step hs.step with ⟨memory, disk, events, rfl⟩ | rfl
    · exact ih (s := { s with memory, disk, events }) rfl
    · obtain ⟨units, hu, htasks⟩ := exists_units hr s
      rw [htasks] at hrest
      obtain ⟨graphs, moves, hl, hp, hlast⟩ := undivided_moves hrest
      exact ⟨s, units, graphs, moves, rfl, rfl, hu, hl, hp, hlast⟩

/-- What `bulk_isolates` says of the ledger holds of these runs: entries stay, and units that did not
get as far as their save can be left out. -/
theorem request_isolated {s s' : Session ε} {request : Request} (hr : request.isBulk = true)
    (h : Relation.ReflTransGen Undivided ⟨s, .free, {.called request}⟩ ⟨s', .free, 0⟩) :
    (∀ b ∈ s.config.bundles, b ∈ s'.config.bundles) ∧
      ∃ s₁ moves, ButReports (takeMoves s₁ moves).2 s' ∧
        ButReports (takeMoves s₁ (leftOut s₁ moves)).2 s' := by
  obtain ⟨s₁, units, graphs, moves, hc, -, hu, -, hp, hlast⟩ := request_moves hr h
  have hunits := areUnits_of_perm hp
  refine ⟨?_, s₁, moves, hlast, ?_⟩
  · obtain ⟨events, rfl⟩ := hlast
    rw [← hc]
    exact hu.keeps rfl rfl hunits
  · rw [(takeMoves_leftOut hunits).1]
    exact hlast

end BundleLedger.Concurrency
