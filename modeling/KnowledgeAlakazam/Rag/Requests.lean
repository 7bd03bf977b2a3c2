import KnowledgeAlakazam.Rag.Readiness
import KnowledgeAlakazam.Rag.Tenants

/-!
# Requests and runtimes

Requests of all tenants share one registry in one process. A request looks its runtime up, waits for
the lock of the runtime and initializes it if nobody has; then it asks, and before it asks it
initializes again, since a `shutdown` may have come in between. The lock of the registry is held
over code that awaits nothing, so that what is done under it is one step; the lock of a runtime is
held over every operation of `initialize`, and the steps of the requests interleave there. When the
application ends, the registry is cleared and its runtimes are shut down one after the other.

Whatever the interleaving, and whichever operations raise, a request asks a runtime of the workspace
of its own tenant, and one that can be asked (`asked_ready`). If nothing has to be started again,
all requests of a workspace ask one and the same object, built once (`asked_once`).
-/

namespace KnowledgeAlakazam

/-! ## The state -/

structure TenantRuntime where
  workspace : String
  runtime : RAGRuntime

/-- Where a request is. `again` says that it is `query` or `process_document_complete` that calls
`initialize`, no longer `get`. -/
inductive RequestPhase where
  | arrived
  /-- At the lock of the runtime. -/
  | waiting (again : Bool) (runtime : ℕ)
  /-- It holds the lock, and `initialize` awaits an operation. -/
  | initializing (again : Bool) (runtime : ℕ)
  /-- It awaits the RAG-Anything object that stands on this LightRAG object. -/
  | asking (runtime lightrag : ℕ)
  | ended (outcome : Except PyException Unit)
deriving DecidableEq

/-- The runtime that a request has got. -/
def RequestPhase.runtime? : RequestPhase → Option ℕ
  | waiting _ i => some i
  | initializing _ i => some i
  | asking i _ => some i
  | _ => none

/-- A request that uses the RAG runtime of a tenant. -/
structure RAGRequest where
  tenantId : String
  phase : RequestPhase
deriving DecidableEq

/-- The process: its registry, the runtimes that were made, its requests, and the runtimes that
`RAGRuntimeRegistry.shutdown` has still to shut down. -/
structure RAGService where
  registry : RAGRuntimeRegistry
  runtimes : ℕ → TenantRuntime
  requests : List RAGRequest
  closing : List ℕ

inductive ServiceLabel where
  | arrive (tenantId : String)
  /-- `get`, up to the lock of the runtime. -/
  | lookup (request : ℕ)
  /-- The request gets the lock. -/
  | enter (request : ℕ)
  /-- An operation of `initialize` ends. -/
  | work (request : ℕ) (label : RuntimeLabel)
  /-- The object answers, or the request is cancelled while it waits. -/
  | leave (request : ℕ) (outcome : Except PyException Unit)
  /-- `RAGRuntimeRegistry.shutdown` clears the registry. -/
  | close
  /-- The next runtime is shut down. -/
  | closeNext (failure : Option PyException)
deriving DecidableEq

namespace RAGService

variable (hexdigest : String → String) (p : RAGPackages) (s : RAGService)

def start : RAGService where
  registry := { RAGRuntimeRegistry.fresh with disabled := p.disabled }
  runtimes _ := ⟨"", .start⟩
  requests := []
  closing := []

/-! ## The steps -/

def setPhase (request : ℕ) (phase : RequestPhase) : RAGService :=
  { s with requests := s.requests.modify request fun q ↦ { q with phase := phase } }

def setRuntime (i : ℕ) (runtime : RAGRuntime) : RAGService :=
  { s with runtimes := Function.update s.runtimes i ⟨(s.runtimes i).workspace, runtime⟩ }

/-- What `RAGRuntimeRegistry.get` does before it calls `initialize`. -/
def get (request : ℕ) (tenantId : String) : RAGService :=
  if s.registry.disabled then
    s.setPhase request (.ended (.error ⟨"RAGRuntimeDisabledError",
      "RAG runtime is disabled by RAG_RUNTIME_DISABLED=true"⟩))
  else match workspaceForTenant hexdigest tenantId with
    | .error e => s.setPhase request (.ended (.error e))
    | .ok workspace =>
      match s.registry.runtimes workspace with
      | some i => s.setPhase request (.waiting false i)
      | none =>
        { s with
          registry := s.registry.create workspace
          runtimes := Function.update s.runtimes s.registry.created ⟨workspace, .start⟩ }.setPhase
            request (.waiting false s.registry.created)

/-- `query` asks what the runtime has. -/
def ask (i : ℕ) (runtime : RAGRuntime) : RequestPhase :=
  match runtime.ragAnything with
  | some object => .asking i object.lightrag
  | none => .ended (.error ⟨"RAGRuntimeUnavailableError",
      "RAG-Anything runtime was not initialized"⟩)

/-- Where a request is after a step of `initialize`. -/
def resume (again : Bool) (i : ℕ) (runtime : RAGRuntime) : RequestPhase :=
  match runtime.doing, runtime.outcome with
  | some _, _ => .initializing again i
  | none, some (.error e) => .ended (.error e)
  | none, _ => if again then ask i runtime else .waiting true i

/-- A step of `initialize` on a runtime, by a request. -/
def advance (request : ℕ) (again : Bool) (i : ℕ) (label : RuntimeLabel) : Option RAGService :=
  (RAGRuntime.step p (s.runtimes i).runtime label).map fun runtime ↦
    (s.setRuntime i runtime).setPhase request (resume again i runtime)

/-- The runtimes in the registry, in the order of their creation. -/
def registered : List ℕ :=
  (List.range s.registry.created).filter fun i ↦
    s.registry.runtimes (s.runtimes i).workspace = some i

def step (s : RAGService) : ServiceLabel → Option RAGService
  | .arrive tenantId => some { s with requests := s.requests ++ [⟨tenantId, .arrived⟩] }
  | .lookup r => match s.requests[r]? with
    | some ⟨tenantId, .arrived⟩ => some (s.get hexdigest r tenantId)
    | _ => none
  | .enter r => match s.requests[r]? with
    | some ⟨_, .waiting again i⟩ => s.advance p r again i .initializeCall
    | _ => none
  | .work r label => match s.requests[r]? with
    | some ⟨_, .initializing again i⟩ =>
      if (s.runtimes i).runtime.doing = none then none else s.advance p r again i label
    | _ => none
  | .leave r outcome => match s.requests[r]?, outcome with
    | some ⟨_, .asking _ _⟩, _ => some (s.setPhase r (.ended outcome))
    | some ⟨_, .waiting _ _⟩, .error e => some (s.setPhase r (.ended (.error e)))
    | _, _ => none
  | .close =>
    if s.closing = [] then some { s with
      registry := { RAGRuntimeRegistry.fresh with
        disabled := s.registry.disabled
        created := s.registry.created
        lt_created := fun h ↦ absurd h (Option.some_ne_none _).symm }
      closing := s.registered }
    else none
  | .closeNext failure => s.closing.head?.bind fun i ↦
    (RAGRuntime.step p (s.runtimes i).runtime (.shutdown failure)).map fun runtime ↦
      -- an exception leaves the loop
      { s.setRuntime i runtime with closing := if failure = none then s.closing.tail else [] }

/-- The runtime that a step moves, and how. -/
def moved : ServiceLabel → Option (ℕ × RuntimeLabel)
  | .enter r => match s.requests[r]? with
    | some ⟨_, .waiting _ i⟩ => some (i, .initializeCall)
    | _ => none
  | .work r label => match s.requests[r]? with
    | some ⟨_, .initializing _ i⟩ => some (i, label)
    | _ => none
  | .closeNext failure => s.closing.head?.map fun i ↦ (i, .shutdown failure)
  | _ => none

/-- After the transition the runtime may have to build an object again. -/
def restarts (i : ℕ) (t : Transition RAGService ServiceLabel) : Bool :=
  (t.pre.moved t.label).any fun move ↦ move.1 == i && move.2.restarts

/-! ## What a step does -/

inductive Effect (s : RAGService) : ServiceLabel → RAGService → Prop
  | arrive {tenantId : String} : Effect s (.arrive tenantId)
      { s with requests := s.requests ++ [⟨tenantId, .arrived⟩] }
  | refuse {r : ℕ} {e : PyException} : Effect s (.lookup r) (s.setPhase r (.ended (.error e)))
  | find {r i : ℕ} {tenantId workspace : String}
      (hrequest : s.requests[r]? = some ⟨tenantId, .arrived⟩)
      (hworkspace : workspaceForTenant hexdigest tenantId = .ok workspace)
      (hi : s.registry.runtimes workspace = some i) :
      Effect s (.lookup r) (s.setPhase r (.waiting false i))
  | create {r : ℕ} {tenantId workspace : String}
      (hrequest : s.requests[r]? = some ⟨tenantId, .arrived⟩)
      (hworkspace : workspaceForTenant hexdigest tenantId = .ok workspace)
      (hnone : s.registry.runtimes workspace = none) :
      Effect s (.lookup r)
        ({ s with
          registry := s.registry.create workspace
          runtimes := Function.update s.runtimes s.registry.created ⟨workspace, .start⟩ }.setPhase
            r (.waiting false s.registry.created))
  | advance {label : ServiceLabel} {r i : ℕ} {tenantId : String} {phase : RequestPhase}
      {again : Bool} {call : RuntimeLabel} {runtime : RAGRuntime}
      (hrequest : s.requests[r]? = some ⟨tenantId, phase⟩) (hphase : phase.runtime? = some i)
      (hmoved : s.moved label = some (i, call)) (hcall : ∀ failure, call ≠ .shutdown failure)
      (hstep : RAGRuntime.step p (s.runtimes i).runtime call = some runtime) :
      Effect s label ((s.setRuntime i runtime).setPhase r (resume again i runtime))
  | leave {r : ℕ} {outcome : Except PyException Unit} :
      Effect s (.leave r outcome) (s.setPhase r (.ended outcome))
  | close (hclosing : s.closing = []) {registry : RAGRuntimeRegistry}
      (hruntimes : ∀ workspace, registry.runtimes workspace = none)
      (hcreated : registry.created = s.registry.created) :
      Effect s .close { s with registry := registry, closing := s.registered }
  | closeNext {i : ℕ} {rest closing : List ℕ} {failure : Option PyException}
      {runtime : RAGRuntime} (hclosing : s.closing = i :: rest)
      (hstep : RAGRuntime.step p (s.runtimes i).runtime (.shutdown failure) = some runtime)
      (hrest : closing = if failure = none then rest else []) :
      Effect s (.closeNext failure) { s.setRuntime i runtime with closing := closing }

variable {hexdigest p s} {s' : RAGService} {label : ServiceLabel}

theorem effect_get {r : ℕ} {tenantId : String}
    (h : s.requests[r]? = some ⟨tenantId, .arrived⟩) :
    Effect hexdigest p s (.lookup r) (s.get hexdigest r tenantId) := by
  rw [get]
  split
  · exact .refuse
  · split
    · exact .refuse
    · rename_i hworkspace
      split
      · exact .find h hworkspace ‹_›
      · exact .create h hworkspace ‹_›

theorem effect_advance {r i : ℕ} {tenantId : String} {phase : RequestPhase} {again : Bool}
    {call : RuntimeLabel} (hrequest : s.requests[r]? = some ⟨tenantId, phase⟩)
    (hphase : phase.runtime? = some i) (hmoved : s.moved label = some (i, call))
    (hcall : ∀ failure, call ≠ .shutdown failure) (h : s.advance p r again i call = some s') :
    Effect hexdigest p s label s' := by
  obtain ⟨runtime, hstep, rfl⟩ := Option.map_eq_some_iff.mp h
  exact .advance hrequest hphase hmoved hcall hstep

theorem effect_of_step (h : s.step hexdigest p label = some s') :
    Effect hexdigest p s label s' := by
  cases label with
  | arrive tenantId =>
    obtain rfl := Option.some.inj h
    exact .arrive
  | lookup r =>
    simp only [step] at h
    split at h
    · obtain rfl := Option.some.inj h
      exact effect_get ‹_›
    · exact absurd h (Option.some_ne_none _).symm
  | enter r =>
    simp only [step] at h
    split at h
    · rename_i hrequest
      refine effect_advance hrequest rfl ?_ (fun _ ↦ by simp) h
      simp only [moved, hrequest]
    · exact absurd h (Option.some_ne_none _).symm
  | work r call =>
    simp only [step] at h
    split at h
    · rename_i i hrequest
      split at h
      · exact absurd h (Option.some_ne_none _).symm
      · rename_i hdoing
        refine effect_advance hrequest rfl ?_ ?_ h
        · simp only [moved, hrequest]
        -- the lock is held, so that nobody shuts the runtime down
        · rintro failure rfl
          rw [advance, RAGRuntime.step_shutdown hdoing] at h
          exact absurd h (Option.some_ne_none _).symm
    · exact absurd h (Option.some_ne_none _).symm
  | leave r outcome =>
    simp only [step] at h
    split at h
    · obtain rfl := Option.some.inj h
      exact .leave
    · obtain rfl := Option.some.inj h
      exact .leave
    · exact absurd h (Option.some_ne_none _).symm
  | close =>
    simp only [step] at h
    split at h
    · obtain rfl := Option.some.inj h
      exact .close ‹_› (fun _ ↦ rfl) rfl
    · exact absurd h (Option.some_ne_none _).symm
  | closeNext failure =>
    obtain ⟨i, hhead, h⟩ := Option.bind_eq_some_iff.mp h
    obtain ⟨runtime, hstep, rfl⟩ := Option.map_eq_some_iff.mp h
    obtain ⟨rest, hclosing⟩ := List.head?_eq_some_iff.mp hhead
    exact .closeNext hclosing hstep (by rw [hclosing, List.tail_cons])

/-! ### The requests -/

theorem requests_setPhase {r r' : ℕ} {phase phase' : RequestPhase} {tenantId : String}
    (h : (s.setPhase r phase).requests[r']? = some ⟨tenantId, phase'⟩) :
    s.requests[r']? = some ⟨tenantId, phase'⟩ ∨
      phase' = phase ∧ ∃ old, s.requests[r]? = some ⟨tenantId, old⟩ := by
  rw [setPhase, List.getElem?_modify] at h
  obtain ⟨⟨tenantId', old⟩, hold, heq⟩ := Option.map_eq_some_iff.mp h
  dsimp only at heq
  split at heq
  · rename_i hr
    obtain ⟨rfl, rfl⟩ := RAGRequest.mk.inj heq
    exact .inr ⟨rfl, old, hr ▸ hold⟩
  · exact .inl (heq ▸ hold)

theorem requests_arrive {r : ℕ} {tenantId tenantId' : String} {phase : RequestPhase}
    (h : (s.requests ++ [⟨tenantId', .arrived⟩])[r]? = some ⟨tenantId, phase⟩) :
    s.requests[r]? = some ⟨tenantId, phase⟩ ∨ phase = .arrived := by
  rw [List.getElem?_append] at h
  split at h
  · exact .inl h
  · have hmem := List.mem_of_getElem? h
    exact .inr (RAGRequest.mk.inj (List.mem_singleton.mp hmem)).2

theorem runtime?_resume {again : Bool} {i j : ℕ} {runtime : RAGRuntime}
    (h : (resume again i runtime).runtime? = some j) : i = j := by
  rw [resume] at h
  split at h
  · exact Option.some.inj h
  · exact absurd h (Option.some_ne_none _).symm
  · split at h
    · rw [ask] at h
      split at h
      · exact Option.some.inj h
      · exact absurd h (Option.some_ne_none _).symm
    · exact Option.some.inj h

/-- **A request keeps its runtime.** It has the one that it had, or the one that the registry has
for its tenant. -/
theorem Effect.held (h : Effect hexdigest p s label s') {r i : ℕ} {tenantId : String}
    {phase : RequestPhase} (hrequest : s'.requests[r]? = some ⟨tenantId, phase⟩)
    (hphase : phase.runtime? = some i) :
    (∃ (r' : ℕ) (old : RequestPhase), s.requests[r']? = some ⟨tenantId, old⟩ ∧
        old.runtime? = some i) ∨
      ∃ workspace, workspaceForTenant hexdigest tenantId = .ok workspace ∧
        s'.registry.runtimes workspace = some i := by
  have hnone : ∀ {phase' : RequestPhase}, phase'.runtime? = none → phase ≠ phase' := by
    rintro phase' hnone rfl
    exact Option.some_ne_none _ (hphase.symm.trans hnone)
  cases h with
  | arrive =>
    rcases requests_arrive hrequest with hrequest | heq
    · exact .inl ⟨r, phase, hrequest, hphase⟩
    · exact absurd heq (hnone rfl)
  | refuse =>
    rcases requests_setPhase hrequest with hrequest | ⟨heq, -⟩
    · exact .inl ⟨r, phase, hrequest, hphase⟩
    · exact absurd heq (hnone rfl)
  | find hold hworkspace hi =>
    rcases requests_setPhase hrequest with hrequest | ⟨rfl, old, hold'⟩
    · exact .inl ⟨r, phase, hrequest, hphase⟩
    · obtain ⟨rfl, -⟩ := RAGRequest.mk.inj (Option.some.inj (hold.symm.trans hold'))
      exact .inr ⟨_, hworkspace, hi.trans hphase⟩
  -- the new runtime is registered before the request has it
  | create hold hworkspace =>
    rcases requests_setPhase hrequest with hrequest | ⟨rfl, old, hold'⟩
    · exact .inl ⟨r, phase, hrequest, hphase⟩
    · obtain ⟨rfl, -⟩ := RAGRequest.mk.inj (Option.some.inj (hold.symm.trans hold'))
      exact .inr ⟨_, hworkspace, (Function.update_self ..).trans hphase⟩
  | advance hold hphase' =>
    rcases requests_setPhase hrequest with hrequest | ⟨rfl, old, hold'⟩
    · exact .inl ⟨r, phase, hrequest, hphase⟩
    · obtain ⟨rfl, rfl⟩ := RAGRequest.mk.inj (Option.some.inj (hold.symm.trans hold'))
      exact .inl ⟨_, _, hold, hphase'.trans (congrArg some (runtime?_resume hphase))⟩
  | leave =>
    rcases requests_setPhase hrequest with hrequest | ⟨heq, -⟩
    · exact .inl ⟨r, phase, hrequest, hphase⟩
    · exact absurd heq (hnone rfl)
  | close => exact .inl ⟨r, phase, hrequest, hphase⟩
  | closeNext => exact .inl ⟨r, phase, hrequest, hphase⟩

/-! ### The runtimes -/

/-- The runtimes that were not made yet are as they will be. -/
def Fresh (s : RAGService) : Prop :=
  ∀ i, s.registry.created ≤ i → (s.runtimes i).runtime = .start

theorem Effect.runtime (h : Effect hexdigest p s label s') (hfresh : s.Fresh) (i : ℕ) :
    (i < s.registry.created → (s'.runtimes i).workspace = (s.runtimes i).workspace) ∧
    ((s'.runtimes i).runtime = (s.runtimes i).runtime ∨ ∃ call, s.moved label = some (i, call) ∧
      RAGRuntime.step p (s.runtimes i).runtime call = some (s'.runtimes i).runtime) := by
  cases h with
  | arrive => exact ⟨fun _ ↦ rfl, .inl rfl⟩
  | refuse => exact ⟨fun _ ↦ rfl, .inl rfl⟩
  | find => exact ⟨fun _ ↦ rfl, .inl rfl⟩
  | create =>
    by_cases hi : i = s.registry.created
    · subst hi
      refine ⟨fun h ↦ absurd h (Nat.lt_irrefl _), .inl ?_⟩
      rw [hfresh _ le_rfl]
      simp [setPhase]
    · simp [setPhase, hi]
  -- A move is on one runtime, and the others are as they were.
  | @advance _ r j tenantId phase again call runtime hrequest hphase hmoved hcall hstep =>
    by_cases hi : i = j
    · subst hi
      have heq : ((s.setRuntime i runtime).setPhase r (resume again i runtime)).runtimes i =
          ⟨(s.runtimes i).workspace, runtime⟩ := Function.update_self ..
      rw [heq]
      exact ⟨fun _ ↦ rfl, .inr ⟨call, hmoved, hstep⟩⟩
    · have heq : ((s.setRuntime j runtime).setPhase r (resume again j runtime)).runtimes i =
          s.runtimes i := Function.update_of_ne hi ..
      rw [heq]
      exact ⟨fun _ ↦ rfl, .inl rfl⟩
  | leave => exact ⟨fun _ ↦ rfl, .inl rfl⟩
  | close => exact ⟨fun _ ↦ rfl, .inl rfl⟩
  | @closeNext j rest closing failure runtime hclosing hstep =>
    by_cases hi : i = j
    · subst hi
      have heq : (s.setRuntime i runtime).runtimes i = ⟨(s.runtimes i).workspace, runtime⟩ :=
        Function.update_self ..
      dsimp only
      rw [heq]
      refine ⟨fun _ ↦ rfl, .inr ⟨.shutdown failure, ?_, hstep⟩⟩
      rw [moved, hclosing]
      rfl
    · have heq : (s.setRuntime j runtime).runtimes i = s.runtimes i :=
        Function.update_of_ne hi ..
      dsimp only
      rw [heq]
      exact ⟨fun _ ↦ rfl, .inl rfl⟩

theorem Effect.created_le (h : Effect hexdigest p s label s') :
    s.registry.created ≤ s'.registry.created := by
  cases h with
  | create => exact Nat.le_succ _
  | close _ _ hcreated => exact hcreated.symm.le
  | arrive => exact le_rfl
  | refuse => exact le_rfl
  | find => exact le_rfl
  | advance => exact le_rfl
  | leave => exact le_rfl
  | closeNext => exact le_rfl

/-- The registry keeps its runtimes, or it loses all of them; a new one is that of its workspace. -/
theorem Effect.registry (h : Effect hexdigest p s label s') {workspace : String} {i : ℕ}
    (hi : s'.registry.runtimes workspace = some i) :
    s.registry.runtimes workspace = some i ∨ (s'.runtimes i).workspace = workspace := by
  cases h with
  | @create r tenantId workspace' =>
    have hupdate : Function.update s.registry.runtimes workspace' (some s.registry.created)
        workspace = some i := hi
    rw [Function.update_apply] at hupdate
    split at hupdate
    · rename_i heq
      obtain rfl := Option.some.inj hupdate
      right
      simp [setPhase, heq]
    · exact .inl hupdate
  | close _ hruntimes => exact absurd hi (by simp [hruntimes])
  | arrive => exact .inl hi
  | refuse => exact .inl hi
  | find => exact .inl hi
  | advance => exact .inl hi
  | leave => exact .inl hi
  | closeNext => exact .inl hi

theorem Effect.closing (h : Effect hexdigest p s label s') {i : ℕ} (hi : i ∈ s'.closing) :
    i ∈ s.closing ∨ i < s.registry.created := by
  cases h with
  | close => exact .inr (List.mem_range.mp (List.mem_filter.mp hi).1)
  | @closeNext j rest closing failure runtime hclosing hstep hrest =>
    left
    dsimp only at hi
    rw [hrest] at hi
    split at hi
    · rw [hclosing]
      exact List.mem_cons_of_mem _ hi
    · exact absurd hi List.not_mem_nil
  | arrive => exact .inl hi
  | refuse => exact .inl hi
  | find => exact .inl hi
  | create => exact .inl hi
  | advance => exact .inl hi
  | leave => exact .inl hi

/-! ### Asking -/

/-- A request that asks after a step of `initialize` asks a runtime that can be asked. -/
theorem resume_asking {again : Bool} {i j k : ℕ} {runtime : RAGRuntime}
    (hsound : runtime.Sound) (hends : runtime.doing = none →
      (∃ e, runtime.outcome = some (.error e)) ∨
        runtime.outcome = some (.ok ()) ∧ runtime.initialized = true)
    (h : resume again i runtime = .asking j k) : j = i ∧ runtime.ReadyFor k := by
  rw [resume] at h
  split at h
  · exact absurd h (by simp)
  · exact absurd h (by simp)
  · rename_i hdoing houtcome
    obtain ⟨e, he⟩ | ⟨-, hinit⟩ := hends hdoing
    · exact absurd he (houtcome e)
    · obtain ⟨k', hready⟩ := hsound.ready hinit
      split at h
      · rw [ask, hready.ragAnything] at h
        obtain ⟨rfl, rfl⟩ := RequestPhase.asking.inj h
        exact ⟨rfl, hready⟩
      · exact absurd h (by simp)

theorem Effect.asks (h : Effect hexdigest p s label s')
    (hsound : ∀ i, (s.runtimes i).runtime.Sound) {r i k : ℕ} {tenantId : String}
    (hrequest : s'.requests[r]? = some ⟨tenantId, .asking i k⟩) :
    s.requests[r]? = some ⟨tenantId, .asking i k⟩ ∨ (s'.runtimes i).runtime.ReadyFor k := by
  cases h with
  | arrive =>
    rcases requests_arrive hrequest with hrequest | heq
    · exact .inl hrequest
    · exact absurd heq (by simp)
  | refuse =>
    rcases requests_setPhase hrequest with hrequest | ⟨heq, -⟩
    · exact .inl hrequest
    · exact absurd heq (by simp)
  | find =>
    rcases requests_setPhase hrequest with hrequest | ⟨heq, -⟩
    · exact .inl hrequest
    · exact absurd heq (by simp)
  | create =>
    rcases requests_setPhase hrequest with hrequest | ⟨heq, -⟩
    · exact .inl hrequest
    · exact absurd heq (by simp)
  | @advance _ r' j _ _ again call runtime hold hphase hmoved hcall hstep =>
    rcases requests_setPhase hrequest with hrequest | ⟨heq, -⟩
    · exact .inl hrequest
    · obtain ⟨rfl, hready⟩ := resume_asking ((hsound j).step hstep)
        (RAGRuntime.ends_of_step hstep hcall) heq.symm
      right
      simpa [setPhase, setRuntime] using hready
  | leave =>
    rcases requests_setPhase hrequest with hrequest | ⟨heq, -⟩
    · exact .inl hrequest
    · exact absurd heq (by simp)
  | close => exact .inl hrequest
  | closeNext => exact .inl hrequest

/-! ## The invariant -/

variable (hexdigest s) in
/-- The registry has the runtimes of a workspace under the workspace, and a request has a runtime
of the workspace of its tenant. -/
structure Inv : Prop where
  fresh : s.Fresh
  sound : ∀ i, (s.runtimes i).runtime.Sound
  registered : ∀ workspace i, s.registry.runtimes workspace = some i →
    (s.runtimes i).workspace = workspace
  held : ∀ (r : ℕ) tenantId phase i, s.requests[r]? = some ⟨tenantId, phase⟩ →
    phase.runtime? = some i → i < s.registry.created ∧
      workspaceForTenant hexdigest tenantId = .ok (s.runtimes i).workspace
  asked : ∀ (r : ℕ) tenantId i k, s.requests[r]? = some ⟨tenantId, .asking i k⟩ →
    k < (s.runtimes i).runtime.created
  closing : ∀ i ∈ s.closing, i < s.registry.created

theorem inv_start (hexdigest : String → String) (p : RAGPackages) : (start p).Inv hexdigest where
  fresh _ _ := rfl
  sound _ := RAGRuntime.sound_start
  registered _ _ h := absurd h (Option.some_ne_none _).symm
  held _ _ _ _ h := absurd h (by simp [start])
  asked _ _ _ _ h := absurd h (by simp [start])
  closing _ h := absurd h List.not_mem_nil

theorem Inv.moved_lt (hs : s.Inv hexdigest) {i : ℕ} {call : RuntimeLabel}
    (h : s.moved label = some (i, call)) : i < s.registry.created := by
  cases label with
  | enter r =>
    rw [moved] at h
    split at h
    · rename_i hrequest
      obtain ⟨rfl, -⟩ := Prod.mk.inj (Option.some.inj h)
      exact (hs.held r _ _ _ hrequest rfl).1
    · exact absurd h (Option.some_ne_none _).symm
  | work r call' =>
    rw [moved] at h
    split at h
    · rename_i hrequest
      obtain ⟨rfl, -⟩ := Prod.mk.inj (Option.some.inj h)
      exact (hs.held r _ _ _ hrequest rfl).1
    · exact absurd h (Option.some_ne_none _).symm
  | closeNext failure =>
    rw [moved] at h
    obtain ⟨j, hj, heq⟩ := Option.map_eq_some_iff.mp h
    obtain ⟨rfl, -⟩ := Prod.mk.inj heq
    exact hs.closing j (List.mem_of_head? hj)
  | arrive => exact absurd h (Option.some_ne_none _).symm
  | lookup => exact absurd h (Option.some_ne_none _).symm
  | leave => exact absurd h (Option.some_ne_none _).symm
  | close => exact absurd h (Option.some_ne_none _).symm

theorem Inv.registered_step (hs : s.Inv hexdigest) (h : Effect hexdigest p s label s')
    {workspace : String} {i : ℕ} (hi : s'.registry.runtimes workspace = some i) :
    (s'.runtimes i).workspace = workspace := by
  rcases h.registry hi with hold | hnew
  · rw [(h.runtime hs.fresh i).1 (s.registry.lt_created hold)]
    exact hs.registered workspace i hold
  · exact hnew

/-- **Every step keeps the invariant.** -/
theorem Inv.step (hs : s.Inv hexdigest) (h : Effect hexdigest p s label s') :
    s'.Inv hexdigest where
  fresh i hi := by
    have hcreated := h.created_le
    obtain ⟨-, heq | ⟨call, hmoved, -⟩⟩ := h.runtime hs.fresh i
    · rw [heq]
      exact hs.fresh i (hcreated.trans hi)
    · exact absurd (hs.moved_lt hmoved) (by omega)
  sound i := by
    obtain ⟨-, heq | ⟨call, -, hstep⟩⟩ := h.runtime hs.fresh i
    · rw [heq]
      exact hs.sound i
    · exact (hs.sound i).step hstep
  registered _ i hi := hs.registered_step h hi
  held r tenantId phase i hrequest hphase := by
    rcases h.held hrequest hphase with ⟨r', old, hold, hi⟩ | ⟨workspace, hworkspace, hi⟩
    · obtain ⟨hlt, heq⟩ := hs.held r' tenantId old i hold hi
      rw [(h.runtime hs.fresh i).1 hlt]
      exact ⟨hlt.trans_le h.created_le, heq⟩
    · rw [hs.registered_step h hi]
      exact ⟨s'.registry.lt_created hi, hworkspace⟩
  asked r tenantId i k hrequest := by
    rcases h.asks hs.sound hrequest with hold | hready
    · have hlt := hs.asked r tenantId i k hold
      obtain ⟨-, heq | ⟨call, -, hstep⟩⟩ := h.runtime hs.fresh i
      · rw [heq]
        exact hlt
      · exact hlt.trans_le (RAGRuntime.created_le_of_step hstep)
    · obtain ⟨-, heq | ⟨call, -, hstep⟩⟩ := h.runtime hs.fresh i
      · exact (heq ▸ hs.sound i).numbered k (.inr (.inl hready.lightrag))
      · exact ((hs.sound i).step hstep).numbered k (.inr (.inl hready.lightrag))
  closing i hi := (h.closing hi).elim (fun hi ↦ (hs.closing i hi).trans_le h.created_le)
    fun hi ↦ hi.trans_le h.created_le

/-! ## Every interleaving -/

theorem trace_inv (labels : List ServiceLabel) :
    ∀ t ∈ trace (step hexdigest p) (start p) labels,
      t.pre.Inv hexdigest ∧ step hexdigest p t.pre t.label = some t.post ∧ t.post.Inv hexdigest :=
  trace_invariant (fun _ _ _ hs h ↦ hs.step (effect_of_step h)) (inv_start hexdigest p) labels

/-- **Whom a request asks.** It asks a runtime of the workspace of its tenant, which no request of
another tenant asks; and when it begins to ask, this runtime can be asked. -/
theorem asked_ready (labels : List ServiceLabel) :
    ∀ t ∈ trace (step hexdigest p) (start p) labels, ∀ (r : ℕ) tenantId i k,
      t.post.requests[r]? = some ⟨tenantId, .asking i k⟩ →
      workspaceForTenant hexdigest tenantId = .ok (t.post.runtimes i).workspace ∧
      (t.pre.requests[r]? ≠ some ⟨tenantId, .asking i k⟩ →
        (t.post.runtimes i).runtime.ReadyFor k) ∧
      ∀ (r' : ℕ) tenantId' k', t.post.requests[r']? = some ⟨tenantId', .asking i k'⟩ →
        TellsApart hexdigest tenantId tenantId' → strip tenantId = strip tenantId' := by
  intro t ht r tenantId i k hrequest
  obtain ⟨hpre, hstep, hpost⟩ := trace_inv labels t ht
  have hworkspace := (hpost.held r tenantId _ i hrequest rfl).2
  refine ⟨hworkspace, fun hnew ↦ ?_, fun r' tenantId' k' hrequest' happart ↦ ?_⟩
  · exact ((effect_of_step hstep).asks hpre.sound hrequest).resolve_left hnew
  · have hworkspace' := (hpost.held r' tenantId' _ i hrequest' rfl).2
    have hne : ∀ {tenantId workspace : String},
        workspaceForTenant hexdigest tenantId = .ok workspace → strip tenantId ≠ "" := by
      intro tenantId workspace hok heq
      rw [workspaceForTenant, if_pos heq] at hok
      cases hok
    exact (workspaceForTenant_eq_iff happart (hne hworkspace) (hne hworkspace')).mp
      (hworkspace.trans hworkspace'.symm)

/-! ### Objects that are shared -/

theorem restarts_eq {t : Transition RAGService ServiceLabel} {i : ℕ} {call : RuntimeLabel}
    (h : t.pre.moved t.label = some (i, call)) : restarts i t = call.restarts := by
  rw [restarts, h, Option.any_some, beq_self_eq_true, Bool.true_and]

/-- A runtime builds one object, and another one for each restart. -/
theorem created_le (labels : List ServiceLabel) (i : ℕ) :
    ((run (step hexdigest p) (start p) labels).runtimes i).runtime.created ≤
      1 + (trace (step hexdigest p) (start p) labels).countP (restarts i) := by
  refine (Nat.le_add_right _ _).trans (run_le_add_countP (I := Inv hexdigest)
    (f := fun s ↦ (s.runtimes i).runtime.created + (s.runtimes i).runtime.toBuild) ?_
    (inv_start hexdigest p) labels)
  intro s label s' hs h
  have heffect := effect_of_step h
  refine ⟨hs.step heffect, ?_⟩
  obtain ⟨-, heq | ⟨call, hmoved, hstep⟩⟩ := heffect.runtime hs.fresh i
  · rw [heq]
    exact Nat.le_add_right _ _
  · rw [restarts_eq hmoved]
    exact RAGRuntime.built_step (hs.sound i) hstep

theorem Effect.keeps (h : Effect hexdigest p s label s') (hlabel : label ≠ .close)
    {workspace : String} {i : ℕ} (hi : s.registry.runtimes workspace = some i) :
    s'.registry.runtimes workspace = some i := by
  cases h with
  | create _ _ hnone =>
    have hne : workspace ≠ _ := fun heq ↦
      Option.some_ne_none _ (hi.symm.trans ((congrArg s.registry.runtimes heq).trans hnone))
    exact (Function.update_of_ne hne ..).trans hi
  | close => exact absurd rfl hlabel
  | arrive => exact hi
  | refuse => exact hi
  | find => exact hi
  | advance => exact hi
  | leave => exact hi
  | closeNext => exact hi

variable (hexdigest s) in
/-- Every request has the runtime that the registry has for its tenant. -/
def Current : Prop :=
  ∀ (r : ℕ) tenantId phase i, s.requests[r]? = some ⟨tenantId, phase⟩ →
    phase.runtime? = some i → ∃ workspace, workspaceForTenant hexdigest tenantId = .ok workspace ∧
      s.registry.runtimes workspace = some i

theorem Current.step (hs : s.Current hexdigest) (h : Effect hexdigest p s label s')
    (hlabel : label ≠ .close) : s'.Current hexdigest := by
  intro r tenantId phase i hrequest hphase
  rcases h.held hrequest hphase with ⟨r', old, hold, hi⟩ | hgot
  · obtain ⟨workspace, hworkspace, hregistry⟩ := hs r' tenantId old i hold hi
    exact ⟨workspace, hworkspace, h.keeps hlabel hregistry⟩
  · exact hgot

/-- What a request asks stays what the registry has for its workspace, and stays built. -/
private theorem asked_kept {labels : List ServiceLabel}
    (hguard : ∀ t ∈ trace (step hexdigest p) (start p) labels, t.label ≠ .close)
    {t : Transition RAGService ServiceLabel} (ht : t ∈ trace (step hexdigest p) (start p) labels)
    {r : ℕ} {tenantId : String} {i k : ℕ}
    (hr : t.post.requests[r]? = some ⟨tenantId, .asking i k⟩) :
    ∃ workspace, workspaceForTenant hexdigest tenantId = .ok workspace ∧
      (run (step hexdigest p) (start p) labels).registry.runtimes workspace = some i ∧
      k < ((run (step hexdigest p) (start p) labels).runtimes i).runtime.created := by
  obtain ⟨-, -, hinv, hcurrent⟩ := guarded_trace_invariant
    (I := fun s ↦ s.Inv hexdigest ∧ s.Current hexdigest)
    (fun _ _ _ hs hg h ↦ ⟨hs.1.step (effect_of_step h), hs.2.step (effect_of_step h) hg⟩)
    ⟨inv_start hexdigest p, fun _ _ _ _ h ↦ absurd h (by simp [start])⟩ hguard t ht
  obtain ⟨workspace, hok, hi⟩ := hcurrent r tenantId _ i hr rfl
  have hkeep : ∀ s label s',
      (s.Inv hexdigest ∧ s.registry.runtimes workspace = some i ∧
        k < (s.runtimes i).runtime.created) → label ≠ .close →
      step hexdigest p s label = some s' →
      s'.Inv hexdigest ∧ s'.registry.runtimes workspace = some i ∧
        k < (s'.runtimes i).runtime.created := by
    rintro s label s' ⟨hs, hregistry, hk⟩ hg h
    have heffect := effect_of_step h
    refine ⟨hs.step heffect, heffect.keeps hg hregistry, ?_⟩
    obtain ⟨-, heq | ⟨call, -, hstep⟩⟩ := heffect.runtime hs.fresh i
    · rwa [heq]
    · exact hk.trans_le (RAGRuntime.created_le_of_step hstep)
  obtain ⟨-, hend, hbuilt⟩ := guarded_run_of_post hkeep hguard t ht
    ⟨hinv, hi, hinv.asked r tenantId i k hr⟩
  exact ⟨workspace, hok, hend, hbuilt⟩

/-- **Requests share.** A runtime builds one LightRAG object, and another one only after a call of
`initialize` on it has failed or a `shutdown` has returned. If neither happens, and the registry is
not shut down, all requests of a workspace ask the same object in the whole run, also where one has
left before the other asks. -/
theorem asked_once (labels : List ServiceLabel) :
    (∀ i, ((run (step hexdigest p) (start p) labels).runtimes i).runtime.created ≤
      1 + (trace (step hexdigest p) (start p) labels).countP (restarts i)) ∧
    ((∀ t ∈ trace (step hexdigest p) (start p) labels,
        t.label ≠ .close ∧ ∀ move ∈ t.pre.moved t.label, move.2.restarts = false) →
      ∀ t ∈ trace (step hexdigest p) (start p) labels,
        ∀ t' ∈ trace (step hexdigest p) (start p) labels,
        ∀ (r r' : ℕ) tenantId tenantId' i j k l,
          t.post.requests[r]? = some ⟨tenantId, .asking i k⟩ →
          t'.post.requests[r']? = some ⟨tenantId', .asking j l⟩ →
          workspaceForTenant hexdigest tenantId = workspaceForTenant hexdigest tenantId' →
          (i, k) = (j, l)) := by
  refine ⟨created_le labels, fun hguard t ht t' ht' r r' tenantId tenantId' i j k l hr hr'
    hworkspace ↦ ?_⟩
  have hopen : ∀ t ∈ trace (step hexdigest p) (start p) labels, t.label ≠ .close :=
    fun t ht ↦ (hguard t ht).1
  obtain ⟨workspace, hok, hi, hk⟩ := asked_kept hopen ht hr
  obtain ⟨workspace', hok', hj, hl⟩ := asked_kept hopen ht' hr'
  -- the registry has one runtime for the workspace at the end of the run
  rw [hworkspace, hok', Except.ok.injEq] at hok
  subst hok
  obtain rfl := Option.some.inj (hi.symm.trans hj)
  -- and this runtime has built one object
  have hcount : (trace (step hexdigest p) (start p) labels).countP (restarts i) = 0 :=
    List.countP_eq_zero.mpr fun t ht hrestarts ↦ by
      obtain ⟨move, hmove, hcall⟩ := (Option.any_eq_true _ _).mp hrestarts
      rw [(hguard t ht).2 move hmove, Bool.and_false] at hcall
      exact Bool.false_ne_true hcall
  have hle := @created_le hexdigest p labels i
  rw [hcount] at hle
  have heq : k = l := by omega
  rw [heq]

/-- A call of `initialize` by a request, from the lock to its end. -/
def initializeLabels (request : ℕ) : List ServiceLabel :=
  .enter request :: (openingCall.tail ++ buildingCall ++
    [RuntimeLabel.ensured (some ⟨true, none⟩)]).map (.work request)

/-- Two requests of a tenant: the second one waits while the first one initializes. -/
def sharedLabels : List ServiceLabel :=
  [.arrive "acme", .arrive " acme", .lookup 0, .lookup 1] ++ initializeLabels 0 ++
    [.enter 1, .enter 0, .enter 1]

/-- The second request asks the object that the first one built, and that can be asked. -/
theorem sharedLabels_ready : ∃ t ∈ trace (step demoDigest fullPackages) (start fullPackages)
    sharedLabels, t.post.requests[1]? = some ⟨" acme", .asking 0 0⟩ ∧
      (t.post.runtimes 0).runtime.ReadyFor 0 := by
  obtain ⟨t, ht, hpost, hpre⟩ : ∃ t ∈ trace (step demoDigest fullPackages) (start fullPackages)
      sharedLabels, t.post.requests[1]? = some ⟨" acme", .asking 0 0⟩ ∧
        t.pre.requests[1]? ≠ some ⟨" acme", .asking 0 0⟩ := by
    decide +kernel
  exact ⟨t, ht, hpost, (asked_ready sharedLabels t ht 1 " acme" 0 0 hpost).2.1 hpre⟩

/-- Two requests of a tenant, one after the other. -/
def inTurnLabels : List ServiceLabel :=
  [.arrive "acme", .lookup 0] ++ initializeLabels 0 ++
    [.enter 0, .leave 0 (.ok ()), .arrive " acme", .lookup 1, .enter 1, .enter 1]

/-- The first request has left when the second one asks, and they ask one object. -/
theorem inTurnLabels_once :
    (run (step demoDigest fullPackages) (start fullPackages) inTurnLabels).requests =
      [⟨"acme", .ended (.ok ())⟩, ⟨" acme", .asking 0 0⟩] ∧
    ∀ t ∈ trace (step demoDigest fullPackages) (start fullPackages) inTurnLabels,
      ∀ t' ∈ trace (step demoDigest fullPackages) (start fullPackages) inTurnLabels,
      ∀ (r r' : ℕ) i j k l,
        t.post.requests[r]? = some ⟨"acme", .asking i k⟩ →
        t'.post.requests[r']? = some ⟨" acme", .asking j l⟩ → (i, k) = (j, l) := by
  refine ⟨by decide +kernel, fun t ht t' ht' r r' i j k l hr hr' ↦ ?_⟩
  exact (asked_once inTurnLabels).2 (by decide +kernel) t ht t' ht' r r' _ _ i j k l hr hr'
    (by decide +kernel)

end RAGService

end KnowledgeAlakazam
