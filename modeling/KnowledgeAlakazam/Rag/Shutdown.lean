import KnowledgeAlakazam.Rag.Requests

/-!
# The end of the application

When the application ends, `RAGRuntimeRegistry.shutdown` takes the runtimes out of the registry and
shuts them down one by one. It knows only what is in the registry. A runtime that a request still
has when the registry is cleared may be initialized again, and nobody shuts it down; and a storage
that a failed call of `initialize` has left open is missed by the runtime itself.

Both are excluded by a guard on the run (`Orderly`): the guard of the single runtime, and that the
registry is shut down between requests. Then at any time a workspace has one open object at most,
and when `shutdown` returns none is open (`shutdown_closes`).
-/

namespace KnowledgeAlakazam

namespace RAGService

variable {hexdigest : String → String} {p : RAGPackages} {s s' : RAGService} {label : ServiceLabel}

variable (s) in
def IsRegistered (i : ℕ) : Prop := s.registry.runtimes (s.runtimes i).workspace = some i

variable (s) in
/-- The registry is shut down when no request has a runtime; it finds no runtime while it is shut
down, and nothing raises meanwhile. -/
def Quiet : ServiceLabel → Prop
  | .close => ∀ request ∈ s.requests, request.phase.runtime? = none
  | .lookup _ => s.closing = []
  | .closeNext failure => failure = none
  | _ => True

instance (s : RAGService) (label : ServiceLabel) : Decidable (s.Quiet label) := by
  unfold Quiet
  split <;> infer_instance

variable (p) in
/-- The guard: no step of a runtime builds or opens on top of an object that a `shutdown` would then
miss, and the registry is shut down between requests. -/
structure Orderly (t : Transition RAGService ServiceLabel) : Prop where
  runtime : ∀ i call, t.pre.moved t.label = some (i, call) →
    RAGRuntime.Guarded p ⟨(t.pre.runtimes i).runtime, call, (t.post.runtimes i).runtime⟩
  quiet : t.pre.Quiet t.label

instance (t : Transition RAGService ServiceLabel) : Decidable (Orderly p t) :=
  decidable_of_iff ((∀ move ∈ t.pre.moved t.label, RAGRuntime.Guarded p
      ⟨(t.pre.runtimes move.1).runtime, move.2, (t.post.runtimes move.1).runtime⟩) ∧
      t.pre.Quiet t.label)
    ⟨fun h ↦ ⟨fun i call hmoved ↦ h.1 (i, call) hmoved, h.2⟩,
      fun h ↦ ⟨fun move hmoved ↦ h.runtime move.1 move.2 hmoved, h.quiet⟩⟩

variable (hexdigest p s) in
/-- Every open object is accounted for: its runtime is in the registry or is to be shut down. -/
structure Accounted : Prop where
  inv : s.Inv hexdigest
  current : s.Current hexdigest
  runtime : ∀ i, RAGRuntime.Inv p (s.runtimes i).runtime
  known : ∀ i k, (s.runtimes i).runtime.Open k → s.IsRegistered i ∨ i ∈ s.closing
  cleared : s.closing ≠ [] → ∀ workspace, s.registry.runtimes workspace = none
  distinct : ∀ i ∈ s.closing, ∀ j ∈ s.closing,
    (s.runtimes i).workspace = (s.runtimes j).workspace → i = j

theorem accounted_start (hexdigest : String → String) (p : RAGPackages) :
    (start p).Accounted hexdigest p where
  inv := inv_start hexdigest p
  current _ _ _ _ h := absurd h (by simp [start])
  runtime _ := RAGRuntime.inv_start p
  known _ _ h := absurd h.1 (by simp [start, RAGRuntime.start])
  cleared h := absurd rfl h
  distinct _ h := absurd h List.not_mem_nil

theorem mem_registered {i : ℕ} : i ∈ s.registered ↔ s.IsRegistered i := by
  rw [registered, List.mem_filter, List.mem_range, decide_eq_true_iff]
  exact ⟨fun h ↦ h.2, fun h ↦ ⟨s.registry.lt_created h, h⟩⟩

variable (hp : p.lightragFinalizes = true)

include hp in
theorem Accounted.runtime_step (hs : s.Accounted hexdigest p)
    (h : Effect hexdigest p s label s') (hguard : Orderly p ⟨s, label, s'⟩) (i : ℕ) :
    RAGRuntime.Inv p (s'.runtimes i).runtime := by
  obtain ⟨-, heq | ⟨call, hmoved, hstep⟩⟩ := h.runtime hs.inv.fresh i
  · rw [heq]
    exact hs.runtime i
  · exact RAGRuntime.inv_step hp (hs.runtime i) (hguard.runtime i call hmoved) hstep

theorem Accounted.keep (hs : s.Accounted hexdigest p) (h : Effect hexdigest p s label s')
    (hruntime : ∀ i, RAGRuntime.Inv p (s'.runtimes i).runtime) (hlabel : label ≠ .close)
    (hclosing : s'.closing = s.closing) (hregistry : s.closing ≠ [] → s'.registry = s.registry)
    (hmoved : ∀ i call, s.moved label = some (i, call) → s.IsRegistered i) :
    s'.Accounted hexdigest p := by
  have hworkspace : ∀ i < s.registry.created,
      (s'.runtimes i).workspace = (s.runtimes i).workspace :=
    fun i hi ↦ (h.runtime hs.inv.fresh i).1 hi
  have hregistered : ∀ i, s.IsRegistered i → s'.IsRegistered i := fun i hi ↦ by
    rw [IsRegistered, hworkspace i (s.registry.lt_created hi)]
    exact h.keeps hlabel hi
  refine ⟨hs.inv.step h, hs.current.step h hlabel, hruntime, fun i k hopen ↦ ?_, ?_, ?_⟩
  · obtain ⟨-, heq | ⟨call, hcall, -⟩⟩ := h.runtime hs.inv.fresh i
    · rw [heq] at hopen
      rw [hclosing]
      exact (hs.known i k hopen).imp_left (hregistered i)
    · exact .inl (hregistered i (hmoved i call hcall))
  · rw [hclosing]
    intro hne
    rw [hregistry hne]
    exact hs.cleared hne
  · rw [hclosing]
    intro i hi j hj heq
    rw [hworkspace i (hs.inv.closing i hi), hworkspace j (hs.inv.closing j hj)] at heq
    exact hs.distinct i hi j hj heq

theorem Accounted.close (hs : s.Accounted hexdigest p)
    (h : Effect hexdigest p s .close s') (hruntimes : s'.runtimes = s.runtimes)
    (hrequests : s'.requests = s.requests) (hclosing : s'.closing = s.registered)
    (hempty : s.closing = []) (hregistry : ∀ workspace, s'.registry.runtimes workspace = none)
    (hidle : ∀ request ∈ s.requests, request.phase.runtime? = none) :
    s'.Accounted hexdigest p where
  inv := hs.inv.step h
  current r tenantId phase i hrequest hphase := by
    rw [hrequests] at hrequest
    have hnone := hidle _ (List.mem_of_getElem? hrequest)
    exact absurd (hphase.symm.trans hnone) (Option.some_ne_none _)
  runtime i := hruntimes ▸ hs.runtime i
  known i k hopen := by
    rw [hruntimes] at hopen
    rcases hs.known i k hopen with hi | hi
    · exact .inr (hclosing ▸ mem_registered.mpr hi)
    · exact absurd (hempty ▸ hi) List.not_mem_nil
  cleared _ := hregistry
  distinct i hi j hj heq := by
    rw [hclosing] at hi hj
    rw [hruntimes] at heq
    have hi' : s.registry.runtimes (s.runtimes i).workspace = some i := mem_registered.mp hi
    have hj' : s.registry.runtimes (s.runtimes j).workspace = some j := mem_registered.mp hj
    have hsame : some i = some j := by
      calc some i = s.registry.runtimes (s.runtimes i).workspace := hi'.symm
        _ = s.registry.runtimes (s.runtimes j).workspace := congrArg s.registry.runtimes heq
        _ = some j := hj'
    exact Option.some.inj hsame

/-- The next runtime is shut down: nothing of it is open then. -/
theorem Accounted.closeNext (hs : s.Accounted hexdigest p)
    (h : Effect hexdigest p s (.closeNext none) s')
    (hruntime : ∀ i, RAGRuntime.Inv p (s'.runtimes i).runtime)
    {i : ℕ} {rest : List ℕ} (hclosing : s.closing = i :: rest) (hrest : s'.closing = rest)
    (hregistry : s'.registry = s.registry)
    (hshut : ∀ k, ¬ (s'.runtimes i).runtime.Open k) : s'.Accounted hexdigest p := by
  have hcleared := hs.cleared (by rw [hclosing]; exact List.cons_ne_nil _ _)
  have hmem : ∀ j ∈ rest, j ∈ s.closing := fun j hj ↦ hclosing ▸ List.mem_cons_of_mem _ hj
  have hworkspace : ∀ j ∈ rest, (s'.runtimes j).workspace = (s.runtimes j).workspace :=
    fun j hj ↦ (h.runtime hs.inv.fresh j).1 (hs.inv.closing j (hmem j hj))
  refine ⟨hs.inv.step h, hs.current.step h (by simp), hruntime, fun j k hopen ↦ ?_, ?_, ?_⟩
  · obtain ⟨-, heq | ⟨call, hcall, -⟩⟩ := h.runtime hs.inv.fresh j
    · rcases hs.known j k (heq ▸ hopen) with hj | hj
      · exact absurd hj (by simp [IsRegistered, hcleared])
      · rcases List.mem_cons.mp (hclosing ▸ hj) with rfl | hj
        · exact absurd hopen (hshut k)
        · exact .inr (hrest ▸ hj)
    -- the runtime that moved is the one that was shut down
    · rw [moved, hclosing] at hcall
      obtain ⟨rfl, -⟩ := Prod.mk.inj (Option.some.inj hcall)
      exact absurd hopen (hshut k)
  · rw [hregistry]
    exact fun _ ↦ hcleared
  · rw [hrest]
    intro j hj j' hj' heq
    rw [hworkspace j hj, hworkspace j' hj'] at heq
    exact hs.distinct j (hmem j hj) j' (hmem j' hj') heq

include hp in
/-- **Every orderly step keeps the account.** -/
theorem Accounted.step (hs : s.Accounted hexdigest p) (h : s.step hexdigest p label = some s')
    (hguard : Orderly p ⟨s, label, s'⟩) : s'.Accounted hexdigest p := by
  have heffect := effect_of_step h
  have hruntime := hs.runtime_step hp heffect hguard
  have hnone : ∀ {label : ServiceLabel}, s.moved label = none →
      ∀ i call, s.moved label = some (i, call) → s.IsRegistered i := fun hnone _ _ hmoved ↦
    absurd (hmoved.symm.trans hnone) (Option.some_ne_none _)
  cases heffect with
  | arrive => exact hs.keep .arrive hruntime (by simp) rfl (fun _ ↦ rfl) (hnone rfl)
  | refuse => exact hs.keep .refuse hruntime (by simp) rfl (fun _ ↦ rfl) (hnone rfl)
  | find hrequest hworkspace hi =>
    exact hs.keep (.find hrequest hworkspace hi) hruntime (by simp) rfl (fun _ ↦ rfl) (hnone rfl)
  | create hrequest hworkspace hfree =>
    exact hs.keep (.create hrequest hworkspace hfree) hruntime (by simp) rfl
      (fun hne ↦ absurd hguard.quiet hne) (hnone rfl)
  | @advance _ r i tenantId phase again call runtime hrequest hphase hmoved hcall hstep =>
    have hlabel : label ≠ .close := by
      rintro rfl
      exact Option.some_ne_none _ hmoved.symm
    refine hs.keep (.advance hrequest hphase hmoved hcall hstep) hruntime hlabel rfl
      (fun _ ↦ rfl) fun j call' hmoved' ↦ ?_
    obtain ⟨rfl, -⟩ := Prod.mk.inj (Option.some.inj (hmoved.symm.trans hmoved'))
    obtain ⟨workspace, -, hregistry⟩ := hs.current r tenantId phase i hrequest hphase
    rw [IsRegistered, hs.inv.registered workspace i hregistry]
    exact hregistry
  | leave => exact hs.keep .leave hruntime (by simp) rfl (fun _ ↦ rfl) (hnone rfl)
  | close hclosing hruntimes hcreated =>
    exact hs.close (.close hclosing hruntimes hcreated) rfl rfl rfl hclosing hruntimes hguard.quiet
  | @closeNext i rest closing failure runtime hclosing hstep hrest =>
    -- no finalize fails here, so what the registry shuts down is closed
    obtain rfl : failure = none := hguard.quiet
    have hafter := hruntime i
    have heq : (s.setRuntime i runtime).runtimes i = ⟨(s.runtimes i).workspace, runtime⟩ :=
      Function.update_self ..
    dsimp only at hafter
    rw [heq] at hafter
    refine hs.closeNext (.closeNext hclosing hstep hrest) hruntime hclosing hrest rfl fun k ↦ ?_
    dsimp only
    rw [heq]
    exact (RAGRuntime.noLeak_of_inv (hs.runtime i) hafter hstep).shutdown rfl k

theorem Accounted.unique (hs : s.Accounted hexdigest p) {i j k l : ℕ}
    (hk : (s.runtimes i).runtime.Open k) (hl : (s.runtimes j).runtime.Open l)
    (hworkspace : (s.runtimes i).workspace = (s.runtimes j).workspace) : (i, k) = (j, l) := by
  have hempty : ∀ {i j : ℕ}, i ∈ s.closing → ¬ s.IsRegistered j := fun hi hj ↦ by
    rw [IsRegistered, hs.cleared (List.ne_nil_of_mem hi)] at hj
    exact Option.some_ne_none _ hj.symm
  have hij : i = j := by
    rcases hs.known i k hk with hi | hi
    · rcases hs.known j l hl with hj | hj
      · rw [IsRegistered, hworkspace] at hi
        exact Option.some.inj (hi.symm.trans hj)
      · exact absurd hi (hempty hj)
    · rcases hs.known j l hl with hj | hj
      · exact absurd hj (hempty hi)
      · exact hs.distinct i hi j hj hworkspace
  subst hij
  rw [(hs.runtime i).unique hk hl]

/-- `RAGRuntimeRegistry.shutdown` returns. -/
def ShutdownReturns (t : Transition RAGService ServiceLabel) : Prop :=
  t.post.closing = [] ∧ (t.label = .close ∨ t.label = .closeNext none)

theorem Accounted.cleared_step (hs : s.Accounted hexdigest p)
    (h : Effect hexdigest p s label s') (hlabel : label = .close ∨ label = .closeNext none)
    (workspace : String) : s'.registry.runtimes workspace = none := by
  rcases hlabel with rfl | rfl
  · cases h with
    | advance _ _ hmoved => exact absurd hmoved (Option.some_ne_none _).symm
    | close _ hruntimes => exact hruntimes workspace
  · cases h with
    | advance _ _ hmoved hcall =>
      obtain ⟨j, -, heq⟩ := Option.map_eq_some_iff.mp hmoved
      exact absurd (Prod.mk.inj heq).2.symm (hcall none)
    | closeNext hclosing =>
      refine hs.cleared ?_ workspace
      rw [hclosing]
      exact List.cons_ne_nil _ _

include hp in
/-- **What is open in the application.** In a run of orderly steps a workspace has one open object
at most, and when `shutdown` returns none is open. -/
theorem shutdown_closes (labels : List ServiceLabel)
    (hguard : ∀ t ∈ trace (step hexdigest p) (start p) labels, Orderly p t) :
    ∀ t ∈ trace (step hexdigest p) (start p) labels,
      (∀ i j k l, (t.post.runtimes i).runtime.Open k → (t.post.runtimes j).runtime.Open l →
        (t.post.runtimes i).workspace = (t.post.runtimes j).workspace → (i, k) = (j, l)) ∧
      (ShutdownReturns t → ∀ i k, ¬ (t.post.runtimes i).runtime.Open k) := by
  intro t ht
  obtain ⟨hpre, hstep, hpost⟩ := guarded_trace_invariant
    (I := fun s ↦ s.Accounted hexdigest p) (fun _ _ _ hs hg h ↦ hs.step hp h hg)
    (accounted_start hexdigest p) hguard t ht
  refine ⟨fun i j k l ↦ hpost.unique, fun ⟨hclosing, hlabel⟩ i k hopen ↦ ?_⟩
  rcases hpost.known i k hopen with hi | hi
  · rw [IsRegistered, hpre.cleared_step (effect_of_step hstep) hlabel] at hi
    exact Option.some_ne_none _ hi.symm
  · exact absurd (hclosing ▸ hi) List.not_mem_nil

/-- The application of `sharedLabels` ends. -/
def closedLabels : List ServiceLabel :=
  sharedLabels ++ [.leave 0 (.ok ()), .leave 1 (.ok ()), .close, .closeNext none]

/-- The object was open, and it is not when the application has ended. -/
theorem closedLabels_closes :
    ∃ t ∈ trace (step demoDigest fullPackages) (start fullPackages) closedLabels,
      ShutdownReturns t ∧ 0 ∈ (t.post.runtimes 0).runtime.opened ∧
        ∀ i k, ¬ (t.post.runtimes i).runtime.Open k := by
  obtain ⟨t, ht, hclosing, hlabel, hopened⟩ :
      ∃ t ∈ trace (step demoDigest fullPackages) (start fullPackages) closedLabels,
        t.post.closing = [] ∧ t.label = .closeNext none ∧
          0 ∈ (t.post.runtimes 0).runtime.opened := by
    decide +kernel
  have hguard : ∀ t ∈ trace (step demoDigest fullPackages) (start fullPackages) closedLabels,
      Orderly fullPackages t := by
    decide +kernel
  exact ⟨t, ht, ⟨hclosing, .inr hlabel⟩, hopened,
    (shutdown_closes rfl closedLabels hguard t ht).2 ⟨hclosing, .inr hlabel⟩⟩

/-- A request that got its runtime before the registry was cleared opens it again, and for good. -/
example : ((run (step demoDigest fullPackages) (start fullPackages)
    ([.arrive "acme", .lookup 0, .close, .closeNext none] ++ initializeLabels 0 ++
      [.enter 0, .leave 0 (.ok ()), .close])).runtimes 0).runtime.Open 0 := by
  decide +kernel

end RAGService

end KnowledgeAlakazam
