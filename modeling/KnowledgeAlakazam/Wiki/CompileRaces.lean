import KnowledgeAlakazam.Wiki.Compiler
import KnowledgeAlakazam.Wiki.Links
import Mathlib.Logic.Function.Basic

/-!
# Do the claims belong to the compiled revision?

A compile writes its revision in one transaction and then asks for the current revision of the
page again for every claim, each time in a transaction of its own. The system here has any number
of compiles and calls of the service that take turns, a whole transaction at a time.

`claimsBelong_of_current`: the claims of a compile that returned are attached to the revision it
reports, and their number is the one it reports, in every run in which the page still points to
that revision whenever the compile adds a claim. The failing run, in which an edit lands between
the page and its claims, is `claims_redirected`.
-/

namespace KnowledgeAlakazam

open Program WikiRepository WikiCompiler

/-! ## A compile, transaction by transaction -/

/-- The next transaction of a compile. While claims are added, `created` lists the ids of those
that are there and `rest` the texts of those to come. -/
inductive CompilePc where
  | idle
  | jobCreated (request : CompileRequest) (job : WikiCompileJob)
  | querying (request : CompileRequest) (job : WikiCompileJob)
  | claiming (request : CompileRequest) (job : WikiCompileJob) (written : PageWritten)
    (created : List ℕ) (rest : List (List Char))
  | failing (job : WikiCompileJob) (e : PyException)
  | returned (page : WikiCompiledPage) (created : List ℕ)
  | raised

section Model

variable (unicode : UnicodeData)

/-- The next transaction, and where the compile is when it has returned. The title is read in the
transaction that writes the page. -/
def CompilePc.program (call : CompileCall) (answer : Except PyException RAGQueryResult) :
    CompilePc → Option (WikiProgram CompilePc)
  | idle => some do
    let request ← ofExcept (call.request unicode)
    let job ← transaction
      (createCompileJob request.tenantId request.jobSourceId (some request.slug))
    return .jobCreated request job
  | jobCreated request job => some do
    let job ← transaction (markCompileJobProcessing job.id)
    return .querying request job
  | querying request job => some do
    let evidence ← searchEvidence unicode request answer
    let written ← writePage unicode request.tenantId request.slug evidence (some request.title)
    return .claiming request job written [] written.claims
  | claiming request job written created (claimText :: rest) => some do
    let bundle ← addClaim unicode request.tenantId written claimText
    return .claiming request job written (created ++ [bundle.claim.id]) rest
  | claiming _ job written created [] => some do
    let _ ← markJobSucceeded job.id
    return .returned written.compiledPage created
  | failing job e => some (markJobFailed job.id e)
  | returned _ _ => none
  | raised => none

/-- Where the compile is when the transaction has raised: an error before the job was started goes
to the caller, a later one to the handler first. The handler reads the id of the job, which a
rollback has expired, and then goes no further. -/
def CompilePc.handler (e : PyException) (rollbacks : ℕ) : CompilePc → CompilePc
  | querying _ job => if rollbacks = 0 then .failing job e else .raised
  | claiming _ job _ _ _ => if rollbacks = 0 then .failing job e else .raised
  | idle | jobCreated _ _ | failing _ _ | returned _ _ | raised => .raised

structure RaceState where
  store : WikiStore
  nextId : ℕ
  compiles : ℕ → CompilePc

/-- A call of the service, or the next transaction of a compile; with the ends of its
statements. -/
inductive RaceLabel where
  | call (label : WikiLabel)
  | compile (c : ℕ) (outcomes : List (Option PyException))

/-- A store, and compiles that have not begun. -/
def RaceState.initial (store : WikiStore) (nextId : ℕ) : RaceState :=
  ⟨store, nextId, fun _ ↦ .idle⟩

/-- The compile is at another transaction, and the database is what the session left. -/
def RaceState.put (s : RaceState) (session : Session WikiStore PyException) (c : ℕ)
    (pc : CompilePc) : RaceState :=
  ⟨session.committed, session.nextId, Function.update s.compiles c pc⟩

variable (calls : ℕ → CompileCall) (answers : ℕ → Except PyException RAGQueryResult)

def RaceState.step (s : RaceState) : RaceLabel → Option RaceState
  | .call label =>
    (WikiState.step unicode ⟨s.store, s.nextId⟩ label).map fun after ↦
      { s with store := after.store, nextId := after.nextId }
  | .compile c outcomes =>
    ((s.compiles c).program unicode (calls c) (answers c)).map fun program ↦
      match program (Session.start s.store s.nextId outcomes) with
      | (.ok pc, session) => s.put session c pc
      | (.error e, session) => s.put session c ((s.compiles c).handler e session.rollbacks)

/-! ## The law and its condition -/

/-- If the compile has returned, every claim it created is attached to the revision it reports, and
the number of those claims is the one it reports. -/
def ClaimsBelong (s : RaceState) (c : ℕ) : Prop :=
  match s.compiles c with
  | .returned page created =>
    (∀ id ∈ created, (s.store.claims.find id).map WikiClaim.revisionId = some page.revisionId) ∧
      (s.store.claims.rows.filter fun claim ↦
        claim.id ∈ created ∧ claim.revisionId = page.revisionId).length = page.claimCount
  | _ => True

/-- If the transition is the transaction of a claim of the compile, the page points to the revision
that the compile has written. -/
def OnOwnRevision (c : ℕ) (t : Transition RaceState RaceLabel) : Prop :=
  match t.label, t.pre.compiles c with
  | .compile c' _, .claiming request _ written _ (_ :: _) =>
    c' = c → ∀ slug ∈ (requireSlug unicode written.slug).toOption,
      ∀ revision ∈ t.pre.store.currentRevision request.tenantId slug,
        revision.id = written.revision.id
  | _, _ => True

instance (s : RaceState) (c : ℕ) : Decidable (ClaimsBelong s c) := by
  unfold ClaimsBelong
  split <;> infer_instance

instance (c : ℕ) (t : Transition RaceState RaceLabel) : Decidable (OnOwnRevision unicode c t) := by
  unfold OnOwnRevision
  split <;> infer_instance

end Model

/-! ## What a transaction does -/

section Moves

variable {unicode : UnicodeData} {W W' : WikiStore}

def ClaimsGrow (W W' : WikiStore) : Prop :=
  ∀ id claim, W.claims.find id = some claim → W'.claims.find id = some claim

theorem ClaimsGrow.of_eq (h : W'.claims = W.claims) : ClaimsGrow W W' := by
  intro id claim hclaim
  rw [h]
  exact hclaim

theorem ClaimAdded.claimsGrow {tenantId slug : String} {claim : WikiClaim}
    (h : ClaimAdded W W' tenantId slug claim) : ClaimsGrow W W' := by
  intro id old hold
  refine (Table.find_insert h.claims id).trans ((if_neg ?_).trans hold)
  rintro rfl
  exact nomatch (Table.find_none_of_insert h.claims).symm.trans hold

theorem CallEffect.claims {s : WikiState} {label : WikiLabel}
    (h : CallEffect unicode s label W') : W'.claims = s.store.claims := by
  have hwritten : ∀ {W₁ W₂ : WikiStore} {tenantId : String} {page : WikiPage}
      {c : RevisionContent} {detail : WikiPageDetail},
      WikiService.Written unicode W₁ W₂ tenantId page c detail → W₂.claims = W₁.claims := by
    rintro W₁ W₂ tenantId page c detail ⟨revision, -, W₃, hadded, hlinks⟩
    obtain ⟨-, -, revisions, -, rfl⟩ := hadded
    rw [hlinks.store]
  cases h with
  | raised => rfl
  | updated hok hcall hprep h => exact (hwritten h).trans (by rw [hprep.store])
  | revised hok hcall hpage h => exact hwritten h
  | published => rfl

/-- The transactions of a compile that return. -/
inductive CompileMove (unicode : UnicodeData) (W W' : WikiStore) : CompilePc → CompilePc → Prop
  | created {request : CompileRequest} {job : WikiCompileJob} (h : SameContent W W') :
    CompileMove unicode W W' .idle (.jobCreated request job)
  | processing {request : CompileRequest} {job job' : WikiCompileJob} (h : SameContent W W') :
    CompileMove unicode W W' (.jobCreated request job) (.querying request job')
  | wrote {request : CompileRequest} {job : WikiCompileJob} {written : PageWritten}
    (h : WrittenPage unicode W W' request.tenantId written) :
    CompileMove unicode W W' (.querying request job)
      (.claiming request job written [] written.claims)
  | claimed {request : CompileRequest} {job : WikiCompileJob} {written : PageWritten}
    {created : List ℕ} {claimText : List Char} {rest : List (List Char)} {slug : String}
    {claim : WikiClaim} (hslug : requireSlug unicode written.slug = .ok slug)
    (h : ClaimAdded W W' request.tenantId slug claim) :
    CompileMove unicode W W' (.claiming request job written created (claimText :: rest))
      (.claiming request job written (created ++ [claim.id]) rest)
  | finished {request : CompileRequest} {job : WikiCompileJob} {written : PageWritten}
    {created : List ℕ} (h : SameContent W W') :
    CompileMove unicode W W' (.claiming request job written created [])
      (.returned written.compiledPage created)

theorem CompileMove.claimsGrow {pc pc' : CompilePc} (h : CompileMove unicode W W' pc pc') :
    ClaimsGrow W W' := by
  cases h with
  | created h => exact .of_eq (by rw [h])
  | processing h => exact .of_eq (by rw [h])
  | finished h => exact .of_eq (by rw [h])
  | claimed hslug h => exact h.claimsGrow
  | wrote h =>
    obtain ⟨resolved, update, page, W₁, -, -, hprep, hwritten⟩ := h.page
    obtain ⟨revision, -, W₂, hadded, hlinks⟩ := hwritten.detail
    obtain ⟨-, -, revisions, -, rfl⟩ := hadded
    exact .of_eq (by rw [hlinks.store, hprep.store])

/-- A transaction of a compile is one of these, or it raises and changes compile jobs at most. -/
theorem outTx_program (W : WikiStore) {call : CompileCall}
    {answer : Except PyException RAGQueryResult} {pc : CompilePc} {program : WikiProgram CompilePc}
    (h : pc.program unicode call answer = some program) :
    OutTx program W (fun pc' W' ↦ CompileMove unicode W W' pc pc')
      fun _ W' ↦ SameContent W W' := by
  -- Each program is one unit of work, so an error means that it has written nothing.
  cases pc with
  | idle =>
    obtain rfl := Option.some.inj h
    refine (OutTx.ofExcept (Q := fun _ W' ↦ W = W') (fun _ _ ↦ rfl)
      fun _ _ ↦ SameContent.refl W).bind ?_
    rintro request _ rfl
    refine (OutTx.transaction (inTx_createCompileJob W request.tenantId request.jobSourceId
      (some request.slug)) fun _ ↦ SameContent.refl W).bind fun job W' h ↦ ?_
    exact OutTx.pure (.created h)
  | jobCreated request job =>
    obtain rfl := Option.some.inj h
    refine (OutTx.transaction (inTx_updateCompileJobStatus W job.id "processing" none)
      fun _ ↦ SameContent.refl W).bind fun job' W' h ↦ ?_
    exact OutTx.pure (.processing h)
  | querying request job =>
    obtain rfl := Option.some.inj h
    refine ((outTx_searchEvidence unicode W request answer).mono (fun _ _ h ↦ h) ?_).bind ?_
    · rintro e _ rfl
      exact SameContent.refl W
    rintro evidence _ rfl
    refine ((outTx_writePage unicode W _ _ evidence _).mono (fun _ _ h ↦ h) ?_).bind ?_
    · rintro e _ rfl
      exact SameContent.refl W
    intro written W' h
    exact OutTx.pure (.wrote h)
  | claiming request job written created rest =>
    cases rest with
    | nil =>
      obtain rfl := Option.some.inj h
      refine (outTx_markJobSucceeded W job.id).bind fun job' W' h ↦ ?_
      exact OutTx.pure (.finished h)
    | cons claimText rest =>
      obtain rfl := Option.some.inj h
      refine ((WikiService.outTx_addClaimWithSources unicode W _ _ claimText _ _ _).mono
        (fun _ _ h ↦ h) ?_).bind ?_
      · rintro e _ rfl
        exact SameContent.refl W
      rintro bundle W' ⟨slug, hslug, hadded, -⟩
      exact OutTx.pure (.claimed hslug hadded)
  | failing job e =>
    obtain rfl := Option.some.inj h
    exact (outTx_markJobFailed W job.id e).mono (fun _ _ h ↦ h.elim) fun _ _ h ↦ h
  | returned | raised => exact nomatch h

end Moves

/-! ## The invariant -/

/-- The claims a compile has created so far are distinct, as many as it says, and attached to its
revision. -/
def Attached (s : RaceState) (c : ℕ) : Prop :=
  match s.compiles c with
  | .claiming _ _ written created rest => created.Nodup ∧
    created.length + rest.length = written.claims.length ∧
    ∀ id ∈ created, (s.store.claims.find id).map WikiClaim.revisionId = some written.revision.id
  | .returned page created => created.Nodup ∧ created.length = page.claimCount ∧
    ∀ id ∈ created, (s.store.claims.find id).map WikiClaim.revisionId = some page.revisionId
  | _ => True

section Invariant

variable {unicode : UnicodeData} {calls : ℕ → CompileCall}
  {answers : ℕ → Except PyException RAGQueryResult} {s s' : RaceState} {label : RaceLabel} {c : ℕ}

private theorem revisionId_of_grow {W W' : WikiStore} (hgrow : ClaimsGrow W W') {id i : ℕ}
    (h : (W.claims.find id).map WikiClaim.revisionId = some i) :
    (W'.claims.find id).map WikiClaim.revisionId = some i := by
  obtain ⟨claim, hclaim, hrevision⟩ := Option.map_eq_some_iff.mp h
  rw [hgrow id claim hclaim, Option.map_some, hrevision]

theorem Attached.other (h : Attached s c) (hgrow : ClaimsGrow s.store s'.store)
    (hsame : s'.compiles c = s.compiles c) : Attached s' c := by
  unfold Attached at h ⊢
  rw [hsame]
  split at h
  · exact ⟨h.1, h.2.1, fun id hid ↦ revisionId_of_grow hgrow (h.2.2 id hid)⟩
  · exact ⟨h.1, h.2.1, fun id hid ↦ revisionId_of_grow hgrow (h.2.2 id hid)⟩
  · trivial

/-- A transaction of the compile that returns. -/
theorem Attached.move (h : Attached s c) {pc' : CompilePc} (hpc' : s'.compiles c = pc')
    (hmove : CompileMove unicode s.store s'.store (s.compiles c) pc')
    {outcomes : List (Option PyException)}
    (hown : OnOwnRevision unicode c ⟨s, .compile c outcomes, s'⟩) :
    Attached s' c := by
  have hgrow := hmove.claimsGrow
  unfold Attached at h ⊢
  rw [hpc']
  generalize hpc : s.compiles c = pc at h hmove
  cases hmove with
  | created | processing => trivial
  | @wrote request job written hwritten =>
    exact ⟨List.nodup_nil, by rw [List.length_nil, Nat.zero_add], fun _ h ↦ nomatch h⟩
  | @finished request job written created hsame =>
    obtain ⟨hnodup, hlength, hids⟩ := h
    rw [List.length_nil, Nat.add_zero] at hlength
    exact ⟨hnodup, hlength, fun id hid ↦ revisionId_of_grow hgrow (hids id hid)⟩
  | @claimed request job written created claimText rest slug claim hslug hadded =>
    obtain ⟨hnodup, hlength, hids⟩ := h
    obtain ⟨page, revision, hpage, hcurrent, -, hclaim⟩ := hadded.revision
    have hfresh : claim.id ∉ created := by
      intro hmem
      obtain ⟨old, hold, -⟩ := Option.map_eq_some_iff.mp (hids claim.id hmem)
      exact nomatch (Table.find_none_of_insert hadded.claims).symm.trans hold
    refine ⟨List.nodup_append.mpr ⟨hnodup, List.nodup_singleton _, ?_⟩, ?_, ?_⟩
    · rintro a ha b hb rfl
      exact hfresh (List.mem_singleton.mp hb ▸ ha)
    · rw [← hlength, List.length_append, List.length_singleton, List.length_cons]
      omega
    · intro id hid
      rcases List.mem_append.mp hid with hold | hnew
      · exact revisionId_of_grow hgrow (hids id hold)
      · -- the new claim is attached to the current revision, which is the compile's own
        unfold OnOwnRevision at hown
        dsimp only at hown
        rw [hpc] at hown
        have hrevision : revision.id = written.revision.id :=
          hown rfl slug (by rw [hslug]; rfl) revision
            (by rw [WikiStore.currentRevision, hpage]; exact hcurrent)
        rw [List.mem_singleton.mp hnew, Table.find_insert hadded.claims,
          if_pos (show Row.primary claim = claim.id from rfl), Option.map_some, hclaim, hrevision]

theorem Attached.handler {pc : CompilePc} {e : PyException} {rollbacks : ℕ}
    (h : s'.compiles c = pc.handler e rollbacks) : Attached s' c := by
  have hpc : (∃ job, pc.handler e rollbacks = .failing job e) ∨
      pc.handler e rollbacks = .raised := by
    cases pc with
    | querying _ job => exact (ite_eq_or_eq (rollbacks = 0) _ _).imp_left fun h ↦ ⟨job, h⟩
    | claiming _ job _ _ _ => exact (ite_eq_or_eq (rollbacks = 0) _ _).imp_left fun h ↦ ⟨job, h⟩
    | idle | jobCreated | failing | returned | raised => exact .inr rfl
  unfold Attached
  rcases hpc with ⟨job, hpc⟩ | hpc
  · rw [h, hpc]
    trivial
  · rw [h, hpc]
    trivial

/-- **One transaction** keeps the account of a compile, if its claims go to its own revision. -/
theorem Attached.step (h : Attached s c) (hown : OnOwnRevision unicode c ⟨s, label, s'⟩)
    (hstep : RaceState.step unicode calls answers s label = some s') : Attached s' c := by
  cases label with
  | call label =>
    unfold RaceState.step at hstep
    obtain ⟨after, hafter, rfl⟩ := Option.map_eq_some_iff.mp hstep
    refine h.other (.of_eq ?_) rfl
    exact (WikiState.effect_of_step hafter).claims
  | compile c' outcomes =>
    unfold RaceState.step at hstep
    obtain ⟨program, hprogram, hs'⟩ := Option.map_eq_some_iff.mp hstep
    -- A unit of work of a compile: its own progress if it is the compile that is followed, and
    -- otherwise only claims that are added.
    have hout := outTx_program s.store hprogram
    have hidle := Session.idle_start s.store s.nextId outcomes
    rcases hrun : program (Session.start s.store s.nextId outcomes) with ⟨e | pc', session⟩
    · rw [hrun] at hs'
      have hstore : s'.store = session.committed := by rw [← hs']; rfl
      have hsame : SameContent s.store s'.store := hstore ▸ hout.committed_error hidle hrun
      by_cases hc : c' = c
      · subst hc
        have hpc : s'.compiles c' = (s.compiles c').handler e session.rollbacks := by
          rw [← hs']
          exact Function.update_self ..
        exact Attached.handler hpc
      · refine h.other (.of_eq (by rw [hsame])) ?_
        rw [← hs']
        exact Function.update_of_ne (Ne.symm hc) ..
    · rw [hrun] at hs'
      have hstore : s'.store = session.committed := by rw [← hs']; rfl
      have hmove : CompileMove unicode s.store s'.store (s.compiles c') pc' :=
        hstore ▸ hout.committed_ok hidle hrun
      by_cases hc : c' = c
      · subst hc
        refine h.move ?_ hmove hown
        rw [← hs']
        exact Function.update_self ..
      · refine h.other hmove.claimsGrow ?_
        rw [← hs']
        exact Function.update_of_ne (Ne.symm hc) ..

private theorem length_filter_claims {claims : Table WikiClaim} {created : List ℕ} {i : ℕ}
    (hnodup : created.Nodup)
    (hids : ∀ id ∈ created, (claims.find id).map WikiClaim.revisionId = some i) :
    (claims.rows.filter fun claim ↦ claim.id ∈ created ∧ claim.revisionId = i).length
      = created.length := by
  rw [← List.length_map (f := WikiClaim.id)]
  refine List.Perm.length_eq ((List.perm_ext_iff_of_nodup ?_ hnodup).mpr fun id ↦ ?_)
  · exact claims.primary_nodup.sublist (List.filter_sublist.map _)
  · constructor
    · intro h
      obtain ⟨claim, hclaim, rfl⟩ := List.mem_map.mp h
      have hmem := (List.mem_filter.mp hclaim).2
      exact (of_decide_eq_true hmem).1
    · intro h
      obtain ⟨claim, hclaim, hrevision⟩ := Option.map_eq_some_iff.mp (hids id h)
      have hid : claim.id = id := Table.primary_of_find hclaim
      refine List.mem_map.mpr ⟨claim, List.mem_filter.mpr ⟨Table.mem_of_find hclaim, ?_⟩, hid⟩
      exact decide_eq_true ⟨hid ▸ h, hrevision⟩

theorem Attached.claimsBelong (h : Attached s c) : ClaimsBelong s c := by
  unfold Attached at h
  unfold ClaimsBelong
  split
  · rename_i page created hpc
    rw [hpc] at h
    obtain ⟨hnodup, hlength, hids⟩ := h
    exact ⟨hids, (length_filter_claims hnodup hids).trans hlength⟩
  · trivial

end Invariant

/-! ## The law -/

section Law

variable (unicode : UnicodeData) (calls : ℕ → CompileCall)
  (answers : ℕ → Except PyException RAGQueryResult)

/-- **Main result.** The claims of a compile that returned belong to the revision it reports, in
every run in which the page points to that revision whenever the compile adds a claim. -/
theorem claimsBelong_of_current (c : ℕ) (store : WikiStore) (nextId : ℕ) (labels : List RaceLabel)
    (hown : ∀ t ∈ trace (RaceState.step unicode calls answers) (.initial store nextId) labels,
      OnOwnRevision unicode c t) :
    ∀ t ∈ trace (RaceState.step unicode calls answers) (.initial store nextId) labels,
      ClaimsBelong t.post c := by
  intro t ht
  have hinv : ∀ s label s', Attached s c → OnOwnRevision unicode c ⟨s, label, s'⟩ →
      RaceState.step unicode calls answers s label = some s' → Attached s' c :=
    fun s label s' h hown hstep ↦ h.step hown hstep
  have hinit : Attached (.initial store nextId) c := trivial
  obtain ⟨-, -, hpost⟩ := guarded_trace_invariant hinv hinit hown t ht
  exact hpost.claimsBelong

end Law

/-! ## Two runs -/

/-- An answer with one claim and no metadata. -/
def oneClaim : RAGQueryResult := ⟨"Alpha is a claim.", .dict []⟩

/-- An edit of the page of the compile. -/
def editLabel : RaceLabel :=
  .call ⟨.createRevision "acme" "source-d" ⟨"An edit.".toList, "markdown", none, none, "human"⟩, []⟩

/-- The step of the runs: all compiles are of the same source. -/
def sourceStep : RaceState → RaceLabel → Option RaceState :=
  RaceState.step asciiData (fun _ ↦ .sourceToPages "acme" "d" none) fun _ ↦ .ok oneClaim

/-- A compile, and an edit after the claim. -/
def editAfterClaim : List RaceLabel :=
  List.replicate 4 (.compile 0 []) ++ [editLabel, .compile 0 []]

/-- A compile, and an edit between the page and the claim. -/
def editBeforeClaim : List RaceLabel :=
  List.replicate 3 (.compile 0 []) ++ [editLabel, .compile 0 [], .compile 0 []]

/-- The claim stays with its revision when the page is edited afterwards. -/
theorem claimsBelong_editAfterClaim :
    (∀ t ∈ trace sourceStep (.initial .empty 0) editAfterClaim, OnOwnRevision asciiData 0 t) ∧
      ∀ t ∈ trace sourceStep (.initial .empty 0) editAfterClaim, ClaimsBelong t.post 0 := by
  have hown : ∀ t ∈ trace sourceStep (.initial .empty 0) editAfterClaim,
      OnOwnRevision asciiData 0 t := by
    decide +kernel
  exact ⟨hown, claimsBelong_of_current asciiData _ _ 0 .empty 0 editAfterClaim hown⟩

/-- The claim of the compile is attached to the edit. -/
theorem claims_redirected :
    ¬∀ t ∈ trace sourceStep (.initial .empty 0) editBeforeClaim, ClaimsBelong t.post 0 := by
  decide +kernel

end KnowledgeAlakazam
