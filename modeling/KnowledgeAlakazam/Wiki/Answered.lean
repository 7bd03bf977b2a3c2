import KnowledgeAlakazam.Wiki.Refinement
import KnowledgeAlakazam.Wiki.Statements
import KnowledgeAlakazam.Wiki.TenantIsolation

/-!
# The wiki answers what the notebook answers
-/

namespace KnowledgeAlakazam

open Program WikiRepository WikiService

variable {unicode : UnicodeData} {N N' : Notebook} {tenantId slug : String} {page : WikiPage}

/-! ## Reading finds what is there -/

theorem returns_requirePage (tenantId slug : String) (page : WikiPage)
    (P : ℕ → WikiStore → Prop) :
    Returns (fun n w ↦ P n w ∧ w.pageBySlug tenantId slug = some page)
      (requirePage tenantId slug) fun found n w ↦ found = page ∧ P n w ∧
        w.pageBySlug tenantId slug = some page :=
  (takes_requirePage tenantId slug page P).returns

theorem WikiService.requirePage_none {s : Session WikiStore PyException} (hs : s.outcomes = [])
    (hnone : s.working.pageBySlug tenantId slug = none) :
    requirePage tenantId slug s = (.error (pageNotFound slug), s.autobegin) := by
  refine (bind_ok (query_of_outcomes hs _)).trans ?_
  rw [hnone]
  rfl

/-! ## The operations -/

section Operations

variable {W : WikiStore} {n : ℕ} {address : String} {postgres : PostgresData} {time : CallTime}

/-- A call returns if its slug resolves and its unit of work returns. -/
theorem isOk_transaction {α : Type} {P : ℕ → WikiStore → Prop} {Q : α → ℕ → WikiStore → Prop}
    {body : String → WikiProgram α} (f : α → WikiAnswer)
    (hslug : requireSlug unicode address = .ok slug) (hbody : Returns P (body slug) Q)
    {s : Session WikiStore PyException} (hs : s.Idle W) (hcalm : s.Calm)
    (hp : P s.nextId W) :
    ((f <$> (ofExcept (requireSlug unicode address) >>= fun slug ↦
      Program.transaction (body slug)) : WikiProgram WikiAnswer) s).1.isOk = true := by
  obtain ⟨a, s', hrun⟩ := hbody.transaction hs hcalm hp
  rw [hslug]
  have hbind : ((ofExcept (.ok slug) >>= fun slug ↦ Program.transaction (body slug) :
      WikiProgram α)) s = (.ok a, s') := (bind_ok rfl).trans hrun
  rw [show ((f <$> (ofExcept (.ok slug) >>= fun slug ↦ Program.transaction (body slug)) :
    WikiProgram WikiAnswer) s) = (.ok (f a), s') from bind_ok hbind]
  rfl

theorem isOk_map {σ α : Type} {x : Program σ PyException α} {P : ℕ → σ → Prop}
    {Q : α → ℕ → σ → Prop} (f : α → WikiAnswer) (hx : Returns P x Q)
    {s : Session σ PyException} (hcalm : s.Calm) (hp : P s.nextId s.working) :
    ((f <$> x) s).1.isOk = true := by
  obtain ⟨a, s', hrun, -⟩ := hx s hcalm hp
  rw [show (f <$> x) s = (.ok (f a), s') from bind_ok hrun]
  rfl

theorem isOk_of_takes {α : Type} {E : ℕ → Session WikiStore PyException → Prop}
    {R : ℕ → WikiStore → Prop} {x : WikiProgram α} {m : ℕ}
    {Q : α → Session WikiStore PyException → Prop} (f : α → WikiAnswer)
    (hx : Takes E (Session.Between R) x m Q) {s : Session WikiStore PyException} (hs : s.Idle W)
    (hcalm : s.Calm) (hr : R s.nextId W) : ((f <$> x) s).1.isOk = true := by
  have hxs := hx s ⟨W, hs, hr⟩
  rw [interruption_of_calm hcalm] at hxs
  obtain ⟨a, s', hrun, -⟩ := hxs
  rw [show (f <$> x) s = (.ok (f a), s') from bind_ok hrun]
  rfl

/-- **An undisturbed operation of `WikiService` returns if the notebook has an answer.** -/
theorem WikiOperation.isOk_of_answers (h : Depicts W N)
    (operation : WikiOperation) {reply : Reply}
    (hanswers : N.Answers unicode postgres operation reply N')
    {x : WikiProgram WikiAnswer} (hx : operation.program unicode postgres time = .inl x)
    {s : Session WikiStore PyException} (hs : s.Idle W) (hcalm : s.Calm)
    (hn : W.Numbered s.nextId) : (x s).1.isOk = true := by
  -- The notebook knows the article, so each row that the operation looks for is there, and its new
  -- rows have ids of their own.
  cases hanswers with
  | updated hslug ha =>
    obtain rfl := Sum.inl.inj hx
    exact isOk_of_takes .detail (takes_createOrUpdatePage unicode _ _ hslug) hs hcalm ⟨hn, rfl⟩
  | revised hslug ha =>
    obtain rfl := Sum.inl.inj hx
    obtain ⟨page, hpage, -⟩ := h.exists_page ha
    exact isOk_of_takes .detail (takes_createRevision unicode _ page hslug) hs hcalm ⟨hn, hpage⟩
  | @published tenantId address slug revisionNo a no history hslug ha hno hpublish =>
    obtain rfl := Sum.inl.inj hx
    obtain ⟨page, hpage, hshows⟩ := h.exists_page ha
    exact isOk_of_takes .detail (takes_publishPage unicode revisionNo page hslug) hs hcalm
      ⟨⟨hn, hshows.isSome_resolved hno⟩, hpage⟩
  | @shown tenantId address slug a hslug ha =>
    obtain rfl := Sum.inl.inj hx
    obtain ⟨page, hpage, -⟩ := h.exists_page ha
    have hget : Returns (fun _ (w : WikiStore) ↦ True ∧ w.pageBySlug tenantId slug = some page)
        (WikiService.getPage unicode tenantId address) fun _ _ _ ↦ True :=
      Returns.ofExcept hslug ((returns_requirePage tenantId slug page fun _ _ ↦ True).bind
        fun found ↦ (Returns.query (Q := fun _ _ _ ↦ True) fun _ _ _ ↦ trivial).bind
          fun revision ↦ Returns.pure fun _ _ _ ↦ trivial)
    exact isOk_map .detail hget hcalm ⟨trivial, hs.working.symm ▸ hpage⟩
  | @claimed tenantId address slug claimText sources supportStatus confidence a no hslug ha hno =>
    obtain rfl := Sum.inl.inj hx
    obtain ⟨page, hpage, hshows⟩ := h.exists_page ha
    have hcurrent : (W.currentOf page).isSome := by
      rw [← hshows.current] at hno
      obtain ⟨revision, hrevision, -⟩ := Option.map_eq_some_iff.mp hno
      exact Option.isSome_of_eq_some hrevision
    exact isOk_of_takes .bundle (takes_addClaimWithSources unicode claimText sources supportStatus
      confidence hslug) hs hcalm ⟨hn, page, hpage, hcurrent⟩
  | @relinked tenantId address slug markdown a hslug ha =>
    obtain rfl := Sum.inl.inj hx
    obtain ⟨page, hpage, -⟩ := h.exists_page ha
    refine isOk_transaction .links hslug ((returns_requirePage _ _ page
      fun n (w : WikiStore) ↦ w.Numbered n).bind fun found ↦
        (takes_replaceLinksForPage tenantId found.id _).returns.mono_left
          fun n w hfound ↦ hfound.2.1) hs hcalm ⟨hn, hpage⟩
  | @linked tenantId address slug sources hslug hsources =>
    obtain rfl := Sum.inl.inj hx
    have hget : Returns (fun _ _ ↦ True)
        (WikiService.getBacklinks unicode postgres tenantId address) fun _ _ _ ↦ True :=
      Returns.ofExcept hslug (Returns.query fun _ _ h ↦ h)
    exact isOk_map .backlinks hget hcalm trivial
  | validated => cases hx
  | listed => cases hx

theorem WikiOperation.isOk_of_answers_validation {db : WikiDatabase} (h : Depicts db.wiki N)
    (operation : WikiOperation) {reply : Reply}
    (hanswers : N.Answers unicode postgres operation reply N')
    {x : DatabaseProgram WikiAnswer} (hx : operation.program unicode postgres time = .inr x)
    (hvalidators : ∀ validators tenantId slug, operation ≠ .validatePage validators tenantId slug)
    {s : Session WikiDatabase PyException} (hs : s.Idle db) (hcalm : s.Calm) :
    (x s).1.isOk = true := by
  cases hanswers with
  | @listed tenantId address slug a no hslug ha hno =>
    obtain rfl := Sum.inr.inj hx
    obtain ⟨page, hpage, hshows⟩ := h.exists_page ha
    have hcurrent : (db.wiki.currentRevision tenantId slug).isSome := by
      rw [WikiStore.currentRevision, hpage, Option.bind_some]
      rw [← hshows.current] at hno
      obtain ⟨revision, hrevision, -⟩ := Option.map_eq_some_iff.mp hno
      exact Option.isSome_of_eq_some hrevision
    -- Nothing is written, so each step may rely on all of the database.
    let P : ℕ → WikiDatabase → Prop := fun _ db' ↦ db' = db
    have hrequire : Returns P (WikiValidationService.requirePage tenantId slug) fun _ ↦ P := by
      refine (Returns.query (Q := fun found n db' ↦ P n db' ∧ found.isSome) fun n db' hdb ↦
        ⟨hdb, ?_⟩).bind fun found ↦ ?_
      · rw [hdb, hpage]
        rfl
      · cases found with
        | none => exact fun _ _ hp ↦ absurd hp.2 Bool.false_ne_true
        | some found => exact Returns.pure fun _ _ h ↦ h.1
    have hrevision : Returns P (WikiValidationService.requireCurrentRevision tenantId slug)
        fun _ ↦ P := by
      refine (Returns.query (Q := fun found n db' ↦ P n db' ∧ found.isSome) fun n db' hdb ↦
        ⟨hdb, ?_⟩).bind fun found ↦ ?_
      · rw [hdb]
        exact hcurrent
      · cases found with
        | none => exact fun _ _ hp ↦ absurd hp.2 Bool.false_ne_true
        | some found => exact Returns.pure fun _ _ h ↦ h.1
    have hlist : Returns P (WikiValidationService.listPageResults unicode postgres tenantId
        address) fun _ ↦ P :=
      Returns.ofExcept (WikiValidationService.requireSlug_iff.mpr hslug) (hrequire.bind fun found ↦
        hrevision.bind fun revision ↦
          (show Returns P (WikiRepository.listValidationResults postgres tenantId found.1.id
            (some revision.id)) fun _ ↦ P from Returns.query fun _ _ h ↦ h).bind fun results ↦
              Returns.pure fun _ _ h ↦ h)
    exact isOk_map .validationRun hlist hcalm hs.working
  | validated hslug ha hno => exact absurd rfl (hvalidators _ _ _)
  | updated hslug ha => cases hx
  | revised hslug ha => cases hx
  | published hslug ha hno hpublish => cases hx
  | shown hslug ha => cases hx
  | claimed hslug ha hno => cases hx
  | relinked hslug ha => cases hx
  | linked hslug hsources => cases hx

end Operations

/-! ## Runs -/

/-- There is a reason for an error that the articles do not know of: a statement that is
interrupted, or a validation, which has its own. -/
def OperationLabel.Disturbed (label : OperationLabel) : Prop :=
  (∃ e, some e ∈ label.outcomes) ∨
    ∃ validators tenantId slug, label.operation = .validatePage validators tenantId slug

theorem OperationLabel.calm_of_not_disturbed {σ : Type} {label : OperationLabel}
    (h : ¬label.Disturbed) (S : σ) (n : ℕ) : (Session.start S n label.outcomes).Calm := by
  intro outcome hmem
  cases outcome with
  | none => rfl
  | some e => exact absurd (.inl ⟨e, hmem⟩) h

/-- The exchange that an operation is. -/
def exchange (unicode : UnicodeData) (postgres : PostgresData)
    (t : Transition DatabaseState OperationLabel) : Notebook.Exchange where
  operation := t.label.operation
  disturbed := t.label.Disturbed
  reply := (t.label.run unicode postgres t.pre).1.toOption.map WikiAnswer.reply

section Runs

variable {postgres : PostgresData} {s : DatabaseState}

/-- What one operation does: it is answered, or it is refused and changes nothing. -/
inductive Exchanged (unicode : UnicodeData) (postgres : PostgresData) (label : OperationLabel)
    (s : DatabaseState) (N : Notebook) : Prop
  | answered {answer : WikiAnswer} {N' : Notebook}
    (hrun : (label.run unicode postgres s).1 = .ok answer)
    (hanswers : N.Answers unicode postgres label.operation answer.reply N')
    (hpost : Depicts (label.run unicode postgres s).2.db.wiki N')
  | refused {e : PyException} (hrun : (label.run unicode postgres s).1 = .error e)
    (hreason : label.Disturbed ∨ ∀ reply N', ¬N.Answers unicode postgres label.operation reply N')
    (hpost : Depicts (label.run unicode postgres s).2.db.wiki N)

/-- An operation whose program is right on the tables it works on. -/
theorem Exchanged.of_outTx {σ : Type} {S : σ} {x : Program σ PyException WikiAnswer}
    (wiki : σ → WikiStore) {label : OperationLabel} (h : Depicts (wiki S) N)
    (hout : OutTx x S (fun answer S' ↦
      ∃ N', N.Answers unicode postgres label.operation answer.reply N' ∧ Depicts (wiki S') N')
      fun _ S' ↦ S = S')
    (hanswer : (label.run unicode postgres s).1 =
      (x (Session.start S s.nextId label.outcomes)).1)
    (hpost : (label.run unicode postgres s).2.db.wiki =
      wiki (x (Session.start S s.nextId label.outcomes)).2.committed)
    (hok : ∀ reply N', ¬label.Disturbed → N.Answers unicode postgres label.operation reply N' →
      (x (Session.start S s.nextId label.outcomes)).1.isOk = true) :
    Exchanged unicode postgres label s N := by
  have hidle := Session.idle_start (ε := PyException) S s.nextId label.outcomes
  rcases hrun : x (Session.start S s.nextId label.outcomes) with ⟨e | answer, s'⟩
  · rw [hrun] at hanswer hpost hok
    have hsame : S = s'.committed := hout.committed_error hidle hrun
    refine .refused hanswer ?_ ?_
    · by_contra! hreason
      obtain ⟨hcalm, reply, N', hanswers⟩ := hreason
      exact absurd (hok reply N' hcalm hanswers) Bool.false_ne_true
    · rw [hpost, ← hsame]
      exact h
  · rw [hrun] at hanswer hpost
    obtain ⟨N', hanswers, hdepicts⟩ := hout.committed_ok hidle hrun
    refine .answered hanswer hanswers ?_
    rw [hpost]
    exact hdepicts

theorem OperationLabel.exchanged (label : OperationLabel) (hdb : s.db.Intact)
    (hn : s.db.Numbered s.nextId) (h : Depicts s.db.wiki N) :
    Exchanged unicode postgres label s N := by
  cases hprogram : label.operation.program unicode postgres label.time with
  | inl x =>
    refine .of_outTx id h (label.operation.outTx_answers hdb.wiki h hprogram) ?_ ?_ ?_
    · rw [OperationLabel.run, hprogram]
    · rw [OperationLabel.run, hprogram]
      rfl
    · intro reply N' hcalm hanswers
      exact label.operation.isOk_of_answers h hanswers hprogram (Session.idle_start _ _ _)
        (OperationLabel.calm_of_not_disturbed hcalm _ _) hn.wiki
  | inr x =>
    refine .of_outTx WikiDatabase.wiki h ((label.operation.outTx_answers_validation h
      hprogram).mono (fun answer db' hdb' ↦ ⟨N, hdb'.1, hdb'.2 ▸ h⟩) fun _ _ h ↦ h) ?_ ?_ ?_
    · rw [OperationLabel.run, hprogram]
    · rw [OperationLabel.run, hprogram]
    · intro reply N' hcalm hanswers
      exact label.operation.isOk_of_answers_validation h hanswers hprogram
        (fun validators tenantId slug heq ↦ hcalm (.inr ⟨validators, tenantId, slug, heq⟩))
        (Session.idle_start _ _ _) (OperationLabel.calm_of_not_disturbed hcalm _ _)

theorem course_run (hdb : s.db.Intact) (hn : s.db.Numbered s.nextId)
    (h : Depicts s.db.wiki N) (labels : List OperationLabel) :
    ∃ N', Notebook.Course unicode postgres N
        ((trace (DatabaseState.step unicode postgres) s labels).map (exchange unicode postgres))
        N' ∧
      Depicts (run (DatabaseState.step unicode postgres) s labels).db.wiki N' := by
  induction labels generalizing s N with
  | nil => exact ⟨N, .nil, h⟩
  | cons label labels ih =>
    have hdb' := (label.effect unicode postgres hdb).intact hdb
    have hn' : (label.run unicode postgres s).2.db.Numbered
        (label.run unicode postgres s).2.nextId := (label.numbered hn).2
    have hstep : DatabaseState.step unicode postgres s label =
      some (label.run unicode postgres s).2 := rfl
    rw [trace_cons_of_some hstep, run_cons_of_some hstep, List.map_cons, exchange]
    have hexchanged : Exchanged unicode postgres label s N := label.exchanged hdb hn h
    cases hexchanged with
    | answered hrun hanswers hpost =>
      obtain ⟨N', hcourse, hend⟩ := ih hdb' hn' hpost
      rw [hrun]
      exact ⟨N', .answered hanswers hcourse, hend⟩
    | refused hrun hreason hpost =>
      obtain ⟨N', hcourse, hend⟩ := ih hdb' hn' hpost
      rw [hrun]
      exact ⟨N', .refused hreason hcourse, hend⟩

/-- **The wiki is a notebook.** Whatever operations were called, on whichever names and with
whichever statements failing, their answers are those of a course of the notebook, and the tables
are what this course leads to. -/
theorem course_of_run (unicode : UnicodeData) (postgres : PostgresData)
    (labels : List OperationLabel) :
    ∃ N, Notebook.Course unicode postgres .empty
        ((trace (DatabaseState.step unicode postgres) .initial labels).map
          (exchange unicode postgres)) N ∧
      Depicts (run (DatabaseState.step unicode postgres) .initial labels).db.wiki N :=
  course_run WikiDatabase.Intact.empty (WikiDatabase.Numbered.empty 0) depicts_empty labels

end Runs

end KnowledgeAlakazam
