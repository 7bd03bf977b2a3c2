import KnowledgeAlakazam.Wiki.Answered
import KnowledgeAlakazam.Wiki.CompileJobs

/-!
# What a compile does to the articles

A compile writes through `WikiService`, so the tables are a notebook before and after each of its
units of work, and what it has done at any moment can be said of the articles: nothing, or one
article has a new version, with some of the claims of the evidence about it (`Notebook.compiled`).
An interruption decides how many of the claims there are.

When no statement is interrupted, the wiki has no say in how a compile ends. What it needs is what
was asked for and what the query answered (`CompileCall.input`): if these give it an address and
its evidence, the compile returns and all claims are there, and if not, it raises the error that
says so and the articles are as they were. Whatever is in the tables, a page is created or found,
its title is kept, and the claims find the version they are about.
-/

namespace KnowledgeAlakazam

open Program WikiRepository WikiService WikiCompiler

section Definitions

variable (unicode : UnicodeData)

namespace Notebook

/-- The title that the page of a compile has, or gets. -/
def compileTitle (N : Notebook) (input : CompileInput) : String :=
  ((N input.request.tenantId input.slug).map Article.title).getD (input.newTitle unicode)

/-- The article with the version of a compile. -/
def compiledArticle (N : Notebook) (input : CompileInput) (title : String) : Article :=
  (N.entitled (input.update unicode title) input.slug).write unicode
    (input.update unicode title).content

/-- The articles when a compile has written its page and some of its claims. -/
def compiled (N : Notebook) (input : CompileInput) (title : String) (claims : List (List Char)) :
    Notebook :=
  let a := N.compiledArticle unicode input title
  N.put input.request.tenantId input.slug
    { a with claims := a.claims ++ claims.map fun text ↦ (a.history.all.length, text) }

end Notebook

/-- The page of a compile that returned is the article, with all claims. -/
structure CompiledPage (N : Notebook) (input : CompileInput) (given : String)
    (page : WikiCompiledPage) : Prop where
  slug : page.slug = input.slug
  title : page.title = given
  revisionNo : page.revisionNo = (N.compiledArticle unicode input given).history.all.length
  claimCount : page.claimCount = (input.claims unicode).length

end Definitions

variable {unicode : UnicodeData} {postgres : PostgresData} {N N' : Notebook}
  {W₀ W W' : WikiStore} {input : CompileInput} {title : String} {request : CompileRequest}
  {answer : Except PyException RAGQueryResult}

/-! ## One operation among others -/

/-- Tables that are the notebook, and in which everything is that `W₀` had to refer to. -/
structure Recorded (W₀ : WikiStore) (N : Notebook) (W : WikiStore) : Prop where
  intact : W.Intact
  depicts : Depicts W N
  keeps : W₀.Keeps W

theorem Recorded.of_content (h : Recorded W₀ N W) (hsame : SameContent W W') :
    Recorded W₀ N W' := by
  rw [hsame]
  refine ⟨{ h.intact with }, fun tenantId slug ↦ ?_,
    ⟨h.keeps.pages, h.keeps.revisions, h.keeps.claims⟩⟩
  have hpages : ({ W with compileJobs := W'.compileJobs } : WikiStore).pageBySlug tenantId slug =
    W.pageBySlug tenantId slug := rfl
  rw [hpages]
  cases hpage : W.pageBySlug tenantId slug with
  | none =>
    rw [h.depicts.eq_none hpage]
    exact .none
  | some page =>
    obtain ⟨a, ha, hshows⟩ := h.depicts.exists_article hpage
    rw [ha]
    exact .some { hshows with }

theorem Recorded.outTx {α : Type} {f : α → WikiAnswer} {x : WikiProgram α} (h : Recorded W₀ N W)
    (operation : WikiOperation)
    (hx : operation.program unicode asciiPostgres ⟨0, 0⟩ = .inl (f <$> x)) :
    OutTx x W (fun a W' ↦
      ∃ N', N.Answers unicode asciiPostgres operation (f a).reply N' ∧ Recorded W₀ N' W')
      fun _ W' ↦ W = W' := by
  intro s hs
  have heffects := operation.outTx_wiki h.intact hx
  have hanswers := operation.outTx_answers h.intact h.depicts hx
  unfold Triple
  rcases hrun : x s with ⟨e | a, s'⟩
  · exact hanswers.error hs (bind_error hrun)
  · obtain ⟨W', hidle, heffect⟩ := heffects.ok hs (bind_ok hrun)
    obtain ⟨W'', hidle', N', hanswer, hdepicts⟩ := hanswers.ok hs (bind_ok hrun)
    obtain rfl := hidle.committed.symm.trans hidle'.committed
    exact ⟨W', hidle, N', hanswer, heffect.intact h.intact, hdepicts,
      h.keeps.trans heffect.keeps⟩

/-! ## The page -/

theorem compiled_nil : N.compiled unicode input title [] =
    N.put input.request.tenantId input.slug (N.compiledArticle unicode input title) := by
  rw [Notebook.compiled, List.map_nil, List.append_nil]

/-- The title that is read is that of the page that is there, if it is not the one for a new
page. -/
theorem outTx_resolvePageTitle_title (W : WikiStore) (tenantId address : String)
    (fallback : Option String) :
    OutTx (resolvePageTitle unicode tenantId address fallback) W
      (fun title W' ↦ W = W' ∧ (title = orElse fallback (titleFromSlug unicode address) ∨
        ∃ slug page, requireSlug unicode address = .ok slug ∧
          W.pageBySlug tenantId slug = some page ∧ title = page.title))
      fun _ W' ↦ W = W' := by
  refine OutTx.except (E := fun _ W' ↦ W = W') (OutTx.map ((outTx_getPage_detail W tenantId
    address).mono ?_ fun _ _ h ↦ h)) ?_
  · rintro detail _ ⟨rfl, slug, page, hslug, hpage, rfl⟩
    exact ⟨rfl, .inr ⟨slug, page, hslug, hpage, rfl⟩⟩
  · rintro e _ rfl
    split
    · exact OutTx.pure ⟨rfl, .inl rfl⟩
    · exact OutTx.raise rfl

theorem answers_compileUpdate (input : CompileInput) {reply : Reply} (hne : input.address ≠ "")
    (h : N.Answers unicode postgres (.createOrUpdatePage (input.update unicode title)) reply N') :
    ∃ slug, requireSlug unicode input.address = .ok slug ∧
      reply = (N.compiledArticle unicode { input with slug := slug } title).reply
        input.request.tenantId slug ∧
      N' = N.put input.request.tenantId slug
        (N.compiledArticle unicode { input with slug := slug } title) := by
  cases h with
  | @updated _ slug a hslug ha =>
    refine ⟨slug, ?_, ?_, ?_⟩
    · rw [← hslug, CompileInput.update, pageUpdate, orElse_address hne]
    · rw [ha]
      rfl
    · rw [ha]
      rfl

theorem shown_compiledArticle : (N.compiledArticle unicode input title).history.shown =
    some ((N.compiledArticle unicode input title).history.all.length,
      (input.update unicode title).content) := by
  rw [Notebook.compiledArticle, Article.write, Versions.shown_add, Versions.add,
    List.length_append, List.length_singleton]

theorem current_compiledArticle : (N.compiledArticle unicode input title).history.current =
    some (N.compiledArticle unicode input title).history.all.length := by
  rw [Notebook.compiledArticle, Article.write, Versions.add, List.length_append,
    List.length_singleton]

theorem title_compiledArticle : (N.compiledArticle unicode input title).title = title := by
  rw [Notebook.compiledArticle, Article.write, Notebook.entitled]
  split <;> rfl

theorem pageCompiled_of_answers (input : CompileInput) {detail : WikiPageDetail}
    (hne : input.address ≠ "")
    (hnamed : requireSlug unicode input.address = .ok input.slug)
    (h : N.Answers unicode postgres (.createOrUpdatePage (input.update unicode title))
      (WikiAnswer.detail detail).reply N') :
    ∃ revision, detail.currentRevision = some revision ∧
      N' = N.compiled unicode input title [] ∧
      ∀ sources, CompiledPage unicode N input title
        (⟨input.address, detail, revision, input.claims unicode, sources⟩ :
          PageWritten).compiledPage := by
  obtain ⟨slug, hslug, hreply, rfl⟩ := answers_compileUpdate input hne h
  obtain rfl := Except.ok.inj (hnamed.symm.trans hslug)
  obtain ⟨htenant, hpageSlug, hpageTitle, htype, hstatus, hshown⟩ := Reply.page.inj hreply
  rw [show (N.compiledArticle unicode { input with slug := input.slug } title).history.shown = _
    from shown_compiledArticle] at hshown
  obtain ⟨revision, hrevision, hsaid⟩ := Option.map_eq_some_iff.mp hshown
  exact ⟨revision, hrevision, compiled_nil.symm, fun sources ↦ ⟨hpageSlug,
    hpageTitle.trans title_compiledArticle, (Prod.mk.inj hsaid).1, rfl⟩⟩

theorem Recorded.title_eq (h : Recorded W₀ N W) (input : CompileInput) :
    input.title unicode W = N.compileTitle unicode input := by
  rw [CompileInput.title, CompileInput.found, Notebook.compileTitle]
  cases hpage : W.pageBySlug input.request.tenantId input.slug with
  | none => rw [h.depicts.eq_none hpage]; rfl
  | some page =>
    obtain ⟨a, ha, hshows⟩ := h.depicts.exists_article hpage
    rw [ha, Option.map_some, Option.map_some, hshows.title]

theorem Recorded.outTx_resolvePageTitle (h : Recorded W₀ N W)
    (hnamed : requireSlug unicode input.address = .ok input.slug) :
    OutTx (resolvePageTitle unicode input.request.tenantId input.address
        (some input.request.title)) W
      (fun title W' ↦ W = W' ∧
        (title = N.compileTitle unicode input ∨ title = input.newTitle unicode))
      fun _ W' ↦ W = W' := by
  refine (outTx_resolvePageTitle_title W _ _ _).mono ?_ fun _ _ h ↦ h
  rintro title _ ⟨rfl, htitle | ⟨slug, page, hslug, hpage, rfl⟩⟩
  · exact ⟨rfl, .inr htitle⟩
  · obtain rfl := Except.ok.inj (hnamed.symm.trans hslug)
    obtain ⟨a, ha, hshows⟩ := h.depicts.exists_article hpage
    refine ⟨rfl, .inl ?_⟩
    rw [Notebook.compileTitle, ha, hshows.title]
    rfl

/-- What there is when the page was written: the articles, with no claims yet. -/
structure PageCompiled (unicode : UnicodeData) (W₀ : WikiStore) (N : Notebook)
    (input : CompileInput) (title : String) (written : PageWritten) (W' : WikiStore) : Prop where
  sound : Recorded W₀ (N.compiled unicode input title []) W'
  slug : written.slug = input.address
  claims : written.claims = input.claims unicode
  page : CompiledPage unicode N input title written.compiledPage

theorem Recorded.outTx_writeTitled (h : Recorded W₀ N W) (hne : input.address ≠ "")
    (hnamed : requireSlug unicode input.address = .ok input.slug) (title : String) :
    OutTx (writeTitled unicode input title) W
      (fun written W' ↦ PageCompiled unicode W₀ N input title written W')
      fun _ W' ↦ W = W' := by
  have hupdate : OutTx (createOrUpdatePage unicode (input.update unicode title)) W _ _ :=
    h.outTx (f := .detail) (.createOrUpdatePage (input.update unicode title)) rfl
  refine hupdate.bind ?_
  rintro detail W' ⟨N', hanswers, hsound⟩
  obtain ⟨revision, hrevision, rfl, hpage⟩ := pageCompiled_of_answers input hne hnamed hanswers
  rw [hrevision]
  exact OutTx.pure ⟨hsound, rfl, rfl, hpage _⟩

/-! ## The claims -/

theorem answers_compileClaim {done : List (List Char)} {text : List Char}
    {sources : List ClaimSourceInput} {reply : Reply}
    (hnamed : requireSlug unicode input.address = .ok input.slug)
    (h : (N.compiled unicode input title done).Answers unicode postgres (.addClaimWithSources
      input.request.tenantId input.address text sources "supported" (some 5000)) reply N') :
    N' = N.compiled unicode input title (done ++ [text]) := by
  cases h with
  | @claimed _ _ slug _ _ _ _ a no hslug ha hno =>
    obtain rfl := Except.ok.inj (hnamed.symm.trans hslug)
    rw [Notebook.compiled, Notebook.put_self] at ha
    obtain rfl := Option.some.inj ha
    obtain rfl := Option.some.inj (current_compiledArticle.symm.trans hno)
    rw [Notebook.compiled, Notebook.put_put, Notebook.compiled, List.map_append,
      List.append_assoc]
    rfl

/-- The claims, one after the other: if one of them fails, those before it are there. -/
theorem outTx_addClaims_compiled {written : PageWritten}
    (hnamed : requireSlug unicode input.address = .ok input.slug)
    (hslug : written.slug = input.address)
    (h : Recorded W₀ (N.compiled unicode input title []) W) :
    OutTx (written.claims.mapM' (addClaim unicode input.request.tenantId written)) W
      (fun _ W' ↦ Recorded W₀ (N.compiled unicode input title written.claims) W')
      fun _ W' ↦ ∃ done, done <+: written.claims ∧
        Recorded W₀ (N.compiled unicode input title done) W' := by
  refine (OutTx.mapM' (I := fun rest _ W' ↦ ∃ done, done ++ rest = written.claims ∧
    Recorded W₀ (N.compiled unicode input title done) W') ?_ ⟨[], rfl, h⟩).mono ?_ fun _ _ h ↦ h
  · rintro text rest _ W₁ ⟨done, hdone, hsound⟩
    have hclaim : OutTx (addClaim unicode input.request.tenantId written text) W₁ _ _ :=
      hsound.outTx (f := .bundle) (.addClaimWithSources input.request.tenantId written.slug text
        written.sources "supported" (some 5000)) rfl
    refine hclaim.mono ?_ ?_
    · rintro bundle W' ⟨N', hanswers, hsound'⟩
      rw [hslug] at hanswers
      rw [answers_compileClaim hnamed hanswers] at hsound'
      exact ⟨done ++ [text], by rw [List.append_assoc, ← hdone]; rfl, hsound'⟩
    · rintro e _ rfl
      exact ⟨done, ⟨_, hdone⟩, hsound⟩
  · rintro _ W' ⟨done, hdone, hsound⟩
    rw [List.append_nil] at hdone
    exact hdone ▸ hsound

/-! ## What is left behind, in any case -/

/-- The articles after a compile that raised: as they were, or with the page and some of the
claims. -/
def LeftBehind (unicode : UnicodeData) (W₀ : WikiStore) (N : Notebook) (request : CompileRequest)
    (answer : Except PyException RAGQueryResult) (W' : WikiStore) : Prop :=
  Recorded W₀ N W' ∨ ∃ input title done, request.input unicode answer = .ok input ∧
    (title = N.compileTitle unicode input ∨ title = input.newTitle unicode) ∧
    done <+: input.claims unicode ∧ Recorded W₀ (N.compiled unicode input title done) W'

/-- After a compile that returned: the page with all claims. -/
structure AllCompiled (unicode : UnicodeData) (W₀ : WikiStore) (N : Notebook)
    (input : CompileInput) (title : String) (result : WikiCompileResult) (W' : WikiStore) :
    Prop where
  sound : Recorded W₀ (N.compiled unicode input title (input.claims unicode)) W'
  page : ∃ page, result.pages = [page] ∧ CompiledPage unicode N input title page
  status : result.job.status = "succeeded"

theorem outTx_markJobSucceeded_status (W : WikiStore) (jobId : ℕ) :
    OutTx (markJobSucceeded jobId) W
      (fun job W' ↦ job.status = "succeeded" ∧ SameContent W W') fun _ W' ↦ SameContent W W' := by
  have hupdate : InTx (updateCompileJobStatus jobId "succeeded" none) W
      fun job W' ↦ job.status = "succeeded" ∧ SameContent W W' := by
    refine InTx.statement fun job W' h ↦ ?_
    split at h
    · obtain ⟨rfl, rfl⟩ := Prod.mk.inj (Except.ok.inj h)
      exact ⟨rfl, SameContent.setJobs W _⟩
    · cases h
  exact OutTx.transaction hupdate fun _ ↦ SameContent.refl W

theorem outTx_finishPage_compiled {written : PageWritten}
    (hnamed : requireSlug unicode input.address = .ok input.slug)
    (h : PageCompiled unicode W₀ N input title written W) (job : WikiCompileJob) :
    OutTx (finishPage unicode input.request job written) W
      (fun result W' ↦ AllCompiled unicode W₀ N input title result W')
      fun _ W' ↦ ∃ done, done <+: input.claims unicode ∧
        Recorded W₀ (N.compiled unicode input title done) W' := by
  have hclaims := outTx_addClaims_compiled hnamed h.slug h.sound
  rw [h.claims] at hclaims
  unfold finishPage
  rw [h.claims]
  refine hclaims.bind fun _ W₁ hsound ↦ ?_
  refine ((outTx_markJobSucceeded_status W₁ job.id).mono (fun _ _ h ↦ h) ?_).bind ?_
  · intro e W' hsame
    exact ⟨_, List.prefix_rfl, hsound.of_content hsame⟩
  · rintro job' W' ⟨hstatus, hsame⟩
    exact OutTx.pure ⟨hsound.of_content hsame, ⟨_, rfl, h.page⟩, hstatus⟩

/-- Once the title is known, the articles are as they were until the page is committed. -/
theorem Recorded.outTx_fillTitled (h : Recorded W₀ N W) (hmade : input.MadeFrom unicode answer)
    (title : String) (job : WikiCompileJob) :
    OutTx (writeTitled unicode input title >>= finishPage unicode input.request job) W
      (fun result W' ↦ AllCompiled unicode W₀ N input title result W')
      fun _ W' ↦ Recorded W₀ N W' ∨ ∃ done, done <+: input.claims unicode ∧
        Recorded W₀ (N.compiled unicode input title done) W' := by
  have hpage := h.outTx_writeTitled hmade.address_ne_empty hmade.named title
  refine (hpage.mono (fun _ _ h ↦ h) ?_).bind fun written W₁ hwritten ↦ ?_
  · rintro e _ rfl
    exact .inl h
  · exact (outTx_finishPage_compiled hmade.named hwritten job).mono (fun _ _ h ↦ h)
      fun _ _ h ↦ .inr h

theorem Recorded.outTx_fillPage (h : Recorded W₀ N W) (request : CompileRequest)
    (answer : Except PyException RAGQueryResult) (job : WikiCompileJob) :
    OutTx (fillPage unicode request answer job) W
      (fun result W' ↦ ∃ input title, request.input unicode answer = .ok input ∧
        (title = N.compileTitle unicode input ∨ title = input.newTitle unicode) ∧
        AllCompiled unicode W₀ N input title result W')
      fun _ W' ↦ LeftBehind unicode W₀ N request answer W' := by
  cases hinput : request.input unicode answer with
  | error e =>
    have hraise : fillPage unicode request answer job = raise e :=
      funext (fillPage_error hinput job)
    rw [hraise]
    exact OutTx.raise (.inl h)
  | ok input =>
    obtain ⟨rfl, hmade⟩ := CompileRequest.madeFrom_of_input hinput
    rw [show fillPage unicode input.request answer job = _ from
      funext (fillPage_eq_titled hmade job)]
    refine ((h.outTx_resolvePageTitle hmade.named).mono (fun _ _ h ↦ h) ?_).bind ?_
    · rintro e _ rfl
      exact .inl h
    · rintro title _ ⟨rfl, htitle⟩
      refine (h.outTx_fillTitled hmade title job).mono (fun result W' hdone ↦ ?_) ?_
      · exact ⟨input, title, rfl, htitle, hdone⟩
      · rintro e W' (hsound | ⟨done, hdone, hsound⟩)
        · exact .inl hsound
        · exact .inr ⟨input, title, done, hinput, htitle, hdone, hsound⟩

/-- **What a compile does to the articles**, however it ends. -/
theorem Recorded.outTx_compile (h : Recorded W₀ N W) (request : CompileRequest)
    (answer : Except PyException RAGQueryResult) :
    OutTx (compile unicode request answer) W
      (fun result W' ↦ ∃ input title, request.input unicode answer = .ok input ∧
        (title = N.compileTitle unicode input ∨ title = input.newTitle unicode) ∧
        AllCompiled unicode W₀ N input title result W')
      fun _ W' ↦ LeftBehind unicode W₀ N request answer W' := by
  refine ((outTx_startJob W request).mono (fun _ _ h ↦ h) ?_).bind fun job W₁ hsame ↦ ?_
  · intro e W' hsame
    exact .inl (h.of_content hsame)
  refine OutTx.loading_bind fun loaded ↦ ?_
  refine ((h.of_content hsame).outTx_fillPage request answer job).except fun e W₂ hleft ↦ ?_
  refine (outTx_recordFailure W₂ loaded job e).mono (fun _ _ h ↦ h.elim) fun _ W' hsame' ↦ ?_
  rcases hleft with hsound | ⟨input, title, done, hinput, htitle, hdone, hsound⟩
  · exact .inl (hsound.of_content hsame')
  · exact .inr ⟨input, title, done, hinput, htitle, hdone, hsound.of_content hsame'⟩

/-! ## Compiles of which nothing is interrupted -/

/-- A session between units of work, on tables that are the notebook, of which no statement will be
interrupted. -/
structure Undisturbed (W₀ : WikiStore) (N : Notebook) (W : WikiStore)
    (s : Session WikiStore PyException) : Prop where
  sound : Recorded W₀ N W
  idle : s.Idle W
  outcomes : s.outcomes = []
  numbered : W.Numbered s.nextId

namespace Undisturbed

variable {s : Session WikiStore PyException}

theorem interruption (hs : Undisturbed W₀ N W s) (n : ℕ) : interruption n s.outcomes = none := by
  rw [hs.outcomes, interruption_nil]

theorem driverErrors (hs : Undisturbed W₀ N W s) : DriverErrors s.outcomes := by
  intro e he
  rw [hs.outcomes] at he
  exact absurd he List.not_mem_nil

theorem passed (hs : Undisturbed W₀ N W s) {s' : Session WikiStore PyException} {n : ℕ}
    (hpassed : s.Passed n s') (hsound : Recorded W₀ N' W') (hidle : s'.Idle W')
    (hnum : W'.Numbered s'.nextId) : Undisturbed W₀ N' W' s' :=
  ⟨hsound, hidle, by rw [hpassed.outcomes, hs.outcomes, List.drop_nil], hnum⟩

theorem startJob (hs : Undisturbed W₀ N W s) (request : CompileRequest) :
    ∃ job s' W', startJob request s = (.ok job, s') ∧ Undisturbed W₀ N W' s' ∧
      (W'.compileJobs.find job.id).isSome := by
  have hstarts := takes_startJob request (R := fun n S ↦ S.Numbered n) (fun _ _ h ↦ h)
    fun _ _ _ _ _ h ↦ h
  obtain ⟨job, s', hrun, hpassed, W', hidle, hnum, hjob⟩ :=
    hstarts.run_ok ⟨W, hs.idle, hs.numbered⟩ (hs.interruption 4)
  obtain ⟨W'', hidle', hsame⟩ := (outTx_startJob W request).ok hs.idle hrun
  obtain rfl := hidle.committed.symm.trans hidle'.committed
  exact ⟨job, s', W', hrun, hs.passed hpassed (hs.sound.of_content hsame) hidle hnum, hjob⟩

theorem fillPage (hs : Undisturbed W₀ N W s) {job : WikiCompileJob}
    (hjob : (W.compileJobs.find job.id).isSome) (hmade : input.MadeFrom unicode answer) :
    ∃ result s', fillPage unicode input.request answer job s = (.ok result, s') ∧
      AllCompiled unicode W₀ N input (N.compileTitle unicode input) result s'.committed := by
  obtain ⟨title, s₁, htitle, hpassed, W₁, hidle₁, rfl, hopened⟩ :=
    (takes_resolvePageTitle (input.found W) (R := input.Opened (input.found W) job.id) hmade.named
      fun _ _ h ↦ h.1.2).run_ok ⟨⟨W, hs.idle, ⟨hs.numbered, rfl⟩, hjob⟩, hs.driverErrors⟩
        (hs.interruption _)
  obtain ⟨_, hidle₁', rfl, -⟩ := (hs.sound.outTx_resolvePageTitle hmade.named).ok hs.idle htitle
  obtain rfl := hidle₁.committed.symm.trans hidle₁'.committed
  have hs₁ := hs.passed hpassed hs.sound hidle₁ hopened.1.1
  obtain ⟨result, s', hrun, -⟩ := (takes_fillTitled hmade job W₁).run_ok ⟨W₁, hidle₁, hopened⟩
    (hs₁.interruption _)
  have hdone := (hs₁.sound.outTx_fillTitled hmade _ job).committed_ok hidle₁ hrun
  rw [hs.sound.title_eq] at hdone
  refine ⟨result, s', ?_, hdone⟩
  calc fillPage unicode input.request answer job s = _ := fillPage_eq_titled hmade job s
    _ = (writeTitled unicode input _ >>= finishPage unicode input.request job) s₁ := bind_ok htitle
    _ = (.ok result, s') := hrun

/-- **A compile with an input returns**, with everything written. -/
theorem compile (hs : Undisturbed W₀ N W s) (hinput : request.input unicode answer = .ok input) :
    ∃ result s', compile unicode request answer s = (.ok result, s') ∧
      AllCompiled unicode W₀ N input (N.compileTitle unicode input) result s'.committed := by
  obtain ⟨rfl, hmade⟩ := CompileRequest.madeFrom_of_input hinput
  obtain ⟨job, s₁, W₁, hstart, hs₁, hjob⟩ := hs.startJob input.request
  obtain ⟨result, s', hfill, hdone⟩ := hs₁.fillPage hjob hmade
  exact ⟨result, s', (compile_of_started hstart).trans (except_ok hfill), hdone⟩

/-- **A compile without an input raises what says so**, and leaves the articles alone. -/
theorem compile_error {e : PyException} (hs : Undisturbed W₀ N W s)
    (hinput : request.input unicode answer = .error e) :
    ∃ s', WikiCompiler.compile unicode request answer s = (.error e, s') ∧
      Recorded W₀ N s'.committed := by
  obtain ⟨job, s₁, W₁, hstart, hs₁, hjob⟩ := hs.startJob request
  have hread : (attributeOf s₁.rollbacks job.id : WikiProgram ℕ) s₁ = (.ok job.id, s₁) :=
    if_pos rfl
  obtain ⟨job', s', hmark, -⟩ := (takes_updateCompileJobStatus job.id "failed" (some e.text)
    (R := fun _ _ ↦ True) fun _ _ _ _ ↦ trivial).run_ok ⟨W₁, hs₁.idle, trivial, hjob⟩
      (hs₁.interruption 2)
  have hrun : WikiCompiler.compile unicode request answer s = (.error e, s') := by
    refine (compile_of_started hstart).trans ?_
    refine (except_error (fillPage_error hinput job s₁)).trans ?_
    exact (bind_ok hread).trans (bind_ok hmark)
  rcases (hs.sound.outTx_compile request answer).committed_error hs.idle hrun with
    hsound | ⟨input, title, done, hok, -⟩
  · exact ⟨s', hrun, hsound⟩
  · exact nomatch hinput.symm.trans hok

end Undisturbed

/-! ## New ids -/

section Ids

theorem preserves_createCompileJob (tenantId sourceId : String) (targetSlug : Option String) :
    Preserves WikiStore.Numbered (createCompileJob tenantId sourceId targetSlug) := by
  refine Preserves.freshId_statement WikiStore.Numbered.mono fun n W job W' hn h ↦ ?_
  split at h
  · rename_i jobs hins
    obtain ⟨-, rfl⟩ := Prod.mk.inj (Except.ok.inj h)
    exact { WikiStore.Numbered.mono _ _ _ (Nat.le_succ n) hn with
      compileJobs := hn.compileJobs.insert hins rfl }
  · cases h

theorem preserves_updateCompileJobStatus (jobId : ℕ) (status : String) (error : Option String) :
    Preserves WikiStore.Numbered (updateCompileJobStatus jobId status error) := by
  refine Preserves.statement fun n W job W' hn h ↦ ?_
  split at h
  · obtain ⟨-, rfl⟩ := Prod.mk.inj (Except.ok.inj h)
    exact { hn with compileJobs := hn.compileJobs.modify _ _ }
  · cases h

variable (unicode)

theorem preserves_startJob (request : CompileRequest) :
    Preserves WikiStore.Numbered (startJob request) :=
  (preserves_createCompileJob _ _ _).transaction.bind fun _ ↦
    (preserves_updateCompileJobStatus _ _ _).transaction

theorem preserves_writePage (tenantId slug : String) (evidence : CompilerEvidence)
    (title : Option String) :
    Preserves WikiStore.Numbered (writePage unicode tenantId slug evidence title) := by
  refine (Preserves.ofExcept _).bind fun address ↦ ?_
  have hget : Preserves WikiStore.Numbered (getPage unicode tenantId address) :=
    preserves_of_operation (f := .detail) (.getPage tenantId address) rfl
  have htitle : Preserves WikiStore.Numbered (resolvePageTitle unicode tenantId address title) := by
    refine (hget.map _).except fun e ↦ ?_
    split
    · exact .pure _
    · exact .raise e
  refine htitle.bind fun title ↦ Preserves.bind ?_ fun detail ↦ ?_
  · exact preserves_of_operation (f := .detail) (.createOrUpdatePage _) rfl
  · cases detail.currentRevision with
    | none => exact .raise _
    | some revision => exact .pure _

theorem preserves_fillPage (request : CompileRequest) (answer : Except PyException RAGQueryResult)
    (job : WikiCompileJob) :
    Preserves WikiStore.Numbered (fillPage unicode request answer job) := by
  have hsearch : Preserves WikiStore.Numbered (searchEvidence unicode request answer) :=
    (Preserves.ofExcept _).bind fun _ ↦ .ofExcept _
  refine hsearch.bind fun evidence ↦ Preserves.bind ?_ fun page ↦
    (preserves_updateCompileJobStatus _ _ _).transaction.bind fun _ ↦ .pure _
  refine (preserves_writePage unicode _ _ evidence _).bind fun written ↦
    (Preserves.mapM' (fun text ↦ ?_) written.claims).bind fun _ ↦ .pure _
  exact preserves_of_operation (f := .bundle)
    (.addClaimWithSources request.tenantId written.slug text written.sources "supported"
      (some 5000)) rfl

theorem preserves_compile (request : CompileRequest)
    (answer : Except PyException RAGQueryResult) :
    Preserves WikiStore.Numbered (compile unicode request answer) := by
  refine (preserves_startJob request).bind fun job ↦
    (Preserves.readOnly WikiStore.Numbered.mono ReadOnly.loading).bind fun loaded ↦
      (preserves_fillPage unicode request answer job).except fun e ↦ ?_
  exact (Preserves.readOnly WikiStore.Numbered.mono (ReadOnly.attributeOf loaded job.id)).bind
    fun jobId ↦ (preserves_updateCompileJobStatus _ _ _).transaction.bind fun _ ↦ .raise _

end Ids

end KnowledgeAlakazam
