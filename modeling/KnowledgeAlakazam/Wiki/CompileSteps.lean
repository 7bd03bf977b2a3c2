import KnowledgeAlakazam.Wiki.Compiler
import KnowledgeAlakazam.Wiki.Statements

/-!
# A compile, statement by statement

What a compile writes its page from is known when its query has ended: the evidence, the address
that it hands to the service, and the slug that this comes to (`CompileInput`). Without them the
`try` block raises before its first statement. With them it takes a number of statements and
commits that the input and the page under its slug determine: the title is read, the page is
written in one unit of work, then the claims in one each, and the job is marked succeeded. So the
point at which a compile is interrupted can be read off the outcomes of its statements.
-/

namespace KnowledgeAlakazam

open Program WikiRepository WikiService WikiCompiler

/-! ## Inputs -/

/-- What a compile writes its page from. -/
structure CompileInput where
  request : CompileRequest
  evidence : CompilerEvidence
  address : String
  slug : String

section Definitions

variable (unicode : UnicodeData)

/-- The input for a request whose query has ended. -/
def CompileRequest.input (request : CompileRequest) (answer : Except PyException RAGQueryResult) :
    Except PyException CompileInput := do
  let result ← answer
  let evidence ← evidenceOf unicode request.query request.sourceId result
  let address ← resolveTargetSlug unicode (some request.slug) request.slug
  let slug ← requireSlug unicode address
  return ⟨request, evidence, address, slug⟩

def CompileCall.input (call : CompileCall) (answer : Except PyException RAGQueryResult) :
    Except PyException CompileInput := do
  let request ← call.request unicode
  request.input unicode answer

/-- What a compile hands to `create_or_update_page`. -/
def pageUpdate (tenantId title slug : String) (evidence : CompilerEvidence) : PageUpdate where
  tenantId := tenantId
  title := title
  slug := some slug
  pageType := "concept"
  status := none
  content :=
    { content := renderPageMarkdown unicode title slug evidence (extractClaimTexts unicode evidence)
      contentFormat := "markdown"
      contentJson := some (contentJson evidence)
      summary := some (summaryFromAnswer unicode evidence.answer.toList)
      authorType := "agent" }

namespace CompileInput

variable (input : CompileInput)

def claims : List (List Char) := extractClaimTexts unicode input.evidence

def sources : List ClaimSourceInput := input.evidence.sources.map EvidenceSource.toClaimSourceInput

/-- The title of a page that is not there yet. -/
def newTitle : String := orElse (some input.request.title) (titleFromSlug unicode input.address)

def found (store : WikiStore) : Option WikiPage :=
  store.pageBySlug input.request.tenantId input.slug

/-- The title that the page keeps, or gets. -/
def title (store : WikiStore) : String :=
  ((input.found store).map WikiPage.title).getD (input.newTitle unicode)

/-- The update of the page, under a title. -/
def update (title : String) : PageUpdate :=
  pageUpdate unicode input.request.tenantId title input.address input.evidence

/-! ### Lengths -/

/-- The statements that read the title: the page, and its revision if it is there. -/
def titleLength (found : Option WikiPage) : ℕ := if found.isSome then 2 else 1

/-- The statements of the page, and its commit. -/
def pageLength (store : WikiStore) : ℕ :=
  prepareLength (input.found store)
    + writeLength unicode (input.update unicode (input.title unicode store)).content + 1

/-- The statements after the page: those of the claims, and those that mark the job succeeded. -/
def finishLength : ℕ := (input.claims unicode).length * claimLength input.sources + 2

/-- The number of the first statement of the page; four statements have started the job. -/
def pageStart (store : WikiStore) : ℕ := 4 + titleLength (input.found store)

/-- The number of the first statement after the commit of the page. -/
def pageEnd (store : WikiStore) : ℕ := input.pageStart store + input.pageLength unicode store

/-- The number of statements and commits in all. -/
def length (store : WikiStore) : ℕ := input.pageEnd unicode store + input.finishLength unicode

end CompileInput

/-- What the database raises is not what the service raises by itself. -/
def DriverErrors (outcomes : List (Option PyException)) : Prop :=
  ∀ e, some e ∈ outcomes → e.className ≠ "WikiPageNotFoundError"

namespace WikiCompiler

theorem writePage_eq (tenantId slug : String) (evidence : CompilerEvidence)
    (title : Option String) : writePage unicode tenantId slug evidence title = (do
      let slug ← ofExcept (resolveTargetSlug unicode (some slug) slug)
      let title ← resolvePageTitle unicode tenantId slug title
      let detail ← createOrUpdatePage unicode (pageUpdate unicode tenantId title slug evidence)
      match detail.currentRevision with
      | none => raise ⟨"RuntimeError", "Wiki page '" ++ slug ++ "' has no current revision"⟩
      | some revision =>
        return ⟨slug, detail, revision, extractClaimTexts unicode evidence,
          evidence.sources.map EvidenceSource.toClaimSourceInput⟩) := rfl

/-- The page under a title that was read. -/
def writeTitled (input : CompileInput) (title : String) : WikiProgram PageWritten := do
  let detail ← createOrUpdatePage unicode (input.update unicode title)
  match detail.currentRevision with
  | none => raise ⟨"RuntimeError", "Wiki page '" ++ input.address ++ "' has no current revision"⟩
  | some revision =>
    return ⟨input.address, detail, revision, input.claims unicode, input.sources⟩

/-- The `try` block up to the commit of the page. -/
def fillUpToPage (request : CompileRequest) (answer : Except PyException RAGQueryResult) :
    WikiProgram PageWritten := do
  let evidence ← searchEvidence unicode request answer
  writePage unicode request.tenantId request.slug evidence (some request.title)

/-- The rest of the `try` block: the claims, and the end of the job. -/
def finishPage (request : CompileRequest) (job : WikiCompileJob) (written : PageWritten) :
    WikiProgram WikiCompileResult := do
  let _ ← written.claims.mapM' (addClaim unicode request.tenantId written)
  let job ← markJobSucceeded job.id
  return ⟨job, [written.compiledPage]⟩

end WikiCompiler

end Definitions

variable {unicode : UnicodeData} {input : CompileInput} {request : CompileRequest}
  {answer : Except PyException RAGQueryResult} {job : WikiCompileJob}

/-- What an input was made from. -/
structure CompileInput.MadeFrom (unicode : UnicodeData) (input : CompileInput)
    (answer : Except PyException RAGQueryResult) : Prop where
  evidence : ∃ result, answer = .ok result ∧
    evidenceOf unicode input.request.query input.request.sourceId result = .ok input.evidence
  resolved : resolveTargetSlug unicode (some input.request.slug) input.request.slug =
    .ok input.address
  named : requireSlug unicode input.address = .ok input.slug

theorem CompileRequest.madeFrom_of_input (h : request.input unicode answer = .ok input) :
    input.request = request ∧ input.MadeFrom unicode answer := by
  obtain ⟨result, hanswer, h⟩ := exists_of_bind_eq_ok h
  obtain ⟨evidence, hevidence, h⟩ := exists_of_bind_eq_ok h
  obtain ⟨address, haddress, h⟩ := exists_of_bind_eq_ok h
  obtain ⟨slug, hslug, h⟩ := exists_of_bind_eq_ok h
  obtain rfl := Except.ok.inj h
  exact ⟨rfl, ⟨result, hanswer, hevidence⟩, haddress, hslug⟩

theorem address_ne_empty {targetSlug : Option String} {fallback address : String}
    (h : resolveTargetSlug unicode targetSlug fallback = .ok address) : address ≠ "" := by
  rw [resolveTargetSlug] at h
  split at h
  · cases h
  · rename_i hne
    exact Except.ok.inj h ▸ hne

theorem orElse_address {address : String} (hne : address ≠ "") (fallback : String) :
    orElse (some address) fallback = address := by
  rw [orElse]
  exact if_neg hne

/-! ## Without an input -/

theorem error_of_bind_eq_error {ε α β : Type} {x : Except ε α} {f : α → Except ε β} {e : ε}
    (h : x >>= f = .error e) : x = .error e ∨ ∃ a, x = .ok a ∧ f a = .error e := by
  cases x with
  | error e' => exact .inl (congrArg _ (Except.error.inj h))
  | ok a => exact .inr ⟨a, rfl, h⟩

theorem searchEvidence_eq {answered : RAGQueryResult} {r : Except PyException CompilerEvidence}
    (h : evidenceOf unicode request.query request.sourceId answered = r)
    (s : Session WikiStore PyException) :
    searchEvidence unicode request (.ok answered) s = (r, s) := by
  refine (bind_ok rfl).trans ?_
  rw [h]
  cases r with
  | ok evidence => rfl
  | error e => rfl

/-- A page whose address has no slug has no title, and the compile does not take it for a new
page. -/
theorem writePage_error {address : String} {evidence : CompilerEvidence} {e : PyException}
    (hresolved : resolveTargetSlug unicode (some request.slug) request.slug = .ok address)
    (hnamed : requireSlug unicode address = .error e) (s : Session WikiStore PyException) :
    writePage unicode request.tenantId request.slug evidence (some request.title) s =
      (.error e, s) := by
  -- `_resolve_page_title` catches only the error of a page that is not there
  have hname : e.className ≠ "WikiPageNotFoundError" := by
    rw [requireSlug] at hnamed
    split at hnamed
    · obtain rfl := Except.error.inj hnamed
      decide
    · cases hnamed
  have hget : getPage unicode request.tenantId address s = (.error e, s) := by
    rw [getPage, hnamed]
    rfl
  have htitle : resolvePageTitle unicode request.tenantId address (some request.title) s =
      (.error e, s) := by
    refine (except_error (bind_error hget)).trans ?_
    rw [if_neg hname]
    rfl
  rw [WikiCompiler.writePage, hresolved]
  exact (bind_ok rfl).trans (bind_error htitle)

/-- Without an input the page is not written, and the error says why there is none. -/
theorem fillUpToPage_error {e : PyException}
    (hinput : request.input unicode answer = .error e) (s : Session WikiStore PyException) :
    fillUpToPage unicode request answer s = (.error e, s) := by
  rcases error_of_bind_eq_error hinput with rfl | ⟨answered, rfl, hfound⟩
  · rfl
  rcases error_of_bind_eq_error hfound with hevidence | ⟨evidence, hevidence, htarget⟩
  · exact bind_error (searchEvidence_eq hevidence s)
  refine (bind_ok (searchEvidence_eq hevidence s)).trans ?_
  rcases error_of_bind_eq_error htarget with haddress | ⟨address, haddress, hname⟩
  · rw [WikiCompiler.writePage, haddress]
    rfl
  rcases error_of_bind_eq_error hname with hslug | ⟨slug, -, hend⟩
  · exact writePage_error haddress hslug s
  · cases hend

/-! ## With an input -/

theorem fillPage_eq (request : CompileRequest) (answer : Except PyException RAGQueryResult)
    (job : WikiCompileJob) :
    fillPage unicode request answer job =
      fillUpToPage unicode request answer >>= finishPage unicode request job := by
  unfold fillPage updateExistingPageWithEvidence finishPage fillUpToPage
  rw [Program.bind_assoc]
  congr 1
  funext evidence
  rw [Program.bind_assoc]
  congr 1
  funext written
  rw [Program.bind_assoc]
  rfl

theorem fillPage_error {e : PyException} (hinput : request.input unicode answer = .error e)
    (job : WikiCompileJob) (s : Session WikiStore PyException) :
    fillPage unicode request answer job s = (.error e, s) := by
  rw [fillPage_eq]
  exact bind_error (fillUpToPage_error hinput s)

/-- With an input, the title is read, and the page is written under it. -/
theorem fillUpToPage_eq (hinput : input.MadeFrom unicode answer)
    (s : Session WikiStore PyException) :
    fillUpToPage unicode input.request answer s =
      (resolvePageTitle unicode input.request.tenantId input.address (some input.request.title) >>=
        writeTitled unicode input) s := by
  obtain ⟨⟨answered, rfl, hevidence⟩, hresolved, -⟩ := hinput
  rw [fillUpToPage, bind_ok (searchEvidence_eq hevidence s), WikiCompiler.writePage, hresolved]
  rfl

theorem fillPage_eq_titled (hinput : input.MadeFrom unicode answer) (job : WikiCompileJob)
    (s : Session WikiStore PyException) :
    fillPage unicode input.request answer job s =
      (resolvePageTitle unicode input.request.tenantId input.address (some input.request.title) >>=
        fun title ↦ writeTitled unicode input title >>=
          finishPage unicode input.request job) s := by
  rw [fillPage_eq, ← Program.bind_assoc]
  rcases hrun : fillUpToPage unicode input.request answer s with ⟨e | written, s'⟩
  · rw [bind_error hrun, bind_error ((fillUpToPage_eq hinput s).symm.trans hrun)]
  · rw [bind_ok hrun, bind_ok ((fillUpToPage_eq hinput s).symm.trans hrun)]

variable {jobId : ℕ} {found : Option WikiPage}

/-- The store while the job is there, and the page as it was found. -/
def CompileInput.Opened (input : CompileInput) (found : Option WikiPage) (jobId n : ℕ)
    (S : WikiStore) : Prop :=
  (S.Numbered n ∧ input.found S = found) ∧ (S.compileJobs.find jobId).isSome

/-- The store when the page was written. -/
def CompileInput.Shown (input : CompileInput) (jobId n : ℕ) (S : WikiStore) : Prop :=
  (S.Numbered n ∧ S.Shown input.request.tenantId input.slug) ∧ (S.compileJobs.find jobId).isSome

/-- **The job is started** in four statements, which concern no other table. -/
theorem takes_startJob (request : CompileRequest) {R : ℕ → WikiStore → Prop}
    (hnum : ∀ n S, R n S → S.Numbered n) (hR : ∀ n m S jobs, R n S →
      ({ S with compileJobs := jobs } : WikiStore).Numbered m →
        R m { S with compileJobs := jobs }) :
    Takes Discarded (Session.Between R) (startJob request) 4
      fun job ↦ Session.Between fun n S ↦ R n S ∧ (S.compileJobs.find job.id).isSome := by
  refine (takes_createCompileJob _ _ _ ?_ hnum).bind (m := 2) fun job ↦ ?_
  · intro n S jobs h hjobs
    exact hR _ _ _ _ h
      { WikiStore.Numbered.mono _ _ _ (Nat.le_succ n) (hnum n S h) with compileJobs := hjobs }
  · refine (takes_updateCompileJobStatus job.id "processing" none ?_).mono (fun _ h ↦ h) ?_
      fun _ _ h ↦ h
    · intro n S patch h
      exact hR _ _ _ _ h { hnum n S h with compileJobs := (hnum n S h).compileJobs.modify _ _ }
    · rintro job' s ⟨S, hidle, hid, hS⟩
      exact ⟨S, hidle, hid ▸ hS⟩

/-- Starting the job leaves the page as it was found. -/
theorem takes_startJob_opened (input : CompileInput) (found : Option WikiPage) :
    Takes Discarded (Session.Between fun n S ↦ S.Numbered n ∧ input.found S = found)
      (startJob input.request) 4 fun job ↦ Session.Between (input.Opened found job.id) :=
  takes_startJob input.request (fun _ _ h ↦ h.1) fun _ _ _ _ h hnum ↦ ⟨hnum, h.2⟩

theorem takes_getPage {R : ℕ → WikiStore → Prop} {page : WikiPage}
    (hnamed : requireSlug unicode input.address = .ok input.slug)
    (hfound : ∀ n S, R n S → input.found S = some page) :
    Takes Unexpired (Session.Between R) (getPage unicode input.request.tenantId input.address) 2
      fun detail ↦ Session.Between fun n S ↦ detail.page = page ∧ R n S := by
  refine Takes.ofExcept hnamed (Takes.bind (n := 1) (m := 1) (Q := fun found ↦
    Session.Between fun n S ↦ found = page ∧ R n S) ?_ fun found ↦ ?_)
  · refine (Takes.query_between (T := fun found n S ↦ found = some page ∧ R n S)
      fun n S h ↦ ⟨hfound n S h, h⟩).bind (m := 0) fun found ↦ ?_
    cases found with
    | none =>
      rintro s ⟨S, -, h, -⟩
      exact absurd h (by simp)
    | some found =>
      refine Takes.pure ?_
      rintro s ⟨S, hidle, h, hR⟩
      exact ⟨S, hidle, Option.some.inj h, hR⟩
  · exact (Takes.query_between (T := fun _ n S ↦ found = page ∧ R n S) fun n S h ↦ h).bind
      (m := 0) fun revision ↦ Takes.pure fun s h ↦ h

/-- **The title** is that of the page that is there, or the one for a new page. -/
theorem takes_resolvePageTitle (found : Option WikiPage) {R : ℕ → WikiStore → Prop}
    (hnamed : requireSlug unicode input.address = .ok input.slug)
    (hfound : ∀ n S, R n S → input.found S = found) :
    Takes Unexpired (fun s ↦ Session.Between R s ∧ DriverErrors s.outcomes)
      (resolvePageTitle unicode input.request.tenantId input.address (some input.request.title))
      (CompileInput.titleLength found) fun title ↦ Session.Between fun n S ↦
        title = (found.map WikiPage.title).getD (input.newTitle unicode) ∧ R n S := by
  rintro s ⟨hs, hdriver⟩
  -- What interrupts a statement is not caught here, since the driver does not raise it.
  have hraised : ∀ {e s'} {m : ℕ}, interruption m s.outcomes = some e →
      getPage unicode input.request.tenantId input.address s = (.error e, s') →
      resolvePageTitle unicode input.request.tenantId input.address (some input.request.title) s
        = (.error e, s') := by
    intro e s' m he hget
    refine (except_error (bind_error hget)).trans ?_
    rw [if_neg (hdriver e (mem_of_interruption he))]
    rfl
  cases found with
  | some page =>
    have hget := takes_getPage hnamed hfound s hs
    rw [show CompileInput.titleLength (some page) = 2 from rfl]
    split at hget
    · obtain ⟨detail, s', hrun, hpassed, S, hidle, hpage, hR⟩ := hget
      exact ⟨_, s', except_ok (bind_ok hrun), hpassed, S, hidle,
        congrArg WikiPage.title hpage, hR⟩
    · rename_i e hsome
      obtain ⟨s', hrun, hkept⟩ := hget
      exact ⟨s', hraised hsome hrun, hkept⟩
  | none =>
    have hquery : Takes Unexpired (Session.Between R)
        (getPageBySlug input.request.tenantId input.slug) 1 fun found ↦
          Session.Between fun n S ↦ found = none ∧ R n S :=
      Takes.query_between fun n S h ↦ ⟨hfound n S h, h⟩
    have hone := hquery s hs
    rw [show CompileInput.titleLength none = 1 from rfl]
    split at hone
    · obtain ⟨page, s', hrun, hpassed, S, hidle, rfl, hR⟩ := hone
      have hrequire : requirePage input.request.tenantId input.slug s =
          (.error (pageNotFound input.slug), s') := bind_ok hrun
      have hget : getPage unicode input.request.tenantId input.address s =
          (.error (pageNotFound input.slug), s') := by
        rw [getPage, hnamed]
        exact (bind_ok rfl).trans (bind_error hrequire)
      exact ⟨_, s', except_error (bind_error hget), hpassed, S, hidle, rfl, hR⟩
    · rename_i e hsome
      obtain ⟨s', hrun, hkept⟩ := hone
      refine ⟨s', hraised hsome ?_, hkept⟩
      rw [getPage, hnamed]
      exact (bind_ok rfl).trans (bind_error (bind_error hrun))

theorem Written.compileJobs {W W₁ W' : WikiStore} {update : PageUpdate} {slug : String}
    {page : WikiPage} {detail : WikiPageDetail} (hprep : PagePrepared W update slug page W₁)
    (hwritten : WikiService.Written unicode W₁ W' update.tenantId page update.content detail) :
    W'.compileJobs = W.compileJobs := by
  obtain ⟨revision, -, W₂, hadded, hlinks⟩ := hwritten.detail
  obtain ⟨-, -, revisions, hins, rfl⟩ := hadded
  have hlast : W'.compileJobs = W₁.compileJobs := by rw [hlinks.store]
  have hfirst : W₁.compileJobs = W.compileJobs := by cases hprep <;> rfl
  rw [hlast, hfirst]

/-- **The page** is written, and shown afterwards. -/
theorem takes_writeTitled (input : CompileInput) (title : String) (found : Option WikiPage)
    (hne : input.address ≠ "") (hnamed : requireSlug unicode input.address = .ok input.slug) :
    Takes Discarded (Session.Between (input.Opened found jobId))
      (writeTitled unicode input title)
      (prepareLength found + writeLength unicode (input.update unicode title).content + 1)
      fun written ↦ Session.Between fun n S ↦ (written.slug = input.address ∧
        written.claims = input.claims unicode ∧ written.sources = input.sources) ∧
          input.Shown jobId n S := by
  have hslug : requireSlug unicode (orElse (input.update unicode title).slug
      (input.update unicode title).title) = .ok input.slug := by
    rw [CompileInput.update, pageUpdate, orElse_address hne, hnamed]
  have hpage := ((takes_createOrUpdatePage unicode (input.update unicode title) found hslug).mono
    (O := Session.Between (input.Opened found jobId)) (fun s ⟨S, hidle, h, _⟩ ↦ ⟨S, hidle, h⟩)
    (fun _ _ h ↦ h) fun _ _ h ↦ h).and_outTx fun m S _ ↦
      outTx_createOrUpdatePage unicode S (input.update unicode title)
  refine hpage.bind (m := 0) fun detail ↦ ?_
  -- The page that was written is the one under the slug, and its revision is current.
  have hcurrent : ∀ s : Session WikiStore PyException, (Session.Between fun n S' ↦ S'.Numbered n ∧
      ∃ m S, input.Opened found jobId m S ∧ ∃ slug page W₁,
        requireSlug unicode (orElse (input.update unicode title).slug
          (input.update unicode title).title) = .ok slug ∧
        PagePrepared S (input.update unicode title) slug page W₁ ∧
        WikiService.Written unicode W₁ S' (input.update unicode title).tenantId page
          (input.update unicode title).content detail) s →
      Session.Between (fun n S ↦ detail.currentRevision.isSome ∧ input.Shown jobId n S) s := by
    rintro s ⟨S', hidle, hnum, m, S, hopened, slug, page, W₁, hslug', hprep, hwritten⟩
    obtain rfl := Except.ok.inj (hslug.symm.trans hslug')
    obtain ⟨hstored, -⟩ := hwritten.pageBySlug hprep.pageBySlug
    obtain ⟨revision, hdetail, -⟩ := hwritten.detail
    have hsome : detail.currentRevision.isSome := by rw [hdetail]; rfl
    refine ⟨S', hidle, hsome, ⟨hnum, detail.page, hstored, ?_⟩, ?_⟩
    · rw [hwritten.currentOf]
      exact hsome
    · rw [Written.compileJobs hprep hwritten]
      exact hopened.2
  refine Takes.mono (P := Session.Between fun n S ↦ detail.currentRevision.isSome ∧
    input.Shown jobId n S) ?_ hcurrent (fun _ _ h ↦ h) fun _ _ h ↦ h
  cases detail with
  | mk page revision =>
    cases revision with
    | none =>
      rintro s ⟨S, -, h, -⟩
      exact absurd h Bool.false_ne_true
    | some revision =>
      refine Takes.pure ?_
      rintro s ⟨S, hidle, -, hshown⟩
      exact ⟨S, hidle, ⟨rfl, rfl, rfl⟩, hshown⟩

/-- **A claim** leaves the page and the job as they are. -/
theorem takes_addClaim (jobId : ℕ) (written : PageWritten) (text : List Char)
    (hslug : written.slug = input.address)
    (hnamed : requireSlug unicode input.address = .ok input.slug) :
    Takes Discarded (Session.Between (input.Shown jobId))
      (addClaim unicode input.request.tenantId written text) (claimLength written.sources)
      fun _ ↦ Session.Between (input.Shown jobId) := by
  have hclaim := ((@takes_addClaimWithSources input.request.tenantId _ unicode _ text
    written.sources "supported" (some 5000) (hslug ▸ hnamed)).mono
      (O := Session.Between (input.Shown jobId)) (fun s ⟨S, hidle, h, _⟩ ↦ ⟨S, hidle, h⟩)
      (fun _ _ h ↦ h) fun _ _ h ↦ h).and_outTx fun m S _ ↦
        outTx_addClaimWithSources unicode S _ _ _ _ _ _
  refine hclaim.mono (fun _ h ↦ h) ?_ fun _ _ h ↦ h
  rintro bundle s ⟨S', hidle, hnum, m, S, ⟨⟨-, page, hpage, hcurrent⟩, hjob⟩, slug, -, hadded, -⟩
  have hstore := hadded.store
  refine ⟨S', hidle, ⟨hnum, page, ?_, ?_⟩, ?_⟩
  · rw [WikiStore.pageBySlug, hstore]
    exact hpage
  · rw [WikiStore.currentOf, hstore]
    exact hcurrent
  · rw [hstore]
    exact hjob

/-- **The rest of the `try` block.** -/
theorem takes_finishPage (written : PageWritten) (job : WikiCompileJob)
    (hslug : written.slug = input.address) (hclaims : written.claims = input.claims unicode)
    (hsources : written.sources = input.sources)
    (hnamed : requireSlug unicode input.address = .ok input.slug) :
    Takes Discarded (Session.Between (input.Shown job.id))
      (finishPage unicode input.request job written) (input.finishLength unicode)
      fun _ ↦ Session.Between fun n S ↦ S.Numbered n := by
  have hloop := Takes.mapM' (fun text ↦ takes_addClaim job.id written text hslug hnamed)
    written.claims
  rw [hclaims, hsources] at hloop
  unfold finishPage
  rw [hclaims]
  refine hloop.bind (m := 2) fun _ ↦ Takes.bind (n := 2) (m := 0)
    (takes_updateCompileJobStatus job.id "succeeded" none fun n S patch h ↦ ?_) fun job' ↦
      Takes.pure fun s ⟨S, hidle, _, hshown, _⟩ ↦ ⟨S, hidle, hshown.1⟩
  exact ⟨{ h.1 with compileJobs := h.1.compileJobs.modify _ _ }, h.2⟩

theorem CompileInput.MadeFrom.address_ne_empty (h : input.MadeFrom unicode answer) :
    input.address ≠ "" :=
  KnowledgeAlakazam.address_ne_empty h.resolved

/-- What is done once the title is known. -/
theorem takes_fillTitled (h : input.MadeFrom unicode answer) (job : WikiCompileJob)
    (store : WikiStore) :
    Takes Discarded (Session.Between (input.Opened (input.found store) job.id))
      (writeTitled unicode input (input.title unicode store) >>=
        finishPage unicode input.request job)
      (input.pageLength unicode store + input.finishLength unicode)
      fun _ ↦ Session.Between fun n S ↦ S.Numbered n := by
  refine (takes_writeTitled input (input.title unicode store) (input.found store)
    h.address_ne_empty h.named).bind fun written ↦ ?_
  by_cases hof : written.slug = input.address ∧ written.claims = input.claims unicode ∧
      written.sources = input.sources
  · obtain ⟨hslug, hclaims, hsources⟩ := hof
    exact (takes_finishPage written job hslug hclaims hsources h.named).mono
      (fun s ⟨S, hidle, _, hshown⟩ ↦ ⟨S, hidle, hshown⟩) (fun _ _ h ↦ h) fun _ _ h ↦ h
  · rintro s ⟨S, -, hwritten, -⟩
    exact absurd hwritten hof

/-- **The `try` block, up to the commit of its page.** -/
theorem takes_fillUpToPage (jobId : ℕ) (h : input.MadeFrom unicode answer) (store : WikiStore) :
    Takes (fun _ _ ↦ True) (fun s ↦ Session.Between (input.Opened (input.found store) jobId) s ∧
        DriverErrors s.outcomes) (fillUpToPage unicode input.request answer)
      (CompileInput.titleLength (input.found store) + input.pageLength unicode store)
      fun written ↦ Session.Between fun n S ↦ (written.slug = input.address ∧
        written.claims = input.claims unicode ∧ written.sources = input.sources) ∧
          input.Shown jobId n S := by
  refine Takes.congr ?_ fun s _ ↦ fillUpToPage_eq h s
  have htitle := (takes_resolvePageTitle (input.found store)
    (R := input.Opened (input.found store) jobId) h.named fun _ _ h ↦ h.1.2).mono
      (F := fun _ _ ↦ True) (fun _ h ↦ h) (fun _ _ h ↦ h) fun _ _ _ ↦ trivial
  refine htitle.bind fun title ↦ ?_
  by_cases hkept : title = input.title unicode store
  · subst hkept
    exact (takes_writeTitled input (input.title unicode store) (input.found store)
      h.address_ne_empty h.named).mono (fun s ⟨S, hidle, _, hopened⟩ ↦ ⟨S, hidle, hopened⟩)
        (fun _ _ h ↦ h) fun _ _ _ ↦ trivial
  · rintro s ⟨S, -, htitle, -⟩
    exact absurd htitle hkept

end KnowledgeAlakazam
