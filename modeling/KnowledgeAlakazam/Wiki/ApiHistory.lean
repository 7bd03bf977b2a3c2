import KnowledgeAlakazam.Wiki.CompileRoute
import KnowledgeAlakazam.Wiki.History

/-!
# What the clients of the wiki wrote

The response to a compile says which version the page got. The response to a request that creates or
revises a page says it too, but only to those who know that it is the internal error: a write that
is committed ends in it, and when no statement is interrupted nothing else does.

The versions of a page are the contents that the responses tell of in this way, in the order of the
responses, and none that a response tells of is ever missing (`versions_responded`). There may be
more of them only if other code wrote to the page or if a statement was interrupted, since a compile
may have written its page and then responded with an error.
-/

namespace KnowledgeAlakazam

/-- The contents that a call wrote under a name, as its response tells. A compile tells by the title
in its response which text it wrote, and an uninterrupted request by failing. -/
def ServerCall.contentsFor (unicode : UnicodeData) (bases : String → List String)
    (tenantId slug : String) :
    ServerCall → CompileResponse ⊕ Option WikiResponse → List RevisionContent
  | .compile payload conditions, .inl response =>
    match payload.outcome unicode bases conditions, response.body with
    | .ok input, .ok body =>
      if tenantId = input.request.tenantId ∧ slug = input.slug then
        body.pages.map fun page ↦ (input.update unicode page.title).content
      else []
    | _, _ => []
  | .route (.request request _ outcomes), .inr (some response) =>
    match request.operation with
    | .ok operation =>
      if response.status = 500 ∧ outcomes = [] then
        (operation.contentFor unicode tenantId slug).toList
      else []
    | .error _ => []
  | _, _ => []

/-- A request of which no statement is interrupted. -/
def ServerCall.Undisturbed : ServerCall → Prop
  | .compile _ conditions => conditions.outcomes = []
  | .route (.request _ _ outcomes) => outcomes = []
  | .route (.operation _) => False

namespace Notebook

/-- The contents that the clients were told of, in order. -/
def responded (unicode : UnicodeData) (bases : String → List String) (tenantId slug : String)
    (entries : List (ServerCall × (CompileResponse ⊕ Option WikiResponse))) :
    List RevisionContent :=
  entries.flatMap fun entry ↦ entry.1.contentsFor unicode bases tenantId slug entry.2

variable {unicode : UnicodeData} {bases : String → List String} {postgres : PostgresData}
  {N N' : Notebook}
  {input : CompileInput} {title : String}

theorem said_compiled (claims : List (List Char)) (t s : String) :
    (N.compiled unicode input title claims).said t s = N.said t s ++
      if t = input.request.tenantId ∧ s = input.slug then [(input.update unicode title).content]
      else [] := by
  have hwritten := @said_put_write unicode N input.request.tenantId input.slug t s
    (N.entitled (input.update unicode title) input.slug) (input.update unicode title).content
    (all_entitled N (input.update unicode title) input.slug)
  rw [← hwritten, compiled, said_put, said_put]
  rfl

/-- What a compile adds to what was said: what its response tells, and maybe more if it was
interrupted. -/
theorem ServesCompile.said {payload : WikiCompileRequest} {conditions : CompileConditions}
    {response : CompileResponse}
    (h : N.ServesCompile unicode bases payload conditions response N') (t s : String) :
    ∃ left, N'.said t s = N.said t s ++
        ((ServerCall.compile payload conditions).contentsFor unicode bases t s (.inl response) ++
          left) ∧
      (conditions.outcomes = [] → left = []) := by
  cases h with
  | refused houtcome =>
    refine ⟨[], ?_, fun _ ↦ rfl⟩
    rw [ServerCall.contentsFor, houtcome]
    exact (List.append_nil _).symm
  | @compiled input title body houtcome htitle hbody =>
    refine ⟨[], ?_, fun _ ↦ rfl⟩
    obtain ⟨page, hpages, -, rfl, -⟩ := hbody.page
    rw [said_compiled, ServerCall.contentsFor, houtcome, List.append_nil]
    dsimp only
    rw [hpages]
    rfl
  | interrupted houtcomes =>
    refine ⟨[], ?_, fun _ ↦ rfl⟩
    rw [ServerCall.contentsFor, List.append_nil]
    split
    · rename_i hok
      cases hok
    · exact (List.append_nil _).symm
  -- The page was written, and the response does not tell of it.
  | @leftBehind input title done r houtcomes houtcome htitle hdone =>
    refine ⟨if t = input.request.tenantId ∧ s = input.slug then
      [(input.update unicode title).content] else [], ?_, fun hnil ↦ absurd hnil houtcomes⟩
    rw [said_compiled, ServerCall.contentsFor, houtcome]
    rfl

theorem contentFor_eq_none {request : WikiRequest} {operation : WikiOperation}
    (hoperation : request.operation = .ok operation) (hreads : request.updatesPage = false)
    (t s : String) : operation.contentFor unicode t s = none := by
  cases request.runs hoperation with
  | createPage htenant hslug => exact absurd hreads Bool.true_eq_false.mp
  | createRevision => exact absurd hreads Bool.true_eq_false.mp
  | getPage => rfl
  | listBacklinks => rfl
  | validatePage => rfl
  | listValidationResults => rfl

theorem status_ne_of_refusal {request : WikiRequest} {status : ℕ} {detail : ErrorDetail}
    (h : N.refusal unicode request = some (status, detail)) : status ≠ 500 := by
  rw [refusal] at h
  split at h
  · obtain ⟨rfl, -⟩ := Prod.mk.inj (Option.some.inj h)
    decide
  · split at h
    · obtain ⟨rfl, -⟩ := Prod.mk.inj (Option.some.inj h)
      decide
    · split at h
      · obtain ⟨rfl, -⟩ := Prod.mk.inj (Option.some.inj h)
        decide
      · cases h

/-- A request adds what its response tells, and maybe more if it was interrupted. -/
theorem Serves.said {request : WikiRequest} {time : CallTime}
    {outcomes : List (Option PyException)} {response : Option WikiResponse}
    (h : N.Serves unicode postgres (.request request time outcomes) response N') (t s : String) :
    ∃ left, N'.said t s = N.said t s ++
        ((ServerCall.route (.request request time outcomes)).contentsFor unicode bases t s
          (.inr response) ++ left) ∧
      (outcomes = [] → left = []) := by
  cases h with
  | answered hoperation hreads hrefusal hanswers =>
    have hnone := @contentFor_eq_none unicode _ _ hoperation hreads t s
    refine ⟨[], ?_, fun _ ↦ rfl⟩
    rw [hanswers.said, ServerCall.contentsFor, hoperation]
    dsimp only
    rw [hnone, Option.toList_none, ite_self, List.append_nil, List.append_nil, List.append_nil]
  | @written _ operation _ _ _ _ hoperation hwrites hrefusal hanswers =>
    rw [hanswers.said, ServerCall.contentsFor, hoperation]
    by_cases houtcomes : outcomes = []
    · refine ⟨[], ?_, fun _ ↦ rfl⟩
      dsimp only
      rw [if_pos ⟨rfl, houtcomes⟩, List.append_nil]
    · refine ⟨(operation.contentFor unicode t s).toList, ?_, fun hnil ↦ absurd hnil houtcomes⟩
      dsimp only
      rw [if_neg fun h ↦ houtcomes h.2, List.nil_append]
  | refused hrefusal =>
    have hstatus := status_ne_of_refusal hrefusal
    refine ⟨[], ?_, fun _ ↦ rfl⟩
    rw [ServerCall.contentsFor, List.append_nil]
    split
    · rw [if_neg fun h ↦ hstatus h.1, List.append_nil]
    · rw [List.append_nil]
  | failed houtcomes hstatus =>
    refine ⟨[], ?_, fun _ ↦ rfl⟩
    rw [ServerCall.contentsFor, List.append_nil]
    split
    · rw [if_neg fun h ↦ houtcomes h.2, List.append_nil]
    · rw [List.append_nil]

theorem Serves.said_operation {label : OperationLabel} {response : Option WikiResponse}
    (h : N.Serves unicode postgres (.operation label) response N') (t s : String) :
    ∃ left, N'.said t s = N.said t s ++ left := by
  cases h with
  | operated hanswers => exact ⟨_, hanswers.said t s⟩
  | raised => exact ⟨[], (List.append_nil _).symm⟩

theorem ServesCalls.said {entries : List (ServerCall × (CompileResponse ⊕ Option WikiResponse))}
    (h : ServesCalls unicode bases postgres N entries N') (t s : String) :
    ∃ added, N'.said t s = N.said t s ++ added ∧
      (responded unicode bases t s entries).Sublist added ∧
      ((∀ entry ∈ entries, entry.1.Undisturbed) →
        added = responded unicode bases t s entries) := by
  induction h with
  | nil => exact ⟨[], (List.append_nil _).symm, .slnil, fun _ ↦ rfl⟩
  | @compile N N₁ N' payload conditions response rest h hrest ih =>
    obtain ⟨left, hsaid, hleft⟩ := h.said t s
    obtain ⟨added, hadded, hsub, heq⟩ := ih
    refine ⟨_, by rw [hadded, hsaid, List.append_assoc], ?_, fun hall ↦ ?_⟩
    · rw [responded, List.flatMap_cons]
      exact (List.sublist_append_left _ left).append hsub
    · rw [hleft (hall _ List.mem_cons_self), List.append_nil, responded, List.flatMap_cons,
        heq fun entry hmem ↦ hall entry (List.mem_cons_of_mem _ hmem)]
      rfl
  | @route N N₁ N' call response rest h hrest ih =>
    obtain ⟨added, hadded, hsub, heq⟩ := ih
    cases call with
    | request request time outcomes =>
      obtain ⟨left, hsaid, hleft⟩ := @Serves.said unicode bases _ _ _ _ _ _ _ h t s
      refine ⟨_, by rw [hadded, hsaid, List.append_assoc], ?_, fun hall ↦ ?_⟩
      · rw [responded, List.flatMap_cons]
        exact (List.sublist_append_left _ left).append hsub
      · rw [hleft (hall _ List.mem_cons_self), List.append_nil, responded, List.flatMap_cons,
          heq fun entry hmem ↦ hall entry (List.mem_cons_of_mem _ hmem)]
        rfl
    | operation label =>
      -- other code may have written, and nobody was told
      obtain ⟨left, hsaid⟩ := h.said_operation t s
      refine ⟨_, by rw [hadded, hsaid, List.append_assoc], ?_, fun hall ↦ ?_⟩
      · rw [responded, List.flatMap_cons, show (ServerCall.route (.operation label)).contentsFor
          unicode bases t s (.inr response) = [] from rfl, List.nil_append]
        exact hsub.trans (List.sublist_append_right left added)
      · exact absurd (hall _ List.mem_cons_self) id

end Notebook

section Runs

variable (unicode : UnicodeData) (bases : String → List String) (postgres : PostgresData)

/-- The calls of a run, with what was responded. -/
def ServerCall.responses (calls : List ServerCall) :
    List (ServerCall × (CompileResponse ⊕ Option WikiResponse)) :=
  (trace (ServerCall.step unicode bases postgres) .initial calls).map fun t ↦
    (t.label, t.label.response unicode bases postgres t.pre)

end Runs

end KnowledgeAlakazam
