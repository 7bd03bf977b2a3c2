import KnowledgeAlakazam.Wiki.Answered

/-!
# Histories

What a course of exchanges says about the articles, told by the exchanges alone. The versions of an
article are the contents that were accepted under its name, in order (`accepted`), and the version
that is shown is the one that the last reply about the article showed (`told`): a reader who was
told of a version sees it until somebody is told of another. Both are read off the notebook, one
operation at a time, and hold of the tables because these are a notebook after every run.
-/

namespace KnowledgeAlakazam

/-- The slug that an address stands for. -/
def NamedBy (unicode : UnicodeData) (address slug : String) : Prop :=
  (requireSlug unicode address).toOption = some slug

instance (unicode : UnicodeData) (address slug : String) :
    Decidable (NamedBy unicode address slug) :=
  inferInstanceAs (Decidable (_ = _))

/-- The content that an operation writes under a name. -/
def WikiOperation.contentFor (unicode : UnicodeData) (tenantId slug : String) :
    WikiOperation → Option RevisionContent
  | createOrUpdatePage update =>
    if tenantId = update.tenantId ∧ NamedBy unicode (orElse update.slug update.title) slug then
      some update.content
    else none
  | createRevision tenantId' address c =>
    if tenantId = tenantId' ∧ NamedBy unicode address slug then some c else none
  | _ => none

/-- The version that a reply shows, if it is about the article under a name. -/
def Reply.about (tenantId slug : String) : Reply → Option (Option (ℕ × RevisionContent))
  | page tenantId' slug' _ _ _ shown =>
    if tenantId = tenantId' ∧ slug = slug' then some shown else none
  | _ => none

namespace Notebook

/-- The contents that were accepted under a name, in order. -/
def accepted (unicode : UnicodeData) (tenantId slug : String) (exchanges : List Exchange) :
    List RevisionContent :=
  exchanges.filterMap fun e ↦ e.reply.bind fun _ ↦ e.operation.contentFor unicode tenantId slug

/-- What the last reply about the article under a name showed. -/
def told (tenantId slug : String) (exchanges : List Exchange) :
    Option (Option (ℕ × RevisionContent)) :=
  (exchanges.filterMap fun e ↦ e.reply.bind (Reply.about tenantId slug)).getLast?

def said (N : Notebook) (tenantId slug : String) : List RevisionContent :=
  (N tenantId slug).elim [] fun a ↦ a.history.all

/-- The version that is shown under a name. -/
def shownAt (N : Notebook) (tenantId slug : String) : Option (Option (ℕ × RevisionContent)) :=
  (N tenantId slug).map fun a ↦ a.history.shown

variable {unicode : UnicodeData} {postgres : PostgresData} {N N' : Notebook}
  {tenantId slug t s : String} {a : Article}

theorem namedBy_iff {address : String} (h : requireSlug unicode address = .ok slug) :
    NamedBy unicode address s ↔ s = slug := by
  rw [NamedBy, h]
  exact ⟨fun heq ↦ (Option.some.inj heq).symm, fun heq ↦ heq ▸ rfl⟩

/-! ## After a change under a name -/

theorem said_put : (N.put tenantId slug a).said t s =
    if t = tenantId ∧ s = slug then a.history.all else N.said t s := by
  rw [said, put]
  split <;> rfl

theorem shownAt_put : (N.put tenantId slug a).shownAt t s =
    if t = tenantId ∧ s = slug then some a.history.shown else N.shownAt t s := by
  rw [shownAt, put]
  split <;> rfl

theorem said_put_of_all (hall : a.history.all = N.said tenantId slug) :
    (N.put tenantId slug a).said t s = N.said t s := by
  rw [said_put]
  split
  · rename_i h
    rw [h.1, h.2, hall]
  · rfl

theorem shownAt_put_of_shown (hshown : some a.history.shown = N.shownAt tenantId slug) :
    (N.put tenantId slug a).shownAt t s = N.shownAt t s := by
  rw [shownAt_put]
  split
  · rename_i h
    rw [h.1, h.2, hshown]
  · rfl

theorem said_put_write {c : RevisionContent} (ha : a.history.all = N.said tenantId slug) :
    (N.put tenantId slug (a.write unicode c)).said t s =
      N.said t s ++ if t = tenantId ∧ s = slug then [c] else [] := by
  rw [said_put]
  split
  · rename_i h
    rw [h.1, h.2, ← ha]
    rfl
  · rw [List.append_nil]

theorem said_of_some (ha : N tenantId slug = some a) : a.history.all = N.said tenantId slug := by
  rw [said, ha]
  rfl

theorem all_entitled (N : Notebook) (update : PageUpdate) (slug : String) :
    (N.entitled update slug).history.all = N.said update.tenantId slug := by
  rw [entitled, said]
  cases N update.tenantId slug <;> rfl

/-! ## One operation -/

theorem Answers.said {operation : WikiOperation} {reply : Reply}
    (h : N.Answers unicode postgres operation reply N') (t s : String) :
    N'.said t s = N.said t s ++ (operation.contentFor unicode t s).toList := by
  cases h with
  | @updated update slug a hslug ha =>
    rw [ha, said_put_write (all_entitled N update slug), WikiOperation.contentFor]
    simp only [namedBy_iff hslug]
    split <;> rfl
  | revised hslug ha =>
    rw [said_put_write (said_of_some ha), WikiOperation.contentFor]
    simp only [namedBy_iff hslug]
    split <;> rfl
  | published hslug ha hno hpublish =>
    refine (said_put_of_all ?_).trans (List.append_nil _).symm
    exact (Versions.publish_eq_some.mp hpublish).2.1.trans (said_of_some ha)
  | @claimed _ _ _ _ _ _ _ a _ hslug ha hno =>
    refine (said_put_of_all ?_).trans (List.append_nil _).symm
    exact said_of_some (a := a) ha
  | @relinked _ _ _ _ a hslug ha =>
    refine (said_put_of_all ?_).trans (List.append_nil _).symm
    exact said_of_some (a := a) ha
  | shown hslug ha => exact (List.append_nil _).symm
  | linked hslug hsources => exact (List.append_nil _).symm
  | validated hslug ha hno => exact (List.append_nil _).symm
  | listed hslug ha hno => exact (List.append_nil _).symm

/-- What a reply shows is shown from then on, and nothing else changes what is shown. -/
theorem Answers.shownAt {operation : WikiOperation} {reply : Reply}
    (h : N.Answers unicode postgres operation reply N') (t s : String) :
    N'.shownAt t s = (reply.about t s).or (N.shownAt t s) := by
  have hput : ∀ (tenantId slug : String) (a : Article), (N.put tenantId slug a).shownAt t s =
      ((a.reply tenantId slug).about t s).or (N.shownAt t s) := by
    intro tenantId slug a
    rw [shownAt_put, Article.reply, Reply.about]
    split <;> rfl
  cases h with
  | updated hslug ha => exact hput _ _ _
  | revised hslug ha => exact hput _ _ _
  | published hslug ha hno hpublish => exact hput _ _ _
  | @shown tenantId address slug a hslug ha =>
    rw [← hput tenantId slug a, shownAt_put_of_shown]
    rw [Notebook.shownAt, ha]
    rfl
  | claimed hslug ha hno =>
    refine shownAt_put_of_shown ?_
    rw [Notebook.shownAt, ha]
    rfl
  | relinked hslug ha =>
    refine shownAt_put_of_shown ?_
    rw [Notebook.shownAt, ha]
    rfl
  | linked hslug hsources => rfl
  | validated hslug ha hno => rfl
  | listed hslug ha hno => rfl

/-! ## Courses -/

theorem Course.said {exchanges : List Exchange} (h : Course unicode postgres N exchanges N')
    (t s : String) : N'.said t s = N.said t s ++ accepted unicode t s exchanges := by
  induction h with
  | nil => exact (List.append_nil _).symm
  | @answered N N₁ N' operation disturbed reply rest hanswers hrest ih =>
    rw [ih, hanswers.said, List.append_assoc, accepted, accepted, List.filterMap_cons,
      Option.bind_some]
    cases operation.contentFor unicode t s <;> rfl
  | refused hreason hrest ih => exact ih

theorem Course.shownAt {exchanges : List Exchange} (h : Course unicode postgres N exchanges N')
    (t s : String) : N'.shownAt t s = (told t s exchanges).or (N.shownAt t s) := by
  induction h with
  | nil => rfl
  | @answered N N₁ N' operation disturbed reply rest hanswers hrest ih =>
    rw [ih, hanswers.shownAt, told, told, ← Option.or_assoc, List.filterMap_cons, Option.bind_some]
    cases reply.about t s with
    | none => rw [Option.or_none]
    | some shown => rw [List.getLast?_cons, Option.or_some, Option.some_or]
  | refused hreason hrest ih => exact ih

end Notebook

/-! ## Runs -/

section Runs

variable (unicode : UnicodeData) (postgres : PostgresData)

/-- **The revisions of a page are the contents that were accepted under its name**, each once, in
the order of the calls, numbered from one. -/
theorem revisions_accepted (labels : List OperationLabel) (tenantId slug : String) :
    (((run (DatabaseState.step unicode postgres) .initial labels).db.wiki.pageBySlug tenantId
        slug).elim [] fun page ↦
      ((run (DatabaseState.step unicode postgres) .initial labels).db.wiki.revisionsOf
        page.id).map fun revision ↦ (revision.revisionNo, revision.said)) =
      ((Notebook.accepted unicode tenantId slug ((trace (DatabaseState.step unicode postgres)
        .initial labels).map (exchange unicode postgres))).zipIdx 1).map Prod.swap := by
  obtain ⟨N, hcourse, h⟩ := @course_run unicode .empty postgres .initial
    WikiDatabase.Intact.empty (WikiDatabase.Numbered.empty 0) depicts_empty labels
  rw [← List.nil_append (Notebook.accepted _ _ _ _),
    show ([] : List RevisionContent) = Notebook.empty.said tenantId slug from rfl,
    ← hcourse.said, Notebook.said]
  cases hpage : (run (DatabaseState.step unicode postgres) .initial labels).db.wiki.pageBySlug
    tenantId slug with
  | none =>
    rw [h.eq_none hpage]
    rfl
  | some page =>
    obtain ⟨a, ha, hshows⟩ := h.exists_article hpage
    rw [ha]
    exact hshows.versions

/-- **The current revision of a page is the one that was last told of.** Of all the replies that
were about the page, to whichever caller, the last one shows the current revision. -/
theorem current_told (labels : List OperationLabel) (tenantId slug : String) :
    (((run (DatabaseState.step unicode postgres) .initial labels).db.wiki.pageBySlug tenantId
        slug).map fun page ↦
      ((run (DatabaseState.step unicode postgres) .initial labels).db.wiki.currentOf
        page).map fun revision ↦ (revision.revisionNo, revision.said)) =
      Notebook.told tenantId slug ((trace (DatabaseState.step unicode postgres)
        .initial labels).map (exchange unicode postgres)) := by
  obtain ⟨N, hcourse, h⟩ := @course_run unicode .empty postgres .initial
    WikiDatabase.Intact.empty (WikiDatabase.Numbered.empty 0) depicts_empty labels
  have hintact := (reachable unicode postgres labels).1
  have hshown := hcourse.shownAt tenantId slug
  rw [show Notebook.empty.shownAt tenantId slug = none from rfl, Option.or_none] at hshown
  rw [← hshown, Notebook.shownAt]
  cases hpage : (run (DatabaseState.step unicode postgres) .initial labels).db.wiki.pageBySlug
    tenantId slug with
  | none =>
    rw [h.eq_none hpage]
    rfl
  | some page =>
    obtain ⟨a, ha, hshows⟩ := h.exists_article hpage
    rw [ha]
    exact congrArg some (hshows.shown hintact.wiki (Table.mem_of_lookup hpage))

end Runs

end KnowledgeAlakazam
