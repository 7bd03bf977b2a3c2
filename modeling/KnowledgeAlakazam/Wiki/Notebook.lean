import KnowledgeAlakazam.Core.Versions
import KnowledgeAlakazam.Wiki.Operations

/-!
# What the wiki is for

The wiki as its users know it, without rows and ids: under the name of a tenant and a slug there
is an article, or there is none. An article has a title, a type, a status, a document with
versions, the slugs that it links to, and the claims that were made about its versions. The
operations are described by what they say and by what they make of the articles (`Answers`), and a
course of exchanges is made of these (`Course`).
-/

namespace KnowledgeAlakazam

structure Article where
  title : String
  pageType : String
  status : String
  history : Versions RevisionContent
  /-- The slugs it links to, in order. -/
  links : List String
  /-- The claims, each with the number of the version it is about. -/
  claims : List (ℕ × List Char)

/-- The articles, by tenant and slug. -/
abbrev Notebook := String → String → Option Article

/-- What an operation says to its caller. -/
inductive Reply where
  /-- An article, and the version that is shown. -/
  | page (tenantId slug title pageType status : String) (shown : Option (ℕ × RevisionContent))
  | claim (claimText : List Char)
  | links (toSlugs : List String)
  /-- Articles, by title and slug. -/
  | backlinks (sources : List (String × String))
  | findings

namespace Article

def reply (tenantId slug : String) (a : Article) : Reply :=
  .page tenantId slug a.title a.pageType a.status a.history.shown

def write (unicode : UnicodeData) (c : RevisionContent) (a : Article) : Article :=
  { a with
    history := a.history.add c
    links := dedupeSlugs (linkTargets unicode c) }

/-- The number of the version that is meant: the one that is shown, or the one that is asked for,
if there is one. -/
def versionMeant (a : Article) : Option ℤ → Option ℕ
  | none => a.history.current
  | some no => if 1 ≤ no ∧ no ≤ a.history.all.length then some no.toNat else none

end Article

namespace Notebook

def empty : Notebook := fun _ _ ↦ none

def put (N : Notebook) (tenantId slug : String) (a : Article) : Notebook :=
  fun t s ↦ if t = tenantId ∧ s = slug then some a else N t s

/-- The article an update is for, under its title: a new one, or the one that is there. -/
def entitled (N : Notebook) (update : PageUpdate) (slug : String) : Article :=
  match N update.tenantId slug with
  | none => ⟨update.title, update.pageType, orElse update.status "draft", .empty, [], []⟩
  | some a => { a with
    title := update.title
    pageType := update.pageType
    status := update.status.getD a.status }

/-- The articles of a tenant that link to a slug, by title and slug. -/
structure LinkedFrom (postgres : PostgresData) (N : Notebook) (tenantId slug : String)
    (sources : List (String × String)) : Prop where
  ordered : sources.Pairwise fun a b ↦
    postgres.TextLT a.1 b.1 ∨ a.1 = b.1 ∧ postgres.TextLT a.2 b.2
  mem : ∀ title source, (title, source) ∈ sources ↔
    ∃ a, N tenantId source = some a ∧ a.title = title ∧ slug ∈ a.links

/-- **What the operations are for.** The answer to an operation, and the articles after it. -/
inductive Answers (unicode : UnicodeData) (postgres : PostgresData) (N : Notebook) :
    WikiOperation → Reply → Notebook → Prop
  | updated {update : PageUpdate} {slug : String} {a : Article}
    (hslug : requireSlug unicode (orElse update.slug update.title) = .ok slug)
    (ha : a = (N.entitled update slug).write unicode update.content) :
    Answers unicode postgres N (.createOrUpdatePage update) (a.reply update.tenantId slug)
      (N.put update.tenantId slug a)
  | revised {tenantId address slug : String} {c : RevisionContent} {a : Article}
    (hslug : requireSlug unicode address = .ok slug) (ha : N tenantId slug = some a) :
    Answers unicode postgres N (.createRevision tenantId address c)
      ((a.write unicode c).reply tenantId slug) (N.put tenantId slug (a.write unicode c))
  | published {tenantId address slug : String} {revisionNo : Option ℤ} {a : Article} {no : ℕ}
    {history : Versions RevisionContent} (hslug : requireSlug unicode address = .ok slug)
    (ha : N tenantId slug = some a) (hno : a.versionMeant revisionNo = some no)
    (hpublish : a.history.publish no = some history) :
    Answers unicode postgres N (.publishPage tenantId address revisionNo)
      ({ a with history := history, status := "published" }.reply tenantId slug)
      (N.put tenantId slug { a with history := history, status := "published" })
  | shown {tenantId address slug : String} {a : Article}
    (hslug : requireSlug unicode address = .ok slug) (ha : N tenantId slug = some a) :
    Answers unicode postgres N (.getPage tenantId address) (a.reply tenantId slug) N
  | claimed {tenantId address slug : String} {claimText : List Char}
    {sources : List ClaimSourceInput} {supportStatus : String} {confidence : Option ℤ}
    {a : Article} {no : ℕ} (hslug : requireSlug unicode address = .ok slug)
    (ha : N tenantId slug = some a) (hno : a.history.current = some no) :
    Answers unicode postgres N
      (.addClaimWithSources tenantId address claimText sources supportStatus confidence)
      (.claim claimText)
      (N.put tenantId slug { a with claims := a.claims ++ [(no, claimText)] })
  | relinked {tenantId address slug : String} {markdown : List Char} {a : Article}
    (hslug : requireSlug unicode address = .ok slug) (ha : N tenantId slug = some a) :
    Answers unicode postgres N (.rebuildLinksFromMarkdown tenantId address markdown)
      (.links (extractWikilinks unicode markdown))
      (N.put tenantId slug { a with links := extractWikilinks unicode markdown })
  | linked {tenantId address slug : String} {sources : List (String × String)}
    (hslug : requireSlug unicode address = .ok slug)
    (hsources : N.LinkedFrom postgres tenantId slug sources) :
    Answers unicode postgres N (.getBacklinks tenantId address) (.backlinks sources) N
  | validated {validators : Option (List WikiValidator)} {tenantId address slug : String}
    {a : Article} {no : ℕ} (hslug : requireSlug unicode address = .ok slug)
    (ha : N tenantId slug = some a) (hno : a.history.current = some no) :
    Answers unicode postgres N (.validatePage validators tenantId address) .findings N
  | listed {tenantId address slug : String} {a : Article} {no : ℕ}
    (hslug : requireSlug unicode address = .ok slug) (ha : N tenantId slug = some a)
    (hno : a.history.current = some no) :
    Answers unicode postgres N (.listPageResults tenantId address) .findings N

/-- An operation that was called, whether there is a reason for an error that the articles do not
know of, and the answer, if it did not raise. -/
structure Exchange where
  operation : WikiOperation
  disturbed : Prop
  reply : Option Reply

/-- A course of exchanges. An operation that raises leaves the articles as they are, and if there
is no other reason for the error, the notebook has no answer to it. -/
inductive Course (unicode : UnicodeData) (postgres : PostgresData) :
    Notebook → List Exchange → Notebook → Prop
  | nil {N : Notebook} : Course unicode postgres N [] N
  | answered {N N₁ N' : Notebook} {operation : WikiOperation} {disturbed : Prop} {reply : Reply}
    {rest : List Exchange} (h : N.Answers unicode postgres operation reply N₁)
    (hrest : Course unicode postgres N₁ rest N') :
    Course unicode postgres N (⟨operation, disturbed, some reply⟩ :: rest) N'
  | refused {N N' : Notebook} {operation : WikiOperation} {disturbed : Prop}
    {rest : List Exchange}
    (h : disturbed ∨ ∀ reply N₁, ¬N.Answers unicode postgres operation reply N₁)
    (hrest : Course unicode postgres N rest N') :
    Course unicode postgres N (⟨operation, disturbed, none⟩ :: rest) N'

end Notebook

end KnowledgeAlakazam
