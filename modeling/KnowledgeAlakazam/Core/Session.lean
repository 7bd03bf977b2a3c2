import Mathlib.Data.List.Forall2
import Mathlib.Tactic.Common

/-!
# Database sessions and units of work

A program that talks to a database does so through a session. The session sees a working copy of
the store; other sessions see what was committed. A first statement opens a transaction by itself
(*autobegin*); a unit of work, `transaction`, opens one or takes over one that was opened so,
commits it when its body ends, and rolls it back when its body raises. A unit of work inside
another one, or inside a transaction that the caller began, leaves both to the outer one.

Every statement and every commit is awaited and may raise for reasons outside the program. The
session carries a list of outcomes, one for each of them to come, so that quantifying over sessions
quantifies over all points at which a program may be interrupted. It also counts its rollbacks:
each of them expires the objects that were loaded before, and reading one of these raises.

Two kinds of judgements are used to reason about programs. `InTx` is about the body of a unit of
work: what it does to the working copy if it ends, and nothing about it if it raises, for then the
copy is thrown away. `OutTx` is about programs made of units of work: what they do to the
committed store, whether they end or raise. The rule that connects the two is `OutTx.transaction`.
-/

namespace KnowledgeAlakazam

/-- How a transaction was opened: by its first statement, or by an explicit `BEGIN`. -/
inductive TransactionOrigin where
  | autobegin
  | begin
deriving DecidableEq

/-- The errors that a session raises by itself. -/
class SessionErrors (ε : Type) where
  /-- `InvalidRequestError`: a statement after a commit has failed, and before the rollback. -/
  prepared : ε
  /-- `MissingGreenlet`: an attribute is read that a rollback has expired. -/
  missingGreenlet : ε

/-- A session over stores of type `σ`, in which statements may raise errors of type `ε`. -/
structure Session (σ ε : Type) where
  /-- The store as other sessions see it. -/
  committed : σ
  /-- The store as this session sees it. -/
  working : σ
  /-- The open transaction, if there is one. -/
  origin : Option TransactionOrigin
  /-- How many units of work the program is in that manage the transaction. -/
  depth : ℕ
  /-- The next fresh id. -/
  nextId : ℕ
  /-- How the statements and commits to come end; all others end normally. -/
  outcomes : List (Option ε)
  /-- How often the session was rolled back. -/
  rollbacks : ℕ

/-- A program: it runs in a session, and returns or raises. -/
def Program (σ ε α : Type) := Session σ ε → Except ε α × Session σ ε

variable {σ ε α β : Type}

namespace Session

/-- A session that nothing was done with. -/
def start (store : σ) (nextId : ℕ) (outcomes : List (Option ε)) : Session σ ε where
  committed := store
  working := store
  origin := none
  depth := 0
  nextId := nextId
  outcomes := outcomes
  rollbacks := 0

/-- The effect of a statement on a session without a transaction. -/
def autobegin (s : Session σ ε) : Session σ ε :=
  { s with origin := some (s.origin.getD .autobegin) }

/-- The transaction becomes visible to others. -/
def commit (s : Session σ ε) : Session σ ε :=
  { s with committed := s.working, origin := none }

def rollback (s : Session σ ε) : Session σ ε :=
  { s with working := s.committed, origin := none, rollbacks := s.rollbacks + 1 }

/-- A commit that raised and that nothing rolls back: the transaction stays open, and what was
written is lost, since the next statement is refused. -/
def refuse [SessionErrors ε] (s : Session σ ε) (outcomes : List (Option ε)) : Session σ ε :=
  { s with working := s.committed, outcomes := some SessionErrors.prepared :: outcomes }

end Session

namespace Program

instance : Monad (Program σ ε) where
  pure a := fun s ↦ (.ok a, s)
  bind x f := fun s ↦ match x s with
    | (.ok a, s') => f a s'
    | (.error e, s') => (.error e, s')

/-- `raise`. -/
def raise (e : ε) : Program σ ε α := fun s ↦ (.error e, s)

/-- `try: x except Exception as e: handler e`. -/
def except (x : Program σ ε α) (handler : ε → Program σ ε α) : Program σ ε α := fun s ↦
  match x s with
  | (.ok a, s') => (.ok a, s')
  | (.error e, s') => handler e s'

/-- A value that is computed without the database, by code that may raise. -/
def ofExcept : Except ε α → Program σ ε α
  | .ok a => pure a
  | .error e => raise e

/-- A statement. It may raise by itself, and when its outcome says so. -/
def statement (f : σ → Except ε (α × σ)) : Program σ ε α := fun s ↦
  let s := s.autobegin
  match s.outcomes with
  | some e :: outcomes => (.error e, { s with outcomes := outcomes })
  | outcomes => match f s.working with
    | .ok (a, w) => (.ok a, { s with working := w, outcomes := outcomes.tail })
    | .error e => (.error e, { s with outcomes := outcomes.tail })

/-- `SELECT`. -/
def query (f : σ → α) : Program σ ε α := statement fun w ↦ .ok (f w, w)

/-- A change of mapped objects that a later statement flushes. -/
def assign (f : σ → σ) : Program σ ε Unit := fun s ↦ (.ok (), { s with working := f s.working })

def freshId : Program σ ε ℕ := fun s ↦ (.ok s.nextId, { s with nextId := s.nextId + 1 })

/-- What the database has loaded is current as of this many rollbacks. -/
def loading : Program σ ε ℕ := fun s ↦ (.ok s.rollbacks, s)

/-- An attribute of an object that was loaded then. -/
def attributeOf [SessionErrors ε] (loaded : ℕ) (value : α) : Program σ ε α := fun s ↦
  if s.rollbacks = loaded then (.ok value, s) else (.error SessionErrors.missingGreenlet, s)

/-- The end of a unit of work whose body returned. If its commit raises, the context of an explicit
`BEGIN` rolls back; after an autobegin nothing does. -/
def close [SessionErrors ε] (a : α) : Program σ ε α := fun s ↦
  match s.outcomes with
  | some e :: outcomes => match s.origin with
    | some .autobegin => (.error e, { s.refuse outcomes with depth := s.depth - 1 })
    | _ => (.error e, { s.rollback with depth := s.depth - 1, outcomes := outcomes })
  | outcomes => (.ok a, { s.commit with depth := s.depth - 1, outcomes := outcomes.tail })

/-- The unit of work around a body that manages its transaction. -/
def managed [SessionErrors ε] (body : Program σ ε α) : Program σ ε α := fun s ↦
  match body { s with
    depth := s.depth + 1
    origin := some (s.origin.getD .begin) } with
  | (.ok a, s') => close a s'
  | (.error e, s') => (.error e, { s'.rollback with depth := s'.depth - 1 })

def transaction [SessionErrors ε] (body : Program σ ε α) : Program σ ε α := fun s ↦
  if 0 < s.depth then body s
  else match s.origin with
    | some .begin => body s
    | _ => managed body s

end Program

open Program

namespace Program

variable {x : Program σ ε α} {f : α → Program σ ε β} {s s' : Session σ ε}

theorem bind_ok {a : α} (h : x s = (.ok a, s')) : (x >>= f) s = f a s' := by
  change (match x s with
    | (.ok a, s') => f a s'
    | (.error e, s') => (.error e, s')) = _
  rw [h]

theorem bind_error {e : ε} (h : x s = (.error e, s')) : (x >>= f) s = (.error e, s') := by
  change (match x s with
    | (.ok a, s') => f a s'
    | (.error e, s') => (.error e, s')) = _
  rw [h]

theorem bind_assoc {γ : Type} (x : Program σ ε α) (f : α → Program σ ε β)
    (g : β → Program σ ε γ) : x >>= f >>= g = x >>= fun a ↦ f a >>= g := by
  funext s
  rcases h : x s with ⟨e | a, s'⟩
  · rw [bind_error h, bind_error (bind_error h)]
  · rw [bind_ok h]
    rcases h' : f a s' with ⟨e | b, s''⟩
    · rw [bind_error h', bind_error ((bind_ok h).trans h')]
    · rw [bind_ok h', bind_ok ((bind_ok h).trans h')]

theorem bind_pure_snd (x : Program σ ε α) (g : α → β) (s : Session σ ε) :
    ((x >>= fun a ↦ pure (g a)) s).2 = (x s).2 := by
  rcases hrun : x s with ⟨e | a, s'⟩
  · rw [bind_error hrun]
  · rw [bind_ok hrun]
    rfl

theorem except_ok {handler : ε → Program σ ε α} {a : α} (h : x s = (.ok a, s')) :
    Program.except x handler s = (.ok a, s') := by
  unfold Program.except
  rw [h]

theorem except_error {handler : ε → Program σ ε α} {e : ε} (h : x s = (.error e, s')) :
    Program.except x handler s = handler e s' := by
  unfold Program.except
  rw [h]

theorem managed_ok [SessionErrors ε] {a : α} (h : x { s with
      depth := s.depth + 1
      origin := some (s.origin.getD .begin) } = (.ok a, s')) :
    managed x s = close a s' := by
  unfold managed
  rw [h]

theorem managed_error [SessionErrors ε] {e : ε} (h : x { s with
      depth := s.depth + 1
      origin := some (s.origin.getD .begin) } = (.error e, s')) :
    managed x s = (.error e, { s'.rollback with depth := s'.depth - 1 }) := by
  unfold managed
  rw [h]

/-- What a commit that raised has left: nothing new is committed, and either the session was rolled
back or its next statement is refused. -/
structure Undone [SessionErrors ε] (s s' : Session σ ε) : Prop where
  committed : s'.committed = s.committed
  working : s'.working = s.committed
  origin : s'.origin ≠ some .begin
  depth : s'.depth = s.depth - 1
  nextId : s'.nextId = s.nextId
  undone : s.rollbacks < s'.rollbacks ∨
    s'.rollbacks = s.rollbacks ∧ ∃ rest, s'.outcomes = some SessionErrors.prepared :: rest

/-- A unit of work ends by committing everything, or by undoing everything. -/
theorem close_cases [SessionErrors ε] (a : α) (s : Session σ ε) :
    (s.outcomes.head?.join = none ∧ close a s = (.ok a, { s.commit with
      depth := s.depth - 1
      outcomes := s.outcomes.tail })) ∨
      ∃ e s', s.outcomes.head?.join = some e ∧ close a s = (.error e, s') ∧ Undone s s' := by
  obtain ⟨committed, working, origin, depth, nextId, outcomes, rollbacks⟩ := s
  have hbegin : (some .autobegin : Option TransactionOrigin) ≠ some .begin := by decide
  have hnone : (none : Option TransactionOrigin) ≠ some .begin := by decide
  have hlt := Nat.lt_succ_self rollbacks
  cases outcomes with
  | nil => exact .inl ⟨rfl, rfl⟩
  | cons outcome outcomes =>
    cases outcome with
    | none => exact .inl ⟨rfl, rfl⟩
    | some e =>
      right
      cases origin with
      | none => exact ⟨e, _, rfl, rfl, ⟨rfl, rfl, hnone, rfl, rfl, .inl hlt⟩⟩
      | some origin =>
        cases origin with
        | autobegin => exact ⟨e, _, rfl, rfl, ⟨rfl, rfl, hbegin, rfl, rfl, .inr ⟨rfl, _, rfl⟩⟩⟩
        | begin => exact ⟨e, _, rfl, rfl, ⟨rfl, rfl, hnone, rfl, rfl, .inl hlt⟩⟩

end Program

theorem run_ok {x : Program σ ε α} {s : Session σ ε} (h : (x s).1.isOk = true) :
    ∃ a, x s = (.ok a, (x s).2) := by
  rcases hrun : x s with ⟨e | a, s'⟩
  · rw [hrun] at h
    cases h
  · exact ⟨a, rfl⟩

/-! ## Triples -/

/-- The program, started in the session, returns a result and a session with the first property
or raises an error in a session with the second one. -/
def Triple (x : Program σ ε α) (s : Session σ ε) (Q : α → Session σ ε → Prop)
    (E : ε → Session σ ε → Prop) : Prop :=
  match x s with
  | (.ok a, s') => Q a s'
  | (.error e, s') => E e s'

namespace Triple

variable {s : Session σ ε} {Q Q' : α → Session σ ε → Prop} {E E' : ε → Session σ ε → Prop}
  {R : β → Session σ ε → Prop}

theorem mono {x : Program σ ε α} (h : Triple x s Q E) (hQ : ∀ a s', Q a s' → Q' a s')
    (hE : ∀ e s', E e s' → E' e s') : Triple x s Q' E' := by
  unfold Triple at h ⊢
  split at h
  · exact hQ _ _ h
  · exact hE _ _ h

theorem bind {x : Program σ ε α} {f : α → Program σ ε β} (hx : Triple x s Q E)
    (hf : ∀ a s', Q a s' → Triple (f a) s' R E) : Triple (x >>= f) s R E := by
  unfold Triple at hx
  unfold Triple
  change match (match x s with
    | (.ok a, s') => f a s'
    | (.error e, s') => (.error e, s')) with
    | (.ok b, s') => R b s'
    | (.error e, s') => E e s'
  rcases hrun : x s with ⟨e | a, s'⟩
  · rw [hrun] at hx
    exact hx
  · rw [hrun] at hx
    exact hf a s' hx

theorem except {x : Program σ ε α} {handler : ε → Program σ ε α} (hx : Triple x s Q E)
    (hh : ∀ e s', E e s' → Triple (handler e) s' Q E') :
    Triple (Program.except x handler) s Q E' := by
  unfold Triple at hx
  unfold Triple Program.except
  rcases hrun : x s with ⟨e | a, s'⟩
  · rw [hrun] at hx
    exact hh e s' hx
  · rw [hrun] at hx
    exact hx

theorem statement {f : σ → Except ε (α × σ)}
    (hok : ∀ a w outcomes, f s.working = .ok (a, w) →
      Q a { s.autobegin with working := w, outcomes := outcomes })
    (herror : ∀ e outcomes, E e { s.autobegin with outcomes := outcomes }) :
    Triple (Program.statement f) s Q E := by
  unfold Triple Program.statement
  dsimp only
  split
  · rename_i a s' hrun
    split at hrun
    · exact nomatch hrun
    · split at hrun
      · rename_i hf
        obtain ⟨ha, rfl⟩ := Prod.mk.inj hrun
        obtain rfl := Except.ok.inj ha
        exact hok _ _ _ hf
      · exact nomatch hrun
  · rename_i e s' hrun
    split at hrun
    · obtain ⟨-, rfl⟩ := Prod.mk.inj hrun
      exact herror _ _
    · split at hrun
      · exact nomatch hrun
      · obtain ⟨-, rfl⟩ := Prod.mk.inj hrun
        exact herror _ _

end Triple

/-! ## Inside a unit of work -/

/-- The session is in a transaction that a unit of work manages. -/
structure Session.Within (S W : σ) (s : Session σ ε) : Prop where
  committed : s.committed = S
  working : s.working = W
  opened : s.origin.isSome = true
  depth : s.depth = 1

/-- Inside a unit of work on a working copy `W` the program ends with a result and a working copy
related by `R`, if it ends. -/
def InTx (x : Program σ ε α) (W : σ) (R : α → σ → Prop) : Prop :=
  ∀ (S : σ) (s : Session σ ε), s.Within S W →
    Triple x s (fun a s' ↦ ∃ W', s'.Within S W' ∧ R a W') fun _ s' ↦ ∃ W', s'.Within S W'

namespace InTx

variable {W : σ} {R R' : α → σ → Prop} {T : β → σ → Prop}

theorem mono {x : Program σ ε α} (h : InTx x W R) (hR : ∀ a W', R a W' → R' a W') :
    InTx x W R' := fun S s hs ↦
  (h S s hs).mono (fun a _ ⟨W', hW', hr⟩ ↦ ⟨W', hW', hR a W' hr⟩) fun _ _ h ↦ h

theorem pure {a : α} (h : R a W) : InTx (Pure.pure a : Program σ ε α) W R :=
  fun _ _ hs ↦ ⟨W, hs, h⟩

theorem raise (e : ε) : InTx (Program.raise e : Program σ ε α) W R := fun _ _ hs ↦ ⟨W, hs⟩

theorem bind {x : Program σ ε α} {f : α → Program σ ε β} (hx : InTx x W R)
    (hf : ∀ a W', R a W' → InTx (f a) W' T) : InTx (x >>= f) W T := fun S s hs ↦
  (hx S s hs).bind fun a s' ⟨W', hW', hr⟩ ↦ hf a W' hr S s' hW'

theorem statement {f : σ → Except ε (α × σ)} (h : ∀ a W', f W = .ok (a, W') → R a W') :
    InTx (Program.statement f) W R := by
  intro S s hs
  have hopened : s.autobegin.origin.isSome = true := rfl
  exact Triple.statement
    (fun a W' _ hf ↦ ⟨W', ⟨hs.committed, rfl, hopened, hs.depth⟩, h a W' (hs.working ▸ hf)⟩)
    fun _ _ ↦ ⟨W, hs.committed, hs.working, hopened, hs.depth⟩

theorem query {f : σ → α} (h : R (f W) W) : InTx (Program.query f : Program σ ε α) W R :=
  InTx.statement fun a W' heq ↦ by
    obtain ⟨rfl, rfl⟩ := Prod.mk.inj (Except.ok.inj heq)
    exact h

theorem and {x : Program σ ε α} (h : InTx x W R) (h' : InTx x W R') :
    InTx x W fun a W' ↦ R a W' ∧ R' a W' := by
  intro S s hs
  have hx := h S s hs
  have hx' := h' S s hs
  unfold Triple at hx hx' ⊢
  rcases hrun : x s with ⟨e | a, s'⟩
  · rw [hrun] at hx
    exact hx
  · rw [hrun] at hx hx'
    obtain ⟨W', hwithin, hr⟩ := hx
    obtain ⟨W'', hwithin', hr'⟩ := hx'
    obtain rfl : W' = W'' := hwithin.working.symm.trans hwithin'.working
    exact ⟨W', hwithin, hr, hr'⟩

theorem query_eq (f : σ → α) :
    InTx (Program.query f : Program σ ε α) W fun a W' ↦ a = f W ∧ W = W' :=
  query ⟨rfl, rfl⟩

theorem assign {f : σ → σ} {T : Unit → σ → Prop} (h : T () (f W)) :
    InTx (Program.assign f : Program σ ε Unit) W T := fun _ s hs ↦
  ⟨f s.working, ⟨hs.committed, rfl, hs.opened, hs.depth⟩, hs.working ▸ h⟩

theorem freshId {T : ℕ → σ → Prop} (h : ∀ i, T i W) :
    InTx (Program.freshId : Program σ ε ℕ) W T := fun _ s hs ↦
  ⟨W, ⟨hs.committed, hs.working, hs.opened, hs.depth⟩, h s.nextId⟩

/-- The rest of a loop. -/
private theorem mapM'_from {γ : Type} {I : List γ → List α → σ → Prop} {f : γ → Program σ ε α}
    (hstep : ∀ c cs done W, I (c :: cs) done W → InTx (f c) W fun a W' ↦ I cs (done ++ [a]) W') :
    ∀ {cs : List γ} {done : List α} {W : σ}, I cs done W →
      InTx (cs.mapM' f) W fun result W' ↦ I [] (done ++ result) W' := by
  intro cs
  induction cs with
  | nil =>
    intro done W h
    rw [List.mapM'_nil]
    exact InTx.pure (by rwa [List.append_nil])
  | cons c cs ih =>
    intro done W h
    rw [List.mapM'_cons]
    refine (hstep c cs done W h).bind fun a W' ha ↦ ?_
    refine (ih ha).bind fun result W'' hresult ↦ ?_
    exact InTx.pure (by rwa [List.append_assoc] at hresult)

theorem mapM' {γ : Type} {I : List γ → List α → σ → Prop} {f : γ → Program σ ε α}
    (hstep : ∀ c cs done W, I (c :: cs) done W → InTx (f c) W fun a W' ↦ I cs (done ++ [a]) W')
    {cs : List γ} (h : I cs [] W) : InTx (cs.mapM' f) W fun result W' ↦ I [] result W' :=
  mapM'_from hstep h

end InTx

/-! ## Between units of work -/

/-- The session is in no unit of work, and has nothing that others do not see. -/
structure Session.Idle (S : σ) (s : Session σ ε) : Prop where
  committed : s.committed = S
  working : s.working = S
  origin : s.origin ≠ some .begin
  depth : s.depth = 0

theorem Session.idle_start (S : σ) (nextId : ℕ) (outcomes : List (Option ε)) :
    Session.Idle S (Session.start S nextId outcomes) :=
  ⟨rfl, rfl, (fun h ↦ nomatch h), rfl⟩

theorem Program.transaction_of_idle [SessionErrors ε] {S : σ} {s : Session σ ε} (hs : s.Idle S)
    {x : Program σ ε α} : Program.transaction x s = Program.managed x s := by
  unfold Program.transaction
  rw [if_neg (by rw [hs.depth]; exact Nat.lt_irrefl 0)]
  split
  · rename_i horigin
    exact absurd horigin hs.origin
  · rfl

/-- A unit of work of one statement, in a session that refuses statements. -/
theorem Program.transaction_refused [SessionErrors ε] {S : σ} {s : Session σ ε} (hs : s.Idle S)
    {e : ε} {rest : List (Option ε)} (hrefused : s.outcomes = some e :: rest)
    (f : σ → Except ε (α × σ)) : (transaction (statement f) s).1.isOk = false := by
  obtain ⟨s', hbody⟩ : ∃ s', statement f { s with
      depth := s.depth + 1
      origin := some (s.origin.getD .begin) } = (.error e, s') := by
    unfold statement
    dsimp only [Session.autobegin]
    rw [hrefused]
    exact ⟨_, rfl⟩
  rw [transaction_of_idle hs, managed_error hbody]
  rfl

/-- On a committed store `S` the program ends with a result and a committed store related by `Q`,
or raises an error and leaves a committed store related by `E`. -/
def OutTx (x : Program σ ε α) (S : σ) (Q : α → σ → Prop) (E : ε → σ → Prop) : Prop :=
  ∀ s : Session σ ε, s.Idle S →
    Triple x s (fun a s' ↦ ∃ S', s'.Idle S' ∧ Q a S') fun e s' ↦ ∃ S', s'.Idle S' ∧ E e S'

namespace OutTx

variable {S : σ} {Q Q' : α → σ → Prop} {E E' : ε → σ → Prop} {T : β → σ → Prop}

theorem mono {x : Program σ ε α} (h : OutTx x S Q E) (hQ : ∀ a S', Q a S' → Q' a S')
    (hE : ∀ e S', E e S' → E' e S') : OutTx x S Q' E' := fun s hs ↦
  (h s hs).mono (fun a _ ⟨S', hS', hq⟩ ↦ ⟨S', hS', hQ a S' hq⟩)
    fun e _ ⟨S', hS', he⟩ ↦ ⟨S', hS', hE e S' he⟩

theorem pure {a : α} (h : Q a S) : OutTx (Pure.pure a : Program σ ε α) S Q E :=
  fun _ hs ↦ ⟨S, hs, h⟩

theorem raise {e : ε} (h : E e S) : OutTx (Program.raise e : Program σ ε α) S Q E :=
  fun _ hs ↦ ⟨S, hs, h⟩

theorem ofExcept {x : Except ε α} (hok : ∀ a, x = .ok a → Q a S)
    (herror : ∀ e, x = .error e → E e S) :
    OutTx (Program.ofExcept x : Program σ ε α) S Q E := by
  cases x with
  | ok a => exact OutTx.pure (hok a rfl)
  | error e => exact OutTx.raise (herror e rfl)

theorem bind {x : Program σ ε α} {f : α → Program σ ε β} (hx : OutTx x S Q E)
    (hf : ∀ a S', Q a S' → OutTx (f a) S' T E) : OutTx (x >>= f) S T E := fun s hs ↦
  (hx s hs).bind fun a s' ⟨S', hS', hq⟩ ↦ hf a S' hq s' hS'

theorem except {x : Program σ ε α} {handler : ε → Program σ ε α} (hx : OutTx x S Q E)
    (hh : ∀ e S', E e S' → OutTx (handler e) S' Q E') :
    OutTx (Program.except x handler) S Q E' := fun s hs ↦
  (hx s hs).except fun e s' ⟨S', hS', he⟩ ↦ hh e S' he s' hS'

theorem map {x : Program σ ε α} {f : α → β} (hx : OutTx x S (fun a S' ↦ T (f a) S') E) :
    OutTx (f <$> x) S T E :=
  hx.bind fun _ _ h ↦ OutTx.pure h

private theorem mapM'_outTx {γ : Type} {I : List γ → List α → σ → Prop} {f : γ → Program σ ε α}
    (hstep : ∀ c cs done S, I (c :: cs) done S →
      OutTx (f c) S (fun a S' ↦ I cs (done ++ [a]) S') E) :
    ∀ {cs : List γ} {done : List α} {S : σ}, I cs done S →
      OutTx (cs.mapM' f) S (fun result S' ↦ I [] (done ++ result) S') E := by
  intro cs
  induction cs with
  | nil =>
    intro done S h
    rw [List.mapM'_nil]
    exact OutTx.pure (by rwa [List.append_nil])
  | cons c cs ih =>
    intro done S h
    rw [List.mapM'_cons]
    refine (hstep c cs done S h).bind fun a S' ha ↦ ?_
    refine (ih ha).bind fun result S'' hresult ↦ ?_
    exact OutTx.pure (by rwa [List.append_assoc] at hresult)

theorem mapM' {γ : Type} {I : List γ → List α → σ → Prop} {f : γ → Program σ ε α}
    (hstep : ∀ c cs done S, I (c :: cs) done S →
      OutTx (f c) S (fun a S' ↦ I cs (done ++ [a]) S') E)
    {cs : List γ} (h : I cs [] S) : OutTx (cs.mapM' f) S (fun result S' ↦ I [] result S') E :=
  mapM'_outTx hstep h

/-- A read outside a unit of work opens a transaction, and there is nothing in it. -/
theorem query {f : σ → α} (hok : Q (f S) S) (herror : ∀ e, E e S) :
    OutTx (Program.query f : Program σ ε α) S Q E := by
  intro s hs
  have horigin : s.autobegin.origin ≠ some .begin := by
    rw [Session.autobegin]
    cases horigin : s.origin with
    | none => exact fun h ↦ nomatch h
    | some origin => exact horigin ▸ hs.origin
  refine Triple.statement (fun a w _ heq ↦ ?_)
    fun e _ ↦ ⟨S, ⟨hs.committed, hs.working, horigin, hs.depth⟩, herror e⟩
  obtain ⟨rfl, rfl⟩ := Prod.mk.inj (Except.ok.inj heq)
  exact ⟨S, ⟨hs.committed, hs.working, horigin, hs.depth⟩, hs.working ▸ hok⟩

theorem ok {x : Program σ ε α} (h : OutTx x S Q E) {s s' : Session σ ε} (hs : s.Idle S)
    {a : α} (hrun : x s = (.ok a, s')) : ∃ S', s'.Idle S' ∧ Q a S' := by
  have hx := h s hs
  rw [Triple, hrun] at hx
  exact hx

theorem error {x : Program σ ε α} (h : OutTx x S Q E) {s s' : Session σ ε} (hs : s.Idle S)
    {e : ε} (hrun : x s = (.error e, s')) : ∃ S', s'.Idle S' ∧ E e S' := by
  have hx := h s hs
  rw [Triple, hrun] at hx
  exact hx

theorem committed_ok {x : Program σ ε α} (h : OutTx x S Q E) {s s' : Session σ ε} (hs : s.Idle S)
    {a : α} (hrun : x s = (.ok a, s')) : Q a s'.committed := by
  obtain ⟨S', hidle, hq⟩ := h.ok hs hrun
  rw [hidle.committed]
  exact hq

theorem committed_error {x : Program σ ε α} (h : OutTx x S Q E) {s s' : Session σ ε}
    (hs : s.Idle S) {e : ε} (hrun : x s = (.error e, s')) : E e s'.committed := by
  obtain ⟨S', hidle, he⟩ := h.error hs hrun
  rw [hidle.committed]
  exact he

theorem committed {P : σ → Prop} {x : Program σ ε α}
    (h : OutTx x S (fun _ S' ↦ P S') fun _ S' ↦ P S') {s : Session σ ε} (hs : s.Idle S) :
    P (x s).2.committed := by
  rcases hrun : x s with ⟨e | a, s'⟩
  · exact h.committed_error hs hrun
  · exact h.committed_ok hs hrun

/-- **The rule for units of work.** A unit of work between others either commits all of what its
body did, or raises and leaves the committed store as it was. -/
theorem transaction [SessionErrors ε] {body : Program σ ε α} (h : InTx body S Q)
    (herror : ∀ e, E e S) : OutTx (Program.transaction body) S Q E := by
  intro s hs
  have hbody := h S { s with depth := s.depth + 1, origin := some (s.origin.getD .begin) }
    ⟨hs.committed, hs.working, rfl, by rw [hs.depth]⟩
  unfold Triple at hbody ⊢
  rw [transaction_of_idle hs]
  unfold Program.managed
  rcases hend : body { s with depth := s.depth + 1, origin := some (s.origin.getD .begin) }
    with ⟨e | a, s'⟩
  · rw [hend] at hbody
    obtain ⟨W', hwithin⟩ := hbody
    have hdepth : s'.depth - 1 = 0 := by rw [hwithin.depth]
    exact ⟨S, ⟨hwithin.committed, hwithin.committed, (fun h ↦ nomatch h), hdepth⟩, herror e⟩
  · rw [hend] at hbody
    obtain ⟨W', hwithin, hq⟩ := hbody
    have hdepth : s'.depth - 1 = 0 := by rw [hwithin.depth]
    dsimp only
    rcases close_cases a s' with ⟨-, hclose⟩ | ⟨e, s'', -, hclose, hundone⟩
    · rw [hclose]
      exact ⟨W', ⟨hwithin.working, hwithin.working, (fun h ↦ nomatch h), hdepth⟩, hq⟩
    · rw [hclose]
      exact ⟨S, ⟨hundone.committed.trans hwithin.committed,
        hundone.working.trans hwithin.committed, hundone.origin, hundone.depth.trans hdepth⟩,
        herror e⟩

end OutTx

/-! ## Programs that only read -/

/-- The stores and the unit of work are as they were, and no id was given back. -/
structure Session.OnlyRead (s s' : Session σ ε) : Prop where
  committed : s'.committed = s.committed
  working : s'.working = s.working
  depth : s'.depth = s.depth
  opened : s.origin.isSome = true → s'.origin.isSome = true
  began : s'.origin = some .begin → s.origin = some .begin
  nextId : s.nextId ≤ s'.nextId
  rollbacks : s'.rollbacks = s.rollbacks

namespace Program

/-- Whatever the program returns or raises, it has changed nothing. -/
def ReadOnly (x : Program σ ε α) : Prop := ∀ s : Session σ ε, s.OnlyRead (x s).2

namespace ReadOnly

theorem pure (a : α) : ReadOnly (Pure.pure a : Program σ ε α) :=
  fun _ ↦ ⟨rfl, rfl, rfl, id, id, Nat.le_refl _, rfl⟩

theorem bind {x : Program σ ε α} {f : α → Program σ ε β} (hx : ReadOnly x)
    (hf : ∀ a, ReadOnly (f a)) : ReadOnly (x >>= f) := by
  intro s
  have hxs := hx s
  rcases hrun : x s with ⟨e | a, s'⟩
  · rw [bind_error hrun]
    rwa [hrun] at hxs
  · rw [bind_ok hrun]
    rw [hrun] at hxs
    have hfs := hf a s'
    exact ⟨hfs.committed.trans hxs.committed, hfs.working.trans hxs.working,
      hfs.depth.trans hxs.depth, hfs.opened ∘ hxs.opened, hxs.began ∘ hfs.began,
      Nat.le_trans hxs.nextId hfs.nextId, hfs.rollbacks.trans hxs.rollbacks⟩

theorem raise (e : ε) : ReadOnly (Program.raise e : Program σ ε α) :=
  fun _ ↦ ⟨rfl, rfl, rfl, id, id, Nat.le_refl _, rfl⟩

theorem query (f : σ → α) : ReadOnly (Program.query f : Program σ ε α) := by
  intro s
  have hbegan : s.autobegin.origin = some .begin → s.origin = some .begin := by
    rw [Session.autobegin]
    cases s.origin with
    | none => exact fun h ↦ absurd h (by simp)
    | some origin => exact id
  unfold Program.query Program.statement
  dsimp only
  split <;> exact ⟨rfl, rfl, rfl, fun _ ↦ rfl, hbegan, Nat.le_refl _, rfl⟩

theorem loading : ReadOnly (Program.loading : Program σ ε ℕ) :=
  fun _ ↦ ⟨rfl, rfl, rfl, id, id, Nat.le_refl _, rfl⟩

theorem attributeOf [SessionErrors ε] (loaded : ℕ) (value : α) :
    ReadOnly (Program.attributeOf loaded value : Program σ ε α) := by
  intro s
  unfold Program.attributeOf
  split <;> exact ⟨rfl, rfl, rfl, id, id, Nat.le_refl _, rfl⟩

theorem mapM' {γ : Type} {f : γ → Program σ ε α} (hf : ∀ c, ReadOnly (f c)) (cs : List γ) :
    ReadOnly (cs.mapM' f) := by
  induction cs with
  | nil =>
    rw [List.mapM'_nil]
    exact pure []
  | cons c cs ih =>
    rw [List.mapM'_cons]
    exact (hf c).bind fun a ↦ ih.bind fun result ↦ pure (a :: result)

/-- Inside a unit of work such a program leaves the working copy alone. -/
theorem inTx {x : Program σ ε α} (hx : ReadOnly x) (W : σ) : InTx x W fun _ W' ↦ W = W' := by
  intro S s hs
  have h := hx s
  have hwithin : ∀ s', s.OnlyRead s' → s'.Within S W := fun s' h ↦
    ⟨h.committed.trans hs.committed, h.working.trans hs.working, h.opened hs.opened,
      h.depth.trans hs.depth⟩
  unfold Triple
  rcases hrun : x s with ⟨e | a, s'⟩
  · rw [hrun] at h
    exact ⟨W, hwithin s' h⟩
  · rw [hrun] at h
    exact ⟨W, hwithin s' h, rfl⟩

theorem outTx {x : Program σ ε α} (hx : ReadOnly x) (S : σ) :
    OutTx x S (fun _ S' ↦ S = S') fun _ S' ↦ S = S' := by
  intro s hs
  have h := hx s
  have hidle : ∀ s', s.OnlyRead s' → s'.Idle S := fun s' h ↦
    ⟨h.committed.trans hs.committed, h.working.trans hs.working, fun horigin ↦
      hs.origin (h.began horigin), h.depth.trans hs.depth⟩
  unfold Triple
  rcases hrun : x s with ⟨e | a, s'⟩
  · rw [hrun] at h
    exact ⟨S, hidle s' h, rfl⟩
  · rw [hrun] at h
    exact ⟨S, hidle s' h, rfl⟩

end ReadOnly

end Program

theorem OutTx.attributeOf_bind [SessionErrors ε] {f : α → Program σ ε β} {S : σ} {loaded : ℕ}
    {value : α} {T : β → σ → Prop} {E : ε → σ → Prop} (herror : ∀ e, E e S)
    (hf : OutTx (f value) S T E) : OutTx (attributeOf loaded value >>= f) S T E := by
  intro s hs
  by_cases hloaded : s.rollbacks = loaded
  · have hrun : (attributeOf loaded value : Program σ ε α) s = (.ok value, s) := if_pos hloaded
    unfold Triple
    rw [bind_ok hrun]
    exact hf s hs
  · have hrun : (attributeOf loaded value : Program σ ε α) s =
        (.error SessionErrors.missingGreenlet, s) := if_neg hloaded
    unfold Triple
    rw [bind_error hrun]
    exact ⟨S, hs, herror _⟩

theorem OutTx.loading_bind {f : ℕ → Program σ ε β} {S : σ} {T : β → σ → Prop}
    {E : ε → σ → Prop} (hf : ∀ loaded, OutTx (f loaded) S T E) :
    OutTx (loading >>= f) S T E := fun s hs ↦ hf s.rollbacks s hs

/-! ## What a program may return -/

/-- In some unit of work on the working copy `W` the program returns the value. -/
def Program.MayReturn (x : Program σ ε α) (W : σ) (a : α) : Prop :=
  ∃ (S : σ) (s s' : Session σ ε), s.Within S W ∧ x s = (.ok a, s')

namespace InTx

variable {W : σ} {R : α → σ → Prop}

theorem mayReturn {x : Program σ ε α} (h : InTx x W R) :
    InTx x W fun a W' ↦ R a W' ∧ MayReturn x W a := by
  intro S s hs
  have hx := h S s hs
  unfold Triple at hx ⊢
  rcases hrun : x s with ⟨e | a, s'⟩
  · rw [hrun] at hx
    exact hx
  · rw [hrun] at hx
    obtain ⟨W', hwithin, hr⟩ := hx
    exact ⟨W', hwithin, hr, S, s, s', hs, hrun⟩

theorem of_mayReturn {x : Program σ ε α} (h : InTx x W R) {a : α} (ha : MayReturn x W a) :
    ∃ W', R a W' := by
  obtain ⟨S, s, s', hs, hrun⟩ := ha
  have hx := h S s hs
  rw [Triple, hrun] at hx
  obtain ⟨W', -, hr⟩ := hx
  exact ⟨W', hr⟩

end InTx

theorem Program.ReadOnly.inTx_mapM' {γ : Type} {f : γ → Program σ ε α}
    (hf : ∀ c, ReadOnly (f c)) (cs : List γ) (W : σ) :
    InTx (cs.mapM' f) W fun as W' ↦
      List.Forall₂ (fun c a ↦ MayReturn (f c) W a) cs as ∧ W = W' := by
  refine (InTx.mapM' (I := fun rest done W' ↦ (∃ front, front ++ rest = cs ∧
    List.Forall₂ (fun c a ↦ MayReturn (f c) W a) front done) ∧ W = W') ?_
    ⟨⟨[], rfl, .nil⟩, rfl⟩).mono ?_
  · rintro c rest done _ ⟨⟨front, hfront, hdone⟩, rfl⟩
    refine ((hf c).inTx W).mayReturn.mono ?_
    rintro a _ ⟨rfl, ha⟩
    refine ⟨⟨front ++ [c], ?_, List.rel_append hdone (.cons ha .nil)⟩, rfl⟩
    rw [List.append_assoc]
    exact hfront
  · rintro as _ ⟨⟨front, hfront, has⟩, rfl⟩
    rw [List.append_nil] at hfront
    exact ⟨hfront ▸ has, rfl⟩

/-- A unit of work between others, of which no statement is interrupted, returns when its body
does. -/
theorem Program.transaction_of_outcomes [SessionErrors ε] {S : σ} {x : Program σ ε α}
    {s s' : Session σ ε} (hs : s.Idle S) {a : α} (hrun : x { s with
      depth := s.depth + 1
      origin := some (s.origin.getD .begin) } = (.ok a, s')) (houtcomes : s'.outcomes = []) :
    ∃ s'', transaction x s = (.ok a, s'') := by
  rw [transaction_of_idle hs, managed_ok hrun, close, houtcomes]
  exact ⟨_, rfl⟩

/-! ## What a program raises by itself

When no statement is interrupted, all that a program raises is what it raises itself. -/

namespace Program

/-- In a session whose statements all end normally the program raises no error without the
property. -/
def RaisesOnly (E : ε → Prop) (x : Program σ ε α) : Prop :=
  ∀ s : Session σ ε, s.outcomes = [] →
    Triple x s (fun _ s' ↦ s'.outcomes = []) fun e s' ↦ s'.outcomes = [] ∧ E e

/-- What a unit of work raises, its body raises, or a commit that is interrupted. -/
theorem transaction_error [SessionErrors ε] {x : Program σ ε α} {s s' : Session σ ε} {e : ε}
    (h : transaction x s = (.error e, s')) : ∃ s₁ s₁', s₁.working = s.working ∧
      s₁.outcomes = s.outcomes ∧
      (x s₁ = (.error e, s₁') ∨ ∃ a, x s₁ = (.ok a, s₁') ∧ s₁'.outcomes ≠ []) := by
  have hmanaged : managed x s = (.error e, s') → ∃ s₁ s₁', s₁.working = s.working ∧
      s₁.outcomes = s.outcomes ∧
      (x s₁ = (.error e, s₁') ∨ ∃ a, x s₁ = (.ok a, s₁') ∧ s₁'.outcomes ≠ []) := by
    intro h
    refine ⟨{ s with depth := s.depth + 1, origin := some (s.origin.getD .begin) }, ?_⟩
    rcases hrun : x { s with depth := s.depth + 1, origin := some (s.origin.getD .begin) }
      with ⟨e' | a, s₁'⟩
    · rw [managed_error hrun] at h
      exact ⟨s₁', rfl, rfl, .inl (by rw [Except.error.inj (Prod.mk.inj h).1])⟩
    · rw [managed_ok hrun] at h
      refine ⟨s₁', rfl, rfl, .inr ⟨a, rfl, fun hnone ↦ ?_⟩⟩
      rcases close_cases a s₁' with ⟨-, hclose⟩ | ⟨e', s₂, hsome, -⟩
      · rw [hclose] at h
        cases h
      · rw [hnone] at hsome
        cases hsome
  unfold transaction at h
  split at h
  · exact ⟨s, s', rfl, rfl, .inl h⟩
  · split at h
    · exact ⟨s, s', rfl, rfl, .inl h⟩
    · exact hmanaged h

theorem statement_of_outcomes {s : Session σ ε} (hs : s.outcomes = []) {f : σ → Except ε (α × σ)}
    {a : α} {w : σ} (hf : f s.working = .ok (a, w)) :
    statement f s = (.ok a, { s.autobegin with working := w }) := by
  obtain ⟨committed, working, origin, depth, nextId, outcomes, rollbacks⟩ := s
  obtain rfl : outcomes = [] := hs
  rw [statement]
  dsimp only [Session.autobegin]
  rw [hf]
  rfl

theorem query_of_outcomes {s : Session σ ε} (hs : s.outcomes = []) (f : σ → α) :
    query f s = (.ok (f s.working), s.autobegin) := by
  rw [query, statement_of_outcomes hs (a := f s.working) (w := s.working) rfl]
  rfl

namespace RaisesOnly

variable {E : ε → Prop}

theorem pure (a : α) : RaisesOnly E (Pure.pure a : Program σ ε α) := fun _ hs ↦ hs

theorem raise {e : ε} (he : E e) : RaisesOnly E (Program.raise e : Program σ ε α) :=
  fun _ hs ↦ ⟨hs, he⟩

theorem ofExcept {x : Except ε α} (h : ∀ e, x = .error e → E e) :
    RaisesOnly E (Program.ofExcept x : Program σ ε α) := by
  cases x with
  | ok a => exact pure a
  | error e => exact raise (h e rfl)

theorem bind {x : Program σ ε α} {f : α → Program σ ε β} (hx : RaisesOnly E x)
    (hf : ∀ a, RaisesOnly E (f a)) : RaisesOnly E (x >>= f) :=
  fun s hs ↦ (hx s hs).bind fun a s' hs' ↦ hf a s' hs'

theorem statement {f : σ → Except ε (α × σ)} (hf : ∀ W e, f W = .error e → E e) :
    RaisesOnly E (Program.statement f) := by
  intro s hs
  obtain ⟨committed, working, origin, depth, nextId, outcomes, rollbacks⟩ := s
  obtain rfl : outcomes = [] := hs
  unfold Triple Program.statement
  dsimp only [Session.autobegin]
  cases h : f working with
  | ok result => exact rfl
  | error e => exact ⟨rfl, hf working e h⟩

theorem outcomes_ok {x : Program σ ε α} (hx : RaisesOnly E x) {s s' : Session σ ε} {a : α}
    (hs : s.outcomes = []) (hrun : x s = (.ok a, s')) : s'.outcomes = [] := by
  have htriple := hx s hs
  rw [Triple, hrun] at htriple
  exact htriple

theorem query (f : σ → α) : RaisesOnly E (Program.query f : Program σ ε α) :=
  statement fun _ _ h ↦ absurd h (by simp)

theorem freshId : RaisesOnly E (Program.freshId : Program σ ε ℕ) := fun _ hs ↦ hs

theorem mapM' {γ : Type} {f : γ → Program σ ε α} {cs : List γ}
    (hf : ∀ c ∈ cs, RaisesOnly E (f c)) : RaisesOnly E (cs.mapM' f) := by
  induction cs with
  | nil =>
    rw [List.mapM'_nil]
    exact pure []
  | cons c cs ih =>
    rw [List.mapM'_cons]
    exact (hf c List.mem_cons_self).bind fun a ↦
      (ih fun c hc ↦ hf c (List.mem_cons_of_mem _ hc)).bind fun result ↦ pure (a :: result)

theorem transaction [SessionErrors ε] {x : Program σ ε α} (hx : RaisesOnly E x) :
    RaisesOnly E (Program.transaction x) := by
  have hmanaged : RaisesOnly E (Program.managed x) := by
    intro s hs
    have hbody := hx { s with depth := s.depth + 1, origin := some (s.origin.getD .begin) } hs
    unfold Triple at hbody ⊢
    rcases hrun : x { s with depth := s.depth + 1, origin := some (s.origin.getD .begin) }
      with ⟨e | a, s'⟩
    · rw [hrun] at hbody
      rw [managed_error hrun]
      exact hbody
    · rw [hrun] at hbody
      have hnone : s'.outcomes = [] := hbody
      rw [managed_ok hrun, close, hnone]
      rfl
  intro s hs
  have hrun : Program.transaction x s = x s ∨ Program.transaction x s = Program.managed x s := by
    unfold Program.transaction
    split
    · exact Or.inl rfl
    · split
      · exact Or.inl rfl
      · exact Or.inr rfl
  unfold Triple
  rcases hrun with hrun | hrun
  · rw [hrun]
    exact hx s hs
  · rw [hrun]
    exact hmanaged s hs

end RaisesOnly

end Program

/-! ## What returns

Programs whose statements cannot fail return when nothing interrupts them. The judgement speaks of
the next id and the working copy, which is what such a program depends on. -/

/-- Nothing outside of the program will go wrong. -/
def Session.Calm (s : Session σ ε) : Prop := ∀ outcome ∈ s.outcomes, outcome = none

namespace Program

theorem statement_of_calm {s : Session σ ε} (hs : s.Calm) {f : σ → Except ε (α × σ)} {a : α}
    {w : σ} (hf : f s.working = .ok (a, w)) :
    ∃ s', statement f s = (.ok a, s') ∧ s'.working = w ∧ s'.nextId = s.nextId ∧ s'.Calm := by
  obtain ⟨committed, working, origin, depth, nextId, outcomes, rollbacks⟩ := s
  cases outcomes with
  | nil =>
    refine ⟨⟨committed, w, some (origin.getD .autobegin), depth, nextId, [], rollbacks⟩, ?_, rfl,
      rfl, hs⟩
    rw [statement]
    dsimp only [Session.autobegin]
    rw [hf]
    rfl
  | cons outcome outcomes =>
    obtain rfl : outcome = none := hs outcome List.mem_cons_self
    refine ⟨⟨committed, w, some (origin.getD .autobegin), depth, nextId, outcomes, rollbacks⟩, ?_,
      rfl, rfl, fun o ho ↦ hs o (List.mem_cons_of_mem _ ho)⟩
    rw [statement]
    dsimp only [Session.autobegin]
    rw [hf]
    rfl

theorem transaction_of_calm [SessionErrors ε] {S : σ} {x : Program σ ε α} {s s' : Session σ ε}
    (hs : s.Idle S) {a : α} (hrun : x { s with
      depth := s.depth + 1
      origin := some (s.origin.getD .begin) } = (.ok a, s')) (hcalm : s'.Calm) :
    ∃ s'', transaction x s = (.ok a, s'') := by
  rw [transaction_of_idle hs, managed_ok hrun]
  rcases close_cases a s' with ⟨-, hclose⟩ | ⟨e, s'', hsome, -⟩
  · exact ⟨_, hclose⟩
  · exact absurd (hcalm _ (List.mem_of_head? (Option.join_eq_some_iff.mp hsome))) (by simp)

/-- In a session that nothing disturbs, and whose next id and working copy meet the precondition,
the program returns with the postcondition. -/
def Returns (P : ℕ → σ → Prop) (x : Program σ ε α) (Q : α → ℕ → σ → Prop) : Prop :=
  ∀ s : Session σ ε, s.Calm → P s.nextId s.working →
    ∃ a s', x s = (.ok a, s') ∧ s'.Calm ∧ Q a s'.nextId s'.working

namespace Returns

variable {P P' : ℕ → σ → Prop} {Q : α → ℕ → σ → Prop} {R : β → ℕ → σ → Prop}

theorem mono_left {x : Program σ ε α} (h : Returns P x Q) (hP : ∀ n w, P' n w → P n w) :
    Returns P' x Q := fun s hs hp ↦ h s hs (hP _ _ hp)

theorem pure {a : α} (h : ∀ n w, P n w → Q a n w) :
    Returns P (Pure.pure a : Program σ ε α) Q := fun s hs hp ↦ ⟨a, s, rfl, hs, h _ _ hp⟩

theorem bind {x : Program σ ε α} {f : α → Program σ ε β} (hx : Returns P x Q)
    (hf : ∀ a, Returns (Q a) (f a) R) : Returns P (x >>= f) R := by
  intro s hs hp
  obtain ⟨a, s₁, hrun, hs₁, hq⟩ := hx s hs hp
  obtain ⟨b, s₂, hrun', hs₂, hr⟩ := hf a s₁ hs₁ hq
  exact ⟨b, s₂, (bind_ok hrun).trans hrun', hs₂, hr⟩

theorem ofExcept {e : Except ε α} {f : α → Program σ ε β} {a : α} (he : e = .ok a)
    (hf : Returns P (f a) R) : Returns P (Program.ofExcept e >>= f) R := by
  rw [he]
  exact hf

theorem statement {f : σ → Except ε (α × σ)}
    (h : ∀ n w, P n w → ∃ a w', f w = .ok (a, w') ∧ Q a n w') :
    Returns P (Program.statement f) Q := by
  intro s hs hp
  obtain ⟨a, w', hf, hq⟩ := h _ _ hp
  obtain ⟨s', hrun, rfl, hn, hs'⟩ := statement_of_calm hs hf
  exact ⟨a, s', hrun, hs', hn ▸ hq⟩

theorem query {f : σ → α} (h : ∀ n w, P n w → Q (f w) n w) :
    Returns P (Program.query f : Program σ ε α) Q :=
  statement fun n w hp ↦ ⟨f w, w, rfl, h n w hp⟩

theorem assign {f : σ → σ} {Q : Unit → ℕ → σ → Prop} (h : ∀ n w, P n w → Q () n (f w)) :
    Returns P (Program.assign f : Program σ ε Unit) Q := fun _ hs hp ↦
  ⟨(), _, rfl, hs, h _ _ hp⟩

theorem freshId {Q : ℕ → ℕ → σ → Prop} (h : ∀ n w, P n w → Q n (n + 1) w) :
    Returns P (Program.freshId : Program σ ε ℕ) Q := fun s hs hp ↦
  ⟨s.nextId, _, rfl, hs, h _ _ hp⟩

theorem mapM' {γ : Type} {f : γ → Program σ ε α} (hf : ∀ c, Returns P (f c) fun _ ↦ P)
    (cs : List γ) : Returns P (cs.mapM' f) fun _ ↦ P := by
  induction cs with
  | nil =>
    rw [List.mapM'_nil]
    exact pure fun _ _ hp ↦ hp
  | cons c cs ih =>
    rw [List.mapM'_cons]
    exact (hf c).bind fun a ↦ ih.bind fun result ↦ pure fun _ _ hp ↦ hp

theorem transaction [SessionErrors ε] {x : Program σ ε α} (hx : Returns P x Q) {S : σ}
    {s : Session σ ε} (hs : s.Idle S) (hcalm : s.Calm) (hp : P s.nextId S) :
    ∃ a s', Program.transaction x s = (.ok a, s') := by
  obtain ⟨a, s', hrun, hs', -⟩ := hx { s with
    depth := s.depth + 1
    origin := some (s.origin.getD .begin) } hcalm (hs.working.symm ▸ hp)
  obtain ⟨s'', hend⟩ := transaction_of_calm hs hrun hs'
  exact ⟨a, s'', hend⟩

end Returns

end Program

/-! ## How many statements a program takes

A program that runs without branching on what the database raises takes a fixed number of
statements and commits, and ends normally if and only if all of them do. So whether it ends can be
read off the outcomes, and where it was interrupted too. -/

/-- What the first one raises of the next `n` statements that raises. -/
def interruption (n : ℕ) (outcomes : List (Option ε)) : Option ε := (outcomes.take n).findSome? id

@[simp] theorem interruption_zero (outcomes : List (Option ε)) :
    interruption 0 outcomes = none := by
  rw [interruption, List.take_zero]
  rfl

@[simp] theorem interruption_nil (n : ℕ) : interruption n ([] : List (Option ε)) = none := by
  rw [interruption, List.take_nil]
  rfl

theorem interruption_one (outcomes : List (Option ε)) :
    interruption 1 outcomes = outcomes.head?.join := by
  cases outcomes with
  | nil => rfl
  | cons outcome outcomes => cases outcome <;> rfl

theorem interruption_add (n m : ℕ) (outcomes : List (Option ε)) :
    interruption (n + m) outcomes =
      (interruption n outcomes).or (interruption m (outcomes.drop n)) := by
  rw [interruption, List.take_add, List.findSome?_append]
  rfl

theorem mem_of_interruption {n : ℕ} {outcomes : List (Option ε)} {e : ε}
    (h : interruption n outcomes = some e) : some e ∈ outcomes := by
  obtain ⟨outcome, hmem, rfl⟩ := List.exists_of_findSome?_eq_some h
  exact List.mem_of_mem_take hmem

theorem interruption_of_calm {s : Session σ ε} (hs : s.Calm) (n : ℕ) :
    interruption n s.outcomes = none := by
  cases h : interruption n s.outcomes with
  | none => rfl
  | some e => exact absurd (hs _ (mem_of_interruption h)) (by simp)

/-- The session after `n` statements that ended normally. -/
structure Session.Passed (n : ℕ) (s s' : Session σ ε) : Prop where
  outcomes : s'.outcomes = s.outcomes.drop n
  depth : s'.depth = s.depth
  rollbacks : s'.rollbacks = s.rollbacks

theorem Session.Passed.trans {n m : ℕ} {s s₁ s' : Session σ ε} (h : s.Passed n s₁)
    (h' : s₁.Passed m s') : s.Passed (n + m) s' where
  outcomes := by rw [h'.outcomes, h.outcomes, List.drop_drop]
  depth := h'.depth.trans h.depth
  rollbacks := h'.rollbacks.trans h.rollbacks

namespace Program

/-- The program takes `n` statements and commits: if none of the next `n` raises, it returns with
the postcondition, and otherwise it raises what the first of them raises, in a session that is
related by `E` to the number of rollbacks there were. -/
def Takes (E : ℕ → Session σ ε → Prop) (P : Session σ ε → Prop) (x : Program σ ε α) (n : ℕ)
    (Q : α → Session σ ε → Prop) : Prop :=
  ∀ s, P s → match interruption n s.outcomes with
    | none => ∃ a s', x s = (.ok a, s') ∧ s.Passed n s' ∧ Q a s'
    | some e => ∃ s', x s = (.error e, s') ∧ E s.rollbacks s'

/-- A statement that raised has left the session's objects alone. -/
def Unexpired (rollbacks : ℕ) (s : Session σ ε) : Prop := s.rollbacks = rollbacks

/-- A unit of work that raised was rolled back, or leaves a session that refuses statements. -/
def Discarded [SessionErrors ε] (rollbacks : ℕ) (s : Session σ ε) : Prop :=
  rollbacks < s.rollbacks ∨
    s.rollbacks = rollbacks ∧ ∃ rest, s.outcomes = some SessionErrors.prepared :: rest

end Program

/-- What holds of the next id and the working copy. -/
def Session.Meets (R : ℕ → σ → Prop) (s : Session σ ε) : Prop := R s.nextId s.working

/-- Between units of work, and what holds of the next id and the store. -/
def Session.Between (R : ℕ → σ → Prop) (s : Session σ ε) : Prop :=
  ∃ S, s.Idle S ∧ R s.nextId S

namespace Program

namespace Takes

variable {E F : ℕ → Session σ ε → Prop} {P O : Session σ ε → Prop} {n m : ℕ}
  {Q Q' : α → Session σ ε → Prop} {T : β → Session σ ε → Prop} {R : ℕ → σ → Prop}

theorem mono {x : Program σ ε α} (h : Takes E P x n Q) (hP : ∀ s, O s → P s)
    (hQ : ∀ a s, Q a s → Q' a s) (hE : ∀ n s, E n s → F n s) : Takes F O x n Q' := by
  intro s hs
  have hx := h s (hP s hs)
  split at hx
  · obtain ⟨a, s', hrun, hpassed, hq⟩ := hx
    exact ⟨a, s', hrun, hpassed, hQ a s' hq⟩
  · obtain ⟨s', hrun, he⟩ := hx
    exact ⟨s', hrun, hE _ _ he⟩

theorem run_ok {x : Program σ ε α} (h : Takes E P x n Q) {s : Session σ ε} (hs : P s)
    (hnone : interruption n s.outcomes = none) :
    ∃ a s', x s = (.ok a, s') ∧ s.Passed n s' ∧ Q a s' := by
  have hx := h s hs
  rw [hnone] at hx
  exact hx

theorem run_error {x : Program σ ε α} (h : Takes E P x n Q) {s : Session σ ε} (hs : P s) {e : ε}
    (hsome : interruption n s.outcomes = some e) :
    ∃ s', x s = (.error e, s') ∧ E s.rollbacks s' := by
  have hx := h s hs
  rw [hsome] at hx
  exact hx

theorem isOk_iff {x : Program σ ε α} (h : Takes E P x n Q) {s : Session σ ε} (hs : P s) :
    (x s).1.isOk = true ↔ interruption n s.outcomes = none := by
  cases hinterrupted : interruption n s.outcomes with
  | none =>
    obtain ⟨a, s', hrun, -⟩ := h.run_ok hs hinterrupted
    rw [hrun]
    exact iff_of_true rfl rfl
  | some e =>
    obtain ⟨s', hrun, -⟩ := h.run_error hs hinterrupted
    rw [hrun]
    exact iff_of_false Bool.false_ne_true (by simp)

theorem congr {x y : Program σ ε α} (h : Takes E P y n Q) (heq : ∀ s, P s → x s = y s) :
    Takes E P x n Q := by
  intro s hs
  rw [heq s hs]
  exact h s hs

theorem exists_pre {ι : Type} {P : ι → Session σ ε → Prop} {x : Program σ ε α}
    (h : ∀ i, Takes E (P i) x n Q) : Takes E (fun s ↦ ∃ i, P i s) x n Q :=
  fun s ⟨i, hs⟩ ↦ h i s hs

theorem pure {a : α} (h : ∀ s, P s → Q a s) : Takes E P (Pure.pure a : Program σ ε α) 0 Q := by
  intro s hs
  rw [interruption_zero]
  exact ⟨a, s, rfl, ⟨rfl, rfl, rfl⟩, h s hs⟩

theorem bind {x : Program σ ε α} {f : α → Program σ ε β} (hx : Takes E P x n Q)
    (hf : ∀ a, Takes E (Q a) (f a) m T) : Takes E P (x >>= f) (n + m) T := by
  intro s hs
  have hxs := hx s hs
  rw [interruption_add]
  split at hxs
  · rename_i hnone
    obtain ⟨a, s₁, hrun, hpassed, hq⟩ := hxs
    have hfs := hf a s₁ hq
    rw [hpassed.outcomes, hpassed.rollbacks] at hfs
    rw [hnone, Option.none_or, bind_ok hrun]
    split at hfs
    · obtain ⟨b, s', hrest, hpassed', ht⟩ := hfs
      exact ⟨b, s', hrest, hpassed.trans hpassed', ht⟩
    · exact hfs
  · rename_i e hsome
    obtain ⟨s', hrun, he⟩ := hxs
    rw [hsome, Option.some_or]
    exact ⟨s', bind_error hrun, he⟩

theorem map {x : Program σ ε α} {f : α → β} (hx : Takes E P x n fun a ↦ T (f a)) :
    Takes E P (f <$> x) n T :=
  hx.bind (m := 0) fun _ ↦ pure fun _ h ↦ h

theorem ofExcept {x : Except ε α} {f : α → Program σ ε β} {a : α} (hx : x = .ok a)
    (hf : Takes E P (f a) n T) : Takes E P (Program.ofExcept x >>= f) n T := by
  rw [hx]
  exact hf

theorem mapM' {γ : Type} {f : γ → Program σ ε α} (hf : ∀ c, Takes E P (f c) n fun _ ↦ P)
    (cs : List γ) : Takes E P (cs.mapM' f) (cs.length * n) fun _ ↦ P := by
  induction cs with
  | nil =>
    rw [List.mapM'_nil, List.length_nil, Nat.zero_mul]
    exact pure fun _ h ↦ h
  | cons c cs ih =>
    rw [List.mapM'_cons, List.length_cons, Nat.succ_mul, Nat.add_comm]
    exact (hf c).bind fun a ↦ ih.bind (m := 0) fun result ↦ pure fun _ h ↦ h

theorem statement_of {f : σ → Except ε (α × σ)} (h : ∀ s, P s → ∃ a w, f s.working = .ok (a, w) ∧
      Q a { s.autobegin with working := w, outcomes := s.outcomes.tail }) :
    Takes Unexpired P (Program.statement f) 1 Q := by
  intro s hs
  obtain ⟨a, w, hf, hq⟩ := h s hs
  obtain ⟨committed, working, origin, depth, nextId, outcomes, rollbacks⟩ := s
  rw [interruption_one]
  unfold Program.statement
  dsimp only [Session.autobegin] at hf hq ⊢
  cases outcomes with
  | nil =>
    rw [hf]
    exact ⟨a, _, rfl, ⟨rfl, rfl, rfl⟩, hq⟩
  | cons outcome outcomes =>
    cases outcome with
    | none =>
      dsimp only [List.head?_cons, Option.join_some]
      rw [hf]
      exact ⟨a, _, rfl, ⟨rfl, rfl, rfl⟩, hq⟩
    | some e => exact ⟨_, rfl, rfl⟩

variable {T : α → ℕ → σ → Prop}

theorem statement {f : σ → Except ε (α × σ)}
    (h : ∀ n w, R n w → ∃ a w', f w = .ok (a, w') ∧ T a n w') :
    Takes Unexpired (Session.Meets R) (Program.statement f) 1 fun a ↦ Session.Meets (T a) :=
  statement_of fun s hs ↦ h s.nextId s.working hs

theorem query {f : σ → α} (h : ∀ n w, R n w → T (f w) n w) :
    Takes Unexpired (Session.Meets R) (Program.query f : Program σ ε α) 1
      fun a ↦ Session.Meets (T a) :=
  statement fun n w hw ↦ ⟨f w, w, rfl, h n w hw⟩

theorem assign {f : σ → σ} {T : ℕ → σ → Prop} (h : ∀ n w, R n w → T n (f w)) :
    Takes E (Session.Meets R) (Program.assign f : Program σ ε Unit) 0 fun _ ↦ Session.Meets T := by
  intro s hs
  rw [interruption_zero]
  exact ⟨(), _, rfl, ⟨rfl, rfl, rfl⟩, h _ _ hs⟩

theorem freshId_statement {f : ℕ → σ → Except ε (α × σ)}
    (h : ∀ n w, R n w → ∃ a w', f n w = .ok (a, w') ∧ T a (n + 1) w') :
    Takes Unexpired (Session.Meets R) (Program.freshId >>= fun id ↦ Program.statement (f id)) 1
      fun a ↦ Session.Meets (T a) := by
  intro s hs
  have hfresh : (Program.freshId : Program σ ε ℕ) s = (.ok s.nextId, { s with
    nextId := s.nextId + 1 }) := rfl
  rw [bind_ok hfresh]
  have hstatement : Takes Unexpired (· = { s with nextId := s.nextId + 1 })
      (Program.statement (f s.nextId)) 1 fun a ↦ Session.Meets (T a) := by
    refine statement_of fun t ht ↦ ?_
    rw [ht]
    exact h _ _ hs
  have hrun := hstatement _ rfl
  dsimp only at hrun
  split at hrun
  · obtain ⟨a, s', hrun, ⟨houtcomes, hdepth, hrollbacks⟩, hq⟩ := hrun
    exact ⟨a, s', hrun, ⟨houtcomes, hdepth, hrollbacks⟩, hq⟩
  · exact hrun

/-- A read between units of work. -/
theorem query_between {f : σ → α} (h : ∀ n S, R n S → T (f S) n S) :
    Takes Unexpired (Session.Between R) (Program.query f : Program σ ε α) 1
      fun a ↦ Session.Between (T a) := by
  refine statement_of fun s ⟨S, hidle, hr⟩ ↦
    ⟨f s.working, s.working, rfl, S, ⟨hidle.committed, hidle.working, ?_, hidle.depth⟩, ?_⟩
  · change s.autobegin.origin ≠ _
    rw [Session.autobegin]
    cases horigin : s.origin with
    | none => exact fun h ↦ nomatch h
    | some origin => exact horigin ▸ hidle.origin
  · rw [hidle.working]
    exact h _ _ hr

/-- **Units of work.** One takes the statements of its body and its commit; if one of these raises,
the session is rolled back, or refuses statements. -/
theorem transaction [SessionErrors ε] {x : Program σ ε α}
    (hx : Takes Unexpired (Session.Meets R) x n fun a ↦ Session.Meets (T a)) :
    Takes Discarded (Session.Between R) (Program.transaction x) (n + 1)
      fun a ↦ Session.Between (T a) := by
  rintro s ⟨S, hidle, hr⟩
  have hbody := hx { s with depth := s.depth + 1, origin := some (s.origin.getD .begin) }
    (show R s.nextId s.working from hidle.working.symm ▸ hr)
  rw [transaction_of_idle hidle, interruption_add]
  dsimp only at hbody
  split at hbody
  · rename_i hnone
    obtain ⟨a, s₁, hrun, hpassed, hq⟩ := hbody
    rw [hnone, Option.none_or, interruption_one, managed_ok hrun]
    have hdepth : s₁.depth - 1 = 0 := by
      rw [show s₁.depth = s.depth + 1 from hpassed.depth, hidle.depth]
    have houtcomes : s₁.outcomes = s.outcomes.drop n := hpassed.outcomes
    have hrollbacks : s₁.rollbacks = s.rollbacks := hpassed.rollbacks
    rw [← houtcomes]
    rcases close_cases a s₁ with ⟨hnext, hclose⟩ | ⟨e, s₂, hnext, hclose, hundone⟩
    · rw [hnext, hclose]
      refine ⟨a, _, rfl, ⟨?_, hdepth.trans hidle.depth.symm, hrollbacks⟩, s₁.working,
        ⟨rfl, rfl, (fun h ↦ nomatch h), hdepth⟩, hq⟩
      change s₁.outcomes.tail = _
      rw [houtcomes, List.tail_drop]
    · rw [hnext, hclose]
      exact ⟨s₂, rfl, hrollbacks ▸ hundone.undone⟩
  · rename_i e hsome
    obtain ⟨s₁, hrun, he⟩ := hbody
    rw [hsome, Option.some_or, managed_error hrun]
    refine ⟨_, rfl, .inl ?_⟩
    have hkept : s₁.rollbacks = s.rollbacks := he
    exact hkept ▸ Nat.lt_succ_self _

theorem and_outTx {x : Program σ ε α} (hx : Takes E (Session.Between R) x n fun a ↦
      Session.Between (T a)) {Q : α → σ → σ → Prop} {F : ε → σ → σ → Prop}
    (hout : ∀ m S, R m S → OutTx x S (Q · S) (F · S)) :
    Takes E (Session.Between R) x n fun a ↦ Session.Between fun m S' ↦
      T a m S' ∧ ∃ m' S, R m' S ∧ Q a S S' := by
  rintro s ⟨S, hidle, hr⟩
  have hxs := hx s ⟨S, hidle, hr⟩
  split at hxs
  · obtain ⟨a, s', hrun, hpassed, S', hidle', hr'⟩ := hxs
    obtain ⟨S'', hidle'', hq⟩ := (hout _ S hr).ok hidle hrun
    obtain rfl := hidle'.committed.symm.trans hidle''.committed
    exact ⟨a, s', hrun, hpassed, S', hidle', hr', _, S, hr, hq⟩
  · exact hxs

theorem returns {x : Program σ ε α}
    (hx : Takes E (Session.Meets R) x n fun a ↦ Session.Meets (T a)) :
    Returns R x T := by
  intro s hs hp
  have hxs := hx s hp
  rw [interruption_of_calm hs] at hxs
  obtain ⟨a, s', hrun, hpassed, hq⟩ := hxs
  exact ⟨a, s', hrun, fun o ho ↦ hs o (List.mem_of_mem_drop (hpassed.outcomes ▸ ho)), hq⟩

end Takes

end Program

end KnowledgeAlakazam
