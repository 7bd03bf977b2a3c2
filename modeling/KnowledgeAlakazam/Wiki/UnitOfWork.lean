import KnowledgeAlakazam.Core.Session
import Mathlib.Data.List.Basic

/-!
# The wiki repository's unit of work

`WikiRepository.transaction` looks at three things before its body runs: at the depth counter, at
whether the session has a transaction, and at how this transaction was opened. Here it is written
as the source has it, over a session that counts commits and rollbacks, and for arbitrary programs:
a `Script` is a tree of statements, exceptions, handlers and nested blocks, where what comes next
may depend on everything read so far. Statements may fail, and the session and the database remember
it after the program has caught the exception (`Standing`).

Executing a script records every block that was left, with the states at its entry, at the end of
its body and at its exit. A block should be all or nothing (`Block.Lawful`), and
`unitOfWork_allOrNothing_iff` says of every block of every script when it is. There are two ways for
it not to be. Its body may have caught the failure of a statement, and what is left of the
transaction is then closed or committed without an error (`UnitSession.Forgets`); the failing script
is `caught_flush_commits_nothing`. Or the commit of a transaction that had begun by itself raises,
and nothing rolls it back (`UnitSession.Strands`).

The unit of work of the other modules, `Program.transaction`, is this one on a session of which
nothing fails (`program_eq_exec`). Their programs catch exceptions between units of work only.
-/

namespace KnowledgeAlakazam

variable {σ ε ρ : Type}

/-! ## The session -/

/-- What has become of a transaction. -/
inductive Standing where
  | active
  /-- The database has refused a statement, and refuses all others until the transaction ends; the
  session does not know. -/
  | aborted
  /-- A commit has failed. -/
  | prepared
  /-- A flush has failed, and the session has rolled back. -/
  | deactive
deriving DecidableEq

/-- The session takes its transaction for an active one. -/
def Standing.isActive : Standing → Bool
  | active | aborted => true
  | prepared | deactive => false

/-- A session and the depth counter of the repository that uses it. Ghosts: all writes since the
transaction began, and the numbers of commits and rollbacks. -/
structure UnitSession (σ ε : Type) where
  /-- The store as other sessions see it. -/
  committed : σ
  /-- The writes that a commit would make durable, oldest first. -/
  pending : List (σ → σ)
  written : List (σ → σ)
  /-- The open transaction, if there is one. -/
  origin : Option TransactionOrigin
  standing : Standing
  /-- `_transaction_depth`. -/
  depth : ℕ
  /-- How the statements and commits to come end; all others end normally. -/
  outcomes : List (Option ε)
  commits : ℕ
  rollbacks : ℕ

def applied (writes : List (σ → σ)) (store : σ) : σ := writes.foldl (fun w f ↦ f w) store

namespace UnitSession

variable (s : UnitSession σ ε)

/-- The store as this session sees it. -/
def working : σ := applied s.pending s.committed

/-- The effect of a statement on a session without a transaction. -/
def autobegin : UnitSession σ ε := { s with origin := some (s.origin.getD .autobegin) }

/-- The session after a statement that failed; a flush that fails rolls back. -/
def fail (flush : Bool) : UnitSession σ ε :=
  { s with pending := [], standing := if flush then .deactive else .aborted }

variable (refusal : Standing → ε) in
/-- A statement, or a flush. It may fail only while none has failed, and is refused afterwards. -/
def statement (flush : Bool) : Except ε Unit × UnitSession σ ε :=
  match s.standing with
  | .active => match s.outcomes with
    | some e :: outcomes => (.error e, { s.autobegin.fail flush with outcomes := outcomes })
    | outcomes => (.ok (), { s.autobegin with outcomes := outcomes.tail })
  | .aborted => (.error (refusal .aborted), s.fail flush)
  | standing => (.error (refusal standing), s)

/-- `Session.begin`. -/
def begin : UnitSession σ ε := { s with origin := some .begin }

/-- `SessionTransaction.close`. -/
def close : UnitSession σ ε :=
  { s with pending := [], written := [], origin := none, standing := .active }

/-- `Session.rollback`. -/
def rollback : UnitSession σ ε := { s.close with rollbacks := s.rollbacks + 1 }

variable (refusal : Standing → ε) in
/-- `Session.commit`. In a transaction in which a statement has failed, the database answers the
`COMMIT` with a rollback, and this is no error. -/
def commit : Except ε Unit × UnitSession σ ε :=
  if s.standing.isActive then match s.outcomes with
    | some e :: outcomes =>
      (.error e, { s with pending := [], standing := .prepared, outcomes := outcomes })
    | outcomes =>
      (.ok (), { s.close with
        committed := s.working
        outcomes := outcomes.tail
        commits := if s.standing = .active then s.commits + 1 else s.commits })
  else (.error (refusal s.standing), s)

/-- A session before a program: without a transaction, or with one that earlier statements or the
caller opened, and the writes in it. -/
def start (store : σ) (transaction : Option (TransactionOrigin × List (σ → σ)))
    (outcomes : List (Option ε)) : UnitSession σ ε where
  committed := store
  pending := (transaction.map Prod.snd).getD []
  written := (transaction.map Prod.snd).getD []
  origin := transaction.map Prod.fst
  standing := .active
  depth := 0
  outcomes := outcomes
  commits := 0
  rollbacks := 0

end UnitSession

/-! ## Programs -/

/-- A program that uses the session and the repository's blocks. What it reads and what its parts
return determines how it goes on. -/
inductive Script (σ ε ρ : Type) where
  | ret (r : ρ)
  | raise (e : ε)
  | read (next : σ → Script σ ε ρ)
  | write (f : σ → σ) (next : Script σ ε ρ)
  /-- `async with repository.transaction(): body`. -/
  | block (body : Script σ ε ρ) (next : ρ → Script σ ε ρ)
  /-- `try: body except BaseException as e: handler`. -/
  | handle (body : Script σ ε ρ) (handler : ε → Script σ ε ρ) (next : ρ → Script σ ε ρ)

structure Block (σ ε ρ : Type) where
  entry : UnitSession σ ε
  /-- How the body ended, and where. -/
  bodyOutcome : Except ε ρ
  bodyEnd : UnitSession σ ε
  outcome : Except ε ρ
  exit : UnitSession σ ε

/-- An execution that has ended, with the blocks that were left on the way. -/
structure Ended (σ ε ρ : Type) where
  outcome : Except ε ρ
  state : UnitSession σ ε
  blocks : List (Block σ ε ρ)

/-- Go on where a part ended, unless it raised. -/
def Ended.andThen (first : Ended σ ε ρ) (next : ρ → UnitSession σ ε → Ended σ ε ρ) :
    Ended σ ε ρ :=
  match first.outcome with
  | .error e => ⟨.error e, first.state, first.blocks⟩
  | .ok r =>
    let rest := next r first.state
    ⟨rest.outcome, rest.state, first.blocks ++ rest.blocks⟩

/-- Go on with the handler if a part raised. -/
def Ended.orElse (first : Ended σ ε ρ) (handler : ε → UnitSession σ ε → Ended σ ε ρ) :
    Ended σ ε ρ :=
  match first.outcome with
  | .ok r => ⟨.ok r, first.state, first.blocks⟩
  | .error e =>
    let rest := handler e first.state
    ⟨rest.outcome, rest.state, first.blocks ++ rest.blocks⟩

variable (refusal : Standing → ε)

/-- Go on after a statement that did not fail. -/
def Ended.statement (flush : Bool) (s : UnitSession σ ε)
    (next : UnitSession σ ε → Ended σ ε ρ) : Ended σ ε ρ :=
  match s.statement refusal flush with
  | (.ok (), s') => next s'
  | (.error e, s') => ⟨.error e, s', []⟩

/-- The exit of `async with self.session.begin()`. It commits or rolls back a transaction that is
active, and closes one that is not. -/
def exitContext (outcome : Except ε ρ) (s : UnitSession σ ε) : Except ε ρ × UnitSession σ ε :=
  if s.standing.isActive then match outcome with
    | .error e => (.error e, s.rollback)
    | .ok r => match s.commit refusal with
      | (.ok (), s') => (.ok r, s')
      | (.error e, s') => (.error e, s'.rollback)
  else (outcome, s.close)

/-- The end of a transaction that had begun by itself. -/
def exitAutobegun (outcome : Except ε ρ) (s : UnitSession σ ε) : Except ε ρ × UnitSession σ ε :=
  match outcome with
  | .error e => (.error e, s.rollback)
  | .ok r => match s.commit refusal with
    | (.ok (), s') => (.ok r, s')
    | (.error e, s') => (.error e, s')

/-- `finally: self._transaction_depth -= 1`. -/
def leaving (exit : Except ε ρ → UnitSession σ ε → Except ε ρ × UnitSession σ ε)
    (outcome : Except ε ρ) (s : UnitSession σ ε) : Except ε ρ × UnitSession σ ε :=
  let closed := exit outcome s
  (closed.1, { closed.2 with depth := closed.2.depth - 1 })

/-- The end of a block: its own record comes after those of the blocks inside it. -/
def Ended.close (entry : UnitSession σ ε) (body : Ended σ ε ρ)
    (close : Except ε ρ → UnitSession σ ε → Except ε ρ × UnitSession σ ε) : Ended σ ε ρ :=
  let closed := close body.outcome body.state
  ⟨closed.1, closed.2, body.blocks ++ [⟨entry, body.outcome, body.state, closed.1, closed.2⟩]⟩

/-- `WikiRepository.transaction`. -/
def unitOfWork (body : UnitSession σ ε → Ended σ ε ρ) (s : UnitSession σ ε) : Ended σ ε ρ :=
  if 0 < s.depth then (body s).close s Prod.mk
  else match s.origin with
    | some .begin => (body s).close s Prod.mk
    | some .autobegin =>
      (body { s with depth := s.depth + 1 }).close s (leaving (exitAutobegun refusal))
    | none =>
      (body { s.begin with depth := s.depth + 1 }).close s (leaving (exitContext refusal))

def Script.exec : Script σ ε ρ → UnitSession σ ε → Ended σ ε ρ
  | .ret r, s => ⟨.ok r, s, []⟩
  | .raise e, s => ⟨.error e, s, []⟩
  | .read next, s => Ended.statement refusal false s fun s' ↦ (next s.working).exec s'
  | .write f next, s => Ended.statement refusal true s fun s' ↦
    next.exec { s' with pending := s'.pending ++ [f], written := s'.written ++ [f] }
  | .block body next, s =>
    (unitOfWork refusal body.exec s).andThen fun r ↦ (next r).exec
  | .handle body handler next, s =>
    ((body.exec s).orElse fun e ↦ (handler e).exec).andThen fun r ↦ (next r).exec

/-! ## What there is to demand of a block -/

/-- The block leaves the transaction to others: it ends as its body ends, and from its entry to its
exit it commits nothing and rolls nothing back. -/
structure Block.Passive (b : Block σ ε ρ) : Prop where
  outcome : b.outcome = b.bodyOutcome
  exit : b.exit = b.bodyEnd
  committed : b.exit.committed = b.entry.committed
  /-- What was pending still is, unless a statement has failed. -/
  pending : b.exit.standing = .active → b.entry.pending <+: b.exit.pending
  commits : b.exit.commits = b.entry.commits
  rollbacks : b.exit.rollbacks = b.entry.rollbacks

/-- The block is all or nothing. -/
structure Block.Managed (b : Block σ ε ρ) : Prop where
  /-- The body adds to what was written before the block. -/
  written : b.bodyEnd.committed = b.entry.committed ∧ b.entry.written <+: b.bodyEnd.written
  /-- A normal exit commits everything that was written since the transaction began, once. -/
  returned : ∀ r, b.outcome = .ok r → b.bodyOutcome = .ok r ∧
    b.exit.committed = applied b.bodyEnd.written b.bodyEnd.committed ∧
    b.exit.commits = b.entry.commits + 1 ∧ b.exit.rollbacks = b.entry.rollbacks
  /-- Any other exit commits nothing, and comes after one rollback, be it that of a flush. -/
  raised : ∀ e, b.outcome = .error e → b.exit.committed = b.entry.committed ∧
    b.exit.commits = b.entry.commits ∧
    (b.exit.rollbacks = b.entry.rollbacks + 1 ∨ b.bodyEnd.standing = .deactive)
  /-- What the body raises is raised again. -/
  reraised : ∀ e, b.bodyOutcome = .error e → b.outcome = .error e
  /-- Nothing that was written is left uncommitted. -/
  pending : b.exit.pending = []

/-- The law of a block: the outermost one manages the transaction, unless the caller began it. -/
structure Block.Lawful (b : Block σ ε ρ) : Prop where
  depth : b.exit.depth = b.entry.depth
  outermost : b.entry.depth = 0 → b.entry.origin ≠ some .begin → b.Managed
  inner : 0 < b.entry.depth → b.Passive
  callerBegin : b.entry.depth = 0 → b.entry.origin = some .begin → b.Passive

/-- Writes of this transaction are gone, and its normal end will not say so: a flush has failed and
the transaction is that of a context, or a statement has failed and the `COMMIT` does not. -/
def UnitSession.Forgets (s : UnitSession σ ε) (context : Prop) : Prop :=
  (s.standing = .deactive ∧ context) ∨ (s.standing = .aborted ∧ s.outcomes.head?.join = none)

/-- The normal end of this transaction is a commit that raises, and no context is there to roll it
back. -/
def UnitSession.Strands (s : UnitSession σ ε) (context : Prop) : Prop :=
  ¬context ∧
    (s.standing = .prepared ∨ s.standing.isActive = true ∧ s.outcomes.head?.join ≠ none)

/-- If the block is the outermost one, and the caller did not begin the transaction, then its body
raises, or leaves a transaction that a normal end commits or rolls back, and says which. -/
def Block.Unspoiled (b : Block σ ε ρ) : Prop :=
  b.entry.depth = 0 → b.entry.origin ≠ some .begin → ∀ r, b.bodyOutcome = .ok r →
    ¬b.bodyEnd.Forgets (b.entry.origin = none) ∧ ¬b.bodyEnd.Strands (b.entry.origin = none)

/-! ## Inside a transaction that is managed elsewhere -/

namespace UnitSession

/-- A commit would make all writes of the transaction durable, or none. -/
structure Coherent (s : UnitSession σ ε) : Prop where
  active : s.standing = .active → s.pending = s.written
  lost : s.standing ≠ .active → s.pending = []

/-- Some unit of work, or the caller, manages the transaction. -/
structure Inside (s : UnitSession σ ε) : Prop where
  opened : s.origin.isSome = true
  managed : 0 < s.depth ∨ s.origin = some .begin
  coherent : s.Coherent

theorem fail_standing (s : UnitSession σ ε) (flush : Bool) :
    (s.fail flush).standing = .aborted ∨ (s.fail flush).standing = .deactive := by
  cases flush
  · exact .inl rfl
  · exact .inr rfl

theorem coherent_fail (s : UnitSession σ ε) (flush : Bool) : (s.fail flush).Coherent := by
  refine ⟨fun h ↦ ?_, fun _ ↦ rfl⟩
  rcases s.fail_standing flush with hlost | hlost
  · cases hlost.symm.trans h
  · cases hlost.symm.trans h

/-- A statement was sent, or refused. -/
structure Touched (s s' : UnitSession σ ε) : Prop where
  committed : s'.committed = s.committed
  written : s'.written = s.written
  origin : s'.origin = s.autobegin.origin ∨ s'.origin = s.origin ∧ s.standing ≠ .active
  standing : s'.standing = s.standing ∨ s'.standing = .aborted ∨ s'.standing = .deactive
  depth : s'.depth = s.depth
  commits : s'.commits = s.commits
  rollbacks : s'.rollbacks = s.rollbacks
  coherent : s'.Coherent

/-- Nothing happened but statements, and their writes. -/
structure Kept (s s' : UnitSession σ ε) : Prop where
  committed : s'.committed = s.committed
  written : s.written <+: s'.written
  origin : s'.origin = s.origin
  standing : s'.standing = s.standing ∨ s'.standing = .aborted ∨ s'.standing = .deactive
  depth : s'.depth = s.depth
  commits : s'.commits = s.commits
  rollbacks : s'.rollbacks = s.rollbacks
  coherent : s'.Coherent

variable {s s' s'' : UnitSession σ ε}

/-- What a statement does to the session, whether it ends normally or not. -/
theorem statement_cases (refusal : Standing → ε) (flush : Bool) (hs : s.Coherent) :
    (∃ s', s.statement refusal flush = (.ok (), s') ∧ s.Touched s' ∧ s'.standing = .active) ∨
      ∃ e s', s.statement refusal flush = (.error e, s') ∧ s.Touched s' := by
  have horigin : s.standing ≠ .active → s.origin = s.autobegin.origin ∨
      s.origin = s.origin ∧ s.standing ≠ .active := fun h ↦ .inr ⟨rfl, h⟩
  unfold statement
  cases hstanding : s.standing with
  | active =>
    dsimp only
    split
    · have hfail := s.autobegin.coherent_fail flush
      exact .inr ⟨_, _, rfl, rfl, rfl, .inl rfl, .inr (s.autobegin.fail_standing flush), rfl, rfl,
        rfl, ⟨hfail.active, hfail.lost⟩⟩
    · refine .inl ⟨_, rfl, ⟨rfl, rfl, .inl rfl, .inl rfl, rfl, rfl, rfl, ?_⟩, hstanding⟩
      exact ⟨hs.active, hs.lost⟩
  | aborted =>
    exact .inr ⟨_, _, rfl, rfl, rfl, horigin (by simp [hstanding]), .inr (s.fail_standing flush),
      rfl, rfl, rfl, s.coherent_fail flush⟩
  | prepared =>
    exact .inr ⟨_, _, rfl, rfl, rfl, horigin (by simp [hstanding]), .inl rfl, rfl, rfl, rfl, hs⟩
  | deactive =>
    exact .inr ⟨_, _, rfl, rfl, rfl, horigin (by simp [hstanding]), .inl rfl, rfl, rfl, rfl, hs⟩

theorem Coherent.write (hs : s.Coherent) (hactive : s.standing = .active) (f : σ → σ) :
    Coherent { s with pending := s.pending ++ [f], written := s.written ++ [f] } :=
  ⟨fun _ ↦ congrArg (· ++ [f]) (hs.active hactive), fun h ↦ absurd hactive h⟩

theorem Kept.refl (h : s.Coherent) : Kept s s :=
  ⟨rfl, List.prefix_rfl, rfl, .inl rfl, rfl, rfl, rfl, h⟩

theorem Kept.trans (h : Kept s s') (h' : Kept s' s'') : Kept s s'' where
  committed := h'.committed.trans h.committed
  written := h.written.trans h'.written
  origin := h'.origin.trans h.origin
  standing := by
    rcases h'.standing with hsame | hlost
    · rw [hsame]
      exact h.standing
    · exact .inr hlost
  depth := h'.depth.trans h.depth
  commits := h'.commits.trans h.commits
  rollbacks := h'.rollbacks.trans h.rollbacks
  coherent := h'.coherent

theorem Kept.inside (h : Kept s s') (hs : s.Inside) : s'.Inside :=
  ⟨h.origin ▸ hs.opened, by rw [h.depth, h.origin]; exact hs.managed, h.coherent⟩

theorem Kept.write (h : Kept s s') (hactive : s'.standing = .active) (f : σ → σ) :
    Kept s { s' with pending := s'.pending ++ [f], written := s'.written ++ [f] } :=
  { h with
    written := h.written.trans (List.prefix_append _ _)
    coherent := h.coherent.write hactive f }

theorem Kept.active (h : Kept s s') (hs : s'.standing = .active) : s.standing = .active := by
  rcases h.standing with hsame | hlost | hlost
  · exact hsame ▸ hs
  · cases hlost.symm.trans hs
  · cases hlost.symm.trans hs

theorem Inside.autobegin_origin (hs : s.Inside) : s.autobegin.origin = s.origin := by
  obtain ⟨origin, horigin⟩ := Option.isSome_iff_exists.mp hs.opened
  rw [autobegin, horigin]
  rfl

theorem Inside.kept (hs : s.Inside) (h : s.Touched s') : Kept s s' :=
  { h with
    written := h.written ▸ List.prefix_rfl
    origin := h.origin.elim (fun horigin ↦ horigin.trans hs.autobegin_origin) And.left }

end UnitSession

/-! ## Rules for executions -/

/-- The execution ends in a state with a property, and its blocks have another one. -/
def Ended.All (P : UnitSession σ ε → Prop) (Q : Block σ ε ρ → Prop) (x : Ended σ ε ρ) : Prop :=
  P x.state ∧ ∀ b ∈ x.blocks, Q b

namespace Ended

variable {P P' : UnitSession σ ε → Prop} {Q : Block σ ε ρ → Prop} {x : Ended σ ε ρ}

theorem All.andThen {next : ρ → UnitSession σ ε → Ended σ ε ρ} (hx : x.All P Q)
    (hP : ∀ s, P s → P' s) (hnext : ∀ r s, P s → (next r s).All P' Q) :
    (x.andThen next).All P' Q := by
  rw [Ended.andThen]
  split
  · exact ⟨hP _ hx.1, hx.2⟩
  · rename_i r _
    have hrest := hnext r x.state hx.1
    refine ⟨hrest.1, fun b hb ↦ ?_⟩
    rcases List.mem_append.mp hb with hb | hb
    · exact hx.2 b hb
    · exact hrest.2 b hb

theorem All.orElse {handler : ε → UnitSession σ ε → Ended σ ε ρ} (hx : x.All P Q)
    (hhandler : ∀ e s, P s → (handler e s).All P Q) : (x.orElse handler).All P Q := by
  rw [Ended.orElse]
  split
  · exact hx
  · rename_i e _
    have hrest := hhandler e x.state hx.1
    refine ⟨hrest.1, fun b hb ↦ ?_⟩
    rcases List.mem_append.mp hb with hb | hb
    · exact hx.2 b hb
    · exact hrest.2 b hb

theorem All.close {entry : UnitSession σ ε}
    {close : Except ε ρ → UnitSession σ ε → Except ε ρ × UnitSession σ ε} (hx : x.All P Q)
    (hP : P' (close x.outcome x.state).2)
    (hQ : Q ⟨entry, x.outcome, x.state, (close x.outcome x.state).1,
      (close x.outcome x.state).2⟩) : (x.close entry close).All P' Q := by
  refine ⟨hP, fun b hb ↦ ?_⟩
  rcases List.mem_append.mp hb with hb | hb
  · exact hx.2 b hb
  · exact List.mem_singleton.mp hb ▸ hQ

theorem all_statement {refusal : Standing → ε} {flush : Bool} {s : UnitSession σ ε}
    {next : UnitSession σ ε → Ended σ ε ρ} (hs : s.Coherent) (hP : ∀ s', s.Touched s' → P s')
    (hnext : ∀ s', s.Touched s' → s'.standing = .active → (next s').All P Q) :
    (Ended.statement refusal flush s next).All P Q := by
  unfold Ended.statement
  rcases UnitSession.statement_cases refusal flush hs with
    ⟨s', hrun, htouched, hactive⟩ | ⟨e, s', hrun, htouched⟩
  · rw [hrun]
    exact hnext s' htouched hactive
  · rw [hrun]
    exact ⟨hP s' htouched, fun b hb ↦ absurd hb List.not_mem_nil⟩

end Ended

theorem Ended.All.of_kept {s s' : UnitSession σ ε} {Q : Block σ ε ρ → Prop} {x : Ended σ ε ρ}
    (hx : x.All s'.Kept Q) (hkept : s.Kept s') : x.All s.Kept Q :=
  ⟨hkept.trans hx.1, hx.2⟩

variable {refusal}

theorem unitOfWork_inside {body : UnitSession σ ε → Ended σ ε ρ} {s : UnitSession σ ε}
    (hs : s.Inside) : unitOfWork refusal body s = (body s).close s Prod.mk := by
  rw [unitOfWork]
  split
  · rfl
  · rename_i hdepth
    rcases hs.managed with h | h
    · exact absurd h hdepth
    · rw [h]

/-- Whether the block is all or nothing is told by its condition. -/
def Block.Judged (b : Block σ ε ρ) : Prop := b.Lawful ↔ b.Unspoiled

/-- A block inside a transaction that is managed elsewhere is lawful. -/
theorem judged_inside {s s' : UnitSession σ ε} {outcome : Except ε ρ} (hs : s.Inside)
    (hkept : s.Kept s') : Block.Judged ⟨s, outcome, s', outcome, s'⟩ := by
  have hpassive : Block.Passive ⟨s, outcome, s', outcome, s'⟩ :=
    { outcome := rfl
      exit := rfl
      committed := hkept.committed
      pending := fun hactive ↦ by
        rw [hs.coherent.active (hkept.active hactive), hkept.coherent.active hactive]
        exact hkept.written
      commits := hkept.commits
      rollbacks := hkept.rollbacks }
  have hnot : ¬(s.depth = 0 ∧ s.origin ≠ some .begin) := by
    rintro ⟨hdepth, horigin⟩
    rcases hs.managed with h | h
    · exact Nat.ne_of_gt h hdepth
    · exact horigin h
  refine iff_of_true ⟨hkept.depth, fun hdepth horigin ↦ absurd ⟨hdepth, horigin⟩ hnot,
    fun _ ↦ hpassive, fun _ _ ↦ hpassive⟩ fun hdepth horigin ↦ absurd ⟨hdepth, horigin⟩ hnot

/-- **Inside.** A script that runs in a transaction which is managed elsewhere leaves it open, and
all its blocks are lawful. -/
theorem Script.exec_inside (script : Script σ ε ρ) {s : UnitSession σ ε} (hs : s.Inside) :
    (script.exec refusal s).All s.Kept Block.Judged := by
  induction script generalizing s with
  | ret r => exact ⟨.refl hs.coherent, fun b hb ↦ absurd hb List.not_mem_nil⟩
  | raise e => exact ⟨.refl hs.coherent, fun b hb ↦ absurd hb List.not_mem_nil⟩
  | read next ih =>
    refine Ended.all_statement hs.coherent (fun s' h ↦ hs.kept h) fun s' h hactive ↦ ?_
    exact (ih s.working ((hs.kept h).inside hs)).of_kept (hs.kept h)
  | write f next ih =>
    refine Ended.all_statement hs.coherent (fun s' h ↦ hs.kept h) fun s' h hactive ↦ ?_
    have hkept := (hs.kept h).write hactive f
    exact (ih (hkept.inside hs)).of_kept hkept
  | block body next ihbody ihnext =>
    rw [Script.exec, unitOfWork_inside hs]
    have hbody := ihbody hs
    exact (hbody.close hbody.1 (judged_inside hs hbody.1)).andThen (fun _ h ↦ h)
      fun r _ hkept ↦ (ihnext r (hkept.inside hs)).of_kept hkept
  | handle body handler next ihbody ihhandler ihnext =>
    rw [Script.exec]
    have htried : ((body.exec refusal s).orElse fun e ↦
        (handler e).exec refusal).All s.Kept Block.Judged :=
      (ihbody hs).orElse fun e _ hkept ↦ (ihhandler e (hkept.inside hs)).of_kept hkept
    exact htried.andThen (fun _ h ↦ h) fun r _ hkept ↦ (ihnext r (hkept.inside hs)).of_kept hkept

/-! ## Outside -/

namespace UnitSession

/-- No unit of work manages the transaction, and the caller did not begin one. -/
structure Outside (s : UnitSession σ ε) : Prop where
  depth : s.depth = 0
  origin : s.origin ≠ some .begin
  closed : s.origin = none → s.written = [] ∧ s.standing = .active
  coherent : s.Coherent

variable {s s' : UnitSession σ ε}

theorem Outside.origin_touched (hs : s.Outside) (h : s.Touched s') :
    s'.origin = some .autobegin := by
  rcases h.origin with horigin | ⟨horigin, hlost⟩
  · rw [horigin, UnitSession.autobegin]
    cases hopened : s.origin with
    | none => rfl
    | some origin =>
      cases origin with
      | begin => exact absurd hopened hs.origin
      | autobegin => rfl
  · rw [horigin]
    cases hopened : s.origin with
    | none => exact absurd (hs.closed hopened).2 hlost
    | some origin =>
      cases origin with
      | begin => exact absurd hopened hs.origin
      | autobegin => rfl

theorem Outside.touched (hs : s.Outside) (h : s.Touched s') : s'.Outside := by
  have horigin := hs.origin_touched h
  exact ⟨h.depth.trans hs.depth, by simp [horigin],
    fun hnone ↦ (nomatch horigin.symm.trans hnone), h.coherent⟩

theorem Outside.write (hs : s.Outside) (horigin : s.origin = some .autobegin)
    (hactive : s.standing = .active) (f : σ → σ) :
    Outside { s with pending := s.pending ++ [f], written := s.written ++ [f] } :=
  ⟨hs.depth, hs.origin, fun hnone ↦ (nomatch horigin.symm.trans hnone),
    hs.coherent.write hactive f⟩

/-- The state in which the body of an outermost block begins. -/
structure Entered (s s₁ : UnitSession σ ε) : Prop where
  committed : s₁.committed = s.committed
  written : s₁.written = s.written
  origin : s₁.origin.isSome = true
  depth : s₁.depth = s.depth + 1
  commits : s₁.commits = s.commits
  rollbacks : s₁.rollbacks = s.rollbacks
  coherent : s₁.Coherent

theorem Entered.inside {s₁ : UnitSession σ ε} (h : s.Entered s₁) : s₁.Inside :=
  ⟨h.origin, .inl (by rw [h.depth]; exact Nat.succ_pos _), h.coherent⟩

/-! ### The end of a transaction -/

/-- How a transaction may end: by what its body raises or returns, as what the block raises or
returns, and with which session. -/
inductive Exits (s : UnitSession σ ε) (context : Prop) :
    Except ε ρ → Except ε ρ → UnitSession σ ε → Prop
  | raised {error : ε} {s' : UnitSession σ ε} (hcommitted : s'.committed = s.committed)
    (hcommits : s'.commits = s.commits)
    (hrollbacks : s'.rollbacks = s.rollbacks + 1 ∨ s.standing = .deactive) :
    Exits s context (.error error) (.error error) s'
  | committed {r : ρ} {s' : UnitSession σ ε} (hactive : s.standing = .active)
    (hnext : s.outcomes.head?.join = none) (hcommitted : s'.committed = s.working)
    (hcommits : s'.commits = s.commits + 1) (hrollbacks : s'.rollbacks = s.rollbacks) :
    Exits s context (.ok r) (.ok r) s'
  | forgot {r : ρ} {s' : UnitSession σ ε} (h : s.Forgets context)
    (hcommits : s'.commits = s.commits) : Exits s context (.ok r) (.ok r) s'
  | refused {r : ρ} {error : ε} {s' : UnitSession σ ε} (hforgets : ¬s.Forgets context)
    (hstrands : ¬s.Strands context) (hcommitted : s'.committed = s.committed)
    (hcommits : s'.commits = s.commits)
    (hrollbacks : s'.rollbacks = s.rollbacks + 1 ∨ s.standing = .deactive) :
    Exits s context (.ok r) (.error error) s'
  | stranded {r : ρ} {error : ε} {s' : UnitSession σ ε} (h : s.Strands context)
    (hrollbacks : s'.rollbacks = s.rollbacks) : Exits s context (.ok r) (.error error) s'

theorem Strands.ne_deactive {context : Prop} (h : s.Strands context) : s.standing ≠ .deactive := by
  intro hdeactive
  rcases h.2 with hprepared | ⟨hactive, -⟩
  · cases hprepared.symm.trans hdeactive
  · rw [hdeactive] at hactive
    cases hactive

structure Left (s s' : UnitSession σ ε) : Prop where
  depth : s'.depth = s.depth
  origin : s'.origin ≠ some .begin
  closed : s'.origin = none → s'.written = [] ∧ s'.standing = .active
  pending : s'.pending = []
  coherent : s'.Coherent

theorem Left.of_close (hdepth : s'.depth = s.depth) (horigin : s'.origin = none)
    (hwritten : s'.written = []) (hpending : s'.pending = []) (hstanding : s'.standing = .active) :
    s.Left s' where
  depth := hdepth
  origin := by simp [horigin]
  closed _ := ⟨hwritten, hstanding⟩
  pending := hpending
  coherent := ⟨fun _ ↦ hpending.trans hwritten.symm, fun _ ↦ hpending⟩

theorem Left.of_lost (hdepth : s'.depth = s.depth) (horigin : s'.origin = some .autobegin)
    (hpending : s'.pending = []) (hstanding : s'.standing ≠ .active) : s.Left s' where
  depth := hdepth
  origin := by simp [horigin]
  closed hnone := nomatch horigin.symm.trans hnone
  pending := hpending
  coherent := ⟨fun hactive ↦ absurd hactive hstanding, fun _ ↦ hpending⟩

theorem commit_cases (refusal : Standing → ε) (s : UnitSession σ ε) :
    (s.standing.isActive = true ∧ s.outcomes.head?.join = none ∧
      ∃ outcomes, s.commit refusal = (.ok (), { s.close with
        committed := s.working
        outcomes := outcomes
        commits := if s.standing = .active then s.commits + 1 else s.commits })) ∨
    (s.standing.isActive = true ∧ s.outcomes.head?.join ≠ none ∧
      ∃ e outcomes, s.commit refusal = (.error e, { s with
        pending := []
        standing := .prepared
        outcomes := outcomes })) ∨
    (s.standing.isActive = false ∧ s.commit refusal = (.error (refusal s.standing), s)) := by
  unfold commit
  cases hactive : s.standing.isActive with
  | false => exact .inr (.inr ⟨rfl, rfl⟩)
  | true =>
    rw [if_pos rfl]
    split
    · rename_i houtcomes
      exact .inr (.inl ⟨rfl, by simp [houtcomes], _, _, rfl⟩)
    · rename_i hnone
      refine .inl ⟨rfl, ?_, _, rfl⟩
      cases houtcomes : s.outcomes with
      | nil => rfl
      | cons outcome outcomes =>
        cases outcome with
        | none => rfl
        | some e => exact absurd houtcomes (hnone e outcomes)

theorem exits_commit (context : Prop) (hactive : s.standing.isActive = true)
    (hnext : s.outcomes.head?.join = none) {outcomes : List (Option ε)} (r : ρ) :
    s.Exits context (.ok r) (.ok r) { s.close with
      committed := s.working
      outcomes := outcomes
      commits := if s.standing = .active then s.commits + 1 else s.commits } := by
  cases hstanding : s.standing with
  | active => exact .committed hstanding hnext rfl rfl rfl
  | aborted => exact .forgot (.inr ⟨hstanding, hnext⟩) rfl
  | prepared => cases (congrArg Standing.isActive hstanding).symm.trans hactive
  | deactive => cases (congrArg Standing.isActive hstanding).symm.trans hactive

/-- **The exit of a context.** -/
theorem exits_context (refusal : Standing → ε) (hne : s.standing ≠ .prepared)
    {context : Prop} (hcontext : context) (outcome : Except ε ρ) :
    s.Exits context outcome (exitContext refusal outcome s).1 (exitContext refusal outcome s).2 ∧
      s.Left (exitContext refusal outcome s).2 := by
  unfold exitContext
  cases hactive : s.standing.isActive with
  | false =>
    have hdeactive : s.standing = .deactive := by
      cases hstanding : s.standing with
      | deactive => rfl
      | prepared => exact absurd hstanding hne
      | active => cases (congrArg Standing.isActive hstanding).symm.trans hactive
      | aborted => cases (congrArg Standing.isActive hstanding).symm.trans hactive
    refine ⟨?_, .of_close rfl rfl rfl rfl rfl⟩
    cases outcome with
    | error e => exact .raised rfl rfl (.inr hdeactive)
    | ok r => exact .forgot (.inl ⟨hdeactive, hcontext⟩) rfl
  | true =>
    rw [if_pos rfl]
    cases outcome with
    | error e => exact ⟨.raised rfl rfl (.inl rfl), .of_close rfl rfl rfl rfl rfl⟩
    | ok r =>
      rcases s.commit_cases refusal with ⟨-, hnext, outcomes, hcommit⟩ |
        ⟨-, hnext, e, outcomes, hcommit⟩ | ⟨hinactive, -⟩
      · dsimp only
        rw [hcommit]
        exact ⟨exits_commit context hactive hnext r, .of_close rfl rfl rfl rfl rfl⟩
      · dsimp only
        rw [hcommit]
        refine ⟨.refused ?_ (fun h ↦ h.1 hcontext) rfl rfl (.inl rfl),
          .of_close rfl rfl rfl rfl rfl⟩
        rintro (⟨hlost, -⟩ | ⟨-, hnone⟩)
        · rw [hlost] at hactive
          cases hactive
        · exact hnext hnone
      · cases hinactive.symm.trans hactive

/-- **The end of a transaction that had begun by itself.** -/
theorem exits_autobegun (refusal : Standing → ε) (hs : s.Coherent)
    (horigin : s.origin = some .autobegin) {context : Prop} (hcontext : ¬context)
    (outcome : Except ε ρ) :
    s.Exits context outcome (exitAutobegun refusal outcome s).1
        (exitAutobegun refusal outcome s).2 ∧
      s.Left (exitAutobegun refusal outcome s).2 := by
  unfold exitAutobegun
  cases outcome with
  | error e => exact ⟨.raised rfl rfl (.inl rfl), .of_close rfl rfl rfl rfl rfl⟩
  | ok r =>
    rcases s.commit_cases refusal with ⟨hactive, hnext, outcomes, hcommit⟩ |
      ⟨hactive, hnext, e, outcomes, hcommit⟩ | ⟨hinactive, hcommit⟩
    · dsimp only
      rw [hcommit]
      exact ⟨exits_commit context hactive hnext r, .of_close rfl rfl rfl rfl rfl⟩
    · dsimp only
      rw [hcommit]
      exact ⟨.stranded ⟨hcontext, .inr ⟨hactive, hnext⟩⟩ rfl,
        .of_lost rfl horigin rfl (by simp)⟩
    · dsimp only
      rw [hcommit]
      cases hstanding : s.standing with
      | active => cases (congrArg Standing.isActive hstanding).symm.trans hinactive
      | aborted => cases (congrArg Standing.isActive hstanding).symm.trans hinactive
      | prepared =>
        have hlost : s.standing ≠ .active := by simp [hstanding]
        exact ⟨.stranded ⟨hcontext, .inl hstanding⟩ rfl,
          .of_lost rfl horigin (hs.lost hlost) hlost⟩
      | deactive =>
        -- the flush that failed has rolled back
        have hlost : s.standing ≠ .active := by simp [hstanding]
        refine ⟨.refused ?_ ?_ rfl rfl (.inr hstanding),
          .of_lost rfl horigin (hs.lost hlost) hlost⟩
        · rintro (⟨-, h⟩ | ⟨haborted, -⟩)
          · exact hcontext h
          · cases hstanding.symm.trans haborted
        · rintro ⟨-, hprepared | ⟨hactive, -⟩⟩
          · cases hstanding.symm.trans hprepared
          · cases hinactive.symm.trans hactive

end UnitSession

variable {s s' : UnitSession σ ε}

/-- The exit of an outermost block: it is lawful unless writes were forgotten or stranded. -/
theorem judged_exit (hs : s.Outside) {s₁ e : UnitSession σ ε} (hentered : s.Entered s₁)
    (hkept : s₁.Kept e) {outcome outcome' : Except ε ρ}
    (hexits : e.Exits (s.origin = none) outcome outcome' s') (hleft : e.Left s') :
    UnitSession.Outside { s' with depth := s'.depth - 1 } ∧
      Block.Judged ⟨s, outcome, e, outcome', { s' with depth := s'.depth - 1 }⟩ := by
  have hdepth : s'.depth - 1 = s.depth := by
    rw [hleft.depth, hkept.depth, hentered.depth]
    rfl
  have hwritten : e.committed = s.committed ∧ s.written <+: e.written :=
    ⟨hkept.committed.trans hentered.committed, hentered.written ▸ hkept.written⟩
  have hcommits := hkept.commits.trans hentered.commits
  have hrollbacks := hkept.rollbacks.trans hentered.rollbacks
  refine ⟨⟨hdepth.trans hs.depth, hleft.origin, hleft.closed,
    ⟨hleft.coherent.active, hleft.coherent.lost⟩⟩, ?_⟩
  have hlawful : ∀ outcome outcome' : Except ε ρ,
      Block.Managed ⟨s, outcome, e, outcome', { s' with depth := s'.depth - 1 }⟩ →
      Block.Lawful ⟨s, outcome, e, outcome', { s' with depth := s'.depth - 1 }⟩ :=
    fun _ _ h ↦ ⟨hdepth, fun _ _ ↦ h, fun hpos ↦ absurd hs.depth (Nat.ne_of_gt hpos),
      fun _ horigin ↦ absurd horigin hs.origin⟩
  have hundone : ∀ (outcome : Except ε ρ) (error : ε), s'.committed = e.committed →
      s'.commits = e.commits → s'.rollbacks = e.rollbacks + 1 ∨ e.standing = .deactive →
      (∀ raised, outcome = .error raised → error = raised) →
      Block.Managed ⟨s, outcome, e, .error error, { s' with depth := s'.depth - 1 }⟩ :=
    fun outcome error hcommitted hcommits' hrollbacks' hreraised ↦
      { written := hwritten
        returned := fun r h ↦ nomatch h
        raised := fun _ _ ↦ ⟨hcommitted.trans hwritten.1, hcommits'.trans hcommits,
          hrollbacks'.imp_left fun h ↦ h.trans (congrArg (· + 1) hrollbacks)⟩
        reraised := fun raised h ↦ congrArg Except.error (hreraised raised h)
        pending := hleft.pending }
  cases hexits with
  | raised hcommitted hcommits' hrollbacks' =>
    exact iff_of_true (hlawful _ _ (hundone _ _ hcommitted hcommits' hrollbacks'
      fun _ h ↦ Except.error.inj h)) fun _ _ r h ↦ nomatch h
  | committed hactive hnext hcommitted hcommits' hrollbacks' =>
    refine iff_of_true (hlawful _ _ ?_) fun _ _ _ _ ↦ ⟨?_, ?_⟩
    · exact
        { written := hwritten
          returned := fun r h ↦ ⟨h, by rw [← hkept.coherent.active hactive]; exact hcommitted,
            hcommits'.trans (congrArg (· + 1) hcommits), hrollbacks'.trans hrollbacks⟩
          raised := fun _ h ↦ nomatch h
          reraised := fun _ h ↦ nomatch h
          pending := hleft.pending }
    · rintro (⟨hlost, -⟩ | ⟨hlost, -⟩)
      · cases hlost.symm.trans hactive
      · cases hlost.symm.trans hactive
    · rintro ⟨-, hprepared | ⟨-, hraises⟩⟩
      · cases hprepared.symm.trans hactive
      · exact hraises hnext
  | @forgot r _ hforgets hcommits' =>
    -- a normal exit without a commit
    refine iff_of_false (fun h ↦ ?_) fun h ↦ (h hs.depth hs.origin r rfl).1 hforgets
    have hcount := ((h.outermost hs.depth hs.origin).returned r rfl).2.2.1
    have hsame : s.commits + 1 = s.commits := by
      calc s.commits + 1 = _ := hcount.symm
        _ = _ := hcommits'
        _ = s.commits := hcommits
    exact Nat.succ_ne_self _ hsame
  | refused hforgets hstrands hcommitted hcommits' hrollbacks' =>
    exact iff_of_true (hlawful _ _ (hundone _ _ hcommitted hcommits' hrollbacks'
      fun _ h ↦ nomatch h)) fun _ _ _ _ ↦ ⟨hforgets, hstrands⟩
  | @stranded r error _ hstrands hrollbacks' =>
    -- an exit that raises without a rollback
    refine iff_of_false (fun h ↦ ?_) fun h ↦ (h hs.depth hs.origin r rfl).2 hstrands
    rcases ((h.outermost hs.depth hs.origin).raised error rfl).2.2 with hcount | hdeactive
    · have hsame : s.rollbacks + 1 = s.rollbacks := by
        calc s.rollbacks + 1 = _ := hcount.symm
          _ = _ := hrollbacks'
          _ = s.rollbacks := hrollbacks
      exact Nat.succ_ne_self _ hsame
    · exact hstrands.ne_deactive hdeactive

theorem unitOfWork_outside (hs : s.Outside) (body : Script σ ε ρ) :
    (unitOfWork refusal (body.exec refusal) s).All UnitSession.Outside Block.Judged := by
  have hcoherent : ∀ origin, UnitSession.Coherent { s with origin, depth := s.depth + 1 } :=
    fun _ ↦ ⟨hs.coherent.active, hs.coherent.lost⟩
  rw [unitOfWork, if_neg (by rw [hs.depth]; exact Nat.lt_irrefl 0)]
  cases horigin : s.origin with
  | none =>
    -- a transaction of its own, in which no commit has failed
    have hentered : s.Entered { s.begin with depth := s.depth + 1 } :=
      ⟨rfl, rfl, rfl, rfl, rfl, rfl, hcoherent _⟩
    have hbody : (body.exec refusal _).All _ Block.Judged := body.exec_inside hentered.inside
    have hne : (body.exec refusal { s.begin with depth := s.depth + 1 }).state.standing ≠
        .prepared := by
      intro hprepared
      rcases hbody.1.standing with hsame | hlost | hlost
      · cases (hs.closed horigin).2.symm.trans (hsame.symm.trans hprepared)
      · cases hlost.symm.trans hprepared
      · cases hlost.symm.trans hprepared
    obtain ⟨hexits, hleft⟩ := UnitSession.exits_context refusal hne horigin
      (body.exec refusal { s.begin with depth := s.depth + 1 }).outcome
    have hexit := judged_exit hs hentered hbody.1 hexits hleft
    have hclosed : ((body.exec refusal { s.begin with depth := s.depth + 1 }).close s
        (leaving (exitContext refusal))).All UnitSession.Outside Block.Judged :=
      hbody.close hexit.1 hexit.2
    exact hclosed
  | some origin =>
    cases origin with
    | begin => exact absurd horigin hs.origin
    | autobegin =>
      have hentered : s.Entered { s with origin := some .autobegin, depth := s.depth + 1 } :=
        ⟨rfl, rfl, rfl, rfl, rfl, rfl, hcoherent _⟩
      have hbody : (body.exec refusal _).All _ Block.Judged := body.exec_inside hentered.inside
      have hcontext : ¬s.origin = none := by simp [horigin]
      obtain ⟨hexits, hleft⟩ := UnitSession.exits_autobegun refusal hbody.1.coherent
        hbody.1.origin hcontext (body.exec refusal _).outcome
      have hexit := judged_exit hs hentered hbody.1 hexits hleft
      have hclosed : ((body.exec refusal _).close s
          (leaving (exitAutobegun refusal))).All UnitSession.Outside Block.Judged :=
        hbody.close hexit.1 hexit.2
      exact hclosed

/-- **Outside.** A script that runs where nobody manages the transaction ends there, and which of
its blocks are lawful is told by their condition. -/
theorem Script.exec_outside (script : Script σ ε ρ) {s : UnitSession σ ε} (hs : s.Outside) :
    (script.exec refusal s).All UnitSession.Outside Block.Judged := by
  induction script generalizing s with
  | ret r => exact ⟨hs, fun b hb ↦ absurd hb List.not_mem_nil⟩
  | raise e => exact ⟨hs, fun b hb ↦ absurd hb List.not_mem_nil⟩
  | read next ih =>
    exact Ended.all_statement hs.coherent (fun s' h ↦ hs.touched h) fun s' h hactive ↦
      ih s.working (hs.touched h)
  | write f next ih =>
    exact Ended.all_statement hs.coherent (fun s' h ↦ hs.touched h) fun s' h hactive ↦
      ih ((hs.touched h).write (hs.origin_touched h) hactive f)
  | block body next _ ihnext =>
    rw [Script.exec]
    exact (unitOfWork_outside hs body).andThen (fun _ h ↦ h) fun r _ h ↦ ihnext r h
  | handle body handler next ihbody ihhandler ihnext =>
    rw [Script.exec]
    have htried : ((body.exec refusal s).orElse fun e ↦
        (handler e).exec refusal).All UnitSession.Outside Block.Judged :=
      (ihbody hs).orElse fun e _ h ↦ ihhandler e h
    exact htried.andThen (fun _ h ↦ h) fun r _ h ↦ ihnext r h

/-- **Main result.** Whatever the session is when a program begins, and however its statements and
commits end: a block that the program leaves was all or nothing if and only if its body raised or
no failure of a statement was left to be forgotten, and the depth counter is back where it was. -/
theorem unitOfWork_allOrNothing_iff (refusal : Standing → ε) (store : σ)
    (transaction : Option (TransactionOrigin × List (σ → σ)))
    (outcomes : List (Option ε)) (script : Script σ ε ρ) :
    (script.exec refusal (.start store transaction outcomes)).All
      (fun s ↦ s.depth = 0) fun b ↦ b.Lawful ↔ b.Unspoiled := by
  have hcoherent : (UnitSession.start store transaction outcomes : UnitSession σ ε).Coherent :=
    ⟨fun _ ↦ rfl, fun h ↦ absurd rfl h⟩
  by_cases hbegin : transaction.map Prod.fst = some .begin
  · have hinside : (UnitSession.start store transaction outcomes : UnitSession σ ε).Inside :=
      ⟨by simp [UnitSession.start, hbegin], .inr hbegin, hcoherent⟩
    have hexec : (script.exec refusal _).All _ Block.Judged := script.exec_inside hinside
    exact ⟨hexec.1.depth, hexec.2⟩
  · have houtside : (UnitSession.start store transaction outcomes :
        UnitSession σ ε).Outside := by
      refine ⟨rfl, hbegin, fun h ↦ ?_, hcoherent⟩
      cases transaction with
      | none => exact ⟨rfl, rfl⟩
      | some opened => exact absurd h (by simp [UnitSession.start])
    have hexec : (script.exec refusal _).All _ Block.Judged := script.exec_outside houtside
    exact ⟨hexec.1.depth, hexec.2⟩

/-- The program of a caller that goes on without a row which could not be written: the outer block
writes one, and catches the failure of the flush in the inner one. -/
def caughtScript : Script (List ℕ) String Unit :=
  .block
    (.write (1 :: ·)
      (.handle (.block (.write (2 :: ·) (.ret ())) .ret) (fun _ ↦ .ret ()) .ret))
    .ret

/-- The flush fails, and the outer block ends normally with nothing committed. -/
theorem caught_flush_commits_nothing :
    ¬∀ b ∈ (caughtScript.exec (fun _ ↦ "PendingRollbackError")
      (.start [] none [none, some "IntegrityError"])).blocks, b.Lawful := by
  intro h
  have hblock : ∃ b ∈ (caughtScript.exec (fun _ ↦ "PendingRollbackError")
      (.start [] none [none, some "IntegrityError"])).blocks, b.entry.depth = 0 ∧
        b.entry.origin = none ∧ b.outcome = .ok () ∧ b.exit.commits = b.entry.commits :=
    ⟨_, List.mem_cons_of_mem _ List.mem_cons_self, rfl, rfl, rfl, rfl⟩
  obtain ⟨b, hb, hdepth, horigin, hok, hcommits⟩ := hblock
  have hcommitted := ((h b hb).outermost hdepth (by simp [horigin])).returned () hok
  exact Nat.succ_ne_self _ (hcommitted.2.2.1.symm.trans hcommits)

/-! ## The unit of work of the other modules -/

/-- The script as a program of a session. -/
def Script.program [SessionErrors ε] : Script σ ε ρ → Program σ ε ρ
  | .ret r => pure r
  | .raise e => Program.raise e
  | .read next => Program.query id >>= fun w ↦ (next w).program
  | .write f next => Program.statement (fun w ↦ .ok ((), f w)) >>= fun _ ↦ next.program
  | .block body next => Program.transaction body.program >>= fun r ↦ (next r).program
  | .handle body handler next =>
    Program.except body.program (fun e ↦ (handler e).program) >>= fun r ↦ (next r).program

/-- The session, without the ghosts and with the working copy in place of the writes. -/
def UnitSession.session (s : UnitSession σ ε) (nextId : ℕ) : Session σ ε where
  committed := s.committed
  working := s.working
  origin := s.origin
  depth := s.depth
  nextId := nextId
  outcomes := []
  rollbacks := s.rollbacks

/-- Nothing raises by itself: the statements and commits to come end normally. -/
structure UnitSession.Smooth (s : UnitSession σ ε) : Prop where
  active : s.standing = .active
  outcomes : s.outcomes = []

/-- An execution and a run of a program that end in the same way. -/
structure SameEnd (x : Ended σ ε ρ) (nextId : ℕ) (run : Except ε ρ × Session σ ε) : Prop where
  smooth : x.state.Smooth
  run_eq : run = (x.outcome, x.state.session nextId)

theorem SameEnd.andThen {x : Ended σ ε ρ} {nextId : ℕ} {y : Program σ ε ρ}
    {t : Session σ ε} (hx : SameEnd x nextId (y t))
    {next : ρ → UnitSession σ ε → Ended σ ε ρ} {rest : ρ → Program σ ε ρ}
    (hnext : ∀ r s, s.Smooth → SameEnd (next r s) nextId (rest r (s.session nextId))) :
    SameEnd (x.andThen next) nextId ((y >>= rest) t) := by
  have hrun := hx.run_eq
  rw [Ended.andThen]
  split
  · rename_i e houtcome
    rw [houtcome] at hrun
    exact ⟨hx.smooth, Program.bind_error hrun⟩
  · rename_i r houtcome
    rw [houtcome] at hrun
    have hrest := hnext r x.state hx.smooth
    exact ⟨hrest.smooth, (Program.bind_ok hrun).trans hrest.run_eq⟩

theorem SameEnd.orElse {x : Ended σ ε ρ} {nextId : ℕ} {y : Program σ ε ρ}
    {t : Session σ ε} (hx : SameEnd x nextId (y t))
    {handler : ε → UnitSession σ ε → Ended σ ε ρ} {rest : ε → Program σ ε ρ}
    (hhandler : ∀ e s, s.Smooth → SameEnd (handler e s) nextId (rest e (s.session nextId))) :
    SameEnd (x.orElse handler) nextId (Program.except y rest t) := by
  have hrun := hx.run_eq
  rw [Ended.orElse]
  split
  · rename_i r houtcome
    rw [houtcome] at hrun
    exact ⟨hx.smooth, Program.except_ok hrun⟩
  · rename_i e houtcome
    rw [houtcome] at hrun
    have hrest := hhandler e x.state hx.smooth
    exact ⟨hrest.smooth, (Program.except_error hrun).trans hrest.run_eq⟩

theorem UnitSession.Smooth.statement (hs : s.Smooth) (flush : Bool) :
    s.statement refusal flush = (.ok (), s.autobegin) := by
  unfold UnitSession.statement
  rw [hs.active, hs.outcomes]
  change (Except.ok (), { s.autobegin with outcomes := [] }) = _
  rw [← hs.outcomes]
  rfl

theorem UnitSession.Smooth.commit (hs : s.Smooth) :
    s.commit refusal = (.ok (), { s.close with
      committed := s.working
      outcomes := []
      commits := s.commits + 1 }) := by
  unfold UnitSession.commit
  rw [hs.active, hs.outcomes]
  rfl

variable [SessionErrors ε]

/-- The unit of work that manages its transaction ends it in the same way. -/
theorem sameEnd_managed {x : Ended σ ε ρ} {nextId : ℕ} {y : Program σ ε ρ} {t : Session σ ε}
    (hx : SameEnd x nextId
      (y { t with depth := t.depth + 1, origin := some (t.origin.getD .begin) }))
    (entry : UnitSession σ ε)
    {exit : Except ε ρ → UnitSession σ ε → Except ε ρ × UnitSession σ ε}
    (hexit : exit = exitContext refusal ∨ exit = exitAutobegun refusal) :
    SameEnd (x.close entry (leaving exit)) nextId (Program.managed y t) := by
  obtain ⟨outcome, state, blocks⟩ := x
  have hrun := hx.run_eq
  have hsmooth : state.Smooth := hx.smooth
  cases outcome with
  | error e =>
    rw [Program.managed_error hrun]
    have hclose : exit (.error e) state = (.error e, state.rollback) := by
      rcases hexit with rfl | rfl
      · rw [exitContext, hsmooth.active]
        rfl
      · rfl
    unfold Ended.close leaving
    rw [hclose]
    exact ⟨⟨rfl, hsmooth.outcomes⟩, rfl⟩
  | ok r =>
    rw [Program.managed_ok hrun]
    have hclose : exit (.ok r) state = (.ok r, { state.close with
        committed := state.working
        outcomes := []
        commits := state.commits + 1 }) := by
      rcases hexit with rfl | rfl
      · rw [exitContext, if_pos (by rw [hsmooth.active]; rfl), hsmooth.commit]
      · rw [exitAutobegun, hsmooth.commit]
    unfold Ended.close leaving
    rw [hclose]
    exact ⟨⟨rfl, rfl⟩, rfl⟩

theorem sameEnd_unitOfWork {body : UnitSession σ ε → Ended σ ε ρ} {y : Program σ ε ρ}
    {nextId : ℕ} (hbody : ∀ s, s.Smooth → SameEnd (body s) nextId (y (s.session nextId)))
    (hs : s.Smooth) : SameEnd (unitOfWork refusal body s) nextId
      (Program.transaction y (s.session nextId)) := by
  have hinner : SameEnd ((body s).close s Prod.mk) nextId (y (s.session nextId)) :=
    ⟨(hbody s hs).smooth, (hbody s hs).run_eq⟩
  rw [unitOfWork, Program.transaction]
  by_cases hdepth : 0 < s.depth
  · rw [if_pos hdepth, if_pos (show 0 < (s.session nextId).depth from hdepth)]
    exact hinner
  · rw [if_neg hdepth, if_neg (show ¬ 0 < (s.session nextId).depth from hdepth)]
    obtain ⟨committed, pending, written, origin, standing, depth, outcomes, commits, rollbacks⟩ := s
    have hentered := fun origin ↦ hbody ⟨committed, pending, written, some origin, standing,
      depth + 1, outcomes, commits, rollbacks⟩ ⟨hs.active, hs.outcomes⟩
    cases origin with
    | none => exact sameEnd_managed (hentered .begin) _ (.inl rfl)
    | some origin =>
      cases origin with
      | begin => exact hinner
      | autobegin => exact sameEnd_managed (hentered .autobegin) _ (.inr rfl)

/-- **The same unit of work.** On a session of which nothing fails, a script ends as the program of
a session does that is made of `Program.transaction`. -/
theorem program_eq_exec (script : Script σ ε ρ) (nextId : ℕ) (hs : s.Smooth) :
    SameEnd (script.exec refusal s) nextId (script.program (s.session nextId)) := by
  induction script generalizing s with
  | ret r => exact ⟨hs, rfl⟩
  | raise e => exact ⟨hs, rfl⟩
  | read next ih =>
    rw [Script.exec, Ended.statement, hs.statement]
    exact ih s.working ⟨hs.active, hs.outcomes⟩
  | write f next ih =>
    rw [Script.exec, Ended.statement, hs.statement]
    have hrest := ih (s := { s.autobegin with
      pending := s.pending ++ [f]
      written := s.written ++ [f] }) ⟨hs.active, hs.outcomes⟩
    have hworking : UnitSession.session { s.autobegin with
        pending := s.pending ++ [f]
        written := s.written ++ [f] } nextId
        = { (s.session nextId).autobegin with working := f s.working } := by
      rw [UnitSession.session, UnitSession.working, applied, List.foldl_append]
      rfl
    rw [hworking] at hrest
    exact hrest
  | block body next ihbody ihnext =>
    rw [Script.exec, Script.program]
    exact (sameEnd_unitOfWork (fun _ h ↦ ihbody h) hs).andThen fun r _ h ↦ ihnext r h
  | handle body handler next ihbody ihhandler ihnext =>
    rw [Script.exec, Script.program]
    exact ((ihbody hs).orElse fun e _ h ↦ ihhandler e h).andThen fun r _ h ↦ ihnext r h

end KnowledgeAlakazam
