import KnowledgeAlakazam.Core.Session

/-!
# Programs and what they do not see

A view of a store leaves some of it out. A program is blind to what a view leaves out if it does
the same in the view of a session as in the session: it returns the same value or raises the same
error, and the session afterwards is the view of what it would have been. Two stores with the same
view are then the same to the program, which is how noninterference is proved here: as a fact
about one run.

Whether a row can be inserted depends on the whole store, since its key may be taken by a row that
the view leaves out. Fresh ids are what makes inserts blind, so an invariant `I` of the store may
mention the next fresh id. Three judgements work together: `InTx` says what a program does to the
store, `Preserves` that it keeps the invariant, and `BlindTx` and `BlindOut`, inside and between
units of work, that it is blind as long as the invariant holds.
-/

namespace KnowledgeAlakazam

variable {σ ε α β : Type}

open Program

/-! ## Invariants that mention the next id -/

/-- However the program ends, the invariant holds of both stores if it did, and no id was given
back. -/
def Preserves (I : ℕ → σ → Prop) (x : Program σ ε α) : Prop :=
  ∀ s : Session σ ε, I s.nextId s.committed → I s.nextId s.working →
    s.nextId ≤ (x s).2.nextId ∧ I (x s).2.nextId (x s).2.committed ∧
      I (x s).2.nextId (x s).2.working

/-- The invariant survives the drawing of ids. -/
def IdMonotone (I : ℕ → σ → Prop) : Prop := ∀ n m w, n ≤ m → I n w → I m w

namespace Preserves

variable {I : ℕ → σ → Prop}

theorem readOnly (hI : IdMonotone I) {x : Program σ ε α} (h : x.ReadOnly) : Preserves I x := by
  intro s hc hw
  have hx := h s
  rw [hx.committed, hx.working]
  exact ⟨hx.nextId, hI _ _ _ hx.nextId hc, hI _ _ _ hx.nextId hw⟩

theorem pure (a : α) : Preserves I (Pure.pure a : Program σ ε α) :=
  fun _ hc hw ↦ ⟨Nat.le_refl _, hc, hw⟩

theorem raise (e : ε) : Preserves I (Program.raise e : Program σ ε α) :=
  fun _ hc hw ↦ ⟨Nat.le_refl _, hc, hw⟩

theorem ofExcept (x : Except ε α) : Preserves I (Program.ofExcept x : Program σ ε α) := by
  cases x with
  | ok a => exact pure a
  | error e => exact raise e

theorem bind {x : Program σ ε α} {f : α → Program σ ε β} (hx : Preserves I x)
    (hf : ∀ a, Preserves I (f a)) : Preserves I (x >>= f) := by
  intro s hc hw
  have hxs := hx s hc hw
  rcases hrun : x s with ⟨e | a, s'⟩
  · rw [bind_error hrun]
    rwa [hrun] at hxs
  · rw [bind_ok hrun]
    rw [hrun] at hxs
    obtain ⟨hle, hc', hw'⟩ := hxs
    obtain ⟨hle', hfs⟩ := hf a s' hc' hw'
    exact ⟨Nat.le_trans hle hle', hfs⟩

theorem map {x : Program σ ε α} (f : α → β) (hx : Preserves I x) : Preserves I (f <$> x) :=
  hx.bind fun _ ↦ pure _

theorem except {x : Program σ ε α} {handler : ε → Program σ ε α} (hx : Preserves I x)
    (hh : ∀ e, Preserves I (handler e)) : Preserves I (Program.except x handler) := by
  intro s hc hw
  have hxs := hx s hc hw
  rcases hrun : x s with ⟨e | a, s'⟩
  · rw [except_error hrun]
    rw [hrun] at hxs
    obtain ⟨hle, hc', hw'⟩ := hxs
    obtain ⟨hle', hhs⟩ := hh e s' hc' hw'
    exact ⟨Nat.le_trans hle hle', hhs⟩
  · rw [except_ok hrun]
    rwa [hrun] at hxs

theorem statement {f : σ → Except ε (α × σ)}
    (h : ∀ n W a W', I n W → f W = .ok (a, W') → I n W') :
    Preserves I (Program.statement f) := by
  intro s hc hw
  unfold Program.statement
  dsimp only
  split
  · exact ⟨Nat.le_refl _, hc, hw⟩
  · split
    · rename_i hf
      exact ⟨Nat.le_refl _, hc, h _ _ _ _ hw hf⟩
    · exact ⟨Nat.le_refl _, hc, hw⟩

theorem query (f : σ → α) : Preserves I (Program.query f : Program σ ε α) :=
  statement fun n W a W' hI h ↦ by
    obtain ⟨-, rfl⟩ := Prod.mk.inj (Except.ok.inj h)
    exact hI

theorem assign {f : σ → σ} (h : ∀ n W, I n W → I n (f W)) :
    Preserves I (Program.assign f : Program σ ε Unit) :=
  fun _ hc hw ↦ ⟨Nat.le_refl _, hc, h _ _ hw⟩

theorem freshId_statement (hI : IdMonotone I) {f : ℕ → σ → Except ε (α × σ)}
    (h : ∀ n W a W', I n W → f n W = .ok (a, W') → I (n + 1) W') :
    Preserves I (Program.freshId >>= fun id ↦ Program.statement (f id)) := by
  intro s hc hw
  have hfresh : (Program.freshId : Program σ ε ℕ) s = (.ok s.nextId, { s with
    nextId := s.nextId + 1 }) := rfl
  have hle := Nat.le_succ s.nextId
  rw [bind_ok hfresh]
  unfold Program.statement
  dsimp only [Session.autobegin]
  split
  · exact ⟨hle, hI _ _ _ hle hc, hI _ _ _ hle hw⟩
  · split
    · rename_i hf
      exact ⟨hle, hI _ _ _ hle hc, h _ _ _ _ hw hf⟩
    · exact ⟨hle, hI _ _ _ hle hc, hI _ _ _ hle hw⟩

theorem mapM' {γ : Type} {f : γ → Program σ ε α} (hf : ∀ c, Preserves I (f c)) (cs : List γ) :
    Preserves I (cs.mapM' f) := by
  induction cs with
  | nil =>
    rw [List.mapM'_nil]
    exact pure []
  | cons c cs ih =>
    rw [List.mapM'_cons]
    exact (hf c).bind fun a ↦ ih.bind fun result ↦ pure (a :: result)

theorem transaction [SessionErrors ε] {x : Program σ ε α} (hx : Preserves I x) :
    Preserves I (Program.transaction x) := by
  have hmanaged : Preserves I (Program.managed x) := by
    intro s hc hw
    have hbody := hx { s with depth := s.depth + 1, origin := some (s.origin.getD .begin) } hc hw
    rcases hrun : x { s with depth := s.depth + 1, origin := some (s.origin.getD .begin) }
      with ⟨e | a, s'⟩
    · rw [hrun] at hbody
      rw [managed_error hrun]
      exact ⟨hbody.1, hbody.2.1, hbody.2.1⟩
    · rw [hrun] at hbody
      rw [managed_ok hrun]
      rcases close_cases a s' with ⟨-, hclose⟩ | ⟨e, s'', -, hclose, hundone⟩
      · rw [hclose]
        exact ⟨hbody.1, hbody.2.2, hbody.2.2⟩
      · rw [hclose]
        dsimp only
        rw [hundone.committed, hundone.working, hundone.nextId]
        exact ⟨hbody.1, hbody.2.1, hbody.2.1⟩
  intro s hc hw
  unfold Program.transaction
  split
  · exact hx s hc hw
  · split
    · exact hx s hc hw
    · exact hmanaged s hc hw

end Preserves

/-! ## Blindness in a session -/

/-- The session as far as the view shows it. -/
def Session.view (π : σ → σ) (s : Session σ ε) : Session σ ε :=
  { s with committed := π s.committed, working := π s.working }

/-- In the view of the session the program does what it does in the session. -/
def Blind (π : σ → σ) (x : Program σ ε α) (s : Session σ ε) : Prop :=
  x (s.view π) = ((x s).1, (x s).2.view π)

namespace Blind

variable {π : σ → σ} {s : Session σ ε}

theorem pure (a : α) : Blind π (Pure.pure a : Program σ ε α) s := rfl

theorem raise (e : ε) : Blind π (Program.raise e : Program σ ε α) s := rfl

theorem ofExcept (x : Except ε α) : Blind π (Program.ofExcept x : Program σ ε α) s := by
  cases x <;> rfl

theorem bind {x : Program σ ε α} {f : α → Program σ ε β} (hx : Blind π x s)
    (hf : ∀ a s', x s = (.ok a, s') → Blind π (f a) s') : Blind π (x >>= f) s := by
  unfold Blind at hx
  rcases hrun : x s with ⟨e | a, s'⟩
  · rw [hrun] at hx
    unfold Blind
    rw [bind_error hrun, bind_error hx]
  · rw [hrun] at hx
    have hf := hf a s' hrun
    unfold Blind at hf ⊢
    rw [bind_ok hrun, bind_ok hx, hf]

theorem statement {f : σ → Except ε (α × σ)}
    (h : f (π s.working) = (f s.working).map (Prod.map id π)) :
    Blind π (Program.statement f) s := by
  obtain ⟨committed, working, origin, depth, nextId, outcomes, rollbacks⟩ := s
  unfold Blind Program.statement
  dsimp only [Session.view, Session.autobegin] at h ⊢
  rw [h]
  cases outcomes with
  | nil => cases f working <;> rfl
  | cons outcome outcomes =>
    cases outcome with
    | some e => rfl
    | none => cases f working <;> rfl

theorem query {f : σ → α} (h : f (π s.working) = f s.working) :
    Blind π (Program.query f : Program σ ε α) s := by
  refine statement ?_
  rw [h]
  rfl

theorem query_bind {f : σ → α} {g : α → Program σ ε β} (h : f (π s.working) = f s.working)
    (hg : ∀ s', Blind π (g (f s.working)) s') : Blind π (Program.query f >>= g) s := by
  refine (query h).bind fun a s' hrun ↦ ?_
  have ha : a = f s.working := by
    unfold Program.query Program.statement at hrun
    dsimp only at hrun
    split at hrun
    · cases hrun
    · exact (Except.ok.inj (Prod.mk.inj hrun).1).symm
  rw [ha]
  exact hg s'

theorem assign {f : σ → σ} (h : f (π s.working) = π (f s.working)) :
    Blind π (Program.assign f : Program σ ε Unit) s := by
  unfold Blind Program.assign
  dsimp only [Session.view]
  rw [h]

theorem close [SessionErrors ε] (a : α) (s : Session σ ε) :
    Blind π (Program.close a : Program σ ε α) s := by
  obtain ⟨committed, working, origin, depth, nextId, outcomes, rollbacks⟩ := s
  cases outcomes with
  | nil => rfl
  | cons outcome outcomes =>
    cases outcome with
    | none => rfl
    | some e => rcases origin with _ | (_ | _) <;> rfl

theorem managed [SessionErrors ε] {x : Program σ ε α}
    (h : Blind π x { s with
      depth := s.depth + 1
      origin := some (s.origin.getD .begin) }) : Blind π (Program.managed x) s := by
  unfold Blind at h ⊢
  rcases hrun : x { s with depth := s.depth + 1, origin := some (s.origin.getD .begin) }
    with ⟨e | a, s'⟩
  · rw [hrun] at h
    rw [managed_error hrun]
    exact managed_error (s := s.view π) h
  · rw [hrun] at h
    rw [managed_ok hrun]
    exact (managed_ok (s := s.view π) h).trans (close a s')

end Blind

/-! ## Blindness inside and between units of work -/

/-- Inside a unit of work on a working copy `W` the program is blind, as long as the invariant
holds. -/
def BlindTx (π : σ → σ) (I : ℕ → σ → Prop) (x : Program σ ε α) (W : σ) : Prop :=
  ∀ (S : σ) (s : Session σ ε), s.Within S W → I s.nextId s.committed → I s.nextId s.working →
    Blind π x s

/-- On a committed store `S` the program is blind, as long as the invariant holds. -/
def BlindOut (π : σ → σ) (I : ℕ → σ → Prop) (x : Program σ ε α) (S : σ) : Prop :=
  ∀ s : Session σ ε, s.Idle S → I s.nextId s.committed → I s.nextId s.working → Blind π x s

section Rules

variable {π : σ → σ} {I : ℕ → σ → Prop} {W : σ}

namespace BlindTx

theorem pure (a : α) : BlindTx π I (Pure.pure a : Program σ ε α) W := fun _ _ _ _ _ ↦ .pure a

theorem raise (e : ε) : BlindTx π I (Program.raise e : Program σ ε α) W :=
  fun _ _ _ _ _ ↦ .raise e

theorem bind {x : Program σ ε α} {f : α → Program σ ε β} {R : α → σ → Prop}
    (hx : BlindTx π I x W) (hin : InTx x W R) (hp : Preserves I x)
    (hf : ∀ a W', R a W' → BlindTx π I (f a) W') : BlindTx π I (x >>= f) W := by
  intro S s hs hc hw
  refine (hx S s hs hc hw).bind fun a s' hrun ↦ ?_
  have hin := hin S s hs
  have hp := hp s hc hw
  unfold Triple at hin
  rw [hrun] at hin hp
  obtain ⟨W', hwithin, hr⟩ := hin
  exact hf a W' hr S s' hwithin hp.2.1 hp.2.2

theorem statement {f : σ → Except ε (α × σ)} (h : f (π W) = (f W).map (Prod.map id π)) :
    BlindTx π I (Program.statement f) W :=
  fun _ _ hs _ _ ↦ .statement (by rw [hs.working]; exact h)

theorem query {f : σ → α} (h : f (π W) = f W) :
    BlindTx π I (Program.query f : Program σ ε α) W :=
  fun _ _ hs _ _ ↦ .query (by rw [hs.working]; exact h)

theorem query_bind {f : σ → α} {g : α → Program σ ε β} (h : f (π W) = f W)
    (hg : BlindTx π I (g (f W)) W) : BlindTx π I (Program.query f >>= g) W :=
  (query h).bind (InTx.query_eq f) (Preserves.query f) (by rintro _ _ ⟨rfl, rfl⟩; exact hg)

theorem assign {f : σ → σ} (h : f (π W) = π (f W)) :
    BlindTx π I (Program.assign f : Program σ ε Unit) W :=
  fun _ _ hs _ _ ↦ .assign (by rw [hs.working]; exact h)

theorem freshId_statement {f : ℕ → σ → Except ε (α × σ)}
    (h : ∀ n, I n W → f n (π W) = (f n W).map (Prod.map id π)) :
    BlindTx π I (Program.freshId >>= fun id ↦ Program.statement (f id)) W := by
  intro S s hs hc hw
  refine Blind.bind rfl fun n s' hrun ↦ Blind.statement ?_
  obtain ⟨hn, rfl⟩ := Prod.mk.inj hrun
  obtain rfl := Except.ok.inj hn
  dsimp only
  rw [hs.working] at hw ⊢
  exact h _ hw

/-- The rule for loops, with an invariant that every round keeps. -/
theorem mapM' {γ : Type} {J : List γ → List α → σ → Prop} {f : γ → Program σ ε α}
    (hblind : ∀ c cs d W, J (c :: cs) d W → BlindTx π I (f c) W)
    (hstep : ∀ c cs d W, J (c :: cs) d W → InTx (f c) W fun a W' ↦ J cs (d ++ [a]) W')
    (hp : ∀ c, Preserves I (f c)) {cs : List γ} {d : List α} (h : J cs d W) :
    BlindTx π I (cs.mapM' f) W := by
  induction cs generalizing d W with
  | nil =>
    rw [List.mapM'_nil]
    exact pure []
  | cons c cs ih =>
    rw [List.mapM'_cons]
    refine (hblind c cs d W h).bind (hstep c cs d W h) (hp c) fun a W' ha ↦ ?_
    intro S s hs hc hw
    exact (ih ha S s hs hc hw).bind fun result s' _ ↦ Blind.pure _

end BlindTx

namespace BlindOut

variable {S : σ}

theorem ofExcept_bind {x : Except ε α} {f : α → Program σ ε β}
    (hf : ∀ a, x = .ok a → BlindOut π I (f a) S) :
    BlindOut π I (Program.ofExcept x >>= f) S := by
  intro s hs hc hw
  refine (Blind.ofExcept x).bind fun a s' hrun ↦ ?_
  cases x with
  | ok b =>
    obtain ⟨ha, rfl⟩ := Prod.mk.inj hrun
    exact hf a (congrArg Except.ok (Except.ok.inj ha)) s hs hc hw
  | error e => cases hrun

theorem bind {x : Program σ ε α} {f : α → Program σ ε β} {Q : α → σ → Prop} {E : ε → σ → Prop}
    (hx : BlindOut π I x S) (hout : OutTx x S Q E) (hp : Preserves I x)
    (hf : ∀ a S', Q a S' → BlindOut π I (f a) S') : BlindOut π I (x >>= f) S := by
  intro s hs hc hw
  refine (hx s hs hc hw).bind fun a s' hrun ↦ ?_
  obtain ⟨S', hidle, hq⟩ := hout.ok hs hrun
  have hp := hp s hc hw
  rw [hrun] at hp
  exact hf a S' hq s' hidle hp.2.1 hp.2.2

theorem pure (a : α) : BlindOut π I (Pure.pure a : Program σ ε α) S := fun _ _ _ _ ↦ .pure a

theorem map {x : Program σ ε α} (f : α → β) (hx : BlindOut π I x S) : BlindOut π I (f <$> x) S :=
  fun s hs hc hw ↦ (hx s hs hc hw).bind fun _ _ _ ↦ .pure _

theorem query {f : σ → α} (h : f (π S) = f S) :
    BlindOut π I (Program.query f : Program σ ε α) S :=
  fun _ hs _ _ ↦ .query (by rw [hs.working]; exact h)

theorem query_bind {f : σ → α} {g : α → Program σ ε β} (h : f (π S) = f S)
    (hg : BlindOut π I (g (f S)) S) : BlindOut π I (Program.query f >>= g) S :=
  (query h).bind (OutTx.query (Q := fun a S' ↦ a = f S ∧ S = S') (E := fun _ _ ↦ True) ⟨rfl, rfl⟩
    fun _ ↦ trivial) (Preserves.query f) (by rintro _ _ ⟨rfl, rfl⟩; exact hg)

theorem transaction [SessionErrors ε] {x : Program σ ε α} (h : BlindTx π I x S) :
    BlindOut π I (Program.transaction x) S := by
  intro s hs hc hw
  have hview : (s.view π).Idle (π S) :=
    ⟨congrArg π hs.committed, congrArg π hs.working, hs.origin, hs.depth⟩
  unfold Blind
  rw [transaction_of_idle hs, transaction_of_idle hview]
  refine Blind.managed (h S _ ⟨hs.committed, hs.working, rfl, ?_⟩ hc hw)
  exact congrArg (· + 1) hs.depth

end BlindOut

end Rules

end KnowledgeAlakazam
