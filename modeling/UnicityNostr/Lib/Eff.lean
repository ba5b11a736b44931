/-!
# Computations on a state that may fail

`Eff ε σ α`: a computation that reads and changes a state `σ` and ends in a
result `α` or an error `ε`. An error does not undo what was done to the state
before it, and the rest of the computation is skipped, like an early return.

* `bind_ok`, `bind_error`, `bind_eq_ok`: running one computation after another;
* `attempt`: running a computation and going on whatever it ends in;
* `loop`: a bounded number of rounds of a loop body. A loop that has ended
  does so with more rounds (`loop_eq_of_le`); it is reasoned about by an invariant
  (`loop_of_invariant`), and by one with a rank that shows that it is done in time
  (`loop_of_ranked`); `LoopEnds`: what it ends in, whatever the bound;
* `Tracks f m m'`: the computation `m'` does on `f s` what `m` does on `s`. It goes
  through sequencing and looping, so that it is checked on the primitive
  operations only;
* `Moves T m`: the computation takes every state to one it is related to by `T`.
  For a preorder, which may be that of an invariant or of a growing record, this
  goes through sequencing and looping;
* `Keeps f m`: the computation does not change what `f` reads off the state, which
  goes through sequencing and looping as well.
-/

universe u

/-- A computation on the state `σ` that may fail with an error `ε`. -/
def Eff (ε σ α : Type u) : Type u := σ → Except ε α × σ

namespace Eff

variable {ε σ α β : Type u}

instance : Monad (Eff ε σ) where
  pure a s := (.ok a, s)
  bind m f s := match m s with
    | (.ok a, s') => f a s'
    | (.error e, s') => (.error e, s')

/-- Failing with the error `e`. -/
def fail (e : ε) : Eff ε σ α := fun s => (.error e, s)

/-- A result, or an error, computed from the state. -/
def read (g : σ → Except ε α) : Eff ε σ α := fun s => (g s, s)

/-- What the computation ends in, as a result. -/
def attempt (m : Eff ε σ α) : Eff ε σ (Except ε α) := fun s => (.ok (m s).1, (m s).2)

@[simp] theorem pure_apply (a : α) (s : σ) : (pure a : Eff ε σ α) s = (.ok a, s) := rfl

@[simp] theorem read_apply (g : σ → Except ε α) (s : σ) : (read g : Eff ε σ α) s = (g s, s) := rfl

@[simp] theorem attempt_apply (m : Eff ε σ α) (s : σ) : attempt m s = (.ok (m s).1, (m s).2) := rfl

theorem bind_apply (m : Eff ε σ α) (f : α → Eff ε σ β) (s : σ) :
    (m >>= f) s = match m s with
      | (.ok a, s') => f a s'
      | (.error e, s') => (.error e, s') := rfl

/-- After a computation with a result, the rest goes on from there. -/
theorem bind_ok {m : Eff ε σ α} {s s' : σ} {a : α} (h : m s = (.ok a, s')) (f : α → Eff ε σ β) :
    (m >>= f) s = f a s' := by
  rw [bind_apply, h]

/-- After an error, the rest is skipped. -/
theorem bind_error {m : Eff ε σ α} {s s' : σ} {e : ε} (h : m s = (.error e, s'))
    (f : α → Eff ε σ β) : (m >>= f) s = (.error e, s') := by
  rw [bind_apply, h]

/-- A result computed from that of a computation does not change the state. -/
theorem bind_pure_snd (m : Eff ε σ α) (f : α → β) (s : σ) :
    ((m >>= fun a => pure (f a)) s).2 = (m s).2 := by
  rw [bind_apply]
  rcases m s with ⟨e | a, s'⟩
  all_goals rfl

/-- A sequence ends in a result when both parts do. -/
theorem bind_eq_ok {m : Eff ε σ α} {f : α → Eff ε σ β} {s s'' : σ} {b : β} :
    (m >>= f) s = (.ok b, s'') ↔ ∃ a s', m s = (.ok a, s') ∧ f a s' = (.ok b, s'') := by
  rw [bind_apply]
  constructor
  · intro h
    split at h
    · rename_i a s' hm
      exact ⟨a, s', hm, h⟩
    · cases h
  · rintro ⟨a, s', hm, hf⟩
    rw [hm]
    exact hf

/-! ## Loops -/

/-- How a round of a loop ends: with the value to go on from, or with the result. -/
inductive Round (α β : Type u) : Type u
  | next (a : α)
  | done (b : β)

/-- At most `n` rounds of a loop from `a`, and its result if it is done by then. -/
def loop (body : α → Eff ε σ (Round α β)) : Nat → α → Eff ε σ (Option β)
  | 0, _ => pure none
  | n + 1, a => do
    match ← body a with
    | .next a' => loop body n a'
    | .done b => pure (some b)

section Loop

variable {body : α → Eff ε σ (Round α β)} {n : Nat} {a a' : α} {b : β} {e : ε} {s s' : σ}

theorem loop_next (h : body a s = (.ok (.next a'), s')) :
    loop body (n + 1) a s = loop body n a' s' := by
  rw [loop, bind_ok h]

theorem loop_done (h : body a s = (.ok (.done b), s')) :
    loop body (n + 1) a s = (.ok (some b), s') := by
  rw [loop, bind_ok h]
  rfl

/-- A loop that has ended does so with more rounds. -/
theorem loop_eq_of_le {m : Nat} {r : Except ε β} (hm : n ≤ m)
    (h : loop body n a s = (r.map some, s')) : loop body m a s = (r.map some, s') := by
  induction n generalizing m a s with
  | zero => cases r <;> cases (Prod.mk.inj h).1
  | succ n ih =>
    obtain ⟨m, rfl⟩ := Nat.exists_eq_add_of_lt hm
    rcases hbody : body a s with ⟨e | a' | b, s₁⟩
    · exact (bind_error hbody _).trans ((bind_error hbody _).symm.trans h)
    · exact (loop_next hbody).trans (ih (Nat.le_add_right n m) ((loop_next hbody).symm.trans h))
    · exact (loop_done hbody).trans ((loop_done hbody).symm.trans h)

/-- What every round preserves holds when the loop is done. -/
theorem loop_of_invariant (inv : α → σ → Prop) (post : β → σ → Prop)
    (hnext : ∀ a s a' s', inv a s → body a s = (.ok (.next a'), s') → inv a' s')
    (hdone : ∀ a s b s', inv a s → body a s = (.ok (.done b), s') → post b s')
    (hinv : inv a s) (h : loop body n a s = (.ok (some b), s')) : post b s' := by
  induction n generalizing a s with
  | zero => cases h
  | succ n ih =>
    obtain ⟨r, s₁, hbody, h⟩ := bind_eq_ok.1 h
    cases r with
    | next a' => exact ih (hnext _ _ _ _ hinv hbody) h
    | done b' =>
      obtain ⟨hb, rfl⟩ := Prod.mk.inj h
      obtain rfl := Option.some.inj (Except.ok.inj hb)
      exact hdone _ _ _ _ hinv hbody

/-- A loop whose rounds decrease the rank of the invariant is done within as many
    rounds as the rank. -/
theorem loop_of_ranked (inv : Nat → α → σ → Prop) (post : β → σ → Prop)
    (hround : ∀ k a s, inv k a s →
      (∃ b s', body a s = (.ok (.done b), s') ∧ post b s') ∨
        ∃ k' a' s', k' < k ∧ body a s = (.ok (.next a'), s') ∧ inv k' a' s')
    {k : Nat} (hk : k < n) (hinv : inv k a s) :
    ∃ b s', loop body n a s = (.ok (some b), s') ∧ post b s' := by
  induction n generalizing k a s with
  | zero => exact absurd hk (Nat.not_lt_zero k)
  | succ n ih =>
    rcases hround k a s hinv with ⟨b, s', hbody, hpost⟩ | ⟨k', a', s', hlt, hbody, hinv'⟩
    · exact ⟨b, s', loop_done hbody, hpost⟩
    · obtain ⟨b, s'', hloop, hpost⟩ := ih (Nat.lt_of_lt_of_le hlt (Nat.le_of_lt_succ hk)) hinv'
      exact ⟨b, s'', (loop_next hbody).trans hloop, hpost⟩

/-- The loop from `a` ends in `r`, with the state `s'`, within some number of rounds. -/
def LoopEnds (body : α → Eff ε σ (Round α β)) (a : α) (s : σ) (r : Except ε β) (s' : σ) : Prop :=
  ∃ n, loop body n a s = (r.map some, s')

/-- What a loop ends in is decided by its first round, or by the rounds after it. -/
theorem loopEnds_iff {r : Except ε β} {x : Except ε (Round α β) × σ} (h : body a s = x) :
    LoopEnds body a s r s' ↔ match x with
    | (.ok (.next a'), s₁) => LoopEnds body a' s₁ r s'
    | (.ok (.done b), s₁) => r = .ok b ∧ s' = s₁
    | (.error e, s₁) => r = .error e ∧ s' = s₁ := by
  have hzero : loop body 0 a s ≠ (r.map some, s') := by
    intro h
    cases r <;> cases (Prod.mk.inj h).1
  rcases x with ⟨e | a' | b, s₁⟩
  · constructor
    · rintro ⟨_ | n, hloop⟩
      · exact absurd hloop hzero
      · obtain ⟨hr, rfl⟩ := Prod.mk.inj ((bind_error h _).symm.trans hloop)
        cases r with
        | error e' => exact ⟨congrArg _ (Except.error.inj hr).symm, rfl⟩
        | ok b => cases hr
    · rintro ⟨rfl, rfl⟩
      exact ⟨1, bind_error h _⟩
  · constructor
    · rintro ⟨_ | n, hloop⟩
      · exact absurd hloop hzero
      · exact ⟨n, (loop_next h).symm.trans hloop⟩
    · exact fun ⟨n, hloop⟩ => ⟨n + 1, (loop_next h).trans hloop⟩
  · constructor
    · rintro ⟨_ | n, hloop⟩
      · exact absurd hloop hzero
      · obtain ⟨hr, rfl⟩ := Prod.mk.inj ((loop_done h).symm.trans hloop)
        cases r with
        | error e => cases hr
        | ok b' => exact ⟨congrArg _ (Option.some.inj (Except.ok.inj hr)).symm, rfl⟩
    · rintro ⟨rfl, rfl⟩
      exact ⟨1, loop_done h⟩

end Loop

/-! ## The same computation on another state -/

variable {τ : Type u}

/-- The computation `m'` does on `f s` what `m` does on `s`. -/
def Tracks (f : σ → τ) (m : Eff ε σ α) (m' : Eff ε τ α) : Prop :=
  ∀ s, m' (f s) = ((m s).1, f (m s).2)

namespace Tracks

variable {f : σ → τ}

theorem pure (a : α) : Tracks f (Pure.pure a : Eff ε σ α) (Pure.pure a) := fun _ => rfl

theorem fail (e : ε) : Tracks f (Eff.fail e : Eff ε σ α) (Eff.fail e) := fun _ => rfl

theorem read {g : σ → Except ε α} {g' : τ → Except ε α} (h : ∀ s, g' (f s) = g s) :
    Tracks f (Eff.read g) (Eff.read g') := by
  intro s
  rw [read_apply, h s, read_apply]

theorem attempt {m : Eff ε σ α} {m' : Eff ε τ α} (h : Tracks f m m') :
    Tracks f (Eff.attempt m) (Eff.attempt m') := by
  intro s
  rw [attempt_apply, h s, attempt_apply]

theorem bind {m : Eff ε σ α} {m' : Eff ε τ α} {g : α → Eff ε σ β} {g' : α → Eff ε τ β}
    (h : Tracks f m m') (hg : ∀ a, Tracks f (g a) (g' a)) : Tracks f (m >>= g) (m' >>= g') := by
  intro s
  rw [bind_apply, h s, bind_apply]
  rcases m s with ⟨_ | a, s'⟩
  · rfl
  · exact hg a s'

theorem loop {body : α → Eff ε σ (Round α β)} {body' : α → Eff ε τ (Round α β)}
    (h : ∀ a, Tracks f (body a) (body' a)) (n : Nat) (a : α) :
    Tracks f (Eff.loop body n a) (Eff.loop body' n a) := by
  induction n generalizing a with
  | zero => exact pure none
  | succ n ih =>
    refine bind (h a) fun r => ?_
    cases r with
    | next a' => exact ih a'
    | done b => exact pure (some b)

end Tracks

/-! ## What a computation does to the state -/

/-- Whatever the computation ends in, it takes every state to one it is related to. -/
def Moves (T : σ → σ → Prop) (m : Eff ε σ α) : Prop := ∀ s, T s (m s).2

namespace Moves

variable {T : σ → σ → Prop}

theorem attempt {m : Eff ε σ α} (h : Moves T m) : Moves T (Eff.attempt m) := h

theorem bind (htrans : ∀ s s' s'', T s s' → T s' s'' → T s s'') {m : Eff ε σ α}
    {g : α → Eff ε σ β} (h : Moves T m) (hg : ∀ a, Moves T (g a)) : Moves T (m >>= g) := by
  intro s
  have hs := h s
  rcases hm : m s with ⟨e | a, s'⟩
  all_goals rw [hm] at hs
  · rwa [bind_error hm]
  · rw [bind_ok hm]
    exact htrans _ _ _ hs (hg a s')

variable (hrefl : ∀ s, T s s)
include hrefl

theorem pure (a : α) : Moves T (Pure.pure a : Eff ε σ α) := hrefl

theorem fail (e : ε) : Moves T (Eff.fail e : Eff ε σ α) := hrefl

theorem read (g : σ → Except ε α) : Moves T (Eff.read g) := hrefl

theorem loop (htrans : ∀ s s' s'', T s s' → T s' s'' → T s s'')
    {body : α → Eff ε σ (Round α β)} (h : ∀ a, Moves T (body a)) (n : Nat) (a : α) :
    Moves T (Eff.loop body n a) := by
  induction n generalizing a with
  | zero => exact pure hrefl none
  | succ n ih =>
    refine bind htrans (h a) fun r => ?_
    cases r with
    | next a' => exact ih a'
    | done b => exact pure hrefl (some b)

end Moves

/-! ## What a computation does not change -/

/-- Whatever the computation ends in, it does not change what `f` reads off the state. -/
def Keeps (f : σ → τ) (m : Eff ε σ α) : Prop := ∀ s, f (m s).2 = f s

namespace Keeps

variable {f : σ → τ}

/-- What is done next does not change what a computation has left. -/
theorem snd_bind {m : Eff ε σ α} {g : α → Eff ε σ β} (hg : ∀ a, Keeps f (g a)) (s : σ) :
    f ((m >>= g) s).2 = f (m s).2 := by
  rcases hm : m s with ⟨e | a, s'⟩
  · rw [bind_error hm]
  · rw [bind_ok hm, hg a s']

theorem pure (a : α) : Keeps f (Pure.pure a : Eff ε σ α) := fun _ => rfl

theorem fail (e : ε) : Keeps f (Eff.fail e : Eff ε σ α) := fun _ => rfl

theorem read (g : σ → Except ε α) : Keeps f (Eff.read g) := fun _ => rfl

theorem attempt {m : Eff ε σ α} (h : Keeps f m) : Keeps f (Eff.attempt m) := h

theorem bind {m : Eff ε σ α} {g : α → Eff ε σ β} (h : Keeps f m) (hg : ∀ a, Keeps f (g a)) :
    Keeps f (m >>= g) :=
  fun s => (snd_bind hg s).trans (h s)

theorem loop {body : α → Eff ε σ (Round α β)} (h : ∀ a, Keeps f (body a)) (n : Nat) (a : α) :
    Keeps f (Eff.loop body n a) := by
  induction n generalizing a with
  | zero => exact pure none
  | succ n ih =>
    refine bind (h a) fun r => ?_
    cases r with
    | next a' => exact ih a'
    | done b => exact pure (some b)

end Keeps

end Eff
