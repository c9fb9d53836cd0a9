import EvalDiff.Disk.Access

/-!
# What a computation on files comes to

A computation over a state of files yields a value or refuses with an error, and leaves another
state.  Sequences of computations are taken apart by `yields_bind_iff` and `refuses_bind_iff`, so
that nothing else has to look into the monads.
-/

namespace EvalDiff
namespace Disk

variable {σ ε ε' α β : Type}

/-- The value or the error that a computation comes to, and the state it leaves. -/
def result (x : ExceptT ε (StateM σ) α) (t : σ) : Except ε α × σ := x.run.run t

/-- From the state `t` a computation yields a value and leaves the state `t'`. -/
def Yields (x : ExceptT ε (StateM σ) α) (t : σ) (a : α) (t' : σ) : Prop :=
  result x t = (.ok a, t')

/-- From the state `t` a computation refuses with an error and leaves the state `t'`. -/
def Refuses (x : ExceptT ε (StateM σ) α) (t : σ) (e : ε) (t' : σ) : Prop :=
  result x t = (.error e, t')

variable {x : ExceptT ε (StateM σ) α} {t t' t'' : σ} {a : α} {e : ε}

theorem yields_or_refuses (x : ExceptT ε (StateM σ) α) (t : σ) :
    (∃ a t', Yields x t a t') ∨ ∃ e t', Refuses x t e t' := by
  cases h : result x t with
  | mk outcome t' =>
    cases outcome with
    | ok a => exact Or.inl ⟨a, t', h⟩
    | error e => exact Or.inr ⟨e, t', h⟩

theorem yields_pure_iff {b : α} :
    Yields (pure a : ExceptT ε (StateM σ) α) t b t' ↔ a = b ∧ t = t' := by
  have hresult : result (pure a : ExceptT ε (StateM σ) α) t = (.ok a, t) := rfl
  simp [Yields, hresult]

theorem not_yields_throw : ¬ Yields (throw e : ExceptT ε (StateM σ) α) t a t' := nofun

/-- An outcome that does not depend on the files. -/
theorem yields_mk_pure_iff {outcome : Except ε α} :
    Yields (ExceptT.mk (pure outcome) : ExceptT ε (StateM σ) α) t a t' ↔
      outcome = .ok a ∧ t = t' := by
  have hresult : result (ExceptT.mk (pure outcome) : ExceptT ε (StateM σ) α) t = (outcome, t) := rfl
  simp [Yields, hresult]

theorem refuses_mk_pure_iff {outcome : Except ε α} :
    Refuses (ExceptT.mk (pure outcome) : ExceptT ε (StateM σ) α) t e t' ↔
      outcome = .error e ∧ t = t' := by
  have hresult : result (ExceptT.mk (pure outcome) : ExceptT ε (StateM σ) α) t = (outcome, t) := rfl
  simp [Refuses, hresult]

/-- An access to the files, which tells by its value whether it went well. -/
theorem yields_liftM_iff {y : StateM σ α} :
    Yields (liftM y : ExceptT ε (StateM σ) α) t a t' ↔ y.run t = (a, t') := by
  have hresult : result (liftM y : ExceptT ε (StateM σ) α) t = (.ok (y.run t).1, (y.run t).2) := rfl
  rw [Yields, hresult, Prod.mk.injEq, Except.ok.injEq]
  exact ⟨fun h => Prod.ext h.1 h.2, fun h => by rw [h]; exact ⟨rfl, rfl⟩⟩

theorem result_bind (x : ExceptT ε (StateM σ) α) (f : α → ExceptT ε (StateM σ) β) (t : σ) :
    result (x >>= f) t =
      match result x t with
      | (.ok a, t') => result (f a) t'
      | (.error e, t') => (.error e, t') := by
  have hrun : (x >>= f).run.run t =
      match x.run.run t with
      | (.ok a, t') => (f a).run.run t'
      | (.error e, t') => (.error e, t') := by
    rw [ExceptT.run_bind, StateT.run_bind]
    cases x.run.run t with
    | mk outcome t' => cases outcome <;> rfl
  exact hrun

theorem yields_bind_iff {f : α → ExceptT ε (StateM σ) β} {b : β} :
    Yields (x >>= f) t b t'' ↔ ∃ a t', Yields x t a t' ∧ Yields (f a) t' b t'' := by
  unfold Yields
  rw [result_bind]
  cases result x t with
  | mk outcome s => cases outcome <;> simp [and_assoc]

theorem refuses_bind_iff {f : α → ExceptT ε (StateM σ) β} :
    Refuses (x >>= f) t e t'' ↔
      Refuses x t e t'' ∨ ∃ a t', Yields x t a t' ∧ Refuses (f a) t' e t'' := by
  unfold Refuses Yields
  rw [result_bind]
  cases result x t with
  | mk outcome s => cases outcome <;> simp [and_assoc]

theorem result_adapt (x : ExceptT ε (StateM σ) α) (f : ε → ε') (t : σ) :
    result (x.adapt f) t = ((result x t).1.mapError f, (result x t).2) := rfl

theorem yields_adapt_iff {f : ε → ε'} : Yields (x.adapt f) t a t' ↔ Yields x t a t' := by
  rw [Yields, result_adapt, Yields]
  cases result x t with
  | mk outcome s =>
    cases outcome with
    | ok b =>
      show (Except.ok b, s) = _ ↔ _
      simp
    | error e =>
      show (Except.error (f e), s) = _ ↔ _
      simp

theorem refuses_adapt_iff {f : ε → ε'} {e' : ε'} :
    Refuses (x.adapt f) t e' t' ↔ ∃ e, Refuses x t e t' ∧ f e = e' := by
  unfold Refuses
  rw [result_adapt]
  cases result x t with
  | mk outcome s =>
    cases outcome with
    | ok b =>
      show (Except.ok b, s) = _ ↔ _
      simp
    | error e =>
      show (Except.error (f e), s) = _ ↔ _
      simp [and_assoc, and_comm]

def Keeps (x : ExceptT ε (StateM σ) α) : Prop := ∀ t, (result x t).2 = t

theorem keeps_pure (a : α) : Keeps (pure a : ExceptT ε (StateM σ) α) := fun _ => rfl

theorem keeps_throw (e : ε) : Keeps (throw e : ExceptT ε (StateM σ) α) := fun _ => rfl

theorem keeps_mk_pure (outcome : Except ε α) :
    Keeps (ExceptT.mk (pure outcome) : ExceptT ε (StateM σ) α) := fun _ => rfl

theorem keeps_liftM {y : StateM σ α} (h : ∀ t, (y.run t).2 = t) :
    Keeps (liftM y : ExceptT ε (StateM σ) α) := h

theorem Keeps.bind {f : α → ExceptT ε (StateM σ) β} (hx : Keeps x) (hf : ∀ a, Keeps (f a)) :
    Keeps (x >>= f) := by
  intro t
  have ht := hx t
  rw [result_bind]
  cases hresult : result x t with
  | mk outcome t' =>
    rw [hresult] at ht
    cases ht
    cases outcome with
    | ok a => exact hf a t'
    | error e => rfl

theorem Keeps.of_yields (hx : Keeps x) (h : Yields x t a t') : t' = t :=
  (congrArg Prod.snd h).symm.trans (hx t)

theorem Keeps.of_refuses (hx : Keeps x) (h : Refuses x t e t') : t' = t :=
  (congrArg Prod.snd h).symm.trans (hx t)

theorem Keeps.adapt (h : Keeps x) (f : ε → ε') : Keeps (x.adapt f) := h

/-- Reading leaves the files as they are. -/
def ReadsKeep (disk : Disk (StateM σ)) : Prop := ∀ path t, ((disk.read path).run t).2 = t

end Disk
end EvalDiff
