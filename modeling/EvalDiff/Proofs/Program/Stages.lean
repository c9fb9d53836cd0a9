import EvalDiff.Program
import EvalDiff.Proofs.Disk.Runs
import EvalDiff.Proofs.Report.Width

/-!
# The stages of a run

Settings are resolved and saved, the logs are read and compared.  `Completes` says that a run
passes all of that, `FailsWith` at which stage it ends and with which error, and `perform` is
shown to decide between the two for every way in which files can behave.
-/

namespace EvalDiff
namespace Program

open CommandLine Disk

variable {σ : Type} {disk : Disk (StateM σ)} {i : Invocation}

/-- The settings in effect: those of the settings file, or the defaults, with what the command
line sets over them. -/
inductive Resolves (disk : Disk (StateM σ)) (i : Invocation) : σ → Settings → σ → Prop where
  | byDefault {t : σ} (h : i.config = none) : Resolves disk i t (i.apply {}) t
  | fromFile {t t' : σ} {path : String} {s : Settings} (h : i.config = some path)
    (hload : Yields (Settings.load disk path) t s t') : Resolves disk i t (i.apply s) t'

/-- The settings are saved if the command line asks for that. -/
inductive Saves (disk : Disk (StateM σ)) (i : Invocation) (s : Settings) : σ → σ → Prop where
  | unasked {t : σ} (h : i.saveConfig = none) : Saves disk i s t t
  | toFile {t t' : σ} {path : String} (h : i.saveConfig = some path)
    (hsave : Yields (Settings.save disk path s) t () t') : Saves disk i s t t'

/-- A run passes all stages and has the report on its logs under the settings in effect. -/
inductive Completes (disk : Disk (StateM σ)) (i : Invocation) (t : σ) :
    Settings → Report → σ → Prop where
  | intro {s : Settings} {r : Report} {t₁ t₂ t' : σ} {baseline comparison : List String}
    (hresolve : Resolves disk i t s t₁) (hsave : Saves disk i s t₁ t₂)
    (hread : Yields (Log.readPair disk i.baseline i.comparison) t₂ (baseline, comparison) t')
    (hcompare : Comparison.compare
      { marker := s.marker, aggregate := s.aggregate, strict := s.strict } baseline comparison =
        .ok r) :
    Completes disk i t s r t'

/-- A run ends early, with the error of the stage it does not pass. -/
inductive FailsWith (disk : Disk (StateM σ)) (i : Invocation) (t : σ) : Failure → σ → Prop where
  | load {path : String} {e : Settings.Error} {t' : σ} (h : i.config = some path)
    (hload : Refuses (Settings.load disk path) t e t') : FailsWith disk i t (.settings e) t'
  | save {path : String} {s : Settings} {e : Settings.Error} {t₁ t' : σ}
    (hresolve : Resolves disk i t s t₁) (h : i.saveConfig = some path)
    (hsave : Refuses (Settings.save disk path s) t₁ e t') : FailsWith disk i t (.settings e) t'
  | read {s : Settings} {e : Comparison.Error} {t₁ t₂ t' : σ}
    (hresolve : Resolves disk i t s t₁) (hsave : Saves disk i s t₁ t₂)
    (hread : Refuses (Log.readPair disk i.baseline i.comparison) t₂ e t') :
    FailsWith disk i t (.comparison e) t'
  | compare {s : Settings} {e : Comparison.Error} {t₁ t₂ t' : σ}
    {baseline comparison : List String}
    (hresolve : Resolves disk i t s t₁) (hsave : Saves disk i s t₁ t₂)
    (hread : Yields (Log.readPair disk i.baseline i.comparison) t₂ (baseline, comparison) t')
    (hcompare : Comparison.compare
      { marker := s.marker, aggregate := s.aggregate, strict := s.strict } baseline comparison =
        .error e) :
    FailsWith disk i t (.comparison e) t'

variable {t t₁ t₂ t' : σ} {s : Settings} {r : Report}

/-! ### Settings -/

theorem Resolves.yields (h : Resolves disk i t s t') : Yields (effective disk i) t s t' := by
  unfold effective
  cases h with
  | byDefault h =>
    rw [h]
    exact yields_pure_iff.mpr ⟨rfl, rfl⟩
  | fromFile h hload =>
    rw [h]
    exact yields_bind_iff.mpr ⟨_, _, hload, yields_pure_iff.mpr ⟨rfl, rfl⟩⟩

theorem refuses_effective {path : String} {e : Settings.Error} (h : i.config = some path)
    (hload : Refuses (Settings.load disk path) t e t') : Refuses (effective disk i) t e t' := by
  rw [effective, h]
  exact refuses_bind_iff.mpr (Or.inl hload)

theorem resolves_or_refuses (disk : Disk (StateM σ)) (i : Invocation) (t : σ) :
    (∃ s t', Resolves disk i t s t') ∨
      ∃ path e t', i.config = some path ∧ Refuses (Settings.load disk path) t e t' := by
  cases hc : i.config with
  | none => exact Or.inl ⟨_, t, .byDefault hc⟩
  | some path =>
    rcases yields_or_refuses (Settings.load disk path) t with ⟨s, t', h⟩ | ⟨e, t', h⟩
    · exact Or.inl ⟨_, t', .fromFile hc h⟩
    · exact Or.inr ⟨path, e, t', rfl, h⟩

theorem Saves.yields_prepare (hs : Saves disk i s t₁ t') (h : Yields (effective disk i) t s t₁) :
    Yields (prepare disk i) t s t' := by
  rw [prepare, yields_bind_iff]
  refine ⟨s, t₁, h, ?_⟩
  cases hs with
  | unasked h =>
    rw [h]
    exact yields_pure_iff.mpr ⟨rfl, rfl⟩
  | toFile h hsave =>
    rw [h]
    exact yields_bind_iff.mpr ⟨(), t', hsave, yields_pure_iff.mpr ⟨rfl, rfl⟩⟩

theorem Resolves.yields_prepare (h : Resolves disk i t s t₁) (hs : Saves disk i s t₁ t') :
    Yields (prepare disk i) t s t' :=
  hs.yields_prepare h.yields

theorem Resolves.refuses_prepare {path : String} {e : Settings.Error}
    (h : Resolves disk i t s t₁) (hc : i.saveConfig = some path)
    (hsave : Refuses (Settings.save disk path s) t₁ e t') : Refuses (prepare disk i) t e t' := by
  rw [prepare, refuses_bind_iff]
  refine Or.inr ⟨s, t₁, h.yields, ?_⟩
  rw [hc]
  exact refuses_bind_iff.mpr (Or.inl hsave)

section

variable {baseline comparison : List String} {e : Comparison.Error}

theorem refuses_conclude_of_read (color : Bool)
    (hread : Refuses (Log.readPair disk i.baseline i.comparison) t e t') :
    Refuses (conclude disk color i s) t (.comparison e) t' := by
  rw [conclude, refuses_bind_iff]
  exact Or.inl (refuses_adapt_iff.mpr ⟨e, refuses_bind_iff.mpr (Or.inl hread), rfl⟩)

variable (color : Bool)
  (hread : Yields (Log.readPair disk i.baseline i.comparison) t (baseline, comparison) t')
include hread

theorem yields_conclude
    (hcompare : Comparison.compare
      { marker := s.marker, aggregate := s.aggregate, strict := s.strict } baseline comparison =
        .ok r) :
    Yields (conclude disk color i s) t (ending color i s.format r) t' := by
  rw [conclude, yields_bind_iff]
  refine ⟨r, t', yields_adapt_iff.mpr ?_, yields_pure_iff.mpr ⟨rfl, rfl⟩⟩
  exact yields_bind_iff.mpr ⟨_, _, hread, yields_mk_pure_iff.mpr ⟨hcompare, rfl⟩⟩

theorem refuses_conclude
    (hcompare : Comparison.compare
      { marker := s.marker, aggregate := s.aggregate, strict := s.strict } baseline comparison =
        .error e) :
    Refuses (conclude disk color i s) t (.comparison e) t' := by
  rw [conclude, refuses_bind_iff]
  refine Or.inl (refuses_adapt_iff.mpr ⟨e, ?_, rfl⟩)
  exact refuses_bind_iff.mpr (Or.inr ⟨_, _, hread, refuses_mk_pure_iff.mpr ⟨hcompare, rfl⟩⟩)

end

theorem result_perform (color : Bool) (h : Yields (prepare disk i) t s t') :
    result (perform disk color i) t = result (conclude disk color i s) t' := by
  have hprepare : result ((prepare disk i).adapt Failure.settings) t = (.ok s, t') :=
    yields_adapt_iff.mpr h
  rw [perform, result_bind, hprepare]

theorem Completes.yields (color : Bool) (h : Completes disk i t s r t') :
    Yields (perform disk color i) t (ending color i s.format r) t' := by
  cases h with
  | intro hresolve hsave hread hcompare =>
    rw [Yields, result_perform color (hresolve.yields_prepare hsave)]
    exact yields_conclude color hread hcompare

theorem FailsWith.refuses {f : Failure} (color : Bool) (h : FailsWith disk i t f t') :
    Refuses (perform disk color i) t f t' := by
  cases h with
  | load h hload =>
    rw [perform, refuses_bind_iff]
    refine Or.inl (refuses_adapt_iff.mpr ⟨_, ?_, rfl⟩)
    exact refuses_bind_iff.mpr (Or.inl (refuses_effective h hload))
  | save hresolve h hsave =>
    rw [perform, refuses_bind_iff]
    exact Or.inl (refuses_adapt_iff.mpr ⟨_, hresolve.refuses_prepare h hsave, rfl⟩)
  | read hresolve hsave hread =>
    rw [Refuses, result_perform color (hresolve.yields_prepare hsave)]
    exact refuses_conclude_of_read color hread
  | compare hresolve hsave hread hcompare =>
    rw [Refuses, result_perform color (hresolve.yields_prepare hsave)]
    exact refuses_conclude color hread hcompare

variable {arguments : List String}

/-- How a run ends that comes to an exit code and an output, or to a failure. -/
def Outcome.ofResult : Except Failure (Nat × String) → Outcome
  | .ok (exitCode, output) => { exitCode, output, failure := none }
  | .error failure => { exitCode := 2, output := "", failure := some failure }

theorem run_eq (disk : Disk (StateM σ)) (color : Bool) (t : σ)
    (hparse : parse arguments = .ok (.run i)) :
    (run disk color arguments).run t =
      (Outcome.ofResult (result (perform disk color i) t).1,
        (result (perform disk color i) t).2) := by
  have hrun : StateT.run (perform disk color i) t = result (perform disk color i) t := rfl
  rw [run, hparse]
  simp only [StateT.run_bind, hrun]
  cases result (perform disk color i) t with
  | mk outcome t' => cases outcome <;> rfl

theorem Completes.run_eq (h : Completes disk i t s r t') (color : Bool)
    (hparse : parse arguments = .ok (.run i)) :
    (run disk color arguments).run t =
      (Outcome.ofResult (.ok (ending color i s.format r)), t') := by
  rw [Program.run_eq disk color t hparse, h.yields color]

theorem FailsWith.run_eq {f : Failure} (h : FailsWith disk i t f t') (color : Bool)
    (hparse : parse arguments = .ok (.run i)) :
    (run disk color arguments).run t =
      ({ exitCode := 2, output := "", failure := some f }, t') := by
  rw [Program.run_eq disk color t hparse, h.refuses color]
  rfl

theorem run_of_usage {fault : UsageFault} (disk : Disk (StateM σ)) (color : Bool) (t : σ)
    (hparse : parse arguments = .error fault) :
    (run disk color arguments).run t =
      ({ exitCode := 2, output := "", failure := some (.usage fault) }, t) := by
  rw [run, hparse]
  rfl

end Program
end EvalDiff
