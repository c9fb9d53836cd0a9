import EvalDiff.Proofs.CommandLine.Paths
import EvalDiff.Proofs.Program.Stages
import EvalDiff.Proofs.Settings.File

/-!
# Replaying a run

A run that saves its settings is repeated by one that reads them and sets nothing else: the logs
are compared under the same settings, so the second run ends as the first one did.
-/

namespace EvalDiff
namespace CommandLine

/-- The same run with its settings from a file. -/
def Invocation.replay (i : Invocation) (path : String) : Invocation :=
  { baseline := i.baseline, comparison := i.comparison, metric := none, aggregate := none
    strict := none, format := none, config := some path, saveConfig := none
    failOnWorse := i.failOnWorse }

/-- Arguments that ask for the same run with its settings from a file. -/
def Invocation.replayArguments (i : Invocation) (path : String) : List String :=
  (if i.failOnWorse then ["--fail-on-worse"] else []) ++
    ["--config=" ++ path, "--", i.baseline, i.comparison]

variable {i : Invocation} {path : String}

theorem take_config (d : Draft) (hconfig : d.config = none) (hpath : path.isEmpty = false) :
    take d ("--config=" ++ path) = .ok (.more { d with config := some path } none) := by
  have hchars : ("--config=" ++ path).toList =
      '-' :: '-' :: 'c' :: 'o' :: 'n' :: 'f' :: 'i' :: 'g' :: '=' :: path.toList := by
    rw [String.toList_append]
    rfl
  have hset : d.setKey .config (String.ofList path.toList) =
      .ok { d with config := some path } := by
    simp [Draft.setKey, Draft.path, Draft.once, hconfig, hpath]
    rfl
  rw [take, hchars]
  show (d.setKey .config (String.ofList path.toList) >>= _) = _
  rw [hset]
  rfl

theorem takeAll_config (d : Draft) (hconfig : d.config = none) (hpath : path.isEmpty = false)
    (arguments : List String) :
    takeAll d none (("--config=" ++ path) :: arguments) =
      takeAll { d with config := some path } none arguments := by
  have hdashes : "--config=" ++ path ≠ "--" := by
    intro h
    have hchars := congrArg String.toList h
    rw [String.toList_append] at hchars
    cases hchars
  rw [takeAll, if_neg hdashes, take_config d hconfig hpath]
  rfl

theorem takeAll_paths (d : Draft) (hpaths : d.paths = []) (hi : i.Sound) :
    takeAll d none ["--", i.baseline, i.comparison] =
      .ok (.run
        { baseline := i.baseline, comparison := i.comparison, metric := d.metric
          aggregate := d.aggregate, strict := d.strict, format := d.format, config := d.config
          saveConfig := d.saveConfig, failOnWorse := d.failOnWorse }) := by
  have hadd : [i.baseline, i.comparison].foldlM Draft.addPath d =
      .ok { d with paths := [i.baseline, i.comparison] } := by
    simp [Draft.addPath, hpaths, hi.baseline, hi.comparison, bind, Except.bind, pure, Except.pure]
  rw [takeAll, if_pos rfl, hadd]
  rfl

theorem parse_replayArguments (hi : i.Sound) (hpath : path.isEmpty = false) :
    parse (i.replayArguments path) = .ok (.run (i.replay path)) := by
  unfold parse Invocation.replayArguments Invocation.replay
  cases i.failOnWorse with
  | true =>
    have hswitch (rest : List String) : takeAll {} none ("--fail-on-worse" :: rest) =
        takeAll { failOnWorse := true } none rest := rfl
    simp only [if_true, List.singleton_append]
    rw [hswitch, takeAll_config _ rfl hpath, takeAll_paths _ rfl hi]
  | false =>
    simp only [Bool.false_eq_true, if_false, List.nil_append]
    rw [takeAll_config _ rfl hpath, takeAll_paths _ rfl hi]

end CommandLine

namespace Program

open CommandLine Disk

variable {σ : Type} {disk : Disk (StateM σ)} {color : Bool} {i : Invocation} {s : Settings}
  {path : String} {arguments : List String}

theorem conclude_replay (disk : Disk (StateM σ)) (color : Bool) (i : Invocation) (path : String)
    (s : Settings) : conclude disk color (i.replay path) s = conclude disk color i s := rfl

theorem keeps_readLines (hdisk : disk.ReadsKeep) (path : String) :
    Keeps (Log.readLines disk path) := by
  refine (keeps_liftM (hdisk path)).bind fun outcome => ?_
  cases outcome with
  | ok bytes => exact keeps_mk_pure _
  | error fault => exact keeps_throw _

theorem keeps_conclude (hdisk : disk.ReadsKeep) (color : Bool) (i : Invocation) (s : Settings) :
    Keeps (conclude disk color i s) := by
  have hpair : Keeps (Log.readPair disk i.baseline i.comparison) :=
    (keeps_readLines hdisk _).bind fun _ => (keeps_readLines hdisk _).bind fun _ => keeps_pure _
  have hreport : Keeps (report disk i s) := hpair.bind fun _ => keeps_mk_pure _
  exact (hreport.adapt _).bind fun _ => keeps_pure _

theorem run_of_prepare {t t₂ : Tree} (hparse : parse arguments = .ok (.run i))
    (hprepare : Yields (prepare Tree.disk i) t s t₂) :
    (run Tree.disk color arguments).run t =
      (Outcome.ofResult (result (conclude Tree.disk color i s) t₂).1, t₂) := by
  rw [run_eq Tree.disk color t hparse, result_perform color hprepare,
    keeps_conclude Tree.disk_readsKeep color i s t₂]

/-- A run that has saved its settings is repeated by every command line that names the same logs
and the saved settings, asks to fail on a worse entry if the first one does, and sets nothing
else.  There is such a command line for all of them. -/
theorem run_replay {t t₁ t₂ : Tree} (hparse : parse arguments = .ok (.run i))
    (hpath : i.saveConfig = some path) (hresolve : Resolves Tree.disk i t s t₁)
    (hsave : Saves Tree.disk i s t₁ t₂) :
    parse (i.replayArguments path) = .ok (.run (i.replay path)) ∧
      ∃ o, (run Tree.disk color arguments).run t = (o, t₂) ∧
        ∀ again, parse again = .ok (.run (i.replay path)) →
          (run Tree.disk color again).run t₂ = (o, t₂) := by
  have hsound : i.Sound := parse_sound hparse
  have hload : Yields (Settings.load Tree.disk path) t₂ s t₂ := by
    cases hsave with
    | unasked h => simp [hpath] at h
    | toFile h hsaved =>
      cases hpath.symm.trans h
      exact Settings.load_of_save hsaved
  -- Loaded from the file, the settings are in effect as they are: nothing is set over them.
  have hagain : Resolves Tree.disk (i.replay path) t₂ s t₂ := .fromFile rfl hload
  refine ⟨parse_replayArguments hsound (hsound.saveConfig path hpath), _,
    run_of_prepare hparse (hresolve.yields_prepare hsave), fun again hparse' => ?_⟩
  rw [run_of_prepare hparse' (hagain.yields_prepare (.unasked rfl)), conclude_replay]

/-- The first run takes the format from a file, and the metric and the strictness from its
arguments.  The second one finds all of them in the file that the first one has saved. -/
theorem run_replay_overridden_settings :
    let t : Tree :=
      { nodes :=
          [(["base.eval"], .file (Text.encode "map\tq1\t0.5\nP_10\tq1\t0.5\n".toList)),
            (["new.eval"], .file (Text.encode "map\tq1\t0.6\nP_10\tq2\t0.4\n".toList)),
            (["old.toml"], .file (Text.encode "strict = true\nformat = 'json'\n".toList))]
        workingDirectory := [] }
    let arguments :=
      ["base.eval", "--config", "old.toml", "new.eval", "-mP_10", "--no-strict",
        "--fail-on-worse", "--save-config", "saved.toml"]
    let again := ["--fail-on-worse", "base.eval", "new.eval", "-c", "saved.toml"]
    ∃ o t', (run Tree.disk false arguments).run t = (o, t') ∧ o.exitCode = 1 ∧
      (run Tree.disk false again).run t' = (o, t') := by
  intro t arguments again
  obtain ⟨i, hparse, hpath, hconfig, hagain⟩ : ∃ i, parse arguments = .ok (.run i) ∧
      i.saveConfig = some "saved.toml" ∧ i.config = some "old.toml" ∧
      parse again = .ok (.run (i.replay "saved.toml")) := ⟨_, rfl, rfl, rfl, rfl⟩
  have hload :
      Yields (Settings.load Tree.disk "old.toml") t { strict := true, format := .json } t :=
    Settings.yields_load rfl (by decide +kernel)
  obtain ⟨t', hsave⟩ : ∃ t', Saves Tree.disk i (i.apply { strict := true, format := .json }) t t' :=
    ⟨_, .toFile hpath (Settings.yields_save_iff.mpr rfl)⟩
  have hcode : ((run Tree.disk false arguments).run t).1.exitCode = 1 := by decide +kernel
  obtain ⟨-, o, hfirst, hsecond⟩ := run_replay hparse hpath (.fromFile hconfig hload) hsave
  rw [hfirst] at hcode
  exact ⟨o, t', hfirst, hcode, hsecond again hagain⟩

end Program
end EvalDiff
