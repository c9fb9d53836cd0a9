import EvalDiff.Proofs.Disk.Recording
import EvalDiff.Proofs.Program.Replay

/-!
# Files after a run

A run writes one file at most, with the settings in effect.  It does so when they are known and
before it looks at the logs, so what is wrong with the logs makes no difference to the files.
-/

namespace EvalDiff
namespace Program

open CommandLine Disk

variable {σ : Type} {disk : Disk (StateM σ)} {arguments : List String} {i : Invocation}
  {s : Settings} {path : String} {bytes : List UInt8} {t t' : σ}

/-- The arguments are accepted, the settings file is loaded if there is one, and the settings in
effect are to be saved to a path. -/
inductive AsksToSave (disk : Disk (StateM σ)) (arguments : List String) (t : σ) :
    String → Settings → Prop where
  | intro {i : Invocation} {s : Settings} {path : String} {t' : σ}
    (hparse : parse arguments = .ok (.run i)) (hresolve : Resolves disk i t s t')
    (hpath : i.saveConfig = some path) : AsksToSave disk arguments t path s

/-- Octets that set each key in a line of its own, and from which the settings are loaded again. -/
structure IsTextOf (path : String) (s : Settings) (bytes : List UInt8) : Prop where
  lines : bytes = Text.encode
    ([Settings.Key.marker, .aggregate, .strict, .format].flatMap s.keyLine)
  loaded : Settings.ofBytes path bytes = .ok s

theorem isTextOf_document (path : String) (s : Settings) :
    IsTextOf path s (Text.encode s.document) :=
  ⟨congrArg Text.encode s.document_eq, Settings.ofBytes_document path s⟩

theorem IsTextOf.eq_document (h : IsTextOf path s bytes) : bytes = Text.encode s.document := by
  rw [h.lines, s.document_eq]

/-! ### Stages that change no file -/

theorem keeps_load (hdisk : disk.ReadsKeep) (path : String) : Keeps (Settings.load disk path) := by
  refine (keeps_liftM (hdisk path)).bind fun outcome => ?_
  cases outcome with
  | ok bytes => exact keeps_mk_pure _
  | error fault => exact keeps_throw _

theorem Resolves.state_eq (hdisk : disk.ReadsKeep) (h : Resolves disk i t s t') : t' = t := by
  cases h with
  | byDefault => rfl
  | fromFile _ hload => exact (keeps_load hdisk _).of_yields hload

/-- What saving leaves behind is what the write leaves behind, refused or not. -/
theorem result_save_snd (disk : Disk (StateM σ)) (path : String) (s : Settings) (t : σ) :
    (result (Settings.save disk path s) t).2 =
      ((disk.write path (Text.encode s.document)).run t).2 := by
  have hlift : result (liftM (disk.write path (Text.encode s.document)) :
      ExceptT Settings.Error (StateM σ) (Except AccessFault Unit)) t =
      (.ok ((disk.write path (Text.encode s.document)).run t).1,
        ((disk.write path (Text.encode s.document)).run t).2) := rfl
  rw [Settings.save, result_bind, hlift]
  cases ((disk.write path (Text.encode s.document)).run t).1 <;> rfl

/-! ### The state after a run -/

theorem run_snd_of_asks (hdisk : disk.ReadsKeep) (color : Bool)
    (h : AsksToSave disk arguments t path s) :
    ((run disk color arguments).run t).2 =
      ((disk.write path (Text.encode s.document)).run t).2 := by
  cases h with
  | @intro i s path t' hparse hresolve hpath =>
    obtain rfl := hresolve.state_eq hdisk
    rw [run_eq disk color t' hparse, ← result_save_snd]
    rcases yields_or_refuses (Settings.save disk path s) t' with ⟨⟨⟩, t'', hsave⟩ | ⟨e, t'', hsave⟩
    · rw [result_perform color (hresolve.yields_prepare (.toFile hpath hsave)),
        keeps_conclude hdisk color i s, hsave]
    · rw [(FailsWith.save hresolve hpath hsave).refuses color, hsave]

theorem run_snd_of_not_asks (hdisk : disk.ReadsKeep) (color : Bool)
    (h : ∀ path s, ¬ AsksToSave disk arguments t path s) :
    ((run disk color arguments).run t).2 = t := by
  cases hparse : parse arguments with
  | error fault => rw [run_of_usage disk color t hparse]
  | ok request =>
    cases request with
    | help => rw [run, hparse]; rfl
    | version => rw [run, hparse]; rfl
    | run i =>
      rw [run_eq disk color t hparse]
      rcases resolves_or_refuses disk i t with ⟨s, t', hresolve⟩ | ⟨path, e, t', hpath, hload⟩
      · obtain rfl := hresolve.state_eq hdisk
        cases hpath : i.saveConfig with
        | none =>
          rw [result_perform color (hresolve.yields_prepare (.unasked hpath)),
            keeps_conclude hdisk color i s]
        | some path => exact absurd (.intro hparse hresolve hpath) (h path _)
      · rw [(FailsWith.load hpath hload).refuses color]
        exact (keeps_load hdisk path).of_refuses hload

/-! ### The recorded run -/

theorem follows_load (disk : Disk (StateM σ)) (path : String) :
    Follows Prod.fst (Settings.load disk.recorded path) (Settings.load disk path) := by
  refine (follows_liftM (read_recorded disk path)).bind fun outcome => ?_
  cases outcome with
  | ok bytes => exact follows_mk_pure _
  | error fault => exact follows_throw _

theorem follows_effective (disk : Disk (StateM σ)) (i : Invocation) :
    Follows Prod.fst (effective disk.recorded i) (effective disk i) := by
  unfold effective
  cases i.config with
  | none => exact follows_pure _
  | some path => exact (follows_load disk path).bind fun _ => follows_pure _

theorem follows_prepare (disk : Disk (StateM σ)) (i : Invocation) :
    Follows Prod.fst (prepare disk.recorded i) (prepare disk i) := by
  refine (follows_effective disk i).bind fun s => ?_
  cases i.saveConfig with
  | none => exact follows_pure _
  | some path =>
    refine Follows.bind ((follows_liftM (write_recorded disk path _)).bind fun outcome => ?_)
      fun _ => follows_pure _
    cases outcome with
    | ok => exact follows_pure _
    | error fault => exact follows_throw _

theorem follows_readLines (disk : Disk (StateM σ)) (path : String) :
    Follows Prod.fst (Log.readLines disk.recorded path) (Log.readLines disk path) := by
  refine (follows_liftM (read_recorded disk path)).bind fun outcome => ?_
  cases outcome with
  | ok bytes => exact follows_mk_pure _
  | error fault => exact follows_throw _

theorem follows_perform (disk : Disk (StateM σ)) (color : Bool) (i : Invocation) :
    Follows Prod.fst (perform disk.recorded color i) (perform disk color i) := by
  refine ((follows_prepare disk i).adapt _).bind fun s => ?_
  have hpair : Follows Prod.fst (Log.readPair disk.recorded i.baseline i.comparison)
      (Log.readPair disk i.baseline i.comparison) :=
    (follows_readLines disk _).bind fun _ => (follows_readLines disk _).bind fun _ => follows_pure _
  have hreport : Follows Prod.fst (report disk.recorded i s) (report disk i s) :=
    hpair.bind fun _ => follows_mk_pure _
  exact (hreport.adapt _).bind fun _ => follows_pure _

/-- A run on the recorded disk is the run on the disk itself. -/
theorem run_recorded (disk : Disk (StateM σ)) (color : Bool) (arguments : List String)
    (t : σ × Record) :
    (run disk color arguments).run t.1 =
      Prod.map id Prod.fst ((run disk.recorded color arguments).run t) := by
  cases hparse : parse arguments with
  | error fault => rw [run_of_usage _ color _ hparse, run_of_usage _ color _ hparse]; rfl
  | ok request =>
    cases request with
    | help => rw [run, run, hparse]; rfl
    | version => rw [run, run, hparse]; rfl
    | run i =>
      rw [run_eq _ color _ hparse, run_eq _ color _ hparse, follows_perform disk color i t]
      rfl

theorem resolves_iff : Resolves disk i t s t' ↔ Yields (effective disk i) t s t' := by
  refine ⟨Resolves.yields, fun h => ?_⟩
  rcases resolves_or_refuses disk i t with ⟨s', t'', hresolve⟩ | ⟨path, e, t'', hpath, hload⟩
  · cases h.symm.trans hresolve.yields
    exact hresolve
  · cases h.symm.trans (refuses_effective hpath hload)

theorem resolves_recorded_iff {writes : Record} :
    (∃ t', Resolves disk.recorded i (t, writes) s t') ↔ ∃ t', Resolves disk i t s t' := by
  have hfollows := follows_effective disk i (t, writes)
  simp only [resolves_iff, Yields]
  rw [hfollows]
  cases result (effective disk.recorded i) (t, writes) with
  | mk outcome t' => cases outcome <;> simp

theorem asksToSave_recorded_iff {writes : Record} :
    AsksToSave disk.recorded arguments (t, writes) path s ↔
      AsksToSave disk arguments t path s := by
  constructor
  · intro h
    cases h with
    | intro hparse hresolve hpath =>
      obtain ⟨_, hresolve⟩ := resolves_recorded_iff.mp ⟨_, hresolve⟩
      exact .intro hparse hresolve hpath
  · intro h
    cases h with
    | intro hparse hresolve hpath =>
      obtain ⟨_, hresolve⟩ := resolves_recorded_iff.mpr ⟨_, hresolve⟩
      exact .intro hparse hresolve hpath

/-! ### Files in a tree -/

theorem AsksToSave.unique {path' : String} {s' : Settings}
    (h : AsksToSave disk arguments t path s) (h' : AsksToSave disk arguments t path' s') :
    path' = path ∧ s' = s := by
  cases h with
  | intro hparse hresolve hpath =>
    cases h' with
    | intro hparse' hresolve' hpath' =>
      cases hparse.symm.trans hparse'
      cases hpath.symm.trans hpath'
      cases hresolve.yields.symm.trans hresolve'.yields
      exact ⟨rfl, rfl⟩

theorem AsksToSave.exists_run (h : AsksToSave disk arguments t path s) :
    ∃ i, parse arguments = .ok (.run i) := by
  cases h with
  | intro hparse => exact ⟨_, hparse⟩

/-- A settings file that is not loaded leaves no settings to save. -/
theorem AsksToSave.not_refuses {file : String} {e : Settings.Error}
    (h : AsksToSave disk arguments t path s) (hparse : parse arguments = .ok (.run i))
    (hconfig : i.config = some file) : ¬ Refuses (Settings.load disk file) t e t' := by
  intro hload
  cases h with
  | intro hparse' hresolve =>
    cases hparse.symm.trans hparse'
    cases hresolve.yields.symm.trans (refuses_effective hconfig hload)

/-- The settings are to be saved to a path that leads to this place, where they can be written. -/
structure SavesAt (arguments : List String) (t : Tree) (path : String) (place : List String)
    (s : Settings) : Prop where
  asks : AsksToSave Tree.disk arguments t path s
  target : t.target path = .ok place

/-- Either the settings are written, or nothing is. -/
theorem saves_or_writes_nothing (color : Bool) (arguments : List String) (t : Tree) :
    (∃ path place s, SavesAt arguments t path place s ∧
      ((run Tree.disk.recorded color arguments).run (t, [])).2 =
        (t.put place (.file (Text.encode s.document)), [(path, Text.encode s.document)])) ∨
      (∀ path place s, ¬ SavesAt arguments t path place s) ∧
        ((run Tree.disk.recorded color arguments).run (t, [])).2 = (t, []) := by
  by_cases h : ∃ path s, AsksToSave Tree.disk arguments t path s
  · obtain ⟨path, s, hasks⟩ := h
    rw [run_snd_of_asks Tree.disk_readsKeep.recorded color (asksToSave_recorded_iff.mpr hasks)]
    cases htarget : t.target path with
    | ok place =>
      refine Or.inl ⟨path, place, s, ⟨hasks, htarget⟩, ?_⟩
      rw [write_recorded_of_ok (Tree.disk_write_run_of_target htarget _)]
    | error fault =>
      refine Or.inr ⟨?_, ?_⟩
      · rintro path' place s' ⟨hasks', htarget'⟩
        obtain ⟨rfl, -⟩ := hasks.unique hasks'
        simp [htarget] at htarget'
      · rw [write_recorded_of_error (Tree.disk_write_run_of_refused htarget _)]
  · refine Or.inr ⟨fun path place s hsaves => h ⟨path, s, hsaves.asks⟩, ?_⟩
    refine run_snd_of_not_asks Tree.disk_readsKeep.recorded color fun path s hasks => ?_
    exact h ⟨path, s, asksToSave_recorded_iff.mp hasks⟩

/-- A run writes one file at most, and does so exactly if its arguments are accepted, its settings
are loaded and the path to save them to can be written.  That file then holds the settings in
effect as text, whatever becomes of the logs, and everything else is as it was.  A command line that
asks for no run, or a settings file that is not loaded, leaves all files alone. -/
theorem files_after_run (color : Bool) (arguments : List String) (t : Tree) :
    ∃ o t' writes,
      (run Tree.disk color arguments).run t = (o, t') ∧
      (run Tree.disk.recorded color arguments).run (t, []) = (o, t', writes) ∧
      writes.length ≤ 1 ∧
      (∀ path bytes, (path, bytes) ∈ writes ↔
        ∃ place s, SavesAt arguments t path place s ∧ IsTextOf path s bytes) ∧
      (∀ path place s, SavesAt arguments t path place s →
        ∃ bytes, t'.node? place = some (.file bytes) ∧ IsTextOf path s bytes) ∧
      (∀ place, (∀ path s, ¬ SavesAt arguments t path place s) →
        t'.node? place = t.node? place) ∧
      (writes = [] → t' = t) ∧
      ((∀ i, parse arguments ≠ .ok (.run i)) → t' = t) ∧
      ∀ i path e t'', parse arguments = .ok (.run i) → i.config = some path →
        Refuses (Settings.load Tree.disk path) t e t'' → t' = t := by
  obtain ⟨o, t', writes, hrecorded⟩ :
      ∃ o t' writes, (run Tree.disk.recorded color arguments).run (t, []) = (o, t', writes) :=
    ⟨_, _, _, rfl⟩
  have hrun : (run Tree.disk color arguments).run t = (o, t') := by
    have hsame := run_recorded Tree.disk color arguments (t, [])
    rw [hrecorded] at hsame
    exact hsame
  have hcases := saves_or_writes_nothing color arguments t
  rw [hrecorded] at hcases
  refine ⟨o, t', writes, hrun, hrecorded, ?_⟩
  rcases hcases with ⟨path, place, s, hsaves, hstate⟩ | ⟨hnone, hstate⟩
  · obtain ⟨rfl, rfl⟩ := Prod.mk.inj hstate
    refine ⟨Nat.le_refl 1, fun path' bytes => ?_, ?_, fun other hother => ?_, nofun, ?_, ?_⟩
    · constructor
      · intro hmem
        cases List.mem_singleton.mp hmem
        exact ⟨place, s, hsaves, isTextOf_document path s⟩
      · rintro ⟨place', s', hsaves', htext⟩
        obtain ⟨rfl, rfl⟩ := hsaves.asks.unique hsaves'.asks
        rw [htext.eq_document]
        exact List.mem_singleton_self _
    · intro path' place' s' hsaves'
      obtain ⟨rfl, rfl⟩ := hsaves.asks.unique hsaves'.asks
      cases hsaves.target.symm.trans hsaves'.target
      exact ⟨_, Tree.node?_put_self (Tree.target_ne_nil hsaves.target) _, isTextOf_document _ _⟩
    · refine Tree.node?_put_of_ne ?_ _
      rintro rfl
      exact hother path s hsaves
    · intro hparse
      obtain ⟨i, hi⟩ := hsaves.asks.exists_run
      exact absurd hi (hparse i)
    · intro i file e t'' hparse hconfig hload
      exact absurd hload (hsaves.asks.not_refuses hparse hconfig)
  · obtain ⟨rfl, rfl⟩ := Prod.mk.inj hstate
    refine ⟨Nat.zero_le 1, fun path bytes => ?_, ?_, fun _ _ => rfl, fun _ => rfl, fun _ => rfl,
      fun _ _ _ _ _ _ _ => rfl⟩
    · exact ⟨nofun, fun ⟨place, s, hsaves, _⟩ => absurd hsaves (hnone path place s)⟩
    · exact fun path place s hsaves => absurd hsaves (hnone path place s)

/-- The settings are saved over the file they are loaded from, by a run that then finds only one
of its logs. -/
theorem files_after_run_missing_log :
    let old := Text.encode "marker_prefix = 'ndcg'\n# kept nowhere\n".toList
    let text := "marker_prefix = \"ndcg\"\naggregate_category = \"all\"\n" ++
      "strict = true\nformat = \"text\"\n"
    let new := Text.encode text.toList
    let log := Text.encode "map\tq1\t0.5\n".toList
    let t : Tree :=
      { nodes := [(["conf"], .directory), (["conf", "x.toml"], .file old), (["a.eval"], .file log)]
        workingDirectory := ["conf"] }
    let arguments :=
      ["../a.eval", "b.eval", "-c", "x.toml", "--strict", "--save-config", "../conf//x.toml"]
    ∃ o t', (run Tree.disk false arguments).run t = (o, t') ∧ o.exitCode = 2 ∧
      t'.node? ["conf", "x.toml"] = some (.file new) ∧
      t'.node? ["a.eval"] = t.node? ["a.eval"] ∧ t'.node? ["conf", "b.eval"] = none := by
  intro old text new log t arguments
  let s : Settings := { marker := "ndcg", strict := true }
  obtain ⟨i, hparse, hconfig, hpath, happly⟩ : ∃ i, parse arguments = .ok (.run i) ∧
      i.config = some "x.toml" ∧ i.saveConfig = some "../conf//x.toml" ∧
      i.apply { marker := "ndcg" } = s := ⟨_, rfl, rfl, rfl, rfl⟩
  have hload : Yields (Settings.load Tree.disk "x.toml") t { marker := "ndcg" } t :=
    Settings.yields_load rfl (by decide +kernel)
  have hresolve : Resolves Tree.disk i t s t := happly ▸ .fromFile hconfig hload
  have hsaves : SavesAt arguments t "../conf//x.toml" ["conf", "x.toml"] s :=
    ⟨.intro hparse hresolve hpath, rfl⟩
  have hkeeps (place : List String) (hne : place ≠ ["conf", "x.toml"]) (path : String)
      (s' : Settings) : ¬ SavesAt arguments t path place s' := by
    intro hother
    obtain ⟨rfl, -⟩ := hsaves.asks.unique hother.asks
    exact hne (Except.ok.inj (hother.target.symm.trans hsaves.target))
  have hcode : ((run Tree.disk false arguments).run t).1.exitCode = 2 := by decide +kernel
  obtain ⟨o, t', writes, hrun, -, -, -, hsaved, hkept, -⟩ := files_after_run false arguments t
  rw [hrun] at hcode
  obtain ⟨bytes, hnode, htext⟩ := hsaved _ _ _ hsaves
  have hlines : [Settings.Key.marker, .aggregate, .strict, .format].flatMap s.keyLine =
      text.toList := by decide +kernel
  have hbytes : bytes = new := htext.lines.trans (congrArg Text.encode hlines)
  rw [hbytes] at hnode
  exact ⟨o, t', hrun, hcode, hnode, hkept _ (hkeeps _ (by decide)), hkept _ (hkeeps _ (by decide))⟩

end Program
end EvalDiff
