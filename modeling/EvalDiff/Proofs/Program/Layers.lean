import EvalDiff.Proofs.CommandLine.Acceptance
import EvalDiff.Proofs.Log.File
import EvalDiff.Proofs.Program.Replay

/-!
# Settings in layers

A setting comes from the command line, from the settings file if the command line leaves it open,
and else from its default.  No setting depends on where another one comes from.
-/

namespace EvalDiff
namespace Settings

open Disk

/-- What one source says about the settings.  It can leave each of them open. -/
structure Layer where
  marker : Option String := none
  aggregate : Option String := none
  strict : Option Bool := none
  format : Option Report.Format := none
deriving DecidableEq, Repr

/-- What the upper layer says, what the lower one says where the upper one says nothing, and the
defaults where neither does. -/
def Layer.over (upper lower : Layer) : Settings :=
  let defaults : Settings := {}
  { marker := (upper.marker <|> lower.marker).getD defaults.marker
    aggregate := (upper.aggregate <|> lower.aggregate).getD defaults.aggregate
    strict := (upper.strict <|> lower.strict).getD defaults.strict
    format := (upper.format <|> lower.format).getD defaults.format }

/-- What entries say about a key: nothing if it is not set, and else its value, which has to be
one that can be read. -/
inductive Says {α : Type} (entries : Toml.Entries) (key : String) (read : Toml.Value → Option α) :
    Option α → Prop where
  | nothing (h : entries.get? key = none) : Says entries key read none
  | value {value : Toml.Value} {a : α} (h : entries.get? key = some value)
    (hread : read value = some a) : Says entries key read (some a)

/-- The layer of a settings file with these entries. -/
structure Layer.OfEntries (l : Layer) (entries : Toml.Entries) : Prop where
  marker : Says entries "marker_prefix" text? l.marker
  aggregate : Says entries "aggregate_category" text? l.aggregate
  strict : Says entries "strict" boolean? l.strict
  format : Says entries "format" format? l.format

variable {entries : Toml.Entries} {s : Settings}

theorem valueOr_eq_some_iff {α : Type} {key : String} {default a : α}
    {read : Toml.Value → Option α} :
    valueOr entries key default read = some a ↔
      ∃ said, Says entries key read said ∧ a = said.getD default := by
  rw [valueOr]
  cases h : entries.get? key with
  | none =>
    constructor
    · intro ha
      exact ⟨none, .nothing h, (Option.some.inj ha).symm⟩
    · rintro ⟨said, hsays, rfl⟩
      cases hsays with
      | nothing => rfl
      | value hvalue => simp [h] at hvalue
  | some value =>
    constructor
    · intro ha
      exact ⟨some a, .value h ha, rfl⟩
    · rintro ⟨said, hsays, rfl⟩
      cases hsays with
      | nothing hnone => simp [h] at hnone
      | value hvalue hread =>
        cases h.symm.trans hvalue
        exact hread

theorem ofEntries?_eq_some_iff :
    ofEntries? entries = some s ↔ ∃ l : Layer, l.OfEntries entries ∧ s = Layer.over {} l := by
  unfold ofEntries?
  simp only [Option.bind_eq_bind, Option.bind_eq_some_iff, valueOr_eq_some_iff, Option.pure_def,
    Option.some.injEq]
  constructor
  · rintro ⟨_, ⟨marker, hmarker, rfl⟩, _, ⟨aggregate, haggregate, rfl⟩, _, ⟨strict, hstrict, rfl⟩,
      _, ⟨format, hformat, rfl⟩, rfl⟩
    exact ⟨{ marker, aggregate, strict, format }, ⟨hmarker, haggregate, hstrict, hformat⟩, rfl⟩
  · rintro ⟨l, hl, rfl⟩
    exact ⟨_, ⟨_, hl.marker, rfl⟩, _, ⟨_, hl.aggregate, rfl⟩, _, ⟨_, hl.strict, rfl⟩,
      _, ⟨_, hl.format, rfl⟩, rfl⟩

theorem ofBytes_eq_ok_iff {path : String} {bytes : List UInt8} :
    ofBytes path bytes = .ok s ↔
      ∃ cs entries, Text.decode? bytes = some cs ∧ Toml.read? cs = some entries ∧
        ofEntries? entries = some s := by
  have hdocument (cs : List Char) : ofDocument? cs = some s ↔
      ∃ entries, Toml.read? cs = some entries ∧ ofEntries? entries = some s :=
    Option.bind_eq_some_iff
  unfold ofBytes
  split
  · next hnone => simp [hnone]
  · next cs hcs =>
    simp only [hcs, Option.some.injEq, exists_and_left, exists_eq_left']
    rw [← hdocument]
    split
    · next hnone => simp [hnone]
    · next _ hsome => simp [hsome]

end Settings

namespace CommandLine

/-- What a command line says about the settings. -/
def layerOf (items : List Item) : Settings.Layer :=
  { marker := (valuesOf .metric items).head?
    aggregate := (valuesOf .aggregate items).head?
    strict := (strictnessOf items).getLast?
    format := (valuesOf .format items).head?.bind Report.Format.ofName? }

theorem Draft.Leads.apply_over {items : List Item} {i : Invocation}
    (h : Draft.Leads {} items i.draft) (l : Settings.Layer) :
    i.apply (Settings.Layer.over {} l) = (layerOf items).over l := by
  have hmetric : (valuesOf .metric items).head? = i.metric := by
    rw [← h.stored_eq .metric]
    exact Option.head?_toList
  have haggregate : (valuesOf .aggregate items).head? = i.aggregate := by
    rw [← h.stored_eq .aggregate]
    exact Option.head?_toList
  have hstrict : (strictnessOf items).getLast? = i.strict := h.strict.symm
  have hformat : (valuesOf .format items).head?.bind Report.Format.ofName? = i.format := by
    rw [← h.stored_eq .format]
    show (i.format.toList.map Report.Format.name).head?.bind Report.Format.ofName? = i.format
    cases i.format with
    | none => rfl
    | some format => exact Report.Format.ofName?_name format
  have hlayer : layerOf items =
      { marker := i.metric, aggregate := i.aggregate, strict := i.strict, format := i.format } := by
    rw [layerOf, hmetric, haggregate, hstrict, hformat]
  rw [hlayer]
  unfold Invocation.apply Settings.Layer.over
  cases i.metric <;> cases i.aggregate <;> cases i.strict <;> cases i.format <;> rfl

end CommandLine

namespace Program

open CommandLine Disk

variable {σ : Type} {disk : Disk (StateM σ)} {i : Invocation}

/-- What the settings file says, if the command line names one. -/
inductive FileSays (disk : Disk (StateM σ)) (files : List String) (t : σ) :
    Settings.Layer → σ → Prop where
  | unnamed (h : files = []) : FileSays disk files t {} t
  | named {path : String} {bytes : List UInt8} {cs : List Char} {entries : Toml.Entries}
    {l : Settings.Layer} {t' : σ} (h : files = [path])
    (hread : (disk.read path).run t = (.ok bytes, t')) (htext : Text.decode? bytes = some cs)
    (hentries : Toml.read? cs = some entries) (hlayer : l.OfEntries entries) :
    FileSays disk files t l t'

theorem yields_effective_iff {items : List Item} {t t' : σ} {s : Settings}
    (h : Draft.Leads {} items i.draft) :
    Yields (effective disk i) t s t' ↔
      ∃ l, FileSays disk (valuesOf .config items) t l t' ∧ s = (layerOf items).over l := by
  have hfiles : valuesOf .config items = i.config.toList := (h.stored_eq .config).symm
  unfold effective
  cases hconfig : i.config with
  | none =>
    rw [hconfig] at hfiles
    simp only [yields_pure_iff]
    constructor
    · rintro ⟨rfl, rfl⟩
      exact ⟨{}, .unnamed hfiles, h.apply_over {}⟩
    · rintro ⟨l, hl, rfl⟩
      cases hl with
      | unnamed => exact ⟨h.apply_over {}, rfl⟩
      | named hnamed => simp [hfiles] at hnamed
  | some path =>
    rw [hconfig] at hfiles
    simp only [yields_bind_iff, yields_pure_iff, Settings.yields_load_iff]
    constructor
    · rintro ⟨_, _, ⟨bytes, hread, hbytes⟩, rfl, rfl⟩
      obtain ⟨cs, entries, htext, hentries, hsettings⟩ := Settings.ofBytes_eq_ok_iff.mp hbytes
      obtain ⟨l, hl, rfl⟩ := Settings.ofEntries?_eq_some_iff.mp hsettings
      exact ⟨l, .named hfiles hread htext hentries hl, h.apply_over l⟩
    · rintro ⟨l, hl, rfl⟩
      cases hl with
      | unnamed hunnamed => simp [hfiles] at hunnamed
      | @named path' bytes cs entries _ _ hnamed hread htext hentries hlayer =>
        obtain rfl : path = path' := by simpa [hfiles] using hnamed
        refine ⟨_, _, ⟨bytes, hread, ?_⟩, h.apply_over l, rfl⟩
        exact Settings.ofBytes_eq_ok_iff.mpr ⟨cs, entries, htext, hentries,
          Settings.ofEntries?_eq_some_iff.mpr ⟨l, hlayer, rfl⟩⟩

/-- What becomes of a run that has the lines of its logs: they are compared under its settings, and
it fails as the comparison does, prints the report in the format that is set, or breaks off if there
is no way to write it in that format. -/
structure Compares (i : Invocation) (s : Settings) (color : Bool)
    (baseline comparison : List String) (o : Outcome) : Prop where
  error : ∀ e,
    Comparison.compare { marker := s.marker, aggregate := s.aggregate, strict := s.strict }
      baseline comparison = .error e →
      o = { exitCode := 2, output := "", failure := some (.comparison e) }
  report : ∀ r text,
    Comparison.compare { marker := s.marker, aggregate := s.aggregate, strict := s.strict }
      baseline comparison = .ok r →
    r.render? s.format color = some text →
      o = { exitCode := if i.failOnWorse && r.hasRegressions then 1 else 0, output := text
            failure := none }
  unwritten : ∀ r,
    Comparison.compare { marker := s.marker, aggregate := s.aggregate, strict := s.strict }
      baseline comparison = .ok r →
    r.render? s.format color = none → o = { exitCode := 101, output := "", failure := none }

theorem compares_conclude {s : Settings} {t t' : σ} {baseline comparison : List String}
    (color : Bool)
    (hread : Yields (Log.readPair disk i.baseline i.comparison) t (baseline, comparison) t') :
    ∃ result', result (conclude disk color i s) t = (result', t') ∧
      Compares i s color baseline comparison (Outcome.ofResult result') := by
  cases hcompare : Comparison.compare
      { marker := s.marker, aggregate := s.aggregate, strict := s.strict } baseline comparison with
  | error e =>
    refine ⟨_, refuses_conclude color hread hcompare, fun e' he' => ?_, fun r text hr => ?_,
      fun r hr => ?_⟩
    · cases hcompare.symm.trans he'
      rfl
    · cases hcompare.symm.trans hr
    · cases hcompare.symm.trans hr
  | ok r =>
    refine ⟨_, yields_conclude color hread hcompare, fun e he => ?_, fun r' text hr' htext => ?_,
      fun r' hr' hnone => ?_⟩
    · cases hcompare.symm.trans he
    · cases hcompare.symm.trans hr'
      rw [ending, htext]
      rfl
    · cases hcompare.symm.trans hr'
      rw [ending, hnone]
      rfl

/-- Every accepted command line that asks for neither help nor the version says a sequence of
items.  However items are ordered and written, they are accepted exactly if they are proper and no
switch of strict mode stands directly behind an equal one.  A run has settings exactly if the
settings file can be read, and then they are those of the layers.  These are the settings that it
saves and compares the logs under. -/
theorem settings_of_layers (disk : Disk (StateM σ)) (color : Bool) (arguments : List String) :
    (∀ i, parse arguments = .ok (.run i) → ∃ items, Spelled items arguments) ∧
      ∀ items, Spelled items arguments →
        ((∃ i, parse arguments = .ok (.run i)) ↔
          Proper items ∧ (strictnessOf items).IsChain (· ≠ ·)) ∧
        ∀ i, parse arguments = .ok (.run i) → ∀ t s t₁,
          (Yields (effective disk i) t s t₁ ↔
            ∃ l, FileSays disk (valuesOf .config items) t l t₁ ∧ s = (layerOf items).over l) ∧
          ∀ t₂, Yields (effective disk i) t s t₁ → Saves disk i s t₁ t₂ →
            (∀ path ∈ valuesOf .saveConfig items, ∃ bytes,
              (disk.write path bytes).run t₁ = (.ok (), t₂) ∧
                Settings.ofBytes path bytes = .ok s) ∧
            ∀ baseline comparison t₃,
              Yields (Log.readPair disk i.baseline i.comparison) t₂ (baseline, comparison) t₃ →
              ∃ o, (run disk color arguments).run t = (o, t₃) ∧
                Compares i s color baseline comparison o := by
  refine ⟨fun i hparse => spelled_of_parse hparse, fun items hspelled =>
    ⟨exists_parse_iff hspelled, fun i hparse t s t₁ => ?_⟩⟩
  have hleads : Draft.Leads {} items i.draft := (parse_eq_run_iff hspelled).mp hparse
  refine ⟨yields_effective_iff hleads, fun t₂ heffective hsave =>
    ⟨fun path hpath => ?_, fun baseline comparison t₃ hread => ?_⟩⟩
  · rw [← hleads.stored_eq .saveConfig] at hpath
    have hasked : i.saveConfig = some path := Option.mem_toList.mp hpath
    cases hsave with
    | unasked h => simp [h] at hasked
    | toFile h hwrite =>
      cases hasked.symm.trans h
      exact ⟨_, Settings.yields_save_iff_write.mp hwrite, Settings.ofBytes_document path s⟩
  · obtain ⟨_, hconclude, hcompares⟩ := compares_conclude color hread
    refine ⟨_, ?_, hcompares⟩
    rw [run_eq disk color t hparse, result_perform color (hsave.yields_prepare heffective),
      hconclude]

/-- The command line and the file both set the marker and strict mode, only the file sets the
format, and nothing the aggregate.  The first rows have another marker than the one that is set, and
the others have different categories, which only strict mode refuses. -/
theorem settings_of_layers_three_sources :
    let t : Tree :=
      { nodes :=
          [(["base.eval"], .file (Text.encode "map\tq1\t0.5\nP_10\tq1\t0.5\n".toList)),
            (["new.eval"], .file (Text.encode "map\tq1\t0.6\nP_10\tq2\t0.4\n".toList)),
            (["old.toml"], .file (Text.encode
              "marker_prefix = 'ndcg'\nstrict = true\nformat = 'json'\n".toList))]
        workingDirectory := [] }
    let arguments :=
      ["--no-strict", "base.eval", "--strict", "-c", "old.toml", "new.eval", "-mP_10",
        "--no-strict", "--save-config=saved.toml"]
    let s : Settings := { marker := "P_10", aggregate := "all", strict := false, format := .json }
    let baseline := ["map\tq1\t0.5", "P_10\tq1\t0.5"]
    let comparison := ["map\tq1\t0.6", "P_10\tq2\t0.4"]
    ∃ i t' bytes r o, parse arguments = .ok (.run i) ∧
      (Tree.disk.write "saved.toml" bytes).run t = (.ok (), t') ∧
      Settings.ofBytes "saved.toml" bytes = .ok s ∧
      Comparison.compare { marker := "P_10", aggregate := "all", strict := false }
        baseline comparison = .ok r ∧
      (run Tree.disk false arguments).run t = (o, t') ∧
      o = { exitCode := 0, output := r.render .json false, failure := none } := by
  intro t arguments s baseline comparison
  let items : List Item :=
    [.strict false, .path "base.eval", .strict true, .value .config "old.toml", .path "new.eval",
      .value .metric "P_10", .strict false, .value .saveConfig "saved.toml"]
  have hspelled : Spelled items arguments :=
    .cons (.strict false) <| .cons (.path rfl) <| .cons (.strict true) <|
      .cons (.letter rfl rfl) <| .cons (.path rfl) <|
        .cons (.letterValue rfl (by decide)) <| .cons (.strict false) <|
          .cons (.nameEquals .saveConfig "saved.toml") .nil
  obtain ⟨i, hparse, hsave, hbaseline, hcomparison, hfail⟩ : ∃ i, parse arguments = .ok (.run i) ∧
      i.saveConfig = some "saved.toml" ∧ i.baseline = "base.eval" ∧ i.comparison = "new.eval" ∧
      i.failOnWorse = false := ⟨_, rfl, rfl, rfl, rfl, rfl⟩
  obtain ⟨heffective, hrun⟩ :=
    ((settings_of_layers Tree.disk false arguments).2 items hspelled).2 i hparse t s t
  have hsettings : Yields (effective Tree.disk i) t s t := by
    obtain ⟨bytes, hread, hbytes⟩ : ∃ bytes, (Tree.disk.read "old.toml").run t = (.ok bytes, t) ∧
        Settings.ofBytes "old.toml" bytes =
          .ok { marker := "ndcg", strict := true, format := .json } :=
      ⟨_, rfl, by decide +kernel⟩
    obtain ⟨cs, entries, htext, hentries, hofEntries⟩ := Settings.ofBytes_eq_ok_iff.mp hbytes
    obtain ⟨l, hl, hfile⟩ := Settings.ofEntries?_eq_some_iff.mp hofEntries
    have hover : (layerOf items).over l =
        { Settings.Layer.over {} l with marker := "P_10", strict := false } := rfl
    refine heffective.mpr ⟨l, .named rfl hread htext hentries hl, ?_⟩
    rw [hover, ← hfile]
  let t' : Tree := t.put ["saved.toml"] (.file (Text.encode s.document))
  have hsaves : Saves Tree.disk i s t t' := .toFile hsave (Settings.yields_save_iff.mpr rfl)
  have hread : Yields (Log.readPair Tree.disk i.baseline i.comparison) t' (baseline, comparison)
      t' := by
    have hold : Log.linesOf "base.eval" (Text.encode "map\tq1\t0.5\nP_10\tq1\t0.5\n".toList) =
        .ok baseline := by decide +kernel
    have hnew : Log.linesOf "new.eval" (Text.encode "map\tq1\t0.6\nP_10\tq2\t0.4\n".toList) =
        .ok comparison := by decide +kernel
    rw [hbaseline, hcomparison, Log.readPair]
    refine yields_bind_iff.mpr ⟨_, t', (Log.yields_readLines_iff rfl).mpr hold, ?_⟩
    refine yields_bind_iff.mpr ⟨_, t', (Log.yields_readLines_iff rfl).mpr hnew, ?_⟩
    exact yields_pure_iff.mpr ⟨rfl, rfl⟩
  obtain ⟨hsaved, hcompared⟩ := hrun t' hsettings hsaves
  obtain ⟨bytes, hwrite, hbytes⟩ := hsaved "saved.toml" (by decide)
  obtain ⟨r, hr⟩ : ∃ r,
      Comparison.compare { marker := "P_10", aggregate := "all", strict := false }
        baseline comparison = .ok r :=
    exists_ok_of_isOk (by decide +kernel)
  obtain ⟨o, ho, hcompares⟩ := hcompared baseline comparison t' hread
  refine ⟨i, t', bytes, r, o, hparse, hwrite, hbytes, hr, ho, ?_⟩
  rw [hcompares.report r _ hr rfl, hfail]
  rfl

end Program
end EvalDiff
