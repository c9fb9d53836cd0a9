import EvalDiff.Proofs.Disk.Runs
import EvalDiff.Proofs.Disk.Tree
import EvalDiff.Proofs.Settings.Document

/-!
# Settings read back from their file
-/

namespace EvalDiff
namespace Settings

open Disk

variable {t t' : Tree} {path : String} {s : Settings}

theorem yields_save_iff_write {σ : Type} {disk : Disk (StateM σ)} {t t' : σ} :
    Yields (save disk path s) t () t' ↔
      (disk.write path (Text.encode s.document)).run t = (.ok (), t') := by
  rw [save, yields_bind_iff]
  constructor
  · rintro ⟨outcome, t'', hwrite, hreturn⟩
    rw [yields_liftM_iff] at hwrite
    cases outcome with
    | ok =>
      rw [← (yields_pure_iff.mp hreturn).2]
      exact hwrite
    | error fault => exact absurd hreturn not_yields_throw
  · intro hwrite
    exact ⟨.ok (), t', yields_liftM_iff.mpr hwrite, yields_pure_iff.mpr ⟨rfl, rfl⟩⟩

theorem yields_save_iff :
    Yields (save Tree.disk path s) t () t' ↔ t.write path (Text.encode s.document) = .ok t' := by
  rw [yields_save_iff_write, Tree.disk_write_run]
  cases t.write path (Text.encode s.document) with
  | error fault => exact ⟨nofun, nofun⟩
  | ok next => exact ⟨fun h => by cases h; rfl, fun h => by cases h; rfl⟩

theorem yields_load_iff {σ : Type} {disk : Disk (StateM σ)} {t t' : σ} :
    Yields (load disk path) t s t' ↔
      ∃ bytes, (disk.read path).run t = (.ok bytes, t') ∧ ofBytes path bytes = .ok s := by
  rw [load, yields_bind_iff]
  constructor
  · rintro ⟨outcome, t'', hread, hload⟩
    rw [yields_liftM_iff] at hread
    cases outcome with
    | ok bytes =>
      obtain ⟨hbytes, rfl⟩ := yields_mk_pure_iff.mp hload
      exact ⟨bytes, hread, hbytes⟩
    | error fault => exact absurd hload not_yields_throw
  · rintro ⟨bytes, hread, hbytes⟩
    exact ⟨.ok bytes, t', yields_liftM_iff.mpr hread, yields_mk_pure_iff.mpr ⟨hbytes, rfl⟩⟩

theorem refuses_load {σ : Type} {disk : Disk (StateM σ)} {t t' : σ} {bytes : List UInt8}
    {e : Error} (hread : (disk.read path).run t = (.ok bytes, t'))
    (hbytes : ofBytes path bytes = .error e) : Refuses (load disk path) t e t' := by
  rw [load, refuses_bind_iff]
  exact Or.inr ⟨.ok bytes, t', yields_liftM_iff.mpr hread, refuses_mk_pure_iff.mpr ⟨hbytes, rfl⟩⟩

theorem yields_load {bytes : List UInt8} (hread : t.read path = .ok bytes)
    (hbytes : ofBytes path bytes = .ok s) : Yields (load Tree.disk path) t s t :=
  yields_load_iff.mpr ⟨bytes, by rw [Tree.disk_read_run, hread], hbytes⟩

/-- Saved settings are what is loaded from then on. -/
theorem load_of_save (h : Yields (save Tree.disk path s) t () t') :
    Yields (load Tree.disk path) t' s t' :=
  yields_load (Tree.read_of_write (yields_save_iff.mp h)) (ofBytes_document path s)

/-- Settings saved to a path that can be written are loaded from it unchanged, whatever
characters they hold. -/
theorem load_after_save (s : Settings) (hpath : ∃ place, t.target path = .ok place) :
    ∃ t', Yields (save Tree.disk path s) t () t' ∧ Yields (load Tree.disk path) t' s t' := by
  obtain ⟨place, hplace⟩ := hpath
  have hsave : Yields (save Tree.disk path s) t () (t.put place (.file (Text.encode s.document))) :=
    yields_save_iff.mpr (by rw [Tree.write, hplace]; rfl)
  exact ⟨_, hsave, load_of_save hsave⟩

/-- One text with a line break needs escapes, and one on a single line does too. -/
theorem load_after_save_awkward :
    let t : Tree := { nodes := [(["conf"], .directory)], workingDirectory := ["logs"] }
    let s : Settings :=
      { marker := "\n\"\"\"\"\r", aggregate := "'''\\\"\x01", strict := true
        format := .jsonPretty }
    (∃ place, t.target "/conf//compare.toml" = .ok place) ∧
      ∃ t', Yields (save Tree.disk "/conf//compare.toml" s) t () t' ∧
        Yields (load Tree.disk "/conf//compare.toml") t' s t' := by
  intro t s
  have hpath : ∃ place, t.target "/conf//compare.toml" = .ok place := ⟨_, rfl⟩
  exact ⟨hpath, load_after_save s hpath⟩

end Settings
end EvalDiff
