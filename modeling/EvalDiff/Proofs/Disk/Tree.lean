import EvalDiff.Disk.Tree
import EvalDiff.Proofs.Disk.Runs

/-!
# Files in a tree

Writing a file leaves every directory as it is, so a path leads to the same place before and
after, and what has been written is read back: `read_of_write`.
-/

namespace EvalDiff
namespace Disk
namespace Tree

variable {t t' : Tree} {place other directory directory' : List String} {name path : String}
  {bytes : List UInt8}

theorem lookup_cons_of_ne {α : Type} (h : other ≠ place) (value : α)
    (nodes : List (List String × α)) :
    ((place, value) :: nodes).lookup other = nodes.lookup other := by
  have hne : (other == place) = false := by simpa using h
  rw [List.lookup_cons, hne]

theorem lookup_filter_of_ne {α : Type} (h : other ≠ place) (nodes : List (List String × α)) :
    (nodes.filter (·.1 != place)).lookup other = nodes.lookup other := by
  induction nodes with
  | nil => rfl
  | cons node nodes ih =>
    obtain ⟨key, value⟩ := node
    by_cases hkey : key = place
    · subst key
      rw [List.filter_cons_of_neg (by simp), lookup_cons_of_ne h, ih]
    · rw [List.filter_cons_of_pos (by simpa using hkey)]
      by_cases hother : other = key
      · subst other
        simp
      · rw [lookup_cons_of_ne hother, lookup_cons_of_ne hother, ih]

theorem node?_put_self (hplace : place ≠ []) (node : Node) :
    (t.put place node).node? place = some node := by
  simp [node?, put, hplace]

theorem node?_put_of_ne (h : other ≠ place) (node : Node) :
    (t.put place node).node? other = t.node? other := by
  unfold node? put
  rw [lookup_cons_of_ne h, lookup_filter_of_ne h]

theorem enter_eq_ok_iff :
    t.enter directory name = .ok directory' ↔
      (name = "." ∧ directory = directory') ∨ (name = ".." ∧ directory.dropLast = directory') ∨
        (name ≠ "." ∧ name ≠ ".." ∧ name.utf8ByteSize ≤ nameLimit ∧
          t.node? directory' = some .directory ∧ directory ++ [name] = directory') := by
  unfold enter
  by_cases hdot : name = "."
  · simp [hdot]
  by_cases hdots : name = ".."
  · simp [hdots]
  rw [if_neg hdot, if_neg hdots]
  simp only [hdot, hdots, false_and, false_or, ne_eq, not_false_iff, true_and]
  split
  · next hlong => exact ⟨nofun, fun h => absurd h.1 (Nat.not_le_of_lt hlong)⟩
  · next hshort =>
    constructor
    · intro h
      split at h
      · cases h
      · cases h
      · next hnode =>
        cases h
        exact ⟨Nat.le_of_not_lt hshort, hnode, rfl⟩
    · rintro ⟨-, hnode, rfl⟩
      rw [hnode]

/-- A directory that is entered is not the place of a file. -/
theorem enter_put (hplace : t.node? place ≠ some .directory)
    (h : t.enter directory name = .ok directory') :
    (t.put place (.file bytes)).enter directory name = .ok directory' := by
  rw [enter_eq_ok_iff] at h ⊢
  rcases h with h | h | ⟨hdot, hdots, hshort, hnode, hname⟩
  · exact Or.inl h
  · exact Or.inr (Or.inl h)
  · have hne : directory' ≠ place := by
      rintro rfl
      exact hplace hnode
    rw [node?_put_of_ne hne]
    exact Or.inr (Or.inr ⟨hdot, hdots, hshort, hnode, hname⟩)

theorem foldlM_enter_put {names : List String} (hplace : t.node? place ≠ some .directory)
    (h : names.foldlM t.enter directory = .ok directory') :
    names.foldlM (t.put place (.file bytes)).enter directory = .ok directory' := by
  induction names generalizing directory with
  | nil => exact h
  | cons name names ih =>
    rw [List.foldlM_cons] at h ⊢
    cases henter : t.enter directory name with
    | error fault =>
      rw [henter] at h
      cases h
    | ok next =>
      rw [henter] at h
      rw [enter_put hplace henter]
      exact ih h

/-- A path leads to where it led before a file was written. -/
theorem locate_put {found : List String × Option String × Bool}
    (hplace : t.node? place ≠ some .directory) (h : t.locate path = .ok found) :
    (t.put place (.file bytes)).locate path = .ok found := by
  unfold locate at h ⊢
  simp only at h ⊢
  split at h
  · cases h
  · next hzero =>
    split at h
    · cases h
    · next hempty =>
      split at h
      · cases h
      · next hlong =>
        rw [if_neg hzero, if_neg hempty, if_neg hlong]
        cases hfold : (Path.ofString path).names.dropLast.foldlM t.enter
            (if (Path.ofString path).fromRoot then [] else t.workingDirectory) with
        | error fault =>
          rw [hfold] at h
          cases h
        | ok directory =>
          rw [hfold] at h
          have hput : (Path.ofString path).names.dropLast.foldlM (t.put place (.file bytes)).enter
              (if (Path.ofString path).fromRoot then [] else t.workingDirectory) = .ok directory :=
            foldlM_enter_put hplace hfold
          exact (congrArg (· >>= _) hput).trans h

/-- The path of a file: the directory it leads to, and the name of the file there. -/
structure LeadsTo (t : Tree) (path : String) (directory : List String) (name : String) : Prop where
  locate : t.locate path = .ok (directory, some name, false)
  short : name.utf8ByteSize ≤ nameLimit

theorem exists_leadsTo (h : t.target path = .ok place) :
    ∃ directory name, t.LeadsTo path directory name ∧ directory ++ [name] = place ∧
      t.node? place ≠ some .directory := by
  unfold target at h
  cases hlocate : t.locate path with
  | error fault =>
    rw [hlocate] at h
    cases h
  | ok found =>
    obtain ⟨directory, name?, toDirectory⟩ := found
    rw [hlocate] at h
    cases name? with
    | none => cases h
    | some name =>
      cases toDirectory with
      | true => cases h
      | false =>
        change (if nameLimit < name.utf8ByteSize then _ else _) = _ at h
        split at h
        · cases h
        · next hshort =>
          split at h
          · cases h
          · next hnode =>
            cases h
            exact ⟨directory, name, ⟨hlocate, Nat.le_of_not_lt hshort⟩, rfl, hnode⟩

theorem target_ne_nil (h : t.target path = .ok place) : place ≠ [] := by
  obtain ⟨directory, name, -, rfl, -⟩ := exists_leadsTo h
  simp

theorem LeadsTo.read (h : t.LeadsTo path directory name)
    (hnode : t.node? (directory ++ [name]) = some (.file bytes)) : t.read path = .ok bytes := by
  have hshort : ¬ nameLimit < name.utf8ByteSize := Nat.not_lt_of_le h.short
  unfold Tree.read
  rw [h.locate]
  show (if nameLimit < name.utf8ByteSize then _ else _) = _
  rw [if_neg hshort, hnode]
  rfl

theorem LeadsTo.put (h : t.LeadsTo path directory name) (hplace : t.node? place ≠ some .directory) :
    (t.put place (.file bytes)).LeadsTo path directory name :=
  ⟨locate_put hplace h.locate, h.short⟩

theorem read_of_write (h : t.write path bytes = .ok t') : t'.read path = .ok bytes := by
  unfold write at h
  cases htarget : t.target path with
  | error fault =>
    rw [htarget] at h
    cases h
  | ok place =>
    rw [htarget] at h
    cases h
    obtain ⟨directory, name, hleads, rfl, hnode⟩ := exists_leadsTo htarget
    exact (hleads.put hnode).read (node?_put_self (by simp) _)

theorem disk_read_run (t : Tree) (path : String) : (disk.read path).run t = (t.read path, t) := rfl

theorem disk_readsKeep : disk.ReadsKeep := fun _ _ => rfl

theorem disk_write_run (t : Tree) (path : String) (bytes : List UInt8) :
    (disk.write path bytes).run t =
      match t.write path bytes with
      | .ok t' => (.ok (), t')
      | .error fault => (.error fault, t) := by
  simp only [disk, StateT.run_bind, StateT.run_get]
  cases h : t.write path bytes <;> simp [h] <;> rfl

theorem disk_write_run_of_target (h : t.target path = .ok place) (bytes : List UInt8) :
    (disk.write path bytes).run t = (.ok (), t.put place (.file bytes)) := by
  rw [disk_write_run, write, h]
  rfl

theorem disk_write_run_of_refused {fault : AccessFault} (h : t.target path = .error fault)
    (bytes : List UInt8) : (disk.write path bytes).run t = (.error fault, t) := by
  rw [disk_write_run, write, h]
  rfl

end Tree
end Disk
end EvalDiff
