import EvalDiff.CommandLine

/-!
# Paths on the command line

No path of an accepted command line is empty.  Every argument that is taken keeps it that way, so
all of them do.
-/

namespace EvalDiff
namespace CommandLine

variable {d d' : Draft} {key : Key} {switch : Switch} {argument value : String} {cs : List Char}
  {progress : Progress} {waiting : Option Key} {arguments : List String} {request : Request}

/-- No path is empty. -/
structure Draft.Sound (d : Draft) : Prop where
  paths : ∀ path ∈ d.paths, path.isEmpty = false
  config : ∀ path ∈ d.config, path.isEmpty = false
  saveConfig : ∀ path ∈ d.saveConfig, path.isEmpty = false

/-- No path is empty. -/
structure Invocation.Sound (i : Invocation) : Prop where
  baseline : i.baseline.isEmpty = false
  comparison : i.comparison.isEmpty = false
  config : ∀ path ∈ i.config, path.isEmpty = false
  saveConfig : ∀ path ∈ i.saveConfig, path.isEmpty = false

def Request.Sound : Request → Prop
  | .run i => i.Sound
  | .help | .version => True

def Progress.Sound : Progress → Prop
  | .settled request => request.Sound
  | .more d _ => d.Sound

theorem bind_eq_ok_iff {ε α β : Type} {x : Except ε α} {f : α → Except ε β} {b : β} :
    (x >>= f) = .ok b ↔ ∃ a, x = .ok a ∧ f a = .ok b := by
  cases x with
  | error e => exact ⟨nofun, nofun⟩
  | ok a => exact ⟨fun h => ⟨a, rfl, h⟩, fun ⟨_, ha, h⟩ => by cases ha; exact h⟩

theorem Draft.once_eq_ok_iff {α : Type} {old next : Option α} {new : α} :
    once key old new = .ok next ↔ old = none ∧ next = some new := by
  cases old <;> simp [once, eq_comm]

theorem Draft.path_eq_ok_iff {path : String} :
    Draft.path key value = .ok path ↔ value ≠ "" ∧ value = path := by
  by_cases h : value = ""
  · subst h
    simp [Draft.path]
  · simp [Draft.path, h]

theorem Draft.Sound.setKey (h : d.Sound) (hset : d.setKey key value = .ok d') : d'.Sound := by
  cases key with
  | metric | aggregate =>
    obtain ⟨_, -, hd⟩ := bind_eq_ok_iff.mp hset
    cases hd
    exact ⟨h.paths, h.config, h.saveConfig⟩
  | format =>
    unfold Draft.setKey at hset
    simp only at hset
    split at hset
    · cases hset
    · obtain ⟨_, -, hd⟩ := bind_eq_ok_iff.mp hset
      cases hd
      exact ⟨h.paths, h.config, h.saveConfig⟩
  | config =>
    obtain ⟨path, hpath, hset⟩ := bind_eq_ok_iff.mp hset
    obtain ⟨_, honce, hd⟩ := bind_eq_ok_iff.mp hset
    cases hd
    obtain ⟨-, rfl⟩ := once_eq_ok_iff.mp honce
    obtain ⟨hvalue, rfl⟩ := path_eq_ok_iff.mp hpath
    exact ⟨h.paths, by simpa using hvalue, h.saveConfig⟩
  | saveConfig =>
    obtain ⟨path, hpath, hset⟩ := bind_eq_ok_iff.mp hset
    obtain ⟨_, honce, hd⟩ := bind_eq_ok_iff.mp hset
    cases hd
    obtain ⟨-, rfl⟩ := once_eq_ok_iff.mp honce
    obtain ⟨hvalue, rfl⟩ := path_eq_ok_iff.mp hpath
    exact ⟨h.paths, h.config, by simpa using hvalue⟩

theorem Draft.Sound.setStrict {value : Bool} (h : d.Sound)
    (hset : d.setStrict switch value = .ok d') : d'.Sound := by
  unfold Draft.setStrict at hset
  split at hset
  · cases hset
  · cases hset
    exact ⟨h.paths, h.config, h.saveConfig⟩

theorem Draft.Sound.addPath (h : d.Sound) (hadd : d.addPath argument = .ok d') : d'.Sound := by
  unfold Draft.addPath at hadd
  split at hadd
  · cases hadd
  · split at hadd
    · cases hadd
    · next hargument =>
      cases hadd
      refine ⟨fun path hpath => ?_, h.config, h.saveConfig⟩
      rcases List.mem_append.mp hpath with hpath | hpath
      · exact h.paths path hpath
      · simp_all

theorem Draft.Sound.takeSwitch (h : d.Sound) (htake : takeSwitch d switch = .ok progress) :
    progress.Sound := by
  cases switch with
  | help | version =>
    cases htake
    trivial
  | strict | noStrict =>
    obtain ⟨_, hset, hprogress⟩ := bind_eq_ok_iff.mp htake
    cases hprogress
    exact h.setStrict hset
  | failOnWorse =>
    unfold CommandLine.takeSwitch at htake
    simp only at htake
    split at htake
    · cases htake
    · cases htake
      exact ⟨h.paths, h.config, h.saveConfig⟩

theorem Draft.Sound.takeLong (h : d.Sound) (htake : takeLong d argument cs = .ok progress) :
    progress.Sound := by
  unfold CommandLine.takeLong at htake
  simp only at htake
  split at htake
  · obtain ⟨_, hset, hprogress⟩ := bind_eq_ok_iff.mp htake
    cases hprogress
    exact h.setKey hset
  · cases htake
    exact h
  · exact h.takeSwitch htake
  · cases htake
  · cases htake

theorem Draft.Sound.takeShort (h : d.Sound) (htake : takeShort d argument cs = .ok progress) :
    progress.Sound := by
  induction cs generalizing d with
  | nil =>
    cases htake
    exact h
  | cons c cs ih =>
    unfold CommandLine.takeShort at htake
    split at htake
    · split at htake
      · cases htake
        exact h
      · obtain ⟨_, hset, hprogress⟩ := bind_eq_ok_iff.mp htake
        cases hprogress
        exact h.setKey hset
      · obtain ⟨_, hset, hprogress⟩ := bind_eq_ok_iff.mp htake
        cases hprogress
        exact h.setKey hset
    · obtain ⟨next, hswitch, htake⟩ := bind_eq_ok_iff.mp htake
      have hnext := h.takeSwitch hswitch
      cases next with
      | settled request =>
        cases htake
        exact hnext
      | more d waiting => exact ih hnext htake
    · cases htake

theorem Draft.Sound.take (h : d.Sound) (htake : take d argument = .ok progress) :
    progress.Sound := by
  unfold CommandLine.take at htake
  split at htake
  · exact h.takeLong htake
  · exact h.takeShort htake
  · obtain ⟨_, hadd, hprogress⟩ := bind_eq_ok_iff.mp htake
    cases hprogress
    exact h.addPath hadd

theorem Draft.Sound.foldlM_addPath (h : d.Sound)
    (hadd : arguments.foldlM Draft.addPath d = .ok d') : d'.Sound := by
  induction arguments generalizing d with
  | nil =>
    cases hadd
    exact h
  | cons argument arguments ih =>
    rw [List.foldlM_cons] at hadd
    obtain ⟨next, hnext, hadd⟩ := bind_eq_ok_iff.mp hadd
    exact ih (h.addPath hnext) hadd

theorem Draft.Sound.finish (h : d.Sound) (hfinish : d.finish = .ok request) : request.Sound := by
  unfold Draft.finish at hfinish
  split at hfinish
  · next hpaths =>
    cases hfinish
    have hnonempty := h.paths
    rw [hpaths, List.forall_mem_cons, List.forall_mem_singleton] at hnonempty
    exact ⟨hnonempty.1, hnonempty.2, h.config, h.saveConfig⟩
  · cases hfinish

theorem Draft.Sound.takeAll (h : d.Sound) (htake : takeAll d waiting arguments = .ok request) :
    request.Sound := by
  induction arguments generalizing d waiting with
  | nil =>
    cases waiting with
    | none => exact h.finish htake
    | some key => cases htake
  | cons argument arguments ih =>
    unfold CommandLine.takeAll at htake
    cases waiting with
    | some key =>
      simp only at htake
      split at htake
      · obtain ⟨next, hset, htake⟩ := bind_eq_ok_iff.mp htake
        exact ih (h.setKey hset) htake
      · cases htake
    | none =>
      simp only at htake
      split at htake
      -- Only paths are left.
      · obtain ⟨next, hadd, hfinish⟩ := bind_eq_ok_iff.mp htake
        exact (h.foldlM_addPath hadd).finish hfinish
      · obtain ⟨next, hnext, htake⟩ := bind_eq_ok_iff.mp htake
        have hsound := h.take hnext
        cases next with
        | settled request =>
          cases htake
          exact hsound
        | more d waiting => exact ih hsound htake

theorem parse_sound (h : parse arguments = .ok request) : request.Sound := by
  have hempty : Draft.Sound {} :=
    { paths := by simp
      config := by simp
      saveConfig := by simp }
  exact hempty.takeAll h

end CommandLine
end EvalDiff
