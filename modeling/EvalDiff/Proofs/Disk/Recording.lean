import EvalDiff.Proofs.Disk.Runs

/-!
# Recorded writes

A disk that records what is written to it shows which files a computation writes, also where a
file is written with what it holds already.  A computation does on the recorded disk what it does
on the disk itself: `Follows`.
-/

namespace EvalDiff
namespace Disk

variable {σ τ ε ε' α β : Type}

/-- The path and the octets of each file that is written, the latest first. -/
abbrev Record := List (String × List UInt8)

/-- The same files, with a record of the writes that are not refused. -/
def recorded (disk : Disk (StateM σ)) : Disk (StateM (σ × Record)) where
  read path := fun (t, writes) =>
    let (outcome, t') := (disk.read path).run t
    (outcome, t', writes)
  write path bytes := fun (t, writes) =>
    match (disk.write path bytes).run t with
    | (.ok (), t') => (.ok (), t', (path, bytes) :: writes)
    | (.error fault, t') => (.error fault, t', writes)

theorem ReadsKeep.recorded {disk : Disk (StateM σ)} (h : disk.ReadsKeep) :
    disk.recorded.ReadsKeep := fun path t => congrArg (·, t.2) (h path t.1)

/-- The second computation comes to what the first one comes to, in the state that is seen of the
first one's. -/
def Follows (view : σ → τ) (x : ExceptT ε (StateM σ) α) (y : ExceptT ε (StateM τ) α) : Prop :=
  ∀ t, result y (view t) = Prod.map id view (result x t)

variable {view : σ → τ} {x : ExceptT ε (StateM σ) α} {y : ExceptT ε (StateM τ) α}

theorem follows_pure (a : α) :
    Follows view (pure a : ExceptT ε (StateM σ) α) (pure a) := fun _ => rfl

theorem follows_throw (e : ε) :
    Follows view (throw e : ExceptT ε (StateM σ) α) (throw e) := fun _ => rfl

theorem follows_mk_pure (outcome : Except ε α) :
    Follows view (ExceptT.mk (pure outcome) : ExceptT ε (StateM σ) α)
      (ExceptT.mk (pure outcome)) := fun _ => rfl

theorem follows_liftM {x : StateM σ α} {y : StateM τ α}
    (h : ∀ t, y.run (view t) = Prod.map id view (x.run t)) :
    Follows view (liftM x : ExceptT ε (StateM σ) α) (liftM y) := by
  intro t
  show (Except.ok (y.run (view t)).1, (y.run (view t)).2) =
    (Except.ok (x.run t).1, view (x.run t).2)
  rw [h t]
  rfl

theorem Follows.bind {f : α → ExceptT ε (StateM σ) β} {g : α → ExceptT ε (StateM τ) β}
    (hx : Follows view x y) (hf : ∀ a, Follows view (f a) (g a)) :
    Follows view (x >>= f) (y >>= g) := by
  intro t
  rw [result_bind, result_bind, hx t]
  cases result x t with
  | mk outcome t' =>
    cases outcome with
    | ok a => exact hf a t'
    | error e => rfl

theorem Follows.adapt (h : Follows view x y) (f : ε → ε') :
    Follows view (x.adapt f) (y.adapt f) := by
  intro t
  rw [result_adapt, result_adapt, h t]
  rfl

variable {disk : Disk (StateM σ)} {path : String} {bytes : List UInt8} {t t' : σ}
  {writes : Record}

theorem read_recorded (disk : Disk (StateM σ)) (path : String) (t : σ × Record) :
    (disk.read path).run t.1 = Prod.map id Prod.fst ((disk.recorded.read path).run t) := rfl

theorem write_recorded_of_ok (h : (disk.write path bytes).run t = (.ok (), t')) :
    (disk.recorded.write path bytes).run (t, writes) = (.ok (), t', (path, bytes) :: writes) := by
  have hwrite : disk.write path bytes t = (.ok (), t') := h
  simp [recorded, StateT.run, hwrite]

theorem write_recorded_of_error {fault : AccessFault}
    (h : (disk.write path bytes).run t = (.error fault, t')) :
    (disk.recorded.write path bytes).run (t, writes) = (.error fault, t', writes) := by
  have hwrite : disk.write path bytes t = (.error fault, t') := h
  simp [recorded, StateT.run, hwrite]

theorem write_recorded (disk : Disk (StateM σ)) (path : String) (bytes : List UInt8)
    (t : σ × Record) :
    (disk.write path bytes).run t.1 =
      Prod.map id Prod.fst ((disk.recorded.write path bytes).run t) := by
  cases h : (disk.write path bytes).run t.1 with
  | mk outcome t' =>
    cases outcome with
    | ok => exact congrArg (Prod.map id Prod.fst) (write_recorded_of_ok h).symm
    | error fault => exact congrArg (Prod.map id Prod.fst) (write_recorded_of_error h).symm

end Disk
end EvalDiff
