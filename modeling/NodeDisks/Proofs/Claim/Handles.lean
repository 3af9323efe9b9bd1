import NodeDisks.Claim
import NodeDisks.Proofs.Effects

/-!
## Opens

What the decision on a device does to it. The device is opened once, whatever comes of it: the search
for links starts after the open, and on no way out is there anything left to do but to close it
(`effects_evaluate`).
-/

namespace NodeDisks

variable {x : Scene} {dirs : List Path} {device : String}

namespace Lock

theorem effects_take_of_free {l : Lock} (H : l.held = false) :
    (l.take x).effects = { opens := [(l.path, x.openExclusive l.path)] } := by
  simp only [take, H, Bool.false_eq_true, if_false, Traced.effects_bind, Scene.value_openDevice]
  have hopen : (x.openDevice l.path).effects = { opens := [(l.path, x.openExclusive l.path)] } := rfl
  rw [hopen]
  cases x.openExclusive l.path <;> exact Effects.append_none _

theorem closesOnly_release (l : Lock) : l.release.effects.ClosesOnly := by
  unfold release
  split
  · exact (Host.closesOnly_closeDevice _).append .none
  · exact .none

end Lock

namespace Claim

theorem effects_acquire (x : Scene) (dirs : List Path) (device : String) :
    ∃ closes, (acquire x dirs device).effects =
      { opens := [(⟨device⟩, x.openExclusive ⟨device⟩)], closes } := by
  rw [acquire, Traced.effects_bind, Lock.effects_take_of_free rfl]
  refine Effects.ClosesOnly.exists_append ?_
  obtain ⟨taken, lock⟩ := ((Lock.on ⟨device⟩).take x).value
  have hreleased : (lock.release.effects ++ Effects.none).ClosesOnly :=
    (Lock.closesOnly_release lock).append .none
  cases taken with
  | error e => exact hreleased
  | ok locked =>
    dsimp only
    cases matchingLinks x.files dirs ⟨device⟩ with
    | error e => exact hreleased
    | ok links =>
      dsimp only
      split
      · exact hreleased
      · exact .none

/-- Deciding on a device opens it once, and does nothing else but close what was opened. -/
theorem effects_evaluate (x : Scene) (dirs : List Path) (device : String) :
    ∃ closes, (evaluate x dirs device).effects =
      { opens := [(⟨device⟩, x.openExclusive ⟨device⟩)], closes } := by
  obtain ⟨closes, hacquire⟩ := effects_acquire x dirs device
  rw [evaluate, Traced.effects_bind, hacquire]
  refine Effects.ClosesOnly.exists_append ?_
  split
  · exact (Lock.closesOnly_release _).append .none
  · exact .none
  · exact .none

end Claim

end NodeDisks

/-!
## Handles

The handles of locks. A step on a lock acquires as many handles more than it closes as the lock holds
more than before (`heldHandles_take`, `heldHandles_release`), and so do any calls one after the other
(`heldHandles_run`), whatever the node answers to each of them. An attempt on a device keeps the handle
of the lock that it returns and no other, and a decision keeps none (`locks_accounted`).
-/

namespace NodeDisks

variable {x : Scene} {dirs : List Path} {device : String} {p : Path}

namespace Effects

@[simp] theorem heldHandles_none : none.heldHandles = 0 := rfl

theorem heldHandles_append (a b : Effects) :
    (a ++ b).heldHandles = a.heldHandles + b.heldHandles := by
  have hcloses : (a ++ b).closes = a.closes ++ b.closes := rfl
  simp only [heldHandles, opens_append, hcloses, List.countP_append, List.length_append]
  omega

end Effects

namespace Lock

/-- What is done with a lock. The node may be another one each time, with another answer. -/
inductive Call where
  | take (x : Scene)
  | release

/-- The lock after a call. -/
def call (l : Lock) : Call → Traced Lock
  | .take x => do
    let (_, l) ← l.take x
    return l
  | .release => l.release

/-- The lock after some calls. -/
def run (l : Lock) : List Call → Traced Lock
  | [] => return l
  | c :: cs => do
    let l ← l.call c
    l.run cs

/-- The handles that a lock has, one or none. -/
def handles (l : Lock) : Int := if l.held then 1 else 0

/-- What some calls on a new lock of path `p` come to, and what can happen to the lock then. -/
structure Accounted (p : Path) (calls : List Call) : Prop where
  balanced : ((on p).run calls).effects.heldHandles = ((on p).run calls).value.handles
  /-- A lock that is held is taken again without opening anything. -/
  again : ((on p).run calls).value.held = true →
    ∀ x, ((on p).run calls).value.take x = return (.ok true, ((on p).run calls).value)
  /-- A lock that is not held is held after an open that succeeds, and after no other. -/
  taken : ((on p).run calls).value.held = false → ∀ x,
    (((on p).run calls).value.take x).effects = { opens := [(p, x.openExclusive p)] } ∧
      (((on p).run calls).value.take x).value = match x.openExclusive p with
        | .acquired => (.ok true, ⟨p, true⟩)
        | .busy => (.ok false, on p)
        | .failed e => (.error (.io e), on p)
  idle : ((on p).run calls).value.held = false →
    ((on p).run calls).value.release = return ((on p).run calls).value
  /-- The drop releases the lock, and nothing is open then. -/
  dropped : ((on p).run (calls ++ [.release])).value = on p ∧
    ((on p).run (calls ++ [.release])).effects.heldHandles = 0

variable {l : Lock} {calls calls' : List Call}

/-! ### One call -/

theorem handles_of_held (H : l.held = true) : l.handles = 1 := by rw [handles, if_pos H]

theorem handles_of_free (H : l.held = false) : l.handles = 0 := by simp [handles, H]

theorem eq_on_of_free (H : l.held = false) : l = on l.path := by rw [on, ← H]

theorem take_of_held (H : l.held = true) : l.take x = return (.ok true, l) := by
  rw [take, if_pos H]

theorem value_take_of_free (H : l.held = false) : (l.take x).value =
    match x.openExclusive l.path with
    | .acquired => (.ok true, { l with held := true })
    | .busy => (.ok false, l)
    | .failed e => (.error (.io e), l) := by
  rw [take, H]
  simp only [Bool.false_eq_true, if_false, Traced.value_bind, Scene.value_openDevice]
  cases x.openExclusive l.path <;> rfl

theorem release_of_free (H : l.held = false) : l.release = return l := by
  simp [release, H]

theorem effects_release_of_held (H : l.held = true) :
    l.release.effects = { closes := [l.path] } := by
  rw [release, if_pos H]
  exact Effects.append_none _

theorem value_release (l : Lock) : l.release.value = on l.path := by
  obtain ⟨path, held⟩ := l
  cases held <;> rfl

@[simp] theorem handles_on (p : Path) : (on p).handles = 0 := rfl

theorem heldHandles_take (l : Lock) (x : Scene) :
    (l.take x).effects.heldHandles = (l.take x).value.2.handles - l.handles := by
  cases hheld : l.held with
  | true =>
    rw [take_of_held hheld]
    exact (Int.sub_self l.handles).symm
  | false =>
    rw [effects_take_of_free hheld, value_take_of_free hheld, handles_of_free hheld]
    cases hopen : x.openExclusive l.path with
    | acquired => simp [Effects.heldHandles, handles]
    | busy | failed => simp [Effects.heldHandles, handles_of_free hheld]

theorem heldHandles_release (l : Lock) : l.release.effects.heldHandles = -l.handles := by
  cases hheld : l.held with
  | true =>
    rw [effects_release_of_held hheld, handles_of_held hheld]
    rfl
  | false =>
    rw [release_of_free hheld, handles_of_free hheld]
    rfl

theorem heldHandles_call (l : Lock) (c : Call) :
    (l.call c).effects.heldHandles = (l.call c).value.handles - l.handles := by
  cases c with
  | take x =>
    rw [call, Traced.effects_bind, Effects.heldHandles_append, heldHandles_take]
    exact Int.add_zero _
  | release =>
    rw [call, heldHandles_release, value_release, handles_on, Int.zero_sub]

/-! ### Many calls -/

theorem run_cons (l : Lock) (c : Call) (calls : List Call) :
    l.run (c :: calls) = l.call c >>= fun l => l.run calls := rfl

theorem heldHandles_run (l : Lock) (calls : List Call) :
    (l.run calls).effects.heldHandles = (l.run calls).value.handles - l.handles := by
  induction calls generalizing l with
  | nil => exact (Int.sub_self l.handles).symm
  | cons c calls ih =>
    rw [run_cons, Traced.effects_bind, Traced.value_bind, Effects.heldHandles_append,
      heldHandles_call, ih]
    omega

theorem path_call (l : Lock) (c : Call) : (l.call c).value.path = l.path := by
  cases c with
  | take x =>
    cases hheld : l.held with
    | true => rw [call, take_of_held hheld]; rfl
    | false =>
      rw [call, Traced.value_bind, value_take_of_free hheld]
      cases x.openExclusive l.path <;> rfl
  | release => rw [call, value_release, on]

theorem path_run (l : Lock) (calls : List Call) : (l.run calls).value.path = l.path := by
  induction calls generalizing l with
  | nil => rfl
  | cons c calls ih => rw [run_cons, Traced.value_bind, ih, path_call]

theorem value_run_append (l : Lock) (calls calls' : List Call) :
    (l.run (calls ++ calls')).value = ((l.run calls).value.run calls').value := by
  induction calls generalizing l with
  | nil => rfl
  | cons c calls ih => exact ih (l.call c).value

theorem accounted (p : Path) (calls : List Call) : Accounted p calls := by
  have hpath : ((on p).run calls).value.path = p := path_run (on p) calls
  have hdropped : ((on p).run (calls ++ [.release])).value = on p := by
    rw [value_run_append, run_cons, Traced.value_bind, call, value_release, hpath]
    rfl
  refine ⟨?_, fun hheld x => take_of_held hheld, fun hfree x => ⟨?_, ?_⟩,
    fun hfree => release_of_free hfree, hdropped, ?_⟩
  · rw [heldHandles_run, handles_on, Int.sub_zero]
  · rw [effects_take_of_free hfree, hpath]
  · rw [value_take_of_free hfree, eq_on_of_free hfree, hpath]
    rfl
  · rw [heldHandles_run, hdropped, Int.sub_self]

end Lock

namespace Claim

theorem heldHandles_acquire (x : Scene) (dirs : List Path) (device : String) :
    (acquire x dirs device).effects.heldHandles = match (acquire x dirs device).value with
      | .ok attempt => attempt.lock.handles
      | .error _ => 0 := by
  have hbalanced := Lock.heldHandles_take (Lock.on ⟨device⟩) x
  rw [Lock.handles_on, Int.sub_zero] at hbalanced
  rw [acquire, Traced.effects_bind, Traced.value_bind, Effects.heldHandles_append, hbalanced]
  obtain ⟨taken, lock⟩ := ((Lock.on ⟨device⟩).take x).value
  -- Where the attempt ends without a result, the lock goes back and its handle with it.
  have hreleased : lock.handles + (lock.release.effects ++ Effects.none).heldHandles = 0 := by
    rw [Effects.append_none, Lock.heldHandles_release]
    omega
  cases taken with
  | error e => exact hreleased
  | ok locked =>
    dsimp only
    cases matchingLinks x.files dirs ⟨device⟩ with
    | error e => exact hreleased
    | ok links =>
      dsimp only
      split
      · exact hreleased
      · exact Int.add_zero _

theorem heldHandles_evaluate (x : Scene) (dirs : List Path) (device : String) :
    (evaluate x dirs device).effects.heldHandles = 0 := by
  rw [evaluate, Traced.effects_bind, Effects.heldHandles_append, heldHandles_acquire]
  cases (acquire x dirs device).value with
  | ok attempt =>
    change attempt.lock.handles + (attempt.lock.release.effects ++ Effects.none).heldHandles = 0
    rw [Effects.append_none, Lock.heldHandles_release]
    omega
  | error e => cases e <;> rfl

end Claim

/-- Every lock has one handle when it is held and none when it is not, and a decision on a device leaves
no handle open, whatever comes of it. -/
theorem locks_accounted : (∀ p calls, Lock.Accounted p calls) ∧ ∀ x dirs device,
    (Claim.evaluate x dirs device).effects.heldHandles = 0 ∧
      (Claim.acquire x dirs device).effects.heldHandles =
        match (Claim.acquire x dirs device).value with
        | .ok attempt => attempt.lock.handles
        | .error _ => 0 :=
  ⟨Lock.accounted, fun x dirs device =>
    ⟨Claim.heldHandles_evaluate x dirs device, Claim.heldHandles_acquire x dirs device⟩⟩

end NodeDisks
