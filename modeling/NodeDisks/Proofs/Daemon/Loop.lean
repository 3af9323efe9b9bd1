import NodeDisks.Daemon.Loop

/-!
What the reconcile loop does. Its passes are numbered from zero, and `before`, `result`, `after` and
`pause` say what pass `n` starts from and gives, and how long the wait after it is, in a loop that
nothing ends. Whether pass `n` takes place (`Starts`) depends on the passes before it and on the token.

The loop carries the next delay of the backoff from pass to pass; the waits are described without it,
by the failures since the last success (`streak`). The two agree because a pass moves them alike
(`plan_of_not_permanent`), so one step of the loop is one step of the numbering (`runFrom_succ`).
-/

namespace NodeDisks

/-- A cancelled token stays cancelled. -/
structure Surroundings.CancelsForGood {σ : Type} (env : Surroundings σ) : Prop where
  pass : ∀ s, env.cancelled s → env.cancelled (env.pass s).2
  wait : ∀ time s, env.cancelled s → env.cancelled (env.wait time s)

namespace ReconcileLoop

/-- The result of a pass that no retry can mend. -/
def Permanent : Except Error Duration → Prop
  | .ok _ => False
  | .error e => e.action = .noRequeue

instance : DecidablePred Permanent
  | .ok _ => isFalse id
  | .error e => inferInstanceAs (Decidable (e.action = .noRequeue))

/-- How many failures since the last success asked for a growing delay; the newest result is first. -/
def streak : List (Except Error Duration) → Nat
  | [] => 0
  | .ok _ :: _ => 0
  | .error e :: earlier =>
    if e.action = .requeueWithBackoff then streak earlier + 1 else streak earlier

/-- The wait after a pass, by its result and by the results before it. -/
def waitAfter (b : Backoff) (earlier : List (Except Error Duration)) :
    Except Error Duration → Duration
  | .ok time => time
  | .error e =>
    match e.action with
    | .requeueAfter time => time
    | _ => b.delay (streak earlier)

section Numbering

variable {σ : Type} (b : Backoff) (env : Surroundings σ) (s : σ)

/-- The results of the first passes, the newest first, and the state after the last wait. -/
def unrolled : Nat → List (Except Error Duration) × σ
  | 0 => ([], s)
  | n + 1 =>
    let (earlier, s) := unrolled n
    let (result, s) := env.pass s
    (result :: earlier, env.wait (waitAfter b earlier result) s)

def before (n : Nat) : σ := (unrolled b env s n).2

def result (n : Nat) : Except Error Duration := (env.pass (before b env s n)).1

def after (n : Nat) : σ := (env.pass (before b env s n)).2

def pause (n : Nat) : Duration := waitAfter b (unrolled b env s n).1 (result b env s n)

def pauses (n : Nat) : List Duration := (List.range n).map (pause b env s)

/-- Pass `n` takes place: the token is not cancelled before the start, nor during an earlier pass or
the wait after it, and no earlier pass fails for good. -/
def Starts : Nat → Prop
  | 0 => env.cancelled s = false
  | n + 1 => Starts n ∧ ¬Permanent (result b env s n) ∧ env.cancelled (after b env s n) = false ∧
    env.cancelled (before b env s (n + 1)) = false

instance : (n : Nat) → Decidable (Starts b env s n)
  | 0 => inferInstanceAs (Decidable (env.cancelled s = false))
  | n + 1 =>
    have := instDecidableStarts n
    inferInstanceAs (Decidable (Starts b env s n ∧ ¬Permanent (result b env s n) ∧
      env.cancelled (after b env s n) = false ∧ env.cancelled (before b env s (n + 1)) = false))

/-- The loop runs the passes that take place, one after the other, and ends as it should. -/
structure Obeys : Prop where
  goesOn : ∀ n, Starts b env s n →
    run b env n s = ⟨pauses b env s n, none, before b env s n⟩
  /-- A token that is cancelled in a pass that fails for good makes no difference. -/
  fails : ∀ n e, Starts b env s n → result b env s n = .error e → e.action = .noRequeue →
    ∀ passes, n < passes →
      run b env passes s = ⟨pauses b env s n, some (.failed e), after b env s n⟩
  unstarted : env.cancelled s → ∀ passes, run b env passes s = ⟨[], some .stopped, s⟩
  /-- A token that is cancelled in a pass or in the wait after it lets the pass finish. -/
  stops : ∀ n, Starts b env s n → ¬Permanent (result b env s n) →
    env.cancelled (after b env s n) ∨ env.cancelled (before b env s (n + 1)) →
    ∀ passes, n < passes →
      run b env passes s = ⟨pauses b env s (n + 1), some .stopped, before b env s (n + 1)⟩
  failed_for_good : ∀ passes e, (run b env passes s).ending = some (.failed e) →
    e.retryable = false
  stopped_cancelled : ∀ passes, (run b env passes s).ending = some .stopped →
    env.cancelled (run b env passes s).state

end Numbering

variable {σ : Type} {b : Backoff} {env : Surroundings σ} {s : σ} {n passes : Nat}
  {earlier : List (Except Error Duration)} {r : Except Error Duration} {e : Error}

/-! ### One pass -/

theorem plan_of_permanent (H : e.action = .noRequeue) (retryDelay : Duration) :
    plan b retryDelay (.error e) = .fail e := by
  simp [plan, H]

/-- The backoff moves with the streak. -/
theorem plan_of_not_permanent (H : ¬Permanent r) : plan b (b.delay (streak earlier)) r =
    .wait (waitAfter b earlier r) (b.delay (streak (r :: earlier))) := by
  cases r with
  | ok time => rfl
  | error e =>
    cases haction : e.action with
    | noRequeue => exact absurd haction H
    | requeueAfter time => simp [plan, waitAfter, streak, haction]
    | requeueWithBackoff => simp [plan, waitAfter, streak, haction, Backoff.delay]

theorem not_retryable_of_plan {retryDelay : Duration} (H : plan b retryDelay r = .fail e) :
    e.retryable = false := by
  cases r with
  | ok time => cases H
  | error e' =>
    cases haction : e'.action <;> rw [plan, haction] at H <;> cases H
    simp [Error.retryable, haction]

/-! ### One step of the loop -/

theorem runFrom_of_cancelled (H : env.cancelled s) (retryDelay : Duration) :
    runFrom b env passes retryDelay s = ⟨[], some .stopped, s⟩ := by
  cases passes <;> simp [runFrom, H]

theorem runFrom_of_permanent (hs : env.cancelled s = false) (hresult : (env.pass s).1 = .error e)
    (haction : e.action = .noRequeue) (retryDelay : Duration) :
    runFrom b env (passes + 1) retryDelay s = ⟨[], some (.failed e), (env.pass s).2⟩ := by
  simp [runFrom, hs, hresult, plan_of_permanent haction]

/-- The run that made these waits before. -/
def Run.behind (times : List Duration) (r : Run σ) : Run σ := { r with waits := times ++ r.waits }

theorem runFrom_succ (hs : env.cancelled s = false) (hresult : ¬Permanent (env.pass s).1) :
    runFrom b env (passes + 1) (b.delay (streak earlier)) s =
      (runFrom b env passes (b.delay (streak ((env.pass s).1 :: earlier)))
        (env.wait (waitAfter b earlier (env.pass s).1) (env.pass s).2)).behind
          [waitAfter b earlier (env.pass s).1] := by
  simp [runFrom, hs, plan_of_not_permanent hresult, Run.behind]

/-! ### Runs -/

theorem Starts.not_cancelled (H : Starts b env s n) : env.cancelled (before b env s n) = false := by
  cases n with
  | zero => exact H
  | succ n => exact H.2.2.2

theorem pauses_succ : pauses b env s (n + 1) = pauses b env s n ++ [pause b env s n] := by
  simp [pauses, List.range_succ]

/-- The loop as it looks at the token for the time after `n` passes. -/
def resume (b : Backoff) (env : Surroundings σ) (s : σ) (n passes : Nat) : Run σ :=
  runFrom b env passes (b.delay (streak (unrolled b env s n).1)) (before b env s n)

theorem resume_succ (hs : env.cancelled (before b env s n) = false)
    (hresult : ¬Permanent (result b env s n)) :
    resume b env s n (passes + 1) = (resume b env s (n + 1) passes).behind [pause b env s n] :=
  runFrom_succ hs hresult

/-- A run up to the start of pass `n`, and what follows. -/
theorem run_of_starts (H : Starts b env s n) :
    run b env (n + passes) s = (resume b env s n passes).behind (pauses b env s n) := by
  induction n generalizing passes with
  | zero =>
    rw [Nat.zero_add]
    rfl
  | succ n ih =>
    obtain ⟨hstarts, hresult, -, -⟩ := H
    rw [Nat.add_right_comm, Nat.add_assoc, ih hstarts,
      resume_succ hstarts.not_cancelled hresult, pauses_succ]
    simp [Run.behind]

/-- A loop that is to make more than `n` passes, at the start of pass `n`. -/
theorem run_of_starts_of_lt (H : Starts b env s n) (hn : n < passes) :
    ∃ more, run b env passes s = (resume b env s n (more + 1)).behind (pauses b env s n) := by
  obtain ⟨more, rfl⟩ := Nat.exists_eq_add_of_lt hn
  rw [Nat.add_assoc]
  exact ⟨more, run_of_starts H⟩

theorem runFrom_ending {retryDelay : Duration} :
    (∀ e, (runFrom b env passes retryDelay s).ending = some (.failed e) → e.retryable = false) ∧
      ((runFrom b env passes retryDelay s).ending = some .stopped →
        env.cancelled (runFrom b env passes retryDelay s).state) := by
  induction passes generalizing retryDelay s with
  | zero => cases hs : env.cancelled s <;> simp [runFrom, hs]
  | succ passes ih =>
    cases hs : env.cancelled s with
    | true => simp [runFrom, hs]
    | false =>
      cases hplan : plan b retryDelay (env.pass s).1 with
      | fail e' =>
        simp only [runFrom, hs, hplan, Bool.false_eq_true, if_false, Option.some.injEq,
          Ending.failed.injEq, reduceCtorEq, false_implies, and_true]
        rintro e rfl
        exact not_retryable_of_plan hplan
      | wait time retryDelay' =>
        simp only [runFrom, hs, hplan, Bool.false_eq_true, if_false]
        exact ih

theorem loop_obeys (b : Backoff) (H : env.CancelsForGood) (s : σ) : Obeys b env s where
  goesOn n hstarts := by
    have hrun : run b env (n + 0) s = (resume b env s n 0).behind (pauses b env s n) :=
      run_of_starts hstarts
    rw [Nat.add_zero] at hrun
    rw [hrun, resume, runFrom, hstarts.not_cancelled]
    simp [Run.behind]
  fails n e hstarts hresult haction passes hn := by
    obtain ⟨more, hrun⟩ := run_of_starts_of_lt hstarts hn
    rw [hrun, resume, runFrom_of_permanent hstarts.not_cancelled hresult haction]
    simp [Run.behind, after]
  unstarted hs passes := runFrom_of_cancelled hs _
  stops n hstarts hresult hcancelled passes hn := by
    obtain ⟨more, hrun⟩ := run_of_starts_of_lt hstarts hn
    have hnext : env.cancelled (before b env s (n + 1)) := by
      rcases hcancelled with hpass | hwait
      · exact H.wait _ _ hpass
      · exact hwait
    rw [hrun, resume_succ hstarts.not_cancelled hresult, resume, runFrom_of_cancelled hnext,
      pauses_succ]
    simp [Run.behind]
  failed_for_good passes e := runFrom_ending.1 e
  stopped_cancelled passes := runFrom_ending.2

theorem script_cancelsForGood : Script.surroundings.CancelsForGood where
  pass s hs := by
    simp only [Script.surroundings, Script.pass] at hs ⊢
    split
    · rfl
    · rfl
    · exact hs
  wait time s hs := by
    simp only [Script.surroundings, Script.wait] at hs ⊢
    rwa [if_pos hs]

/-- A busy device costs its own five seconds, the failures around it the first two delays, and the one
after the success the first delay again. The last pass fails for good and cancels the token. -/
theorem loop_obeys_script :
    let s : Script := { results := [.error (.noParsableRows 3), .error (.deviceBusy "/dev/a"),
      .error (.enumeration (.general "")), .ok 7, .error (.noParsableRows 1),
      .error (.configuration (.general ""))] }
    let run := ReconcileLoop.run .standard Script.surroundings
    Script.surroundings.CancelsForGood ∧ Obeys .standard Script.surroundings s ∧
      Starts .standard Script.surroundings s 5 ∧
      (after .standard Script.surroundings s 5).cancelled ∧
      run 6 s = ⟨[500000000, 5000000000, 750000000, 7, 500000000],
        some (.failed (.configuration (.general ""))), after .standard Script.surroundings s 5⟩ := by
  intro s run
  have hobeys : Obeys .standard Script.surroundings s := loop_obeys .standard script_cancelsForGood s
  have hstarts : Starts .standard Script.surroundings s 5 := by decide +kernel
  have hpauses : pauses .standard Script.surroundings s 5 =
      [500000000, 5000000000, 750000000, 7, 500000000] := by decide +kernel
  refine ⟨script_cancelsForGood, hobeys, hstarts, by decide +kernel, ?_⟩
  rw [← hpauses]
  exact hobeys.fails 5 _ hstarts (by rfl) (by rfl) 6 (by decide)

end ReconcileLoop

end NodeDisks
