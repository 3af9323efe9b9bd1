import NodeDisks.Error
import NodeDisks.Number

/-!
The loop of the daemon: how long it waits after failures, what it does between passes, and how it
runs over a script.
-/

/-!
## Retries

Growing delays between the retries of a failing pass. The first delay is `initial`; each later one is
the one before times `factor`, until the next step would reach `cap`, and from then on it is `cap`.
There is no last delay.

Products and quotients are rounded as binary64 numbers, and a fraction of a nanosecond is dropped.
-/

namespace NodeDisks

structure Backoff where
  initial : Duration
  factor : Binary64
  cap : Duration
  deriving DecidableEq, Repr

namespace Backoff

/-- The retries of the daemon: half a second, half as long again each time, five minutes at most. -/
def standard : Backoff :=
  { initial := Duration.ofMillis 500
    factor := ⟨false, ⟨3 * Nat.pow 2 51, -52⟩⟩
    cap := Duration.ofSeconds 300 }

/-- One more step from `delay` would reach the cap. -/
def reaches (b : Backoff) (delay : Magnitude) : Bool :=
  if b.factor.negative then true
  else if b.factor.magnitude.mantissa = 0 then false
  else
    match (Magnitude.ofRatio? b.cap 1).bind (·.div? b.factor.magnitude) with
    | some limit => limit.le delay
    | none => false

/-- The delay that follows `delay`. -/
def next (b : Backoff) (delay : Duration) : Duration :=
  match Magnitude.ofRatio? delay 1 with
  | none => b.cap
  | some d =>
    if b.reaches d then b.cap
    else
      match d.mul? b.factor.magnitude with
      | some product => product.floor
      | none => b.cap

/-- The delay after the failure number `n`, counted from zero. -/
def delay (b : Backoff) : Nat → Duration
  | 0 => b.initial
  | n + 1 => b.next (b.delay n)

end Backoff

/-!
## The loop

The reconcile loop: pass after pass until it is cancelled, with a wait after each pass. A failure that
no retry can mend ends the loop with its error.

The loop sees a token that may be cancelled, passes, and waits; `Surroundings` says what each of them
does to a state. A wait may end early because the token is cancelled meanwhile; it is looked at before
every pass.
-/

/-- What the loop runs in. -/
structure Surroundings (σ : Type) where
  cancelled : σ → Bool
  /-- A pass ends with the time until the next one or with an error. -/
  pass : σ → Except Error Duration × σ
  wait : Duration → σ → σ

namespace ReconcileLoop

/-- What follows a pass. -/
inductive Plan where
  /-- Wait, and then go on with the given delay for the next failure. -/
  | wait (time : Duration) (retryDelay : Duration)
  | fail (e : Error)

/-- Success asks for its own wait and resets the backoff, a failure that names a delay gets it, and
one that does not takes the next delay of the backoff. -/
def plan (b : Backoff) (retryDelay : Duration) : Except Error Duration → Plan
  | .ok time => .wait time b.initial
  | .error e =>
    match e.action with
    | .noRequeue => .fail e
    | .requeueAfter time => .wait time retryDelay
    | .requeueWithBackoff => .wait retryDelay (b.next retryDelay)

inductive Ending where
  /-- The token was cancelled. -/
  | stopped
  | failed (e : Error)

/-- A run of the loop: the waits it planned, one after each pass, how it ended unless it is still
going on, and the state it left. -/
structure Run (σ : Type) where
  waits : List Duration
  ending : Option Ending
  state : σ

/-- At most `passes` passes of the loop, of which the next failure waits for `retryDelay`. -/
def runFrom {σ : Type} (b : Backoff) (env : Surroundings σ) :
    (passes : Nat) → (retryDelay : Duration) → σ → Run σ
  | 0, _, s => ⟨[], if env.cancelled s then some .stopped else none, s⟩
  | passes + 1, retryDelay, s =>
    if env.cancelled s then ⟨[], some .stopped, s⟩
    else
      let (result, s) := env.pass s
      match plan b retryDelay result with
      | .fail e => ⟨[], some (.failed e), s⟩
      | .wait time retryDelay =>
        let rest := runFrom b env passes retryDelay (env.wait time s)
        { rest with waits := time :: rest.waits }

/-- At most `passes` passes of the loop from its start. -/
def run {σ : Type} (b : Backoff) (env : Surroundings σ) (passes : Nat) (s : σ) : Run σ :=
  runFrom b env passes b.initial s

end ReconcileLoop

/-!
## Scripts

A loop over scripted passes on a clock of its own. A pass takes no time and has the next result of the
script; the pass that takes the last one cancels the loop. A wait ends at the first whole millisecond
that is not too early, or when the loop is cancelled from outside.
-/

structure Script where
  results : List (Except Error Duration)
  cancelled : Bool := false
  /-- When the loop is cancelled from outside. -/
  cancelAt : Option Duration := none
  /-- The time since the start. -/
  now : Duration := 0
  /-- When each pass so far took place. -/
  passes : List Duration := []

namespace Script

/-- The first whole millisecond that is not before `t`. -/
def wholeMillis (t : Duration) : Duration := Duration.ofMillis ((t + 999999) / 1000000)

def pass (s : Script) : Except Error Duration × Script :=
  let s := { s with passes := s.passes ++ [s.now] }
  match s.results with
  | [] => (.ok 0, { s with cancelled := true })
  | [r] => (r, { s with results := [], cancelled := true })
  | r :: rs => (r, { s with results := rs })

def wait (time : Duration) (s : Script) : Script :=
  if s.cancelled then s
  else
    let wake := wholeMillis (s.now + time)
    match s.cancelAt with
    | some t => if t < wake then { s with now := max t s.now, cancelled := true }
        else { s with now := wake }
    | none => { s with now := wake }

def surroundings : Surroundings Script := ⟨cancelled, pass, wait⟩

/-- The whole run: the script ends after one pass for each result, and after one in any case. -/
def play (b : Backoff) (s : Script) : ReconcileLoop.Run Script :=
  ReconcileLoop.run b surroundings (s.results.length + 1) s

end Script

end NodeDisks
