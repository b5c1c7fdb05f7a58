import BattleScript.Action.Interpreter

/-!
# The runner

An action runs its five phases in order. The target phase runs once per declared target, with the
context narrowed to that one battler. A script that aborts drops the targets that are left, and the
action goes on with the follow phase, or with what comes after the phase that aborted.

`update` is a frame: the interpreter's frame, and as long as that ends a script, the next phase in
the same frame. Every new phase comes later than the last, or is the target phase with fewer
targets to come; `Runner.remaining` orders them, so a frame always ends.
-/

namespace BattleScript

/-- The phases and targets that are still to come. -/
def Runner.remainingOf (phase : Option Phase) (pending : List BattlerId) : Nat × Nat :=
  ((phase.map (·.left + 1)).getD 0, pending.length)

/-- An action being played. -/
structure Runner where
  sequence : ActionSequence
  context : ActionContext
  /-- The targets that the action was declared on. -/
  declared : List BattlerId
  /-- The targets whose phase is still to come. -/
  pending : List BattlerId := []
  /-- The phase being played, or nothing when the action has finished. -/
  phase : Option Phase := none
  interpreter : Interpreter := {}
  deriving DecidableEq, Repr

namespace Runner

/-- Whether the action has finished. -/
def isFinished (r : Runner) : Bool := r.phase.isNone

/-- Begins a phase. -/
def enter (r : Runner) (p : Phase) : Runner :=
  { r with phase := some p, interpreter := .load (r.sequence.script p) }

/-- Begins the follow phase, on all declared targets. -/
def enterFollow (r : Runner) : Runner :=
  { r with context := { r.context with targets := r.declared } }.enter .follow

/-- Begins the target phase of the next target, or the follow phase if there is none. -/
def nextTarget (r : Runner) : Runner :=
  match r.pending with
  | t :: rest =>
    { r with pending := rest, context := { r.context with targets := [t] } }.enter .target
  | [] => r.enterFollow

/-- The runner after a phase. -/
def advance (r : Runner) : Phase → Runner
  | .setup => r.enter .whole
  | .whole => { r with pending := r.declared }.nextTarget
  | .target => r.nextTarget
  | .follow => r.enter .finish
  | .finish => { r with phase := none }

/-- The runner without targets. -/
def dropTargets (r : Runner) : Runner :=
  { r with declared := [], pending := [], context := { r.context with targets := [] } }

/-- The runner after a phase that was aborted: up to the target phase, the follow phase is next. -/
def abort (r : Runner) : Phase → Runner
  | .setup | .whole | .target => r.dropTargets.advance .target
  | p => r.dropTargets.advance p

/-- The battle when an action has ended. -/
def settle (r : Runner) (b : Battle) : Battle :=
  if r.isFinished then b.restoreCamera 30 30 else b

/-- How much is still to come: phases first, then targets. -/
def remaining (r : Runner) : Nat × Nat := remainingOf r.phase r.pending

/-- After a target there is another target phase, with fewer targets to come, or the follow phase.
-/
theorem nextTarget_phase (r : Runner) :
    (r.nextTarget.phase = some .target ∧ r.nextTarget.pending.length < r.pending.length) ∨
      r.nextTarget.phase = some .follow := by
  unfold nextTarget
  split <;> simp_all [enter, enterFollow]

/-- A phase is followed by the next one, except that each target is followed by the one after it,
and that without targets there is no target phase. -/
theorem advance_phase (r : Runner) (p : Phase) :
    (r.advance p).phase =
      if p = .target ∧ r.pending ≠ [] then some .target
      else if p = .whole ∧ r.declared = [] then some .follow
      else p.next? := by
  cases p with
  | setup | follow | finish => rfl
  | whole =>
    unfold advance nextTarget
    cases r.declared <;> rfl
  | target =>
    unfold advance nextTarget
    cases r.pending <;> rfl

/-- A frame of the interpreter; what is still to come stays as it is. -/
def playFrame (chain : Chain) (r : Runner) (b : Battle) : Runner × Battle :=
  let (i, scene) := r.interpreter.update chain ⟨b, r.context⟩
  ({ r with interpreter := i, context := scene.context }, scene.battle)

/-- The runner after a script that has ended in the given state; nothing if it has not ended. -/
def afterScript (r : Runner) (p : Phase) : InterpreterState → Option Runner
  | .completed => some (r.advance p)
  | .aborted => some (r.abort p)
  | _ => none

/-- A script hands over when it was completed or aborted, and each leads to a phase of its own. -/
theorem afterScript_eq_some_iff {r next : Runner} {p : Phase} {state : InterpreterState} :
    r.afterScript p state = some next ↔
      (state = .completed ∧ next = r.advance p) ∨ (state = .aborted ∧ next = r.abort p) := by
  cases state <;> simp [afterScript, eq_comm]

/-- What comes after a phase leaves less to come. -/
theorem remaining_advance_lt {r : Runner} {p : Phase} (h : r.phase = some p) :
    Prod.Lex (· < ·) (· < ·) (r.advance p).remaining r.remaining := by
  cases p with
  | setup => exact .left _ _ (by simp [enter, advance, h, Phase.left])
  | whole =>
    refine .left _ _ ?_
    rcases nextTarget_phase { r with pending := r.declared } with ⟨ht, -⟩ | ht <;>
      simp_all [advance, Phase.left]
  | target =>
    rcases nextTarget_phase r with ⟨ht, hp⟩ | ht
    · simp only [remaining, remainingOf, advance, ht, h]
      exact .right _ hp
    · exact .left _ _ (by simp_all [advance, Phase.left])
  | follow => exact .left _ _ (by simp [enter, advance, h, Phase.left])
  | finish => exact .left _ _ (by simp [advance, h, Phase.left])

/-- So does what comes after a phase that was aborted. -/
theorem remaining_abort_lt {r : Runner} {p : Phase} (h : r.phase = some p) :
    Prod.Lex (· < ·) (· < ·) (r.abort p).remaining r.remaining := by
  cases p with
  | follow => exact .left _ _ (by simp [enter, abort, advance, dropTargets, h, Phase.left])
  | finish => exact .left _ _ (by simp [abort, advance, dropTargets, h, Phase.left])
  | _ => exact .left _ _ (by
      simp [abort, advance, dropTargets, nextTarget, enterFollow, enter, h, Phase.left])

/-- Every handover leaves less to come, so that an update ends. -/
theorem remaining_afterScript_lt {r s : Runner} {p : Phase} {state : InterpreterState}
    (h : r.phase = some p) (hs : r.afterScript p state = some s) :
    Prod.Lex (· < ·) (· < ·) s.remaining r.remaining := by
  obtain ⟨-, rfl⟩ | ⟨-, rfl⟩ := afterScript_eq_some_iff.mp hs
  · exact remaining_advance_lt h
  · exact remaining_abort_lt h

/-- Plays one frame. -/
def update (chain : Chain) (r : Runner) (b : Battle) : Runner × Battle :=
  match _h : r.phase with
  | none => (r, b)
  | some p =>
    match _hf : r.playFrame chain b with
    | (played, b) =>
      match _hp : played.afterScript p played.interpreter.state with
      | none => (played, b)
      | some next => next.update chain (next.settle b)
termination_by r.remaining
decreasing_by
  have hr : played.phase = r.phase ∧ played.remaining = r.remaining := by
    simp only [playFrame, Prod.mk.injEq] at _hf
    rw [← _hf.1]
    exact ⟨rfl, rfl⟩
  rw [← hr.2]
  exact remaining_afterScript_lt (hr.1.trans _h) _hp

/-- An action on a battle: its first phase begins, after its cooldowns were paid. -/
def start (b : Battle) (c : ActionContext) : Runner × Battle :=
  let r : Runner := {
    sequence := (b.database.sequence? c.item).getD .standard
    context := c
    declared := c.targets }
  (r.enter .setup, b.payCooldowns c.subject c.item)

/-- A frame of the battle and then of the action. -/
def frame (chain : Chain) (r : Runner) (b : Battle) : Runner × Battle := r.update chain b.advance

/-- Plays frames until the action has finished, but at most the given number of them. The result
begins with the number of frames played, those in `played` included. -/
def runFrom (chain : Chain) : Nat → Nat → Runner → Battle → Nat × Runner × Battle
  | 0, played, r, b => (played, r, b)
  | limit + 1, played, r, b =>
    if r.isFinished then (played, r, b)
    else
      let (r, b) := r.frame chain b
      runFrom chain limit (played + 1) r b

/-- Plays an action to its end, but at most the given number of frames. -/
def runToEnd (chain : Chain) (limit : Nat) (r : Runner) (b : Battle) : Nat × Runner × Battle :=
  runFrom chain limit 0 r b

end Runner

end BattleScript
