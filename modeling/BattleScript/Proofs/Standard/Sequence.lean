import BattleScript.Proofs.Runner.PlayOut
import BattleScript.Proofs.Scenario
import BattleScript.Proofs.Standard.Dispatch

/-!
# The standard sequence

An action whose notes declare no scripts, and copy none, runs the standard ones
(`Scenario.sequence_eq_standard`). Their lines are control commands (`reads_setup`,
`reads_target`, `reads_finish`), and most of these change nothing about the battlers and do not
abort: they are `Gentle`. So in the play-out of such an action there are only three things to look
at: the line of the setup that makes the targets immortal, the death break at the end of each
target phase, and the line of the finish that makes the targets mortal again.

`playOut_enter` plays out one phase: it runs its commands one after the other (`ControlOp.runAll`)
and then goes on with the next phase, or as after an abort.
-/

namespace BattleScript

/-! ## Undeclared scripts -/

namespace Notes

/-- Notes without declarations have the standard scripts. -/
def Regular (n : Notes) : Prop := n.declared = [] → n.sequence = .standard

/-- Whatever is declared is declared for a phase. -/
theorem regular_declare (n : Notes) (p : Phase) (lines : Script) : (n.declare p lines).Regular := by
  intro h
  have hdeclared : (if p ∈ n.declared then n.declared else n.declared ++ [p]) = [] := h
  split at hdeclared
  · next hp =>
    rw [hdeclared] at hp
    cases hp
  · exact absurd hdeclared (List.append_ne_nil_of_right_ne_nil _ (List.cons_ne_nil p []))

/-- Tags outside of blocks declare nothing. -/
theorem Regular.remark {n : Notes} (h : n.Regular) (line : List Char) :
    (n.remark line).Regular := by
  unfold Notes.remark
  repeat' split
  all_goals exact h

/-- Only the end of a block declares anything. -/
theorem Regular.step {r : Reader} (h : r.notes.Regular) (line : List Char) :
    (r.step line).notes.Regular := by
  unfold Reader.step
  dsimp only
  -- inside of a block its end declares it, outside only tags are read
  split
  · repeat' split
    · exact regular_declare _ _ _
    · exact h
    · exact h
  · split
    · exact h
    · exact h.remark _

/-- Notes without declarations have the standard scripts. -/
theorem regular_ofChars (cs : List Char) : (ofChars cs).Regular := by
  have hreader (lines : List (List Char)) :
      (lines.foldl Reader.step {}).notes.Regular :=
    List.foldlRecOn (motive := fun r : Reader => r.notes.Regular) lines _ (fun _ => rfl)
      fun _ h line _ => h.step line
  unfold ofChars Reader.close
  split
  · exact regular_declare _ _ _
  · exact hreader _

end Notes

namespace Database

/-- The notes of all entries are regular. -/
def Regular (d : Database) : Prop := ∀ r u, d.find? r = some u → u.notes.Regular

variable {d : Database}

theorem Regular.insertSkill (hd : d.Regular) {u : Usable} (hu : u.notes.Regular) :
    (d.insertSkill u).Regular := by
  intro r v h
  cases r with
  | item id => exact hd (.item id) v h
  | skill id =>
    rcases OrderedMap.eq_or_find?_of_insert h with rfl | h
    · exact hu
    · exact hd (.skill id) v h

theorem Regular.insertItem (hd : d.Regular) {u : Usable} (hu : u.notes.Regular) :
    (d.insertItem u).Regular := by
  intro r v h
  cases r with
  | skill id => exact hd (.skill id) v h
  | item id =>
    rcases OrderedMap.eq_or_find?_of_insert h with rfl | h
    · exact hu
    · exact hd (.item id) v h

/-- All entries of a database were read from notes. -/
theorem regular_ofSpecs (skills items : List ItemSpec) : (ofSpecs skills items).Regular := by
  have hbuild (spec : ItemSpec) : spec.build.notes.Regular := Notes.regular_ofChars _
  have hempty : Regular {} := by
    intro r u h
    cases r <;> cases h
  have hskills : Regular (skills.foldl (fun d s => d.insertSkill s.build) {}) :=
    List.foldlRecOn (motive := Regular) skills _ hempty fun _ hd spec _ =>
      hd.insertSkill (hbuild spec)
  exact List.foldlRecOn (motive := Regular) items _ hskills fun _ hd spec _ =>
    hd.insertItem (hbuild spec)

/-- A copy chain ends with an entry of the database, or where it began. -/
theorem Regular.copySource (hd : d.Regular) {entry : Usable} (h : entry.notes.Regular)
    (seen : List ItemRef) : (d.copySource entry seen).notes.Regular := by
  induction entry, seen using copy_induction d with
  | stop entry seen hstop => rwa [copySource_of_stop hstop]
  | step entry seen next copied hcopy hseen hfind ih =>
    rw [copySource_of_fresh hcopy hseen hfind]
    exact ih (hd next copied hfind)

end Database

/-- **When the standard sequence is used.** If the entry at the end of the copy chain of what is
used declares no scripts, the action runs the standard ones. -/
theorem Scenario.sequence_eq_standard {s : Scenario} {b : Battle} {r : Runner}
    (h : s.build? = .ok (b, r))
    (hnone : ∀ entry, s.database.find? s.item = some entry →
      (s.database.copySource entry [s.item]).notes.declared = []) : r.sequence = .standard := by
  unfold build? at h
  split at h
  · cases h
  · split at h
    · cases h
    · cases h
      show (s.database.sequence? s.item).getD .standard = .standard
      unfold Database.sequence?
      cases hfind : s.database.find? s.item with
      | none => rfl
      | some entry =>
        have hregular : s.database.Regular := Database.regular_ofSpecs _ _
        exact hregular.copySource (hregular _ entry hfind) _ (hnone entry hfind)

/-- A skill without notes runs the standard sequence. -/
theorem Scenario.sequence_solo :
    (Runner.start solo.battle solo.context).1.sequence = .standard := by
  refine sequence_eq_standard build?_solo fun entry hentry => ?_
  cases hentry
  rw [Database.copySource_of_none rfl]
  rfl

/-! ## Immortality -/

/-- The battler after it was made immortal, or mortal again. If it dies of that, it collapses. -/
def Battler.switchImmortal (on : Bool) (x : Battler) : Battler :=
  if !x.isDead && (x.setImmortal on).isDead then (x.setImmortal on).markCollapsed.2
  else x.setImmortal on

/-- The battlers after one of them was made immortal, or mortal again. -/
def Roster.switchImmortal (on : Bool) (r : Roster) (id : BattlerId) : Roster :=
  r.modify id (Battler.switchImmortal on)

/-- Whether the battler at a place is missing, dead or without HP. -/
def Roster.hasFallen (r : Roster) (id : BattlerId) : Bool :=
  (r.get? id).all fun x => x.isDead || x.hp ≤ 0

/-- The battlers after the standard sequence: the targets were made immortal, and mortal again
unless the user had fallen by then. -/
def Roster.afterStandard (r : Roster) (subject : BattlerId) (targets : List BattlerId) : Roster :=
  let shielded := targets.foldl (switchImmortal true) r
  if shielded.hasFallen subject then shielded
  else targets.foldl (switchImmortal false) shielded

namespace ControlOp

/-- A death break looks at the roster only. -/
theorem hasFallen_eq (c : ActionContext) (b : Battle) :
    hasFallen c b = b.roster.hasFallen c.subject := by
  unfold hasFallen Roster.hasFallen
  cases b.roster.get? c.subject <;> rfl

/-- The collapse that may follow is shown, and marked on the battler itself. -/
theorem roster_setImmortal (on : Bool) (b : Battle) (id : BattlerId) :
    (setImmortal on b id).roster = b.roster.switchImmortal on id := by
  refine Roster.ext_get? fun j => ?_
  rw [Roster.switchImmortal, Roster.get?_modify]
  unfold setImmortal
  -- place by place; only that of the battler is changed, if there is one
  cases hx : b.roster.get? id with
  | none =>
    dsimp only
    split
    · next hj =>
      rw [hj, hx]
      rfl
    · rfl
  | some x =>
    have hmodify (y : Battler) (hy : y = x.switchImmortal on) :
        (b.roster.modify id fun _ => y).get? j =
          if j = id then (b.roster.get? j).map (Battler.switchImmortal on)
          else b.roster.get? j := by
      rw [Roster.get?_modify]
      split
      · next hj =>
        rw [hj, hx, hy]
        rfl
      · rfl
    dsimp only
    split
    · next hdies =>
      have hy : (x.setImmortal on).markCollapsed.2 = x.switchImmortal on :=
        (if_pos hdies).symm
      split
      · exact hmodify _ hy
      · exact hmodify _ hy
    · next hlives =>
      have hy : x.setImmortal on = x.switchImmortal on := (if_neg hlives).symm
      exact hmodify _ hy

theorem roster_foldl_setImmortal (on : Bool) (ids : List BattlerId) (b : Battle) :
    (ids.foldl (setImmortal on) b).roster = ids.foldl (Roster.switchImmortal on) b.roster := by
  induction ids generalizing b with
  | nil => rfl
  | cons id ids ih => rw [List.foldl_cons, List.foldl_cons, ih, roster_setImmortal]

end ControlOp

/-! ## Control commands in a row -/

namespace ControlOp

/-- A command that changes nothing about the battlers and does not abort. -/
def Gentle (op : ControlOp) : Prop := op ≠ .deathBreak ∧ ∀ target on, op ≠ .immortal target on

/-- Runs commands to the end or to the first abort. -/
def runAll (c : ActionContext) : List ControlOp → Battle → InterpreterState × Battle
  | [], b => (.completed, b)
  | op :: ops, b =>
    if (op.run c b).1 = .abort then (.aborted, (op.run c b).2) else runAll c ops (op.run c b).2

/-- A strike is shown, and its cooldowns are changed. -/
theorem roster_strike (c : ActionContext) (b : Battle) (id : BattlerId) :
    (strike c b id).roster = b.roster := by
  unfold strike Battle.applyCooldownChanges
  split <;> rfl

variable {op : ControlOp} {ops : List ControlOp}

/-- Gentle commands leave the battlers alone. -/
theorem Gentle.roster_run (h : op.Gentle) (c : ActionContext) (b : Battle) :
    (op.run c b).2.roster = b.roster := by
  cases op with
  | immortal target on => exact absurd rfl (h.2 target on)
  | actionEffect target =>
    exact List.foldlRecOn (motive := fun e : Battle => e.roster = b.roster) _ _ rfl
      fun e he id _ => (roster_strike c e id).trans he
  | perform p =>
    cases p with
    | finish =>
      simp only [run]
      split <;> rfl
    | start | action => rfl
  | wait | waitFor | displayAction | clearBattleLog => rfl
  | motionWait | deathBreak | castAnimation | actionAnimation =>
    simp only [run]
    split <;> rfl

/-- Gentle commands let the script go on. -/
theorem Gentle.signal_ne_abort (h : op.Gentle) (c : ActionContext) (b : Battle) :
    (op.run c b).1 ≠ .abort := by
  rw [ne_eq, signal_eq_abort_iff]
  exact fun habort => h.1 habort.1

/-- Gentle commands are run through, and leave the battlers to what comes after them. -/
theorem runAll_append (h : ∀ op ∈ ops, op.Gentle) (rest : List ControlOp) (c : ActionContext)
    (b : Battle) :
    ∃ e : Battle, e.roster = b.roster ∧ runAll c (ops ++ rest) b = runAll c rest e := by
  induction ops generalizing b with
  | nil => exact ⟨b, rfl, rfl⟩
  | cons op ops ih =>
    obtain ⟨hop, hops⟩ := List.forall_mem_cons.mp h
    obtain ⟨e, hroster, hrun⟩ := ih hops (op.run c b).2
    refine ⟨e, hroster.trans (hop.roster_run c b), ?_⟩
    rw [List.cons_append, runAll, if_neg (hop.signal_ne_abort c b), hrun]

/-- Gentle commands alone are completed and leave the battlers alone. -/
theorem runAll_gentle (h : ∀ op ∈ ops, op.Gentle) (c : ActionContext) (b : Battle) :
    (runAll c ops b).1 = .completed ∧ (runAll c ops b).2.roster = b.roster := by
  obtain ⟨e, hroster, hrun⟩ := runAll_append h [] c b
  rw [List.append_nil] at hrun
  rw [hrun]
  exact ⟨rfl, hroster⟩

/-! What the three scripts with commands in them do. -/

/-- The commands of the standard setup. -/
def standardSetup : List ControlOp :=
  [.displayAction, .immortal (some "targets") true, .perform .start, .waitFor .movement,
    .castAnimation, .waitFor .animation]

/-- The commands of the standard target phase. -/
def standardTarget : List ControlOp :=
  [.perform .action, .actionAnimation none false, .waitFor .animation, .actionEffect none,
    .deathBreak]

/-- The commands of the standard finish. -/
def standardFinish : List ControlOp :=
  [.immortal (some "targets") false, .waitFor .newLine, .clearBattleLog, .perform .finish,
    .waitFor .movement, .waitFor .effect]

/-- The setup makes the targets immortal. -/
theorem runAll_setup (c : ActionContext) (b : Battle) :
    (runAll c standardSetup b).1 = .completed ∧
      (runAll c standardSetup b).2.roster =
        c.targets.foldl (Roster.switchImmortal true) b.roster := by
  -- the first command is shown, the second one makes immortal, and the rest is gentle
  let rest : List ControlOp :=
    [.perform .start, .waitFor .movement, .castAnimation, .waitFor .animation]
  let announced := b.request (.displayAction c.subject c.item)
  have hrun : runAll c standardSetup b =
      runAll c rest (c.targets.foldl (setImmortal true) announced) := rfl
  have hgentle : ∀ op ∈ rest, op.Gentle := by simp [rest, Gentle]
  obtain ⟨hdone, hroster⟩ := runAll_gentle hgentle c (c.targets.foldl (setImmortal true) announced)
  rw [hrun]
  refine ⟨hdone, hroster.trans ?_⟩
  exact roster_foldl_setImmortal true c.targets announced

/-- A target phase leaves the battlers alone, and is aborted if the user has fallen. -/
theorem runAll_target (c : ActionContext) (b : Battle) :
    (runAll c standardTarget b).1 = (if hasFallen c b then .aborted else .completed) ∧
      (runAll c standardTarget b).2.roster = b.roster := by
  let before : List ControlOp :=
    [.perform .action, .actionAnimation none false, .waitFor .animation, .actionEffect none]
  have hgentle : ∀ op ∈ before, op.Gentle := by simp [before, Gentle]
  obtain ⟨e, hroster, hrun⟩ := runAll_append hgentle [.deathBreak] c b
  have hrun : runAll c standardTarget b = runAll c [.deathBreak] e := hrun
  rw [hrun, hasFallen_eq, ← hroster, ← hasFallen_eq]
  cases hfallen : hasFallen c e <;> simp [runAll, run, hfallen]

/-- The finish makes the targets mortal. -/
theorem runAll_finish (c : ActionContext) (b : Battle) :
    (runAll c standardFinish b).1 = .completed ∧
      (runAll c standardFinish b).2.roster =
        c.targets.foldl (Roster.switchImmortal false) b.roster := by
  let rest : List ControlOp :=
    [.waitFor .newLine, .clearBattleLog, .perform .finish, .waitFor .movement, .waitFor .effect]
  have hrun : runAll c standardFinish b =
      runAll c rest (c.targets.foldl (setImmortal false) b) := rfl
  have hgentle : ∀ op ∈ rest, op.Gentle := by simp [rest, Gentle]
  obtain ⟨hdone, hroster⟩ := runAll_gentle hgentle c (c.targets.foldl (setImmortal false) b)
  rw [hrun]
  exact ⟨hdone, hroster.trans (roster_foldl_setImmortal false c.targets b)⟩

/-! ## Lines that are control commands -/

/-- The lines are these control commands. -/
def Reads (lines : Script) (ops : List ControlOp) : Prop :=
  lines.map (fun line => ofCommand? (.ofLine line)) = ops.map some

instance (lines : Script) (ops : List ControlOp) : Decidable (Reads lines ops) := by
  unfold Reads
  infer_instance

theorem reads_setup : Reads ActionSequence.standard.setup standardSetup := by decide

theorem reads_target : Reads ActionSequence.standard.target standardTarget := by decide

theorem reads_finish : Reads ActionSequence.standard.finish standardFinish := by decide

end ControlOp

open ControlOp (Reads runAll)

/-- Running the lines is running their commands. -/
theorem Interpreter.runThrough_reads {lines : Script} {ops : List ControlOp} (h : Reads lines ops)
    (scene : Scene) :
    (runThrough .standard lines scene).state = (runAll scene.context ops scene.battle).1 ∧
      (runThrough .standard lines scene).scene =
        { scene with battle := (runAll scene.context ops scene.battle).2 } := by
  -- line by line, each with the command that it reads as
  induction lines generalizing ops scene with
  | nil =>
    cases ops with
    | nil => exact ⟨rfl, rfl⟩
    | cons op ops => cases h
  | cons line lines ih =>
    cases ops with
    | nil => cases h
    | cons op ops =>
      obtain ⟨hop, hops⟩ := List.cons.inj h
      have hrecord := Chain.dispatch_control hop scene
      rw [runThrough, runAll]
      simp only [Chain.record, hrecord]
      split
      · exact ⟨rfl, rfl⟩
      · exact ih hops _

namespace Runner

variable {r : Runner} {p : Phase} {ops : List ControlOp}

/-! ## Phases -/

/-- What comes after a phase does not depend on how its script was played. -/
theorem afterScript_enter (hp : p ≠ .finish) (i : Interpreter) (state : InterpreterState) :
    ({ r.enter p with interpreter := i } : Runner).afterScript p state = r.afterScript p state := by
  have hadvance : ({ r.enter p with interpreter := i } : Runner).advance p = r.advance p := by
    obtain ⟨sequence, context, declared, pending, phase, interpreter⟩ := r
    cases p with
    | finish => exact absurd rfl hp
    | setup | follow => rfl
    | whole => cases declared <;> rfl
    | target => cases pending <;> rfl
  have habort : ({ r.enter p with interpreter := i } : Runner).abort p = r.abort p := by
    cases p with
    | finish => exact absurd rfl hp
    | setup | whole | target | follow => rfl
  cases state <;> simp only [afterScript, hadvance, habort]

/-- The script of a phase that is just entered is run command by command. -/
theorem runScript_enter (h : Reads (r.sequence.script p) ops) (b : Battle) :
    ∃ i, i.state = (runAll r.context ops b).1 ∧
      (r.enter p).runScript .standard b =
        ({ r.enter p with interpreter := i }, (runAll r.context ops b).2) := by
  obtain ⟨hstate, hscene⟩ := Interpreter.runThrough_reads h ⟨b, r.context⟩
  let s := Interpreter.runThrough .standard (r.sequence.script p) ⟨b, r.context⟩
  refine ⟨{ Interpreter.load (r.sequence.script p) with
    cursor := 0 + s.taken, state := s.state }, hstate, ?_⟩
  show (({ r.enter p with interpreter := _, context := s.scene.context } : Runner),
    s.scene.battle) = _
  rw [hscene]
  rfl

/-- Without a target to come, the targets are restored and the follow phase begins. -/
theorem nextTarget_nil (h : r.pending = []) : r.nextTarget = r.enterFollow := by
  rw [nextTarget, h]

/-- With a target to come, its target phase begins. -/
theorem nextTarget_cons {t : BattlerId} {rest : List BattlerId} (h : r.pending = t :: rest) :
    r.nextTarget = ({ r with
      pending := rest
      context := { r.context with targets := [t] } } : Runner).enter .target := by
  rw [nextTarget, h]

/-- Every phase but the last is followed by another. -/
theorem isFinished_advance (r : Runner) (hp : p ≠ .finish) : (r.advance p).isFinished = false := by
  rw [isFinished, advance_phase]
  split
  · rfl
  · split
    · rfl
    · cases p with
      | finish => exact absurd rfl hp
      | setup | whole | target | follow => rfl

/-- An action does not finish before its last phase. -/
theorem isFinished_afterScript {state : InterpreterState} {next : Runner} (hp : p ≠ .finish)
    (h : r.afterScript p state = some next) : next.isFinished = false := by
  unfold afterScript at h
  split at h
  · cases h
    exact isFinished_advance r hp
  · cases h
    cases p with
    | finish => exact absurd rfl hp
    | setup | whole | target | follow => exact isFinished_advance r.dropTargets (by decide)
  · cases h

/-- **Playing out a phase**: its commands are run, and then it goes on with what comes after. -/
theorem playOut_enter (hp : p ≠ .finish) (h : Reads (r.sequence.script p) ops) {next : Runner}
    (b : Battle) (hnext : r.afterScript p (runAll r.context ops b).1 = some next) :
    (r.enter p).playOut .standard b = next.playOut .standard (runAll r.context ops b).2 := by
  obtain ⟨i, hstate, hscript⟩ := runScript_enter h b
  have hafter : ({ r.enter p with interpreter := i } : Runner).afterScript p i.state = some next :=
    (afterScript_enter hp i i.state).trans (hstate ▸ hnext)
  -- there is more to come, so the battle is not settled yet
  have hsettle : next.settle (runAll r.context ops b).2 = (runAll r.context ops b).2 :=
    if_neg (Bool.eq_false_iff.mp (isFinished_afterScript hp hnext))
  have hphase : (r.enter p).phase = some p := rfl
  rw [playOut_eq, hphase]
  simp only [hscript, hafter, hsettle]

/-- The last phase leaves the battlers as its commands do. -/
theorem playOut_enter_finish (h : Reads (r.sequence.script .finish) ops) (b : Battle)
    (hdone : (runAll r.context ops b).1 = .completed) :
    ((r.enter .finish).playOut .standard b).roster = (runAll r.context ops b).2.roster := by
  obtain ⟨i, hstate, hscript⟩ := runScript_enter h b
  have hphase : (r.enter .finish).phase = some .finish := rfl
  rw [playOut_eq, hphase]
  simp only [hscript, hstate, hdone, afterScript]
  rw [playOut_of_isFinished .standard rfl]
  rfl

/-! ## The phases of the standard sequence -/

section

variable (hr : r.sequence = .standard)

include hr

/-- The setup is played out with the targets immortal. -/
theorem playOut_setup (b : Battle) :
    ∃ e : Battle, e.roster = r.context.targets.foldl (Roster.switchImmortal true) b.roster ∧
      (r.enter .setup).playOut .standard b = (r.enter .whole).playOut .standard e := by
  have hreads : Reads (r.sequence.script .setup) ControlOp.standardSetup :=
    hr ▸ ControlOp.reads_setup
  obtain ⟨hdone, hroster⟩ := ControlOp.runAll_setup r.context b
  refine ⟨_, hroster, ?_⟩
  exact playOut_enter (by decide) hreads b (by rw [hdone]; rfl)

/-- The whole phase has no lines, and goes on with the first target. -/
theorem playOut_whole (b : Battle) :
    (r.enter .whole).playOut .standard b =
      ({ r with pending := r.declared } : Runner).nextTarget.playOut .standard b := by
  have hreads : Reads (r.sequence.script .whole) [] := by
    rw [hr]
    rfl
  exact playOut_enter (by decide) hreads b rfl

/-- The target phase of the next target: if the user has fallen it is the last, and nobody is a
target any more. -/
theorem playOut_nextTarget {t : BattlerId} {rest : List BattlerId}
    (hpending : r.pending = t :: rest) (b : Battle) :
    ∃ e : Battle, e.roster = b.roster ∧
      r.nextTarget.playOut .standard b =
        (if ControlOp.hasFallen r.context b then r.dropTargets.enterFollow
        else ({ r with
          pending := rest
          context := { r.context with targets := [t] } } : Runner).nextTarget).playOut .standard
            e := by
  let s : Runner := { r with pending := rest, context := { r.context with targets := [t] } }
  have hs : s.sequence = .standard := hr
  have hreads : Reads (s.sequence.script .target) ControlOp.standardTarget :=
    hs ▸ ControlOp.reads_target
  obtain ⟨hstate, hroster⟩ := ControlOp.runAll_target s.context b
  have hsubject : ControlOp.hasFallen s.context b = ControlOp.hasFallen r.context b := rfl
  refine ⟨_, hroster, ?_⟩
  rw [nextTarget_cons hpending]
  refine playOut_enter (by decide) hreads b ?_
  rw [hstate, hsubject]
  cases ControlOp.hasFallen r.context b <;> rfl

/-- As long as the user has not fallen, the target phases are played one after the other. -/
theorem playOut_targets (b : Battle) (h : ControlOp.hasFallen r.context b = false) :
    ∃ e : Battle, e.roster = b.roster ∧
      r.nextTarget.playOut .standard b =
        ({ r with pending := [] } : Runner).enterFollow.playOut .standard e := by
  generalize hpending : r.pending = pending
  -- target by target; striking one does not let the user fall
  induction pending generalizing r b with
  | nil =>
    have hsame : ({ r with pending := [] } : Runner) = r := by rw [← hpending]
    refine ⟨b, rfl, ?_⟩
    rw [nextTarget_nil hpending, hsame]
  | cons t rest ih =>
    obtain ⟨e, he, hplay⟩ := playOut_nextTarget hr hpending b
    let s : Runner := { r with pending := rest, context := { r.context with targets := [t] } }
    have hstands : ControlOp.hasFallen s.context e = false := by
      rw [ControlOp.hasFallen_eq, he, ← ControlOp.hasFallen_eq]
      exact h
    obtain ⟨f, hf, hrest⟩ := ih (r := s) hr e hstands rfl
    refine ⟨f, hf.trans he, ?_⟩
    rw [hplay, if_neg (Bool.eq_false_iff.mp h)]
    exact hrest

/-- The last two phases make the declared targets mortal. -/
theorem roster_playOut_enterFollow (b : Battle) :
    (r.enterFollow.playOut .standard b).roster =
      r.declared.foldl (Roster.switchImmortal false) b.roster := by
  let s : Runner := { r with context := { r.context with targets := r.declared } }
  have hfollow : Reads (s.sequence.script .follow) [] := by
    rw [show s.sequence = .standard from hr]
    rfl
  have hfinish : Reads (s.sequence.script .finish) ControlOp.standardFinish :=
    (show s.sequence = .standard from hr) ▸ ControlOp.reads_finish
  -- the follow phase has no lines
  have hplay : (s.enter .follow).playOut .standard b = (s.enter .finish).playOut .standard b :=
    playOut_enter (by decide) hfollow b rfl
  obtain ⟨hdone, hroster⟩ := ControlOp.runAll_finish s.context b
  show ((s.enter .follow).playOut .standard b).roster = _
  rw [hplay, playOut_enter_finish hfinish b hdone, hroster]

end

/-- **The battlers after the standard sequence.** -/
theorem roster_playOut_standard {r : Runner} (hr : r.sequence = .standard)
    (htargets : r.declared = r.context.targets) (b : Battle) :
    ((r.enter .setup).playOut .standard b).roster =
      b.roster.afterStandard r.context.subject r.context.targets := by
  obtain ⟨e, he, hsetup⟩ := playOut_setup hr b
  let s : Runner := { r with pending := r.declared }
  rw [hsetup, playOut_whole hr, Roster.afterStandard, ← he]
  by_cases hfallen : e.roster.hasFallen r.context.subject = true
  · rw [if_pos hfallen]
    rw [← ControlOp.hasFallen_eq] at hfallen
    by_cases hnone : r.declared = []
    · -- nobody is a target anyway
      have hnext : s.nextTarget = s.enterFollow := nextTarget_nil hnone
      have hdeclared : s.declared = [] := hnone
      rw [hnext, roster_playOut_enterFollow (r := s) hr, hdeclared]
      rfl
    · obtain ⟨t, rest, hpending⟩ := List.exists_cons_of_ne_nil hnone
      obtain ⟨f, hf, hplay⟩ := playOut_nextTarget (r := s) hr hpending e
      rw [hplay, if_pos hfallen, roster_playOut_enterFollow (r := s.dropTargets) hr, hf]
      rfl
  · rw [if_neg hfallen]
    rw [← ControlOp.hasFallen_eq] at hfallen
    obtain ⟨f, hf, hplay⟩ :=
      playOut_targets (r := s) hr e (Bool.eq_false_iff.mpr hfallen)
    rw [hplay, roster_playOut_enterFollow (r := { s with pending := [] }) hr, hf, ← htargets]

end Runner

end BattleScript
