import BattleScript.Proofs.Standard.Family
import BattleScript.Proofs.Target.Commands

/-!
# Targets in any order

A command that gives its targets a treatment (`Command.Treats`) does not care in which order they
come. Whatever the order, the battlers end the same, and each of them as if it had been the only
target, as often as it is listed (`Command.targets_in_any_order`). The stage is asked for the same
things, perhaps in another order; that the status be shown anew it is asked once, at the end, or
not at all.
-/

namespace BattleScript

open EffectOp (Progress settleProgress)

namespace Command

variable {command : Command} {c : ActionContext} {target : Option String}

/-- A command run by the standard packs, with given battlers for the targets of the action. -/
def runOn (command : Command) (c : ActionContext) (ids : List BattlerId) (b : Battle) :
    Signal × Battle :=
  let out := Chain.standard.dispatch command ⟨b, { c with targets := ids }⟩
  (out.1, out.2.battle)

/-- The commands that change battlers, and for whom they are meant. -/
inductive Affects (command : Command) : Option String → Prop
  | pool {p amount target report} :
    EffectOp.ofCommand? command = some (.pool p amount target report) → Affects command target
  | buff {change param target turns report} :
    EffectOp.ofCommand? command = some (.buff change param target turns report) →
      Affects command target
  | state {add states target report} :
    EffectOp.ofCommand? command = some (.state add states target report) → Affects command target
  | immortal {target on} :
    ControlOp.ofCommand? command = some (.immortal target on) → Affects command target
  | collapse {target force} :
    EffectOp.ofCommand? command = some (.collapse target force) → Affects command target

/-- A command gives its targets a treatment that may depend on the variables of the battle. How it
goes on depends on whether there are any. -/
structure Treats (command : Command) (c : ActionContext) (f : Variables → Treatment) : Prop where
  signal : ∃ nobody somebody, ∀ ids b,
    (command.runOn c ids b).1 = if ids.isEmpty then nobody else somebody
  outcome : ∀ ids b, ∃ acc, (f b.variables).Does ids (b, false) acc ∧
    (command.runOn c ids b).2 = settleProgress acc

/-- A command that is aimed at the targets of the action finds just these. -/
theorem targets_of_ofString? (h : target.bind TargetSpec.ofString? = some .targets)
    (c : ActionContext) (b : Battle) : b.targets c target = c.targets := by
  rw [Battle.targets, resolveTargets, h]
  rfl

/-- What a command does on given targets is what its instruction does. -/
theorem runOn_effect {op : EffectOp} (h : EffectOp.ofCommand? command = some op)
    (ids : List BattlerId) (b : Battle) :
    command.runOn c ids b = op.run { c with targets := ids } b := by
  rw [runOn, Chain.dispatch_effect h]

theorem runOn_control {op : ControlOp} (h : ControlOp.ofCommand? command = some op)
    (ids : List BattlerId) (b : Battle) :
    command.runOn c ids b = op.run { c with targets := ids } b := by
  rw [runOn, Chain.dispatch_control h]

/-! ## What follows for the battle -/

section Treats

variable {f : Variables → Treatment} (h : command.Treats c f) (ids : List BattlerId) (b : Battle)
include h

namespace Treats

/-- The battlers, as the treatment leaves them. -/
theorem roster : (command.runOn c ids b).2.roster = (f b.variables).roster b.roster ids := by
  obtain ⟨acc, hdoes, hrun⟩ := h.outcome ids b
  rw [hrun, settleProgress, Battle.refreshStatus]
  split <;> exact hdoes.roster

/-- A treatment changes no variables. -/
theorem variables_eq : (command.runOn c ids b).2.variables = b.variables := by
  obtain ⟨acc, hdoes, hrun⟩ := h.outcome ids b
  rw [hrun, settleProgress, Battle.refreshStatus]
  split <;> exact hdoes.variables

/-- A rule is breached if it was before, or by one of the targets. -/
theorem breach : (command.runOn c ids b).2.breach.isSome =
    (b.breach.isSome || ((f b.variables).marks b.roster ids).any Mark.isBreach) := by
  obtain ⟨acc, hdoes, hrun⟩ := h.outcome ids b
  rw [hrun, settleProgress, Battle.refreshStatus]
  split <;> exact hdoes.breach

/-- What the stage is asked: what comes of the treatment, and a refresh in the end if that is due.
-/
theorem history : (command.runOn c ids b).2.stage.history.toList =
    b.stage.history.toList ++ (Mark.requests ((f b.variables).marks b.roster ids) ++
      if ((f b.variables).marks b.roster ids).any Mark.isRefresh then [.refreshStatus]
      else []) := by
  obtain ⟨acc, hdoes, hrun⟩ := h.outcome ids b
  rw [hrun, settleProgress, ← Bool.false_or (((f b.variables).marks b.roster ids).any _),
    ← hdoes.refresh, ← List.append_assoc, ← hdoes.history]
  cases acc.2 with
  | true => exact Battle.history_request _ _
  | false => exact (List.append_nil _).symm

/-- Every battler was treated as often as its place is listed. -/
theorem get?_roster (id : BattlerId) : (command.runOn c ids b).2.roster.get? id =
    (b.roster.get? id).map (fun x => (f b.variables id x).battler)^[ids.count id] := by
  rw [h.roster, Treatment.get?_roster]

/-- Running the command on one battler again and again. -/
theorem get?_roster_iterate (id : BattlerId) (n : Nat) :
    ((fun b => (command.runOn c [id] b).2)^[n] b).roster.get? id =
      (b.roster.get? id).map (fun x => (f b.variables id x).battler)^[n] := by
  induction n generalizing b with
  | zero => exact Option.map_id'.symm
  | succ n ih =>
    rw [Function.iterate_succ_apply, ih, h.variables_eq, h.get?_roster, List.count_singleton_self,
      Option.map_map, Function.iterate_succ]
    rfl

end Treats

end Treats

/-! ## Every such command gives a treatment -/

/-- A command that goes through its targets and then has the status shown anew if that is due. -/
theorem treats_of_progress {f : Variables → Treatment} {one : Progress → BattlerId → Progress}
    (nobody somebody : Signal)
    (hone : ∀ acc id, (f acc.1.variables).Does [id] acc (one acc id))
    (hrun : ∀ ids b, command.runOn c ids b =
      if ids.isEmpty then (nobody, b)
      else (somebody, settleProgress (ids.foldl one (b, false)))) : command.Treats c f := by
  constructor
  · refine ⟨nobody, somebody, fun ids b => ?_⟩
    rw [hrun]
    cases ids <;> rfl
  · intro ids b
    refine ⟨ids.foldl one (b, false), ?_, ?_⟩
    · exact Treatment.does_foldl (fun acc => acc) (fun acc id hacc => hacc ▸ hone acc id) rfl ids
    · rw [hrun]
      cases ids <;> rfl

/-- A command that goes through its targets and leaves it at that. -/
theorem treats_of_battle {f : Treatment} {one : Battle → BattlerId → Battle}
    (signal : Signal)
    (hone : ∀ b id, f.Does [id] (b, false) (one b id, false))
    (hrun : ∀ ids b, command.runOn c ids b = (signal, ids.foldl one b)) :
    command.Treats c fun _ => f := by
  constructor
  · refine ⟨signal, signal, fun ids b => ?_⟩
    rw [hrun, ite_self]
  · intro ids b
    refine ⟨(ids.foldl one b, false), ?_, ?_⟩
    · exact Treatment.does_foldl (fun b => (b, false)) (fun b id _ => hone b id) rfl ids
    · rw [hrun]
      rfl

/-- A command that does nothing. -/
theorem treats_nothing (nobody somebody : Signal)
    (hrun : ∀ ids b, command.runOn c ids b =
      if ids.isEmpty then (nobody, b) else (somebody, b)) :
    command.Treats c fun _ => .nothing := by
  refine treats_of_progress nobody somebody Treatment.does_nothing fun ids b => ?_
  rw [hrun, List.foldl_fixed]
  rfl

variable (htarget : target.bind TargetSpec.ofString? = some .targets)
include htarget

/-- The treatment of a command for a pool is known: it is the amount, of each target's own
maximum. -/
theorem treats_pool {p : Pool} {a : Amount} {report : Bool}
    (h : EffectOp.ofCommand? command = some (.pool p (some a) target report)) :
    command.Treats c (.pool p a report) := by
  refine treats_of_progress .yield .proceed
    (Treatment.does_pool p a report) fun ids b => ?_
  rw [runOn_effect h, EffectOp.run, targets_of_ofString? htarget]

/-- Every command of the six families gives a treatment. -/
theorem Affects.exists_treats (h : command.Affects target) : ∃ f, command.Treats c f := by
  -- an amount or a parameter that cannot be read leaves nothing to treat
  cases h with
  | @pool p amount target report h =>
    cases amount with
    | none =>
      refine ⟨_, treats_nothing .yield .yield fun ids b => ?_⟩
      rw [runOn_effect h, EffectOp.run, targets_of_ofString? htarget]
    | some a => exact ⟨_, treats_pool htarget h⟩
  | @buff change param target turns report h =>
    cases param with
    | none =>
      refine ⟨_, treats_nothing .yield .proceed fun ids b => ?_⟩
      rw [runOn_effect h, EffectOp.run, targets_of_ofString? htarget]
    | some p =>
      refine ⟨fun _ => .buff change p turns report,
        treats_of_progress .yield .proceed
          (Treatment.does_buff change p turns report) fun ids b => ?_⟩
      rw [runOn_effect h, EffectOp.run, targets_of_ofString? htarget]
  | @state add states target report h =>
    refine ⟨fun _ => .states add report states,
      treats_of_progress .yield .proceed
        (Treatment.does_states add report states) fun ids b => ?_⟩
    rw [runOn_effect h, EffectOp.run, targets_of_ofString? htarget]
  | @immortal target on h =>
    refine ⟨_, treats_of_battle .proceed (Treatment.does_immortal on) fun ids b => ?_⟩
    rw [runOn_control h, ControlOp.run, targets_of_ofString? htarget]
  | @collapse target force h =>
    refine ⟨_, treats_of_battle .yield (Treatment.does_collapse force) fun ids b => ?_⟩
    rw [runOn_effect h, EffectOp.run, targets_of_ofString? htarget]

omit htarget

/-- **Targets can come in any order.** A command that changes pools, buffs, states or immortality,
or lets battlers collapse, is aimed at the targets of the action, however often each of them is
listed.

- Listed in another order, they make it go on in the same way, leave the same battlers, ask the
  stage for the same things up to the order, and break a rule in both cases or in neither.
- Each battler ends as if the command had been run on it alone, as often as it is listed.
- In particular a pool is changed that often, and a percentage is each time one of the maximum that
  the battler itself has then. -/
theorem targets_in_any_order (haffects : command.Affects target)
    (htarget : target.bind TargetSpec.ofString? = some .targets) (c : ActionContext) (b : Battle) :
    (∀ ids ids' : List BattlerId, ids.Perm ids' →
      (command.runOn c ids b).1 = (command.runOn c ids' b).1 ∧
      (command.runOn c ids b).2.roster = (command.runOn c ids' b).2.roster ∧
      (∃ rs rs', (command.runOn c ids b).2.stage.history.toList = b.stage.history.toList ++ rs ∧
        (command.runOn c ids' b).2.stage.history.toList = b.stage.history.toList ++ rs' ∧
        rs.Perm rs') ∧
      (command.runOn c ids b).2.breach.isSome = (command.runOn c ids' b).2.breach.isSome) ∧
    (∀ ids id, (command.runOn c ids b).2.roster.get? id =
      ((fun b => (command.runOn c [id] b).2)^[ids.count id] b).roster.get? id) ∧
    ∀ p a report, EffectOp.ofCommand? command = some (.pool p (some a) target report) →
      ∀ ids id, (command.runOn c ids b).2.roster.get? id = (b.roster.get? id).map
        (fun x => x.gain p (a.resolve b.variables.get (x.maxPool p)))^[ids.count id] := by
  obtain ⟨f, htreats⟩ := haffects.exists_treats (c := c) htarget
  refine ⟨?_, ?_, ?_⟩
  · intro ids ids' hperm
    -- requests and breach are read off the marks, which are the same up to their order
    have hmarks := (f b.variables).marks_perm b.roster hperm
    obtain ⟨nobody, somebody, hsignal⟩ := htreats.signal
    refine ⟨?_, ?_, ⟨_, _, htreats.history ids b, htreats.history ids' b, ?_⟩, ?_⟩
    · rw [hsignal, hsignal, hperm.isEmpty_eq]
    · rw [htreats.roster, htreats.roster, (f b.variables).roster_perm b.roster hperm]
    · rw [hmarks.any_eq]
      exact (hmarks.filterMap Mark.request?).append_right _
    · rw [htreats.breach, htreats.breach, hmarks.any_eq]
  · intro ids id
    rw [htreats.get?_roster_iterate, htreats.get?_roster]
  · intro p a report hpool ids id
    rw [(treats_pool htarget hpool).get?_roster]
    rfl

/-- Ann is listed twice and loses a quarter of her maximum twice, whether the bat comes in between
or not. -/
theorem targets_in_any_order_duel :
    let command := ofLine "hp -25%: targets, show"
    let c : ActionContext := ⟨.actor 0, [], .skill 1⟩
    let b : Battle := .ofRoster {} ⟨[.fresh "Ann" 1 100 0], [.fresh "Bat" 1 40 0]⟩ {} {}
    let ids : List BattlerId := [.actor 0, .enemy 0, .actor 0]
    let ids' : List BattlerId := [.enemy 0, .actor 0, .actor 0]
    ids.Perm ids' ∧ (command.runOn c ids b).2.roster = (command.runOn c ids' b).2.roster ∧
      ((command.runOn c ids b).2.roster.get? (.actor 0)).map (·.hp) = some 50 ∧
      ((command.runOn c ids b).2.roster.get? (.enemy 0)).map (·.hp) = some 30 := by
  intro command c b ids ids'
  have hop : EffectOp.ofCommand? command =
      some (.pool .hp (some ⟨true, .literal 25, true⟩) (some "targets") true) := by decide +kernel
  obtain ⟨hany, -, hpool⟩ := targets_in_any_order (.pool hop) (by decide +kernel) c b
  have hperm : ids.Perm ids' := by decide
  refine ⟨hperm, (hany ids ids' hperm).2.1, ?_, ?_⟩
  · rw [hpool _ _ _ hop]
    decide +kernel
  · rw [hpool _ _ _ hop]
    decide +kernel

end Command

end BattleScript
