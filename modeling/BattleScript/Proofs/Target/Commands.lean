import BattleScript.Opcode.Control
import BattleScript.Opcode.EffectRun
import BattleScript.Proofs.Target.Treatment

/-!
# What commands do to their targets

The commands that change pools, buffs, states or immortality, and the one that lets battlers
collapse, work on one target after the other, and the roster changes under their hands. But each
of them only looks at the battler that it has come to and at the variables of the battle, which
none of them changes: it gives its targets a `Treatment`. `Treatment.Does` says that this, and
nothing else that matters to a treatment, was done; there is one such lemma for each kind of
command.
-/

namespace BattleScript

open EffectOp (Progress applyBuff applyState poolMessage noteBreach)

theorem Battle.history_request (b : Battle) (r : StageRequest Float) :
    (b.request r).stage.history.toList = b.stage.history.toList ++ [r] :=
  Array.toList_push

/-- Nothing else is touched when a breach is noted. -/
theorem EffectOp.exists_noteBreach_eq (b : Battle) (id : BattlerId) (p : Pool) (x : Battler) :
    ∃ breach, noteBreach b id p x = { b with breach := breach } := by
  unfold noteBreach
  split
  · exact ⟨_, rfl⟩
  · exact ⟨b.breach, rfl⟩

/-! ## The treatments -/

namespace Treatment

/-- How a change of a battler is told, if asked for, and that it is of an actor. -/
def told (report : Bool) (id : BattlerId) (message : String) : List Mark :=
  (if report then [.ask (.displayResults id message)] else []) ++
    if id.isActor then [.refresh] else []

/-- A change of a buff. -/
def buff (change : BuffChange) (p : Param) (turns : Nat) (report : Bool) : Treatment := fun id x =>
  match applyBuff change p turns x with
  | none => ⟨x, []⟩
  | some (message, y) => ⟨y, told report id (y.name ++ "'s " ++ p.label ++ " " ++ message)⟩

/-- A state that is added or removed. -/
def state (add report : Bool) (s : Nat) : Treatment := fun id x =>
  match applyState add s x with
  | none => ⟨x, []⟩
  | some (message, y) => ⟨y, told report id message⟩

/-- States that are added or removed, one after the other. -/
def states (add report : Bool) : List Nat → Treatment
  | [] => fun _ x => ⟨x, []⟩
  | s :: rest => (state add report s).andThen (states add report rest)

/-- That a pool cannot be kept below its maximum. -/
def noted (p : Pool) (x : Battler) : List Mark := if x.maxPool p < 0 then [.breach] else []

/-- How a change of a pool is told, if asked for. -/
def counted (report : Bool) (id : BattlerId) (message : String) : List Mark :=
  if report then .ask (.damagePopup id) :: told true id message else []

/-- A change of a pool, of which a percentage is one of the battler's own maximum. -/
def pool (p : Pool) (amount : Amount) (report : Bool) (v : Variables) : Treatment := fun id x =>
  let y := x.gain p (amount.resolve v.get (x.maxPool p))
  ⟨y, noted p x ++ counted report id (poolMessage y.name p (y.pool p - x.pool p))⟩

/-- The collapse of a battler that is dead and has not collapsed. -/
def falling (id : BattlerId) (x : Battler) : Treated :=
  ⟨x.markCollapsed.2, if x.markCollapsed.1 then [.ask (.collapse id)] else []⟩

/-- The collapse of the dead, by force also of the living. -/
def collapse (force : Bool) : Treatment := fun id x =>
  let y := if force then ((x.setImmortal false).addState x.deathState).2 else x
  if y.isDead then falling id y else ⟨y, []⟩

/-- Immortality given or taken; those who die of it collapse. -/
def immortal (on : Bool) : Treatment := fun id x =>
  let y := x.setImmortal on
  if !x.isDead && y.isDead then falling id y else ⟨y, []⟩

/-- No treatment. -/
def nothing : Treatment := fun _ x => ⟨x, []⟩

end Treatment

/-! ## Treating battlers in a battle -/

/-- The battlers of a battle were treated in turn, and nothing else that matters to it was done. -/
structure Treatment.Does (f : Treatment) (ids : List BattlerId) (acc acc' : Progress) : Prop where
  roster : acc'.1.roster = f.roster acc.1.roster ids
  history : acc'.1.stage.history.toList =
    acc.1.stage.history.toList ++ Mark.requests (f.marks acc.1.roster ids)
  refresh : acc'.2 = (acc.2 || (f.marks acc.1.roster ids).any Mark.isRefresh)
  breach : acc'.1.breach.isSome =
    (acc.1.breach.isSome || (f.marks acc.1.roster ids).any Mark.isBreach)
  «variables» : acc'.1.variables = acc.1.variables

namespace Treatment

variable {f g : Treatment} {acc acc' acc'' : Progress} {id : BattlerId} {ids : List BattlerId}
  {x : Battler} {b : Battle}

theorem marks_singleton (f : Treatment) (r : Roster) (id : BattlerId) :
    f.marks r [id] = f.marksOf r id :=
  List.append_nil _

theorem marksOf_some {r : Roster} (hx : r.get? id = some x) : f.marksOf r id = (f id x).marks := by
  rw [marksOf, hx]
  rfl

theorem marksOf_none {r : Roster} (hx : r.get? id = none) : f.marksOf r id = [] := by
  rw [marksOf, hx]
  rfl

theorem Does.refl (f : Treatment) (acc : Progress) : f.Does [] acc acc where
  roster := rfl
  history := (List.append_nil _).symm
  refresh := (Bool.or_false _).symm
  breach := (Bool.or_false _).symm
  «variables» := rfl

/-- One target is treated, and then the others. -/
theorem Does.cons (h : f.Does [id] acc acc') (h' : f.Does ids acc' acc'') :
    f.Does (id :: ids) acc acc'' := by
  -- the marks of the others are those on the roster that the first one leaves
  have hmarks : f.marks acc.1.roster (id :: ids) =
      f.marksOf acc.1.roster id ++ f.marks acc'.1.roster ids := by
    rw [h.roster]
    rfl
  have hhistory := h.history
  have hrefresh := h.refresh
  have hbreach := h.breach
  rw [marks_singleton] at hhistory hrefresh hbreach
  constructor
  · rw [h'.roster, h.roster]
    rfl
  · rw [h'.history, hhistory, hmarks, Mark.requests_append, List.append_assoc]
  · rw [h'.refresh, hrefresh, hmarks, List.any_append, Bool.or_assoc]
  · rw [h'.breach, hbreach, hmarks, List.any_append, Bool.or_assoc]
  · exact h'.variables.trans h.variables

/-- Where there is nobody, nothing is done. -/
theorem does_of_none (hx : acc.1.roster.get? id = none) : f.Does [id] acc acc := by
  have hmarks : f.marks acc.1.roster [id] = [] := (marks_singleton f _ id).trans (marksOf_none hx)
  constructor
  · exact (Roster.modify_of_none _ hx _).symm
  · rw [hmarks]
    exact (List.append_nil _).symm
  · rw [hmarks]
    exact (Bool.or_false _).symm
  · rw [hmarks]
    exact (Bool.or_false _).symm
  · rfl

/-- What has to be seen for one battler that is there. -/
theorem does_of_some (hx : acc.1.roster.get? id = some x)
    (roster : acc'.1.roster = acc.1.roster.modify id fun _ => (f id x).battler)
    (history : acc'.1.stage.history.toList =
      acc.1.stage.history.toList ++ Mark.requests (f id x).marks)
    (refresh : acc'.2 = (acc.2 || (f id x).marks.any Mark.isRefresh))
    (breach : acc'.1.breach.isSome = (acc.1.breach.isSome || (f id x).marks.any Mark.isBreach))
    (variables_eq : acc'.1.variables = acc.1.variables) : f.Does [id] acc acc' := by
  have hmarks : f.marks acc.1.roster [id] = (f id x).marks :=
    (marks_singleton f _ id).trans (marksOf_some hx)
  constructor
  · rw [roster]
    exact Roster.modify_const _ hx fun x => (f id x).battler
  · rw [hmarks]
    exact history
  · rw [hmarks]
    exact refresh
  · rw [hmarks]
    exact breach
  · exact variables_eq

/-- What is done to each of some battlers in turn is done to all of them. -/
theorem does_foldl {α : Type} (progress : α → Progress) {one : α → BattlerId → α} {v : Variables}
    (step : ∀ a id, (progress a).1.variables = v → f.Does [id] (progress a) (progress (one a id)))
    {a : α} (ha : (progress a).1.variables = v) (ids : List BattlerId) :
    f.Does ids (progress a) (progress (ids.foldl one a)) := by
  induction ids generalizing a with
  | nil => exact .refl f _
  | cons id ids ih =>
    have hone := step a id ha
    exact hone.cons (ih (hone.variables.trans ha))

/-! ## One treatment after the other -/

/-- Two treatments in a row are one after the other on the roster. -/
theorem one_andThen (f g : Treatment) (r : Roster) (id : BattlerId) :
    (f.andThen g).one r id = g.one (f.one r id) id := by
  refine Roster.ext_get? fun j => ?_
  by_cases hj : j = id
  · subst hj
    rw [one, one, one, Roster.get?_modify_self, Roster.get?_modify_self, Roster.get?_modify_self,
      Option.map_map]
    rfl
  · rw [one, one, one, Roster.get?_modify_of_ne _ hj, Roster.get?_modify_of_ne _ hj,
      Roster.get?_modify_of_ne _ hj]

theorem marksOf_andThen (f g : Treatment) (r : Roster) (id : BattlerId) :
    (f.andThen g).marksOf r id = f.marksOf r id ++ g.marksOf (f.one r id) id := by
  cases hx : r.get? id with
  | none => rw [marksOf_none hx, marksOf_none hx, one, Roster.modify_of_none _ hx, marksOf_none hx,
      List.append_nil]
  | some x =>
    have hone : (f.one r id).get? id = some (f id x).battler := by
      rw [one, Roster.get?_modify_self, hx]
      rfl
    rw [marksOf_some hx, marksOf_some hx, marksOf_some hone]
    rfl

/-- Two treatments in a row are done one after the other. -/
theorem Does.andThen (h : f.Does [id] acc acc') (h' : g.Does [id] acc' acc'') :
    (f.andThen g).Does [id] acc acc'' := by
  -- the second treatment sees what the first one made of the battler
  have hmarks : (f.andThen g).marks acc.1.roster [id] =
      f.marks acc.1.roster [id] ++ g.marks acc'.1.roster [id] := by
    rw [marks_singleton, marks_singleton, marks_singleton, marksOf_andThen, h.roster]
    rfl
  constructor
  · rw [h'.roster, h.roster]
    exact (one_andThen f g _ id).symm
  · rw [h'.history, h.history, hmarks, Mark.requests_append, List.append_assoc]
  · rw [h'.refresh, h.refresh, hmarks, List.any_append, Bool.or_assoc]
  · rw [h'.breach, h.breach, hmarks, List.any_append, Bool.or_assoc]
  · exact h'.variables.trans h.variables

/-- Nothing is done to a battler that stays as it is. -/
theorem does_idle (hx : acc.1.roster.get? id = some x) (hidle : f id x = ⟨x, []⟩) :
    f.Does [id] acc acc := by
  refine does_of_some hx ?_ ?_ ?_ ?_ rfl
  · rw [hidle]
    exact (acc.1.roster.modify_same hx).symm
  · rw [hidle]
    exact (List.append_nil _).symm
  · rw [hidle]
    exact (Bool.or_false _).symm
  · rw [hidle]
    exact (Bool.or_false _).symm

theorem does_nothing (acc : Progress) (id : BattlerId) : nothing.Does [id] acc acc := by
  cases hx : acc.1.roster.get? id with
  | none => exact does_of_none hx
  | some x => exact does_idle hx rfl

/-! ## What the commands do -/

theorem requests_told (report : Bool) (id : BattlerId) (message : String) :
    Mark.requests (told report id message) =
      if report then [.displayResults id message] else [] := by
  cases report <;> cases id <;> rfl

theorem any_isRefresh_told (report : Bool) (id : BattlerId) (message : String) :
    (told report id message).any Mark.isRefresh = id.isActor := by
  cases report <;> cases id <;> rfl

theorem any_isBreach_told (report : Bool) (id : BattlerId) (message : String) :
    (told report id message).any Mark.isBreach = false := by
  cases report <;> cases id <;> rfl

/-- A battler is replaced, and that is told. -/
theorem does_told {report : Bool} {message : String} {y : Battler}
    (hx : acc.1.roster.get? id = some x) (hy : f id x = ⟨y, told report id message⟩) :
    f.Does [id] acc
      (if report then (acc.1.withBattler id y).showResult id message else acc.1.withBattler id y,
        acc.2 || id.isActor) := by
  refine does_of_some hx ?_ ?_ ?_ ?_ ?_
  · rw [hy]
    cases report <;> rfl
  · rw [hy, requests_told]
    cases report with
    | true => exact Battle.history_request _ _
    | false => exact (List.append_nil _).symm
  · rw [hy, any_isRefresh_told]
  · rw [hy, any_isBreach_told, Bool.or_false]
    cases report <;> rfl
  · cases report <;> rfl

/-- A change of buffs gives its target the treatment. -/
theorem does_buff (change : BuffChange) (p : Param) (turns : Nat) (report : Bool) (acc : Progress)
    (id : BattlerId) :
    (buff change p turns report).Does [id] acc (EffectOp.buffOne change p turns report acc id) := by
  unfold EffectOp.buffOne
  cases hx : acc.1.roster.get? id with
  | none => exact does_of_none hx
  | some x =>
    rw [Option.bind_some]
    cases happly : applyBuff change p turns x with
    | none => exact does_idle hx (by rw [buff, happly])
    | some change => exact does_told hx (by rw [buff, happly])

theorem does_state (add report : Bool) (s : Nat) (acc : Progress) (id : BattlerId) :
    (state add report s).Does [id] acc (EffectOp.stateOne add report id acc s) := by
  unfold EffectOp.stateOne
  cases hx : acc.1.roster.get? id with
  | none => exact does_of_none hx
  | some x =>
    rw [Option.bind_some]
    cases happly : applyState add s x with
    | none => exact does_idle hx (by rw [state, happly])
    | some change => exact does_told hx (by rw [state, happly])

/-- The states of a command are one treatment, each state after the one before. -/
theorem does_states (add report : Bool) (ss : List Nat) (acc : Progress) (id : BattlerId) :
    (states add report ss).Does [id] acc (ss.foldl (EffectOp.stateOne add report id) acc) := by
  induction ss generalizing acc with
  | nil => exact does_nothing acc id
  | cons s ss ih => exact (does_state add report s acc id).andThen (ih _)

theorem any_isBreach_noted (p : Pool) (x : Battler) :
    (noted p x).any Mark.isBreach = decide (x.maxPool p < 0) := by
  unfold noted
  split
  · next negative => exact (decide_eq_true negative).symm
  · next valid => exact (decide_eq_false valid).symm

/-- A breach is noted for a negative maximum, whether or not it is the first. -/
theorem isSome_breach_noteBreach (b : Battle) (id : BattlerId) (p : Pool) (x : Battler) :
    (noteBreach b id p x).breach.isSome =
      (b.breach.isSome || (noted p x).any Mark.isBreach) := by
  rw [any_isBreach_noted]
  unfold noteBreach
  by_cases negative : x.maxPool p < 0
  · cases hb : b.breach <;> simp [negative, hb]
  · simp [negative]

theorem requests_noted (p : Pool) (x : Battler) : Mark.requests (noted p x) = [] := by
  unfold noted
  split <;> rfl

theorem any_isRefresh_noted (p : Pool) (x : Battler) :
    (noted p x).any Mark.isRefresh = false := by
  unfold noted
  split <;> rfl

theorem requests_counted (report : Bool) (id : BattlerId) (message : String) :
    Mark.requests (counted report id message) =
      if report then [.damagePopup id, .displayResults id message] else [] := by
  cases report <;> cases id <;> rfl

theorem any_isRefresh_counted (report : Bool) (id : BattlerId) (message : String) :
    (counted report id message).any Mark.isRefresh = (report && id.isActor) := by
  cases report <;> cases id <;> rfl

theorem any_isBreach_counted (report : Bool) (id : BattlerId) (message : String) :
    (counted report id message).any Mark.isBreach = false := by
  cases report <;> cases id <;> rfl

/-- A change of a pool gives its target the treatment. -/
theorem does_pool (p : Pool) (amount : Amount) (report : Bool) (acc : Progress) (id : BattlerId) :
    (pool p amount report acc.1.variables).Does [id] acc
      (EffectOp.poolOne p amount report acc id) := by
  unfold EffectOp.poolOne
  cases hx : acc.1.roster.get? id with
  | none => exact does_of_none hx
  | some x =>
    -- the breach is noted before the pool changes, and is all that the note changes
    have hbreach := isSome_breach_noteBreach acc.1 id p x
    obtain ⟨breach, hnote⟩ := EffectOp.exists_noteBreach_eq acc.1 id p x
    rw [hnote] at hbreach
    dsimp only at hbreach ⊢
    rw [hnote]
    refine does_of_some hx ?_ ?_ ?_ ?_ ?_
    · cases report <;> rfl
    · rw [pool, Mark.requests_append, requests_noted, requests_counted]
      cases report with
      | false => exact (List.append_nil _).symm
      | true =>
        -- the popup comes before the line in the log
        refine (Battle.history_request _ _).trans ?_
        rw [Battle.history_request]
        exact List.append_assoc _ _ _
    · rw [pool, List.any_append, any_isRefresh_noted, any_isRefresh_counted]
      cases report with
      | false => exact (Bool.or_false _).symm
      | true => rfl
    · rw [pool, List.any_append, any_isBreach_counted, Bool.or_false, ← hbreach]
      cases report <;> rfl
    · cases report <;> rfl

/-- A battler that falls collapses if it has not done so already. -/
theorem does_falling {b : Battle} {y : Battler} (hx : b.roster.get? id = some x)
    (hy : f id x = falling id y) :
    f.Does [id] (b, false)
      (if y.markCollapsed.1 then (b.withBattler id y.markCollapsed.2).request (.collapse id)
        else b.withBattler id y.markCollapsed.2, false) := by
  refine does_of_some hx ?_ ?_ ?_ ?_ ?_
  · rw [hy]
    cases y.markCollapsed.1 <;> rfl
  · rw [hy, falling]
    cases y.markCollapsed.1 with
    | true => exact Battle.history_request _ _
    | false => exact (List.append_nil _).symm
  · rw [hy, falling]
    cases y.markCollapsed.1 <;> rfl
  · rw [hy, falling]
    cases y.markCollapsed.1 <;> exact (Bool.or_false _).symm
  · cases y.markCollapsed.1 <;> rfl

/-- A battler is replaced, and nothing comes of it. -/
theorem does_quietly {y : Battler} (hx : acc.1.roster.get? id = some x) (hy : f id x = ⟨y, []⟩) :
    f.Does [id] acc (acc.1.withBattler id y, acc.2) := by
  refine does_of_some hx ?_ ?_ ?_ ?_ rfl
  · rw [hy]
    rfl
  · rw [hy]
    exact (List.append_nil _).symm
  · rw [hy]
    exact (Bool.or_false _).symm
  · rw [hy]
    exact (Bool.or_false _).symm

/-- A collapse gives its target the treatment, by force or not. -/
theorem does_collapse (force : Bool) (b : Battle) (id : BattlerId) :
    (collapse force).Does [id] (b, false) (EffectOp.collapseOne force b id, false) := by
  unfold EffectOp.collapseOne
  cases hx : b.roster.get? id with
  | none => exact does_of_none hx
  | some x =>
    have hcollapse : collapse force id x =
        let y := if force then ((x.setImmortal false).addState x.deathState).2 else x
        if y.isDead then falling id y else ⟨y, []⟩ := rfl
    dsimp only at hcollapse ⊢
    -- whether it was forced does not matter any more
    generalize (if force = true then ((x.setImmortal false).addState x.deathState).2 else x) = y
      at hcollapse ⊢
    split
    · next dead => exact does_falling hx (hcollapse.trans (if_pos dead))
    · next alive => exact does_quietly hx (hcollapse.trans (if_neg alive))

/-- Immortality gives its target the treatment. -/
theorem does_immortal (on : Bool) (b : Battle) (id : BattlerId) :
    (immortal on).Does [id] (b, false) (ControlOp.setImmortal on b id, false) := by
  unfold ControlOp.setImmortal
  cases hx : b.roster.get? id with
  | none => exact does_of_none hx
  | some x =>
    dsimp only
    split
    · next dies => exact does_falling hx (if_pos dies)
    · next lives => exact does_quietly hx (if_neg lives)

end Treatment

end BattleScript
