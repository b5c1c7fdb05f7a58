import BattleScript.Proofs.Runner.Log
import BattleScript.Proofs.Standard.Dispatch

/-!
# The order of phases

An action goes through its phases by a plan that only depends on the targets it was declared on:

- `plan`: the phases from the first to the last, each with the targets that its script sees;
- `afterAbort`: what is still to come when the script of a phase is aborted.

`itinerary` is what is still to come at a moment of the action. The invariant `OnCourse` is that
what was entered so far and the itinerary together are the plan, and that what was entered since an
abort and the itinerary together are what was left then. A handover takes the first entry off the
itinerary and enters it (`entry_advance`), and an abort replaces the itinerary by `afterAbort`
(`entry_abort`).
-/

namespace BattleScript

namespace Runner

/-- A phase and the targets that its script sees. -/
abbrev Entry := Phase × List BattlerId

/-- The phase that was entered, if one was. -/
def Event.entered? : Event → Option Entry
  | .entered p c => some (p, c.targets)
  | .dispatched _ | .aborted _ => none

/-- The phases that were entered, in their order. -/
def entries (es : List Event) : List Entry := es.filterMap Event.entered?

/-- No script was aborted. -/
def Unbroken (es : List Event) : Prop := ∀ p, .aborted p ∉ es

/-- The phases from the target phase on, when these targets are to come. -/
def fromTargets (declared pending : List BattlerId) : List Entry :=
  pending.map (fun t => (.target, [t])) ++ [(.follow, declared), (.finish, declared)]

/-- The phases of an action on the declared targets. -/
def plan (declared : List BattlerId) : List Entry :=
  [(.setup, declared), (.whole, declared)] ++ fromTargets declared declared

/-- The phases that follow when the script of a phase was aborted. -/
def afterAbort : Phase → List Entry
  | .setup | .whole | .target => [(.follow, []), (.finish, [])]
  | .follow => [(.finish, [])]
  | .finish => []

/-- The phases that are still to come, if nothing is aborted. -/
def itinerary (r : Runner) : List Entry :=
  match r.phase with
  | none => []
  | some .setup => (.whole, r.declared) :: fromTargets r.declared r.declared
  | some .whole => fromTargets r.declared r.declared
  | some .target => fromTargets r.declared r.pending
  | some .follow => [(.finish, r.declared)]
  | some .finish => []

/-- But for the target phase, the context has the declared targets. -/
def Aligned (r : Runner) : Prop := r.phase ≠ some .target → r.context.targets = r.declared

/-- The runner has no targets any more, and nothing but the last two phases to play. -/
structure Dropped (r : Runner) : Prop where
  declared : r.declared = []
  targets : r.context.targets = []
  phase : r.phase = some .follow ∨ r.phase = some .finish ∨ r.phase = none

/-! ## Handovers -/

variable {r : Runner} {p : Phase}

@[simp] theorem entries_append (es fs : List Event) :
    entries (es ++ fs) = entries es ++ entries fs :=
  List.filterMap_append

/-- What a handover enters is the phase that the runner is in. -/
theorem entries_entry (r : Runner) :
    entries r.entry = (r.phase.map fun p => (p, r.context.targets)).toList := by
  unfold entry
  cases r.phase <;> rfl

/-- A handover enters what comes next. -/
theorem entry_advance (hp : r.phase = some p) (hr : r.Aligned) :
    entries (r.advance p).entry ++ (r.advance p).itinerary = r.itinerary := by
  rw [entries_entry]
  cases p with
  | setup =>
    have ht : r.context.targets = r.declared := hr (by rw [hp]; decide)
    simp [advance, enter, itinerary, hp, ht]
  | whole =>
    cases hd : r.declared <;>
      simp [advance, nextTarget, enterFollow, enter, itinerary, fromTargets, hp, hd]
  | target =>
    cases hd : r.pending <;>
      simp [advance, nextTarget, enterFollow, enter, itinerary, fromTargets, hp, hd]
  | follow =>
    have ht : r.context.targets = r.declared := hr (by rw [hp]; decide)
    simp [advance, enter, itinerary, hp, ht]
  | finish => simp [advance, itinerary, hp]

/-- Going on to the follow phase restores the declared targets. -/
theorem aligned_nextTarget (r : Runner) : r.nextTarget.Aligned := by
  unfold nextTarget
  split
  · intro h
    exact absurd rfl h
  · intro _
    rfl

/-- A handover leaves the declared targets to all phases but the target phase. -/
theorem aligned_advance (hp : r.phase = some p) (hr : r.Aligned) : (r.advance p).Aligned := by
  cases p with
  | whole | target => exact aligned_nextTarget _
  | setup | follow | finish => exact fun _ => hr (by rw [hp]; decide)

/-- After an abort, the phases in `afterAbort` are entered next. -/
theorem entry_abort (r : Runner) (p : Phase) :
    entries (r.abort p).entry ++ (r.abort p).itinerary = afterAbort p := by
  rw [entries_entry]
  cases p <;> rfl

/-- After an abort nobody is a target any more, and only the last phases are to come. -/
theorem dropped_abort (r : Runner) (p : Phase) : (r.abort p).Dropped := by
  cases p with
  | setup | whole | target => exact ⟨rfl, rfl, .inl rfl⟩
  | follow => exact ⟨rfl, rfl, .inr (.inl rfl)⟩
  | finish => exact ⟨rfl, rfl, .inr (.inr rfl)⟩

theorem Dropped.aligned (h : r.Dropped) : r.Aligned := fun _ => h.targets.trans h.declared.symm

/-- Targets that were dropped stay dropped. -/
theorem Dropped.advance (h : r.Dropped) (hp : r.phase = some p) : (r.advance p).Dropped := by
  have hphase := h.phase
  rw [hp] at hphase
  rcases hphase with hf | hf | hf <;> cases hf
  · exact ⟨h.declared, h.targets, .inr (.inl rfl)⟩
  · exact ⟨h.declared, h.targets, .inr (.inr rfl)⟩

/-- A second abort changes nothing about what is to come. -/
theorem Dropped.itinerary (h : r.Dropped) (hp : r.phase = some p) : r.itinerary = afterAbort p := by
  have hphase := h.phase
  rw [hp] at hphase
  rcases hphase with hf | hf | hf <;> cases hf <;>
    simp [Runner.itinerary, hp, h.declared, afterAbort]

/-! ## The record and what is still to come -/

/-- A frame of the script enters no phase. -/
theorem entries_played (chain : Chain) (r : Runner) (b : Battle) :
    entries (r.played chain b) = [] := by
  unfold entries played
  rw [List.filterMap_map]
  exact List.filterMap_eq_nil_iff.mpr fun _ _ => rfl

/-- A frame of the script records no abort. -/
theorem unbroken_played (chain : Chain) (r : Runner) (b : Battle) :
    Unbroken (r.played chain b) := by
  intro p h
  obtain ⟨d, -, hd⟩ := List.mem_map.mp h
  cases hd

/-- To enter a phase is not to abort one. -/
theorem unbroken_entry (r : Runner) : Unbroken r.entry := by
  intro p h
  unfold entry at h
  cases hr : r.phase <;> simp [hr] at h

theorem Unbroken.append {es fs : List Event} (h : Unbroken es) (h' : Unbroken fs) :
    Unbroken (es ++ fs) := by
  intro p hp
  rcases List.mem_append.mp hp with hp | hp
  · exact h p hp
  · exact h' p hp

/-- Standard commands leave the runner alone, but for its interpreter. -/
theorem playFrame_standard (r : Runner) (b : Battle) :
    (r.playFrame .standard b).1 =
      { r with interpreter := (r.interpreter.update .standard ⟨b, r.context⟩).1 } := by
  have hcontext : (r.interpreter.update .standard ⟨b, r.context⟩).2.context = r.context :=
    Interpreter.update_keeps (I := fun scene => scene.context = r.context)
      (fun command scene h => (Chain.standard_context command scene).trans h) rfl
  simp only [playFrame_eq, hcontext]

/-- What was recorded before, or after, an abort in a record that has grown. -/
theorem eq_append_aborted {es fs before after : List Event}
    (h : es ++ fs = before ++ .aborted p :: after) :
    (∃ rest, after = rest ++ fs ∧ es = before ++ .aborted p :: rest) ∨
      ∃ mid, before = es ++ mid ∧ fs = mid ++ .aborted p :: after := by
  rcases List.append_eq_append_iff.mp h with ⟨mid, hbefore, hfs⟩ | ⟨mid, hes, hafter⟩
  · exact .inr ⟨mid, hbefore, hfs⟩
  · -- the abort is the first event of the new part, or stands in the old one
    cases mid with
    | nil =>
      refine .inr ⟨[], ?_, hafter.symm⟩
      rw [List.append_nil] at hes ⊢
      exact hes.symm
    | cons e rest =>
      obtain ⟨rfl, hrest⟩ := List.cons.inj hafter
      exact .inl ⟨rest, hrest, hes⟩

/-- A record without aborts is not one that has an abort in it. -/
theorem Unbroken.not_append_aborted {fs mid after : List Event} (h : Unbroken fs) :
    fs ≠ mid ++ .aborted p :: after := by
  rintro rfl
  exact h p (List.mem_append_right mid List.mem_cons_self)

/-- What the record says of an abort: it was that of the phase entered last, up to the first abort
the plan was followed, and what was entered since and the itinerary together are what is left after
it. -/
structure Aborted (declared : List BattlerId) (before : List Event) (p : Phase) (after : List Event)
    (r : Runner) : Prop where
  current : ∃ targets, (entries before).getLast? = some (p, targets)
  onPlan : Unbroken before → entries before <+: plan declared
  entries_itinerary : entries after ++ r.itinerary = afterAbort p

/-- The record of an action and what is still to come. As long as nothing was aborted, what was
entered and the itinerary together are the plan; since an abort there are no targets any more. The
phase entered last is the one being played. -/
structure OnCourse (declared : List BattlerId) (es : List Event) (r : Runner) : Prop where
  current : ∀ p, r.phase = some p → (entries es).getLast? = some (p, r.context.targets)
  aligned : r.Aligned
  onPlan : Unbroken es → entries es ++ r.itinerary = plan declared
  dropped : ¬ Unbroken es → r.Dropped
  aborts : ∀ before p after, es = before ++ .aborted p :: after →
    Aborted declared before p after r

variable {declared : List BattlerId} {es : List Event}

/-- A frame of the interpreter adds commands to the record, and nothing else happens. -/
theorem OnCourse.play (h : OnCourse declared es r) (b : Battle) :
    OnCourse declared (es ++ r.played .standard b) (r.playFrame .standard b).1 := by
  have hentries : entries (es ++ r.played .standard b) = entries es := by
    rw [entries_append, entries_played, List.append_nil]
  have hunbroken : Unbroken (es ++ r.played .standard b) → Unbroken es := fun hu p hp =>
    hu p (List.mem_append_left _ hp)
  rw [playFrame_standard]
  refine {
    current := by rw [hentries]; exact h.current
    aligned := h.aligned
    onPlan := fun hu => by rw [hentries]; exact h.onPlan (hunbroken hu)
    dropped := fun hu => ?_
    aborts := fun before p after heq => ?_ }
  · obtain ⟨hd, ht, hp⟩ := h.dropped fun hes => hu (hes.append (unbroken_played _ _ _))
    exact ⟨hd, ht, hp⟩
  · -- commands are no aborts, so every abort was there before
    rcases eq_append_aborted heq with ⟨rest, rfl, hes⟩ | ⟨mid, -, hfs⟩
    · obtain ⟨hcurrent, hplan, hrest⟩ := h.aborts before p rest hes
      refine ⟨hcurrent, hplan, ?_⟩
      rw [entries_append, entries_played, List.append_nil]
      exact hrest
    · exact absurd hfs (unbroken_played _ _ _).not_append_aborted

/-- The end of a script enters what comes next. -/
theorem OnCourse.advance (h : OnCourse declared es r) (hp : r.phase = some p) :
    OnCourse declared (es ++ (r.advance p).entry) (r.advance p) where
  current q hq := by
    rw [entries_append, entries_entry, hq]
    exact List.getLast?_concat
  aligned := aligned_advance hp h.aligned
  onPlan hu := by
    rw [entries_append, List.append_assoc, entry_advance hp h.aligned]
    exact h.onPlan fun q hq => hu q (List.mem_append_left _ hq)
  dropped hu := (h.dropped fun hes => hu (hes.append (unbroken_entry _))).advance hp
  aborts before q after heq := by
    rcases eq_append_aborted heq with ⟨rest, rfl, hes⟩ | ⟨mid, -, hfs⟩
    · obtain ⟨hcurrent, hplan, hrest⟩ := h.aborts before q rest hes
      refine ⟨hcurrent, hplan, ?_⟩
      rw [entries_append, List.append_assoc, entry_advance hp h.aligned]
      exact hrest
    · exact absurd hfs (unbroken_entry _).not_append_aborted

/-- An abort drops the targets and enters what is left. If there was one before, that is what was to
come anyway. -/
theorem OnCourse.abort (h : OnCourse declared es r) (hp : r.phase = some p) :
    OnCourse declared (es ++ .aborted p :: (r.abort p).entry) (r.abort p) where
  current q hq := by
    have hentry :
        entries (.aborted p :: (r.abort p).entry) = [(q, (r.abort p).context.targets)] := by
      show entries (r.abort p).entry = _
      rw [entries_entry, hq]
      rfl
    rw [entries_append, hentry]
    exact List.getLast?_concat
  aligned := (dropped_abort r p).aligned
  onPlan hu := absurd (List.mem_append_right es List.mem_cons_self) (hu p)
  dropped _ := dropped_abort r p
  aborts before q after heq := by
    rcases eq_append_aborted heq with ⟨rest, rfl, hes⟩ | ⟨mid, rfl, hfs⟩
    · -- an earlier abort
      obtain ⟨hcurrent, hplan, hrest⟩ := h.aborts before q rest hes
      have hdropped : r.Dropped := h.dropped fun hu => hu.not_append_aborted hes
      refine ⟨hcurrent, hplan, ?_⟩
      rw [hdropped.itinerary hp] at hrest
      rw [entries_append, List.append_assoc]
      show entries rest ++ (entries (r.abort p).entry ++ _) = _
      rw [entry_abort, hrest]
    · cases mid with
      | nil =>
        -- this one
        cases hfs
        rw [List.append_nil]
        exact ⟨⟨_, h.current p hp⟩, fun hu => ⟨_, h.onPlan hu⟩, entry_abort r p⟩
      | cons e mid =>
        obtain ⟨-, hfs⟩ := List.cons.inj hfs
        exact absurd hfs (unbroken_entry _).not_append_aborted

/-- The user and the item of a context are those of another. -/
def SameAction (c c' : ActionContext) : Prop := c.subject = c'.subject ∧ c.item = c'.item

/-- The action is on its course, and its user and item are the ones it was started with, as they
were in every phase that was entered. -/
structure InCourse (c : ActionContext) (es : List Event) (s : Runner × Battle) : Prop where
  course : OnCourse c.targets es s.1
  same : SameAction s.1.context c
  entered : ∀ p c', .entered p c' ∈ es → SameAction c' c

/-- Going on to the next target changes nothing about the action but its targets. -/
theorem sameAction_nextTarget (r : Runner) : SameAction r.nextTarget.context r.context := by
  unfold nextTarget
  split <;> exact ⟨rfl, rfl⟩

/-- A handover keeps the user and what is used. -/
theorem sameAction_advance (r : Runner) (p : Phase) :
    SameAction (r.advance p).context r.context := by
  cases p with
  | whole => exact sameAction_nextTarget { r with pending := r.declared }
  | target => exact sameAction_nextTarget r
  | setup | follow | finish => exact ⟨rfl, rfl⟩

/-- An abort keeps the user and what is used. -/
theorem sameAction_abort (r : Runner) (p : Phase) : SameAction (r.abort p).context r.context := by
  cases p <;> exact ⟨rfl, rfl⟩

/-- A phase is entered in the context of the runner. -/
theorem eq_of_mem_entry {c : ActionContext} {q : Phase} (h : .entered q c ∈ r.entry) :
    c = r.context := by
  unfold entry at h
  cases hr : r.phase with
  | none => simp [hr] at h
  | some p =>
    simp only [hr, Option.map_some, Option.toList_some, List.mem_singleton] at h
    cases h
    rfl

theorem not_entered_mem_played {c : ActionContext} {q : Phase} (chain : Chain) (b : Battle) :
    .entered q c ∉ r.played chain b := by
  intro h
  obtain ⟨d, -, hd⟩ := List.mem_map.mp h
  cases hd

/-- A handover keeps the user and the item. -/
theorem InCourse.handover {c : ActionContext} {next : Runner} {b b' : Battle} {fs : List Event}
    (h : InCourse c es (r, b)) (hsame : SameAction next.context r.context)
    (hfs : ∀ q c', .entered q c' ∈ fs → .entered q c' ∈ next.entry)
    (hcourse : OnCourse c.targets (es ++ fs) next) : InCourse c (es ++ fs) (next, b') := by
  have hnext : SameAction next.context c := ⟨hsame.1.trans h.same.1, hsame.2.trans h.same.2⟩
  refine ⟨hcourse, hnext, fun q c' hc' => ?_⟩
  rcases List.mem_append.mp hc' with hc' | hc'
  · exact h.entered q c' hc'
  · exact eq_of_mem_entry (hfs q c' hc') ▸ hnext

/-- A frame of the interpreter keeps the course. -/
theorem InCourse.play {c : ActionContext} {b : Battle} (h : InCourse c es (r, b)) :
    InCourse c (es ++ r.played .standard b) (r.playFrame .standard b) where
  course := h.course.play b
  same := by
    rw [playFrame_standard]
    exact h.same
  entered q c' hc' := by
    rcases List.mem_append.mp hc' with hc' | hc'
    · exact h.entered q c' hc'
    · exact absurd hc' (not_entered_mem_played _ _)

/-- Every pass through the loop of an update keeps the course. -/
theorem InCourse.pass {c : ActionContext} {fs : List Event} {s : Runner × Battle}
    {next : ForInStep (Runner × Battle)} (h : InCourse c es s)
    (hpass : Runner.pass .standard s = (fs, next)) : InCourse c (es ++ fs) next.value := by
  obtain ⟨r, b⟩ := s
  have hplay := h.play
  obtain ⟨-, rfl, rfl⟩ | ⟨p, hp, ⟨-, rfl, rfl⟩ | ⟨next, ha, rfl, rfl⟩⟩ := pass_cases hpass
  · rw [List.append_nil]
    exact h
  · exact hplay
  · have hphase : (r.playFrame .standard b).1.phase = some p := hp
    rw [← List.append_assoc]
    -- the script was completed, or it was aborted and the record says so
    obtain ⟨hstate, rfl⟩ | ⟨hstate, rfl⟩ := afterScript_eq_some_iff.mp ha
    · rw [hstate, handover_completed]
      exact hplay.handover (sameAction_advance _ p) (fun _ _ hc => hc) (hplay.course.advance hphase)
    · rw [hstate, handover_aborted]
      refine hplay.handover (sameAction_abort _ p) (fun q c' hc => ?_) (hplay.course.abort hphase)
      rcases List.mem_cons.mp hc with hc | hc
      · cases hc
      · exact hc

/-- An action starts by entering its setup. -/
theorem inCourse_start (b : Battle) (c : ActionContext) :
    InCourse c (Runner.start b c).1.entry (Runner.start b c) where
  course := {
    current := fun p hp => by cases hp; rfl
    aligned := fun _ => rfl
    onPlan := fun _ => rfl
    dropped := fun h => absurd (unbroken_entry _) h
    aborts := fun before p after h => absurd h (unbroken_entry _).not_append_aborted }
  same := ⟨rfl, rfl⟩
  entered q c' hc' := eq_of_mem_entry hc' ▸ ⟨rfl, rfl⟩

/-- **Phase order.** After any number of frames of an action, as long as no script was aborted, the
phases entered are a prefix of the plan, and all of it once the action has finished. Whenever a
script was aborted, it was that of the phase entered last; up to the first abort the phases are a
prefix of the plan, and the phases entered since an abort are a prefix of what is left after it, and
all of that once the action has finished. The user and the item are always those of the
beginning. -/
theorem phases_in_order (b : Battle) (c : ActionContext) (frames : Nat) :
    let s := Runner.start b c
    let es := s.1.entry ++ eventsOver .standard frames s
    let r := (afterFrames .standard frames s).1
    (Unbroken es →
      entries es <+: plan c.targets ∧ (r.isFinished → entries es = plan c.targets)) ∧
    (∀ before p after, es = before ++ .aborted p :: after →
      (∃ targets, (entries before).getLast? = some (p, targets)) ∧
      (Unbroken before → entries before <+: plan c.targets) ∧
      entries after <+: afterAbort p ∧ (r.isFinished → entries after = afterAbort p)) ∧
    (∀ p c', .entered p c' ∈ es → c'.subject = c.subject ∧ c'.item = c.item) ∧
    r.context.subject = c.subject ∧ r.context.item = c.item := by
  intro s es r
  -- the invariant holds after all frames, and says all of it but what is to come at the end
  have h : InCourse c es (afterFrames .standard frames s) :=
    keeps_frames (fun h => ⟨h.course, h.same, h.entered⟩) InCourse.pass frames (inCourse_start b c)
  -- nothing is to come for an action that has finished
  have hdone : r.isFinished → r.itinerary = [] := by
    intro hr
    unfold Runner.itinerary
    rw [Option.isNone_iff_eq_none.mp hr]
  refine ⟨fun hu => ⟨⟨_, h.course.onPlan hu⟩, fun hr => ?_⟩, fun before p after hes => ?_,
    h.entered, h.same⟩
  · rw [← h.course.onPlan hu, hdone hr, List.append_nil]
  · obtain ⟨hcurrent, hplan, hafter⟩ := h.course.aborts before p after hes
    refine ⟨hcurrent, hplan, ⟨_, hafter⟩, fun hr => ?_⟩
    rw [← hafter, hdone hr, List.append_nil]

end Runner

end BattleScript
