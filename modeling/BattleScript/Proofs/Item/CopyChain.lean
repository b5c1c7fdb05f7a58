import BattleScript.Item.Database
import Mathlib.Data.List.Chain
import Mathlib.Data.List.Perm.Subperm
import Mathlib.Logic.Relation

/-!
# Copy chains

The scripts of an entry may be those of another one, which may again copy, and the references may
lead nowhere or in a circle. `CopyWalk` says, without the function that follows them, which
references are visited from a given one on and whose scripts are run: the walk goes from copy to
copy, never to a reference twice, and stops at an entry that copies nothing, or something missing,
or something that was visited.

`copySource` keeps a list of what was visited. So its value is described by what is left of a walk
when some of it is behind (`RestOfWalk`): the rest of a walk ends where `copySource` does
(`RestOfWalk.copySource_eq`), and wherever `copySource` is called there is such a rest
(`exists_restOfWalk`). Hence the scripts of a reference are those at the end of its one walk
(`sequence?_eq_some_iff`).

A walk from a copied entry becomes one of the copying entry when that is put in front of it,
unless the walk comes back to it, which means a cycle. That is why an entry on no cycle runs what
its copy runs, even where the chain ends in a cycle further on.
-/

namespace BattleScript

namespace Database

/-- The entry that the first reference names copies the second reference, which may be missing. -/
def Copies (d : Database) (r next : ItemRef) : Prop :=
  ∃ u, d.find? r = some u ∧ u.notes.copy = some next

/-- Following copies from the reference leads back to it. -/
def OnCopyCycle (d : Database) (r : ItemRef) : Prop := Relation.TransGen d.Copies r r

/-- The copies from a reference on, up to the entry whose scripts are run. -/
structure CopyWalk (d : Database) (r : ItemRef) (path : List ItemRef) (source : Usable) : Prop where
  starts : path.head? = some r
  copies : path.IsChain d.Copies
  found : ∀ x ∈ path, (d.find? x).isSome
  nodup : path.Nodup
  ends : path.getLast?.bind d.find? = some source
  stops : ∀ next, source.notes.copy = some next → d.find? next = none ∨ next ∈ path

/-- What is left of a walk that has come to `x`, when the references in `seen` were visited. -/
structure RestOfWalk (d : Database) (seen : List ItemRef) (x : ItemRef) (rest : List ItemRef)
    (source : Usable) : Prop where
  copies : (x :: rest).IsChain d.Copies
  found : ∀ y ∈ rest, (d.find? y).isSome
  nodup : rest.Nodup
  fresh : ∀ y ∈ rest, y ∉ seen
  ends : (x :: rest).getLast?.bind d.find? = some source
  stops : ∀ next, source.notes.copy = some next → d.find? next = none ∨ next ∈ seen ∨ next ∈ rest

variable {d : Database} {r x next : ItemRef} {u source : Usable} {path rest seen : List ItemRef}

/-! ## What is left of a walk -/

/-- At an entry that stops the walk nothing is left of it. -/
theorem restOfWalk_nil (hx : d.find? x = some u)
    (h : ∀ next, u.notes.copy = some next → d.find? next = none ∨ next ∈ seen) :
    d.RestOfWalk seen x [] u where
  copies := .singleton x
  found := List.forall_mem_nil _
  nodup := List.nodup_nil
  fresh := List.forall_mem_nil _
  ends := hx
  stops next hnext := (h next hnext).imp_right .inl

/-- What is left from the copied entry on, behind the step to it, is left from the copying entry
on. -/
theorem RestOfWalk.cons (h : d.RestOfWalk (next :: seen) next rest source)
    (hcopies : d.Copies x next) (hseen : next ∉ seen) (hnext : (d.find? next).isSome) :
    d.RestOfWalk seen x (next :: rest) source where
  copies := List.isChain_cons_cons.mpr ⟨hcopies, h.copies⟩
  found := List.forall_mem_cons.mpr ⟨hnext, h.found⟩
  nodup := List.nodup_cons.mpr ⟨fun hmem => h.fresh next hmem List.mem_cons_self, h.nodup⟩
  fresh := List.forall_mem_cons.mpr
    ⟨hseen, fun y hy hmem => h.fresh y hy (List.mem_cons_of_mem next hmem)⟩
  ends := by
    rw [List.getLast?_cons_cons]
    exact h.ends
  stops after hafter := by
    rcases h.stops after hafter with hmissing | hmem | hmem
    · exact .inl hmissing
    · rcases List.mem_cons.mp hmem with rfl | hmem
      · exact .inr (.inr List.mem_cons_self)
      · exact .inr (.inl hmem)
    · exact .inr (.inr (List.mem_cons_of_mem next hmem))

/-- After a step there is one reference more behind and one less ahead. -/
theorem RestOfWalk.tail (h : d.RestOfWalk seen x (next :: rest) source) :
    d.RestOfWalk (next :: seen) next rest source where
  copies := (List.isChain_cons_cons.mp h.copies).2
  found y hy := h.found y (List.mem_cons_of_mem next hy)
  nodup := (List.nodup_cons.mp h.nodup).2
  fresh y hy := by
    intro hmem
    rcases List.mem_cons.mp hmem with rfl | hmem
    · exact (List.nodup_cons.mp h.nodup).1 hy
    · exact h.fresh y (List.mem_cons_of_mem next hy) hmem
  ends := by
    have hends := h.ends
    rwa [List.getLast?_cons_cons] at hends
  stops after hafter := by
    rcases h.stops after hafter with hmissing | hseen | hmem
    · exact .inl hmissing
    · exact .inr (.inl (List.mem_cons_of_mem next hseen))
    · rcases List.mem_cons.mp hmem with rfl | hmem
      · exact .inr (.inl List.mem_cons_self)
      · exact .inr (.inr hmem)

/-! ## The end of the walk -/

/-- Wherever a walk has come, it ends where `copySource` does. -/
theorem RestOfWalk.copySource_eq (h : d.RestOfWalk seen x rest source) (hx : d.find? x = some u) :
    d.copySource u seen = source := by
  -- on what is left of the walk: it is at its end, or `copySource` takes its next step
  induction rest generalizing x u seen with
  | nil =>
    have hsource : u = source := Option.some.inj (hx.symm.trans h.ends)
    subst hsource
    refine copySource_of_stop fun next hcopy => ?_
    rcases h.stops next hcopy with hmissing | hseen | hrest
    · exact .inl hmissing
    · exact .inr hseen
    · cases hrest
  | cons y rest ih =>
    obtain ⟨v, hv, hcopy⟩ := (List.isChain_cons_cons.mp h.copies).1
    have huv : v = u := Option.some.inj (hv.symm.trans hx)
    subst huv
    obtain ⟨w, hw⟩ := Option.isSome_iff_exists.mp (h.found y List.mem_cons_self)
    rw [copySource_of_fresh hcopy (h.fresh y List.mem_cons_self) hw]
    exact ih h.tail hw

/-- Behind every value of `copySource` there is the rest of a walk. -/
theorem exists_restOfWalk (hx : d.find? x = some u) :
    ∃ rest, d.RestOfWalk seen x rest (d.copySource u seen) := by
  induction u, seen using copy_induction d generalizing x with
  | stop u seen hstop =>
    rw [copySource_of_stop hstop]
    exact ⟨[], restOfWalk_nil hx hstop⟩
  | step u seen next copied hcopy hseen hcopied ih =>
    obtain ⟨rest, hrest⟩ := ih hcopied
    rw [copySource_of_fresh hcopy hseen hcopied]
    exact ⟨next :: rest, hrest.cons ⟨u, hx, hcopy⟩ hseen (Option.isSome_of_eq_some hcopied)⟩

/-- A walk has all of it left at its start. -/
theorem copyWalk_cons_iff :
    d.CopyWalk r (r :: rest) source ↔ (d.find? r).isSome ∧ d.RestOfWalk [r] r rest source := by
  -- at the start the only reference behind is the first one
  constructor
  · intro walk
    obtain ⟨hr, hnodup⟩ := List.nodup_cons.mp walk.nodup
    refine ⟨walk.found r List.mem_cons_self, walk.copies,
      fun y hy => walk.found y (List.mem_cons_of_mem r hy), hnodup, ?_, walk.ends, ?_⟩
    · intro y hy hmem
      exact hr (List.mem_singleton.mp hmem ▸ hy)
    · intro next hnext
      refine (walk.stops next hnext).imp_right fun hmem => ?_
      exact (List.mem_cons.mp hmem).imp_left List.mem_singleton.mpr
  · rintro ⟨hr, h⟩
    refine ⟨rfl, h.copies, List.forall_mem_cons.mpr ⟨hr, h.found⟩,
      List.nodup_cons.mpr ⟨fun hmem => h.fresh r hmem (List.mem_singleton_self r), h.nodup⟩,
      h.ends, ?_⟩
    intro next hnext
    refine (h.stops next hnext).imp_right fun hmem => ?_
    exact List.mem_cons.mpr (hmem.imp_left List.mem_singleton.mp)

/-- **The scripts that are run** are those at the end of the walk. -/
theorem sequence?_eq_some_iff (d : Database) (r : ItemRef) (s : ActionSequence) :
    d.sequence? r = some s ↔
      ∃ path source, d.CopyWalk r path source ∧ source.notes.sequence = s := by
  constructor
  · intro h
    obtain ⟨u, hu, hs⟩ := Option.map_eq_some_iff.mp h
    obtain ⟨rest, hrest⟩ : ∃ rest, d.RestOfWalk [r] r rest (d.copySource u [r]) :=
      exists_restOfWalk hu
    have walk : d.CopyWalk r (r :: rest) (d.copySource u [r]) :=
      copyWalk_cons_iff.mpr ⟨Option.isSome_of_eq_some hu, hrest⟩
    exact ⟨_, _, walk, hs⟩
  · rintro ⟨path, source, walk, rfl⟩
    obtain ⟨rest, rfl⟩ := List.head?_eq_some_iff.mp walk.starts
    obtain ⟨hr, hrest⟩ := copyWalk_cons_iff.mp walk
    obtain ⟨u, hu⟩ := Option.isSome_iff_exists.mp hr
    rw [sequence?, hu, Option.map_some, hrest.copySource_eq hu]

/-- A reference without an entry has no scripts, and every entry has some. -/
theorem sequence?_eq_none_iff (d : Database) (r : ItemRef) :
    d.sequence? r = none ↔ d.find? r = none :=
  Option.map_eq_none_iff

/-! ## Bounds and cycles -/

/-- No walk is longer than the database. -/
theorem CopyWalk.length_le (walk : d.CopyWalk r path source) : path.length ≤ d.refs.length := by
  have hrefs : path ⊆ d.refs := by
    intro x hx
    obtain ⟨u, hu⟩ := Option.isSome_iff_exists.mp (walk.found x hx)
    exact mem_refs_of_find? hu
  exact (List.subperm_of_subset walk.nodup hrefs).length_le

/-- Copies lead to all that a walk visits. -/
theorem CopyWalk.reaches (walk : d.CopyWalk r path source) :
    ∀ x ∈ path, Relation.ReflTransGen d.Copies r x := by
  refine walk.copies.induction (Relation.ReflTransGen d.Copies r) path ?_ ?_
  · intro x y hxy hx
    exact hx.tail hxy
  · intro hpath
    have hhead : path.head hpath = r :=
      Option.some.inj ((List.head?_eq_some_head hpath).symm.trans walk.starts)
    rw [hhead]

/-- A reference on no cycle can be put in front of the walk of what it copies. -/
theorem CopyWalk.cons (walk : d.CopyWalk next path source) (hcopies : d.Copies r next)
    (hcycle : ¬ d.OnCopyCycle r) : d.CopyWalk r (r :: path) source := by
  -- to come back to the copying entry would be a cycle
  have hr : r ∉ path := fun hmem => hcycle (.head' hcopies (walk.reaches r hmem))
  have hfound : (d.find? r).isSome := by
    obtain ⟨u, hu, -⟩ := hcopies
    exact Option.isSome_of_eq_some hu
  obtain ⟨rest, rfl⟩ := List.head?_eq_some_iff.mp walk.starts
  constructor
  · rfl
  · exact List.isChain_cons_cons.mpr ⟨hcopies, walk.copies⟩
  · exact List.forall_mem_cons.mpr ⟨hfound, walk.found⟩
  · exact List.nodup_cons.mpr ⟨hr, walk.nodup⟩
  · rw [List.getLast?_cons_cons]
    exact walk.ends
  · intro after hafter
    exact (walk.stops after hafter).imp_right (List.mem_cons_of_mem r)

/-- **Copies are resolved.** Whatever the entries of a database copy, a reference has scripts
exactly if it names an entry. They are the own scripts of an entry on the copy chain, the one at
the end of the walk, and the walk is no longer than the database. An entry on no copy cycle has
the scripts of the existing entry that it copies. -/
theorem copies_resolve (d : Database) (r : ItemRef) :
    (d.sequence? r = none ↔ d.find? r = none) ∧
    (∀ s, d.sequence? r = some s ↔
      ∃ path source, d.CopyWalk r path source ∧ source.notes.sequence = s) ∧
    (∀ path source, d.CopyWalk r path source → path.length ≤ d.refs.length) ∧
    ∀ next, d.Copies r next → (d.find? next).isSome → ¬ d.OnCopyCycle r →
      d.sequence? r = d.sequence? next := by
  refine ⟨d.sequence?_eq_none_iff r, d.sequence?_eq_some_iff r, fun _ _ walk => walk.length_le, ?_⟩
  intro next hcopies hnext hcycle
  obtain ⟨u, hu⟩ := Option.isSome_iff_exists.mp hnext
  have hsome : d.sequence? next = some (d.copySource u [next]).notes.sequence := by
    rw [sequence?, hu, Option.map_some]
  -- the walk of the copied entry, with the copying one in front, is the walk that is looked for
  obtain ⟨path, source, walk, hsource⟩ := (d.sequence?_eq_some_iff next _).mp hsome
  rw [hsome]
  exact (d.sequence?_eq_some_iff r _).mpr ⟨r :: path, source, walk.cons hcopies hcycle, hsource⟩

/-- The first skill copies the second one, which is on a cycle with the third: both run the
scripts of the third, where the cycle closes. -/
theorem copies_resolve_lasso :
    let d : Database := (({} : Database).insertSkill ⟨1, "One", 0, 0, { copy := some (.skill 2) }⟩
      |>.insertSkill ⟨2, "Two", 0, 0, { copy := some (.skill 3) }⟩).insertSkill
        ⟨3, "Three", 0, 0, ({ copy := some (.skill 2) } : Notes).declare .whole ["wait: 9"]⟩
    d.Copies (.skill 1) (.skill 2) ∧ ¬ d.OnCopyCycle (.skill 1) ∧
      d.sequence? (.skill 1) = d.sequence? (.skill 2) ∧
      (d.sequence? (.skill 1)).map (·.whole) = some ["wait: 9"] ∧ 3 ≤ d.refs.length := by
  intro d
  have hcopies : d.Copies (.skill 1) (.skill 2) := ⟨_, rfl, rfl⟩
  have hwalk : d.CopyWalk (.skill 1) [.skill 1, .skill 2, .skill 3]
      ⟨3, "Three", 0, 0, ({ copy := some (.skill 2) } : Notes).declare .whole ["wait: 9"]⟩ := by
    refine ⟨rfl, ?_, by decide, by decide, rfl, ?_⟩
    · simp only [List.isChain_cons_cons, List.isChain_singleton, and_true]
      exact ⟨hcopies, _, rfl, rfl⟩
    · rintro next ⟨⟩
      exact .inr (by decide)
  -- no entry copies the first skill
  have hnobody : ∀ x ∈ d.refs, (d.find? x).bind (·.notes.copy) ≠ some (.skill 1) := by decide
  have hcycle : ¬ d.OnCopyCycle (.skill 1) := by
    intro hcycle
    obtain ⟨x, -, u, hu, hcopy⟩ := Relation.TransGen.tail'_iff.mp hcycle
    exact hnobody x (mem_refs_of_find? hu) (by rw [hu]; exact hcopy)
  obtain ⟨-, hsequence, hbound, hsame⟩ := copies_resolve d (.skill 1)
  refine ⟨hcopies, hcycle, hsame _ hcopies rfl hcycle, ?_, hbound _ _ hwalk⟩
  rw [(hsequence _).mpr ⟨_, _, hwalk, rfl⟩]
  rfl

end Database

end BattleScript
