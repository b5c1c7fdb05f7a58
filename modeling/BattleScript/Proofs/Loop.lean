/-!
# Loops

A loop goes round a body until the body ends it. `Loop body s es t` says that it ends: begun in the
state `s` it comes to its end in the state `t`, and on the way it has done `es`, in this order. The
body is a function, so a loop ends in one way only; a loop that never ends has no `Loop` at all.

`Loop.keeps` is the way to a fact about a loop: what every pass keeps, the loop keeps.
-/

namespace BattleScript

/-- One pass through the body of a loop: what was done in it, and whether the loop goes round again
(`yield`) or ends (`done`). -/
abbrev Pass (ε σ : Type) := List ε × ForInStep σ

/-- The loop ends: from a state, by what it does, in a state. -/
inductive Loop {ε σ : Type} (body : σ → Pass ε σ) : σ → List ε → σ → Prop
  | ends {s t : σ} {es : List ε} (pass : body s = (es, .done t)) : Loop body s es t
  | again {s s' t : σ} {es fs : List ε} (pass : body s = (es, .yield s'))
      (rest : Loop body s' fs t) : Loop body s (es ++ fs) t

namespace Loop

variable {ε σ : Type} {body : σ → Pass ε σ}

/-- A relation between what was done and the state reached is kept by a loop if every pass keeps
it. -/
theorem keeps {I : List ε → σ → Prop}
    (step : ∀ {es fs s next}, I es s → body s = (fs, next) → I (es ++ fs) next.value)
    {s t : σ} {es fs : List ε} (h : Loop body s fs t) (hs : I es s) : I (es ++ fs) t := by
  -- the record before the loop is general, since every pass adds to it
  induction h generalizing es with
  | ends pass => exact step hs pass
  | again pass _ ih =>
    rw [← List.append_assoc]
    exact ih (step hs pass)

end Loop

end BattleScript
