import BattleScript.Proofs.Number.Double
import BattleScript.Proofs.Scenario
import BattleScript.Proofs.Standard.Family

/-!
# Arithmetic of variables

`Operator.Calculates` says what the exact result of an operator is, as an integer of any size.
`Operator.apply` gives that result, cut to the range of 32 bits, though it divides in doubles
(`Operator.apply_exact`). It gives nothing for a divisor of zero, and in one case more: the
least number has a remainder by minus one, namely zero, but the quotient of the two is out of range
(`Operator.Refuses`).

`Chain.variable_arithmetic_exact` adds what this means for the command that changes a variable.
-/

namespace BattleScript

namespace Operator

/-- The exact result: a quotient is rounded down, a remainder has no sign but that of the
variable. -/
def Calculates : Operator → (x y z : Int) → Prop
  | set, _, y, z => z = y
  | add, x, y, z => z = x + y
  | sub, x, y, z => z = x - y
  | mul, x, y, z => z = x * y
  | div, x, y, z => z = ⌊(x : ℚ) / y⌋
  | rem, x, y, z => y ∣ x - z ∧ |z| < |y| ∧ 0 ≤ z * x

/-- The pairs of numbers for which there is no result. -/
def Refuses (o : Operator) (x y : Int) : Prop :=
  (o = div ∨ o = rem) ∧ y = 0 ∨ o = rem ∧ x = int32Min ∧ y = -1

instance (o : Operator) (x y : Int) : Decidable (o.Refuses x y) := by
  unfold Refuses; infer_instance

variable {x y : Int}

/-! ## Division and remainder -/

/-- The quotient of 32-bit numbers, calculated in doubles, is rounded down to the right integer. -/
theorem floor_div (hx : FitsInt32 x) (hy : FitsInt32 y) (h : y ≠ 0) :
    (Double.ofInt x / Double.ofInt y).floor = ⌊(x : ℚ) / y⌋ := by
  have hx' := abs_le_of_fits hx
  have hy' := abs_le_of_fits hy
  rw [Int.abs_eq_natAbs y] at hy'
  have hvalue : (Double.ofInt y).value = y := Double.value_ofInt_of_fits hy
  have hdiv := Double.roundsTo_div (Double.ofInt x) (y := Double.ofInt y)
    (by rw [hvalue]; exact_mod_cast h)
  -- the sign goes up to the numerator
  have hquot : (x : ℚ) / y = ((y.sign * x : ℤ) : ℚ) / (y.natAbs : ℕ) := by
    have hsign : (y.sign : ℚ) ≠ 0 := by
      exact_mod_cast mt Int.sign_eq_zero_iff_zero.mp h
    rw [← mul_div_mul_left _ _ hsign, Nat.cast_natAbs, ← Int.sign_mul_self_eq_abs]
    push_cast
    rfl
  rw [hvalue, Double.value_ofInt_of_fits hx, hquot] at hdiv
  rw [Double.floor_eq, hquot]
  refine hdiv.floor_eq (Int.natAbs_pos.mpr h) ?_ ?_
  · omega
  · rw [abs_mul, Int.abs_sign_of_ne_zero h, one_mul]
    omega

/-- The remainder has the sign of what is divided. -/
theorem tmod_nonpos (y : Int) (h : x ≤ 0) : Int.tmod x y ≤ 0 := by
  have := Int.tmod_nonneg y (Int.neg_nonneg_of_nonpos h)
  rw [Int.neg_tmod] at this
  omega

/-- A remainder is found by division towards zero. -/
theorem calculates_tmod (h : y ≠ 0) : rem.Calculates x y (Int.tmod x y) := by
  refine ⟨⟨Int.tdiv x y, ?_⟩, ?_, ?_⟩
  · have := Int.mul_tdiv_add_tmod x y
    omega
  · rw [Int.abs_eq_natAbs, Int.abs_eq_natAbs, Int.natAbs_tmod]
    exact_mod_cast Nat.mod_lt _ (Int.natAbs_pos.mpr h)
  · rcases le_total 0 x with hx | hx
    · exact mul_nonneg (Int.tmod_nonneg y hx) hx
    · exact mul_nonneg_of_nonpos_of_nonpos (tmod_nonpos y hx) hx

/-- No remainder is farther from zero than the variable. -/
theorem fitsInt32_tmod (hx : FitsInt32 x) (y : Int) : FitsInt32 (Int.tmod x y) := by
  obtain ⟨hlow, hhigh⟩ := hx
  have hle : (Int.tmod x y).natAbs ≤ x.natAbs := Int.natAbs_tmod x y ▸ Nat.mod_le _ _
  simp only [int32Min, int32Max] at hlow hhigh
  rcases le_total 0 x with h | h
  · have := Int.tmod_nonneg y h
    constructor <;> simp only [int32Min, int32Max] <;> omega
  · have := tmod_nonpos y h
    constructor <;> simp only [int32Min, int32Max] <;> omega

/-! ## All operators -/

/-- An operator gives the exact result within the range, or refuses. -/
theorem apply_exact (o : Operator) (hx : FitsInt32 x) (hy : FitsInt32 y) :
    if o.Refuses x y then o.apply x y = none
    else ∃ z, o.Calculates x y z ∧ o.apply x y = some (saturate z) := by
  -- only division and remainder can refuse
  cases o with
  | set => exact ⟨y, rfl, by rw [apply, saturate_of_fits hy]⟩
  | add => exact ⟨x + y, rfl, rfl⟩
  | sub => exact ⟨x - y, rfl, rfl⟩
  | mul => exact ⟨x * y, rfl, rfl⟩
  | div =>
    by_cases h : y = 0
    · rw [if_pos (.inl ⟨.inl rfl, h⟩), apply, if_pos h]
    · rw [if_neg (by simp [Refuses, h]), apply, if_neg h, floor_div hx hy h]
      exact ⟨_, rfl, rfl⟩
  | rem =>
    by_cases h : y = 0 ∨ x = int32Min ∧ y = -1
    · rw [if_pos (by simpa [Refuses] using h), apply, if_pos h]
    · rw [if_neg (by simpa [Refuses] using h), apply, if_neg h]
      have hy0 : y ≠ 0 := fun h0 => h (.inl h0)
      exact ⟨_, calculates_tmod hy0, by rw [saturate_of_fits (fitsInt32_tmod hx y)]⟩

end Operator

/-! ## The command -/

/-- The number that an operand stands for. -/
def Operand.Source.value (v : Variables) : Operand.Source → Int
  | .literal n => n
  | .stored id => v.get id

namespace EffectOp

/-- The words of a command that changes a variable. -/
def IsAssignment (words : List String) (id : Nat) (o : Operator) (source : Operand.Source) : Prop :=
  ∃ w n operator operand, words = "CHANGE" :: w :: n :: operator :: operand ∧
    (w = "VARIABLE" ∨ w = "VAR") ∧ Text.nat32? n.toList = some id ∧
    Operator.ofString? operator = some o ∧ source? operand = some source

variable {c : Command} {id : Nat} {o : Operator} {source : Operand.Source}

/-- What is written as an assignment is read as one. -/
theorem ofCommand?_of_isAssignment (h : IsAssignment c.words id o source) :
    ofCommand? c = some (.assign id (some o) source) := by
  obtain ⟨w, n, operator, operand, hwords, hw, hid, ho, hsource⟩ := h
  have hassign : assign? c = some (.assign id (some o) source) := by
    simp [assign?, hwords, hw, hid, ho, hsource]
  exact ofCommand?_eq_some_iff.mpr hassign

/-- An operand is a 32-bit number, written out or stored. -/
theorem fitsInt32_value {words : List String} {v : Variables} (h : source? words = some source)
    (hv : ∀ j, FitsInt32 (v.get j)) : FitsInt32 (source.value v) := by
  cases source with
  | stored j => exact hv j
  | literal n =>
    unfold source? at h
    split at h
    · simp at h
    · simp at h
    · next w =>
      obtain ⟨n, hn, hsource⟩ := Option.map_eq_some_iff.mp h
      cases hsource
      exact Text.fitsInt32_of_readSigned? hn
    · cases h

/-- The variables after an assignment. -/
theorem run_assign (ctx : ActionContext) (b : Battle) :
    (assign id (some o) source).run ctx b = (.proceed, { b with
      «variables» := ((o.apply (b.variables.get id) (source.value b.variables)).map
        (b.variables.set id)).getD b.variables }) := by
  simp only [run, Option.bind_some]
  cases source with
  | literal n =>
    simp only [Operand.Source.value]
    cases o.apply (b.variables.get id) n <;> rfl
  | stored j =>
    simp only [Operand.Source.value]
    cases o.apply (b.variables.get id) (b.variables.get j) <;> rfl

end EffectOp

namespace Chain

/-- **Variable arithmetic is exact.** For 32-bit numbers, an operator gives the exact result, cut to
the range: sum, difference, product, the quotient rounded down, the remainder with the sign of the
variable. It gives nothing if the operator divides and the operand is zero, nor for the remainder of
the least number by minus one. A line that changes a variable changes nothing else; it leaves the
variable as it is where there is no result, and otherwise stores the result, unless the variable has
the number zero, to which nothing can be written. -/
theorem variable_arithmetic_exact (o : Operator) :
    (∀ x y : Int, FitsInt32 x → FitsInt32 y →
      if o.Refuses x y then o.apply x y = none
      else ∃ z, o.Calculates x y z ∧ o.apply x y = some (saturate z)) ∧
    ∀ (line : Command) (id : Nat) (source : Operand.Source) (scene : Scene),
      EffectOp.IsAssignment line.words id o source →
      (∀ j, FitsInt32 (scene.battle.variables.get j)) →
      let vars := scene.battle.variables
      let x := vars.get id
      let y := source.value vars
      ∃ after : Variables,
        standard.dispatch line scene =
          (.proceed, { scene with battle := { scene.battle with «variables» := after } }) ∧
        (∀ j, FitsInt32 (after.get j)) ∧
        (o.Refuses x y ∨ id = 0 → after = vars) ∧
        (¬ o.Refuses x y → id ≠ 0 →
          (∃ z, o.Calculates x y z ∧ after.get id = saturate z) ∧
          ∀ j, j ≠ id → after.get j = vars.get j) := by
  refine ⟨fun x y hx hy => o.apply_exact hx hy, ?_⟩
  intro line id source scene hline hvars vars x y
  have hy : FitsInt32 y := by
    obtain ⟨_, _, _, _, _, _, _, _, hsource⟩ := hline
    exact EffectOp.fitsInt32_value hsource hvars
  rw [dispatch_effect (EffectOp.ofCommand?_of_isAssignment hline), EffectOp.run_assign]
  refine ⟨_, rfl, ?_⟩
  have hexact := o.apply_exact (hvars id) hy
  by_cases hrefused : o.Refuses x y
  · rw [if_pos hrefused] at hexact
    rw [hexact]
    exact ⟨hvars, fun _ => rfl, fun h => absurd hrefused h⟩
  · rw [if_neg hrefused] at hexact
    obtain ⟨z, hz, hresult⟩ := hexact
    rw [hresult, Option.map_some, Option.getD_some]
    refine ⟨fun j => ?_, fun h => ?_, fun _ hid => ⟨⟨z, hz, ?_⟩, fun j hj => ?_⟩⟩
    · rw [Variables.get_set]
      split
      · exact fitsInt32_saturate z
      · exact hvars j
    · rw [Variables.set, if_pos (h.resolve_left hrefused)]
    · rw [Variables.get_set, if_pos ⟨rfl, hid⟩]
    · rw [Variables.get_set, if_neg fun h => hj h.1]

/-- Half of -7 is stored as -4. -/
theorem variable_arithmetic_exact_floor :
    let s : Scenario := { Scenario.solo with «variables» := ({} : Variables).set 1 (-7) }
    let line := Command.ofLine "change var 1 /= 2"
    EffectOp.IsAssignment line.words 1 .div (.literal 2) ∧
      ∃ after : Variables, standard.dispatch line ⟨s.battle, s.context⟩ =
          (.proceed, ⟨{ s.battle with «variables» := after }, s.context⟩) ∧
        after.get 1 = -4 := by
  intro s line
  have hline : EffectOp.IsAssignment line.words 1 .div (.literal 2) :=
    ⟨"VAR", "1", "/=", ["2"], by decide +kernel⟩
  have hfits : ∀ j, FitsInt32 (s.battle.variables.get j) := by
    intro j
    rw [show s.battle.variables = Variables.set {} 1 (-7) from rfl, Variables.get_set]
    split
    · decide
    · show FitsInt32 0
      decide
  have hget : s.battle.variables.get 1 = -7 := by decide +kernel
  obtain ⟨after, hafter, -, -, hresult⟩ :=
    (variable_arithmetic_exact .div).2 line 1 (.literal 2) ⟨s.battle, s.context⟩ hline hfits
  obtain ⟨⟨z, hz, hvalue⟩, -⟩ := hresult (by decide +kernel) (by decide)
  refine ⟨hline, after, hafter, ?_⟩
  have hquot : z = -4 := by
    rw [hz, Int.floor_eq_iff]
    simp only [hget, Operand.Source.value]
    norm_num
  rw [hvalue, hquot]
  decide

/-- The remainder of the least number by minus one is zero, but there is no result, and the variable
keeps the least number. -/
theorem least_remainder_refused :
    let s : Scenario := { Scenario.solo with «variables» := ({} : Variables).set 1 int32Min }
    let line := Command.ofLine "change variable 1 %= -1"
    Operator.rem.Calculates int32Min (-1) 0 ∧ Operator.rem.apply int32Min (-1) = none ∧
      EffectOp.IsAssignment line.words 1 .rem (.literal (-1)) ∧
      s.battle.variables.get 1 = int32Min ∧
      (standard.dispatch line ⟨s.battle, s.context⟩).2.battle.variables.get 1 = int32Min := by
  refine ⟨⟨by decide, by decide, by decide⟩, by decide,
    ⟨"VARIABLE", "1", "%=", ["-1"], by decide +kernel⟩, by decide +kernel, by decide +kernel⟩

end Chain

end BattleScript
