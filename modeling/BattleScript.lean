import BattleScript.Session
import BattleScript.Proofs.Interpreter.Log
import BattleScript.Proofs.Interpreter.Order
import BattleScript.Proofs.Runner.Log
import BattleScript.Proofs.Runner.Phases
import BattleScript.Proofs.Battler.Step
import BattleScript.Proofs.Stage.Countdown
import BattleScript.Proofs.Standard.Edits
import BattleScript.Proofs.Scenario
import BattleScript.Proofs.Runner.Termination
import BattleScript.Proofs.Looks.Alike
import BattleScript.Proofs.Looks.Commands
import BattleScript.Proofs.Runner.PlayOut
import BattleScript.Proofs.Looks.Outcome
import BattleScript.Proofs.Battler.Life
import BattleScript.Proofs.Battler.Pools
import BattleScript.Proofs.Cooldown.Payment
import BattleScript.Proofs.Runner.Cost
import BattleScript.Proofs.Standard.Family
import BattleScript.Proofs.Standard.Selection
import BattleScript.Proofs.Collapse.OncePerDeath
import BattleScript.Proofs.Note.RoundTrip
import BattleScript.Proofs.Padding.Action
import BattleScript.Proofs.Battler.Start
import BattleScript.Proofs.Cooldown.Bypass
import BattleScript.Proofs.Standard.Sequence
import BattleScript.Proofs.Runner.Immortality
import BattleScript.Proofs.Target.Resolution
import BattleScript.Proofs.Target.Mirror
import BattleScript.Proofs.Standard.Moments
import BattleScript.Proofs.Standard.Untouched
import BattleScript.Proofs.View
import BattleScript.Proofs.Item.CopyChain
import BattleScript.Proofs.Target.AnyOrder
import BattleScript.Proofs.Cooldown.Aftermath
import BattleScript.Proofs.Cooldown.Range
import BattleScript.Proofs.Text.Words
import BattleScript.Proofs.Cooldown.Writing
import BattleScript.Proofs.Cooldown.Scope
import BattleScript.Proofs.Cooldown.Agreement
import BattleScript.Proofs.Battler.Buffs
import BattleScript.Proofs.Standard.Guard
import BattleScript.Proofs.Number.Percent
import BattleScript.Proofs.Store.Assignment
import BattleScript.Proofs.Sound.Memorized
import BattleScript.Proofs.Standard.StateResults
import BattleScript.Proofs.Text.Upper
import BattleScript.Proofs.Text.Collapse
import BattleScript.Proofs.Script.NormalForm
import BattleScript.Proofs.Target.Grammar
import BattleScript.Proofs.Store.SwitchRange
import BattleScript.Proofs.Note.Layout
import BattleScript.Proofs.Stage.Fixed
import BattleScript.Proofs.Stage.Easing
import BattleScript.Proofs.Script.Integer
import BattleScript.Proofs.Script.Amount
import BattleScript.Proofs.Store.Inventory
