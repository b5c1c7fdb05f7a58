import BattleScript.OrderedMap
import BattleScript.Text.Case

/-!
# Sound

Tracks play on four channels. The mixer keeps what is playing on each of them and every event; sound
effects are over at once and so never count as playing, unless they are replayed.
-/

namespace BattleScript

/-- The channels: music, ambience, fanfares and sound effects. -/
inductive Channel
  | bgm
  | bgs
  | me
  | se
  deriving DecidableEq, Repr

/-- The channel that a keyword names. -/
def Channel.ofKeyword? (s : String) : Option Channel :=
  match Text.keyword s with
  | "BGM" | "MUSIC" | "SONG" => some .bgm
  | "BGS" | "AMBIENCE" => some .bgs
  | "ME" | "FANFARE" => some .me
  | "SE" | "SOUND" | "SFX" => some .se
  | _ => none

/-- A sound file and how it is played. -/
structure Track where
  name : String
  volume : Int
  pitch : Int
  pan : Int
  deriving DecidableEq, Repr

/-- The sounds that belong to the game system. -/
inductive SystemSound
  | cursor
  | ok
  | cancel
  | buzzer
  | equip
  | save
  | load
  | battleStart
  | escape
  | enemyAttack
  | enemyDamage
  | enemyCollapse
  | bossCollapse1
  | bossCollapse2
  | actorDamage
  | actorCollapse
  | recovery
  | miss
  | evasion
  | magicEvasion
  | reflection
  | shop
  | useItem
  | useSkill
  deriving DecidableEq, Repr

/-- The system sound that a keyword names. -/
def SystemSound.ofKeyword? (s : String) : Option SystemSound :=
  match Text.keyword s with
  | "CURSOR" => some .cursor
  | "OK" => some .ok
  | "CANCEL" => some .cancel
  | "BUZZER" => some .buzzer
  | "EQUIP" => some .equip
  | "SAVE" => some .save
  | "LOAD" => some .load
  | "BATTLE START" => some .battleStart
  | "ESCAPE" => some .escape
  | "ENEMY ATTACK" => some .enemyAttack
  | "ENEMY DAMAGE" => some .enemyDamage
  | "ENEMY COLLAPSE" => some .enemyCollapse
  | "BOSS COLLAPSE 1" => some .bossCollapse1
  | "BOSS COLLAPSE 2" => some .bossCollapse2
  | "ACTOR DAMAGE" => some .actorDamage
  | "ACTOR COLLAPSE" => some .actorCollapse
  | "RECOVERY" => some .recovery
  | "MISS" => some .miss
  | "EVASION" => some .evasion
  | "MAGIC EVASION" => some .magicEvasion
  | "REFLECTION" => some .reflection
  | "SHOP" => some .shop
  | "USE ITEM" => some .useItem
  | "USE SKILL" => some .useSkill
  | _ => none

/-- What the mixer was told. -/
inductive AudioEvent
  | play (channel : Channel) (track : Track)
  | stop (channel : Channel)
  | replay (channel : Channel) (track : Track)
  | system (sound : SystemSound)
  deriving DecidableEq, Repr

/-- What is playing, and all events so far. -/
structure Mixer where
  playing : OrderedMap Channel Track := ∅
  history : Array AudioEvent := #[]
  deriving Repr

namespace Mixer

/-- Plays a track. -/
def play (m : Mixer) (c : Channel) (t : Track) : Mixer where
  playing := if c = .se then m.playing else m.playing.insert c t
  history := m.history.push (.play c t)

/-- Silences a channel. -/
def stop (m : Mixer) (c : Channel) : Mixer :=
  ⟨m.playing.erase c, m.history.push (.stop c)⟩

/-- Plays a track that was playing before. -/
def replay (m : Mixer) (c : Channel) (t : Track) : Mixer :=
  ⟨m.playing.insert c t, m.history.push (.replay c t)⟩

/-- Plays a system sound. -/
def system (m : Mixer) (s : SystemSound) : Mixer := { m with history := m.history.push (.system s) }

/-- The track that is playing on a channel. -/
def current (m : Mixer) (c : Channel) : Option Track := m.playing.find? c

end Mixer

end BattleScript
