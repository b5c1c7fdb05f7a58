import BattleScript.Proofs.Scenario
import BattleScript.Proofs.Standard.Family

/-!
# Memorized music

`MEMORIZE` keeps the track that is playing on a channel of music, or forgets the one it kept if none
is playing, and `MEMORY` plays what was kept. Any lines to the channels may stand between the two.
Whatever they play or stop, they leave what was kept alone, unless they are a `MEMORIZE` on the same
channel (`Chain.memorized_dispatch`, `Chain.memorized_foldl_dispatch`).

Which lines these are is not obvious from their first argument: on another channel the same word is
the name of a track (`Cue.of_ofArgument_eq_memorize`). And a line that opens with the name of a
channel is no other effect command (`EffectOp.ofCommand?_eq_some_iff`).
-/

namespace BattleScript

namespace Command

/-- Whether the line is addressed to a channel. -/
def IsAudio (line : Command) : Prop := (Channel.ofKeyword? line.name).isSome

/-- The line is addressed to the channel, and `word` is its first argument in upper case. -/
structure Tells (line : Command) (channel : Channel) (word : String) : Prop where
  channel : Channel.ofKeyword? line.name = some channel
  word : line.argUpper 0 = some word

instance (line : Command) : Decidable line.IsAudio := by unfold IsAudio; infer_instance

instance (line : Command) (channel : Channel) (word : String) :
    Decidable (line.Tells channel word) :=
  decidable_of_iff (Channel.ofKeyword? line.name = some channel ∧ line.argUpper 0 = some word)
    ⟨fun h => ⟨h.1, h.2⟩, fun h => ⟨h.channel, h.word⟩⟩

end Command

namespace Channel

/-- The channels whose track can be memorized. -/
def IsMusic (channel : Channel) : Prop := channel = bgm ∨ channel = bgs

instance (channel : Channel) : Decidable channel.IsMusic := by unfold IsMusic; infer_instance

end Channel

/-! ## Reading audio lines -/

namespace Cue

variable {channel : Channel} {first : String} {line : Command}

/-- Nothing is a `MEMORIZE` but the word. -/
theorem of_ofArgument_eq_memorize (h : ofArgument channel first line = .memorize) :
    Text.uppered first = "MEMORIZE" := by
  unfold ofArgument at h
  dsimp only at h
  -- the other words for cues, and names of tracks, give other cues
  split at h
  · cases h
  · split at h
    · next hword =>
      simp only [Bool.and_eq_true, decide_eq_true_eq] at hword
      exact hword.1
    · split at h
      · cases h
      · split at h <;> cases h

/-- On a channel of music the two words are cues. -/
theorem ofArgument_memorize (h : Text.uppered first = "MEMORIZE") (hmusic : channel.IsMusic) :
    ofArgument channel first line = .memorize := by
  unfold ofArgument
  rcases hmusic with rfl | rfl <;> simp [h]

theorem ofArgument_memory (h : Text.uppered first = "MEMORY") (hmusic : channel.IsMusic) :
    ofArgument channel first line = .replay := by
  unfold ofArgument
  rcases hmusic with rfl | rfl <;> simp [h]

end Cue

/-! ## Running audio lines -/

namespace EffectOp

variable {channel c : Channel} {cue : Cue}

/-- A cue leaves alone what a channel has memorized, unless it is a `MEMORIZE` on that channel. -/
theorem memorized_playCue (h : ¬ (channel = c ∧ cue = .memorize)) (b : Battle) :
    (playCue channel cue b).memorized.find? c = b.memorized.find? c := by
  -- only memorizing writes to what is kept, and then on its own channel
  cases cue with
  | memorize =>
    have hne : c ≠ channel := fun heq => h ⟨heq.symm, rfl⟩
    simp only [playCue]
    split
    · rw [OrderedMap.find?_insert, if_neg hne]
    · rw [OrderedMap.find?_erase, if_neg hne]
  | replay =>
    simp only [playCue]
    split <;> rfl
  | stop => rfl
  | system sound => rfl
  | play name volume pitch pan => rfl

/-- A `MEMORIZE` memorizes what is playing, if anything. -/
theorem memorized_playCue_memorize (b : Battle) :
    (playCue c .memorize b).memorized.find? c = b.mixer.current c := by
  simp only [playCue]
  split
  · next track htrack => rw [OrderedMap.find?_insert, if_pos rfl, htrack]
  · next htrack => rw [OrderedMap.find?_erase, if_pos rfl, htrack]

end EffectOp

namespace Chain

variable {line : Command} {c : Channel}

/-- What an audio line does. -/
theorem dispatch_audio (h : Channel.ofKeyword? line.name = some c) (scene : Scene) :
    standard.dispatch line scene = (.proceed, { scene with
      battle := (((line.arg 0).map fun first => Cue.ofArgument c first line).map
        fun cue => EffectOp.playCue c cue scene.battle).getD scene.battle }) := by
  have hread : EffectOp.ofCommand? line =
      some (.audio c ((line.arg 0).map fun first => Cue.ofArgument c first line)) := by
    rw [EffectOp.ofCommand?_eq_some_iff]
    show EffectOp.audio? line = _
    rw [EffectOp.audio?, h, Option.map_some]
  rw [dispatch_effect hread]
  rfl

/-- What an audio line with a first argument does. -/
theorem dispatch_of_tells {word : String} (h : line.Tells c word) (scene : Scene) :
    ∃ first, Text.uppered first = word ∧ standard.dispatch line scene =
      (.proceed, { scene with
        battle := EffectOp.playCue c (Cue.ofArgument c first line) scene.battle }) := by
  obtain ⟨first, hfirst, hword⟩ := Option.map_eq_some_iff.mp h.word
  rw [dispatch_audio h.channel, hfirst]
  exact ⟨first, hword, rfl⟩

/-- An audio line leaves alone what a channel has memorized, unless it is a `MEMORIZE` on it. -/
theorem memorized_dispatch (haudio : line.IsAudio) (h : ¬ line.Tells c "MEMORIZE") (scene : Scene) :
    (standard.dispatch line scene).2.battle.memorized.find? c =
      scene.battle.memorized.find? c := by
  obtain ⟨channel, hchannel⟩ := Option.isSome_iff_exists.mp haudio
  rw [dispatch_audio hchannel]
  cases hfirst : line.arg 0 with
  | none => rfl
  | some first =>
    -- were the cue to memorize on this channel, the line would say so
    refine EffectOp.memorized_playCue ?_ _
    rintro ⟨rfl, hcue⟩
    refine h ⟨hchannel, ?_⟩
    rw [Command.argUpper, hfirst, Option.map_some, Cue.of_ofArgument_eq_memorize hcue]

/-- Nor do any number of such lines change it. -/
theorem memorized_foldl_dispatch {lines : List Command}
    (h : ∀ line ∈ lines, line.IsAudio ∧ ¬ line.Tells c "MEMORIZE") (scene : Scene) :
    (lines.foldl (fun s line => (standard.dispatch line s).2) scene).battle.memorized.find? c =
      scene.battle.memorized.find? c := by
  induction lines generalizing scene with
  | nil => rfl
  | cons line lines ih =>
    obtain ⟨haudio, hother⟩ := h line List.mem_cons_self
    rw [List.foldl_cons, ih fun line hline => h line (List.mem_cons_of_mem _ hline),
      memorized_dispatch haudio hother]

/-- **Memorized music comes back.** After a `MEMORIZE` on a channel of music and any audio lines but
another `MEMORIZE` on it, a `MEMORY` changes nothing but the mixer: if a track was playing on the
channel at the `MEMORIZE`, that track is playing there again, and what is playing on the other
channels goes on; if none was playing, nothing changes at all, whatever was memorized before. -/
theorem memorized_music_comes_back (c : Channel) (hmusic : c.IsMusic) (memorize memory : Command)
    (between : List Command) (hmemorize : memorize.Tells c "MEMORIZE")
    (hbetween : ∀ line ∈ between, line.IsAudio ∧ ¬ line.Tells c "MEMORIZE")
    (hmemory : memory.Tells c "MEMORY") (scene : Scene) :
    let before := (memorize :: between).foldl (fun s line => (standard.dispatch line s).2) scene
    (∀ track, scene.battle.mixer.current c = some track →
      ∃ mixer : Mixer,
        standard.dispatch memory before =
          (.proceed, { before with battle := { before.battle with mixer := mixer } }) ∧
        mixer.current c = some track ∧
        ∀ d, d ≠ c → mixer.current d = before.battle.mixer.current d) ∧
    (scene.battle.mixer.current c = none →
      standard.dispatch memory before = (.proceed, before)) := by
  intro before
  obtain ⟨first, hword, hmemorizes⟩ := dispatch_of_tells hmemorize scene
  rw [Cue.ofArgument_memorize hword hmusic] at hmemorizes
  -- what the `MEMORIZE` kept is still there
  have hkept : before.battle.memorized.find? c = scene.battle.mixer.current c := by
    simp only [before, List.foldl_cons]
    rw [memorized_foldl_dispatch hbetween, hmemorizes]
    exact EffectOp.memorized_playCue_memorize scene.battle
  obtain ⟨first, hword, hmemory⟩ := dispatch_of_tells hmemory before
  rw [Cue.ofArgument_memory hword hmusic, EffectOp.playCue, hkept] at hmemory
  constructor
  · intro track htrack
    rw [htrack] at hmemory
    refine ⟨_, hmemory, ?_, fun d hd => ?_⟩
    · rw [Mixer.replay, Mixer.current, OrderedMap.find?_insert, if_pos rfl]
    · rw [Mixer.replay, Mixer.current, OrderedMap.find?_insert, if_neg hd]
      rfl
  · intro hsilent
    rw [hsilent] at hmemory
    exact hmemory

/-- The music of the town comes back after other music, whatever else is memorized or has that name
as a track. -/
theorem memorized_music_comes_back_town :
    let s := Scenario.solo
    let town := (standard.dispatch (Command.ofLine "song: town, 80") ⟨s.battle, s.context⟩).2
    let lines := ["music: memorize", "bgm: battle", "bgs: memorize", "me: memorize", "se: play ok",
      "bgm: stop"].map Command.ofLine
    let before := lines.foldl (fun s line => (standard.dispatch line s).2) town
    before.battle.mixer.current .bgm = none ∧
    ∃ mixer : Mixer,
      standard.dispatch (Command.ofLine "BGM: Memory") before =
        (.proceed, { before with battle := { before.battle with mixer := mixer } }) ∧
      mixer.current .bgm = some ⟨"town", 80, 100, 0⟩ := by
  intro s town lines before
  obtain ⟨hcomesBack, -⟩ := memorized_music_comes_back .bgm (by decide)
    (Command.ofLine "music: memorize") (Command.ofLine "BGM: Memory")
    (["bgm: battle", "bgs: memorize", "me: memorize", "se: play ok", "bgm: stop"].map
      Command.ofLine)
    (by decide +kernel) (by decide +kernel) (by decide +kernel) town
  obtain ⟨mixer, hmixer, hcurrent, -⟩ := hcomesBack ⟨"town", 80, 100, 0⟩ (by decide +kernel)
  exact ⟨by decide +kernel, mixer, hmixer, hcurrent⟩

end Chain

end BattleScript
