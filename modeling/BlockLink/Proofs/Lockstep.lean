import BlockLink.Proofs.Effect

/-!
Two links in lockstep.

The sides of one link are paired with those of another. What an operation does to the lanes,
to the staged words and to the clock depends on nothing else, so two links that agree on these
go on to agree when the same is done to both, each side in the place of its counterpart. The
watermarks may be required to agree as well. If they are not, only what shows them can tell
the links apart.
-/

namespace BlockLink

/-- How the sides of one link answer to those of another. -/
structure Pairing where
  across : Side → Side
  across_peer (side : Side) : across side.peer = (across side).peer
  /-- Whether the watermarks have to agree as well. -/
  strict : Prop

def Station.withoutWatermarks (station : Station) : Station :=
  station.withWatermarks fun _ => 0

def Config.withoutWatermarks (config : Config) : Config :=
  { config with
    txWatermark := 0
    rxWatermark := 0 }

theorem Station.watermark_setWatermark (station : Station) (queue other : Queue) (level : UInt64) :
    ((Station.setWatermark queue level).run station).state.watermark other =
      if other = queue ∧ WatermarkValid level then level else station.watermark other := by
  by_cases valid : WatermarkValid level
  · rw [run_setWatermark_of_valid station queue valid]
    by_cases same : other = queue
    · rw [if_pos ⟨same, valid⟩, same, watermark_withWatermark_self]
    · rw [if_neg (fun set => same set.1), watermark_withWatermark_of_ne station level same]
  · rw [run_setWatermark_of_invalid station queue valid, if_neg fun set => valid set.2]

/-- The word that CTRL shows asks for nothing, whatever the watermarks are. -/
theorem Station.silent_of_controlWord {station : Station} {word : UInt32}
    (shown : station.controlWord = .ok word) : ControlWord.Silent word := by
  have put {field : Field} {before after : UInt32} {value : Nat}
      (assigned : field.assign before value = .ok after) : after = field.put before value := by
    unfold Field.assign at assigned
    split at assigned
    · exact (Except.ok.inj assigned).symm
    · cases assigned
  have blank : ControlWord.Silent 0 := fun pulse _ => by simp [Field.isSet, Field.get]
  rw [controlWord] at shown
  cases lower : ControlWord.txWatermark.assign 0 (station.txWatermark.toNat % 256) with
  | error fault =>
    rw [lower] at shown
    cases shown
  | ok before =>
    rw [lower] at shown
    have assigned : ControlWord.rxWatermark.assign before (station.rxWatermark.toNat % 256) =
        .ok word :=
      shown
    rw [put assigned, put lower]
    exact (blank.put_watermark .transmit _).put_watermark .receive _

/-- Whether two control words ask for the same, and hold the same watermarks if they have to. -/
structure ControlWord.Akin (pairing : Pairing) (word other : UInt32) : Prop where
  pulse : ∀ pulse ∈ pulses, pulse.isSet other = pulse.isSet word
  strict : pairing.strict → other = word

/-- They do so still when a field of both has been replaced. -/
theorem ControlWord.Akin.put {pairing : Pairing} {word other : UInt32}
    (words : Akin pairing word other) {field : Field} (isField : field ∈ fields) (value : Nat) :
    Akin pairing (field.put word value) (field.put other value) where
  pulse pulse isPulse := by
    have fits : ∀ field ∈ fields, field.Fits := by decide
    have apart : ∀ field ∈ fields, ∀ pulse ∈ pulses, pulse ≠ field → field.Apart pulse := by
      decide
    by_cases same : pulse = field
    · rw [same, Field.isSet_put_self _ _ (fits field isField),
        Field.isSet_put_self _ _ (fits field isField)]
    · have isApart := apart field isField pulse isPulse same
      rw [Field.isSet_put_of_apart _ _ (fits field isField) isApart,
        Field.isSet_put_of_apart _ _ (fits field isField) isApart, words.pulse pulse isPulse]
  strict isStrict := by rw [words.strict isStrict]

/-- Whether two reads of CTRL fail for the same reason, or show words that ask for the same. -/
inductive ControlWord.ShownAkin (pairing : Pairing) :
    Except Fault UInt32 → Except Fault UInt32 → Prop where
  | word {word other : UInt32} : Akin pairing word other → ShownAkin pairing (.ok word) (.ok other)
  | fault (fault : Fault) : ShownAkin pairing (.error fault) (.error fault)

/-- Whether one link is like another one with its sides in the places of their counterparts. -/
structure Link.Akin (pairing : Pairing) (link other : Link) : Prop where
  lane (sender : Side) : other.lane (pairing.across sender) = link.lane sender
  staged (side : Side) : other.staged.get (pairing.across side) = link.staged.get side
  time : other.time = link.time
  watermark : pairing.strict → ∀ side queue,
    (other.station (pairing.across side)).watermark queue = (link.station side).watermark queue
  accepted : link.config.Accepted ∧ other.config.Accepted
  settings : other.config.withoutWatermarks = link.config.withoutWatermarks
  config : pairing.strict → other.config = link.config

/-- Whether two outcomes leave such links behind, with values that are related. -/
structure Outcome.Akin (pairing : Pairing) {α : Type} (related : α → α → Prop)
    (outcome other : Outcome Event Link α) : Prop where
  value : related outcome.value other.value
  state : outcome.state.Akin pairing other.state

/-- Whether two steps take such links to such links, with values that are related. -/
def Step.Lockstep (pairing : Pairing) {α : Type} (related : α → α → Prop)
    (step other : Step Event Link α) : Prop :=
  ∀ ⦃link otherLink : Link⦄, link.Akin pairing otherLink →
    (step.run link).Akin pairing related (other.run otherLink)

section Combining

variable {pairing : Pairing} {α β : Type} {related : α → α → Prop} {relatedNext : β → β → Prop}

theorem Outcome.Akin.bind {first otherFirst : Step Event Link α}
    {second otherSecond : α → Step Event Link β} {link otherLink : Link}
    (before : (first.run link).Akin pairing related (otherFirst.run otherLink))
    (after : ∀ {value other : α}, related value other →
      (second value).Lockstep pairing relatedNext (otherSecond other)) :
    ((first >>= second).run link).Akin pairing relatedNext
      ((otherFirst >>= otherSecond).run otherLink) := by
  have later := after before.value before.state
  exact ⟨later.value, later.state⟩

theorem Outcome.Akin.answer {step otherStep : Step Event Link α} {link otherLink : Link}
    (before : (step.run link).Akin pairing Eq (otherStep.run otherLink)) (change : α → β) :
    ((step >>= fun value => pure (change value)).run link).Akin pairing Eq
      ((otherStep >>= fun value => pure (change value)).run otherLink) :=
  ⟨congrArg change before.value, before.state⟩

namespace Step.Lockstep

theorem value {value other : α} (akin : related value other) :
    (pure value : Step Event Link α).Lockstep pairing related (pure other) :=
  fun _ _ links => ⟨akin, links⟩

/-- Steps that change nothing may be paired whatever they report. -/
theorem still {step other : Step Event Link Unit} (kept : ∀ link, (step.run link).state = link)
    (otherKept : ∀ link, (other.run link).state = link) : step.Lockstep pairing Eq other := by
  intro link otherLink links
  refine ⟨rfl, ?_⟩
  rw [kept, otherKept]
  exact links

theorem observe {view other : Link → α}
    (akin : ∀ {link otherLink : Link}, link.Akin pairing otherLink →
      related (view link) (other otherLink)) :
    (Step.observe view : Step Event Link α).Lockstep pairing related (Step.observe other) :=
  fun _ _ links => ⟨akin links, links⟩

theorem bind {first otherFirst : Step Event Link α} {second otherSecond : α → Step Event Link β}
    (before : first.Lockstep pairing related otherFirst)
    (after : ∀ {value other : α}, related value other →
      (second value).Lockstep pairing relatedNext (otherSecond other)) :
    (first >>= second).Lockstep pairing relatedNext (otherFirst >>= otherSecond) :=
  fun _ _ links => (before links).bind after

theorem bindEq {first otherFirst : Step Event Link α} {second otherSecond : α → Step Event Link β}
    (before : first.Lockstep pairing Eq otherFirst)
    (after : ∀ value, (second value).Lockstep pairing relatedNext (otherSecond value)) :
    (first >>= second).Lockstep pairing relatedNext (otherFirst >>= otherSecond) := by
  apply before.bind
  rintro value _ rfl
  exact after value

theorem answer {step other : Step Event Link α} (before : step.Lockstep pairing Eq other)
    (change : α → β) :
    (step >>= fun value => pure (change value)).Lockstep pairing Eq
      (other >>= fun value => pure (change value)) :=
  fun _ _ links => (before links).answer change

theorem mapEq {step other : Step Event Link α} (change : α → β)
    (before : step.Lockstep pairing Eq other) :
    (change <$> step).Lockstep pairing Eq (change <$> other) :=
  fun _ _ links => ⟨congrArg change (before links).value, (before links).state⟩

end Step.Lockstep

end Combining

namespace Link

variable {pairing : Pairing} {link other : Link}

namespace Akin

variable (akin : link.Akin pairing other)
include akin

theorem lane_peer (side : Side) :
    other.lane (pairing.across side).peer = link.lane side.peer := by
  rw [← pairing.across_peer]
  exact akin.lane side.peer

theorem station (side : Side) :
    (other.station (pairing.across side)).withoutWatermarks =
      (link.station side).withoutWatermarks := by
  have receiving := akin.lane_peer side
  rw [Link.lane_peer, Link.lane_peer] at receiving
  obtain ⟨waiting, -, isOpen, isLoaded, -⟩ := Lane.mk.inj (akin.lane side)
  obtain ⟨-, arrived, -, -, isPending⟩ := Lane.mk.inj receiving
  exact Station.ext (Fifo.ext waiting) (Fifo.ext arrived) rfl rfl isOpen isPending isLoaded

theorem station_of_strict (strict : pairing.strict) (side : Side) :
    other.station (pairing.across side) = link.station side := by
  have levels := akin.watermark strict side
  have same := Station.mk.inj (akin.station side)
  obtain ⟨tx, rx, -, -, isOpen, isPending, isLoaded⟩ := same
  exact Station.ext tx rx (levels .transmit) (levels .receive) isOpen isPending isLoaded

theorem status (side : Side) : other.status (pairing.across side) = link.status side :=
  (congrArg Station.status (akin.station side) :)

theorem peek (side : Side) :
    (other.station (pairing.across side)).peek = (link.station side).peek := by
  rw [peek_eq_lane, peek_eq_lane, akin.lane_peer]

theorem linkLatency : other.config.linkLatency = link.config.linkLatency :=
  (congrArg Config.linkLatency akin.settings :)

theorem accessCycles : other.config.accessCycles = link.config.accessCycles :=
  (congrArg Config.accessCycles akin.settings :)

/-- What changes the lanes and the clock at most has to change these alike. -/
theorem of_aside {later otherLater : Link} (aside : link.AgreesAside later)
    (otherAside : other.AgreesAside otherLater) (time : otherLater.time = later.time)
    (lane : ∀ sender, otherLater.lane (pairing.across sender) = later.lane sender) :
    later.Akin pairing otherLater where
  lane := lane
  staged side := by
    rw [aside.staged, otherAside.staged]
    exact akin.staged side
  time := time
  watermark strict side queue := by
    rw [aside.watermark, otherAside.watermark]
    exact akin.watermark strict side queue
  accepted := by
    rw [aside.config, otherAside.config]
    exact akin.accepted
  settings := by
    rw [aside.config, otherAside.config]
    exact akin.settings
  config := by
    rw [aside.config, otherAside.config]
    exact akin.config

/-- What works on the lanes of one side. -/
theorem of_side {later otherLater : Link} (side : Side) (aside : link.AgreesAside later)
    (otherAside : other.AgreesAside otherLater) (time : otherLater.time = later.time)
    (sending : otherLater.lane (pairing.across side) = later.lane side)
    (receiving : otherLater.lane (pairing.across side).peer = later.lane side.peer) :
    later.Akin pairing otherLater := by
  apply akin.of_aside aside otherAside time
  intro sender
  rcases Side.self_or_peer side sender with rfl | rfl
  · exact sending
  · rw [pairing.across_peer]
    exact receiving

end Akin

section Steps

variable (side : Side)

theorem lockstep_settle : settle.Lockstep pairing Eq settle := by
  intro link other akin
  refine ⟨rfl, akin.of_aside (aside_law.settle link) (aside_law.settle other) akin.time ?_⟩
  intro sender
  rw [lane_settle, lane_settle, akin.lane, akin.time]

theorem lockstep_elapse {cycles otherCycles : Time} (same : otherCycles = cycles) :
    (Step.update fun link : Link => { link with time := link.time.after cycles }).Lockstep
      pairing Eq
      (Step.update fun link : Link => { link with time := link.time.after otherCycles }) := by
  intro link other akin
  refine ⟨rfl, akin.of_aside (aside_law.elapse cycles link) (aside_law.elapse otherCycles other)
    ?_ akin.lane⟩
  rw [Step.run_update, Step.run_update, akin.time, same]

theorem lockstep_advance {cycles otherCycles : Time} (same : otherCycles = cycles) :
    (advance cycles).Lockstep pairing Eq (advance otherCycles) :=
  (lockstep_elapse same).bindEq fun _ => lockstep_settle

theorem lockstep_charge : charge.Lockstep pairing Eq charge := by
  intro link other akin
  rw [run_charge, run_charge]
  exact lockstep_advance akin.accessCycles akin

theorem lockstep_charged {α : Type} {related : α → α → Prop} {step otherStep : Step Event Link α}
    (lockstep : step.Lockstep pairing related otherStep) :
    (do charge; step : Step Event Link α).Lockstep pairing related (do charge; otherStep) :=
  lockstep_charge.bindEq fun _ => lockstep

theorem lockstep_openMessage :
    (openMessage side).Lockstep pairing Eq (openMessage (pairing.across side)) := by
  intro link other akin
  refine ⟨rfl, akin.of_side side (aside_openMessage link side) (aside_openMessage other _)
    akin.time ?_ ?_⟩
  · rw [lane_openMessage_self, lane_openMessage_self, akin.lane]
  · rw [lane_openMessage_peer, lane_openMessage_peer, akin.lane_peer]

theorem lockstep_closeMessage :
    (closeMessage side).Lockstep pairing Eq (closeMessage (pairing.across side)) := by
  intro link other akin
  refine ⟨rfl, akin.of_side side (aside_closeMessage link side) (aside_closeMessage other _)
    ?_ ?_ ?_⟩
  · rw [time_closeMessage, time_closeMessage, akin.time]
  · rw [lane_closeMessage_self, lane_closeMessage_self, akin.lane, akin.time]
  · rw [lane_closeMessage_peer, lane_closeMessage_peer, akin.lane_peer, akin.time]

theorem lockstep_confirm :
    (confirm side).Lockstep pairing Eq (confirm (pairing.across side)) := by
  intro link other akin
  refine ⟨rfl, akin.of_side side (aside_confirm link side) (aside_confirm other _) ?_ ?_ ?_⟩
  · rw [time_confirm, time_confirm, akin.time]
  · rw [lane_confirm_self, lane_confirm_self, akin.lane, akin.time]
  · rw [lane_confirm_peer, lane_confirm_peer, akin.lane_peer, akin.time]

theorem lockstep_load (block : Block) :
    (load side block).Lockstep pairing Eq (load (pairing.across side) block) := by
  intro link other akin
  refine ⟨?_, ?_⟩
  · rw [value_load, value_load, akin.lane]
  · by_cases ready : (link.station side).IsReady
    · have isReady : (link.lane side).IsReady := ready
      rw [← akin.lane] at isReady
      have otherReady : (other.station (pairing.across side)).IsReady := isReady
      refine akin.of_side side (aside_load_of_ready block ready)
        (aside_load_of_ready block otherReady) ?_ ?_ ?_
      · rw [time_load_of_ready block ready, time_load_of_ready block otherReady, akin.time]
      · rw [lane_load_self_of_ready block ready, lane_load_self_of_ready block otherReady,
          akin.lane, akin.time, akin.linkLatency]
      · rw [lane_load_peer_of_ready block ready, lane_load_peer_of_ready block otherReady,
          akin.lane_peer, akin.time]
    · have isUnready : ¬ (link.lane side).IsReady := ready
      rw [← akin.lane] at isUnready
      rw [run_load_of_unready block ready, run_load_of_unready block isUnready]
      exact akin

theorem lockstep_read :
    (read side).Lockstep pairing Eq (read (pairing.across side)) := by
  intro link other akin
  cases shown : (link.station side).peek with
  | ok block =>
    have otherShown : (other.station (pairing.across side)).peek = .ok block := by
      rw [akin.peek, shown]
    refine ⟨?_, akin.of_side side (aside_read_of_ok shown) (aside_read_of_ok otherShown) ?_ ?_ ?_⟩
    · rw [value_read_of_ok shown, value_read_of_ok otherShown]
    · rw [time_read_of_ok shown, time_read_of_ok otherShown, akin.time]
    · rw [lane_read_self_of_ok shown, lane_read_self_of_ok otherShown, akin.lane, akin.time]
    · rw [lane_read_peer_of_ok shown, lane_read_peer_of_ok otherShown, akin.lane_peer, akin.time]
  | error refusal =>
    have otherShown : (other.station (pairing.across side)).peek = .error refusal := by
      rw [akin.peek, shown]
    rw [run_read_of_error shown, run_read_of_error otherShown]
    exact ⟨rfl, akin⟩

theorem station_setWatermark_self (link : Link) (queue : Queue) (level : UInt64) :
    ((setWatermark side queue level).run link).state.station side =
      ((Station.setWatermark queue level).run (link.station side)).state := by
  rw [setWatermark, run_atStation, station_withStation_self]

theorem station_setWatermark_peer (link : Link) (queue : Queue) (level : UInt64) :
    ((setWatermark side queue level).run link).state.station side.peer =
      link.station side.peer := by
  rw [setWatermark, run_atStation, station_withStation_peer]

theorem lockstep_setWatermark (queue : Queue) {level otherLevel : UInt64}
    (same : pairing.strict → otherLevel = level) :
    (setWatermark side queue level).Lockstep pairing
      (fun answer otherAnswer => otherLevel = level → answer = otherAnswer)
      (setWatermark (pairing.across side) queue otherLevel) := by
  intro link other akin
  refine ⟨?_, ?_⟩
  · rintro rfl
    rw [value_setWatermark, value_setWatermark]
  · exact
      { lane := fun sender => by rw [lane_setWatermark, lane_setWatermark, akin.lane]
        staged := akin.staged
        time := akin.time
        watermark := fun strict target changed => by
          rcases Side.self_or_peer side target with rfl | rfl
          · rw [station_setWatermark_self, station_setWatermark_self,
              Station.watermark_setWatermark, Station.watermark_setWatermark, same strict,
              akin.watermark strict]
          · rw [pairing.across_peer, station_setWatermark_peer, station_setWatermark_peer,
              ← pairing.across_peer, akin.watermark strict]
        accepted := akin.accepted
        settings := akin.settings
        config := akin.config }

theorem lockstep_status :
    (Endpoint.status side).Lockstep pairing Eq (Endpoint.status (pairing.across side)) :=
  lockstep_charged (.observe fun akin => (akin.status side).symm)

theorem lockstep_now :
    (Step.observe fun link : Link => link.time).Lockstep pairing Eq
      (Step.observe fun link : Link => link.time) :=
  .observe fun akin => akin.time.symm

theorem lockstep_readStatus :
    (readStatus side).Lockstep pairing Eq (readStatus (pairing.across side)) := by
  apply lockstep_charged
  apply Step.Lockstep.observe
  intro link other akin
  rw [akin.status]

theorem lockstep_readControl :
    (readControl side).Lockstep pairing
      (fun shown otherShown => pairing.strict → shown = otherShown)
      (readControl (pairing.across side)) := by
  apply lockstep_charged
  apply Step.Lockstep.observe
  intro link other akin strict
  rw [akin.station_of_strict strict]

theorem lockstep_showData (position : Fin 4) (shown : Except Refusal Block) :
    (showData side position shown).Lockstep pairing Eq
      (showData (pairing.across side) position shown) := by
  cases shown with
  | ok block => exact .value rfl
  | error refusal =>
    have reports : (Step.report (.windowUnreadable side refusal)).Lockstep pairing Eq
        (Step.report (.windowUnreadable (pairing.across side) refusal)) :=
      .still (fun _ => rfl) fun _ => rfl
    exact reports.answer _

theorem lockstep_readData (position : Fin 4) :
    (readData side position).Lockstep pairing Eq (readData (pairing.across side) position) := by
  apply lockstep_charged
  by_cases last : position = 3
  · simp only [last, if_true]
    exact (lockstep_read side).bindEq fun shown => lockstep_showData side 3 shown
  · simp only [last, if_false]
    refine .bindEq (.observe fun akin => ?_) fun shown => lockstep_showData side position shown
    rw [akin.peek]

theorem lockstep_readRegister (address : UInt32) :
    (readRegister side address).Lockstep pairing
      (fun shown otherShown => pairing.strict ∨ address ≠ Register.control.address →
        shown = otherShown)
      (readRegister (pairing.across side) address) := by
  have plain {step otherStep : Step Event Link (Except Fault UInt32)}
      (lockstep : step.Lockstep pairing Eq otherStep) :
      step.Lockstep pairing (fun shown otherShown =>
        pairing.strict ∨ address ≠ Register.control.address → shown = otherShown) otherStep :=
    fun _ _ akin => ⟨fun _ => (lockstep akin).value, (lockstep akin).state⟩
  have blank (event otherEvent : Event) :
      (readRegister.blank event).Lockstep pairing Eq (readRegister.blank otherEvent) := by
    have reports : (Step.report event).Lockstep pairing Eq (Step.report otherEvent) :=
      .still (fun _ => rfl) fun _ => rfl
    exact lockstep_charged (reports.answer _)
  unfold readRegister
  split
  next => exact plain (.mapEq _ (lockstep_readStatus side))
  next found =>
    intro link other akin
    have shown := lockstep_readControl side akin
    refine ⟨fun compared => shown.value ?_, shown.state⟩
    exact compared.resolve_right fun apart => apart (Register.eq_address_of_found found)
  next => exact plain (.mapEq _ (lockstep_readData side _))
  all_goals exact plain (blank _ _)

theorem lockstep_pulse {field : Field} {word otherWord : UInt32}
    (same : field.isSet otherWord = field.isSet word) {action otherAction : Step Event Link Unit}
    (lockstep : action.Lockstep pairing Eq otherAction) :
    (pulse field word action).Lockstep pairing Eq (pulse field otherWord otherAction) := by
  unfold pulse
  rw [same]
  split
  · exact lockstep
  · exact .value rfl

theorem lockstep_writeWatermark (queue : Queue) {word otherWord : UInt32}
    (same : pairing.strict → otherWord = word) :
    (writeWatermark side queue word).Lockstep pairing Eq
      (writeWatermark (pairing.across side) queue otherWord) := by
  have sameLevel : pairing.strict →
      UInt64.ofNat ((ControlWord.watermark queue).get otherWord) =
        UInt64.ofNat ((ControlWord.watermark queue).get word) := by
    intro strict
    rw [same strict]
  apply (lockstep_setWatermark side queue sameLevel).bind
  -- One of the levels may be in range and the other one not.
  intro answer otherAnswer _
  apply Step.Lockstep.still
  · intro link
    cases answer <;> rfl
  · intro link
    cases otherAnswer <;> rfl

theorem lockstep_writeControl {word otherWord : UInt32}
    (words : ControlWord.Akin pairing word otherWord) :
    (writeControl side word).Lockstep pairing Eq
      (writeControl (pairing.across side) otherWord) := by
  have pulsed : ∀ field ∈ ControlWord.pulses, field.isSet otherWord = field.isSet word :=
    words.pulse
  rw [writeControl_eq, writeControl_eq]
  apply lockstep_charged
  apply (lockstep_writeWatermark side .transmit words.strict).bindEq
  intro _
  apply (lockstep_writeWatermark side .receive words.strict).bindEq
  intro _
  apply (lockstep_pulse (pulsed _ (by decide)) (lockstep_closeMessage side)).bindEq
  intro _
  apply (lockstep_pulse (pulsed _ (by decide)) (lockstep_openMessage side)).bindEq
  intro _
  exact lockstep_pulse (pulsed _ (by decide)) (lockstep_confirm side)

theorem lockstep_stage (position : Fin 4) (word : UInt32) :
    (stage side position word).Lockstep pairing Eq
      (stage (pairing.across side) position word) := by
  intro link other akin
  refine ⟨rfl, { akin with staged := ?_ }⟩
  intro target
  rcases Side.self_or_peer side target with rfl | rfl
  · simp [stage, akin.staged]
  · simp [stage, pairing.across_peer, ← akin.staged]

theorem lockstep_commit : (commit side).Lockstep pairing Eq (commit (pairing.across side)) := by
  refine .bindEq (.observe fun akin => (akin.staged side).symm) fun block => ?_
  apply (lockstep_load side block).bindEq
  intro answer
  apply Step.Lockstep.still
  · intro link
    cases answer <;> rfl
  · intro link
    cases answer <;> rfl

theorem lockstep_writeData (position : Fin 4) (word : UInt32) :
    (writeData side position word).Lockstep pairing Eq
      (writeData (pairing.across side) position word) := by
  apply lockstep_charged
  apply (lockstep_stage side position word).bindEq
  intro _
  by_cases last : position = 3
  · simp only [last, if_true]
    exact lockstep_commit side
  · simp only [last, if_false]
    exact .value rfl

theorem lockstep_writeRegister (address word : UInt32) :
    (writeRegister side address word).Lockstep pairing Eq
      (writeRegister (pairing.across side) address word) := by
  have ignore (event otherEvent : Event) :
      (writeRegister.ignore event).Lockstep pairing Eq (writeRegister.ignore otherEvent) :=
    lockstep_charged (.still (fun _ => rfl) fun _ => rfl)
  unfold writeRegister
  split
  next => exact lockstep_writeControl side ⟨fun _ _ => rfl, fun _ => rfl⟩
  next => exact lockstep_writeData side _ word
  all_goals exact ignore _ _

theorem lockstep_writeBlock (block : Block) :
    (writeBlock side block).Lockstep pairing Eq (writeBlock (pairing.across side) block) := by
  apply (lockstep_writeData side 0 block.word0).bindEq
  intro _
  apply (lockstep_writeData side 1 block.word1).bindEq
  intro _
  apply (lockstep_writeData side 2 block.word2).bindEq
  intro _
  exact lockstep_writeData side 3 block.word3

theorem lockstep_readBlock :
    (readBlock side).Lockstep pairing Eq (readBlock (pairing.across side)) := by
  apply (lockstep_readData side 0).bindEq
  intro word0
  apply (lockstep_readData side 1).bindEq
  intro word1
  apply (lockstep_readData side 2).bindEq
  intro word2
  exact (lockstep_readData side 3).answer _

theorem lockstep_driverLoad (block : Block) :
    ((Driver.load block).run (bus side)).Lockstep pairing Eq
      ((Driver.load block).run (bus (pairing.across side))) := by
  rw [run_driverLoad, run_driverLoad]
  apply (lockstep_status side).bindEq
  intro status
  by_cases ready : status.txInputReady = true
  · simp only [ready, if_true]
    exact (lockstep_writeBlock side block).answer _
  · simp only [ready, if_false, Bool.false_eq_true]
    exact .value rfl

theorem lockstep_driverRead :
    (Driver.read.run (bus side)).Lockstep pairing Eq
      (Driver.read.run (bus (pairing.across side))) := by
  rw [run_driverRead, run_driverRead]
  apply (lockstep_status side).bindEq
  intro status
  cases status.refusal? with
  | none => exact (lockstep_readBlock side).answer _
  | some refusal => exact .value rfl

theorem lockstep_driverStatus :
    (Driver.status.run (bus side)).Lockstep pairing Eq
      (Driver.status.run (bus (pairing.across side))) := by
  rw [run_status, run_status]
  exact .mapEq _ (lockstep_status side)

end Steps

end Link

end BlockLink
