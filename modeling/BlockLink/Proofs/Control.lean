import BlockLink.Proofs.Confirmation
import BlockLink.Proofs.Elapse
import BlockLink.Proofs.Lasting
import BlockLink.Proofs.Ledger

/-!
Control writes and their parts.

A control word asks for several things at once, and none of them looks at the fields of
another. Where an access takes no time, a write can be split into writes that carry some of
the fields each: the watermarks and the confirmation have nothing to do with the message that is
sent, and of that message the end has to come before the next beginning.
-/

namespace BlockLink

namespace ControlWord

variable {word : UInt32}

theorem fits_of_mem {field : Field} (member : field ∈ fields) : field.Fits := by
  revert field
  decide

theorem apart_of_ne {field other : Field} (member : field ∈ fields) (otherMember : other ∈ fields)
    (isOther : other ≠ field) : field.Apart other := by
  have apart : ∀ field ∈ fields, ∀ other ∈ fields, other ≠ field → field.Apart other := by decide
  exact apart field member other otherMember isOther

/-- The word that holds some fields of another, and zero elsewhere. -/
def part (group : List Field) (word : UInt32) : UInt32 :=
  group.foldr (fun field rest => field.put rest (field.get word)) 0

theorem part_cons (head : Field) (rest : List Field) (word : UInt32) :
    part (head :: rest) word = head.put (part rest word) (head.get word) :=
  rfl

theorem get_part {group : List Field} {field : Field} (inside : group ⊆ fields)
    (member : field ∈ fields) :
    field.get (part group word) = if field ∈ group then field.get word else 0 := by
  induction group with
  | nil => simp [part, Field.get]
  | cons head rest inductionHypothesis =>
    have headMember : head ∈ fields := inside List.mem_cons_self
    have fits := fits_of_mem headMember
    rw [part_cons]
    by_cases same : field = head
    · subst same
      rw [if_pos List.mem_cons_self, Field.get_put_self _ _ fits]
      exact Nat.mod_mod ..
    · rw [Field.get_put_of_apart _ _ fits (apart_of_ne headMember member same)]
      have insideRest : rest ⊆ fields := fun _ later => inside (List.mem_cons_of_mem _ later)
      simpa [same] using inductionHypothesis insideRest

theorem mem_of_isSet_part {group : List Field} {field : Field} (inside : group ⊆ fields)
    (member : field ∈ fields) (isSet : field.isSet (part group word) = true) : field ∈ group := by
  refine Decidable.not_not.mp fun absent => ?_
  rw [Field.isSet, get_part inside member, if_neg absent] at isSet
  cases isSet

theorem get_mod {field : Field} (member : field ∈ fields) :
    field.get word = word.toNat % 2 ^ 7 / 2 ^ field.offset % field.limit := by
  simp only [fields, List.mem_cons, List.not_mem_nil, or_false] at member
  rcases member with rfl | rfl | rfl | rfl | rfl <;>
    simp only [Field.get, Field.limit, txTrigger, txEnd, rxConfirm, txWatermark, rxWatermark] <;>
    omega

/-- The level that a watermark has after a control write. -/
def level (queue : Queue) (word : UInt32) (current : UInt64) : UInt64 :=
  if (watermark queue).get word = 0 then current else .ofNat ((watermark queue).get word)

/-- Whether the fields of a word are shared out between two others, and none of these asks for
the end of a message behind the beginning of the next. -/
structure Splits (word first second : UInt32) : Prop where
  share (field : Field) (member : field ∈ fields) :
    field.get first = 0 ∧ field.get second = field.get word ∨
      field.get first = field.get word ∧ field.get second = 0
  ordered : ¬ (txTrigger.isSet first = true ∧ txEnd.isSet second = true)

theorem Splits.isSet {first second : UInt32} (splits : Splits word first second) (field : Field)
    (member : field ∈ fields) :
    field.isSet first = false ∧ field.isSet second = field.isSet word ∨
      field.isSet first = field.isSet word ∧ field.isSet second = false := by
  unfold Field.isSet
  rcases splits.share field member with ⟨isZero, same⟩ | ⟨same, isZero⟩
  · rw [isZero, same]
    exact .inl ⟨rfl, rfl⟩
  · rw [isZero, same]
    exact .inr ⟨rfl, rfl⟩

theorem Splits.level_level {first second : UInt32} (splits : Splits word first second)
    (queue : Queue) (current : UInt64) :
    level queue second (level queue first current) = level queue word current := by
  have member : watermark queue ∈ fields := by cases queue <;> decide
  unfold level
  rcases splits.share _ member with ⟨isZero, same⟩ | ⟨same, isZero⟩
  · rw [isZero, same, if_pos rfl]
  · rw [isZero, same, if_pos rfl]

theorem splits_part (word : UInt32) {group rest : List Field} (inside : group ++ rest ⊆ fields)
    (distinct : (group ++ rest).Nodup) (ordered : ¬ (txTrigger ∈ group ∧ txEnd ∈ rest)) :
    Splits (part (group ++ rest) word) (part group word) (part rest word) := by
  have insideGroup : group ⊆ fields := fun _ member => inside (List.mem_append_left _ member)
  have insideRest : rest ⊆ fields := fun _ member => inside (List.mem_append_right _ member)
  have disjoint := (List.nodup_append.mp distinct).2.2
  constructor
  · intro field member
    rw [get_part inside member, get_part insideGroup member, get_part insideRest member]
    by_cases early : field ∈ group
    · have notLate : field ∉ rest := fun late => disjoint field early field late rfl
      simp [early, notLate]
    · simp [early]
  · rintro ⟨begins, ends⟩
    exact ordered ⟨mem_of_isSet_part insideGroup (by decide) begins,
      mem_of_isSet_part insideRest (by decide) ends⟩

end ControlWord

namespace Lane

variable (lane : Lane) (now : Time)

/-- The lane after a control write of its sender. -/
def sendControl (word : UInt32) : Lane :=
  let ended := if ControlWord.txEnd.isSet word then lane.finished.flow now else lane
  if ControlWord.txTrigger.isSet word then ended.opened else ended

/-- The lane after a control write of its receiver. -/
def receiveControl (word : UInt32) : Lane :=
  if ControlWord.rxConfirm.isSet word then lane.confirmed.flow now else lane

variable {lane now} {word first second : UInt32} (splits : ControlWord.Splits word first second)
include splits

theorem sendControl_sendControl :
    (lane.sendControl now first).sendControl now second = lane.sendControl now word := by
  have ordered := splits.ordered
  rcases splits.isSet ControlWord.txTrigger (by decide) with ⟨begins, same⟩ | ⟨same, begins⟩
  · rcases splits.isSet ControlWord.txEnd (by decide) with ⟨ends, sameEnd⟩ | ⟨sameEnd, ends⟩ <;>
      simp [sendControl, begins, same, ends, sameEnd]
  · rcases splits.isSet ControlWord.txEnd (by decide) with ⟨ends, sameEnd⟩ | ⟨sameEnd, ends⟩
    -- Here the end would come behind the beginning, so the word asks for one of them at most.
    · rw [same, sameEnd] at ordered
      cases asked : ControlWord.txTrigger.isSet word <;>
        simp_all [sendControl]
    · simp [sendControl, begins, same, ends, sameEnd]

theorem receiveControl_receiveControl :
    (lane.receiveControl now first).receiveControl now second = lane.receiveControl now word := by
  rcases splits.isSet ControlWord.rxConfirm (by decide) with ⟨unset, same⟩ | ⟨same, unset⟩ <;>
    simp [receiveControl, unset, same]

omit splits

/-- The blocks that are loaded and not read, the oldest first, each with whether it ends a
message. -/
def frames (lane : Lane) : List Frame := Frame.ofEntries (lane.arrived ++ lane.waiting)

theorem frames_flow (now : Time) (lane : Lane) : (lane.flow now).frames = lane.frames := by
  rw [frames, flow, entries_flowOf, frames]

theorem frames_finished (lane : Lane) :
    lane.finished.frames =
      if lane.isOpen && lane.isLoaded then Frame.markLast lane.frames else lane.frames := by
  unfold finished
  split
  · split
    next nothing => simp [frames, nothing, Frame.ofEntries_markLast]
    next waiting =>
      have nonempty : Frame.ofEntries lane.waiting ≠ [] := by simpa [Frame.ofEntries] using waiting
      simp [frames, Frame.ofEntries_markLast, Frame.markLast_append _ nonempty]
  · rfl

theorem isOpen_flow_finished (now : Time) (lane : Lane) :
    (lane.finished.flow now).isOpen = false := by
  refine holds_flowOf (fun lane => lane.isOpen = false) (fun _ _ shut => shut)
    (fun _ _ _ _ shut => shut) lane.finished.waiting ?_
  unfold finished
  split
  · split <;> rfl
  · rfl

/-- A control write that ends a message and begins the next. -/
theorem sendControl_of_both (ends : ControlWord.txEnd.isSet word = true)
    (begins : ControlWord.txTrigger.isSet word = true) :
    lane.sendControl now word =
      { lane.finished.flow now with isOpen := true, isLoaded := false } := by
  have shut := isOpen_flow_finished now lane
  simp [sendControl, ends, begins, opened, shut]

/-- The boundary of a message all of which has crossed is left to the receiver to confirm. -/
theorem isPending_flow_finished (isOpen : lane.isOpen = true) (isLoaded : lane.isLoaded = true)
    (nothing : lane.waiting = []) : (lane.finished.flow now).isPending = true := by
  simp [finished, isOpen, isLoaded, nothing, flow, flowOf]

end Lane

namespace Link

variable (link : Link) (side : Side) (word : UInt32)

/-- The link when a control write has set the watermarks of a side, before it does anything
else. -/
def levelled : Link :=
  link.withStation side ((link.station side).withWatermarks fun queue =>
    ControlWord.level queue word ((link.station side).watermark queue))

theorem state_writeWatermark (queue : Queue) :
    ((writeWatermark side queue word).run link).state =
      link.withStation side ((link.station side).withWatermark queue
        (ControlWord.level queue word ((link.station side).watermark queue))) := by
  have small : (ControlWord.watermark queue).get word < 4 := by
    cases queue <;> exact Nat.mod_lt _ (by decide)
  have written : (UInt64.ofNat ((ControlWord.watermark queue).get word)).toNat =
      (ControlWord.watermark queue).get word :=
    UInt64.toNat_ofNat_of_lt' (Nat.lt_trans small (by decide))
  by_cases isZero : (ControlWord.watermark queue).get word = 0
  · have invalid : ¬ WatermarkValid (UInt64.ofNat ((ControlWord.watermark queue).get word)) := by
      rw [isZero]
      decide
    have same : (link.station side).withWatermark queue ((link.station side).watermark queue) =
        link.station side := by
      cases queue <;> rfl
    rw [ControlWord.level, if_pos isZero, same, withStation_self, writeWatermark, Step.run_bind,
      setWatermark, run_atStation, Station.run_setWatermark_of_invalid _ queue invalid,
      withStation_self]
    rfl
  · have valid : WatermarkValid (UInt64.ofNat ((ControlWord.watermark queue).get word)) := by
      rw [WatermarkValid, written]
      omega
    rw [ControlWord.level, if_neg isZero, run_writeWatermark_of_valid valid written.symm]

theorem state_writeWatermarks :
    ((writeWatermark side .receive word).run
      ((writeWatermark side .transmit word).run link).state).state = link.levelled side word := by
  rw [state_writeWatermark, state_writeWatermark, station_withStation_self,
    withStation_withStation]
  rfl

theorem lane_levelled (sender : Side) :
    (link.levelled side word).lane sender = link.lane sender := by
  rw [← state_writeWatermarks, lane_writeWatermark, lane_writeWatermark]

variable {link}

theorem state_charge_of_free (settled : link.Settled) (free : link.config.accessCycles = 0) :
    (charge.run link).state = link :=
  state_charges_of_free settled free 1

theorem state_writeControl_of_free (settled : link.Settled)
    (free : link.config.accessCycles = 0) :
    ((writeControl side word).run link).state =
      ((pulses side word).run (link.levelled side word)).state := by
  rw [writeControl_eq, ← state_writeWatermarks]
  simp only [Step.run_bind, state_charge_of_free settled free]

section Pulses

theorem aside_pulses : link.AgreesAside ((pulses side word).run link).state := by
  have chains := aside_law.toChains
  have closes := within_pulse chains ControlWord.txEnd word (aside_closeMessage · side)
  have opens := within_pulse chains ControlWord.txTrigger word (aside_openMessage · side)
  have confirms := within_pulse chains ControlWord.rxConfirm word (aside_confirm · side)
  exact ((closes _).trans (opens _)).trans (confirms _)

theorem time_openMessage (link : Link) (side : Side) :
    ((openMessage side).run link).state.time = link.time :=
  rfl

theorem time_pulse (field : Field) {action : Step Event Link Unit}
    (keeps : (action.run link).state.time = link.time) :
    ((pulse field word action).run link).state.time = link.time := by
  unfold pulse
  split
  · exact keeps
  · rfl

theorem time_pulses : ((pulses side word).run link).state.time = link.time := by
  have ended := time_pulse word ControlWord.txEnd (time_closeMessage link side)
  have begun := (time_pulse word ControlWord.txTrigger (time_openMessage _ side)).trans ended
  exact (time_pulse word ControlWord.rxConfirm (time_confirm _ side)).trans begun

theorem lane_pulse (field : Field) (action : Step Event Link Unit) (sender : Side) :
    ((pulse field word action).run link).state.lane sender =
      if field.isSet word then (action.run link).state.lane sender else link.lane sender := by
  unfold pulse
  split <;> rfl

section Lanes

variable (settled : link.Settled)
include settled

theorem settled_pulse (field : Field) {action : Step Event Link Unit}
    (settles : action.Within fun link _ last => link.Settled → last.Settled) :
    ((pulse field word action).run link).state.Settled :=
  within_pulse (settled_law.conductBy .left).toChains field word settles link settled

/-- A control write ends a message and begins the next on the lane that its side sends on.
Whatever the confirmation lets cross, it crosses on the other lane. -/
theorem lane_pulses_self :
    ((pulses side word).run link).state.lane side =
      (link.lane side).sendControl link.time word := by
  have obeyed := settled_law.conductBy side
  let first := ((pulse ControlWord.txEnd word (closeMessage side)).run link).state
  let second := ((pulse ControlWord.txTrigger word (openMessage side)).run first).state
  have settledFirst : first.Settled := settled_pulse word settled _ obeyed.closeMessage
  have settledSecond : second.Settled := settled_pulse word settledFirst _ obeyed.openMessage
  change ((pulse ControlWord.rxConfirm word (confirm side)).run second).state.lane side = _
  rw [lane_pulse, lane_confirm_self, Lane.flow_of_settled (settledSecond side), ite_self,
    lane_pulse, lane_openMessage_self, lane_pulse, lane_closeMessage_self]
  rfl

/-- A control write confirms on the lane that its side receives on. Nothing that it does to a
message lets anything cross there. -/
theorem lane_pulses_peer :
    ((pulses side word).run link).state.lane side.peer =
      (link.lane side.peer).receiveControl link.time word := by
  let first := ((pulse ControlWord.txEnd word (closeMessage side)).run link).state
  let second := ((pulse ControlWord.txTrigger word (openMessage side)).run first).state
  have ended : first.lane side.peer = link.lane side.peer := by
    rw [lane_pulse, lane_closeMessage_peer, Lane.flow_of_settled (settled side.peer), ite_self]
  have begun : second.lane side.peer = first.lane side.peer := by
    rw [lane_pulse, lane_openMessage_peer, ite_self]
  have time : second.time = link.time :=
    (time_pulse word _ (time_openMessage first side)).trans
      (time_pulse word _ (time_closeMessage link side))
  change ((pulse ControlWord.rxConfirm word (confirm side)).run second).state.lane side.peer = _
  rw [lane_pulse, lane_confirm_peer, begun, ended, time]
  rfl

end Lanes

end Pulses

/-- What a control write does to a link where an access takes no time. -/
structure Written (link : Link) (side : Side) (word : UInt32) (last : Link) : Prop where
  config : last.config = link.config
  staged : last.staged = link.staged
  time : last.time = link.time
  sending : last.lane side = (link.lane side).sendControl link.time word
  receiving : last.lane side.peer = (link.lane side.peer).receiveControl link.time word
  watermark (queue : Queue) :
    (last.station side).watermark queue =
      ControlWord.level queue word ((link.station side).watermark queue)
  untouched (queue : Queue) :
    (last.station side.peer).watermark queue = (link.station side.peer).watermark queue

section Writing

variable (settled : link.Settled)
include settled

theorem settled_writeControl : ((writeControl side word).run link).state.Settled :=
  (settled_law.conductBy side).toFramingBy.writeControl word link settled

variable (free : link.config.accessCycles = 0)
include free

theorem written : link.Written side word ((writeControl side word).run link).state := by
  have settledLevelled : (link.levelled side word).Settled := by
    intro sender
    rw [lane_levelled]
    exact settled sender
  have aside : (link.levelled side word).AgreesAside _ := aside_pulses side word
  rw [state_writeControl_of_free side word settled free]
  constructor
  · exact aside.config
  · exact aside.staged
  · exact time_pulses side word
  · rw [lane_pulses_self side word settledLevelled, lane_levelled]
    rfl
  · rw [lane_pulses_peer side word settledLevelled, lane_levelled]
    rfl
  · intro queue
    rw [aside.watermark, levelled, station_withStation_self]
    cases queue <;> rfl
  · intro queue
    rw [aside.watermark, levelled, station_withStation_peer]

theorem free_writeControl :
    ((writeControl side word).run link).state.config.accessCycles = 0 := by
  rw [(written side word settled free).config, free]

end Writing

namespace Written

variable {side} {word first second : UInt32} {middle last : Link}

theorem unique {other : Link} (written : link.Written side word last)
    (otherWritten : link.Written side word other) : other = last := by
  have same (owner : Side) (queue : Queue) :
      (other.station owner).watermark queue = (last.station owner).watermark queue := by
    rcases Side.self_or_peer side owner with rfl | rfl
    · rw [otherWritten.watermark, written.watermark]
    · rw [otherWritten.untouched, written.untouched]
  apply eq_of_lanes
  · exact ⟨otherWritten.config.trans written.config.symm,
      otherWritten.staged.trans written.staged.symm, same⟩
  · intro sender
    rcases Side.self_or_peer side sender with rfl | rfl
    · rw [otherWritten.sending, written.sending]
    · rw [otherWritten.receiving, written.receiving]
  · rw [otherWritten.time, written.time]

/-- Two writes that share the fields of a word between them do what one write of it does. -/
theorem trans (before : link.Written side first middle) (after : middle.Written side second last)
    (splits : ControlWord.Splits word first second) : link.Written side word last where
  config := after.config.trans before.config
  staged := after.staged.trans before.staged
  time := after.time.trans before.time
  sending := by rw [after.sending, before.time, before.sending, Lane.sendControl_sendControl splits]
  receiving := by
    rw [after.receiving, before.time, before.receiving, Lane.receiveControl_receiveControl splits]
  watermark queue := by rw [after.watermark, before.watermark, splits.level_level]
  untouched queue := (after.untouched queue).trans (before.untouched queue)

/-- A write that asks for both ends the open message and begins a new one. -/
theorem restarts (written : link.Written side word last)
    (ends : ControlWord.txEnd.isSet word = true)
    (begins : ControlWord.txTrigger.isSet word = true) :
    (last.station side).messageOpen = true ∧ (last.station side).messageLoaded = false ∧
      ((link.station side).messageOpen = true → (link.station side).messageLoaded = true →
        (last.lane side).frames = Frame.markLast (link.lane side).frames ∧
        ((link.station side).tx.entries = [] →
          (last.station side.peer).boundaryPending = true)) := by
  have sending := written.sending
  rw [Lane.sendControl_of_both ends begins] at sending
  have isOpen := congrArg Lane.isOpen sending
  have isLoaded := congrArg Lane.isLoaded sending
  have isPending := congrArg Lane.isPending sending
  have frames := congrArg Lane.frames sending
  refine ⟨isOpen, isLoaded, fun wasOpen wasLoaded => ⟨?_, fun nothing => ?_⟩⟩
  · have closed : (link.lane side).finished.frames = Frame.markLast (link.lane side).frames :=
      (link.lane side).frames_finished.trans
        (if_pos (Bool.and_eq_true_iff.mpr ⟨wasOpen, wasLoaded⟩))
    exact frames.trans ((Lane.frames_flow _ _).trans closed)
  · exact isPending.trans (Lane.isPending_flow_finished wasOpen wasLoaded nothing)

/-- A write that asks for nothing does nothing. -/
theorem zero (link : Link) (side : Side) : link.Written side 0 link := by
  have unset : ∀ field ∈ ControlWord.fields, field.get 0 = 0 := by decide
  refine ⟨rfl, rfl, rfl, rfl, rfl, fun queue => ?_, fun queue => rfl⟩
  cases queue <;> exact (if_pos (unset _ (by decide))).symm

end Written

section Parts

theorem state_perform_writeControl :
    ((perform (.writeRegister side Register.control.address word)).run link).state =
      ((writeControl side word).run link).state := by
  rw [perform, writeRegister_control]
  rfl

/-- Words that agree in their fields ask for the same. -/
theorem writeControl_congr {first second : UInt32}
    (same : ∀ field ∈ ControlWord.fields, field.get second = field.get first) :
    writeControl side second = writeControl side first := by
  have isSet : ∀ field ∈ ControlWord.fields, field.isSet second = field.isSet first := by
    intro field member
    rw [Field.isSet, Field.isSet, same field member]
  simp only [writeControl, writeWatermark, ControlWord.watermark]
  rw [same _ (by decide), same _ (by decide), isSet _ (by decide), isSet _ (by decide),
    isSet _ (by decide)]

theorem state_performAll_parts (settled : link.Settled) (free : link.config.accessCycles = 0)
    {groups : List (List Field)} (inside : groups.flatten ⊆ ControlWord.fields)
    (distinct : groups.flatten.Nodup)
    (ordered : groups.Pairwise fun earlier later =>
      ¬ (ControlWord.txTrigger ∈ earlier ∧ ControlWord.txEnd ∈ later)) :
    ((performAll (groups.map fun group =>
        .writeRegister side Register.control.address (ControlWord.part group word))).run
      link).state =
      ((writeControl side (ControlWord.part groups.flatten word)).run link).state := by
  induction groups generalizing link with
  | nil => exact (written side 0 settled free).unique (Written.zero link side)
  | cons group rest inductionHypothesis =>
    rw [List.flatten_cons] at inside distinct
    obtain ⟨orderedGroup, orderedRest⟩ := List.pairwise_cons.mp ordered
    have orderedParts :
        ¬ (ControlWord.txTrigger ∈ group ∧ ControlWord.txEnd ∈ rest.flatten) := by
      rintro ⟨begins, ends⟩
      obtain ⟨later, member, ends⟩ := List.mem_flatten.mp ends
      exact orderedGroup later member ⟨begins, ends⟩
    have splits := ControlWord.splits_part word inside distinct orderedParts
    have settledNext := settled_writeControl side (ControlWord.part group word) settled
    have freeNext := free_writeControl side (ControlWord.part group word) settled free
    have before := written side (ControlWord.part group word) settled free
    have after := written side (ControlWord.part rest.flatten word) settledNext freeNext
    rw [List.map_cons, state_performAll_cons, state_perform_writeControl, List.flatten_cons,
      inductionHypothesis settledNext freeNext
        (fun _ member => inside (List.mem_append_right _ member))
        (List.nodup_append.mp distinct).2.1 orderedRest]
    exact (written side _ settled free).unique (before.trans after splits)

/-- Writes that share the fields of a word between them do what one write of it does. -/
theorem state_performAll_shares (settled : link.Settled) (free : link.config.accessCycles = 0)
    {groups : List (List Field)} (shares : groups.flatten.Perm ControlWord.fields)
    (ordered : groups.Pairwise fun earlier later =>
      ¬ (ControlWord.txTrigger ∈ earlier ∧ ControlWord.txEnd ∈ later)) :
    ((performAll (groups.map fun group =>
        .writeRegister side Register.control.address (ControlWord.part group word))).run
      link).state = ((writeControl side word).run link).state := by
  have same : ∀ field ∈ ControlWord.fields,
      field.get (ControlWord.part groups.flatten word) = field.get word := by
    intro field member
    rw [ControlWord.get_part shares.subset member, if_pos (shares.mem_iff.mpr member)]
  rw [state_performAll_parts side word settled free shares.subset
    (shares.nodup_iff.mpr (by decide)) ordered, writeControl_congr side same]

end Parts

end Link

/-- A read of CTRL shows the two watermarks and zero elsewhere. -/
theorem Station.controlWord_eq_assemble {station : Station} (valid : station.Watermarked) :
    station.controlWord =
      .ok (Field.assemble
        [(ControlWord.txWatermark, station.txWatermark.toNat),
          (ControlWord.rxWatermark, station.rxWatermark.toNat)]) := by
  have txBound : station.txWatermark.toNat < 4 := (valid .transmit).2
  have rxBound : station.rxWatermark.toNat < 4 := (valid .receive).2
  have assembled : ∀ tx rx : Fin 4,
      ControlWord.rxWatermark.put (ControlWord.txWatermark.put 0 tx) rx =
        Field.assemble [(ControlWord.txWatermark, tx.val), (ControlWord.rxWatermark, rx.val)] := by
    decide
  have txLevel : station.txWatermark.toNat % 256 = station.txWatermark.toNat := by omega
  have rxLevel : station.rxWatermark.toNat % 256 = station.rxWatermark.toNat := by omega
  rw [controlWord, txLevel, rxLevel, Field.assign_of_lt _ txBound]
  exact (Field.assign_of_lt _ rxBound).trans
    (congrArg Except.ok (assembled ⟨_, txBound⟩ ⟨_, rxBound⟩))

theorem Link.run_readControl_of_free {link : Link} (side : Side) (settled : link.Settled)
    (free : link.config.accessCycles = 0) (valid : (link.station side).Watermarked) :
    let shown := (perform (.readRegister side Register.control.address)).run link
    shown.value =
        .word (Field.assemble
          [(ControlWord.txWatermark, (link.station side).txWatermark.toNat),
            (ControlWord.rxWatermark, (link.station side).rxWatermark.toNat)]) ∧
      shown.state = link := by
  rw [perform, readRegister_control, readControl]
  simp only [Step.run_map, Step.run_bind, Step.run_observe, state_charge_of_free settled free,
    Station.controlWord_eq_assemble valid, Answer.ofWord, and_self]

namespace History

/-- Where an access takes no time, a control write does what the writes do that share its fields
between them, in any order that has the end of a message before the beginning of the next. A
watermark of zero stands for the one that is there, and the bits above the fields for nothing. A
read shows the watermarks and no pulse. A word that asks for both an end and a beginning leaves
an empty message open, and the boundary of the one before behind its last block. -/
theorem control_write_in_parts (history : History) (side : Side) (word : UInt32)
    (free : history.link.config.accessCycles = 0) :
    let link := history.link
    let write word := Operation.writeRegister side Register.control.address word
    let after := ((Link.perform (write word)).run link).state
    let shown := (Link.perform (.readRegister side Register.control.address)).run after
    (∀ groups : List (List Field), groups.flatten.Perm ControlWord.fields →
      groups.Pairwise (fun earlier later =>
        ¬ (ControlWord.txTrigger ∈ earlier ∧ ControlWord.txEnd ∈ later)) →
      ((Link.performAll (groups.map fun group => write (ControlWord.part group word))).run
        link).state = after) ∧
    (∀ queue, (after.station side).watermark queue =
      if (ControlWord.watermark queue).get word = 0 then (link.station side).watermark queue
      else .ofNat ((ControlWord.watermark queue).get word)) ∧
    (∀ other : UInt32, other.toNat % 2 ^ 7 = word.toNat % 2 ^ 7 →
      (Link.perform (write other)).run link = (Link.perform (write word)).run link) ∧
    (shown.value =
        .word (Field.assemble
          [(ControlWord.txWatermark, (after.station side).txWatermark.toNat),
            (ControlWord.rxWatermark, (after.station side).rxWatermark.toNat)]) ∧
      shown.state = after) ∧
    (ControlWord.txEnd.isSet word = true → ControlWord.txTrigger.isSet word = true →
      (after.station side).messageOpen = true ∧ (after.station side).messageLoaded = false ∧
      ((link.station side).messageOpen = true → (link.station side).messageLoaded = true →
        (after.lane side).frames = Frame.markLast (link.lane side).frames ∧
        ((link.station side).tx.entries = [] →
          (after.station side.peer).boundaryPending = true))) := by
  intro link write after shown
  have state : after = ((Link.writeControl side word).run link).state :=
    Link.state_perform_writeControl side word
  have written : link.Written side word after := by
    rw [state]
    exact Link.written side word history.settled free
  refine ⟨fun groups shares ordered => ?_, written.watermark, fun other same => ?_, ?_,
    written.restarts⟩
  · rw [state]
    exact Link.state_performAll_shares side word history.settled free shares ordered
  · have agree : ∀ field ∈ ControlWord.fields, field.get other = field.get word := by
      intro field member
      rw [ControlWord.get_mod member, ControlWord.get_mod member, same]
    dsimp only [write]
    rw [Link.perform, Link.perform, Link.writeRegister_control, Link.writeRegister_control,
      Link.writeControl_congr side agree]
  · let later := history.performed (write word) id
    have freeLater : after.config.accessCycles = 0 := by rw [written.config, free]
    exact Link.run_readControl_of_free side later.settled freeLater (later.watermarked.2 side)

/-- All five fields in one word, and in four. -/
theorem control_write_in_four_parts :
    let history := (created { accessCycles := 0 } (.idle { accessCycles := 0 } 0) rfl).extended
      [.call .direct .right .openMessage, .call .direct .right (.load ⟨5, 6, 7, 8⟩),
        .call .direct .right .closeMessage, .call .direct .left .openMessage,
        .call .direct .left (.load ⟨1, 2, 3, 4⟩)] (by decide)
    let write word := Operation.writeRegister .left Register.control.address word
    let after := ((Link.perform (write 0x57)).run history.link).state
    history.link.config.accessCycles = 0 ∧
    ((Link.performAll [write 0x44, write 0x02, write 0x10, write 0x01]).run history.link).state =
      after ∧
    (∀ queue, (after.station .left).watermark queue = 2) ∧
    (after.lane .left).frames = [(⟨1, 2, 3, 4⟩, true)] ∧
    (after.station .right).boundaryPending = true ∧
    (after.station .left).messageOpen = true := by
  intro history write after
  have free : history.link.config.accessCycles = 0 := by decide +kernel
  obtain ⟨parts, levels, -, -, restarts⟩ := history.control_write_in_parts .left 0x57 free
  obtain ⟨isOpen, -, ended⟩ := restarts (by decide) (by decide)
  obtain ⟨frames, isPending⟩ := ended (by decide +kernel) (by decide +kernel)
  have groups := parts
    [[ControlWord.rxConfirm, ControlWord.rxWatermark], [ControlWord.txEnd],
      [ControlWord.txWatermark], [ControlWord.txTrigger]] (by decide) (by decide)
  refine ⟨free, groups, fun queue => (levels queue).trans ?_, frames.trans ?_,
    isPending (by decide +kernel), isOpen⟩
  · cases queue <;> decide
  · decide +kernel

end History

end BlockLink
