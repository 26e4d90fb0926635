import BlockLink.Proofs.Conservation
import BlockLink.Proofs.Effect

/-!
Deliveries are neither late nor early.

No block waits that could cross, because whatever frees a place or puts a block at
the head of its queue is followed by a delivery. And no block crosses before it is
due. To say when that is, each block is stamped: `Lane.Passed` follows the stamps
along a lane while time passes. Loads join the stream at its end, reads leave it at
its front, and what has arrived is due.
-/

namespace BlockLink

/-- A block with the earliest time at which it may cross. -/
abbrev Stamp := Block × Time

def Entry.stamp (entry : Entry) : Stamp := (entry.block, entry.readyAt)

namespace Lane

/-- The stamps of the blocks on a lane, in the order in which they were loaded. -/
def stamps (lane : Lane) : List Stamp := (lane.arrived ++ lane.waiting).map Entry.stamp

/-- Whether everything that has arrived is due. -/
def Ripe (now : Time) (lane : Lane) : Prop := ∀ entry ∈ lane.arrived, entry.readyAt ≤ now

theorem map_stamp_markLast (entries : List Entry) :
    (Fifo.markLast entries).map Entry.stamp = entries.map Entry.stamp := by
  fun_induction Fifo.markLast entries with
  | case1 => rfl
  | case2 => rfl
  | case3 entry next rest inductionHypothesis => simp [inductionHypothesis]

section Stamps

variable {lane : Lane} {now : Time}

theorem ripe_iff : lane.Ripe now ↔ ∀ stamp ∈ lane.arrived.map Entry.stamp, stamp.2 ≤ now := by
  simp [Ripe, Entry.stamp]

theorem Ripe.later (ripe : lane.Ripe now) {later : Time} (notLater : now ≤ later) :
    lane.Ripe later :=
  fun entry member => UInt64.le_trans (ripe entry member) notLater

theorem stamps_flowOf (entries : List Entry) (lane : Lane) :
    (flowOf now entries lane).stamps = (lane.arrived ++ entries).map Entry.stamp := by
  rw [stamps, entries_flowOf]

theorem Ripe.flowOf (ripe : lane.Ripe now) (entries : List Entry) :
    (Lane.flowOf now entries lane).Ripe now := by
  apply holds_flowOf _ _ _ entries ripe
  · intro lane entries ripe
    exact ripe
  · intro lane entry due _ ripe held member
    rcases List.mem_append.mp member with earlier | last
    · exact ripe held earlier
    · rw [List.mem_singleton.mp last]
      exact due

end Stamps

/-- What passes along a lane while the clock goes on: the stamps that join the stream and
those that leave it. -/
structure Passed (latency : Time) (first : Lane) (start : Time) (joined left : List Stamp)
    (last : Lane) (finish : Time) : Prop where
  later : start ≤ finish
  stream : first.stamps ++ joined = left ++ last.stamps
  /-- A block that joins is stamped for a time of its own on the way. -/
  stamped : ∀ stamp ∈ joined, ∃ time, start ≤ time ∧ time ≤ finish ∧ stamp.2 = time.after latency
  ripe : first.Ripe start → last.Ripe finish
  due : first.Ripe start → ∀ stamp ∈ left, stamp.2 ≤ finish

namespace Passed

variable {latency start now finish : Time} {lane first middle last : Lane}
  {joined left joinedLater leftLater : List Stamp}

theorem still (later : start ≤ finish) (stream : last.stamps = first.stamps)
    (ripe : first.Ripe start → last.Ripe finish) :
    Passed latency first start [] [] last finish where
  later := later
  stream := by rw [stream, List.append_nil, List.nil_append]
  stamped := by simp
  ripe := ripe
  due := by simp

theorem rest : Passed latency lane now [] [] lane now :=
  still (UInt64.le_refl _) rfl id

theorem next (before : Passed latency first start joined left middle now)
    (after : Passed latency middle now joinedLater leftLater last finish) :
    Passed latency first start (joined ++ joinedLater) (left ++ leftLater) last finish where
  later := UInt64.le_trans before.later after.later
  stream := by
    rw [← List.append_assoc, before.stream, List.append_assoc, after.stream, List.append_assoc]
  stamped stamp member := by
    rcases List.mem_append.mp member with earlier | later
    · obtain ⟨time, notEarlier, notLater, stamped⟩ := before.stamped stamp earlier
      exact ⟨time, notEarlier, UInt64.le_trans notLater after.later, stamped⟩
    · obtain ⟨time, notEarlier, notLater, stamped⟩ := after.stamped stamp later
      exact ⟨time, UInt64.le_trans before.later notEarlier, notLater, stamped⟩
  ripe ripe := after.ripe (before.ripe ripe)
  due ripe stamp member := by
    rcases List.mem_append.mp member with earlier | later
    · exact UInt64.le_trans (before.due ripe stamp earlier) after.later
    · exact after.due (before.ripe ripe) stamp later

theorem flow (lane : Lane) (later : start ≤ finish) :
    Passed latency lane start [] [] (lane.flow finish) finish :=
  still later (stamps_flowOf _ _) fun ripe => (Ripe.later ripe later).flowOf _

theorem opened (lane : Lane) : Passed latency lane now [] [] lane.opened now := by
  unfold Lane.opened
  split
  · exact rest
  · exact still (UInt64.le_refl _) rfl id

theorem finished (lane : Lane) : Passed latency lane now [] [] lane.finished now := by
  have marked := map_stamp_markLast
  unfold Lane.finished
  split
  · split
    · refine still (UInt64.le_refl _) ?_ fun ripe => ?_
      · simp [stamps, marked]
      · rw [ripe_iff] at ripe ⊢
        rw [marked]
        exact ripe
    · refine still (UInt64.le_refl _) ?_ id
      simp [stamps, marked]
  · exact still (UInt64.le_refl _) rfl id

theorem confirmed (lane : Lane) : Passed latency lane now [] [] lane.confirmed now :=
  still (UInt64.le_refl _) rfl id

theorem queued (lane : Lane) (block : Block) :
    Passed latency lane now [(block, now.after latency)] []
      (lane.queued block (now.after latency)) now where
  later := UInt64.le_refl _
  stream := by simp [stamps, Lane.queued, Entry.stamp]
  stamped stamp member := by
    obtain rfl := List.mem_singleton.mp member
    exact ⟨now, UInt64.le_refl _, UInt64.le_refl _, rfl⟩
  ripe := id
  due := by simp

theorem dropOldest {entry : Entry} {others : List Entry} (shape : lane.arrived = entry :: others) :
    Passed latency lane now [] [entry.stamp] lane.dropOldest now where
  later := UInt64.le_refl _
  stream := by simp [stamps, Lane.dropOldest, shape]
  stamped := by simp
  ripe ripe held member := by
    simp only [Lane.dropOldest, shape] at member
    exact ripe held (by simp [shape, member])
  due ripe stamp member := by
    obtain rfl := List.mem_singleton.mp member
    exact ripe entry (by simp [shape])

end Passed

end Lane

namespace Link

/-- Whether the stamps on the lanes of two links are accounted for by what was loaded and read
in between. -/
def Passes (first : Link) (events : List Event) (last : Link) : Prop :=
  last.config = first.config ∧
    (.linkReset ∉ events → ∀ sender, ∃ joined left,
      joined.map Prod.fst = events.filterMap (Event.loadedOn? sender) ∧
      left.map Prod.fst = events.filterMap (Event.readOn? sender.peer) ∧
      Lane.Passed first.config.linkLatency (first.lane sender) first.time joined left
        (last.lane sender) last.time)

theorem chains_passes : Chains Passes where
  rest link := ⟨rfl, fun _ sender => ⟨[], [], rfl, rfl, .rest⟩⟩
  next := by
    intro first middle last before after passedFirst passedSecond
    refine ⟨passedSecond.1.trans passedFirst.1, fun noReset sender => ?_⟩
    rw [List.mem_append, not_or] at noReset
    obtain ⟨joined, left, loaded, read, passed⟩ := passedFirst.2 noReset.1 sender
    obtain ⟨joinedLater, leftLater, loadedLater, readLater, passedLater⟩ :=
      passedSecond.2 noReset.2 sender
    rw [passedFirst.1] at passedLater
    refine ⟨joined ++ joinedLater, left ++ leftLater, ?_, ?_, passed.next passedLater⟩
    · rw [List.map_append, List.filterMap_append, loaded, loadedLater]
    · rw [List.map_append, List.filterMap_append, read, readLater]

/-- Where nothing is loaded and nothing read, the stamps stay. -/
theorem passes_of_quiet {first last : Link} {events : List Event}
    (quiet : ∀ event ∈ events, event.IsQuiet) (config : last.config = first.config)
    (passed : ∀ sender, Lane.Passed first.config.linkLatency (first.lane sender) first.time [] []
      (last.lane sender) last.time) : Passes first events last := by
  refine ⟨config, fun _ sender => ⟨[], [], ?_, ?_, passed sender⟩⟩
  · exact (List.filterMap_eq_nil_iff.mpr fun event member =>
      (quiet event member).loadedOn? sender).symm
  · exact (List.filterMap_eq_nil_iff.mpr fun event member =>
      (quiet event member).readOn? sender.peer).symm

section Transfers

variable {link : Link} {side : Side}

theorem passes_load_of_ready (block : Block) (ready : (link.station side).IsReady) :
    Passes link ((load side block).run link).events ((load side block).run link).state := by
  have amid := amid_load_of_ready block ready
  refine ⟨(aside_load_of_ready block ready).config, fun _ sender => ?_⟩
  have read := amid.filterMap_eq fun _ quiet => quiet.readOn? sender.peer
  have loaded := amid.filterMap_eq fun _ quiet => quiet.loadedOn? sender
  rw [read, loaded, time_load_of_ready block ready]
  rcases Side.self_or_peer side sender with rfl | rfl
  · rw [lane_load_self_of_ready block ready]
    refine ⟨_, _, ?_, ?_, (Lane.Passed.queued _ block).next (.flow _ (UInt64.le_refl _))⟩
    · simp [Event.loadedOn?]
    · simp [Event.readOn?]
  · rw [lane_load_peer_of_ready block ready]
    refine ⟨_, _, ?_, ?_, .flow _ (UInt64.le_refl _)⟩
    · simp [Event.loadedOn?]
    · simp [Event.readOn?]

theorem passes_read_of_ok {block : Block} (shown : (link.station side).peek = .ok block) :
    Passes link ((read side).run link).events ((read side).run link).state := by
  have amid := amid_read_of_ok shown
  obtain ⟨entry, rest, shape, rfl, -⟩ := (Station.peek_eq_ok_iff _).mp shown
  have arrived : (link.lane side.peer).arrived = entry :: rest := by
    rw [lane_peer]
    exact shape
  refine ⟨(aside_read_of_ok shown).config, fun _ sender => ?_⟩
  have read := amid.filterMap_eq fun _ quiet => quiet.readOn? sender.peer
  have loaded := amid.filterMap_eq fun _ quiet => quiet.loadedOn? sender
  rw [read, loaded, time_read_of_ok shown]
  rcases Side.self_or_peer side sender with rfl | rfl
  · rw [lane_read_self_of_ok shown]
    refine ⟨_, _, ?_, ?_, .flow _ (UInt64.le_refl _)⟩
    · simp [Event.loadedOn?]
    · simp [Event.readOn?]
  · rw [lane_read_peer_of_ok shown]
    refine ⟨_, _, ?_, ?_, (Lane.Passed.dropOldest arrived).next (.flow _ (UInt64.le_refl _))⟩
    · simp [Event.loadedOn?]
    · simp [Event.readOn?, Entry.stamp]

end Transfers

theorem passes_law : Conduct Passes where
  conductBy side :=
    { chains_passes with
      charge := fun link =>
        passes_of_quiet (quiet_law.charge link) (config_law.charge link) fun sender => by
          rw [lane_charge]
          exact .flow _ (time_law.charge link)
      remark := fun event isRemark link =>
        passes_of_quiet (quiet_law.remark event isRemark link) rfl fun _ => .rest
      setWatermark := fun queue level link =>
        passes_of_quiet (quiet_law.setWatermark side queue level link) rfl fun sender => by
          rw [lane_setWatermark]
          exact .rest
      openMessage := fun link =>
        passes_of_quiet (quiet_law.openMessage side link) rfl fun sender => by
          rcases Side.self_or_peer side sender with rfl | rfl
          · rw [lane_openMessage_self]
            exact .opened _
          · rw [lane_openMessage_peer]
            exact .rest
      closeMessage := fun link =>
        passes_of_quiet ((quiet_law.framingBy side).closeMessage link)
          (aside_closeMessage link side).config fun sender => by
          rw [time_closeMessage]
          rcases Side.self_or_peer side sender with rfl | rfl
          · rw [lane_closeMessage_self]
            exact (Lane.Passed.finished _).next (.flow _ (UInt64.le_refl _))
          · rw [lane_closeMessage_peer]
            exact .flow _ (UInt64.le_refl _)
      confirm := fun link =>
        passes_of_quiet ((quiet_law.framingBy side).confirm link)
          (aside_confirm link side).config fun sender => by
          rw [time_confirm]
          rcases Side.self_or_peer side sender with rfl | rfl
          · rw [lane_confirm_self]
            exact .flow _ (UInt64.le_refl _)
          · rw [lane_confirm_peer]
            exact (Lane.Passed.confirmed _).next (.flow _ (UInt64.le_refl _))
      stage := fun position word link =>
        passes_of_quiet (by simp [run_stage]) rfl fun _ => .rest
      load := fun block link => by
        by_cases ready : (link.station side).IsReady
        · exact passes_load_of_ready block ready
        · rw [run_load_of_unready block ready]
          exact chains_passes.rest link
      read := fun link => by
        cases shown : (link.station side).peek with
        | ok block => exact passes_read_of_ok shown
        | error refusal =>
          rw [run_read_of_error shown]
          exact chains_passes.rest link }
  advance cycles link :=
    passes_of_quiet (quiet_law.advance cycles link) (config_law.advance cycles link)
      fun sender => by
      rw [lane_advance]
      exact .flow _ (time_law.advance cycles link)
  reset link := by
    refine ⟨config_law.reset link, fun noReset => ?_⟩
    rw [events_reset] at noReset
    exact absurd (List.mem_singleton.mpr rfl) noReset

/-- Between two links, whatever is loaded is loaded at the end, when no more time passes. -/
def LoadsLast (first : Link) (events : List Event) (last : Link) : Prop :=
  ∃ middle before after, events = before ++ after ∧ Passes first before middle ∧
    Passes middle after last ∧ middle.time = last.time ∧
    ∀ sender, before.filterMap (Event.loadedOn? sender) = []

section LoadsLast

variable {link last : Link} {events : List Event} {side : Side}

theorem loadsLast_of_none (passes : Passes link events last)
    (none : ∀ sender, events.filterMap (Event.loadedOn? sender) = []) :
    LoadsLast link events last :=
  ⟨last, events, [], (List.append_nil _).symm, passes, chains_passes.rest last, rfl, none⟩

theorem loadsLast_of_quiet (passes : Passes link events last)
    (quiet : ∀ event ∈ events, event.IsQuiet) : LoadsLast link events last :=
  loadsLast_of_none passes fun sender =>
    List.filterMap_eq_nil_iff.mpr fun event member => (quiet event member).loadedOn? sender

theorem Passes.withStaged (passes : Passes link events last) (side : Side) (block : Block) :
    Passes link events (last.withStaged side block) :=
  passes

/-- A load or the commit of staged words lets no time pass. -/
theorem loadsLast_of_load {middle : Link} {before after : List Event}
    (passed : Passes link before middle) (quiet : ∀ event ∈ before, event.IsQuiet)
    (loaded : Passes middle after last) (block : Block)
    (state : last = ((load side block).run middle).state) :
    LoadsLast link (before ++ after) last := by
  refine ⟨middle, before, after, rfl, passed, loaded, ?_, ?_⟩
  · rw [state]
    exact (time_effect middle side (.load block)).symm
  · intro sender
    exact List.filterMap_eq_nil_iff.mpr fun event member => (quiet event member).loadedOn? sender

theorem loadsLast_callLoad (route : Route) (link : Link) (side : Side) (block : Block) :
    let outcome := (call route side (.load block)).run link
    LoadsLast link outcome.events outcome.state := by
  have conduct := passes_law.conductBy side
  cases route with
  | direct =>
    rw [run_directLoad]
    exact loadsLast_of_load (conduct.charge link) (quiet_law.charge link)
      (conduct.load block _) block rfl
  | registers =>
    by_cases ready : ((charge.run link).state.station side).IsReady
    · have charged := within_charges conduct.toChains conduct.charge 5 link
      have loaded := conduct.load block (((charges 5).run link).state.withStaged side block)
      rw [run_registersLoad_of_ready ready]
      exact loadsLast_of_load (charged.withStaged side block) (quiet_law.charges 5 link) loaded
        block rfl
    · rw [run_registersLoad_of_unready ready]
      exact loadsLast_of_quiet (conduct.charge link) (quiet_law.charge link)

theorem state_commit (link : Link) (side : Side) :
    ((commit side).run link).state = ((load side (link.staged.get side)).run link).state := by
  rw [commit, Step.run_bind, Step.run_observe, Step.run_bind]
  cases ((load side (link.staged.get side)).run link).value <;> rfl

theorem loadsLast_writeData (link : Link) (side : Side) (position : Fin 4) (word : UInt32) :
    let outcome := (writeData side position word).run link
    LoadsLast link outcome.events outcome.state := by
  have conduct := passes_law.conductBy side
  by_cases isLast : position = 3
  · subst isLast
    have written : (writeData side 3 word).run link =
        let staged := ((stage side 3 word).run (charge.run link).state).state
        let committed := (commit side).run staged
        ⟨(), committed.state, (charge.run link).events ++ committed.events⟩ :=
      rfl
    have staged := (conduct.charge link).withStaged side
      (((charge.run link).state.staged.get side).setWord word 3)
    rw [written]
    exact loadsLast_of_load staged (quiet_law.charge link) (conduct.commit _) _
      (state_commit _ side)
  · have written : (writeData side position word).run link =
        ⟨(), ((stage side position word).run (charge.run link).state).state,
          (charge.run link).events ++ []⟩ := by
      simp [writeData, isLast, stage]
    have passes := conduct.writeData position word link
    rw [written, List.append_nil] at passes ⊢
    exact loadsLast_of_quiet passes (quiet_law.charge link)

theorem loadsLast_writeRegister (link : Link) (side : Side) (address word : UInt32) :
    let outcome := (writeRegister side address word).run link
    LoadsLast link outcome.events outcome.state := by
  have framing := quiet_law.framingBy side
  have conduct := passes_law.conductBy side
  have ignored : ∀ event : Event, event.IsRemark →
      LoadsLast link ((writeRegister.ignore event).run link).events
        ((writeRegister.ignore event).run link).state := by
    intro event isRemark
    exact loadsLast_of_quiet (conduct.charged (conduct.remark event isRemark) link)
      (framing.charged (framing.remark event isRemark) link)
  unfold writeRegister
  split
  · exact loadsLast_of_quiet (conduct.writeControl word link) (framing.writeControl word link)
  · exact loadsLast_writeData link side _ word
  all_goals exact ignored _ trivial

theorem loadsLast_perform (operation : Operation) (fresh : ¬ operation.Restores) (link : Link)
    (framed : ∀ side, ((charge.run link).state.station side).Framed) :
    let outcome := (perform operation).run link
    LoadsLast link outcome.events outcome.state := by
  have passes := passes_law.perform operation fresh link
  have faithful : operation ≠ .reset → ∀ sender, (record operation link).Faithful sender :=
    faithful_record operation framed fresh
  cases operation with
  | call route side command =>
    cases command with
    | load block => simpa [perform] using loadsLast_callLoad route link side block
    | setWatermark | openMessage | closeMessage | confirm | read | status | now | waitFor =>
      exact loadsLast_of_none passes fun sender => (faithful (by simp) sender).accepted
  | writeRegister side address word =>
    simpa [perform] using loadsLast_writeRegister link side address word
  | readRegister | advance | reportStatus =>
    exact loadsLast_of_none passes fun sender => (faithful (by simp) sender).accepted
  | reset =>
    refine loadsLast_of_none passes fun _ => ?_
    rw [events_performReset]
    rfl
  | restore => exact absurd trivial fresh

/-- As no time passes behind a load, its stamp tells the time at the end. -/
theorem LoadsLast.passed (loadsLast : LoadsLast link events last) (noReset : .linkReset ∉ events)
    (sender : Side) :
    ∃ left, left.map Prod.fst = events.filterMap (Event.readOn? sender.peer) ∧
      Lane.Passed link.config.linkLatency (link.lane sender) link.time
        ((events.filterMap (Event.loadedOn? sender)).map fun block =>
          (block, last.time.after link.config.linkLatency))
        left (last.lane sender) last.time := by
  obtain ⟨middle, before, after, rfl, passes, passesLater, sameTime, none⟩ := loadsLast
  rw [List.mem_append, not_or] at noReset
  obtain ⟨joined, left, loaded, read, passed⟩ := passes.2 noReset.1 sender
  obtain ⟨joinedLater, leftLater, loadedLater, readLater, passedLater⟩ :=
    passesLater.2 noReset.2 sender
  rw [passes.1] at passedLater
  obtain rfl : joined = [] := by
    rw [none, List.map_eq_nil_iff] at loaded
    exact loaded
  have stamped : ∀ stamp ∈ joinedLater, stamp.2 = last.time.after link.config.linkLatency := by
    intro stamp member
    obtain ⟨time, notEarlier, notLater, stamped⟩ := passedLater.stamped stamp member
    rw [sameTime] at notEarlier
    rw [stamped, UInt64.le_antisymm notLater notEarlier]
  have same : joinedLater = ((before ++ after).filterMap (Event.loadedOn? sender)).map
      fun block => (block, last.time.after link.config.linkLatency) := by
    rw [List.filterMap_append, none, List.nil_append, ← loadedLater, List.map_map]
    refine (List.map_id _).symm.trans (List.map_congr_left fun stamp member => ?_)
    exact Prod.ext rfl (stamped stamp member)
  refine ⟨left ++ leftLater, ?_, ?_⟩
  · rw [List.map_append, List.filterMap_append, read, readLater]
  · rw [← same]
    exact passed.next passedLater

end LoadsLast

end Link

namespace Checkpoint

/-- The blocks that an operation got accepted on a side, with the time. A load is the last
thing that an operation does, so it is the time afterwards. -/
def loads (side : Side) (checkpoint : Checkpoint) : List (Block × Time) :=
  (checkpoint.accepted side).map fun block => (block, checkpoint.link.time)

def addLoads (side : Side) (loads : List (Block × Time)) (checkpoint : Checkpoint) :
    List (Block × Time) :=
  if checkpoint.operation = .reset then [] else loads ++ checkpoint.loads side

/-- The loads of a side since the last reset. -/
def loadsSince (side : Side) (checkpoints : List Checkpoint) : List (Block × Time) :=
  checkpoints.foldl (addLoads side) []

end Checkpoint

namespace Link

/-- The loads of a sender since the last reset and the blocks that its peer took account for
the stamps on the lane, and what has arrived is due. -/
structure Streams (sender : Side) (loads : List (Block × Time)) (taken : List Block)
    (link : Link) : Prop where
  ripe : (link.lane sender).Ripe link.time
  stream : ∃ left : List Stamp, left.map Prod.fst = taken ∧
    loads.map (fun load => (load.1, load.2.after link.config.linkLatency)) =
      left ++ (link.lane sender).stamps ∧
    ∀ stamp ∈ left, stamp.2 ≤ link.time

namespace Streams

variable {sender : Side} {loads : List (Block × Time)} {taken : List Block} {link : Link}

theorem idle (config : Config) (time : Time) : Streams sender [] [] (Link.idle config time) where
  ripe := by
    rw [lane_idle]
    simp [Lane.Ripe, Lane.idle]
  stream := by
    rw [lane_idle]
    exact ⟨[], rfl, rfl, by simp⟩

theorem checkpoint (streams : Streams sender loads taken link) (operation : Operation)
    (fresh : ¬ operation.Restores) (accepted : link.config.Accepted)
    (framed : ∀ side, ((charge.run link).state.station side).Framed) :
    let reached := Link.checkpoint operation link
    Streams sender (reached.addLoads sender loads)
      (Record.add (Record.taken sender.peer) taken reached.toRecord) reached.link := by
  intro reached
  by_cases isReset : operation = .reset
  · subst isReset
    have restarted : reached.link = .idle link.config link.time :=
      congrArg Outcome.state (run_reset_of_accepted accepted)
    rw [restarted]
    exact idle link.config link.time
  · have config : reached.link.config = link.config := config_law.perform operation fresh link
    have sending := faithful_record operation framed fresh isReset sender
    have receiving := faithful_record operation framed fresh isReset sender.peer
    have accepted : reached.events.filterMap (Event.loadedOn? sender) = reached.accepted sender :=
      sending.accepted
    have taken : reached.events.filterMap (Event.readOn? sender.peer) = reached.taken sender.peer :=
      receiving.taken
    obtain ⟨left, read, passed⟩ :
        ∃ left, left.map Prod.fst = reached.events.filterMap (Event.readOn? sender.peer) ∧
          Lane.Passed link.config.linkLatency (link.lane sender) link.time
            ((reached.events.filterMap (Event.loadedOn? sender)).map fun block =>
              (block, reached.link.time.after link.config.linkLatency))
            left (reached.link.lane sender) reached.link.time :=
      (loadsLast_perform operation fresh link framed).passed sending.noReset sender
    obtain ⟨leftBefore, readBefore, stream, due⟩ := streams.stream
    have sameOperation : reached.operation ≠ .reset := isReset
    rw [Checkpoint.addLoads, Record.add, if_neg sameOperation, if_neg sameOperation]
    refine ⟨passed.ripe streams.ripe, leftBefore ++ left, ?_, ?_, ?_⟩
    · rw [List.map_append, readBefore, read, taken]
    · rw [config, List.map_append, stream, List.append_assoc, List.append_assoc, ← passed.stream,
        accepted, Checkpoint.loads, List.map_map]
      rfl
    · intro stamp member
      rcases List.mem_append.mp member with earlier | later
      · exact UInt64.le_trans (due stamp earlier) passed.later
      · exact passed.due streams.ripe stamp later

theorem checkpoints (streams : Streams sender loads taken link) {log : List Event}
    (follows : link.Follows log) (operations : List Operation)
    (fresh : ∀ operation ∈ operations, ¬ operation.Restores) :
    Streams sender ((Link.checkpoints operations link).foldl (Checkpoint.addLoads sender) loads)
      ((records operations link).foldl (Record.add (Record.taken sender.peer)) taken)
      ((performAll operations).run link).state := by
  induction operations generalizing link loads taken log with
  | nil => exact streams
  | cons operation rest inductionHypothesis =>
    have isFresh : ¬ operation.Restores := fresh operation (by simp)
    have restFresh : ∀ later ∈ rest, ¬ later.Restores := by
      intro later member
      exact fresh later (by simp [member])
    have framed := fun side => follows.charge.framed side
    have followsOn := follows.step (trace_law.perform operation isFresh)
    exact inductionHypothesis (streams.checkpoint operation isFresh follows.accepted framed)
      followsOn restFresh

/-- The blocks that were taken and those that have arrived were loaded long enough ago. -/
theorem due_of_arrived (streams : Streams sender loads taken link) {load : Block × Time}
    (arrived : load ∈ loads.take (taken.length + (link.lane sender).arrived.length)) :
    load.2.after link.config.linkLatency ≤ link.time := by
  obtain ⟨left, rfl, stream, due⟩ := streams.stream
  have front : (loads.take (left.length + (link.lane sender).arrived.length)).map
      (fun load => (load.1, load.2.after link.config.linkLatency)) =
        left ++ (link.lane sender).arrived.map Entry.stamp := by
    rw [List.map_take, stream, Lane.stamps, List.map_append, ← List.append_assoc]
    exact List.take_left' (by simp)
  rw [List.length_map] at arrived
  have member := List.mem_map_of_mem (f := fun load =>
    (load.1, load.2.after link.config.linkLatency)) arrived
  rw [front] at member
  rcases List.mem_append.mp member with earlier | held
  · exact due _ earlier
  · exact Lane.ripe_iff.mp streams.ripe _ held

theorem blocks_eq (streams : Streams sender loads taken link) :
    loads.map Prod.fst = taken ++ (link.station sender.peer).rx.blocks ++
      (link.station sender).tx.blocks := by
  obtain ⟨left, rfl, stream, -⟩ := streams.stream
  have blocks := congrArg (List.map Prod.fst) stream
  simpa [Lane.stamps, lane, Lane.between, Fifo.blocks, Entry.stamp, Function.comp_def] using blocks

/-- What can be read next is the first load that was not taken. -/
theorem next_of_peek (streams : Streams sender loads taken link) {block : Block}
    (shown : (link.station sender.peer).peek = .ok block) :
    ∃ load, loads[taken.length]? = some load ∧ load.1 = block ∧
      load ∈ loads.take (taken.length + (link.lane sender).arrived.length) := by
  obtain ⟨entry, rest, shape, rfl, -⟩ := (Station.peek_eq_ok_iff _).mp shown
  have arrived : (link.lane sender).arrived = entry :: rest := shape
  have next : (loads.map Prod.fst)[taken.length]? = some entry.block := by
    rw [streams.blocks_eq]
    simp [Fifo.blocks, shape]
  rw [List.getElem?_map, Option.map_eq_some_iff] at next
  obtain ⟨load, found, same⟩ := next
  refine ⟨load, found, same, List.mem_of_getElem? (i := taken.length) ?_⟩
  rw [List.getElem?_take_of_lt (by simp [arrived]), found]

end Streams

end Link

namespace Run

variable (run : Run)

def checkpoints : List Checkpoint := Link.checkpoints run.operations run.start

theorem settled : run.link.Settled := by
  apply Link.settled_law.performAll run.operations run.fresh run.start
  rw [(Link.create_eq_ok_iff.mp run.created).2]
  exact Link.settled_idle run.config 0

theorem config_eq : run.link.config = run.config := by
  have kept : run.link.config = run.start.config :=
    Link.config_law.performAll run.operations run.fresh run.start
  rw [kept, (Link.create_eq_ok_iff.mp run.created).2]
  rfl

/-- After every operation, the oldest block that waits is not due yet or cannot be accepted.
And of the loads since the last reset, those that the peer has taken or received by now are
due, the one that it may read next among them. -/
theorem delivery_punctual (run : Run) (sender : Side) :
    let source := run.link.station sender
    let target := run.link.station sender.peer
    let loads := Checkpoint.loadsSince sender run.checkpoints
    let taken := Record.since (Record.taken sender.peer) run.records
    let due (load : Block × Time) : Prop :=
      min (load.2.toNat + run.config.linkLatency.toNat) (2 ^ 64 - 1) ≤ run.link.time.toNat
    (∀ oldest rest, source.tx.entries = oldest :: rest →
      run.link.time < oldest.readyAt ∨ target.rx.size = Fifo.depth ∨
        target.boundaryPending = true ∨ target.rx.HoldsFinal) ∧
    loads.map Prod.fst = taken ++ target.rx.blocks ++ source.tx.blocks ∧
    (∀ load ∈ loads.take (taken.length + target.rx.size), due load) ∧
    ∀ block, target.peek = .ok block →
      ∃ load, loads[taken.length]? = some load ∧ load.1 = block ∧ due load := by
  intro source target loads taken due
  have streams : Link.Streams sender loads taken run.link := by
    have start : Link.Streams sender [] [] run.start := by
      rw [(Link.create_eq_ok_iff.mp run.created).2]
      exact .idle run.config 0
    exact start.checkpoints (.start run.created) run.operations run.fresh
  have arrivedDue : ∀ load ∈ loads.take (taken.length + target.rx.size), due load := by
    intro load arrived
    have notLater := UInt64.le_iff_toNat_le.mp (streams.due_of_arrived arrived)
    rw [Time.toNat_after, run.config_eq] at notLater
    exact notLater
  refine ⟨?_, streams.blocks_eq, arrivedDue, ?_⟩
  · intro oldest rest shape
    have unable : ¬ (oldest.readyAt ≤ run.link.time ∧ target.CanAccept) :=
      run.settled sender oldest rest shape
    by_cases ready : oldest.readyAt ≤ run.link.time
    · right
      apply Decidable.byContradiction
      intro accepting
      simp only [not_or, Bool.not_eq_true] at accepting
      obtain ⟨notFull, isClear, noFinal⟩ := accepting
      exact unable ⟨ready, Nat.lt_of_le_of_ne target.rx.size_le notFull, isClear, noFinal⟩
    · left
      exact UInt64.not_le.mp ready
  · intro block shown
    obtain ⟨load, found, same, arrived⟩ := streams.next_of_peek shown
    exact ⟨load, found, same, arrivedDue load arrived⟩

end Run

end BlockLink
