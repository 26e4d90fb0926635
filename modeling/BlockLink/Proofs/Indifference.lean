import BlockLink.Proofs.Parallel

/-!
What a link does not depend on.

Both sides of a link are alike: with its sides in each other's place, it does the same with
its sides in each other's place. And the watermarks stand apart: whatever they are set to, and
whether a level that is given is taken or not, all else goes on as it would without them.
-/

namespace BlockLink

section Sides

theorem PerSide.get_swap {α : Type} (pair : PerSide α) (side : Side) :
    pair.swap.get side.peer = pair.get side := by
  cases side <;> rfl

/-- The link with its sides in each other's place. -/
def Link.mirrored (link : Link) : Link :=
  { link with
    stations := link.stations.swap
    staged := link.staged.swap }

/-- The same done on the other side. A savestate holds both sides and is taken as it is. -/
def Operation.mirrored : Operation → Operation
  | .call route side command => .call route side.peer command
  | .readRegister side address => .readRegister side.peer address
  | .writeRegister side address word => .writeRegister side.peer address word
  | .advance cycles => .advance cycles
  | .reset => .reset
  | .reportStatus side => .reportStatus side.peer
  | .restore bytes => .restore bytes

/-- Each side with the other one. -/
def Pairing.mirror : Pairing where
  across := Side.peer
  across_peer _ := rfl
  strict := True

theorem Operation.paired_mirrored {operation : Operation} (fresh : ¬ operation.Restores) :
    operation.Paired .mirror operation.mirrored := by
  cases operation with
  | call route side command => exact .call route side command
  | readRegister side address => exact .readRegister side address
  | writeRegister side address word => exact .writeRegister side address word
  | advance cycles => exact .advance cycles
  | reset => exact .reset
  | reportStatus side => exact .reportStatus side
  | restore bytes => exact absurd trivial fresh

namespace Link

theorem station_mirrored (link : Link) (side : Side) :
    link.mirrored.station side.peer = link.station side :=
  link.stations.get_swap side

theorem akin_mirrored {link : Link} (accepted : link.config.Accepted) :
    link.Akin .mirror link.mirrored where
  lane sender := by
    have sending := link.station_mirrored sender
    have receiving := link.station_mirrored sender.peer
    exact congrArg₂ Lane.between sending receiving
  staged side := link.staged.get_swap side
  time := rfl
  watermark _ side queue := congrArg (Station.watermark · queue) (link.station_mirrored side)
  accepted := ⟨accepted, accepted⟩
  settings := rfl
  config _ := rfl

theorem Akin.eq_mirrored {link other : Link} (akin : link.Akin .mirror other) :
    other = link.mirrored := by
  have stations := akin.station_of_strict trivial
  exact Link.ext (PerSide.ext (stations .right) (stations .left))
    (PerSide.ext (akin.staged .right) (akin.staged .left)) akin.time (akin.config trivial)

end Link

/-- What is done to a new link may as well be done on the other side each time. It is answered
the same, and leaves the same link behind with its sides in each other's place. -/
theorem Run.indifferent_to_sides (run : Run) :
    (Link.checkpoints (run.operations.map Operation.mirrored) run.start).map
        (fun checkpoint => (checkpoint.answer, checkpoint.link)) =
      (Link.checkpoints run.operations run.start).map
        fun checkpoint => (checkpoint.answer, checkpoint.link.mirrored) := by
  obtain ⟨accepted, start⟩ := Link.create_eq_ok_iff.mp run.created
  have unmoved : run.start.mirrored = run.start := by
    rw [start]
    rfl
  have akin : run.start.Akin .mirror run.start.mirrored := by
    apply Link.akin_mirrored
    rw [start]
    exact accepted
  have paired : List.Forall₂ (Operation.Paired .mirror) run.operations
      (run.operations.map Operation.mirrored) := by
    rw [List.forall₂_map_right_iff, List.forall₂_same]
    exact fun operation member => Operation.paired_mirrored (run.fresh operation member)
  have alike := akin.checkpoints paired (.inl trivial)
  rw [unmoved] at alike
  rw [← List.forall₂_eq_eq_eq, List.forall₂_map_left_iff, List.forall₂_map_right_iff]
  refine alike.flip.imp fun other checkpoint agree => ?_
  rw [agree.answer (.inl trivial), agree.link.eq_mirrored]

end Sides

section Watermarks

/-- The link without its watermarks, those of its settings included. -/
def Link.withoutWatermarks (link : Link) : Link :=
  { link with
    stations :=
      { left := link.stations.left.withoutWatermarks
        right := link.stations.right.withoutWatermarks }
    config := link.config.withoutWatermarks }

/-- What a checkpoint tells apart from the watermarks: the answer unless it shows them, and the
link without them. -/
def Checkpoint.withoutWatermarks (checkpoint : Checkpoint) : Option Answer × Link :=
  (if checkpoint.operation.ShowsWatermarks then none else some checkpoint.answer,
    checkpoint.link.withoutWatermarks)

/-- Each side with itself, with any watermarks. -/
def Pairing.unmarked : Pairing where
  across := id
  across_peer _ := rfl
  strict := False

theorem Operation.Paired.showsWatermarks_iff {pairing : Pairing} {operation other : Operation}
    (paired : operation.Paired pairing other) :
    other.ShowsWatermarks ↔ operation.ShowsWatermarks := by
  cases paired with
  | call route side command =>
    cases route with
    | direct => cases command <;> exact Iff.rfl
    | registers => exact Iff.rfl
  | setWatermark | readRegister | writeRegister | writeControl | advance | reset | reportStatus
  | restore => exact Iff.rfl

theorem Operation.Paired.restores_iff {pairing : Pairing} {operation other : Operation}
    (paired : operation.Paired pairing other) : other.Restores ↔ operation.Restores := by
  cases paired <;> exact Iff.rfl

theorem Operation.fresh_of_paired {pairing : Pairing} {operations others : List Operation}
    (paired : List.Forall₂ (Operation.Paired pairing) operations others)
    (fresh : ∀ operation ∈ operations, ¬ operation.Restores) :
    ∀ other ∈ others, ¬ other.Restores := by
  induction paired with
  | nil => exact fresh
  | cons pairedFirst _ inductionHypothesis =>
    rw [List.forall_mem_cons] at fresh ⊢
    exact ⟨mt pairedFirst.restores_iff.mp fresh.1, inductionHypothesis fresh.2⟩

theorem Link.Akin.eq_withoutWatermarks {link other : Link} (akin : link.Akin .unmarked other) :
    other.withoutWatermarks = link.withoutWatermarks :=
  Link.ext (PerSide.ext (akin.station .left) (akin.station .right))
    (PerSide.ext (akin.staged .left) (akin.staged .right)) akin.time akin.settings

theorem Checkpoint.Akin.eq_withoutWatermarks {checkpoint other : Checkpoint}
    (akin : checkpoint.Akin .unmarked other) :
    other.withoutWatermarks = checkpoint.withoutWatermarks := by
  have showsToo := akin.operation.showsWatermarks_iff
  rw [Checkpoint.withoutWatermarks, Checkpoint.withoutWatermarks,
    akin.link.eq_withoutWatermarks]
  by_cases shows : checkpoint.operation.ShowsWatermarks
  · rw [if_pos shows, if_pos (showsToo.mpr shows)]
  · rw [if_neg shows, if_neg (mt showsToo.mp shows), akin.answer (.inr shows)]

theorem Link.akin_of_create {config otherConfig : Config} {link other : Link}
    (settings : otherConfig.withoutWatermarks = config.withoutWatermarks)
    (created : create config = .ok link) (otherCreated : create otherConfig = .ok other) :
    link.Akin .unmarked other := by
  obtain ⟨accepted, rfl⟩ := create_eq_ok_iff.mp created
  obtain ⟨otherAccepted, rfl⟩ := create_eq_ok_iff.mp otherCreated
  exact
    { lane := fun sender => by rw [lane_idle, lane_idle]
      staged := fun _ => rfl
      time := rfl
      watermark := False.elim
      accepted := ⟨accepted, otherAccepted⟩
      settings := settings
      config := False.elim }

/-- No operation on a new link is broken off, as long as no savestate is loaded. -/
theorem Link.unfailing_of_fresh {config : Config} {start : Link}
    (created : Link.create config = .ok start) {operations : List Operation}
    (fresh : ∀ operation ∈ operations, ¬ operation.Restores) :
    Unfailing operations start := by
  apply ((History.created config start created).exists_performAll operations _).2
  exact fun bytes member => absurd trivial (fresh _ member)

/-- Two runs whose settings and operations differ in watermarks at most: in those that the links
begin with, in the levels that are set directly, be they in range or not, and in the fields of
the words that are written to CTRL. All that is answered is the same, but for what shows
watermarks, and so is the link after every step, but for the watermarks. A watermark that a
savestate brings in may not fit into CTRL, which breaks off calls through the registers, so
savestates have to leave these able to work. -/
theorem OpenRun.indifferent_to_watermarks (first second : OpenRun)
    (settings : second.config.withoutWatermarks = first.config.withoutWatermarks)
    (paired : List.Forall₂ (Operation.Paired .unmarked) first.operations second.operations)
    (unfailing : (∀ operation ∈ first.operations, ¬ operation.Restores) ∨
      Link.Unfailing first.operations first.start ∧
        Link.Unfailing second.operations second.start) :
    (Link.checkpoints second.operations second.start).map Checkpoint.withoutWatermarks =
      (Link.checkpoints first.operations first.start).map Checkpoint.withoutWatermarks := by
  have akin := Link.akin_of_create settings first.created second.created
  have bothUnfailing : Link.Unfailing first.operations first.start ∧
      Link.Unfailing second.operations second.start := by
    refine unfailing.elim (fun fresh => ?_) id
    exact ⟨Link.unfailing_of_fresh first.created fresh,
      Link.unfailing_of_fresh second.created (Operation.fresh_of_paired paired fresh)⟩
  have alike := akin.checkpoints paired (.inr bothUnfailing)
  rw [← List.forall₂_eq_eq_eq, List.forall₂_map_left_iff, List.forall₂_map_right_iff]
  exact alike.flip.imp fun other checkpoint agree => agree.eq_withoutWatermarks

/-- One link is created with other watermarks, refuses a level that the other one takes, and is
written control words whose watermark fields hold what is out of range. -/
theorem OpenRun.indifferent_to_invalid_watermarks :
    let block : Block := ⟨1, 2, 3, 4⟩
    let control := Register.control.address
    let first : OpenRun := {
      config := {}
      start := .idle {} 0
      created := rfl
      operations :=
        [.call .direct .left (.setWatermark .transmit 2), .writeRegister .left control 0x59,
          .call .registers .left (.load block), .writeRegister .left control 0x32,
          .readRegister .left control, .call .registers .right (.waitFor ⟨.rxLast, true, 9⟩),
          .call .direct .right .read] }
    let second : OpenRun := {
      config := { txWatermark := 3, rxWatermark := 2 }
      start := .idle { txWatermark := 3, rxWatermark := 2 } 0
      created := rfl
      operations :=
        [.call .direct .left (.setWatermark .transmit 4), .writeRegister .left control 0x01,
          .call .registers .left (.load block), .writeRegister .left control 0x02,
          .readRegister .left control, .call .registers .right (.waitFor ⟨.rxLast, true, 9⟩),
          .call .direct .right .read] }
    (Link.checkpoints second.operations second.start).map Checkpoint.withoutWatermarks =
        (Link.checkpoints first.operations first.start).map Checkpoint.withoutWatermarks ∧
      ((Link.performAll first.operations).run first.start).value =
        [.reply .done, .done, .reply .done, .done, .word 0x30, .reply .done,
          .reply (.refused .blocked)] ∧
      ((Link.performAll second.operations).run second.start).value =
        [.reply (.refused .invalidArgument), .done, .reply .done, .done, .word 0x58, .reply .done,
          .reply (.refused .blocked)] := by
  intro block control first second
  have opens : ControlWord.Akin .unmarked 0x59 0x01 := ⟨by decide, False.elim⟩
  have closes : ControlWord.Akin .unmarked 0x32 0x02 := ⟨by decide, False.elim⟩
  have paired : List.Forall₂ (Operation.Paired .unmarked) first.operations second.operations :=
    .cons (.setWatermark .left .transmit False.elim) <|
    .cons (.writeControl .left opens) <|
    .cons (.call .registers .left (.load block)) <|
    .cons (.writeControl .left closes) <|
    .cons (.readRegister .left control) <|
    .cons (.call .registers .right (.waitFor ⟨.rxLast, true, 9⟩)) <|
    .cons (.call .direct .right .read) .nil
  have fresh : ∀ operation ∈ first.operations, ¬ operation.Restores := by decide
  exact ⟨first.indifferent_to_watermarks second rfl paired (.inl fresh), by decide +kernel,
    by decide +kernel⟩

end Watermarks

end BlockLink
