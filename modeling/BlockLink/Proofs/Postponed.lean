import BlockLink.Proofs.Equations

/-!
Links moved along their clock.

A link can be moved to a later time together with the stamps on it. What is done to it
commutes with the move: the time is looked at only to tell which blocks are due, and these
are the same on both links as long as the end of the clock does not hold a stamp back.
-/

namespace BlockLink

namespace Time

theorem after_right_comm (time cycles delay : Time) :
    (time.after cycles).after delay = (time.after delay).after cycles := by
  apply UInt64.toNat_inj.mp
  simp only [toNat_after]
  omega

/-- A stamp that is held at the end of the clock counts as late on any clock before it. -/
theorem after_le_after_iff {time now delay : Time}
    (fits : (now.after delay).toNat < latest ∨
      now.toNat + delay.toNat ≤ latest ∧ time.toNat + delay.toNat ≤ latest) :
    time.after delay ≤ now.after delay ↔ time ≤ now := by
  rw [UInt64.le_iff_toNat_le, UInt64.le_iff_toNat_le]
  simp only [toNat_after] at fits ⊢
  omega

end Time

/-- Whether a step does the same on a state and on the changed one. -/
def Step.Commutes {Event State α : Type} (change : State → State) (step : Step Event State α) :
    Prop :=
  ∀ state, step.run (change state) =
    ⟨(step.run state).value, change (step.run state).state, (step.run state).events⟩

theorem Step.Commutes.bind {Event State α β : Type} {change : State → State}
    {first : Step Event State α} {second : α → Step Event State β}
    (commutesFirst : first.Commutes change)
    (commutesSecond : ∀ value, (second value).Commutes change) :
    (first >>= second).Commutes change := by
  intro state
  rw [run_bind, commutesFirst]
  dsimp only
  rw [commutesSecond]
  rfl

section Moving

variable (delay : Time)

def Entry.postponed (entry : Entry) : Entry :=
  { entry with readyAt := entry.readyAt.after delay }

namespace Fifo

variable (fifo : Fifo)

def postponed : Fifo where
  entries := fifo.entries.map (Entry.postponed delay)
  size_le := by
    rw [List.length_map]
    exact fifo.size_le

theorem size_postponed : (fifo.postponed delay).size = fifo.size :=
  List.length_map _

theorem oldest?_postponed :
    (fifo.postponed delay).oldest? = fifo.oldest?.map (Entry.postponed delay) :=
  List.head?_map

theorem hasRoom_postponed : (fifo.postponed delay).HasRoom ↔ fifo.HasRoom := by
  rw [HasRoom, HasRoom, size_postponed]

theorem holdsFinal_postponed : (fifo.postponed delay).HoldsFinal ↔ fifo.HoldsFinal := by
  constructor
  · rintro ⟨_, member, final⟩
    obtain ⟨entry, held, rfl⟩ := List.mem_map.mp member
    exact ⟨entry, held, final⟩
  · rintro ⟨entry, held, final⟩
    exact ⟨entry.postponed delay, List.mem_map_of_mem held, final⟩

theorem push_postponed (entry : Entry) (room : fifo.HasRoom) :
    (fifo.push entry room).postponed delay =
      (fifo.postponed delay).push (entry.postponed delay)
        ((fifo.hasRoom_postponed delay).mpr room) :=
  Fifo.ext List.map_append

theorem drop_postponed (count : Nat) :
    (fifo.drop count).postponed delay = (fifo.postponed delay).drop count :=
  Fifo.ext List.map_drop

theorem markNewest_postponed :
    fifo.markNewest.postponed delay = (fifo.postponed delay).markNewest :=
  Fifo.ext (map_markLast (fun _ => rfl) fifo.entries)

end Fifo

/-- The instance with all that it holds stamped later. -/
def Station.postponed (station : Station) : Station :=
  { station with tx := station.tx.postponed delay, rx := station.rx.postponed delay }

namespace Station

variable (station : Station)

theorem peek_postponed : (station.postponed delay).peek = station.peek := by
  rw [peek, peek, postponed, Fifo.oldest?_postponed]
  cases station.rx.oldest? <;> rfl

theorem dropOldestRx_postponed :
    (station.postponed delay).dropOldestRx = station.dropOldestRx.postponed delay := by
  have moved : (station.postponed delay).rx.oldest? =
      station.rx.oldest?.map (Entry.postponed delay) :=
    station.rx.oldest?_postponed delay
  rw [dropOldestRx, dropOldestRx, moved]
  cases station.rx.oldest? with
  | none => rfl
  | some entry =>
    rw [Option.map_some]
    dsimp only
    rw [postponed, postponed, Fifo.drop_postponed]
    rfl

theorem status_postponed : (station.postponed delay).status = station.status := by
  simp only [status, postponed, Fifo.size_postponed]

theorem canAccept_postponed : (station.postponed delay).CanAccept ↔ station.CanAccept := by
  rw [CanAccept, CanAccept, postponed, Fifo.hasRoom_postponed, Fifo.holdsFinal_postponed]

theorem accept_postponed (entry : Entry) (able : station.CanAccept) :
    (station.accept entry able).postponed delay =
      (station.postponed delay).accept (entry.postponed delay)
        ((station.canAccept_postponed delay).mpr able) := by
  rw [accept, postponed, Fifo.push_postponed]
  rfl

/-- The moved entries that are due are the ones that are due. -/
theorem intake_postponed {now : Time} {entries : List Entry}
    (due : ∀ entry ∈ entries, entry.readyAt.after delay ≤ now.after delay ↔ entry.readyAt ≤ now)
    (receiver : Station) :
    intake (now.after delay) (entries.map (Entry.postponed delay)) (receiver.postponed delay) =
      ((intake now entries receiver).1, (intake now entries receiver).2.postponed delay) := by
  induction entries generalizing receiver with
  | nil => rfl
  | cons entry rest inductionHypothesis =>
    have isDue := due entry (by simp)
    have restDue := inductionHypothesis fun later member => due later (by simp [member])
    rw [List.map_cons]
    by_cases able : entry.readyAt ≤ now ∧ receiver.CanAccept
    · have ableMoved : (entry.postponed delay).readyAt ≤ now.after delay ∧
          (receiver.postponed delay).CanAccept :=
        ⟨isDue.mpr able.1, (receiver.canAccept_postponed delay).mpr able.2⟩
      rw [intake, dif_pos ableMoved, intake, dif_pos able, ← accept_postponed, restDue]
    · have unableMoved : ¬ ((entry.postponed delay).readyAt ≤ now.after delay ∧
          (receiver.postponed delay).CanAccept) := by
        rintro ⟨isDueMoved, ableMoved⟩
        exact able ⟨isDue.mp isDueMoved, (receiver.canAccept_postponed delay).mp ableMoved⟩
      rw [intake, dif_neg unableMoved, intake, dif_neg able]

theorem commutes_setWatermark (queue : Queue) (level : UInt64) :
    (setWatermark queue level).Commutes (postponed delay) := by
  intro station
  by_cases valid : WatermarkValid level
  · rw [run_setWatermark_of_valid _ _ valid, run_setWatermark_of_valid _ _ valid]
    cases queue <;> rfl
  · rw [run_setWatermark_of_invalid _ _ valid, run_setWatermark_of_invalid _ _ valid]

theorem commutes_openMessage : openMessage.Commutes (postponed delay) := by
  intro station
  have same : (station.postponed delay).messageOpen = station.messageOpen := rfl
  cases isOpen : station.messageOpen with
  | true => rw [run_openMessage_of_open (same.trans isOpen), run_openMessage_of_open isOpen]
  | false =>
    rw [run_openMessage_of_shut (same.trans isOpen), run_openMessage_of_shut isOpen]
    rfl

theorem commutes_closeMessage : closeMessage.Commutes (postponed delay) :=
  fun _ => rfl

theorem commutes_confirm : confirm.Commutes (postponed delay) := by
  intro station
  have same : (station.postponed delay).boundaryPending = station.boundaryPending := rfl
  cases isPending : station.boundaryPending with
  | true =>
    rw [run_confirm_of_pending (same.trans isPending), run_confirm_of_pending isPending]
    rfl
  | false =>
    rw [run_confirm_of_clear (same.trans isPending), run_confirm_of_clear isPending]

theorem commutes_markBoundary : markBoundary.Commutes (postponed delay) := by
  intro station
  have size : (station.postponed delay).rx.size = station.rx.size := station.rx.size_postponed delay
  rw [Link.run_markBoundary, Link.run_markBoundary, size]
  simp only [postponed, Fifo.markNewest_postponed]

theorem commutes_read : read.Commutes (postponed delay) := by
  intro station
  have moved := station.peek_postponed delay
  cases shown : station.peek with
  | ok block =>
    rw [run_read_of_ok (moved.trans shown), run_read_of_ok shown, dropOldestRx_postponed]
  | error refusal => rw [run_read_of_error (moved.trans shown), run_read_of_error shown]

end Station

namespace Link

variable (link : Link)

/-- The link at a later time, with all that it holds stamped later. -/
def postponed : Link :=
  { link with
    stations := ⟨link.stations.left.postponed delay, link.stations.right.postponed delay⟩
    time := link.time.after delay }

theorem station_postponed (side : Side) :
    (link.postponed delay).station side = (link.station side).postponed delay := by
  cases side <;> rfl

theorem withStation_postponed (side : Side) (station : Station) :
    (link.withStation side station).postponed delay =
      (link.postponed delay).withStation side (station.postponed delay) := by
  cases side <;> rfl

theorem status_postponed (side : Side) : (link.postponed delay).status side = link.status side := by
  rw [status, status, station_postponed, Station.status_postponed]

theorem idle_postponed (config : Config) (time : Time) :
    (idle config time).postponed delay = idle config (time.after delay) :=
  rfl

section Steps

variable (side : Side)

theorem commutes_atStation {α : Type} {step : Step Station.Event Station α}
    (commutes : step.Commutes (Station.postponed delay)) :
    (atStation side step).Commutes (postponed delay) := by
  intro link
  rw [run_atStation, run_atStation, station_postponed, commutes, withStation_postponed]

theorem commutes_elapse (cycles : Time) :
    (Step.update fun link => { link with time := link.time.after cycles } :
      Step Event Link Unit).Commutes (postponed delay) := by
  intro link
  simp only [Step.run_update, postponed, Time.after_right_comm link.time delay cycles]

theorem commutes_placeBoundary : (placeBoundary side).Commutes (postponed delay) := by
  intro link
  have size : ((link.postponed delay).station side).tx.size = (link.station side).tx.size := by
    rw [station_postponed]
    exact Fifo.size_postponed delay _
  by_cases crossed : (link.station side).tx.size = 0
  · rw [run_placeBoundary_of_crossed (size.trans crossed), run_placeBoundary_of_crossed crossed]
    exact commutes_atStation delay side.peer (Station.commutes_markBoundary delay) link
  · have waiting : ((link.postponed delay).station side).tx.size ≠ 0 := by
      rw [size]
      exact crossed
    rw [run_placeBoundary_of_waiting waiting, run_placeBoundary_of_waiting crossed,
      withStation_postponed, station_postponed, Station.markNewestTx, Station.markNewestTx,
      Station.postponed, Station.postponed, Fifo.markNewest_postponed]

theorem commutes_finish : (finish side).Commutes (postponed delay) := by
  apply Step.Commutes.bind
  · exact commutes_atStation delay side (Station.commutes_closeMessage delay)
  · intro hasBlocks
    cases hasBlocks with
    | true => exact commutes_placeBoundary delay side
    | false => exact fun _ => rfl

/-- A block that is loaded later is stamped later. -/
theorem commutes_enqueue (block : Block) : (enqueue side block).Commutes (postponed delay) := by
  intro link
  have moved := link.station_postponed delay side
  by_cases ready : (link.station side).messageOpen = true ∧ (link.station side).tx.HasRoom
  · have readyMoved : ((link.postponed delay).station side).messageOpen = true ∧
        ((link.postponed delay).station side).tx.HasRoom := by
      rw [moved]
      exact ⟨ready.1, (Fifo.hasRoom_postponed delay _).mpr ready.2⟩
    rw [run_enqueue_of_ready block readyMoved, run_enqueue_of_ready block ready,
      withStation_postponed]
    simp only [moved, Station.postponed, Fifo.push_postponed, Entry.postponed,
      Time.after_right_comm link.time link.config.linkLatency delay]
    rfl
  · have unreadyMoved : ¬ (((link.postponed delay).station side).messageOpen = true ∧
        ((link.postponed delay).station side).tx.HasRoom) := by
      rw [moved]
      rintro ⟨isOpen, room⟩
      exact ready ⟨isOpen, (Fifo.hasRoom_postponed delay _).mp room⟩
    rw [run_enqueue_of_unready block unreadyMoved, run_enqueue_of_unready block ready]

theorem commutes_dequeue : (dequeue side).Commutes (postponed delay) := by
  apply Step.Commutes.bind
  · exact commutes_atStation delay side (Station.commutes_read delay)
  · intro shown
    cases shown <;> exact fun _ => rfl

theorem run_deliver_postponed
    (due : ∀ entry ∈ (link.station side).tx.entries,
      entry.readyAt.after delay ≤ link.time.after delay ↔ entry.readyAt ≤ link.time) :
    (deliver side).run (link.postponed delay) =
      ⟨(), ((deliver side).run link).state.postponed delay,
        ((deliver side).run link).events⟩ := by
  have taken := Station.intake_postponed delay due (link.station side.peer)
  have source : ((link.postponed delay).station side).tx.entries =
      (link.station side).tx.entries.map (Entry.postponed delay) := by
    rw [station_postponed]
    rfl
  have clock : (link.postponed delay).time = link.time.after delay := rfl
  have remaining (count : Nat) :
      { (link.station side).postponed delay with
        tx := ((link.station side).postponed delay).tx.drop count } =
      Station.postponed delay
        { link.station side with tx := (link.station side).tx.drop count } := by
    rw [Station.postponed, Station.postponed, Fifo.drop_postponed]
  rw [run_deliver, run_deliver]
  dsimp only
  rw [source, clock, station_postponed, station_postponed, taken, remaining,
    withStation_postponed, withStation_postponed, ← List.map_take, List.flatMap_map]
  rfl

end Steps

end Link

end Moving

end BlockLink
