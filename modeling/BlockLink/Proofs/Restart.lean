import Mathlib.Data.List.Forall2
import BlockLink.Proofs.Hold
import BlockLink.Proofs.Postponed
import BlockLink.Proofs.Punctuality

/-!
Fresh starts.

A reset leaves a new link behind, but for its clock. What is done from then on is done as
on a new link, only later: every step takes a link and the link that is ahead of it to two
such links again and answers the same on both, times apart. The end of the clock breaks
this, so the promise is given for runs that it does not hold back. As no clock goes back,
a run that it does not hold back has no step that it does.
-/

namespace BlockLink

theorem Time.zero_after (time : Time) : after 0 time = time := by
  have bound := time.toNat_lt
  apply UInt64.toNat_inj.mp
  rw [toNat_after, UInt64.toNat_zero, latest]
  omega

/-- What is taken in was due. -/
theorem Station.due_of_taken (now : Time) (entries : List Entry) (receiver : Station) :
    ∀ entry ∈ entries.take (intake now entries receiver).1, entry.readyAt ≤ now := by
  induction entries generalizing receiver with
  | nil => simp
  | cons entry rest inductionHypothesis =>
    by_cases able : entry.readyAt ≤ now ∧ receiver.CanAccept
    · rw [intake, dif_pos able]
      exact List.forall_mem_cons.mpr ⟨able.1, inductionHypothesis _⟩
    · rw [intake, dif_neg able]
      simp

namespace Link

/-- Whether the clock has room for a link that is moved, and for all that waits on it. -/
structure Postponable (delay : Time) (link : Link) : Prop where
  time : link.time.toNat + delay.toNat ≤ Time.latest
  waiting (side : Side) : ∀ entry ∈ (link.station side).tx.entries,
    entry.readyAt.toNat + delay.toNat ≤ Time.latest

/-- There is room if nothing is held back by a move: the clock and the stamps are later by just
as much. -/
theorem postponable_iff {delay : Time} {link : Link} :
    link.Postponable delay ↔
      (link.postponed delay).time.toNat = link.time.toNat + delay.toNat ∧
        ∀ side, ∀ entry ∈ (link.station side).tx.entries,
          (entry.postponed delay).readyAt.toNat = entry.readyAt.toNat + delay.toNat := by
  simp only [postponed, Entry.postponed, Time.toNat_after]
  constructor
  · intro fits
    have clock := fits.time
    refine ⟨by omega, fun side entry member => ?_⟩
    have stamp := fits.waiting side entry member
    omega
  · rintro ⟨clock, stamps⟩
    refine ⟨by omega, fun side entry member => ?_⟩
    have stamp := stamps side entry member
    omega

/-- Whether a link is a later state of another one: if the clock has room for it, then it had
room for the other one. -/
structure Ages (first last : Link) : Prop where
  later : first.time ≤ last.time
  postponable {delay : Time} : last.Postponable delay → first.Postponable delay

namespace Ages

theorem refl (link : Link) : link.Ages link := ⟨UInt64.le_refl _, id⟩

theorem trans {first middle last : Link} (before : first.Ages middle) (after : middle.Ages last) :
    first.Ages last :=
  ⟨UInt64.le_trans before.later after.later,
    fun postponable => before.postponable (after.postponable postponable)⟩

/-- What has left a transmit FIFO was due, so the clock has passed it. -/
theorem of_waiting {first last : Link} (later : first.time ≤ last.time)
    (waiting : ∀ side, ∀ entry ∈ (first.station side).tx.entries,
      (∃ kept ∈ (last.station side).tx.entries, kept.readyAt = entry.readyAt) ∨
        entry.readyAt ≤ last.time) : first.Ages last where
  later := later
  postponable {delay} postponable := by
    have notLater := UInt64.le_iff_toNat_le.mp later
    have fits := postponable.time
    constructor
    · omega
    · intro side entry member
      rcases waiting side entry member with ⟨kept, isKept, same⟩ | due
      · rw [← same]
        exact postponable.waiting side kept isKept
      · have passed := UInt64.le_iff_toNat_le.mp due
        omega

theorem of_stamps {first last : Link} (later : first.time ≤ last.time)
    (stamps : ∀ side, (first.station side).tx.entries.map Entry.stamp ⊆
      (last.station side).tx.entries.map Entry.stamp) : first.Ages last := by
  apply of_waiting later
  intro side entry member
  obtain ⟨kept, isKept, same⟩ := List.mem_map.mp (stamps side (List.mem_map_of_mem member))
  exact .inl ⟨kept, isKept, congrArg Prod.snd same⟩

end Ages

theorem ages_withStation {link : Link} {side : Side} {station : Station}
    (stamps : (link.station side).tx.entries.map Entry.stamp ⊆
      station.tx.entries.map Entry.stamp) : link.Ages (link.withStation side station) := by
  refine .of_stamps (UInt64.le_refl link.time) fun other => ?_
  rcases Side.self_or_peer side other with rfl | rfl
  · rw [station_withStation_self]
    exact stamps
  · rw [station_withStation_peer]
    exact List.Subset.refl _

theorem ages_deliver (sender : Side) :
    (deliver sender).Within fun first _ last => first.Ages last := by
  intro link
  let taken := Station.intake link.time (link.station sender).tx.entries (link.station sender.peer)
  have sending : (((deliver sender).run link).state.station sender).tx.entries =
      (link.station sender).tx.entries.drop taken.1 := by
    rw [run_deliver]
    simp [taken]
  have receiving : (((deliver sender).run link).state.station sender.peer).tx.entries =
      (link.station sender.peer).tx.entries := by
    rw [run_deliver]
    dsimp only
    rw [station_withStation_self, Station.intake_kept]
  refine .of_waiting (UInt64.le_refl link.time) fun side entry member => ?_
  rcases Side.self_or_peer sender side with rfl | rfl
  · rw [sending]
    rw [← List.take_append_drop taken.1 (link.station side).tx.entries] at member
    rcases List.mem_append.mp member with isTaken | isLeft
    · exact .inr (Station.due_of_taken link.time _ _ entry isTaken)
    · exact .inl ⟨entry, isLeft, rfl⟩
  · rw [receiving]
    exact .inl ⟨entry, member, rfl⟩

theorem ages_framing : Framing fun first _ last => first.Ages last where
  rest := .refl
  next := .trans
  elapse cycles link :=
    .of_stamps (UInt64.le_iff_toNat_le.mpr (Time.le_after _ _)) fun _ => List.Subset.refl _
  deliver := ages_deliver
  setWatermark side queue level link := by
    rw [setWatermark, run_atStation]
    apply ages_withStation
    by_cases valid : WatermarkValid level
    · rw [Station.run_setWatermark_of_valid _ _ valid]
      cases queue <;> exact List.Subset.refl _
    · rw [Station.run_setWatermark_of_invalid _ _ valid]
      exact List.Subset.refl _
  openMessage side link := by
    rw [openMessage, run_atStation]
    apply ages_withStation
    cases isOpen : (link.station side).messageOpen with
    | true => rw [Station.run_openMessage_of_open isOpen]; exact List.Subset.refl _
    | false => rw [Station.run_openMessage_of_shut isOpen]; exact List.Subset.refl _
  finish side link := by
    have finished := finished link side
    generalize (finish side).run link = outcome at finished ⊢
    cases finished with
    | shut => exact ages_withStation (List.Subset.refl _)
    | empty => exact ages_withStation (List.Subset.refl _)
    | waiting =>
      apply ages_withStation
      dsimp only
      rw [Fifo.entries_markNewest, Lane.map_stamp_markLast]
      exact List.Subset.refl _
    | crossed =>
      refine .trans (ages_withStation ?closed) (ages_withStation ?marked)
      case closed => exact List.Subset.refl _
      case marked =>
        rw [station_withStation_peer]
        exact List.Subset.refl _
  confirm side link := by
    rw [run_atStation]
    apply ages_withStation
    cases isPending : (link.station side).boundaryPending with
    | true => rw [Station.run_confirm_of_pending isPending]; exact List.Subset.refl _
    | false => rw [Station.run_confirm_of_clear isPending]; exact List.Subset.refl _
  remark _ _ link := .refl link

theorem ages_loading : Loading fun first _ last => first.Ages last where
  toFraming := ages_framing
  stage _ _ _ link := .of_stamps (UInt64.le_refl link.time) fun _ => List.Subset.refl _
  enqueue side block link := by
    by_cases ready : (link.station side).messageOpen = true ∧ (link.station side).tx.HasRoom
    · rw [run_enqueue_of_ready block ready]
      apply ages_withStation
      dsimp only
      rw [Fifo.entries_push, List.map_append]
      exact List.subset_append_left _ _
    · rw [run_enqueue_of_unready block ready]
      exact .refl link

theorem ages_reading : Reading fun first _ last => first.Ages last where
  toFraming := ages_framing
  dequeue side link := by
    cases shown : (link.station side).peek with
    | ok block =>
      rw [run_dequeue_of_ok shown]
      apply ages_withStation
      rw [Station.dropOldestRx]
      cases (link.station side).rx.oldest? <;> exact List.Subset.refl _
    | error refusal =>
      rw [run_dequeue_of_error shown]
      exact .refl link

/-- Whether the end of the clock has not held back a link that is ahead of another one: its
clock has not come to the end, or the clock and the stamps of the other one have room when they
are moved. -/
def Unsaturated (delay : Time) (ahead behind : Link) : Prop :=
  ahead.time.toNat < Time.latest ∨ behind.Postponable delay

namespace Unsaturated

variable {delay : Time}

theorem earlier {ahead aheadLater behind behindLater : Link}
    (unsaturated : Unsaturated delay aheadLater behindLater) (agesAhead : ahead.Ages aheadLater)
    (agesBehind : behind.Ages behindLater) : Unsaturated delay ahead behind := by
  rcases unsaturated with early | postponable
  · have notLater := UInt64.le_iff_toNat_le.mp agesAhead.later
    exact .inl (by omega)
  · exact .inr (agesBehind.postponable postponable)

variable {link : Link} (unsaturated : Unsaturated delay (link.postponed delay) link)
include unsaturated

theorem toNat_time : (link.postponed delay).time.toNat = link.time.toNat + delay.toNat := by
  rcases unsaturated with early | postponable
  · have clock : (link.postponed delay).time.toNat =
        min (link.time.toNat + delay.toNat) Time.latest :=
      Time.toNat_after _ _
    omega
  · exact (postponable_iff.mp postponable).1

theorem due_iff (side : Side) : ∀ entry ∈ (link.station side).tx.entries,
    entry.readyAt.after delay ≤ link.time.after delay ↔ entry.readyAt ≤ link.time := by
  intro entry member
  apply Time.after_le_after_iff
  rcases unsaturated with early | postponable
  · exact .inl early
  · exact .inr ⟨postponable.time, postponable.waiting side entry member⟩

end Unsaturated

end Link

/-- Whether one outcome is the other one, only later. -/
structure Outcome.Later (delay : Time) {α : Type} (related : α → α → Prop)
    (ahead behind : Outcome Event Link α) : Prop where
  value : related ahead.value behind.value
  state : ahead.state = behind.state.postponed delay
  events : ahead.events = behind.events

/-- A step that does on a link that is ahead what it does on the link itself, unless the end of
the clock comes in between. -/
structure Step.Shifts (delay : Time) {α : Type} (related : α → α → Prop)
    (step : Step Event Link α) : Prop where
  ages : step.Within fun first _ last => first.Ages last
  later (link : Link) :
    Link.Unsaturated delay (step.run (link.postponed delay)).state (step.run link).state →
      (step.run (link.postponed delay)).Later delay related (step.run link)

section Combining

variable {delay : Time} {α β : Type} {related : α → α → Prop} {relatedNext : β → β → Prop}

namespace Step.Shifts

theorem of_commutes {step : Step Event Link α}
    (ages : step.Within fun first _ last => first.Ages last)
    (commutes : step.Commutes (Link.postponed delay)) : step.Shifts delay Eq where
  ages := ages
  later link _ := by
    rw [commutes]
    exact ⟨rfl, rfl, rfl⟩

theorem value {value : α} (self : related value value) :
    (pure value : Step Event Link α).Shifts delay related where
  ages := .refl
  later _ _ := ⟨self, rfl, rfl⟩

theorem skip : (Step.skip : Step Event Link Unit).Shifts delay Eq := value rfl

theorem report (event : Event) : (Step.report event : Step Event Link Unit).Shifts delay Eq :=
  of_commutes .refl fun _ => rfl

theorem observe {view : Link → α} (same : ∀ link, view (link.postponed delay) = view link) :
    (Step.observe view : Step Event Link α).Shifts delay Eq :=
  of_commutes .refl fun link => by rw [run_observe, same]; rfl

/-- The second step may go on with values that are related only. -/
theorem chain {first : Step Event Link α} {second : α → Step Event Link β}
    (shiftsFirst : first.Shifts delay related)
    (ages : ∀ value, (second value).Within fun first _ last => first.Ages last)
    (later : ∀ {ahead behind : α}, related ahead behind → ∀ link,
      Link.Unsaturated delay ((second ahead).run (link.postponed delay)).state
          ((second behind).run link).state →
        ((second ahead).run (link.postponed delay)).Later delay relatedNext
          ((second behind).run link)) :
    (first >>= second).Shifts delay relatedNext where
  ages := within_bind Link.ages_framing.toChains shiftsFirst.ages ages
  later link unsaturated := by
    have before := shiftsFirst.later link (unsaturated.earlier (ages _ _) (ages _ _))
    rw [run_bind, run_bind] at unsaturated ⊢
    dsimp only at unsaturated
    rw [before.state] at unsaturated
    have after := later before.value _ unsaturated
    rw [← before.state] at after
    refine ⟨after.value, after.state, ?_⟩
    dsimp only
    rw [before.events, after.events]

theorem bind {first : Step Event Link α} {second : α → Step Event Link β}
    (shiftsFirst : first.Shifts delay Eq)
    (shiftsSecond : ∀ value, (second value).Shifts delay relatedNext) :
    (first >>= second).Shifts delay relatedNext := by
  apply shiftsFirst.chain fun value => (shiftsSecond value).ages
  rintro value _ rfl link unsaturated
  exact (shiftsSecond value).later link unsaturated

theorem answer {step : Step Event Link α} (shifts : step.Shifts delay Eq) (change : α → β)
    (self : ∀ value, relatedNext (change value) (change value)) :
    (step >>= fun value => pure (change value)).Shifts delay relatedNext :=
  shifts.bind fun outcome => value (self outcome)

theorem map {step : Step Event Link α} (change : α → β)
    (shifts : step.Shifts delay fun ahead behind => relatedNext (change ahead) (change behind)) :
    (change <$> step).Shifts delay relatedNext where
  ages := within_map Link.ages_framing.toChains change shifts.ages
  later link unsaturated := by
    have later := shifts.later link unsaturated
    exact ⟨later.value, later.state, congrArg (· ++ []) later.events⟩

theorem mapSelf {step : Step Event Link α} (change : α → β) (shifts : step.Shifts delay Eq)
    (self : ∀ value, relatedNext (change value) (change value)) :
    (change <$> step).Shifts delay relatedNext := by
  rw [map_eq_pure_bind]
  exact shifts.answer change self

end Step.Shifts

end Combining

namespace Link

variable (delay : Time) (side : Side)

theorem shifts_now : (Step.observe fun link => link.time : Step Event Link Time).Shifts delay
    fun ahead behind => ahead.toNat = behind.toNat + delay.toNat where
  ages := .refl
  later _ unsaturated := ⟨unsaturated.toNat_time, rfl, rfl⟩

theorem shifts_deliver : (deliver side).Shifts delay Eq where
  ages := ages_deliver side
  later link unsaturated := by
    have before := unsaturated.earlier (ages_deliver side _) (ages_deliver side link)
    rw [link.run_deliver_postponed delay side (before.due_iff side)]
    exact ⟨rfl, rfl, rfl⟩

theorem shifts_settle : settle.Shifts delay Eq :=
  (shifts_deliver delay .left).bind fun _ => shifts_deliver delay .right

theorem shifts_advance (cycles : Time) : (advance cycles).Shifts delay Eq :=
  (Step.Shifts.of_commutes (ages_framing.elapse cycles) (commutes_elapse delay cycles)).bind
    fun _ => shifts_settle delay

theorem shifts_charge : charge.Shifts delay Eq where
  ages := ages_framing.charge
  later link unsaturated := by
    have settings : (link.postponed delay).config = link.config := rfl
    rw [run_charge, run_charge, settings] at unsaturated ⊢
    exact (shifts_advance delay link.config.accessCycles).later link unsaturated

theorem shifts_charged {α : Type} {related : α → α → Prop} {step : Step Event Link α}
    (shifts : step.Shifts delay related) :
    (do charge; step : Step Event Link α).Shifts delay related :=
  (shifts_charge delay).bind fun _ => shifts

theorem shifts_setWatermark (queue : Queue) (level : UInt64) :
    (setWatermark side queue level).Shifts delay Eq :=
  .of_commutes (ages_framing.setWatermark side queue level)
    (commutes_atStation delay side (Station.commutes_setWatermark delay queue level))

theorem shifts_openMessage : (openMessage side).Shifts delay Eq :=
  .of_commutes (ages_framing.openMessage side)
    (commutes_atStation delay side (Station.commutes_openMessage delay))

theorem shifts_closeMessage : (closeMessage side).Shifts delay Eq := by
  rw [closeMessage_eq]
  apply (Step.Shifts.of_commutes (ages_framing.finish side) (commutes_finish delay side)).bind
  intro _
  exact shifts_settle delay

theorem shifts_confirm : (confirm side).Shifts delay Eq := by
  have confirmed := commutes_atStation delay side (Station.commutes_confirm delay)
  apply (Step.Shifts.of_commutes (ages_framing.confirm side) confirmed).bind
  intro _
  exact shifts_settle delay

theorem shifts_load (block : Block) : (load side block).Shifts delay Eq := by
  have queued := commutes_enqueue delay side block
  rw [load_eq]
  apply (Step.Shifts.of_commutes (ages_loading.enqueue side block) queued).bind
  intro answer
  cases answer with
  | ok => exact (shifts_settle delay).answer _ fun _ => rfl
  | error refusal => exact .value rfl

theorem shifts_read : (read side).Shifts delay Eq := by
  rw [read_eq]
  apply (Step.Shifts.of_commutes (ages_reading.dequeue side) (commutes_dequeue delay side)).bind
  intro answer
  cases answer with
  | ok block => exact (shifts_settle delay).answer _ fun _ => rfl
  | error refusal => exact .value rfl

theorem shifts_status : (Endpoint.status side).Shifts delay Eq :=
  shifts_charged delay (.observe fun link => link.status_postponed delay side)

theorem shifts_readStatus : (readStatus side).Shifts delay Eq := by
  apply shifts_charged
  apply Step.Shifts.observe
  intro link
  rw [status_postponed]

theorem shifts_readControl : (readControl side).Shifts delay Eq := by
  apply shifts_charged
  apply Step.Shifts.observe
  intro link
  rw [station_postponed]
  rfl

theorem shifts_showData (position : Fin 4) (shown : Except Refusal Block) :
    (showData side position shown).Shifts delay Eq := by
  cases shown with
  | ok block => exact .value rfl
  | error refusal => exact (Step.Shifts.report _).answer _ fun _ => rfl

theorem shifts_readData (position : Fin 4) : (readData side position).Shifts delay Eq := by
  apply shifts_charged
  by_cases last : position = 3
  · simp only [last, if_true]
    exact (shifts_read delay side).bind fun shown => shifts_showData delay side 3 shown
  · simp only [last, if_false]
    refine .bind (.observe fun link => ?_) fun shown => shifts_showData delay side position shown
    rw [station_postponed, Station.peek_postponed]

theorem shifts_readRegister (address : UInt32) : (readRegister side address).Shifts delay Eq := by
  have blank (event : Event) : (readRegister.blank event).Shifts delay Eq :=
    shifts_charged delay ((Step.Shifts.report event).answer _ fun _ => rfl)
  unfold readRegister
  split
  next => exact .mapSelf _ (shifts_readStatus delay side) fun _ => rfl
  next => exact shifts_readControl delay side
  next => exact .mapSelf _ (shifts_readData delay side _) fun _ => rfl
  all_goals exact blank _

theorem shifts_pulse (field : Field) (word : UInt32) {action : Step Event Link Unit}
    (shifts : action.Shifts delay Eq) : (pulse field word action).Shifts delay Eq := by
  unfold pulse
  split
  · exact shifts
  · exact .skip

theorem shifts_writeWatermark (queue : Queue) (word : UInt32) :
    (writeWatermark side queue word).Shifts delay Eq := by
  apply (shifts_setWatermark delay side queue _).bind
  intro answer
  cases answer with
  | ok => exact .skip
  | error refusal => exact .report _

theorem shifts_writeControl (word : UInt32) : (writeControl side word).Shifts delay Eq := by
  rw [writeControl_eq]
  apply shifts_charged
  apply (shifts_writeWatermark delay side .transmit word).bind
  intro _
  apply (shifts_writeWatermark delay side .receive word).bind
  intro _
  apply (shifts_pulse delay _ word (shifts_closeMessage delay side)).bind
  intro _
  apply (shifts_pulse delay _ word (shifts_openMessage delay side)).bind
  intro _
  exact shifts_pulse delay _ word (shifts_confirm delay side)

theorem shifts_commit : (commit side).Shifts delay Eq := by
  refine .bind (.observe fun _ => rfl) fun block => ?_
  apply (shifts_load delay side block).bind
  intro answer
  cases answer with
  | ok => exact .skip
  | error refusal => exact .report _

theorem shifts_writeData (position : Fin 4) (word : UInt32) :
    (writeData side position word).Shifts delay Eq := by
  apply shifts_charged
  refine .bind (.of_commutes (ages_loading.stage side position word) fun _ => rfl) fun _ => ?_
  by_cases last : position = 3
  · simp only [last, if_true]
    exact shifts_commit delay side
  · simp only [last, if_false]
    exact .value rfl

theorem shifts_writeRegister (address word : UInt32) :
    (writeRegister side address word).Shifts delay Eq := by
  have ignore (event : Event) : (writeRegister.ignore event).Shifts delay Eq :=
    shifts_charged delay (.report event)
  unfold writeRegister
  split
  next => exact shifts_writeControl delay side word
  next => exact shifts_writeData delay side _ word
  all_goals exact ignore _

theorem shifts_program {α : Type} (program : Program α) :
    (program.run (bus side)).Shifts delay Eq := by
  induction program with
  | answer value => exact .value rfl
  | read address next inductionHypothesis =>
    rw [Program.run]
    apply (shifts_readRegister delay side address).bind
    intro shown
    cases shown with
    | ok word => exact inductionHypothesis word
    | error fault => exact .value rfl
  | write address word next inductionHypothesis =>
    rw [Program.run]
    apply (shifts_writeRegister delay side address word).bind
    intro _
    exact inductionHypothesis

end Link

namespace Watch

variable {delay : Time}

theorem elapsed_of_later {start startAhead now nowAhead : Time}
    (startLater : startAhead.toNat = start.toNat + delay.toNat)
    (nowLater : nowAhead.toNat = now.toNat + delay.toNat) (polls : Nat) :
    elapsed startAhead nowAhead polls = elapsed start now polls := by
  have same : Time.since nowAhead startAhead = Time.since now start := by
    apply UInt64.toNat_inj.mp
    rw [Time.toNat_since, Time.toNat_since]
    omega
  rw [elapsed, elapsed, same]

variable {watch : Watch Link} (shows : watch.status.Shifts delay Eq)
  (reads : watch.now = Step.observe fun link => link.time)
include shows reads

theorem ages_poll (aim : Aim) (start : Time) (more polls : Nat) (link : Link)
    (events : List Event) : link.Ages (poll watch aim start more polls link events).state := by
  apply within_poll Link.ages_framing.toChains shows.ages _ (fun _ _ _ => .refl) aim start more
    polls link link events (.refl link)
  rw [reads]
  exact .refl

/-- A poll begins with a look at the status, and the clock stands while it looks at the time. -/
theorem ages_shown (aim : Aim) (start : Time) (more polls : Nat) (link : Link)
    (events : List Event) :
    (watch.status.run link).state.Ages (poll watch aim start more polls link events).state := by
  have still : (watch.now.run (watch.status.run link).state).state =
      (watch.status.run link).state := by
    rw [reads, Step.run_observe]
  cases more with
  | zero =>
    unfold poll
    dsimp only
    rw [still]
    split
    · exact .refl _
    · split <;> exact .refl _
  | succ more =>
    unfold poll
    dsimp only
    rw [still]
    split
    · exact .refl _
    · split
      · exact .refl _
      · split
        · exact .refl _
        · exact ages_poll shows reads ..

/-- Both polls see the same status, and count the same cycles. -/
theorem shown_of_poll (aim : Aim) {start startAhead : Time}
    (startLater : startAhead.toNat = start.toNat + delay.toNat) {more polls : Nat} {link : Link}
    {events : List Event}
    (unsaturated : Link.Unsaturated delay
      (poll watch aim startAhead more polls (link.postponed delay) events).state
      (poll watch aim start more polls link events).state) :
    (watch.status.run (link.postponed delay)).Later delay Eq (watch.status.run link) ∧
      elapsed startAhead ((watch.status.run link).state.postponed delay).time polls =
        elapsed start (watch.status.run link).state.time polls := by
  have before := unsaturated.earlier (ages_shown shows reads ..) (ages_shown shows reads ..)
  have shown := shows.later link before
  rw [shown.state] at before
  exact ⟨shown, elapsed_of_later startLater before.toNat_time polls⟩

theorem later_poll (aim : Aim) {start startAhead : Time}
    (startLater : startAhead.toNat = start.toNat + delay.toNat) (more polls : Nat) (link : Link)
    (events : List Event)
    (unsaturated : Link.Unsaturated delay
      (poll watch aim startAhead more polls (link.postponed delay) events).state
      (poll watch aim start more polls link events).state) :
    (poll watch aim startAhead more polls (link.postponed delay) events).Later delay Eq
      (poll watch aim start more polls link events) := by
  obtain ⟨shown, spent⟩ := shown_of_poll shows reads aim startLater unsaturated
  induction more generalizing polls link events with
  | zero =>
    unfold poll
    simp only [shown.value, shown.state, shown.events, reads, Step.run_observe, spent]
    cases (watch.status.run link).value with
    | error fault => exact ⟨rfl, rfl, rfl⟩
    | ok status =>
      dsimp only
      split <;> exact ⟨rfl, rfl, rfl⟩
  | succ more inductionHypothesis =>
    unfold poll at unsaturated ⊢
    simp only [shown.value, shown.state, shown.events, reads, Step.run_observe, spent]
      at unsaturated ⊢
    cases value : (watch.status.run link).value with
    | error fault => exact ⟨rfl, rfl, rfl⟩
    | ok status =>
      simp only [value] at unsaturated ⊢
      by_cases met : aim.IsMet status
      · simp only [met, if_true]
        exact ⟨rfl, rfl, rfl⟩
      · simp only [met, if_false] at unsaturated ⊢
        split
        next => exact ⟨rfl, rfl, rfl⟩
        next unspent =>
          rw [if_neg unspent, if_neg unspent] at unsaturated
          obtain ⟨shownNext, spentNext⟩ := shown_of_poll shows reads aim startLater unsaturated
          exact inductionHypothesis _ _ _ unsaturated shownNext spentNext

theorem shifts_waitFor (aim : Aim) : (watch.waitFor aim).Shifts delay Eq where
  ages := by
    apply within_waitFor Link.ages_framing.toChains shows.ages _ (fun _ _ _ => .refl)
    rw [reads]
    exact .refl
  later link unsaturated := by
    unfold Step.run waitFor at unsaturated ⊢
    simp only [reads, Step.run_observe] at unsaturated ⊢
    have before := unsaturated.earlier (ages_poll shows reads ..) (ages_poll shows reads ..)
    exact later_poll shows reads aim before.toNat_time _ _ _ _ unsaturated

end Watch

/-- Whether two answers are the same, but for a time, which is later in the first. -/
def Answer.Later (delay : Time) : Answer → Answer → Prop
  | .reply (.time ahead), .reply (.time behind) => ahead.toNat = behind.toNat + delay.toNat
  | ahead, behind => ahead = behind

namespace Link

section Calls

variable (delay : Time) (side : Side)

theorem shifts_driverStatus : (Driver.watch (bus side)).status.Shifts delay Eq :=
  shifts_program delay side _

theorem shifts_endpoint (command : Command) :
    (Endpoint.perform side command).Shifts delay
      fun ahead behind => (Answer.ofReply ahead).Later delay (.ofReply behind) := by
  cases command with
  | setWatermark queue level =>
    apply (shifts_charged delay (shifts_setWatermark delay side queue level)).answer
    intro answer
    cases answer <;> rfl
  | openMessage =>
    exact (shifts_charged delay (shifts_openMessage delay side)).answer _ fun _ => rfl
  | closeMessage =>
    exact (shifts_charged delay (shifts_closeMessage delay side)).answer _ fun _ => rfl
  | confirm => exact (shifts_charged delay (shifts_confirm delay side)).answer _ fun _ => rfl
  | load block =>
    apply (shifts_charged delay (shifts_load delay side block)).answer
    intro answer
    cases answer <;> rfl
  | read =>
    apply (shifts_charged delay (shifts_read delay side)).answer
    intro answer
    cases answer <;> rfl
  | status => exact (shifts_status delay side).answer _ fun _ => rfl
  | now =>
    exact (shifts_now delay).chain (fun _ => .refl) fun later _ _ => ⟨later, rfl, rfl⟩
  | waitFor aim =>
    have shows : (Endpoint.watch side).status.Shifts delay Eq :=
      .mapSelf _ (shifts_status delay side) fun _ => rfl
    apply (Watch.shifts_waitFor shows rfl aim).answer
    rintro (fault | answer)
    · rfl
    · cases answer <;> rfl

theorem shifts_driver (command : Command) :
    (Driver.perform (bus side) command).Shifts delay
      fun ahead behind => (Answer.ofReply ahead).Later delay (.ofReply behind) := by
  cases command with
  | openMessage | closeMessage | confirm | status =>
    apply (shifts_program delay side _).answer
    intro answer
    cases answer <;> rfl
  | setWatermark | load | read =>
    apply (shifts_program delay side _).answer
    rintro (fault | answer)
    · rfl
    · cases answer <;> rfl
  | now =>
    exact (shifts_now delay).chain (fun _ => .refl) fun later _ _ => ⟨later, rfl, rfl⟩
  | waitFor aim =>
    apply (Watch.shifts_waitFor (shifts_driverStatus delay side) rfl aim).answer
    rintro (fault | answer)
    · rfl
    · cases answer <;> rfl

theorem shifts_reportStatus : (reportStatus side).Shifts delay Eq := by
  have commutes : (reportStatus side).Commutes (postponed delay) := by
    intro link
    unfold Step.run reportStatus
    rw [status_postponed]
  exact .of_commutes (fun link => .refl link) commutes

end Calls

/-- A savestate comes without settings, so those of the link stay. -/
theorem config_restore (bytes : List UInt8) :
    (restore bytes).Within fun first _ last => last.config = first.config := by
  intro link
  cases shown : Savestate.snapshot.read bytes with
  | ok read => rw [link.run_restore_of_ok shown]
  | error malformed => rw [link.run_restore_of_error shown]

theorem config_perform (operation : Operation) :
    (perform operation).Within fun first _ last => last.config = first.config := by
  by_cases restores : operation.Restores
  · cases operation with
    | restore bytes =>
      apply Step.within_bind config_law.toChains (config_restore bytes)
      intro answer
      cases answer <;> exact Step.within_pure config_law.toChains _
    | call | readRegister | writeRegister | advance | reset | reportStatus =>
      exact absurd restores id
  · exact config_law.perform operation restores

theorem config_performAll (operations : List Operation) :
    (performAll operations).Within fun first _ last => last.config = first.config :=
  within_performAll config_law.toChains operations fun operation _ => config_perform operation

variable (delay : Time)

theorem shifts_perform {operation : Operation} (continues : operation.Continues) :
    (perform operation).Shifts delay (Answer.Later delay) := by
  cases operation with
  | call route side command =>
    cases route with
    | direct => exact .map _ (shifts_endpoint delay side command)
    | registers => exact .map _ (shifts_driver delay side command)
  | readRegister side address =>
    refine .mapSelf _ (shifts_readRegister delay side address) fun shown => ?_
    cases shown <;> rfl
  | writeRegister side address word =>
    exact (shifts_writeRegister delay side address word).answer _ fun _ => rfl
  | advance cycles => exact (shifts_advance delay cycles).answer _ fun _ => rfl
  | reportStatus side => exact (shifts_reportStatus delay side).answer _ fun _ => rfl
  | reset | restore => exact absurd continues id

theorem shifts_performAll (operations : List Operation)
    (continues : ∀ operation ∈ operations, operation.Continues) :
    (performAll operations).Shifts delay (List.Forall₂ (Answer.Later delay)) := by
  induction operations with
  | nil => exact .value .nil
  | cons operation rest inductionHypothesis =>
    have shiftsRest := inductionHypothesis fun later member => continues later (by simp [member])
    apply (shifts_perform delay (continues operation (by simp))).chain
    · intro answer
      exact Step.within_answer ages_framing.toChains shiftsRest.ages _
    · intro ahead behind related link unsaturated
      have later := shiftsRest.later link unsaturated
      exact ⟨.cons related later.value, later.state, congrArg (· ++ []) later.events⟩

end Link

namespace OpenRun

variable (run : OpenRun)

theorem config_link : run.link.config = run.config := by
  have kept : run.link.config = run.start.config :=
    Link.config_performAll run.operations run.start
  rw [kept, (Link.create_eq_ok_iff.mp run.created).2]
  rfl

/-- Whatever was done to a link and whatever bytes were loaded into it, a reset makes it a new
link again, with its settings and at its time. All that is done from then on is answered as on
a new link, but for the time, which is later by the time of the reset, as long as the end of
the clock holds nothing back. -/
theorem reset_restarts (run : OpenRun) :
    let restarted := ((Link.perform .reset).run run.link).state
    run.link.config = run.config ∧ Link.create run.link.config = .ok run.start ∧
    restarted.stations = run.start.stations ∧ restarted.staged = run.start.staged ∧
    restarted.config = run.link.config ∧ restarted.time = run.link.time ∧
    ∀ operations : List Operation, (∀ operation ∈ operations, operation.Continues) →
      let ahead := (Link.performAll operations).run restarted
      let behind := (Link.performAll operations).run run.start
      Link.Unsaturated run.link.time ahead.state behind.state →
        List.Forall₂ (Answer.Later run.link.time) ahead.value behind.value ∧
          ahead.events = behind.events := by
  intro restarted
  obtain ⟨accepted, start⟩ := Link.create_eq_ok_iff.mp run.created
  have valid : run.link.config.Accepted := by
    rw [run.config_link]
    exact accepted
  have reset : restarted = .idle run.config run.link.time := by
    rw [← run.config_link]
    exact congrArg Outcome.state (Link.run_reset_of_accepted valid)
  have moved : restarted = run.start.postponed run.link.time := by
    rw [reset, start, Link.idle_postponed, Time.zero_after]
  refine ⟨run.config_link, ?_, ?_, ?_, ?_, ?_, ?_⟩
  · rw [run.config_link]
    exact run.created
  · rw [reset, start]
    rfl
  · rw [reset, start]
    rfl
  · rw [reset, run.config_link]
    rfl
  · rw [reset]
    rfl
  · intro operations continues
    rw [moved]
    intro ahead behind unsaturated
    have later := (Link.shifts_performAll run.link.time operations continues).later run.start
      unsaturated
    exact ⟨later.value, later.events⟩

/-- A savestate has brought its own time along, and the reset keeps it. -/
theorem reset_restarts_after_savestate :
    let config : Config := { linkLatency := 20 }
    let block : Block := ⟨1, 2, 3, 4⟩
    let run : OpenRun := {
      config
      start := .idle config 0
      created := rfl
      operations :=
        [.call .direct .left .openMessage, .restore ((Link.idle {} 7).save ++ [0]),
          .call .direct .left .openMessage, .call .direct .left (.load block), .advance 10] }
    let restarted := ((Link.perform .reset).run run.link).state
    let operations : List Operation :=
      [.call .registers .left .openMessage, .call .direct .left (.load block),
        .call .registers .right (.waitFor ⟨.rxValid, true, 50⟩), .call .direct .right .read,
        .call .registers .left .now]
    let ahead := (Link.performAll operations).run restarted
    let behind := (Link.performAll operations).run run.start
    run.link.time = 19 ∧
    Link.Unsaturated run.link.time ahead.state behind.state ∧
    List.Forall₂ (Answer.Later run.link.time) ahead.value behind.value ∧
    behind.value =
      [.reply .done, .reply .done, .reply .done, .reply (.block block), .reply (.time 24)] := by
  intro config block run restarted operations ahead behind
  have unsaturated : Link.Unsaturated run.link.time ahead.state behind.state :=
    .inl (by decide +kernel)
  obtain ⟨-, -, -, -, -, -, restarts⟩ := run.reset_restarts
  have agree := restarts operations (by decide) unsaturated
  exact ⟨by decide +kernel, unsaturated, agree.1, by decide +kernel⟩

/-- At the end of the clock, time does not pass any more. -/
example :
    ((Link.performAll [.reset, .advance 5, .call .direct .left .now]).run
      (.idle {} (UInt64.ofNat Time.latest))).value =
      [.done, .done, .reply (.time (UInt64.ofNat Time.latest))] := by
  decide +kernel

end OpenRun

end BlockLink
