import BlockLink.Proofs.Effect
import Mathlib.Order.Bounds.Defs

/-!
How much crosses at once.

A delivery is a loop. In each turn the oldest entry that waits crosses, if it is due and the
receiver takes it, and what the receiver takes in one turn decides about the next one. The loop
ends behind the longest run of due entries that fit, none of them behind the end of a message.
Nothing is assumed of the link, so this holds of any savestate as well.
-/

namespace BlockLink

namespace Station

/-- Whether a boundary keeps a receiver from taking anything. -/
def HoldsBack (receiver : Station) : Prop :=
  receiver.boundaryPending = true ∨ receiver.rx.HoldsFinal

instance (receiver : Station) : Decidable receiver.HoldsBack :=
  inferInstanceAs (Decidable (_ ∨ _))

/-- Whether so many of the entries that wait, the oldest first, may cross at once. -/
structure Admits (now : Time) (waiting : List Entry) (receiver : Station) (count : Nat) :
    Prop where
  available : count ≤ waiting.length
  room : receiver.rx.size + count ≤ Fifo.depth
  due : ∀ entry ∈ waiting.take count, entry.readyAt ≤ now
  /-- Only the last one may end a message. -/
  unended : ∀ entry ∈ waiting.take (count - 1), entry.final = false

/-- Whether a receiver takes so many of the entries that wait, and no more. -/
def Takes (now : Time) (waiting : List Entry) (receiver : Station) (count : Nat) : Prop :=
  if receiver.HoldsBack then count = 0
  else IsGreatest {number | Admits now waiting receiver number} count

section Intake

variable {now : Time} {waiting rest : List Entry} {entry : Entry} {receiver : Station}

theorem canAccept_iff (receiver : Station) :
    receiver.CanAccept ↔ receiver.rx.HasRoom ∧ ¬ receiver.HoldsBack := by
  unfold CanAccept HoldsBack
  rw [not_or, Bool.not_eq_true]

theorem holdsBack_accept (able : receiver.CanAccept) (entry : Entry) :
    (receiver.accept entry able).HoldsBack ↔ entry.final = true := by
  obtain ⟨-, isClear, noFinal⟩ := able
  have final : (∃ held ∈ receiver.rx.entries ++ [entry], held.final = true) ↔
      entry.final = true := by
    constructor
    · rintro ⟨held, member, isFinal⟩
      rcases List.mem_append.mp member with earlier | last
      · exact absurd ⟨held, earlier, isFinal⟩ noFinal
      · exact List.mem_singleton.mp last ▸ isFinal
    · exact fun isFinal => ⟨entry, by simp, isFinal⟩
  have pending : (receiver.boundaryPending || entry.final) = true ↔ entry.final = true := by
    rw [isClear, Bool.false_or]
  exact (or_congr pending final).trans (or_self_iff)

theorem admits_zero (now : Time) (waiting : List Entry) (receiver : Station) :
    Admits now waiting receiver 0 where
  available := Nat.zero_le _
  room := receiver.rx.size_le
  due := by simp
  unended := by simp

/-- One more may cross at once if the first may, and unless it ends its message, the others may
cross behind it. -/
theorem admits_succ_iff (able : receiver.CanAccept) (count : Nat) :
    Admits now (entry :: rest) receiver (count + 1) ↔
      entry.readyAt ≤ now ∧
        (count = 0 ∨ entry.final = false ∧ Admits now rest (receiver.accept entry able) count) := by
  have size : (receiver.accept entry able).rx.size = receiver.rx.size + 1 := by
    simp [accept, Fifo.size]
  have room : receiver.rx.size < Fifo.depth := able.1
  constructor
  · rintro ⟨available, room, due, unended⟩
    rw [List.take_succ_cons, List.forall_mem_cons] at due
    refine ⟨due.1, ?_⟩
    cases count with
    | zero => exact .inl rfl
    | succ count =>
      rw [Nat.add_sub_cancel, List.take_succ_cons, List.forall_mem_cons] at unended
      exact .inr ⟨unended.1, Nat.le_of_succ_le_succ available, by omega, due.2, unended.2⟩
  · rintro ⟨isDue, rfl | ⟨plain, available, room, due, unended⟩⟩
    · exact ⟨by simp, room, by simpa using isDue, by simp⟩
    · refine ⟨Nat.succ_le_succ available, by omega, ?_, ?_⟩
      · rw [List.take_succ_cons, List.forall_mem_cons]
        exact ⟨isDue, due⟩
      · cases count with
        | zero => simp
        | succ count =>
          rw [Nat.add_sub_cancel, List.take_succ_cons, List.forall_mem_cons]
          exact ⟨plain, unended⟩

theorem intake_of_able (able : entry.readyAt ≤ now ∧ receiver.CanAccept) :
    intake now (entry :: rest) receiver =
      ((intake now rest (receiver.accept entry able.2)).1 + 1,
        (intake now rest (receiver.accept entry able.2)).2) := by
  simp only [intake, able, dif_pos, and_self]

theorem intake_of_unable (unable : ¬ (entry.readyAt ≤ now ∧ receiver.CanAccept)) :
    intake now (entry :: rest) receiver = (0, receiver) := by
  simp only [intake, unable, dif_neg, not_false_eq_true]

theorem intake_of_holdsBack (holdsBack : receiver.HoldsBack) :
    intake now waiting receiver = (0, receiver) := by
  cases waiting with
  | nil => rfl
  | cons entry rest =>
    apply intake_of_unable
    rintro ⟨-, able⟩
    exact ((canAccept_iff receiver).mp able).2 holdsBack

section Greatest

/-- Nothing crosses behind the end of a message. -/
theorem isGreatest_of_ending (isDue : entry.readyAt ≤ now) (able : receiver.CanAccept)
    (ending : entry.final = true) :
    IsGreatest {number | Admits now (entry :: rest) receiver number} 1 := by
  refine ⟨(admits_succ_iff able 0).mpr ⟨isDue, .inl rfl⟩, fun number admits => ?_⟩
  cases number with
  | zero => exact Nat.zero_le 1
  | succ number =>
    rcases ((admits_succ_iff able number).mp admits).2 with rfl | ⟨plain, -⟩
    · exact Nat.le_refl 1
    · rw [plain] at ending
      cases ending

theorem isGreatest_of_plain (isDue : entry.readyAt ≤ now) (able : receiver.CanAccept)
    (plain : entry.final = false) {count : Nat}
    (greatest : IsGreatest {number | Admits now rest (receiver.accept entry able) number} count) :
    IsGreatest {number | Admits now (entry :: rest) receiver number} (count + 1) := by
  refine ⟨(admits_succ_iff able count).mpr ⟨isDue, .inr ⟨plain, greatest.1⟩⟩, ?_⟩
  intro number admits
  cases number with
  | zero => exact Nat.zero_le _
  | succ number =>
    rcases ((admits_succ_iff able number).mp admits).2 with rfl | ⟨-, admitsRest⟩
    · exact Nat.succ_le_succ (Nat.zero_le count)
    · exact Nat.succ_le_succ (greatest.2 admitsRest)

theorem isGreatest_of_unable (free : ¬ receiver.HoldsBack)
    (unable : ¬ (entry.readyAt ≤ now ∧ receiver.CanAccept)) :
    IsGreatest {number | Admits now (entry :: rest) receiver number} 0 := by
  refine ⟨admits_zero now _ receiver, fun number admits => ?_⟩
  cases number with
  | zero => exact Nat.le_refl 0
  | succ number =>
    obtain ⟨-, room, due, -⟩ := admits
    have fits : receiver.rx.HasRoom := by
      unfold Fifo.HasRoom
      omega
    have isDue : entry.readyAt ≤ now := due entry (by simp)
    exact absurd ⟨isDue, (canAccept_iff receiver).mpr ⟨fits, free⟩⟩ unable

theorem isGreatest_intake (waiting : List Entry) (free : ¬ receiver.HoldsBack) :
    IsGreatest {number | Admits now waiting receiver number} (intake now waiting receiver).1 := by
  induction waiting generalizing receiver with
  | nil => exact ⟨admits_zero now [] receiver, fun number admits => admits.available⟩
  | cons entry rest inductionHypothesis =>
    by_cases able : entry.readyAt ≤ now ∧ receiver.CanAccept
    · rw [intake_of_able able]
      cases final : entry.final with
      | true =>
        rw [intake_of_holdsBack ((holdsBack_accept able.2 entry).mpr final)]
        exact isGreatest_of_ending able.1 able.2 final
      | false =>
        have freeAfter : ¬ (receiver.accept entry able.2).HoldsBack := by
          rw [holdsBack_accept, final]
          nofun
        exact isGreatest_of_plain able.1 able.2 final (inductionHypothesis freeAfter)
    · rw [intake_of_unable able]
      exact isGreatest_of_unable free able

end Greatest

/-- A receiver takes all that it may take. -/
theorem takes_intake (now : Time) (waiting : List Entry) (receiver : Station) :
    Takes now waiting receiver (intake now waiting receiver).1 := by
  unfold Takes
  split
  next holdsBack => rw [intake_of_holdsBack holdsBack]
  next free => exact isGreatest_intake waiting free

theorem entries_intake (now : Time) (waiting : List Entry) (receiver : Station) :
    (intake now waiting receiver).2.rx.entries =
      receiver.rx.entries ++ waiting.take (intake now waiting receiver).1 := by
  induction waiting generalizing receiver with
  | nil => simp [intake]
  | cons entry rest inductionHypothesis =>
    by_cases able : entry.readyAt ≤ now ∧ receiver.CanAccept
    · rw [intake_of_able able, inductionHypothesis, List.take_succ_cons]
      simp [accept]
    · rw [intake_of_unable able, List.take_zero, List.append_nil]

/-- The boundary of the last entry that a receiver takes is pending. -/
theorem boundaryPending_intake (now : Time) (waiting : List Entry) (receiver : Station) :
    (intake now waiting receiver).2.boundaryPending =
      (receiver.boundaryPending ||
        (waiting.take (intake now waiting receiver).1).getLast?.any Entry.final) := by
  induction waiting generalizing receiver with
  | nil => simp [intake]
  | cons entry rest inductionHypothesis =>
    by_cases able : entry.readyAt ≤ now ∧ receiver.CanAccept
    · have isClear : receiver.boundaryPending = false := able.2.2.1
      have pending : (receiver.accept entry able.2).boundaryPending = entry.final := by
        rw [accept, isClear, Bool.false_or]
      rw [intake_of_able able, inductionHypothesis, pending, isClear, Bool.false_or,
        List.take_succ_cons]
      cases final : entry.final with
      | true =>
        rw [intake_of_holdsBack ((holdsBack_accept able.2 entry).mpr final)]
        simp [final]
      | false =>
        rw [Bool.false_or]
        cases rest.take (intake now rest (receiver.accept entry able.2)).1 with
        | nil => simp [final]
        | cons next others => rw [List.getLast?_cons_cons]
    · rw [intake_of_unable able]
      simp

end Intake

end Station

namespace Link

/-- One turn of a delivery: the oldest entry that waits crosses, if it is due and the receiver
takes it. -/
def cross? (sender : Side) (link : Link) : Option Link :=
  let source := link.station sender
  let target := link.station sender.peer
  match source.tx.oldest? with
  | none => none
  | some entry =>
    if able : entry.readyAt ≤ link.time ∧ target.CanAccept then
      let sent := link.withStation sender { source with tx := source.tx.drop 1 }
      some (sent.withStation sender.peer (target.accept entry able.2))
    else none

/-- Turns of a delivery one after another, up to a link on which there is no further one. -/
inductive Turns (sender : Side) : Link → Nat → Link → Prop where
  | stop {link : Link} : link.cross? sender = none → Turns sender link 0 link
  | turn {link next last : Link} {count : Nat} :
      link.cross? sender = some next → Turns sender next count last →
      Turns sender link (count + 1) last

/-- The number of entries that a delivery takes off the transmit FIFO. -/
def crossed (link : Link) (sender : Side) : Nat :=
  (Station.intake link.time (link.station sender).tx.entries (link.station sender.peer)).1

section Loop

variable {link next last : Link} {sender : Side} {count : Nat}

theorem cross?_of_unable {entry : Entry} {rest : List Entry}
    (shape : (link.station sender).tx.entries = entry :: rest)
    (unable : ¬ (entry.readyAt ≤ link.time ∧ (link.station sender.peer).CanAccept)) :
    link.cross? sender = none := by
  simp only [cross?, Fifo.oldest?, shape, List.head?_cons, unable, dif_neg, not_false_eq_true]

theorem cross?_of_able {entry : Entry} {rest : List Entry}
    (shape : (link.station sender).tx.entries = entry :: rest)
    (able : entry.readyAt ≤ link.time ∧ (link.station sender.peer).CanAccept) :
    link.cross? sender =
      some ((link.withStation sender
          { link.station sender with tx := (link.station sender).tx.drop 1 }).withStation
        sender.peer ((link.station sender.peer).accept entry able.2)) := by
  simp only [cross?, Fifo.oldest?, shape, List.head?_cons, able, dif_pos, and_self]

theorem deliver_of_stop (stops : link.cross? sender = none) :
    link.crossed sender = 0 ∧ ((deliver sender).run link).state = link := by
  have nothing : Station.intake link.time (link.station sender).tx.entries
      (link.station sender.peer) = (0, link.station sender.peer) := by
    cases shape : (link.station sender).tx.entries with
    | nil => rfl
    | cons entry rest =>
      apply Station.intake_of_unable
      intro able
      rw [cross?_of_able shape able] at stops
      cases stops
  refine ⟨congrArg Prod.fst nothing, ?_⟩
  rw [run_deliver, nothing]
  cases sender <;> rfl

/-- What the first turn leaves is delivered as if it had not taken place. -/
theorem deliver_of_turn (turn : link.cross? sender = some next) :
    link.crossed sender = next.crossed sender + 1 ∧
      ((deliver sender).run link).state = ((deliver sender).run next).state := by
  cases shape : (link.station sender).tx.entries with
  | nil => simp [cross?, Fifo.oldest?, shape] at turn
  | cons entry rest =>
    by_cases able : entry.readyAt ≤ link.time ∧ (link.station sender.peer).CanAccept
    · rw [cross?_of_able shape able] at turn
      obtain rfl := Option.some.inj turn
      have left : ((link.station sender).tx.drop 1).entries = rest := by
        rw [Fifo.entries_drop, shape]
        rfl
      have dropped (more : Nat) : ((link.station sender).tx.drop 1).drop more =
          (link.station sender).tx.drop (more + 1) := by
        apply Fifo.ext
        rw [Fifo.entries_drop, Fifo.entries_drop, Fifo.entries_drop, List.drop_drop, Nat.add_comm]
      constructor
      · rw [crossed, shape, Station.intake_of_able able, crossed, station_withStation_of_peer,
          station_withStation_self, station_withStation_self, left]
        rfl
      · rw [run_deliver, run_deliver, shape, Station.intake_of_able able,
          station_withStation_of_peer, station_withStation_self, station_withStation_self, left]
        dsimp only
        rw [dropped]
        cases sender <;> rfl
    · rw [cross?_of_unable shape able] at turn
      cases turn

/-- A delivery takes a turn for each entry that crosses, and there is no turn behind the last. -/
theorem turns_deliver (link : Link) (sender : Side) :
    Turns sender link (link.crossed sender) ((deliver sender).run link).state := by
  induction number : link.crossed sender generalizing link with
  | zero =>
    cases turn : link.cross? sender with
    | none =>
      rw [(deliver_of_stop turn).2]
      exact .stop turn
    | some next =>
      have more := (deliver_of_turn turn).1
      omega
  | succ count inductionHypothesis =>
    cases turn : link.cross? sender with
    | none =>
      have none := (deliver_of_stop turn).1
      omega
    | some next =>
      obtain ⟨more, same⟩ := deliver_of_turn turn
      rw [same]
      exact .turn turn (inductionHypothesis next (by omega))

theorem turns_iff :
    Turns sender link count last ↔
      count = link.crossed sender ∧ last = ((deliver sender).run link).state := by
  constructor
  · intro turns
    induction turns with
    | stop stops =>
      obtain ⟨none, same⟩ := deliver_of_stop stops
      exact ⟨none.symm, same.symm⟩
    | turn turn _ inductionHypothesis =>
      obtain ⟨more, same⟩ := deliver_of_turn turn
      obtain ⟨rfl, rfl⟩ := inductionHypothesis
      exact ⟨more.symm, same.symm⟩
  · rintro ⟨rfl, rfl⟩
    exact turns_deliver link sender

end Loop

/-- What a link is when the oldest entries of a side, so many of them, have crossed and nothing
else has changed. -/
structure MovesOldest (link : Link) (sender : Side) (count : Nat) (last : Link) : Prop where
  source : last.station sender =
    { link.station sender with tx := (link.station sender).tx.drop count }
  arrived : (last.station sender.peer).rx.entries =
    (link.station sender.peer).rx.entries ++ (link.station sender).tx.entries.take count
  target : last.station sender.peer =
    { link.station sender.peer with
      rx := (last.station sender.peer).rx
      boundaryPending := (link.station sender.peer).boundaryPending ||
        ((link.station sender).tx.entries.take count).getLast?.any Entry.final }
  staged : last.staged = link.staged
  time : last.time = link.time
  config : last.config = link.config

theorem movesOldest_deliver (link : Link) (sender : Side) :
    link.MovesOldest sender (link.crossed sender) ((deliver sender).run link).state := by
  have kept := Station.intake_kept link.time (link.station sender).tx.entries
    (link.station sender.peer)
  have pending := Station.boundaryPending_intake link.time (link.station sender).tx.entries
    (link.station sender.peer)
  rw [pending] at kept
  rw [run_deliver]
  refine ⟨?_, ?_, ?_, rfl, rfl, rfl⟩
  · rw [station_withStation_of_peer, station_withStation_self]
    rfl
  · rw [station_withStation_self]
    exact Station.entries_intake ..
  · rw [station_withStation_self]
    exact kept

theorem deliver_comm (link : Link) (sender : Side) :
    ((deliver sender.peer).run ((deliver sender).run link).state).state =
      ((deliver sender).run ((deliver sender.peer).run link).state).state := by
  have aside (first second : Side) := (aside_law.deliver first link).trans
    (aside_law.deliver second _)
  have lanes (first other : Side) :
      ((deliver first.peer).run ((deliver first).run link).state).state.lane other =
        (link.lane other).flow link.time := by
    rcases Side.self_or_peer first other with rfl | rfl
    · have untouched := lane_deliver_peer ((deliver other).run link).state other.peer
      rw [Side.peer_peer] at untouched
      exact untouched.trans (lane_deliver_self link other)
    · exact (lane_deliver_self _ first.peer).trans
        (congrArg (Lane.flow link.time) (lane_deliver_peer link first))
  apply eq_of_lanes
  · exact (aside sender.peer sender).symm.trans (aside sender sender.peer)
  · intro other
    have swapped := lanes sender.peer other
    rw [Side.peer_peer] at swapped
    rw [lanes sender other, swapped]
  · rfl

/-- A second delivery at the same time finds nothing to do. -/
theorem settle_settle (link : Link) :
    (settle.run (settle.run link).state).state = (settle.run link).state := by
  apply eq_of_lanes (aside_law.settle _)
  · intro sender
    rw [lane_settle, lane_settle, time_settle, Lane.flow_flow (UInt64.le_refl _)]
  · rw [time_settle]

/-- Whatever the state of a link, a delivery comes to its end after a turn for each entry that
crosses. These are the oldest that wait, and as many as may cross at once; they keep their order
and their marks, and nothing but the boundary of the last one changes besides. The two directions
do not get in each other's way, and what is delivered once is delivered for good. -/
theorem delivers_longest_run (link : Link) :
    (∀ sender, ∃ count,
      Station.Takes link.time (link.station sender).tx.entries (link.station sender.peer) count ∧
      (∀ turns last, Turns sender link turns last ↔
        turns = count ∧ last = ((deliver sender).run link).state) ∧
      link.MovesOldest sender count ((deliver sender).run link).state) ∧
    (∀ sender,
      ((deliver sender.peer).run ((deliver sender).run link).state).state =
        (settle.run link).state) ∧
    (settle.run (settle.run link).state).state = (settle.run link).state := by
  refine ⟨fun sender => ?_, fun sender => ?_, settle_settle link⟩
  · exact ⟨link.crossed sender, Station.takes_intake .., fun _ _ => turns_iff,
      movesOldest_deliver link sender⟩
  · cases sender with
    | left => rfl
    | right => exact deliver_comm link .right

end Link

end BlockLink
