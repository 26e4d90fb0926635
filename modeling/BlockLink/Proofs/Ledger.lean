import BlockLink.Proofs.Call
import BlockLink.Proofs.Lane

/-!
The history of a lane, as the log tells it.

A ledger collects what the log reports about one lane since the last reset: the
messages that were closed, the blocks that were read, and the boundaries that
were signalled and confirmed. `Ledger.Agrees` is the invariant between a ledger
and its lane. The blocks of the messages, with a mark on the last one of each
closed message, are those that were read, then those that have arrived, then
those that wait; and whenever the receiver holds back further blocks, it has
taken in exactly a number of whole messages. Ledgers are alike if at most the
deliveries make a difference between them.
-/

namespace BlockLink

abbrev Frame := Block × Bool

namespace Frame

def markLast : List Frame → List Frame
  | [] => []
  | [frame] => [(frame.1, true)]
  | frame :: next :: rest => frame :: markLast (next :: rest)

def ofOpen (blocks : List Block) : List Frame := blocks.map (·, false)

def ofClosed (blocks : List Block) : List Frame := markLast (ofOpen blocks)

def ofEntries (entries : List Entry) : List Frame :=
  entries.map fun entry => (entry.block, entry.final)

/-- How many frames have passed at each message end, when `start` have passed before. -/
def endsFrom (start : Nat) : List Frame → List Nat
  | [] => []
  | (_, true) :: rest => (start + 1) :: endsFrom (start + 1) rest
  | (_, false) :: rest => endsFrom (start + 1) rest

theorem markLast_append (front : List Frame) {back : List Frame} (nonempty : back ≠ []) :
    markLast (front ++ back) = front ++ markLast back := by
  induction front with
  | nil => rfl
  | cons frame front inductionHypothesis =>
    cases shape : front ++ back with
    | nil => simp [nonempty] at shape
    | cons next rest =>
      rw [shape] at inductionHypothesis
      simp only [List.cons_append, shape, markLast, inductionHypothesis]

@[simp]
theorem map_fst_markLast (frames : List Frame) :
    (markLast frames).map Prod.fst = frames.map Prod.fst := by
  fun_induction markLast frames with
  | case1 => rfl
  | case2 => rfl
  | case3 frame next rest inductionHypothesis => simp [inductionHypothesis]

@[simp]
theorem length_markLast (frames : List Frame) : (markLast frames).length = frames.length := by
  rw [← List.length_map Prod.fst, map_fst_markLast, List.length_map]

theorem markLast_concat (front : List Frame) (frame : Frame) :
    markLast (front ++ [frame]) = front ++ [(frame.1, true)] :=
  markLast_append front (by simp)

@[simp]
theorem map_fst_ofOpen (blocks : List Block) : (ofOpen blocks).map Prod.fst = blocks := by
  simp [ofOpen, Function.comp_def]

@[simp]
theorem map_fst_ofClosed (blocks : List Block) : (ofClosed blocks).map Prod.fst = blocks := by
  simp [ofClosed]

@[simp]
theorem map_fst_ofEntries (entries : List Entry) :
    (ofEntries entries).map Prod.fst = entries.map Entry.block := by
  simp [ofEntries]

@[simp]
theorem length_ofEntries (entries : List Entry) : (ofEntries entries).length = entries.length := by
  simp [ofEntries]

@[simp]
theorem ofEntries_append (first second : List Entry) :
    ofEntries (first ++ second) = ofEntries first ++ ofEntries second := by
  simp [ofEntries]

theorem ofEntries_markLast (entries : List Entry) :
    ofEntries (Fifo.markLast entries) = markLast (ofEntries entries) := by
  fun_induction Fifo.markLast entries with
  | case1 => rfl
  | case2 => rfl
  | case3 entry next rest inductionHypothesis =>
    simp only [ofEntries, List.map_cons, markLast] at inductionHypothesis ⊢
    rw [inductionHypothesis]

theorem mem_dropLast_markLast {entry : Entry} {entries : List Entry}
    (member : entry ∈ (Fifo.markLast entries).dropLast) : entry ∈ entries := by
  fun_induction Fifo.markLast entries with
  | case1 => simp at member
  | case2 => simp at member
  | case3 first next rest inductionHypothesis =>
    have nonempty : Fifo.markLast (next :: rest) ≠ [] := by
      intro isEmpty
      simpa [isEmpty] using Fifo.length_markLast (next :: rest)
    rw [List.dropLast_cons_of_ne_nil nonempty] at member
    rcases List.mem_cons.mp member with rfl | later
    · simp
    · exact List.mem_cons_of_mem _ (inductionHypothesis later)

section Ends

variable (start : Nat)

theorem endsFrom_append (front back : List Frame) :
    endsFrom start (front ++ back) =
      endsFrom start front ++ endsFrom (start + front.length) back := by
  induction front generalizing start with
  | nil => rfl
  | cons frame front inductionHypothesis =>
    rcases frame with ⟨block, final⟩
    have shift : start + (front.length + 1) = start + 1 + front.length := by omega
    cases final <;>
      simp only [List.cons_append, endsFrom, List.length_cons, inductionHypothesis, shift]

theorem bounds_of_mem_endsFrom {frames : List Frame} {position : Nat}
    (member : position ∈ endsFrom start frames) :
    start < position ∧ position ≤ start + frames.length := by
  induction frames generalizing start with
  | nil => simp [endsFrom] at member
  | cons frame frames inductionHypothesis =>
    rcases frame with ⟨block, final⟩
    cases final with
    | false =>
      have inner := inductionHypothesis _ member
      simp only [List.length_cons]
      omega
    | true =>
      simp only [List.length_cons]
      rcases List.mem_cons.mp member with rfl | later
      · omega
      · have inner := inductionHypothesis _ later
        omega

theorem endsFrom_eq_nil {frames : List Frame} (plain : ∀ frame ∈ frames, frame.2 = false) :
    endsFrom start frames = [] := by
  induction frames generalizing start with
  | nil => rfl
  | cons frame frames inductionHypothesis =>
    rcases frame with ⟨block, final⟩
    have notFinal : final = false := plain (block, final) (by simp)
    subst notFinal
    exact inductionHypothesis _ fun later member => plain later (by simp [member])

theorem length_endsFrom (frames : List Frame) :
    (endsFrom start frames).length = frames.countP Prod.snd := by
  induction frames generalizing start with
  | nil => rfl
  | cons frame frames inductionHypothesis =>
    rcases frame with ⟨block, final⟩
    cases final <;> simp [endsFrom, inductionHypothesis]

theorem endsFrom_ofOpen (blocks : List Block) : endsFrom start (ofOpen blocks) = [] :=
  endsFrom_eq_nil start (by simp [ofOpen])

theorem endsFrom_ofClosed {message : List Block} (nonempty : message ≠ []) :
    endsFrom start (ofClosed message) = [start + message.length] := by
  have lengths : message.dropLast.length + 1 = message.length := by
    have positive := List.length_pos_iff.mpr nonempty
    rw [List.length_dropLast]
    omega
  have shape : ofClosed message =
      ofOpen message.dropLast ++ [(message.getLast nonempty, true)] := by
    rw [ofClosed, ← markLast_concat (ofOpen message.dropLast) (message.getLast nonempty, false)]
    conv => lhs; rw [← List.dropLast_concat_getLast nonempty]
    simp [ofOpen]
  have count : (ofOpen message.dropLast).length = message.dropLast.length := by simp [ofOpen]
  rw [shape, endsFrom_append, endsFrom_ofOpen, count, ← lengths]
  simp [endsFrom, Nat.add_assoc]

end Ends

end Frame

/-- What the log tells about the lane from a side to its peer since the last reset. -/
@[ext]
structure Ledger where
  /-- The messages that were closed and hold a block. -/
  closed : List (List Block) := []
  /-- The blocks loaded since the last message was closed. -/
  current : List Block := []
  /-- The number of blocks that have entered the receive FIFO. -/
  crossed : Nat := 0
  read : List Block := []
  /-- The boundaries that have become pending at the receiver, each given by the number of
  blocks that had entered by then. -/
  signalled : List Nat := []
  /-- The boundaries that had become pending when the receiver last confirmed one. -/
  acknowledged : List Nat := []
  /-- The number of confirmations that found a boundary pending. -/
  confirmed : Nat := 0

namespace Ledger

def loaded (ledger : Ledger) : List Block := ledger.closed.flatten ++ ledger.current

/-- The accepted blocks, with a mark on the last one of each closed message. -/
def stream (ledger : Ledger) : List Frame :=
  ledger.closed.flatMap Frame.ofClosed ++ Frame.ofOpen ledger.current

/-- The open message is over. One without blocks leaves no trace. -/
def close (ledger : Ledger) : Ledger :=
  if ledger.current = [] then ledger
  else { ledger with closed := ledger.closed ++ [ledger.current], current := [] }

@[simp]
theorem close_signalled (ledger : Ledger) : ledger.close.signalled = ledger.signalled := by
  unfold close
  split <;> rfl

@[simp]
theorem close_crossed (ledger : Ledger) : ledger.close.crossed = ledger.crossed := by
  unfold close
  split <;> rfl

@[simp]
theorem close_acknowledged (ledger : Ledger) :
    ledger.close.acknowledged = ledger.acknowledged := by
  unfold close
  split <;> rfl

@[simp]
theorem close_read (ledger : Ledger) : ledger.close.read = ledger.read := by
  unfold close
  split <;> rfl

@[simp]
theorem close_confirmed (ledger : Ledger) : ledger.close.confirmed = ledger.confirmed := by
  unfold close
  split <;> rfl

theorem closed_prefix_close (ledger : Ledger) : ledger.closed <+: ledger.close.closed := by
  unfold close
  split
  · exact List.prefix_rfl
  · exact List.prefix_append _ _

theorem close_of_empty {ledger : Ledger} (isEmpty : ledger.current = []) :
    ledger.close = ledger :=
  if_pos isEmpty

theorem close_of_nonempty {ledger : Ledger} (hasBlocks : ledger.current ≠ []) :
    ledger.close = { ledger with closed := ledger.closed ++ [ledger.current], current := [] } :=
  if_neg hasBlocks

def note (sender : Side) (ledger : Ledger) : Event → Ledger
  | .station side .messageClosed => if side = sender then ledger.close else ledger
  | .station side .finalArrived | .station side (.boundaryMarked _) =>
    if side = sender.peer then { ledger with signalled := ledger.signalled ++ [ledger.crossed] }
    else ledger
  | .station side .boundaryConfirmed =>
    if side = sender.peer then
      { ledger with acknowledged := ledger.signalled, confirmed := ledger.confirmed + 1 }
    else ledger
  | .loaded side block =>
    if side = sender then { ledger with current := ledger.current ++ [block] } else ledger
  | .crossed side _ =>
    if side = sender then { ledger with crossed := ledger.crossed + 1 } else ledger
  | .read side block =>
    if side = sender.peer then { ledger with read := ledger.read ++ [block] } else ledger
  | .linkReset => {}
  | .station _ .messageOpened | .reported .. | .waitTimedOut .. | .watermarkIgnored ..
  | .blockDropped .. | .windowUnreadable .. | .interruptRead .. | .writeOnlyRead ..
  | .unknownRead .. | .interruptWrite .. | .readOnlyWrite .. | .unknownWrite .. => ledger

def noteAll (sender : Side) (ledger : Ledger) (log : List Event) : Ledger :=
  log.foldl (note sender) ledger

/-- The ledger of a log that begins with a new link. -/
def ofLog (sender : Side) (log : List Event) : Ledger := noteAll sender {} log

@[simp]
theorem noteAll_nil (sender : Side) (ledger : Ledger) : ledger.noteAll sender [] = ledger := rfl

@[simp]
theorem noteAll_cons (sender : Side) (ledger : Ledger) (event : Event) (log : List Event) :
    ledger.noteAll sender (event :: log) = (ledger.note sender event).noteAll sender log := rfl

theorem noteAll_append (sender : Side) (ledger : Ledger) (before after : List Event) :
    ledger.noteAll sender (before ++ after) = (ledger.noteAll sender before).noteAll sender after :=
  List.foldl_append

theorem note_elsewhere {sender : Side} (ledger : Ledger) {event : Event}
    (foreign : ¬ event.Concerns sender) : ledger.note sender event = ledger := by
  cases event with
  | station side event =>
    cases event <;> first | rfl | exact if_neg foreign
  | loaded | crossed | read => exact if_neg foreign
  | linkReset => exact absurd trivial foreign
  | reported | waitTimedOut | watermarkIgnored | blockDropped | windowUnreadable | interruptRead
  | writeOnlyRead | unknownRead | interruptWrite | readOnlyWrite | unknownWrite => rfl

theorem map_fst_stream (ledger : Ledger) : ledger.stream.map Prod.fst = ledger.loaded := by
  simp only [stream, loaded, List.map_append, List.map_flatMap, Frame.map_fst_ofClosed,
    Frame.map_fst_ofOpen]
  rw [← List.flatMap_id]
  rfl

/-- The newest block of an open message carries no mark. -/
theorem exists_stream_eq {ledger : Ledger} (hasBlocks : ledger.current ≠ []) :
    ∃ front block, ledger.stream = front ++ [(block, false)] := by
  refine ⟨ledger.closed.flatMap Frame.ofClosed ++ Frame.ofOpen ledger.current.dropLast,
    ledger.current.getLast hasBlocks, ?_⟩
  rw [stream, List.append_assoc]
  congr 1
  conv => lhs; rw [← List.dropLast_concat_getLast hasBlocks]
  simp [Frame.ofOpen]

theorem stream_close {ledger : Ledger} (nonempty : ledger.current ≠ []) :
    ledger.close.stream = Frame.markLast ledger.stream := by
  have openFrames : Frame.ofOpen ledger.current ≠ [] := by simpa [Frame.ofOpen] using nonempty
  rw [stream, stream, Frame.markLast_append _ openFrames]
  simp [close, nonempty, Frame.ofOpen, Frame.ofClosed]

end Ledger

/-- Two ledgers that may differ in what they tell of deliveries, but in nothing else that was
done on either side. -/
structure Ledger.Alike (first second : Ledger) : Prop where
  closed : first.closed = second.closed
  current : first.current = second.current
  read : first.read = second.read
  confirmed : first.confirmed = second.confirmed

namespace Ledger.Alike

variable {sender : Side} {first second third : Ledger}

theorem refl (ledger : Ledger) : ledger.Alike ledger := ⟨rfl, rfl, rfl, rfl⟩

theorem trans (left : first.Alike second) (right : second.Alike third) : first.Alike third where
  closed := left.closed.trans right.closed
  current := left.current.trans right.current
  read := left.read.trans right.read
  confirmed := left.confirmed.trans right.confirmed

theorem loaded (alike : first.Alike second) : first.loaded = second.loaded := by
  rw [Ledger.loaded, alike.closed, alike.current, Ledger.loaded]

theorem close (alike : first.Alike second) : first.close.Alike second.close := by
  unfold Ledger.close
  rw [alike.current]
  split
  · exact alike
  · exact ⟨by simp [alike.closed], rfl, alike.read, alike.confirmed⟩

theorem note (alike : first.Alike second) (event : Event) :
    (first.note sender event).Alike (second.note sender event) := by
  obtain ⟨closed, current, read, confirmed⟩ := alike
  cases event with
  | linkReset => exact refl _
  | station side change =>
    cases change with
    | messageOpened => exact ⟨closed, current, read, confirmed⟩
    | messageClosed =>
      by_cases own : side = sender
      · simpa [Ledger.note, own] using close ⟨closed, current, read, confirmed⟩
      · simpa [Ledger.note, own] using ⟨closed, current, read, confirmed⟩
    | boundaryMarked | finalArrived | boundaryConfirmed =>
      by_cases own : side = sender.peer <;> constructor <;> simp [Ledger.note, *]
  | loaded side block | crossed side block =>
    by_cases own : side = sender <;> constructor <;> simp [Ledger.note, *]
  | read side block =>
    by_cases own : side = sender.peer <;> constructor <;> simp [Ledger.note, *]
  | reported | waitTimedOut | watermarkIgnored | blockDropped | windowUnreadable | interruptRead
  | writeOnlyRead | unknownRead | interruptWrite | readOnlyWrite | unknownWrite =>
    exact ⟨closed, current, read, confirmed⟩

theorem noteAll (alike : first.Alike second) (events : List Event) :
    (first.noteAll sender events).Alike (second.noteAll sender events) := by
  induction events generalizing first second with
  | nil => exact alike
  | cons event events inductionHypothesis => exact inductionHypothesis (alike.note event)

theorem of_delivery (ledger : Ledger) {event : Event} (delivery : event.IsDelivery) :
    (ledger.note sender event).Alike ledger := by
  cases event with
  | crossed side block =>
    by_cases own : side = sender <;> constructor <;> simp [Ledger.note, own]
  | station side change =>
    cases change with
    | finalArrived =>
      by_cases own : side = sender.peer <;> constructor <;> simp [Ledger.note, own]
    | messageOpened | messageClosed | boundaryMarked | boundaryConfirmed => exact absurd delivery id
  | loaded | read | linkReset | reported | waitTimedOut | watermarkIgnored | blockDropped
  | windowUnreadable | interruptRead | writeOnlyRead | unknownRead | interruptWrite | readOnlyWrite
  | unknownWrite => exact absurd delivery id

theorem of_deliveries (ledger : Ledger) {events : List Event}
    (deliveries : ∀ event ∈ events, event.IsDelivery) :
    (ledger.noteAll sender events).Alike ledger := by
  induction events with
  | nil => exact refl ledger
  | cons event events inductionHypothesis =>
    have first : (ledger.note sender event).Alike ledger :=
      of_delivery ledger (deliveries event (by simp))
    have rest := inductionHypothesis fun later member => deliveries later (by simp [member])
    exact (first.noteAll events).trans rest

theorem of_amid (ledger : Ledger) {core events : List Event} (amid : Event.Amid core events) :
    (ledger.noteAll sender events).Alike (ledger.noteAll sender core) := by
  obtain ⟨before, after, rfl, deliversBefore, deliversAfter⟩ := amid
  rw [noteAll_append, noteAll_append]
  exact (of_deliveries _ deliversAfter).trans ((of_deliveries ledger deliversBefore).noteAll core)

theorem of_log (sender : Side) (log : List Event) {core events : List Event}
    (amid : Event.Amid core events) :
    (ofLog sender (log ++ events)).Alike ((ofLog sender log).noteAll sender core) := by
  rw [ofLog, noteAll_append]
  exact of_amid _ amid

end Ledger.Alike

end BlockLink
