import BlockLink.Proofs.Boundary

/-!
A receiver that splits what it reads into messages.

The end of a message shows in one of two ways. Either a read is blocked, and then
the next block is the final one, or a boundary is pending while nothing is left to
read, and then the final block was read already. `Receiver.Tracks` is the
invariant between what the receiver has collected and the history of its lane.
The number of messages that it has ended is the number of boundaries that it has
confirmed, but for the one at hand.
-/

namespace BlockLink

inductive Turn where
  | look
  | take
  | confirm
  /-- Nothing, as a call was answered in a way that it has no use for. -/
  | failed
deriving DecidableEq

structure Receiver where
  turn : Turn := .look
  messages : List (List Block) := []
  current : List Block := []
  /-- Whether a read was blocked since the last block was read. -/
  boundary : Bool := false

namespace Receiver

def command? (receiver : Receiver) : Option Command :=
  match receiver.turn with
  | .look => some .status
  | .take => some .read
  | .confirm => some .confirm
  | .failed => none

/-- The current message is complete. -/
def endMessage (receiver : Receiver) : Receiver :=
  { receiver with messages := receiver.messages ++ [receiver.current], current := [] }

/-- Act on the answer to a call. -/
def hear (receiver : Receiver) (answer : Except Fault Reply) : Receiver :=
  match receiver.turn, answer with
  | .look, .ok (.status status) =>
    if status.rxLast && !status.rxValid then { receiver.endMessage with turn := .confirm }
    else { receiver with turn := .take }
  | .take, .ok (.block block) =>
    let grown := { receiver with turn := .look, current := receiver.current ++ [block] }
    if receiver.boundary then { grown.endMessage with boundary := false } else grown
  | .take, .ok (.refused .blocked) => { receiver with turn := .confirm, boundary := true }
  | .take, .ok (.refused .unavailable) => { receiver with turn := .look }
  | .confirm, .ok .done => { receiver with turn := .look }
  | _, _ => { receiver with turn := .failed }

end Receiver

/-- What a receiver has collected, as the history of its lane tells it. -/
structure Receiver.Tracks (receiver : Receiver) (ledger : Ledger) (isPending : Bool) : Prop where
  within : receiver.messages <+: ledger.closed
  taken : receiver.messages.flatten ++ receiver.current = ledger.read
  counted : receiver.messages.length + receiver.boundary.toNat =
    ledger.confirmed + if receiver.turn = .confirm then 1 else 0
  announced : receiver.boundary = true →
    ∃ block, receiver.messages ++ [receiver.current ++ [block]] <+: ledger.closed
  held : receiver.turn = .confirm → isPending = true
  going : receiver.turn ≠ .failed

namespace Receiver.Tracks

variable {receiver : Receiver} {ledger : Ledger} {isPending : Bool}

theorem start : Receiver.Tracks {} {} isPending where
  within := List.nil_prefix
  taken := rfl
  counted := rfl
  announced := nofun
  held := nofun
  going := nofun

/-- What the sender adds, and what is delivered, leaves the receiver where it is. -/
theorem later (tracks : receiver.Tracks ledger isPending) {after : Ledger} {stillPending : Bool}
    (closed : ledger.closed <+: after.closed) (read : after.read = ledger.read)
    (confirmed : after.confirmed = ledger.confirmed)
    (held : isPending = true → stillPending = true) :
    receiver.Tracks after stillPending where
  within := tracks.within.trans closed
  taken := tracks.taken.trans read.symm
  counted := by
    rw [confirmed]
    exact tracks.counted
  announced boundary := by
    obtain ⟨block, within⟩ := tracks.announced boundary
    exact ⟨block, within.trans closed⟩
  held turn := held (tracks.held turn)
  going := tracks.going

theorem alike (tracks : receiver.Tracks ledger isPending) {after : Ledger} {stillPending : Bool}
    (alike : after.Alike ledger) (held : isPending = true → stillPending = true) :
    receiver.Tracks after stillPending := by
  apply tracks.later
  · exact alike.closed ▸ List.prefix_rfl
  · exact alike.read
  · exact alike.confirmed
  · exact held

section Present

variable {lane : Lane} {passed : List Frame}

theorem taken_prefix (tracks : receiver.Tracks ledger isPending)
    (agrees : ledger.Agrees lane passed) :
    receiver.messages.flatten ++ receiver.current <+: ledger.loaded := by
  rw [tracks.taken]
  exact agrees.read_prefix

/-- The current message is the beginning of the message behind those that were ended. -/
theorem next_message (tracks : receiver.Tracks ledger isPending)
    (agrees : ledger.Agrees lane passed) :
    ∃ next rest, ledger.closed ++ [ledger.current] = receiver.messages ++ next :: rest ∧
      receiver.current <+: next := by
  obtain ⟨ahead, split⟩ := tracks.within
  have begun := tracks.taken_prefix agrees
  rw [Ledger.loaded, ← split, List.flatten_append, List.append_assoc,
    List.prefix_append_right_inj] at begun
  cases ahead with
  | nil => exact ⟨ledger.current, [], by simp [← split], by simpa using begun⟩
  | cons next rest =>
    refine ⟨next, rest ++ [ledger.current], by simp [← split], ?_⟩
    rw [List.flatten_cons, List.append_assoc] at begun
    apply List.prefix_of_prefix_length_le begun (List.prefix_append _ _)
    -- Past the end of this message, its boundary would be confirmed and the message ended.
    apply Nat.le_of_not_lt
    intro overtaken
    have closed : receiver.messages ++ [next] <+: ledger.closed := by
      rw [← split]
      simp
    have lengths := congrArg List.length tracks.taken
    have confirmed : (receiver.messages ++ [next]).length ≤ ledger.confirmed := by
      apply agrees.length_le_confirmed closed
      rw [agrees.crossed_eq, ← lengths]
      simp
      omega
    have counted := tracks.counted
    have isAnnounced : receiver.boundary = true := by
      cases boundary : receiver.boundary with
      | true => rfl
      | false =>
        cases receiver.turn <;> simp [boundary] at counted confirmed <;> omega
    obtain ⟨block, announced⟩ := tracks.announced isAnnounced
    rw [← split, List.prefix_append_right_inj] at announced
    obtain ⟨more, shape⟩ := announced
    obtain rfl := (List.cons.inj shape).1
    rw [List.length_append] at overtaken
    omega

/-- A pending boundary ends the current message, together with what has arrived. -/
theorem pending_message (tracks : receiver.Tracks ledger isPending)
    (agrees : ledger.Agrees lane passed) (boundaryPending : lane.isPending = true)
    (unheld : receiver.turn ≠ .confirm) (few : lane.arrived.length ≤ 1) :
    receiver.boundary = false ∧
      ∃ rest, receiver.messages ++ [receiver.current ++ rest] <+: ledger.closed ∧
        rest.length = lane.arrived.length := by
  obtain ⟨earlier, within, reached⟩ := agrees.exists_pending boundaryPending
  have count := agrees.length_of_pending boundaryPending within reached
  have crossed := agrees.crossed_eq
  have lengths := congrArg List.length tracks.taken
  have counted := tracks.counted
  rw [List.length_append] at lengths
  rw [if_neg unheld] at counted
  have unannounced : receiver.boundary = false := by
    apply Bool.eq_false_iff.mpr
    intro boundary
    rw [boundary, Bool.toNat_true] at counted
    obtain ⟨block, announced⟩ := tracks.announced boundary
    have shorter :
        (receiver.messages ++ [receiver.current ++ [block]]).length ≤ earlier.length := by
      rw [List.length_append, List.length_singleton]
      omega
    obtain ⟨more, rfl⟩ := List.prefix_of_prefix_length_le announced within shorter
    obtain ⟨last, rfl⟩ : ∃ last, more = [last] := by
      apply List.length_eq_one_iff.mp
      simp at count
      omega
    have nonempty : last ≠ [] := agrees.nonempty last (within.subset (by simp))
    have positive := List.length_pos_iff.mpr nonempty
    simp only [List.flatten_append, List.flatten_singleton, List.length_append,
      List.length_singleton] at reached
    omega
  refine ⟨unannounced, ?_⟩
  rw [unannounced, Bool.toNat_false] at counted
  obtain ⟨more, rfl⟩ := List.prefix_of_prefix_length_le tracks.within within (by omega)
  obtain ⟨last, rfl⟩ : ∃ last, more = [last] := by
    apply List.length_eq_one_iff.mp
    rw [List.length_append] at count
    omega
  have ended := Ledger.flatten_prefix_loaded within
  rw [List.flatten_append, List.flatten_singleton] at ended reached
  rw [List.length_append] at reached
  have inside := List.prefix_of_prefix_length_le (tracks.taken_prefix agrees) ended (by
    rw [List.length_append, List.length_append]
    omega)
  rw [List.prefix_append_right_inj] at inside
  obtain ⟨rest, rfl⟩ := inside
  refine ⟨rest, within, ?_⟩
  rw [List.length_append] at reached
  omega

theorem look (tracks : receiver.Tracks ledger lane.isPending)
    (agrees : ledger.Agrees lane passed) (turn : receiver.turn = .look) {status : Status}
    (last : status.rxLast = lane.isPending) (valid : status.rxValid = true ↔ lane.arrived ≠ []) :
    (receiver.hear (.ok (.status status))).Tracks ledger lane.isPending := by
  have unheld : receiver.turn ≠ .confirm := by simp [turn]
  have counted := tracks.counted
  rw [if_neg unheld] at counted
  simp only [hear, turn]
  cases ends : status.rxLast && !status.rxValid with
  | false =>
    exact { tracks with
      counted := by simpa using counted
      held := nofun
      going := nofun }
  | true =>
    obtain ⟨isLast, isEmpty⟩ : status.rxLast = true ∧ status.rxValid = false := by
      simpa using ends
    have nothing : lane.arrived = [] := by
      by_cases nothing : lane.arrived = []
      · exact nothing
      · simp [valid.mpr nothing] at isEmpty
    have boundaryPending : lane.isPending = true := last ▸ isLast
    obtain ⟨unannounced, rest, within, count⟩ :=
      tracks.pending_message agrees boundaryPending unheld (by simp [nothing])
    obtain rfl : rest = [] := by simpa [nothing] using count
    rw [List.append_nil] at within
    exact {
      within := within
      taken := by simpa [endMessage] using tracks.taken
      counted := by simpa [endMessage, unannounced] using counted
      announced := by simp [endMessage, unannounced]
      held := fun _ => boundaryPending
      going := nofun }

theorem blocked (tracks : receiver.Tracks ledger lane.isPending)
    (agrees : ledger.Agrees lane passed) (turn : receiver.turn = .take)
    (boundaryPending : lane.isPending = true) (single : lane.arrived.length = 1) :
    (receiver.hear (.ok (.refused .blocked))).Tracks ledger lane.isPending := by
  have unheld : receiver.turn ≠ .confirm := by simp [turn]
  have counted := tracks.counted
  obtain ⟨unannounced, rest, within, count⟩ :=
    tracks.pending_message agrees boundaryPending unheld (by omega)
  obtain ⟨block, rfl⟩ := List.length_eq_one_iff.mp (count.trans single)
  rw [if_neg unheld, unannounced] at counted
  simp only [hear, turn]
  exact { tracks with
    counted := by simpa using counted
    announced := fun _ => ⟨block, within⟩
    held := fun _ => boundaryPending
    going := nofun }

theorem block (tracks : receiver.Tracks ledger isPending) (turn : receiver.turn = .take)
    {block : Block} (taken : ledger.read ++ [block] <+: ledger.loaded) {stillPending : Bool} :
    (receiver.hear (.ok (.block block))).Tracks { ledger with read := ledger.read ++ [block] }
      stillPending := by
  have unheld : receiver.turn ≠ .confirm := by simp [turn]
  have counted := tracks.counted
  rw [if_neg unheld] at counted
  simp only [hear, turn]
  cases boundary : receiver.boundary with
  | false =>
    rw [boundary] at counted
    exact {
      within := tracks.within
      taken := by simp [← tracks.taken]
      counted := by simpa [boundary] using counted
      announced := by simp
      held := nofun
      going := nofun }
  | true =>
    obtain ⟨final, announced⟩ := tracks.announced boundary
    -- The announced block and the block read stand at the same place of the stream.
    have ended : ledger.read ++ [final] <+: ledger.loaded := by
      simpa [← tracks.taken] using Ledger.flatten_prefix_loaded announced
    have same : ledger.read ++ [block] = ledger.read ++ [final] :=
      (List.prefix_of_prefix_length_le taken ended (by simp)).eq_of_length (by simp)
    obtain rfl : block = final := by simpa using same
    rw [boundary] at counted
    exact {
      within := by simpa [endMessage] using announced
      taken := by simp [endMessage, ← tracks.taken]
      counted := by simpa [endMessage] using counted
      announced := nofun
      held := nofun
      going := nofun }

theorem unavailable (tracks : receiver.Tracks ledger isPending) (turn : receiver.turn = .take) :
    (receiver.hear (.ok (.refused .unavailable))).Tracks ledger isPending := by
  have counted := tracks.counted
  rw [turn] at counted
  simp only [hear, turn]
  exact { tracks with
    counted := counted
    held := nofun
    going := nofun }

theorem confirm (tracks : receiver.Tracks ledger isPending) (turn : receiver.turn = .confirm)
    {stillPending : Bool} :
    (receiver.hear (.ok .done)).Tracks { ledger with confirmed := ledger.confirmed + 1 }
      stillPending := by
  have counted := tracks.counted
  rw [if_pos turn] at counted
  simp only [hear, turn]
  exact { tracks with
    counted := counted
    held := nofun
    going := nofun }

end Present

end Receiver.Tracks

end BlockLink
