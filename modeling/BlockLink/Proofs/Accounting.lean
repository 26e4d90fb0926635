import BlockLink.Proofs.Benchmark

/-!
The arithmetic of the benchmark with its checks.

The clock never runs backwards, so no duration is negative, not even where the clock has come to
its end. One exchange begins at the cycle at which the one before it has ended. So their durations
add up to the time between two readings of the clock, which is no more than the clock shows.
-/

namespace BlockLink

namespace Link

/-- Whatever is done, the clock does not run backwards. -/
theorem later_law : Law fun link _ last => link.time ≤ last.time where
  rest _ := UInt64.le_refl _
  next first second := UInt64.le_trans first second
  elapse := time_law.elapse
  deliver := time_law.deliver
  setWatermark _ _ _ _ := UInt64.le_refl _
  openMessage _ _ := UInt64.le_refl _
  finish side link := UInt64.le_of_eq (time_finish link side).symm
  confirm _ _ := UInt64.le_refl _
  remark _ _ _ := UInt64.le_refl _
  stage _ _ _ _ := UInt64.le_refl _
  enqueue side block link := by
    by_cases ready : (link.station side).IsReady
    · rw [run_enqueue_of_ready block ready]
      exact UInt64.le_refl _
    · rw [run_enqueue_of_unready block ready]
      exact UInt64.le_refl _
  dequeue side link := by
    cases shown : (link.station side).peek with
    | ok block =>
      rw [run_dequeue_of_ok shown]
      exact UInt64.le_refl _
    | error refusal =>
      rw [run_dequeue_of_error shown]
      exact UInt64.le_refl _
  reset link := by
    by_cases accepted : link.config.Accepted
    · rw [run_reset_of_accepted accepted]
      exact UInt64.le_refl _
    · rw [run_reset_of_rejected accepted]
      exact UInt64.le_refl _

section Blocks

variable {law : Link → List Event → Link → Prop} {side : Side}

theorem LoadingBy.writeBlock (obeyed : LoadingBy side law) (block : Block) :
    (Link.writeBlock side block).Within law := by
  apply Step.within_bind obeyed.toChains (obeyed.writeData 0 block.word0)
  intro _
  apply Step.within_bind obeyed.toChains (obeyed.writeData 1 block.word1)
  intro _
  apply Step.within_bind obeyed.toChains (obeyed.writeData 2 block.word2)
  intro _
  exact obeyed.writeData 3 block.word3

theorem ReadingBy.readBlock (obeyed : ReadingBy side law) :
    (Link.readBlock side).Within law := by
  apply Step.within_bind obeyed.toChains (obeyed.readData 0)
  intro word0
  apply Step.within_bind obeyed.toChains (obeyed.readData 1)
  intro word1
  apply Step.within_bind obeyed.toChains (obeyed.readData 2)
  intro word2
  exact Step.within_answer obeyed.toChains (obeyed.readData 3) _

end Blocks

end Link

namespace Benchmark

section Clock

variable (link : Link) (side : Side)

theorem later_readFlag (field : Field) : link.time ≤ (readFlag side field link).2.time :=
  Link.time_law.charge link

theorem later_writeBlock (block : Block) : link.time ≤ (writeBlock side block link).time := by
  have loading := Link.later_law.toLoading.loadingBy side
  rw [writeBlock_eq]
  exact loading.writeBlock block link

theorem later_readBlock : link.time ≤ (readBlock side link).2.time := by
  have reading := Link.later_law.toReading.readingBy side
  rw [readBlock_eq]
  exact reading.readBlock link

variable {link side}

theorem later_await {field : Field} {expected : Bool} {last : Link}
    (awaited : await side field expected link = .ok last) : link.time ≤ last.time := by
  obtain ⟨polls, -, rfl⟩ := (await_ok_iff side field link expected last).mp awaited
  exact Link.time_law.charges (polls + 1) link

end Clock

/-- Why a benchmark with checked arithmetic does not finish. -/
inductive Flaw where
  | interrupted (interruption : Interruption)
  /-- A reading of the clock was taken off an earlier one. -/
  | negativeDuration
  /-- A sum went past the largest number of cycles. -/
  | sumOverflow
  /-- Durations added up to more than the clock shows. -/
  | sumAheadOfClock
  | divisionByZero

/-- The cycles between two readings of the clock. -/
def durationChecked (start now : Time) : Except Flaw Time :=
  if start ≤ now then .ok (now - start) else .error .negativeDuration

/-- The sum of the durations so far and one more that has just been measured. -/
def sumChecked (total cycles now : Time) : Except Flaw Time :=
  if total.toNat + cycles.toNat < 2 ^ 64 then
    if total + cycles ≤ now then .ok (total + cycles) else .error .sumAheadOfClock
  else .error .sumOverflow

def meanChecked (total : Time) (count : UInt64) : Except Flaw Time :=
  if count = 0 then .error .divisionByZero else .ok (total / count)

/-- Send a block from the left to the right, and check the duration. -/
def exchangeChecked (link : Link) : Except Flaw (Exchange × Link) := do
  let start := link.time
  let link ← (await .left StatusWord.txFull false link).mapError .interrupted
  let link := writeBlock .left data link
  let link ← (await .right StatusWord.rxValid true link).mapError .interrupted
  let (received, link) := readBlock .right link
  return (⟨← durationChecked start link.time, received⟩, link)

/-- A number of exchanges, with a check of the running sum behind each of them. -/
def exchangesChecked : (rounds : Nat) → (total : Time) → (intact : Bool) → Link →
    Except Flaw (Time × Bool × Link)
  | 0, total, intact, link => .ok (total, intact, link)
  | rounds + 1, total, intact, link => do
    let (measured, link) ← exchangeChecked link
    let total ← sumChecked total measured.cycles link.time
    exchangesChecked rounds total (intact && measured.received = data) link

/-- All measurements on a new link, with their arithmetic checked. -/
def runChecked (setup : Setup) : Except Flaw Report := do
  let config : Config :=
    { linkLatency := setup.latency, accessCycles := setup.accessCycles }
  let link ← ((Link.create config).mapError .refused).mapError .interrupted
  let link1 ← (start link).mapError .interrupted
  let (_, link2) := readFlag .left StatusWord.txFull link1
  let readFull ← durationChecked link1.time link2.time
  let link3 := Benchmark.writeBlock .left data link2
  let writeBlock ← durationChecked link2.time link3.time
  let (_, link4) := readFlag .right StatusWord.rxValid link3
  let readValid ← durationChecked link3.time link4.time
  let link5 ← (await .right StatusWord.rxValid true link4).mapError .interrupted
  let (received, link6) := Benchmark.readBlock .right link5
  let readBlock ← durationChecked link5.time link6.time
  let (total, intact, link7) ←
    exchangesChecked setup.rounds.toNat 0 (received = data) link6
  let exchange ← meanChecked total (max setup.rounds 1)
  return { readFull, writeBlock, readValid, readBlock, exchange, intact, link := link7 }

section Checked

variable {link last : Link} {start now total cycles : Time}

theorem durationChecked_of_later (later : start ≤ now) :
    durationChecked start now = .ok (now - start) :=
  if_pos later

theorem toNat_duration (later : start ≤ now) :
    (now - start).toNat = now.toNat - start.toNat :=
  UInt64.toNat_sub_of_le _ _ later

/-- A duration that is measured at the end of those so far leads no further than to the clock. -/
theorem sumChecked_of_later (notAhead : total ≤ start) (later : start ≤ now) :
    sumChecked total (now - start) now = .ok (total + (now - start)) ∧
      (total + (now - start)).toNat = total.toNat + (now.toNat - start.toNat) := by
  rw [UInt64.le_iff_toNat_le] at notAhead
  have duration := toNat_duration later
  have bound := now.toNat_lt
  rw [UInt64.le_iff_toNat_le] at later
  have fits : total.toNat + (now - start).toNat < 2 ^ 64 := by omega
  have sum : (total + (now - start)).toNat = total.toNat + (now - start).toNat := by
    rw [UInt64.toNat_add]
    exact Nat.mod_eq_of_lt fits
  have inTime : total + (now - start) ≤ now := by
    rw [UInt64.le_iff_toNat_le]
    omega
  refine ⟨?_, by rw [sum, duration]⟩
  rw [sumChecked, if_pos fits, if_pos inTime]

section Exchanges

variable {free crossed : Link}

theorem exchange_of_ok (room : await .left StatusWord.txFull false link = .ok free)
    (seen : await .right StatusWord.rxValid true (writeBlock .left data free) = .ok crossed) :
    exchange link =
      .ok (⟨(readBlock .right crossed).2.time - link.time, (readBlock .right crossed).1⟩,
        (readBlock .right crossed).2) := by
  rw [exchange, room]
  dsimp only [bind, Except.bind]
  rw [seen]
  rfl

theorem later_exchange (room : await .left StatusWord.txFull false link = .ok free)
    (seen : await .right StatusWord.rxValid true (writeBlock .left data free) = .ok crossed) :
    link.time ≤ (readBlock .right crossed).2.time := by
  have written := UInt64.le_trans (later_await room) (later_writeBlock free .left data)
  have received := UInt64.le_trans (later_await seen) (later_readBlock crossed .right)
  exact UInt64.le_trans written received

theorem exchangeChecked_of_ok (room : await .left StatusWord.txFull false link = .ok free)
    (seen : await .right StatusWord.rxValid true (writeBlock .left data free) = .ok crossed) :
    exchangeChecked link =
      .ok (⟨(readBlock .right crossed).2.time - link.time, (readBlock .right crossed).1⟩,
        (readBlock .right crossed).2) := by
  have duration := durationChecked_of_later (later_exchange room seen)
  rw [exchangeChecked, room]
  dsimp only [bind, Except.bind, Except.mapError]
  rw [seen]
  dsimp only
  rw [duration]
  rfl

/-- An exchange takes as long as the clock says, and its duration can be had without a check. -/
theorem exchange_cases (link : Link) :
    (∃ interruption, exchange link = .error interruption ∧
      exchangeChecked link = .error (.interrupted interruption)) ∨
    ∃ received last, link.time ≤ last.time ∧
      exchange link = .ok (⟨last.time - link.time, received⟩, last) ∧
      exchangeChecked link = .ok (⟨last.time - link.time, received⟩, last) := by
  cases room : await .left StatusWord.txFull false link with
  | error interruption =>
    refine .inl ⟨interruption, ?_, ?_⟩
    · rw [exchange, room]
      rfl
    · rw [exchangeChecked, room]
      rfl
  | ok free =>
    cases seen : await .right StatusWord.rxValid true (writeBlock .left data free) with
    | error interruption =>
      refine .inl ⟨interruption, ?_, ?_⟩
      · rw [exchange, room]
        dsimp only [bind, Except.bind]
        rw [seen]
      · rw [exchangeChecked, room]
        dsimp only [bind, Except.bind, Except.mapError]
        rw [seen]
    | ok crossed =>
      exact .inr ⟨_, _, later_exchange room seen, exchange_of_ok room seen,
        exchangeChecked_of_ok room seen⟩

theorem exchangesChecked_eq (rounds : Nat) {total : Time} (intact : Bool) {link : Link}
    (notAhead : total ≤ link.time) :
    exchangesChecked rounds total intact link =
      (exchanges rounds total intact link).mapError .interrupted := by
  induction rounds generalizing total intact link with
  | zero => rfl
  | succ rounds inductionHypothesis =>
    rw [exchangesChecked, exchanges]
    rcases exchange_cases link with
      ⟨interruption, done, checked⟩ | ⟨received, last, later, done, checked⟩
    · rw [done, checked]
      rfl
    · obtain ⟨sum, exact⟩ := sumChecked_of_later notAhead later
      have notAheadAfter : total + (last.time - link.time) ≤ last.time := by
        rw [UInt64.le_iff_toNat_le] at notAhead later ⊢
        omega
      rw [done, checked]
      dsimp only [bind, Except.bind]
      rw [sum]
      exact inductionHypothesis _ notAheadAfter

/-- The durations of exchanges that follow each other add up to the time that has passed. -/
theorem toNat_exchanges {rounds : Nat} {total sum : Time} {intact allIntact : Bool}
    (notAhead : total ≤ link.time)
    (done : exchanges rounds total intact link = .ok (sum, allIntact, last)) :
    link.time ≤ last.time ∧ sum.toNat + link.time.toNat = total.toNat + last.time.toNat := by
  induction rounds generalizing total intact link with
  | zero =>
    obtain ⟨rfl, -, rfl⟩ := by simpa [exchanges] using done
    exact ⟨UInt64.le_refl _, rfl⟩
  | succ rounds inductionHypothesis =>
    rw [exchanges] at done
    rcases exchange_cases link with
      ⟨interruption, failed, -⟩ | ⟨received, middle, later, measured, -⟩
    · rw [failed] at done
      cases done
    · rw [measured] at done
      have exact := (sumChecked_of_later notAhead later).2
      have notAheadAfter : total + (middle.time - link.time) ≤ middle.time := by
        rw [UInt64.le_iff_toNat_le] at notAhead later ⊢
        omega
      obtain ⟨laterStill, passed⟩ := inductionHypothesis notAheadAfter done
      refine ⟨UInt64.le_trans later laterStill, ?_⟩
      rw [UInt64.le_iff_toNat_le] at later
      omega

end Exchanges

/-- What the sum of all durations is divided by. -/
theorem max_one_eq (count : UInt64) : max count 1 = if count = 0 then 1 else count := by
  have larger : max count 1 = if count ≤ 1 then 1 else count := rfl
  rw [larger]
  grind

theorem max_ne_zero (count : UInt64) : max count 1 ≠ 0 := by
  rw [max_one_eq]
  split
  next => decide
  next some => exact some

theorem runChecked_eq (setup : Setup) :
    runChecked setup = (run setup).mapError .interrupted := by
  have mean (total : Time) :
      meanChecked total (max setup.rounds 1) = .ok (total / max setup.rounds 1) :=
    if_neg (max_ne_zero setup.rounds)
  unfold runChecked run
  dsimp only [bind, Except.bind, Except.mapError]
  cases Link.create { linkLatency := setup.latency, accessCycles := setup.accessCycles } with
  | error refusal => rfl
  | ok link =>
    dsimp only
    cases start link with
    | error interruption => rfl
    | ok link1 =>
      dsimp only
      rw [durationChecked_of_later (later_readFlag link1 .left _),
        durationChecked_of_later (later_writeBlock _ .left data)]
      dsimp only
      rw [durationChecked_of_later (later_readFlag _ .right _)]
      dsimp only
      cases await .right StatusWord.rxValid true
        (readFlag .right StatusWord.rxValid
          (writeBlock .left data (readFlag .left StatusWord.txFull link1).2)).2 with
      | error interruption => rfl
      | ok link5 =>
        dsimp only
        rw [durationChecked_of_later (later_readBlock link5 .right)]
        dsimp only
        rw [exchangesChecked_eq setup.rounds.toNat _ (UInt64.le_iff_toNat_le.mpr (Nat.zero_le _))]
        cases exchanges setup.rounds.toNat 0 (decide ((readBlock .right link5).1 = data))
          (readBlock .right link5).2 with
        | error interruption => rfl
        | ok measured =>
          dsimp only [Except.mapError]
          rw [mean]
          rfl

/-- No duration of the benchmark is negative, no sum of its durations overflows or is ahead of the
clock, and nothing is divided by zero, whatever the latency, the cost of an access and the number
of exchanges are, and also where the clock comes to its end. For the durations of the exchanges
add up to the time that has passed since the first of them began. -/
theorem arithmetic_sound (setup : Setup) :
    runChecked setup = (run setup).mapError .interrupted ∧
    (if Timely setup.config then ∃ report, runChecked setup = .ok report
    else runChecked setup = .error (.interrupted .stalled)) ∧
    ∀ rounds intact first sum allIntact last,
      exchanges rounds 0 intact first = .ok (sum, allIntact, last) →
        sum.toNat + first.time.toNat = last.time.toNat ∧ sum ≤ last.time := by
  refine ⟨runChecked_eq setup, ?_, ?_⟩
  · split
    next timely =>
      obtain ⟨report, done, -⟩ := exists_report setup timely
      refine ⟨report, ?_⟩
      rw [runChecked_eq, done]
      rfl
    next untimely =>
      obtain ⟨costless, isLate⟩ := not_or.mp untimely
      have free : setup.accessCycles = 0 :=
        UInt64.toNat_inj.mp (Nat.lt_one_iff.mp (Nat.not_le.mp costless))
      rw [runChecked_eq, run_of_free setup free isLate]
      rfl
  · intro rounds intact first sum allIntact last done
    have notAhead : (0 : Time) ≤ first.time := UInt64.le_iff_toNat_le.mpr (Nat.zero_le _)
    obtain ⟨-, passed⟩ := toNat_exchanges notAhead done
    rw [UInt64.toNat_zero, Nat.zero_add] at passed
    exact ⟨passed, UInt64.le_iff_toNat_le.mpr (by omega)⟩

/-- The clock has come to its end before the first block is on its way. -/
theorem arithmetic_sound_at_end_of_clock :
    let setup : Setup :=
      { latency := 18446744073709551615, accessCycles := 9223372036854775808, rounds := 1000 }
    (launched setup).time.toNat = Time.latest ∧ (∃ report, runChecked setup = .ok report) ∧
    ∃ sum last, exchanges 1000 0 true (opened setup) = .ok (sum, true, last) ∧
      sum.toNat + (opened setup).time.toNat = last.time.toNat ∧ sum ≤ last.time := by
  intro setup
  have timely : Timely setup.config := by decide
  obtain ⟨-, finishes, sums⟩ := arithmetic_sound setup
  rw [if_pos timely] at finishes
  have timelyOpened : Timely (opened setup).config := config_opened setup ▸ timely
  obtain ⟨sum, last, done, -⟩ := (clear_opened setup).exchanges timelyOpened 1000 0 true
  refine ⟨?_, finishes, sum, last, done, sums 1000 true (opened setup) sum true last done⟩
  rw [toNat_time_launched]
  decide

end Checked

end Benchmark

end BlockLink
