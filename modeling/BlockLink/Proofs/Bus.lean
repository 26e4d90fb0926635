import BlockLink.Operation

/-!
Programs on the bus of a side.

Steps form a lawful monad, so that programs and the accesses of a window can be
regrouped freely. Each register answers to its own address.
-/

namespace BlockLink

instance {Event State : Type} : LawfulMonad (Step Event State) :=
  LawfulMonad.mk' _
    (fun _ => funext fun _ => congrArg (Outcome.mk _ _) (List.append_nil _))
    (fun _ _ => rfl)
    (fun _ _ _ => funext fun _ => congrArg (Outcome.mk _ _) (List.append_assoc _ _ _))

namespace Step

variable {Event State α : Type}

@[simp]
theorem skip_bind (next : Step Event State α) : (do skip; next : Step Event State α) = next :=
  pure_bind () fun _ => next

@[simp]
theorem bind_skip (first : Step Event State Unit) :
    (do first; skip : Step Event State Unit) = first :=
  bind_pure_unit

end Step

namespace Program

variable {State α β : Type} (bus : Bus State)

@[simp]
theorem run_pure (value : α) :
    (pure value : Program α).run bus = (pure (.ok value) : Step Event State (Except Fault α)) :=
  rfl

theorem run_bind (first : Program α) (second : α → Program β) :
    (first >>= second).run bus = (do
      match ← first.run bus with
      | .ok value => (second value).run bus
      | .error fault => return .error fault : Step Event State (Except Fault β)) := by
  induction first with
  | answer value => rfl
  | read address next inductionHypothesis =>
    have pushed : (read address next >>= second) = read address fun word => next word >>= second :=
      rfl
    rw [pushed, run, run, bind_assoc]
    congr 1
    funext shown
    cases shown with
    | ok word => exact inductionHypothesis word
    | error fault => rfl
  | write address word next inductionHypothesis =>
    have pushed : (write address word next >>= second) = write address word (next >>= second) :=
      rfl
    rw [pushed, run, run, bind_assoc]
    congr 1
    funext _
    exact inductionHypothesis

theorem run_readWord (address : UInt32) : (readWord address).run bus = bus.read address := by
  rw [readWord, run]
  refine Eq.trans ?_ (bind_pure _)
  congr 1
  funext shown
  cases shown <;> rfl

theorem run_writeWord (address word : UInt32) :
    (writeWord address word).run bus = Except.ok <$> bus.write address word := by
  rw [map_eq_pure_bind]
  rfl

end Program

theorem Register.eq_of_address_eq {first second : Register}
    (same : first.address = second.address) : first = second := by
  have found := congrArg ofAddress? same
  rw [ofAddress?_address, ofAddress?_address] at found
  exact Option.some.inj found

theorem Register.eq_address_of_found {address : UInt32} {register : Register}
    (found : Register.ofAddress? address = some register) : address = register.address := by
  unfold Register.ofAddress? at found
  split at found <;> cases found
  all_goals exact UInt32.toNat_inj.mp ‹_›

namespace Link

variable (side : Side)

theorem read_bus (register : Register) :
    (bus side).read register.address = readRegister side register.address :=
  rfl

theorem write_bus (register : Register) (word : UInt32) :
    (bus side).write register.address word = writeRegister side register.address word :=
  rfl

theorem readRegister_status :
    readRegister side Register.status.address = Except.ok <$> readStatus side := by
  simp only [readRegister, Register.ofAddress?_address]

theorem readRegister_control :
    readRegister side Register.control.address = readControl side := by
  simp only [readRegister, Register.ofAddress?_address]

theorem readRegister_readData (position : Fin 4) :
    readRegister side (Register.readData position).address =
      Except.ok <$> readData side position := by
  simp only [readRegister, Register.ofAddress?_address]

theorem writeRegister_control (word : UInt32) :
    writeRegister side Register.control.address word = writeControl side word := by
  simp only [writeRegister, Register.ofAddress?_address]

theorem writeRegister_writeData (position : Fin 4) (word : UInt32) :
    writeRegister side (Register.writeData position).address word =
      writeData side position word := by
  simp only [writeRegister, Register.ofAddress?_address]

end Link

end BlockLink
