import BlockLink.Proofs.Delivery
import BlockLink.Proofs.History

/-!
The register driver against the model.

A call through the registers is the call to the model and a few accesses more. It makes
no difference to the link whether they come before the call or behind it.
-/

namespace BlockLink

/-- Whether a call does no more than a control write can. -/
def Command.Acts : Command → Prop
  | .openMessage | .closeMessage | .confirm => True
  | .setWatermark _ level => WatermarkValid level
  | .load _ | .read | .status | .now | .waitFor _ => False

namespace Link

variable (link : Link) (side : Side)

/-- What a load does has nothing to do with the words that are staged. -/
theorem state_load_withStaged (block staged : Block) :
    ((load side block).run (link.withStaged side staged)).state =
      ((load side block).run link).state.withStaged side staged := by
  by_cases ready : (link.station side).IsReady
  · have readyStaged : ((link.withStaged side staged).station side).IsReady := ready
    rw [load_eq, Step.run_bind, Step.run_bind, run_enqueue_of_ready block ready,
      run_enqueue_of_ready block readyStaged]
    rfl
  · have unreadyStaged : ¬ ((link.withStaged side staged).station side).IsReady := ready
    rw [run_load_of_unready block ready, run_load_of_unready block unreadyStaged]

theorem callStatus_refines :
    (call .registers side .status).run link = (call .direct side .status).run link := by
  rw [run_callStatus, run_callStatus]

variable {link side}

/-- A read through the registers takes the block behind four accesses more, and might as well
have taken it before them. -/
theorem callRead_refines (framed : ((charge.run link).state.station side).Framed) :
    let direct := (call .direct side .read).run link
    let driven := (call .registers side .read).run link
    driven.value = direct.value ∧
      ((∃ refusal, direct.value = .ok (.refused refusal) ∧ driven.state = direct.state) ∨
        ∃ block, direct.value = .ok (.block block) ∧
          driven.state = ((charges 4).run direct.state).state) := by
  rw [run_directRead]
  cases shown : ((charge.run link).state.station side).peek with
  | error refusal =>
    rw [run_registersRead_of_error framed shown, run_read_of_error shown]
    exact ⟨rfl, .inl ⟨refusal, rfl, rfl⟩⟩
  | ok block =>
    rw [run_registersRead_of_ok framed shown, value_read_of_ok shown, state_charges_succ 4]
    exact ⟨rfl, .inr ⟨block, rfl, state_read_charges 3 shown⟩⟩

/-- A load through the registers queues the block behind four accesses more. -/
theorem callLoad_refines (link : Link) (side : Side) (block : Block) :
    let direct := (call .direct side (.load block)).run link
    let driven := (call .registers side (.load block)).run link
    let delayed := (call .direct side (.load block)).run ((charges 4).run link).state
    driven.value = direct.value ∧
      (direct.value = .ok (.refused .unavailable) ∧ driven.state = direct.state ∨
        direct.value = .ok .done ∧ driven.state = delayed.state.withStaged side block) := by
  rw [run_directLoad, run_directLoad]
  by_cases ready : ((charge.run link).state.station side).IsReady
  · rw [run_registersLoad_of_ready ready, value_load_of_ready block ready, ← state_charges_last]
    exact ⟨rfl, .inr ⟨rfl, state_load_withStaged _ side block block⟩⟩
  · rw [run_registersLoad_of_unready ready, run_load_of_unready block ready]
    exact ⟨rfl, .inl ⟨rfl, rfl⟩⟩

/-- A call that only acts costs one access more through the registers. -/
theorem callAct_refines {command : Command} (acts : command.Acts)
    (valid : (link.station side).Watermarked) :
    (call .registers side command).run link =
      (do charge; call .direct side command : Step Event Link (Except Fault Reply)).run link := by
  have later := watermarked_law.charge link side valid
  cases command with
  | openMessage | closeMessage | confirm =>
    rw [Step.run_bind, run_callPulse .registers side link _ rfl valid,
      run_callPulse .direct side _ _ rfl later]
    simp only [Route.accesses, run_charges_succ 1, List.append_assoc]
  | setWatermark queue level =>
    rw [Step.run_bind, run_callSetWatermark .registers side link queue acts valid,
      run_callSetWatermark .direct side _ queue acts later]
    simp only [Route.accesses, run_charges_succ 1, List.append_assoc]
  | load | read | status | now | waitFor => exact absurd acts id

theorem callSetWatermark_of_invalid (link : Link) (side : Side) (queue : Queue) {level : UInt64}
    (invalid : ¬ WatermarkValid level) :
    (call .registers side (.setWatermark queue level)).run link =
        ⟨.ok (.refused .invalidArgument), link, []⟩ ∧
      (call .direct side (.setWatermark queue level)).run link =
        ⟨.ok (.refused .invalidArgument), (charge.run link).state, (charge.run link).events⟩ := by
  constructor
  · rw [call, Driver.perform, Step.run_bind, Driver.setWatermark, if_neg invalid,
      Program.run_pure, Step.run_pure]
    rfl
  · simp [call, Endpoint.perform, Endpoint.setWatermark, setWatermark, run_atStation,
      Station.run_setWatermark_of_invalid _ _ invalid, withStation_self, Reply.ofUnit]

end Link

/-- The register driver answers what the model answers and leaves the link that the model
leaves, but for the accesses that it takes more. -/
theorem History.driver_refines (history : History) (side : Side) :
    let link := history.link
    let direct command := (Link.call .direct side command).run link
    let driven command := (Link.call .registers side command).run link
    driven .status = direct .status ∧
    ((driven .read).value = (direct .read).value ∧
      ((∃ refusal, (direct .read).value = .ok (.refused refusal) ∧
          (driven .read).state = (direct .read).state) ∨
        ∃ block, (direct .read).value = .ok (.block block) ∧
          (driven .read).state = ((Link.charges 4).run (direct .read).state).state)) ∧
    (∀ block,
      let delayed := (Link.call .direct side (.load block)).run ((Link.charges 4).run link).state
      (driven (.load block)).value = (direct (.load block)).value ∧
      ((direct (.load block)).value = .ok (.refused .unavailable) ∧
          (driven (.load block)).state = (direct (.load block)).state ∨
        (direct (.load block)).value = .ok .done ∧
          (driven (.load block)).state = delayed.state.withStaged side block)) ∧
    (∀ command : Command, command.Acts →
      driven command = (do Link.charge; Link.call .direct side command :
        Step Event Link (Except Fault Reply)).run link) ∧
    ∀ queue level, ¬ WatermarkValid level →
      driven (.setWatermark queue level) = ⟨.ok (.refused .invalidArgument), link, []⟩ ∧
      direct (.setWatermark queue level) =
        ⟨.ok (.refused .invalidArgument), (Link.charge.run link).state,
          (Link.charge.run link).events⟩ := by
  intro link direct driven
  refine ⟨Link.callStatus_refines link side, Link.callRead_refines (history.framed_charge side),
    Link.callLoad_refines link side, ?_, ?_⟩
  · intro command acts
    exact Link.callAct_refines acts (history.watermarked.2 side)
  · intro queue level invalid
    exact Link.callSetWatermark_of_invalid link side queue invalid

end BlockLink
