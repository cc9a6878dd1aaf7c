import TensorUnit.Proofs.Host.Caller
import TensorUnit.Proofs.Host.Upkeep

namespace TensorUnit.Host

open TensorUnit.Action (Triple KeepsOr)
open Remote Sim
open Tcu (Instruction)

namespace Driver

/-- An operation whose caller leaves the target row alone and the unit aimed. -/
structure Considerate (d : Driver) (op : Operation) : Prop where
  target : d.LeavesAlone op d.target
  supplied : ∀ instr, d.Supplies op instr → ¬ WritesDram0 instr d.target ∧ ¬ ConfiguresBank instr

variable {d : Driver} {op : Operation}

theorem Considerate.part (hd : d.Sound) (hp : d.Placed) {part : Operation} (h : d.Considerate op)
    (hpart : d.Makes op part) : d.Considerate part := by
  refine ⟨hpart.leavesAlone hd hp (Nat.le_refl _), fun instr hi => ?_⟩
  rcases hpart.supplies hd hi with hi | ⟨base, size, _, _, _, rfl⟩
  · exact h.supplied instr hi
  · exact ⟨id, id⟩

theorem Considerate.tame {stream : List UInt8} (h : d.Considerate (.executeStream stream)) :
    d.TameStream stream :=
  fun program hp instr hi => h.supplied instr ⟨program, hp, hi⟩

theorem Considerate.harmless (h : d.Considerate op) (hs : op.Simple) : d.Harmless op := by
  cases op with
  | write bank address values =>
    rintro rfl i hlo hhi
    exact h.target i ⟨hlo, hhi⟩
  | writeBytes bank offset bytes =>
    rintro rfl i hlo hhi
    exact h.target i ⟨hlo, hhi⟩
  | read | compare => trivial
  | dmaWrite stream | executeStream stream =>
    exact fun program hp instr hi => h.supplied instr ⟨program, hp, hi⟩
  | writeInstructions | executeProgram | flush | configure | loadConsts | loadModel | run | close =>
    exact hs.elim

end Driver

theorem keepsOr_good_simple {d : Driver} (hd : d.Sound) {op : Operation} (ho : d.Considerate op)
    (hs : op.Simple) :
    KeepsOr (Driving.OnAny d Driver.Good) (fun _ _ => False) (Driving.perform op) := by
  rintro h ⟨generation, outstanding, hon⟩
  have hd' : (d.probing generation outstanding).Sound := hd.probing ..
  have ho' : (d.probing generation outstanding).Considerate op := ⟨ho.target, ho.supplied⟩
  exact .inl (Triple.state (safe_perform hd' (ho'.harmless hs)) hon)

/-- Behind considerate operations the flushes of an open driver can be trusted. -/
theorem Reached.trusting {h : Driving (Switch Simulator)} (hr : Reached Driver.Considerate h) :
    h.Closed ∨ h.Standing Driver.Good := by
  refine hr.closed_or (K := (·.Standing Driver.Good)) (fun hblank new_ok => ?_)
    (fun h op hs ha hop => ?_)
    (fun _ _ _ _ hs => hs.tune ..) fun _ _ fails clock hs => hs.replan fails clock
  · obtain ⟨hd, _, _, _, hl, hon⟩ := triple_new.ok hblank new_ok
    refine ⟨hd, fun loaded he => ?_, hon.mono fun m hm =>
      ⟨hm.1, false, hm.2.mono Driver.tail_of_empty⟩⟩
    rw [hl] at he
    cases he
  · refine (hs.after (fun _ h => h) hs.on.any (fun _ _ ha hm => ha.part hs.sound hs.placed hm)
      (fun _ hsimple ha => keepsOr_good_simple hs.sound ha hsimple) (fun _ _ _ hk => hk)
      ha hop).resolve_right ?_
    exact fun ⟨_, _, hf⟩ => hf

theorem Reached.standing {h : Driving (Switch Simulator)} (hr : Reached Driver.Considerate h)
    (hopen : h.driver.closed = false) : h.Standing Driver.Good :=
  hr.trusting.resolve_left fun hc => Bool.false_ne_true (hopen.symm.trans hc)

end TensorUnit.Host
