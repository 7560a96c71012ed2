import RelayLifeline.Governance.Compaction

/-!
# Everything that happens to a manager

Besides a client's call and the compaction job, the gateway hands the manager
each configuration the operator applies. None of the three but a call changes
the accounts.
-/

namespace RelayLifeline.Governance

open Lib

/-- One thing that happens to a manager. -/
inductive Action where
  | step (step : Step)
  | apply (cfg : GovernanceConfig)

namespace Manager

/-- `Apply`. The prices by model, which the source copies into a map, are read
from the configuration's list. -/
def apply (m : Manager) (cfg : GovernanceConfig) : Manager := { m with config := cfg }

def act (m : Manager) : Action → Manager
  | .step step => m.step step
  | .apply cfg => m.apply cfg

def acts (m : Manager) (actions : List Action) : Manager := actions.foldl act m

theorem heartbeat_rest (clk : Clock) (stamp : String → Int) (acc : Manager × Bool)
    (reservation : ReservationState) :
    (heartbeat clk stamp acc reservation).1.config = acc.1.config ∧
      (heartbeat clk stamp acc reservation).1.accounts = acc.1.accounts := by
  simp only [heartbeat]
  split
  · exact ⟨rfl, rfl⟩
  · exact append_rest _ _ _ _

/-- Compaction touches nothing but the ledger and one counter. -/
theorem compact_rest (m : Manager) (clk : Clock) (stamp : String → Int) (cutoff : Int)
    (rewrite : Rewrite) :
    (m.compact clk stamp cutoff rewrite).1.config = m.config ∧
      (m.compact clk stamp cutoff rewrite).1.accounts = m.accounts := by
  have hbeats : (m.reservations.items.foldl (heartbeat clk stamp) (m, false)).1.config = m.config ∧
      (m.reservations.items.foldl (heartbeat clk stamp) (m, false)).1.accounts = m.accounts :=
    List.foldlRecOn (motive := fun acc => acc.1.config = m.config ∧ acc.1.accounts = m.accounts)
      _ _ ⟨rfl, rfl⟩ fun acc h reservation _ =>
        let hbeat := heartbeat_rest clk stamp acc reservation
        ⟨hbeat.1.trans h.1, hbeat.2.trans h.2⟩
  simp only [compact]
  split
  · exact ⟨rfl, rfl⟩
  · split
    · exact hbeats
    · split
      · exact hbeats
      · exact hbeats

/-- An invariant of the accounts that calls keep holds at the end of every run
of actions. -/
theorem acts_invariant {P : Accounts → Prop} {C : Manager → Action → Prop}
    (hcall : ∀ m op, C m (.step (.call op)) → P m.accounts → P (m.perform op).accounts)
    {m : Manager} {actions : List Action} (hC : Along act C m actions) (h : P m.accounts) :
    P (m.acts actions).accounts := by
  refine Along.invariant (P := fun m => P m.accounts) ?_ h hC
  intro m action hm hc
  match action with
  | .step (.call op) => exact hcall m op hc hm
  | .step (.compact clk stamp cutoff rewrite) =>
      exact (m.compact_rest clk stamp cutoff rewrite).2 ▸ hm
  | .apply cfg => exact hm

end Manager

end RelayLifeline.Governance
