import RelayLifeline.Registry.Control

/-!
# Waiting out a pause

Every pause makes the channel of its own number, so the channel that a wait has
sampled tells which pause it saw. The channels of all pauses that are over are
closed, the one of a pause that is on is open, and whatever leaves a pause
closes exactly that one. So nothing is closed twice, and a wait sleeps on an
open channel only as long as the pause it saw goes on.
-/

namespace RelayLifeline.Registry

open Lib

namespace Gate

/-- Channels are numbered as the pauses are; those of the pauses that are over
are closed. -/
structure Sound (g : Gate) : Prop where
  alive : g.panicked = false
  made : g.controller.channels.length = g.episode + 1
  current : g.controller.resumeCh = g.episode
  begun : g.controller.mode = .paused → 0 < g.episode
  on : g.controller.mode = .paused → g.controller.channels[g.episode]? = some false
  ended : ∀ channel, 0 < channel → channel ≤ g.episode →
    (channel = g.episode → g.controller.mode ≠ .paused) → g.controller.closed channel = true
  sampled : ∀ s ∈ g.samples, s.channel = s.episode ∧ 0 < s.episode ∧ s.episode ≤ g.episode
  asleep : ∀ call ∈ g.calls, ∀ channel, call.stage = .asleep channel →
    ∃ s ∈ g.samples, s.channel = channel
  observed : ∀ call ∈ g.calls, call.stage = .returned →
    ∃ mode, call.observed = some mode ∧ mode ≠ .paused

theorem sound_start : Sound {} where
  alive := rfl
  made := rfl
  current := rfl
  begun := fun h => by cases h
  on := fun h => by cases h
  ended := fun channel hpos hle _ => absurd hle (Nat.not_le.2 hpos)
  sampled := fun s hs => absurd hs List.not_mem_nil
  asleep := fun call hcall => absurd hcall List.not_mem_nil
  observed := fun call hcall => absurd hcall List.not_mem_nil

variable {g : Gate}

/-! ## The operators -/

theorem Sound.pause (h : g.Sound) : g.pause.Sound := by
  rw [Gate.pause, Controller.pause]
  split
  · exact h
  · next hrunning =>
    have hrunning : g.controller.mode = .running := not_not.1 hrunning
    refine ⟨h.alive, ?_, h.made, fun _ => Nat.succ_pos _, fun _ => ?_, ?_, ?_, h.asleep,
      h.observed⟩
    · show (g.controller.channels ++ [false]).length = g.episode + 1 + 1
      rw [List.length_append, h.made]
      rfl
    · show (g.controller.channels ++ [false])[g.episode + 1]? = some false
      rw [← h.made, List.getElem?_concat_length]
    · intro channel hpos hle hleft
      have hold : channel ≤ g.episode := by
        have hne : channel ≠ g.episode + 1 := fun heq => hleft heq rfl
        have hle : channel ≤ g.episode + 1 := hle
        omega
      have hclosed := h.ended channel hpos hold fun _ => by
        rw [hrunning]
        decide
      have hin : channel < g.controller.channels.length := by
        rw [h.made]
        omega
      rw [Controller.closed] at hclosed ⊢
      rwa [show (g.controller.channels ++ [false])[channel]? = g.controller.channels[channel]? from
        List.getElem?_append_left hin]
    · intro s hs
      obtain ⟨heq, hpos, hle⟩ := h.sampled s hs
      exact ⟨heq, hpos, Nat.le_succ_of_le hle⟩

/-- A mode that is no pause is left without closing anything. -/
theorem Sound.switch (h : g.Sound) (hmode : g.controller.mode ≠ .paused) {mode : ControlMode}
    (hnew : mode ≠ .paused) :
    Sound { g with controller := { g.controller with mode := mode } } where
  alive := h.alive
  made := h.made
  current := h.current
  begun := fun hpaused => absurd hpaused hnew
  on := fun hpaused => absurd hpaused hnew
  ended := fun channel hpos hle _ => h.ended channel hpos hle fun _ => hmode
  sampled := h.sampled
  asleep := h.asleep
  observed := h.observed

/-- A pause is left by closing its channel, which is open. -/
theorem Sound.leave (h : g.Sound) (hpaused : g.controller.mode = .paused) {mode : ControlMode}
    (hnew : mode ≠ .paused) :
    ∃ c, ({ g.controller with mode := mode } : Controller).closeResume = some c ∧
      Sound { g with controller := c } := by
  have hopen := h.on hpaused
  rw [← h.current] at hopen
  refine ⟨_, if_pos hopen, h.alive, ?_, h.current, fun hp => absurd hp hnew,
    fun hp => absurd hp hnew, ?_, h.sampled, h.asleep, h.observed⟩
  · rw [List.length_set]
    exact h.made
  · intro channel hpos hle _
    have hin : channel < g.controller.channels.length := by
      have hle : channel ≤ g.episode := hle
      rw [h.made]
      omega
    rw [Controller.closed]
    dsimp only
    rw [List.getElem?_set]
    split
    · next heq =>
        subst heq
        rw [if_pos hin]
        rfl
    · next hne =>
        refine h.ended channel hpos hle fun heq => ?_
        rw [h.current] at hne
        exact absurd heq.symm hne

theorem Sound.setNonAccepting (h : g.Sound) {mode : ControlMode} (hnew : mode ≠ .paused) :
    (g.finish (g.controller.setNonAccepting mode)).Sound := by
  rw [Controller.setNonAccepting]
  split
  · exact h
  · dsimp only
    split
    · next hpaused =>
        obtain ⟨c, hclose, hsound⟩ := h.leave hpaused hnew
        rw [hclose]
        exact hsound
    · next hpaused => exact h.switch hpaused hnew

/-! ## The calls -/

/-- One call has moved to a stage where it neither sleeps nor has returned. -/
theorem Sound.set (h : g.Sound) {id : Nat} {call : WaitCall}
    (hasleep : ∀ channel, call.stage = .asleep channel → ∃ s ∈ g.samples, s.channel = channel)
    (hobserved : call.stage = .returned → ∃ mode, call.observed = some mode ∧ mode ≠ .paused) :
    Sound { g with calls := g.calls.set id call } := by
  refine ⟨h.alive, h.made, h.current, h.begun, h.on, h.ended, h.sampled, ?_, ?_⟩
  · intro call' hcall'
    rcases List.mem_or_eq_of_mem_set hcall' with hold | rfl
    · exact h.asleep call' hold
    · exact hasleep
  · intro call' hcall'
    rcases List.mem_or_eq_of_mem_set hcall' with hold | rfl
    · exact h.observed call' hold
    · exact hobserved

theorem Sound.sample (h : g.Sound) (id : Nat) (call : WaitCall) : (g.sample id call).Sound := by
  rw [Gate.sample]
  split
  · next hpaused =>
      have hsamples :
          Sound { g with samples := ⟨g.controller.resumeCh, g.episode⟩ :: g.samples } := by
        refine ⟨h.alive, h.made, h.current, h.begun, h.on, h.ended, ?_, ?_, h.observed⟩
        · intro s hs
          rcases List.mem_cons.1 hs with rfl | hold
          · exact ⟨h.current, h.begun hpaused, Nat.le_refl _⟩
          · exact h.sampled s hold
        · intro call hcall channel hstage
          obtain ⟨s, hs, heq⟩ := h.asleep call hcall channel hstage
          exact ⟨s, List.mem_cons_of_mem _ hs, heq⟩
      refine hsamples.set (fun channel hstage => ?_) fun hstage => by cases hstage
      cases hstage
      exact ⟨_, List.mem_cons_self, rfl⟩
  · next hmode =>
      refine h.set (fun channel hstage => by cases hstage) fun _ => ?_
      exact ⟨_, rfl, hmode⟩

theorem Sound.act (h : g.Sound) {id : Nat} {call : WaitCall} (hcall : g.calls[id]? = some call)
    (op : ControlOp) : (g.act id call op).Sound := by
  have hmem := List.mem_of_getElem? hcall
  cases op with
  | pause => exact h
  | resume => exact h
  | drain => exact h
  | maintenance => exact h
  | wait => exact h
  | cancel => exact h.set (h.asleep call hmem) (h.observed call hmem)
  | sample =>
      rw [Gate.act]
      split
      · exact h.sample id call
      · exact h
  | wake =>
      rw [Gate.act]
      split
      · split
        · exact h.set (fun channel hstage => by cases hstage) fun hstage => by cases hstage
        · exact h
      · exact h
  | quit =>
      rw [Gate.act]
      split
      · split
        · exact h.set (fun channel hstage => by cases hstage) fun hstage => by cases hstage
        · exact h
      · exact h

theorem Sound.turn (h : g.Sound) (id : Nat) (op : ControlOp) : (g.turn id op).Sound := by
  rw [Gate.turn]
  split
  · exact h
  · next call hcall => exact h.act hcall op

theorem Sound.serve (h : g.Sound) (op : ControlOp) : (g.serve op).Sound := by
  cases op with
  | pause => exact h.pause
  | resume => exact h.setNonAccepting (by decide)
  | drain => exact h.setNonAccepting (by decide)
  | maintenance => exact h.setNonAccepting (by decide)
  | wait =>
      refine ⟨h.alive, h.made, h.current, h.begun, h.on, h.ended, h.sampled, ?_, ?_⟩
      · intro call hcall channel hstage
        rcases List.mem_append.1 hcall with hold | hnew
        · exact h.asleep call hold channel hstage
        · rw [List.mem_singleton.1 hnew] at hstage
          cases hstage
      · intro call hcall hstage
        rcases List.mem_append.1 hcall with hold | hnew
        · exact h.observed call hold hstage
        · rw [List.mem_singleton.1 hnew] at hstage
          cases hstage
  | cancel id => exact h.turn id _
  | sample id => exact h.turn id _
  | wake id => exact h.turn id _
  | quit id => exact h.turn id _

theorem Sound.step_eq (h : g.Sound) (op : ControlOp) : g.step op = g.serve op := by
  rw [Gate.step, h.alive]
  rfl

theorem Sound.step (h : g.Sound) (op : ControlOp) : (g.step op).Sound := by
  rw [h.step_eq]
  exact h.serve op

theorem sound_run (ops : List ControlOp) : (run ops).Sound :=
  foldl_invariant (fun _ op h => h.step op) sound_start ops

/-- The channel of a pause that is over, or not the last one, is closed. -/
theorem Sound.closed_of_left (h : g.Sound) {s : Sample} (hs : s ∈ g.samples)
    (hleft : g.episode = s.episode → g.controller.mode ≠ .paused) :
    g.controller.closed s.channel = true := by
  obtain ⟨heq, hpos, hle⟩ := h.sampled s hs
  rw [heq]
  exact h.ended s.episode hpos hle fun heq => hleft heq.symm

/-- A wait that sleeps while there is no pause goes on and returns. -/
theorem Sound.returns (h : g.Sound) (hmode : g.controller.mode ≠ .paused) {id : Nat}
    {call : WaitCall} {channel : Nat} (hcall : g.calls[id]? = some call)
    (hstage : call.stage = .asleep channel) :
    ((g.step (.wake id)).step (.sample id)).calls[id]?.map WaitCall.stage = some .returned := by
  obtain ⟨s, hs, heq⟩ := h.asleep call (List.mem_of_getElem? hcall) channel hstage
  have hclosed := h.closed_of_left hs fun _ => hmode
  rw [heq] at hclosed
  have hin : id < g.calls.length := (List.getElem?_eq_some_iff.1 hcall).1
  have hwoken : g.step (.wake id) =
      { g with calls := g.calls.set id { call with stage := .looping } } := by
    rw [h.step_eq, Gate.serve, Gate.turn, hcall]
    simp only [Gate.act, hstage, hclosed, if_true]
  rw [(h.step (.wake id)).step_eq, hwoken, Gate.serve, Gate.turn]
  simp only [List.getElem?_set_self hin, Gate.act, if_true, Gate.sample, if_neg hmode,
    List.set_set, Option.map_some]

/-- Whatever the operators and the waits do, and in whatever order: nothing
panics, a channel that a wait sampled while it saw a pause is closed as soon as
that pause is over, a wait that sleeps then goes on and returns, and one that
has returned saw no pause. -/
theorem run_controlled (ops : List ControlOp) :
    let g := run ops
    g.panicked = false ∧
      (∀ s ∈ g.samples, (g.episode = s.episode → g.controller.mode ≠ .paused) →
        g.controller.closed s.channel = true) ∧
      (∀ id call channel, g.calls[id]? = some call → call.stage = .asleep channel →
        (∃ s ∈ g.samples, s.channel = channel) ∧
          (g.controller.mode ≠ .paused →
            ((g.step (.wake id)).step (.sample id)).calls[id]?.map WaitCall.stage =
              some .returned)) ∧
      ∀ call ∈ g.calls, call.stage = .returned →
        ∃ mode, call.observed = some mode ∧ mode ≠ .paused := by
  have h := sound_run ops
  refine ⟨h.alive, fun s hs hleft => h.closed_of_left hs hleft, ?_, h.observed⟩
  intro id call channel hcall hstage
  exact ⟨h.asleep call (List.mem_of_getElem? hcall) channel hstage,
    fun hmode => h.returns hmode hcall hstage⟩

/-- Two waits, and a pause that is left for maintenance while a third begins. -/
example :
    let g := run [.wait, .wait, .pause, .sample 0, .maintenance, .resume, .pause,
      .sample 1, .wake 0]
    g.samples = [⟨2, 2⟩, ⟨1, 1⟩] ∧ g.controller.closed 1 = true ∧ g.controller.closed 2 = false ∧
      g.calls.map WaitCall.stage = [.looping, .asleep 2] := by
  decide

end Gate

end RelayLifeline.Registry
