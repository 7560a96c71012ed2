import RelayLifeline.Policy.Effects

/-!
# The cooldown between adaptive switches

A history lists what adaptive routing has selected, the newest first. What the
manager remembers of it is the target of the newest selection, since when that
target has been the selected one, and how often the target has changed
(`Follows`); an evaluation either selects nothing and leaves that alone or adds
one selection to it. A change happens only after the cooldown or where the
target cannot be kept.
-/

namespace RelayLifeline.Policy

variable {F : Type} [Float64 F]

/-- A target that adaptive routing selected, of which targets and when. -/
structure Selection (F : Type) where
  time : Int
  targetID : String
  targets : List (TargetSignal F)

namespace Selection

/-- Since when the newest selection has been of its target. -/
def since : List (Selection F) → Int
  | [] => 0
  | [s] => s.time
  | s :: t :: rest => if s.targetID = t.targetID then since (t :: rest) else s.time

/-- How often the target has changed. -/
def changes : List (Selection F) → Nat
  | s :: t :: rest => (if s.targetID = t.targetID then 0 else 1) + changes (t :: rest)
  | _ => 0

/-- The target is not there, or not eligible. -/
def Gone (cfg : Adaptive F) (s : Selection F) (targetID : String) : Prop :=
  ∀ target ∈ s.targets, target.id = targetID → target.eligible cfg = false

/-- A change of the target comes after the cooldown, or where the target before
it is gone. -/
def Cooled (cfg : Adaptive F) : List (Selection F) → Prop
  | s :: t :: rest =>
      (s.targetID ≠ t.targetID →
        cfg.switchCooldown ≤ s.time - since (t :: rest) ∨ s.Gone cfg t.targetID) ∧
      Cooled cfg (t :: rest)
  | _ => True

end Selection

open Selection

namespace Manager

variable {u : Unicode} {m m' : Manager F}

/-- What a live `Evaluate` selects, if its decision is adaptive. -/
def selection? (u : Unicode) (m : Manager F) : Op F → Option (Selection F)
  | .evaluate input false now later =>
      if (m.evaluate u input false now later).2.adaptive then
        some ⟨later, (m.evaluate u input false now later).2.recommendedTargetID, input.targets⟩
      else none
  | _ => none

/-- What a run selects, put in front of what was selected before it. -/
def history (u : Unicode) : Manager F → List (Selection F) → List (Op F) → List (Selection F)
  | _, past, [] => past
  | m, past, op :: ops => history u (m.step u op) ((m.selection? u op).toList ++ past) ops

/-- The policy stays as it is. -/
def keepsConfig : Op F → Bool
  | .apply _ => false
  | _ => true

/-- When an evaluation asks for the time. -/
def clock? : Op F → Option Int
  | .evaluate _ _ _ later => some later
  | _ => none

/-- What the manager remembers of its history. -/
structure Follows (cfg : Adaptive F) (m : Manager F) (past : List (Selection F)) : Prop where
  config : m.config.adaptive = cfg
  lastTargetID : m.adaptiveLastTargetID = (past.head?.map Selection.targetID).getD ""
  lastAt : past ≠ [] → m.adaptiveLastAt = since past
  switches : m.adaptiveSwitches = changes past
  named : ∀ s ∈ past, s.targetID ≠ ""
  cooled : Cooled cfg past

omit [Float64 F] in
theorem Follows.unmoved {cfg : Adaptive F} {past : List (Selection F)} (h : Follows cfg m past)
    (hunmoved : Unmoved m m') : Follows cfg m' past where
  config := by rw [hunmoved.config]; exact h.config
  lastTargetID := hunmoved.lastTargetID.trans h.lastTargetID
  lastAt hne := hunmoved.lastAt.trans (h.lastAt hne)
  switches := hunmoved.switches.trans h.switches
  named := h.named
  cooled := h.cooled

omit [Float64 F] in
/-- Where the cooldown does not keep the target, it is over or the target is
gone. -/
theorem of_cooled_ne {cfg : Adaptive F} {input : Input F} {now : Int} {bestID : String}
    (hlast : m.adaptiveLastTargetID ≠ "")
    (h : m.cooled cfg input now bestID ≠ m.adaptiveLastTargetID) :
    cfg.switchCooldown ≤ 0 ∨ cfg.switchCooldown ≤ now - m.adaptiveLastAt ∨
      ∀ target ∈ input.targets, target.id = m.adaptiveLastTargetID →
        target.eligible cfg = false := by
  rw [cooled] at h
  split at h
  · exact absurd rfl h
  next hkeeps =>
    by_cases hzero : cfg.switchCooldown ≤ 0
    · exact .inl hzero
    by_cases hover : cfg.switchCooldown ≤ now - m.adaptiveLastAt
    · exact .inr (.inl hover)
    right
    right
    intro target htarget hid
    by_contra heligible
    rw [Bool.not_eq_false] at heligible
    refine hkeeps ⟨hlast, fun heq => h heq.symm, by omega, by omega, ?_⟩
    rw [List.any_eq_true]
    refine ⟨target, htarget, ?_⟩
    rw [heligible, Bool.and_true]
    exact decide_eq_true hid

/-- A selection is added to the history. -/
theorem Follows.picked {cfg : Adaptive F} {past : List (Selection F)} {input : Input F}
    {now : Int} {targetID : String} {score : F} (h : Follows cfg m past)
    (hpicked : Picked m m' input now targetID score) (hpast : past ≠ [] → since past ≤ now) :
    Follows cfg m' (⟨now, targetID, input.targets⟩ :: past) := by
  have hnamed : targetID ≠ "" := by
    rw [hpicked.target_eq]
    exact cooled_ne_empty hpicked.found
  have hall : ∀ s ∈ (⟨now, targetID, input.targets⟩ : Selection F) :: past, s.targetID ≠ "" := by
    intro s hs
    obtain rfl | hs := List.mem_cons.mp hs
    · exact hnamed
    · exact h.named s hs
  have hconfig : m'.config.adaptive = cfg := by
    rw [hpicked.config]
    exact h.config
  cases past with
  | nil =>
      have hlast : m.adaptiveLastTargetID = "" := h.lastTargetID
      obtain ⟨hat, hswitches⟩ := hpicked.switched (by rw [hlast]; exact hnamed)
      rw [if_neg fun hne => hne hlast] at hswitches
      exact ⟨hconfig, hpicked.lastTargetID, fun _ => hat, hswitches.trans h.switches, hall, trivial⟩
  | cons s past =>
      have hlast : m.adaptiveLastTargetID = s.targetID := h.lastTargetID
      have hlastNamed : m.adaptiveLastTargetID ≠ "" := by
        rw [hlast]
        exact h.named s List.mem_cons_self
      have hlastAt := h.lastAt (List.cons_ne_nil s past)
      by_cases hsame : targetID = s.targetID
      · obtain ⟨hat, hswitches⟩ := hpicked.kept (hsame.trans hlast.symm)
        refine ⟨hconfig, hpicked.lastTargetID, fun _ => ?_, ?_, hall, ?_, h.cooled⟩
        · rw [since, if_pos hsame, hat, hlastAt]
        · rw [changes, if_pos hsame, hswitches, h.switches, Nat.zero_add]
        · exact fun hne => absurd hsame hne
      · have hne : targetID ≠ m.adaptiveLastTargetID := by
          rw [hlast]
          exact hsame
        obtain ⟨hat, hswitches⟩ := hpicked.switched hne
        rw [if_pos hlastNamed] at hswitches
        refine ⟨hconfig, hpicked.lastTargetID, fun _ => ?_, ?_, hall, ?_, h.cooled⟩
        · rw [since, if_neg hsame, hat]
        · rw [changes, if_neg hsame, hswitches, h.switches, Nat.add_comm]
        · intro _
          rw [hpicked.target_eq, h.config] at hne
          have hsince := hpast (List.cons_ne_nil s past)
          obtain hzero | hover | hgone := of_cooled_ne hlastNamed hne
          · left
            show cfg.switchCooldown ≤ now - since (s :: past)
            omega
          · left
            rw [hlastAt] at hover
            exact hover
          · right
            rw [hlast] at hgone
            exact hgone

/-- One operation adds what it selects to the history. -/
theorem Follows.step {cfg : Adaptive F} {past : List (Selection F)} (h : Follows cfg m past)
    {op : Op F} (hop : keepsConfig op = true)
    (hclock : past ≠ [] → ∀ time ∈ clock? op, since past ≤ time) :
    Follows cfg (m.step u op) ((m.selection? u op).toList ++ past) := by
  cases op with
  | apply _ => cases hop
  | stopAdaptive reason => exact h.unmoved ⟨rfl, rfl, rfl, rfl, rfl⟩
  | resumeAdaptive => exact h.unmoved ⟨rfl, rfl, rfl, rfl, rfl⟩
  | evaluate input dryRun now later =>
      cases dryRun with
      | true => exact h.unmoved ⟨rfl, rfl, rfl, rfl, rfl⟩
      | false =>
          rw [selection?]
          obtain ⟨hnone, hunmoved⟩ | ⟨hsome, hpicked⟩ := evaluate_cases m u input now later
          · rw [hnone, if_neg Bool.false_ne_true]
            exact h.unmoved hunmoved
          · rw [if_pos hsome]
            exact h.picked hpicked fun hne => hclock hne later rfl

/-! ## Runs -/

/-- The newest selection of a history is the only one that is later than the
rest of it, so the times stay in order. -/
theorem since_step {past : List (Selection F)} {op : Op F} {bound : Int}
    (hop : ∀ time ∈ clock? op, time ≤ bound) (hpast : past ≠ [] → since past ≤ bound)
    (hne : (m.selection? u op).toList ++ past ≠ []) :
    since ((m.selection? u op).toList ++ past) ≤ bound := by
  cases hs : m.selection? u op with
  | none =>
      rw [hs] at hne
      exact hpast hne
  | some s =>
      have htime : s.time ≤ bound := by
        cases op with
        | evaluate input dryRun now later =>
            cases dryRun with
            | true => cases hs
            | false =>
                rw [selection?] at hs
                split at hs
                · cases hs
                  exact hop later rfl
                · cases hs
        | apply _ => cases hs
        | stopAdaptive _ => cases hs
        | resumeAdaptive => cases hs
      cases past with
      | nil => exact htime
      | cons t past =>
          show (if s.targetID = t.targetID then since (t :: past) else s.time) ≤ bound
          split
          · exact hpast (List.cons_ne_nil t past)
          · exact htime

theorem Follows.run {cfg : Adaptive F} {past : List (Selection F)} (h : Follows cfg m past)
    {ops : List (Op F)} (hkeeps : ∀ op ∈ ops, keepsConfig op = true)
    (hclock : (ops.filterMap clock?).Pairwise (· ≤ ·))
    (hpast : past ≠ [] → ∀ time ∈ ops.filterMap clock?, since past ≤ time) :
    Follows cfg (m.run u ops) (history u m past ops) := by
  induction ops generalizing m past with
  | nil => exact h
  | cons op ops ih =>
      rw [List.filterMap_cons] at hclock hpast
      have hnow : past ≠ [] → ∀ time ∈ clock? op, since past ≤ time := by
        intro hne time htime
        refine hpast hne time ?_
        rw [Option.mem_def.mp htime]
        exact List.mem_cons_self
      have hrest : (ops.filterMap clock?).Pairwise (· ≤ ·) := by
        split at hclock
        · exact hclock
        · exact (List.pairwise_cons.mp hclock).2
      refine ih (h.step (hkeeps op List.mem_cons_self) hnow)
        (fun op' hop' => hkeeps op' (List.mem_cons_of_mem op hop')) hrest ?_
      intro hne time htime
      refine since_step ?_ ?_ hne
      · intro now hnow
        rw [Option.mem_def.mp hnow] at hclock
        exact (List.pairwise_cons.mp hclock).1 time htime
      · intro hne
        refine hpast hne time ?_
        split
        · exact htime
        · exact List.mem_cons_of_mem _ htime

omit [Float64 F] in
theorem cooled_split {cfg : Adaptive F} {after before : List (Selection F)} {s t : Selection F}
    (h : Cooled cfg (after ++ s :: t :: before)) (hne : s.targetID ≠ t.targetID) :
    cfg.switchCooldown ≤ s.time - since (t :: before) ∨ s.Gone cfg t.targetID := by
  induction after with
  | nil => exact h.1 hne
  | cons a after ih =>
      refine ih ?_
      cases after with
      | nil => exact h.2
      | cons b after => exact h.2

/-- **The cooldown holds over every run.** Of two successive adaptive decisions
for different targets, the later one comes when the cooldown has passed since the
other target was switched to, or when that target is gone; and the changes are
counted. -/
theorem switch_cooled {u : Unicode} {cfg : Config F} {ops : List (Op F)}
    (hkeeps : ∀ op ∈ ops, keepsConfig op = true)
    (hclock : (ops.filterMap clock?).Pairwise (· ≤ ·)) :
    (∀ after s t before, history u (new cfg) [] ops = after ++ s :: t :: before →
      s.targetID ≠ t.targetID →
        cfg.adaptive.switchCooldown ≤ s.time - since (t :: before) ∨
          s.Gone cfg.adaptive t.targetID) ∧
      ((new cfg).run u ops).adaptiveSwitches = changes (history u (new cfg) [] ops) := by
  have hstart : Follows cfg.adaptive (new cfg) [] :=
    ⟨rfl, rfl, fun hne => absurd rfl hne, rfl, fun s hs => absurd hs List.not_mem_nil, trivial⟩
  have hfollows := @Follows.run _ _ u _ _ _ hstart ops hkeeps hclock fun hne => absurd rfl hne
  refine ⟨?_, hfollows.switches⟩
  intro after s t before hsplit hne
  have hcooled := hfollows.cooled
  rw [hsplit] at hcooled
  exact cooled_split hcooled hne

/-- A request to a service that does well, with two targets of these latencies. -/
def twoTargets (left right : Int) : Input ℚ where
  sloHealthy := true
  errorBudgetRemaining := 1
  errorBudgetBurnRate := 0
  failureRate := 0
  targets :=
    [{ id := "a", observations := 10, latencyMs := left, errorRate := 0, rateLimitRate := 0
       costMicrosPer1K := 0, capabilityScore := 1 },
     { id := "b", observations := 10, latencyMs := right, errorRate := 0, rateLimitRate := 0
       costMicrosPer1K := 0, capabilityScore := 1 }]

/-- The better target changes twice, the second time within the cooldown. -/
def threeEvaluations : List (Op ℚ) :=
  [.evaluate (twoTargets 100 200) false 0 0,
    .evaluate (twoTargets 200 100) false 130000000000 130000000000,
    .evaluate (twoTargets 100 200) false 140000000000 140000000000]

theorem switch_cooled_threeEvaluations :
    (∀ after s t before,
      history ascii (new adaptivePolicy) [] threeEvaluations = after ++ s :: t :: before →
      s.targetID ≠ t.targetID →
        adaptivePolicy.adaptive.switchCooldown ≤ s.time - since (t :: before) ∨
          s.Gone adaptivePolicy.adaptive t.targetID) ∧
      ((new adaptivePolicy).run ascii threeEvaluations).adaptiveSwitches = 1 := by
  have h := @switch_cooled _ _ ascii adaptivePolicy threeEvaluations (by decide) (by decide)
  refine ⟨h.1, h.2.trans ?_⟩
  decide +kernel

end Manager

end RelayLifeline.Policy
