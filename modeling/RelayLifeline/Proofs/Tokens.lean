import RelayLifeline.Lib.Word
import RelayLifeline.Proofs.Schedule

/-!
# The token limit of a continuous task

A task with a token limit adds up what its executions report and is over once
the sum has reached the limit. The sum is a signed word: while no addition wraps
around, it is the sum of the reports, so no execution begins once the reports
have reached the limit. A completion that is not acknowledged takes its report
back, but then the journal takes no other append, and an execution does not
begin without one.

An execution that reports no usage leaves the task paused, whatever was called
while it was under way, and only `Resume` and `RunNow` set a paused task
running.
-/

namespace RelayLifeline.Repeat

open Lib Journal

/-! ## What a turn makes of the sum -/

namespace Task

variable {t : Task} {now : Int} {result : Execution}

@[simp] theorem count_maxTokens : (t.count now result).maxTokens = t.maxTokens := by
  simp only [count]
  split <;> rfl

@[simp] theorem count_tokensUsed : (t.count now result).tokensUsed = t.tokensUsed := by
  simp only [count]
  split <;> rfl

theorem limit_tokens (success : Bool) :
    (t.limit now success).1.maxTokens = t.maxTokens ∧
      (t.limit now success).1.tokensUsed = t.tokensUsed := by
  simp only [limit]
  split_ifs <;> exact ⟨rfl, rfl⟩

theorem settle_maxTokens : (t.settle now result).1.maxTokens = t.maxTokens := by
  simp only [settle]
  split
  · split
    · exact count_maxTokens
    · split
      · exact count_maxTokens
      · exact (limit_tokens _).1.trans count_maxTokens
  · exact (limit_tokens _).1.trans count_maxTokens

/-- An execution of a task with a token limit ends it, or reports no usage and
pauses it, or is added to a sum that stays under the limit. -/
theorem settle_tokens (h : 0 < t.maxTokens) :
    (t.settle now result).1.state.terminal = true ∨
      (result.usageAvailable = false ∧ (t.settle now result).1.tokensUsed = t.tokensUsed) ∨
      (result.usageAvailable = true ∧
        (t.settle now result).1.tokensUsed = t.tokensUsed + result.usageTokens ∧
        t.tokensUsed + result.usageTokens < t.maxTokens) := by
  simp only [settle, count_maxTokens, count_tokensUsed]
  rw [if_pos h]
  split
  · next hmissing => exact .inr (.inl ⟨by simpa using hmissing, rfl⟩)
  · next havailable =>
      split
      · exact .inl rfl
      · next hless =>
          refine .inr (.inr ⟨by simpa using havailable, (limit_tokens _).2, ?_⟩)
          exact Int64.not_le.1 hless

/-- An execution that reports no usage leaves a task with a token limit paused. -/
theorem settle_missing (h : 0 < t.maxTokens) (hmissing : result.usageAvailable = false) :
    (t.settle now result).1.state = .paused := by
  simp only [settle, count_maxTokens]
  rw [if_pos h, if_pos (by simp [hmissing])]

end Task

namespace Service

/-- What the input reports for an execution of the task. -/
def reports (id : String) (s : Service) : Input → Int
  | .finish _ id' result _ =>
      if id' = id ∧ inExecutor s.manager.tasks id ∧ result.usageAvailable then
        result.usageTokens.toInt
      else 0
  | _ => 0

/-- What the executions of the task report along a run. -/
def reported (id : String) : Service → List Input → Int
  | _, [] => 0
  | s, i :: is => reports id s i + reported id (s.step i) is

/-- The input completes an execution of the task, and the sum of its reports
leaves the range of a signed word. -/
def wraps (id : String) (s : Service) : Input → Bool
  | .finish _ id' result _ =>
      id' = id ∧ result.usageAvailable ∧ (s.manager.tasks.get? id).any fun r =>
        r.routine = .executing ∧ !r.task.state.terminal ∧ 0 < r.task.maxTokens ∧
          (2 ^ 63 ≤ r.task.tokensUsed.toInt + result.usageTokens.toInt ∨
            r.task.tokensUsed.toInt + result.usageTokens.toInt < -2 ^ 63)
  | _ => false

variable {s : Service} {i : Input} {id : String}

/-- A journal that refuses what is appended goes on refusing. -/
theorem refuses_step (h : s.manager.refuses = true) : (s.step i).manager.refuses = true := by
  have happend : ∀ (journal : Option (Log Task)) (line : Line Task) (fate : Fate),
      journal.any (fun log => log.degraded) = true →
        (journal.map fun log => (log.append line fate).1).any (fun log => log.degraded) = true := by
    intro journal line fate hrefuses
    obtain ⟨log, hlog, hdegraded⟩ := (Option.any_eq_true _ _).1 hrefuses
    rw [hlog]
    simp [Log.append, hdegraded]
  refine tasks_step (P := fun _ journal => journal.any (fun log => log.degraded) = true) ?_ ?_ ?_ h
  · intro tasks journal r r' h _ _
    exact h
  · intro tasks journal r t routine stamp fate h _ _
    exact happend journal _ fate h
  · intro clk k sourceID input fate _ _ _
    exact ⟨happend _ _ fate h, fun journal h => h⟩

theorem begun_of_refuses (h : s.manager.refuses = true) : (s.step i).begun = s.begun := by
  cases i with
  | begin clk k fate =>
      have hfails : (s.manager.beginExecution clk k fate).2 = false := by
        cases hr : s.manager.tasks.get? k with
        | none => simp only [Manager.beginExecution, hr]
        | some r =>
            simp only [Manager.beginExecution, hr]
            have hlost := (Manager.append_of_refuses clk (r.task.begin clk.now) fate h).1
            split_ifs with _ _ _ _ happended
            any_goals rfl
            rw [hlost] at happended
            cases happended
      rw [step_begin_of_not hfails]
  | create clk k sourceID input fate =>
      simp only [step]
      split <;> rfl
  | _ => rfl

/-- Only an execution of the task reports for it. -/
theorem reports_of_out {r : RuntimeTask} (hr : s.manager.tasks.get? id = some r)
    (h : r.routine ≠ .executing) : reports id s i = 0 := by
  cases i with
  | finish clk k result fate => simp [reports, inExecutor, hr, h]
  | _ => rfl

theorem reports_of_none (h : s.manager.tasks.get? id = none) : reports id s i = 0 := by
  cases i with
  | finish clk k result fate => simp [reports, inExecutor, h]
  | _ => rfl

end Service

/-- The task has no limit, or is over, or cannot be run, or its sum is the total
of its reports and under its limit. -/
def RuntimeTask.Tallied (m : Manager) (total : Int) (r : RuntimeTask) : Prop :=
  0 < r.task.maxTokens → r.task.state.terminal = true ∨ m.refuses = true ∨
    r.task.tokensUsed.toInt = total ∧ total < r.task.maxTokens.toInt

/-- A turn that reports nothing and leaves the sum. -/
theorem RuntimeTask.Tallied.keep {m m' : Manager} {total reports : Int} {r r' : RuntimeTask}
    (h : r.Tallied m total) (hmax : r'.task.maxTokens = r.task.maxTokens)
    (hused : r'.task.tokensUsed = r.task.tokensUsed) (hreports : reports = 0)
    (hover : r.task.state.terminal = true → r'.task.state.terminal = true)
    (hrefuses : m.refuses = true → m'.refuses = true) : r'.Tallied m' (total + reports) := by
  intro hlimit
  rw [hmax] at hlimit ⊢
  rw [hused, hreports, Int.add_zero]
  rcases h hlimit with hterminal | hrefused | hcounted
  · exact .inl (hover hterminal)
  · exact .inr (.inl (hrefuses hrefused))
  · exact .inr (.inr hcounted)

theorem Turn.tallied {s : Service} {i : Service.Input} {r r' : RuntimeTask} (h : Turn s i r r')
    {total : Int} (hr : s.manager.tasks.get? r.task.id = some r)
    (htallied : r.Tallied s.manager total) (hwraps : Service.wraps r.task.id s i = false) :
    r'.Tallied (s.step i).manager (total + Service.reports r.task.id s i) := by
  have hrefuses : s.manager.refuses = true → (s.step i).manager.refuses = true :=
    Service.refuses_step
  -- a task that is over takes no call
  have hnever (P : Prop) (hactive : r.task.state.terminal = false) :
      r.task.state.terminal = true → P := by
    intro hover
    rw [hactive] at hover
    cases hover
  cases h with
  | pauses hactive => exact htallied.keep rfl rfl rfl (hnever _ hactive) hrefuses
  | resumes hactive => exact htallied.keep rfl rfl rfl (hnever _ hactive) hrefuses
  | runsNow hactive => exact htallied.keep rfl rfl rfl (hnever _ hactive) hrefuses
  | cancels => exact htallied.keep rfl rfl rfl id hrefuses
  | waits => exact htallied.keep rfl rfl rfl id hrefuses
  | leaves hout => exact htallied.keep rfl rfl (Service.reports_of_out hr hout) id hrefuses
  | wakes => exact htallied.keep rfl rfl rfl id hrefuses
  | fires => exact htallied.keep rfl rfl rfl id hrefuses
  | declines => exact htallied.keep rfl rfl rfl id hrefuses
  | begins => exact htallied.keep rfl rfl rfl id hrefuses
  | settles hactive hid hexecuting =>
      rename_i clk id result fate canceled
      intro hlimit
      rw [Task.settle_maxTokens] at hlimit ⊢
      rcases htallied hlimit with hterminal | hrefused | ⟨hused, hless⟩
      · exact hnever _ hactive hterminal
      · exact .inr (.inl (hrefuses hrefused))
      · rcases @Task.settle_tokens r.task clk.now result hlimit with
          hterminal | ⟨hmissing, hsame⟩ | ⟨havailable, hadded, hstill⟩
        · exact .inl hterminal
        · refine .inr (.inr ?_)
          rw [hsame, show Service.reports r.task.id s (.finish clk id result fate) = 0 by
            simp [Service.reports, hmissing], Int.add_zero]
          exact ⟨hused, hless⟩
        · -- the addition does not wrap around, so the word is the sum
          refine .inr (.inr ?_)
          have hin : Service.inExecutor s.manager.tasks r.task.id = true := by
            simp [Service.inExecutor, hr, hexecuting]
          rw [hadded, show Service.reports r.task.id s (.finish clk id result fate) =
            result.usageTokens.toInt from if_pos ⟨hid.symm, hin, havailable⟩, ← hused]
          have hfits : ¬(2 ^ 63 ≤ r.task.tokensUsed.toInt + result.usageTokens.toInt) ∧
              ¬(r.task.tokensUsed.toInt + result.usageTokens.toInt < -2 ^ 63) := by
            simp only [Service.wraps, ← hid, hr, havailable, hexecuting, hactive, hlimit,
              Option.any_some] at hwraps
            simpa [not_or] using hwraps
          have hsum := Word.toInt_add_of_fits (Int.not_lt.1 hfits.2) (Int.not_le.1 hfits.1)
          refine ⟨hsum, ?_⟩
          rw [← hsum]
          exact Int64.lt_iff_toInt_lt.1 hstill
  | degrades _ hrefused => exact fun _ => .inr (.inl hrefused)
  | ends _ hover => exact fun _ => .inl hover

namespace Service

variable {s : Service} {i : Input} {id : String}

/-- The goroutine of a task leaves the executor when the execution ends. -/
theorem finish_deciding {clk : Clock} {result : Execution} {fate : Fate} {r : RuntimeTask}
    (hr : s.manager.tasks.get? id = some r) (hexecuting : r.routine = .executing) :
    ∃ r', (s.step (.finish clk id result fate)).manager.tasks.get? id = some r' ∧
      r'.routine = .deciding := by
  rcases s.manager.finishExecution_cases clk id result fate with
    ⟨-, hidle⟩ | ⟨-, r', -, -, rfl, hdeciding, htasks⟩
  · exact absurd hexecuting (hidle r hr)
  · refine ⟨r', ?_, hdeciding⟩
    rw [show (s.step (.finish clk r'.task.id result fate)).manager.tasks = _ from htasks]
    exact Table.get?_set_self

/-- So it turns the record. -/
theorem finish_turn {clk : Clock} {result : Execution} {fate : Fate} {r : RuntimeTask}
    (hr : s.manager.tasks.get? id = some r) (hexecuting : r.routine = .executing) :
    ∃ r', (s.step (.finish clk id result fate)).manager.tasks.get? id = some r' ∧
      Turn s (.finish clk id result fate) r r' := by
  have hturned := turns s (.finish clk id result fate) id
  rw [hr] at hturned
  rcases hturned.exists_of_some with hsame | hturn
  · obtain ⟨r', hr', hdeciding⟩ := @finish_deciding s id clk result fate r hr hexecuting
    rw [hsame] at hr'
    obtain rfl := Option.some.inj hr'
    rw [hexecuting] at hdeciding
    cases hdeciding
  · exact hturn

/-- An input that leaves the record of a task reports nothing for it. -/
theorem reports_of_same {r : RuntimeTask} (hr : s.manager.tasks.get? id = some r)
    (hsame : (s.step i).manager.tasks.get? id = some r) : reports id s i = 0 := by
  by_cases hexecuting : r.routine = .executing
  · cases i with
    | finish clk k result fate =>
        by_cases heq : k = id
        · subst heq
          obtain ⟨r', hr', hdeciding⟩ := @finish_deciding s k clk result fate r hr hexecuting
          rw [hsame] at hr'
          obtain rfl := Option.some.inj hr'
          rw [hexecuting] at hdeciding
          cases hdeciding
        · exact if_neg fun h => heq h.1
    | _ => rfl
  · exact reports_of_out hr hexecuting

/-! ## The limit -/

/-- The task of an identifier is tallied, and no task is, where there is none. -/
def Tally (id : String) (total : Int) (s : Service) : Prop :=
  (∀ r, s.manager.tasks.get? id = some r → r.Tallied s.manager total) ∧
    (s.manager.tasks.get? id = none → total = 0)

theorem Tally.step {total : Int} (h : Tally id total s) (hwraps : wraps id s i = false) :
    Tally id (total + reports id s i) (s.step i) := by
  have hturned := turns s i id
  refine ⟨fun r' hr' => ?_, fun hnone => ?_⟩
  · rw [hr'] at hturned
    rcases hturned.of_some with hsame | ⟨r, hr, hturn⟩ | ⟨hnone, clk, sourceID, input, fate, rfl, -, rfl⟩
    · exact (h.1 r' hsame).keep rfl rfl (reports_of_same hsame hr') (fun h => h) refuses_step
    · have hid : r.task.id = id := Table.key_of_get? hr
      subst hid
      exact hturn.tallied hr (h.1 r hr) hwraps
    · intro hlimit
      refine .inr (.inr ⟨?_, ?_⟩)
      · rw [h.2 hnone, reports_of_none hnone]
        rfl
      · rw [h.2 hnone, reports_of_none hnone]
        exact Int64.lt_iff_toInt_lt.1 hlimit
  · rw [hnone] at hturned
    generalize hbefore : s.manager.tasks.get? id = before at hturned
    generalize hafter : (none : Option RuntimeTask) = after at hturned
    cases hturned with
    | stays =>
        have hbefore : s.manager.tasks.get? id = none := hbefore.trans hafter.symm
        rw [h.2 hbefore, reports_of_none hbefore]
        rfl
    | turn => cases hafter
    | starts => cases hafter

theorem Tally.run {total : Int} {is : List Input} (h : Tally id total s)
    (hwraps : Along Service.step (fun s i => wraps id s i = false) s is) :
    Tally id (total + reported id s is) (s.run is) := by
  induction is generalizing s total with
  | nil =>
      rw [show reported id s [] = 0 from rfl, Int.add_zero]
      exact h
  | cons i is ih =>
      rw [show reported id s (i :: is) = reports id s i + reported id (s.step i) is from rfl,
        ← Int.add_assoc]
      exact ih (h.step hwraps.1) hwraps.2

theorem Started.tally (h : s.Started) : Tally id 0 s := by
  refine ⟨fun r hr _ => ?_, fun _ => rfl⟩
  cases h with
  | volatile => cases hr
  | restored hjournal hnew =>
      rename_i journal rank answers m
      obtain ⟨-, hover⟩ := Manager.new_spec rank answers hjournal
      rw [hnew] at hover
      exact .inl (hover rfl r (Table.mem_of_get? hr))

/-! ## Missing usage -/

/-- The task of an identifier is not running, and has had `n` executions begun. -/
structure Halted (id : String) (n : Nat) (s : Service) : Prop where
  task : ∃ r, s.manager.tasks.get? id = some r ∧ r.task.state ≠ .running
  begun : s.begun.count id = n

theorem Halted.step {n : Nat} (h : Halted id n s) (hrestarts : restarts id s i = false) :
    Halted id n (s.step i) := by
  obtain ⟨⟨r, hr, hhalted⟩, hbegun⟩ := h
  refine ⟨?_, by rw [begun_step hr hhalted, hbegun]⟩
  have hturned := turns s i id
  rw [hr] at hturned
  rcases hturned.exists_of_some with hsame | ⟨r', hr', hturn⟩
  · exact ⟨r, hsame, hhalted⟩
  · refine ⟨r', hr', ?_⟩
    have hid : r.task.id = id := Table.key_of_get? hr
    subst hid
    cases hturn with
    | pauses => simp [Manager.signal, Task.changeState]
    | resumes _ hid hok => simp [restarts, resumes, hid, hok] at hrestarts
    | runsNow _ hid hok => simp [restarts, hid, hok] at hrestarts
    | begins hrunning => exact absurd hrunning hhalted
    | settles => exact fun hrunning => hhalted (Task.settle_running hrunning)
    | degrades => simp [Task.degraded]
    | ends _ hover => exact State.ne_running_of_terminal hover
    | _ => exact hhalted

/-- An execution that reports no usage leaves its task halted. -/
theorem finish_halted {clk : Clock} {result : Execution} {fate : Fate} {r : RuntimeTask}
    (hr : s.manager.tasks.get? id = some r) (hexecuting : r.routine = .executing)
    (hlimit : 0 < r.task.maxTokens) (hmissing : result.usageAvailable = false) :
    Halted id (s.begun.count id) (s.step (.finish clk id result fate)) := by
  obtain ⟨r', hr', hturn⟩ := @finish_turn s id clk result fate r hr hexecuting
  refine ⟨⟨r', hr', ?_⟩, rfl⟩
  cases hturn with
  | leaves hout => exact absurd hexecuting hout
  | settles =>
      rw [Task.settle_missing hlimit hmissing]
      simp
  | degrades => simp [Task.degraded]
  | ends _ hover => exact State.ne_running_of_terminal hover

/-- In a run in which no completion takes the sum of a task's reports out of the
range of a signed word, no execution of the task begins once the reports have
reached its limit, and in every run none begins after one that reports no usage
until the task takes `Resume` or `RunNow`. -/
theorem begun_of_spent (h : s.Started) (front rest : List Input) :
    (Along step (fun s i => wraps id s i = false) s front →
      ∀ r, (s.run front).manager.tasks.get? id = some r → 0 < r.task.maxTokens →
        r.task.maxTokens.toInt ≤ reported id s front →
        (s.run (front ++ rest)).begun.count id = (s.run front).begun.count id) ∧
    ∀ clk result fate r, (s.run front).manager.tasks.get? id = some r → r.routine = .executing →
      0 < r.task.maxTokens → result.usageAvailable = false →
      Along step (fun s i => restarts id s i = false)
        (s.run (front ++ [.finish clk id result fate])) rest →
      (s.run (front ++ .finish clk id result fate :: rest)).begun.count id =
        (s.run front).begun.count id := by
  refine ⟨fun hwraps r hr hlimit hspent => ?_, ?_⟩
  · rw [show s.run (front ++ rest) = rest.foldl step (s.run front) from List.foldl_append ..]
    have htally := (h.tally.run hwraps).1 r hr hlimit
    rw [Int.zero_add] at htally
    rcases htally with hover | hrefuses | ⟨-, hless⟩
    · exact (foldl_invariant (fun _ i h => Ended.step i h hover) ⟨⟨r, hr, rfl⟩, rfl⟩ rest).begun
    · exact (foldl_invariant
        (P := fun s' : Service => s'.manager.refuses = true ∧
          s'.begun.count id = (s.run front).begun.count id)
        (fun _ _ h => ⟨refuses_step h.1, by rw [begun_of_refuses h.1, h.2]⟩)
        ⟨hrefuses, rfl⟩ rest).2
    · omega
  · intro clk result fate r hr hexecuting hlimit hmissing hquiet
    have hhalted := @finish_halted (s.run front) id clk result fate r hr hexecuting hlimit hmissing
    rw [show s.run (front ++ .finish clk id result fate :: rest) =
      rest.foldl step ((s.run front).step (.finish clk id result fate)) from List.foldl_append ..]
    rw [show s.run (front ++ [.finish clk id result fate]) =
      (s.run front).step (.finish clk id result fate) from List.foldl_append ..] at hquiet
    exact (Along.invariant (fun _ _ h hi => Halted.step h hi) hhalted hquiet).begun

/-- An execution of a task with a limit of ten tokens, from its first turn on or
from the next. -/
def executes (minutes : Int) (h : minute ≤ minutes * minute) (usage : Int64) : List Input :=
  let clk : Clock := ⟨minutes * minute, 0, h⟩
  [.next clk "task" .written, .fires clk.now "task", .begin clk "task" .written,
    .finish clk "task" ⟨"execution", true, 200, "", 0, 0, usage, true⟩ .written]

def created : List Input :=
  [.registerSource "source",
    .create ⟨100 * minute, 0, started_hundred⟩ "task" "source"
      ⟨10 * 1000000000, 0, "preserve", true, 0, 0, 0, 10⟩ .written]

/-- An execution that reports no usage. -/
def reportsNothing : Input :=
  .finish ⟨100 * minute, 0, started_hundred⟩ "task" ⟨"execution", true, 200, "", 0, 0, 0, false⟩ .written

theorem begun_of_spent_tenTokens :
    (run { manager := {} }
        (created ++ executes 100 (by decide) 6 ++ executes 101 (by decide) 6 ++
          executes 102 (by decide) 6)).begun.count "task" = 2 ∧
      (run { manager := {} }
        (created ++ (executes 100 (by decide) 6).take 3 ++
          reportsNothing :: executes 101 (by decide) 6)).begun.count "task" = 1 := by
  constructor
  · have hspent : ((run { manager := {} }
        (created ++ executes 100 (by decide) 6 ++ executes 101 (by decide) 6)).manager.tasks.get?
          "task").any (fun r => 0 < r.task.maxTokens ∧ r.task.maxTokens.toInt ≤
            reported "task" { manager := {} }
              (created ++ executes 100 (by decide) 6 ++ executes 101 (by decide) 6)) = true := by
      decide +kernel
    obtain ⟨r, hr, hr'⟩ := (Option.any_eq_true _ _).1 hspent
    rw [decide_eq_true_eq] at hr'
    rw [(begun_of_spent .volatile _ _).1 (by decide +kernel) r hr hr'.1 hr'.2]
    decide +kernel
  · have hexecuting : ((run { manager := {} }
        (created ++ (executes 100 (by decide) 6).take 3)).manager.tasks.get? "task").any (fun r =>
          r.routine = .executing ∧ 0 < r.task.maxTokens) = true := by
      decide +kernel
    obtain ⟨r, hr, hr'⟩ := (Option.any_eq_true _ _).1 hexecuting
    rw [decide_eq_true_eq] at hr'
    exact ((begun_of_spent .volatile _ _).2 _ _ _ r hr hr'.1 hr'.2 rfl (by decide +kernel)).trans
      (by decide +kernel)

/-- A second report takes the sum to the least word there is: the reports have
reached the limit, and a third execution begins. -/
theorem begins_when_spent :
    let spent : List Input :=
      created ++ executes 100 (by decide) 1 ++ executes 101 (by decide) 9223372036854775807
    ((run { manager := {} } spent).manager.tasks.get? "task").any (fun r =>
        0 < r.task.maxTokens ∧ r.task.tokensUsed.toInt = -9223372036854775808 ∧
          r.task.maxTokens.toInt ≤ reported "task" { manager := {} } spent) = true ∧
      (run { manager := {} } spent).begun.count "task" = 2 ∧
      (run { manager := {} } (spent ++ executes 102 (by decide) 1)).begun.count "task" = 3 := by
  decide +kernel

end Service

end RelayLifeline.Repeat
