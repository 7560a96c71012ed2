import RelayLifeline.Proofs.Metrics

/-!
# The load of every minute

A minute in which nothing was written shows the load that was carried into it,
and one in which something was written the highest load from its beginning on.
The loop of `Metrics` carries the load from one recorded minute to the next as
it should. What it begins with is the load of the newest bucket before the
window, which need not be the bucket of the newest minute before the window:
that may have been taken by a minute inside it. And a bucket that is opened by
`SetLoad` does not see the load that was there before, because it has been
replaced already.
-/

namespace RelayLifeline.Monitoring

open Lib

/-- No component is higher. -/
def Load.le (a b : Load) : Prop :=
  a.active ≤ b.active ∧ a.queued ≤ b.queued ∧ a.waiting ≤ b.waiting ∧ a.requesting ≤ b.requesting

instance (a b : Load) : Decidable (a.le b) := inferInstanceAs (Decidable (_ ∧ _))

/-- What was written before the minute. -/
def before (writes : List Write) (p : Int) : List Write := writes.filter fun w => w.time < p

/-- The load a point should show. -/
def shownLoad (writes : List Write) (p : Int) : Load :=
  if inMinute writes p = [] then loadAfter (before writes p)
  else raise (loadAfter (before writes p)) (inMinute writes p)

/-- No later minute has taken the place of the bucket. -/
def Keeps (writes : List Write) (w : Write) : Prop :=
  ∀ v ∈ writes, v.slot = w.slot → v.minute ≤ w.minute

instance (writes : List Write) (w : Write) : Decidable (Keeps writes w) :=
  inferInstanceAs (Decidable (∀ v ∈ writes, _))

/-- The load at the end of the newest minute before `p` whose bucket is left. -/
def knownLoad (writes : List Write) (p : Int) : Load :=
  match ((before writes p).filter fun w => Keeps writes w).getLast? with
  | none => {}
  | some w => loadAfter (writes.filter fun v => v.minute ≤ w.minute)

/-! ## The highest load -/

theorem maximizeLoad_assoc (a b c : Load) :
    maximizeLoad a (maximizeLoad b c) = maximizeLoad (maximizeLoad a b) c := by
  simp only [maximizeLoad, Load.mk.injEq]
  omega

theorem maximizeLoad_self (a : Load) : maximizeLoad a a = a := by
  cases a
  simp [maximizeLoad]

theorem maximizeLoad_eq_iff {a b : Load} : maximizeLoad a b = b ↔ a.le b := by
  cases a
  cases b
  simp only [maximizeLoad, Load.mk.injEq, Load.le]
  omega

/-- A load from before raises the end by itself. -/
theorem raise_maximizeLoad (a b : Load) (writes : List Write) :
    raise (maximizeLoad a b) writes = maximizeLoad a (raise b writes) := by
  induction writes using List.reverseRecOn with
  | nil => rfl
  | append_singleton writes w ih =>
      rw [raise_push, raise_push, ih]
      cases w.call with
      | setLoad load => exact (maximizeLoad_assoc a (raise b writes) load).symm
      | _ => rfl

/-- The peak of a bucket is the highest load, unless it was opened by a call that
lowered the load for good. -/
theorem raise_opened_iff (start : Load) (w : Write) (rest : List Write) :
    raise (opened start (w :: rest)) (w :: rest) = raise start (w :: rest) ↔
      ∀ load, w.call = .setLoad load → start.le (raise load rest) := by
  obtain ⟨time, call⟩ := w
  cases call with
  | setLoad load =>
      have hleft : raise (opened start (⟨time, .setLoad load⟩ :: rest))
          (⟨time, .setLoad load⟩ :: rest) = raise load rest := by
        show raise (maximizeLoad load load) rest = raise load rest
        rw [maximizeLoad_self]
      have hright : raise start (⟨time, .setLoad load⟩ :: rest) =
          maximizeLoad start (raise load rest) := raise_maximizeLoad start load rest
      rw [hleft, hright, eq_comm, maximizeLoad_eq_iff]
      constructor
      · intro hle other heq
        cases heq
        exact hle
      · intro h
        exact h load rfl
  | _ => exact iff_of_true rfl fun load hcall => by cases hcall

/-! ## The newest bucket -/

/-- A bucket that the search before the minute may take. -/
def Older (m : Int) (b : MinuteBucket) : Prop := b.valid = true ∧ b.minute < m

/-- The search has found the newest of the older buckets, if there are any. -/
structure IsNewest (m : Int) (buckets : List MinuteBucket) (selected : Option MinuteBucket) :
    Prop where
  mem : ∀ b ∈ selected, b ∈ buckets ∧ Older m b
  newest : ∀ c ∈ buckets, Older m c → ∃ b ∈ selected, c.minute ≤ b.minute

theorem newer_of_older {m : Int} {b : MinuteBucket} (selected : Option MinuteBucket)
    (h : Older m b) :
    Store.newer m selected b =
      if selected.any (fun s => b.minute ≤ s.minute) then selected else some b := by
  have hnot : ¬m ≤ b.minute := Int.not_le.2 h.2
  rw [Store.newer, h.1]
  simp [hnot]

theorem newer_of_not_older {m : Int} {b : MinuteBucket} (selected : Option MinuteBucket)
    (h : ¬Older m b) : Store.newer m selected b = selected := by
  rw [Store.newer, if_pos]
  rw [Older, not_and_or, Bool.not_eq_true, Int.not_lt] at h
  rcases h with hvalid | hminute
  · rw [hvalid]
    rfl
  · rw [decide_eq_true hminute, Bool.or_true, Bool.true_or]

theorem isNewest_newer {m : Int} {buckets : List MinuteBucket} {selected : Option MinuteBucket}
    (h : IsNewest m buckets selected) (b : MinuteBucket) :
    IsNewest m (buckets ++ [b]) (Store.newer m selected b) := by
  have hkeep : (Older m b → ∃ s ∈ selected, b.minute ≤ s.minute) →
      IsNewest m (buckets ++ [b]) selected := by
    intro hb
    refine ⟨fun s hs => ?_, fun c hc hold => ?_⟩
    · obtain ⟨hmem, hs⟩ := h.mem s hs
      exact ⟨List.mem_append_left _ hmem, hs⟩
    · rcases List.mem_append.1 hc with hc | hc
      · exact h.newest c hc hold
      · rw [List.mem_singleton.1 hc] at hold ⊢
        exact hb hold
  by_cases hb : Older m b
  · rw [newer_of_older selected hb]
    split
    · next hany =>
        obtain ⟨s, hs, hle⟩ := (Option.any_eq_true _ _).1 hany
        exact hkeep fun _ => ⟨s, hs, of_decide_eq_true hle⟩
    · next hany =>
        refine ⟨fun s hs => ?_, fun c hc hold => ⟨b, rfl, ?_⟩⟩
        · cases hs
          exact ⟨by simp, hb⟩
        · rcases List.mem_append.1 hc with hc | hc
          · obtain ⟨s, hs, hle⟩ := h.newest c hc hold
            have hlater : ¬b.minute ≤ s.minute := fun hbs =>
              hany ((Option.any_eq_true _ _).2 ⟨s, hs, decide_eq_true hbs⟩)
            omega
          · rw [List.mem_singleton.1 hc]
  · rw [newer_of_not_older selected hb]
    exact hkeep fun hold => absurd hold hb

/-- The loop of `loadBeforeLocked`. -/
theorem isNewest_foldl (m : Int) (buckets : List MinuteBucket) :
    IsNewest m buckets (buckets.foldl (Store.newer m) none) := by
  induction buckets using List.reverseRecOn with
  | nil => exact ⟨fun _ hb => absurd hb (by simp), fun _ hc => absurd hc List.not_mem_nil⟩
  | append_singleton buckets b ih =>
      rw [List.foldl_append]
      exact isNewest_newer ih b

variable {writes : List Write} {s : Store}

theorem exists_newestBucket (s : Store) (m : Int) :
    ∃ selected, IsNewest m ((List.range minuteBucketCount).map s.buckets) selected ∧
      s.loadBefore m = (selected.map MinuteBucket.load).getD {} := by
  have hnewest := isNewest_foldl m ((List.range minuteBucketCount).map s.buckets)
  unfold Store.loadBefore
  generalize ((List.range minuteBucketCount).map s.buckets).foldl (Store.newer m) none = selected
    at hnewest ⊢
  refine ⟨selected, hnewest, ?_⟩
  cases selected <;> rfl

/-- What is written by the end of a minute. -/
theorem writesBefore_minuteWrites (hmono : Monotone writes) (m : Int) :
    writesBefore writes m ++ minuteWrites writes m = writes.filter fun w => w.minute ≤ m := by
  have hle : ∀ w ∈ writes.filter fun w => w.minute ≤ m, w.minute ≤ m := fun w hw =>
    of_decide_eq_true (List.mem_filter.1 hw).2
  rw [← writesBefore_append (hmono.sublist List.filter_sublist) hle, writesBefore, writesBefore,
    minuteWrites, minuteWrites, List.filter_filter, List.filter_filter]
  congr 1
  · refine List.filter_congr fun w _ => ?_
    rw [Bool.eq_iff_iff, Bool.and_eq_true]
    rw [decide_eq_true_eq, decide_eq_true_eq, Write.minute]
    omega
  · refine List.filter_congr fun w _ => ?_
    rw [Bool.eq_iff_iff, Bool.and_eq_true]
    rw [decide_eq_true_eq, decide_eq_true_eq, Write.minute]
    omega

theorem slot_lt (w : Write) : w.slot < minuteBucketCount := by
  rw [Write.slot, bucketIndex_eq, minuteBucketCount]
  omega

/-- A bucket in the ring is that of a write that keeps it. -/
theorem Mirrors.kept_of_valid (h : Mirrors s writes) (hmono : Monotone writes) {i : Nat}
    (hvalid : (s.buckets i).valid = true) :
    ∃ w ∈ writes, Keeps writes w ∧ s.buckets i = bucketOf writes w.minute := by
  by_cases hused : ∃ w ∈ writes, w.slot = i
  · obtain ⟨w, hw, hslot, hnewest⟩ := exists_newest hmono hused
    have hkeeps : Keeps writes w := fun v hv heq => hnewest v hv (heq.trans hslot)
    exact ⟨w, hw, hkeeps, hslot ▸ h.full w hw hkeeps⟩
  · rw [h.empty i fun w hw heq => hused ⟨w, hw, heq⟩] at hvalid
    cases hvalid

/-- The minute of a write is before the one that begins there. -/
theorem minute_lt_iff (hdated : ∀ w ∈ writes, w.Dated) {p : Int}
    (hwhole : p % minute = 0) {w : Write}
    (hw : w ∈ writes) : w.minute < unixMinute p ↔ w.time < p := by
  rw [(hdated w hw).minute_eq, unixMinute_of_whole hwhole, minuteNumber_lt_iff hwhole]

theorem writesBefore_eq (hdated : ∀ w ∈ writes, w.Dated) {p : Int} (hwhole : p % minute = 0) :
    writesBefore writes (unixMinute p) = before writes p :=
  List.filter_congr fun _ hw => decide_eq_decide.2 (minute_lt_iff hdated hwhole hw)

/-- What the search before a minute finds. -/
theorem Mirrors.loadBefore_eq (h : Mirrors s writes) (hmono : Monotone writes)
    (hdated : ∀ w ∈ writes, w.Dated) {p : Int} (hwhole : p % minute = 0) :
    s.loadBefore (unixMinute p) = knownLoad writes p := by
  obtain ⟨selected, hnewest, hload⟩ := exists_newestBucket s (unixMinute p)
  have holder : ∀ b ∈ (List.range minuteBucketCount).map s.buckets, Older (unixMinute p) b →
      ∃ v ∈ (before writes p).filter fun w => Keeps writes w, b = bucketOf writes v.minute := by
    intro b hb hold
    obtain ⟨i, -, rfl⟩ := List.mem_map.1 hb
    obtain ⟨v, hv, hkeeps, heq⟩ := h.kept_of_valid hmono hold.1
    have hlt : v.minute < unixMinute p := by
      have := hold.2
      rwa [heq] at this
    refine ⟨v, ?_, heq⟩
    rw [List.mem_filter, before, List.mem_filter]
    exact ⟨⟨hv, decide_eq_true ((minute_lt_iff hdated hwhole hv).1 hlt)⟩, decide_eq_true hkeeps⟩
  rw [hload, knownLoad]
  rcases List.eq_nil_or_concat' ((before writes p).filter fun w => Keeps writes w) with
    hnil | ⟨front, w, hlast⟩
  · -- no bucket before the minute is left
    rw [hnil] at holder ⊢
    cases selected with
    | none => rfl
    | some b =>
        obtain ⟨hb, hbold⟩ := hnewest.mem b rfl
        obtain ⟨v, hv, -⟩ := holder b hb hbold
        exact absurd hv List.not_mem_nil
  · have hw : w ∈ (before writes p).filter fun w => Keeps writes w := by
      rw [hlast]
      simp
    obtain ⟨hbefore, hkeeps⟩ := List.mem_filter.1 hw
    obtain ⟨hmem, htime⟩ := List.mem_filter.1 hbefore
    have hbucket := h.full w hmem (of_decide_eq_true hkeeps)
    have hin : bucketOf writes w.minute ∈ (List.range minuteBucketCount).map s.buckets :=
      List.mem_map.2 ⟨w.slot, List.mem_range.2 (slot_lt w), hbucket⟩
    have hold : Older (unixMinute p) (bucketOf writes w.minute) :=
      ⟨rfl, (minute_lt_iff hdated hwhole hmem).2 (of_decide_eq_true htime)⟩
    have hsublist : Monotone (front ++ [w]) := by
      rw [← hlast]
      exact (hmono.sublist List.filter_sublist).sublist List.filter_sublist
    rw [hlast] at holder ⊢
    obtain ⟨b, hsome, hle⟩ := hnewest.newest _ hin hold
    obtain ⟨hb, hbold⟩ := hnewest.mem b hsome
    obtain ⟨v, hv, rfl⟩ := holder b hb hbold
    have hminute : v.minute = w.minute := Int.le_antisymm (hsublist.le_last hv) hle
    rw [List.getLast?_append, hsome]
    show (bucketOf writes v.minute).load = _
    rw [hminute, bucketOf]
    exact congrArg loadAfter (writesBefore_minuteWrites hmono w.minute)

/-! ## The series -/

theorem sumsUpTo_zero (s : Store) (now window : Int) :
    (sumsUpTo s now window 0).load = s.loadBefore (unixMinute (windowStart now window)) := by
  rw [sumsUpTo, List.range_zero, List.map_nil, List.foldl_nil]

theorem windowTime_zero (now window : Int) : windowTime now window 0 = windowStart now window := by
  unfold windowTime
  omega

/-- The point of the window's minute, by what was written in it. -/
def pointAt (s : Store) (writes : List Write) (now window : Int) (n : Nat) : Point where
  time := windowTime now window n
  counters := counts (inMinute writes (windowTime now window n))
  load :=
    if inMinute writes (windowTime now window n) = [] then (sumsUpTo s now window n).load
    else raise (opened (loadAfter (before writes (windowTime now window n)))
      (inMinute writes (windowTime now window n))) (inMinute writes (windowTime now window n))

/-- What was written before the next minute of the window. -/
theorem before_succ (hmono : Monotone writes) (now window : Int) (n : Nat) :
    before writes (windowTime now window (n + 1)) =
      before writes (windowTime now window n) ++ inMinute writes (windowTime now window n) := by
  have hsplit := filter_append_filter (hmono.sublist (List.filter_sublist
    (p := fun w => w.time < windowTime now window (n + 1)))) (windowTime now window n)
  have hwhole := windowTime_whole now window n
  rw [before, ← hsplit, List.filter_filter, List.filter_filter]
  congr 1
  · refine List.filter_congr fun w _ => ?_
    rw [Bool.eq_iff_iff, Bool.and_eq_true]
    simp only [decide_eq_true_eq]
    unfold windowTime minute
    omega
  · refine List.filter_congr fun w _ => ?_
    rw [Bool.eq_iff_iff, Bool.and_eq_true]
    simp only [decide_eq_true_eq]
    unfold windowTime truncateMinute minute at *
    omega

section Series

variable (h : Mirrors s writes) (hmono : Monotone writes) (hdated : ∀ w ∈ writes, w.Dated)
  {now window : Int} (hnow : ∀ w ∈ writes, w.time ≤ now)

include h hmono hdated hnow

/-- A minute of the window adds its point and hands its load on. -/
theorem addPoint_window {n : Nat} (hn : n < windowMinutes window) :
    (sumsUpTo s now window (n + 1)).series =
        (sumsUpTo s now window n).series ++ [pointAt s writes now window n] ∧
      (sumsUpTo s now window (n + 1)).load =
        if inMinute writes (windowTime now window n) = [] then (sumsUpTo s now window n).load
        else loadAfter (before writes (windowTime now window (n + 1))) := by
  have hwhole := windowTime_whole now window n
  have hoffers := h.offers hmono hdated hnow hn
  rw [Offers] at hoffers
  rw [sumsUpTo_succ, pointAt]
  split at hoffers
  · next hnil =>
      rw [addPoint_of_nil _ hoffers, if_pos hnil, if_pos hnil, hnil]
      exact ⟨rfl, rfl⟩
  · next hopen =>
      rw [addPoint_of_some _ hoffers, if_neg hopen, if_neg hopen, before_succ hmono, bucketOf,
        minuteWrites_eq hdated hwhole, writesBefore_eq hdated hwhole]
      exact ⟨rfl, rfl⟩

theorem series_upTo {n : Nat} (hn : n ≤ windowMinutes window) :
    (sumsUpTo s now window n).series = (List.range n).map (pointAt s writes now window) := by
  induction n with
  | zero => rfl
  | succ n ih =>
      rw [(addPoint_window h hmono hdated hnow hn).1, ih (Nat.le_of_succ_le hn), List.range_succ,
        List.map_append]
      rfl

/-- The load that is carried is the one set last, in every minute in which it
shows, if it is so in the first. -/
theorem carried_upTo
    (hfirst : inMinute writes (windowStart now window) ≠ [] ∨
      s.loadBefore (unixMinute (windowStart now window)) =
        loadAfter (before writes (windowStart now window)))
    {n : Nat} (hn : n ≤ windowMinutes window) :
    inMinute writes (windowTime now window n) ≠ [] ∨
      (sumsUpTo s now window n).load = loadAfter (before writes (windowTime now window n)) := by
  induction n with
  | zero =>
      rw [sumsUpTo_zero, windowTime_zero]
      exact hfirst
  | succ n ih =>
      refine .inr ?_
      rw [(addPoint_window h hmono hdated hnow hn).2]
      split
      · next hnil =>
          have hload := (ih (Nat.le_of_succ_le hn)).resolve_left fun hne => hne hnil
          rw [hload, before_succ hmono, hnil, List.append_nil]
      · rfl

end Series

/-! ## What is shown -/

/-- Every point of the window shows the load it should. -/
def Shows (s : Store) (writes : List Write) (now window : Int) : Prop :=
  ∀ point ∈ (s.metrics now window).series, point.load = shownLoad writes point.time

/-- Something was written in the first minute of the window, or the newest
bucket before it that no later minute has taken has the load that was set last. -/
def Carried (writes : List Write) (now window : Int) : Prop :=
  inMinute writes (windowStart now window) ≠ [] ∨
    knownLoad writes (windowStart now window) = loadAfter (before writes (windowStart now window))

/-- Where the first write of a minute sets the load, the minute reaches the load
it began with. -/
def Raised (writes : List Write) (now window : Int) : Prop :=
  ∀ p ∈ windowTimes now window, ∀ w rest load, inMinute writes p = w :: rest →
    w.call = .setLoad load → (loadAfter (before writes p)).le (raise load rest)

theorem shownLoad_pointAt_iff {now window : Int} {n : Nat} :
    (pointAt s writes now window n).load = shownLoad writes (windowTime now window n) ↔
      (inMinute writes (windowTime now window n) = [] →
        (sumsUpTo s now window n).load = loadAfter (before writes (windowTime now window n))) ∧
      ∀ w rest load, inMinute writes (windowTime now window n) = w :: rest →
        w.call = .setLoad load →
        (loadAfter (before writes (windowTime now window n))).le (raise load rest) := by
  rw [pointAt, shownLoad]
  cases hinside : inMinute writes (windowTime now window n) with
  | nil => simp
  | cons w rest =>
      rw [if_neg (List.cons_ne_nil w rest), if_neg (List.cons_ne_nil w rest), raise_opened_iff]
      constructor
      · intro hle
        refine ⟨fun hnil => absurd hnil (List.cons_ne_nil w rest), ?_⟩
        intro v others load heq hcall
        obtain ⟨rfl, rfl⟩ := List.cons.inj heq
        exact hle load hcall
      · intro h load hcall
        exact h.2 w rest load rfl hcall

/-- While the clock does not go back and no write is dated before 1970 other
than at a whole minute, the load series is right just when the load carried into
the window is the one set last and no minute begins with a fall of the load. -/
theorem series_shows_iff (startedAt : Int) {writes : List Write} (hmono : Monotone writes)
    (hdated : ∀ w ∈ writes, w.Dated) {now : Int} (hnow : ∀ w ∈ writes, w.time ≤ now)
    (window : Int) :
    Shows (.run startedAt writes) writes now window ↔
      Carried writes now window ∧ Raised writes now window := by
  have h := mirrors_run startedAt hmono
  have hseries : ((Store.run startedAt writes).metrics now window).series =
      (List.range (windowMinutes window)).map (pointAt (.run startedAt writes) writes now window) :=
    series_upTo h hmono hdated hnow (Nat.le_refl _)
  have hload := h.loadBefore_eq hmono hdated (windowStart_whole now window)
  rw [Shows, hseries]
  constructor
  · intro hshows
    have hpoint : ∀ n < windowMinutes window, _ := fun n hn =>
      shownLoad_pointAt_iff.1 (hshows _ (List.mem_map.2 ⟨n, List.mem_range.2 hn, rfl⟩))
    constructor
    · have hfirst := (hpoint 0 (windowMinutes_pos window)).1
      rw [sumsUpTo_zero, windowTime_zero] at hfirst
      rw [Carried, ← hload]
      by_cases hnil : inMinute writes (windowStart now window) = []
      · exact .inr (hfirst hnil)
      · exact .inl hnil
    · intro p hp
      obtain ⟨n, hn, rfl⟩ := mem_windowTimes.1 hp
      exact (hpoint n hn).2
  · rintro ⟨hcarried, hraised⟩ point hpoint
    obtain ⟨n, hn, rfl⟩ := List.mem_map.1 hpoint
    have hn := List.mem_range.1 hn
    rw [Carried, ← hload] at hcarried
    refine shownLoad_pointAt_iff.2 ⟨fun hnil => ?_, hraised _ (mem_windowTimes.2 ⟨n, hn, rfl⟩)⟩
    have hnext := carried_upTo h hmono hdated hnow hcarried (Nat.le_of_lt hn)
    exact hnext.resolve_left fun hne => hne hnil

/-- Work that begins in one minute and ends in the next. -/
def twoMinutes : List Write :=
  [⟨epoch, .setLoad { active := 1 }⟩, ⟨epoch + minute, .received⟩,
    ⟨epoch + minute, .setLoad { active := 0 }⟩]

theorem series_shows_twoMinutes :
    Carried twoMinutes (epoch + hour) hour ∧ Raised twoMinutes (epoch + hour) hour :=
  (series_shows_iff epoch (by decide) (by decide) (by decide) hour).mp (by
    unfold Shows
    decide +kernel)

/-- A day after the load was set something else is written, in the place of its
bucket: the minutes before show no load. And a minute that begins with a fall of
the load does not show the load it fell from. -/
theorem not_shown :
    ¬Shows (.run epoch [⟨epoch, .setLoad { active := 5 }⟩, ⟨epoch + 24 * hour, .received⟩])
        [⟨epoch, .setLoad { active := 5 }⟩, ⟨epoch + 24 * hour, .received⟩]
        (epoch + 24 * hour) (15 * minute) ∧
      ¬Shows (.run epoch [⟨epoch, .setLoad { active := 10 }⟩,
          ⟨epoch + minute, .setLoad { active := 2 }⟩])
        [⟨epoch, .setLoad { active := 10 }⟩, ⟨epoch + minute, .setLoad { active := 2 }⟩]
        (epoch + minute) (15 * minute) := by
  unfold Shows
  decide +kernel

end RelayLifeline.Monitoring
