import RelayLifeline.Proofs.Buckets
import Mathlib.Algebra.BigOperators.Fin

/-!
# A window counts what happened in it

A window is no longer than the ring, so what was written in one of its minutes
is still there: the place of a minute is taken by no minute up to the end of
the day after it. Reading the minutes of the window one after the other goes
through exactly the writes of the window.

The store reads its minutes off the clock by a division that rounds towards
zero, and a window is cut by one that rounds down. The two agree from 1970 on,
and before that at whole minutes only.
-/

namespace RelayLifeline.Monitoring

open Lib

/-! ## Minutes -/

/-- The clock reads 1970 or later, or a whole minute: elsewhere a division that
rounds toward zero and one that rounds down disagree. -/
def Write.Dated (w : Write) : Prop := 0 ≤ unix w.time ∨ unix w.time % 60 = 0

instance (w : Write) : Decidable w.Dated := inferInstanceAs (Decidable (_ ∨ _))

/-- The number of a minute, counted from 1970. -/
def minuteNumber (t : Int) : Int := t / minute - 1035593280

theorem tdiv_of_dated {t : Int} (h : 0 ≤ unix t ∨ unix t % 60 = 0) :
    unixMinute t = minuteNumber t := by
  rw [unixMinute, Int.tdiv_eq_ediv, if_pos (h.imp id fun h => Int.dvd_of_emod_eq_zero h)]
  unfold unix minuteNumber minute
  omega

theorem Write.Dated.minute_eq {w : Write} (h : w.Dated) : w.minute = minuteNumber w.time :=
  tdiv_of_dated h

/-- Where a minute begins, the two divisions agree. -/
theorem unixMinute_of_whole {p : Int} (h : p % minute = 0) : unixMinute p = minuteNumber p := by
  refine tdiv_of_dated (.inr ?_)
  unfold unix minute at *
  omega

theorem minuteNumber_eq_iff {t p : Int} (h : p % minute = 0) :
    minuteNumber t = minuteNumber p ↔ truncateMinute t = p := by
  unfold minuteNumber truncateMinute minute at *
  omega

theorem minuteNumber_lt_iff {t p : Int} (h : p % minute = 0) :
    minuteNumber t < minuteNumber p ↔ t < p := by
  unfold minuteNumber minute at *
  omega

theorem minuteNumber_mono {t u : Int} (h : t ≤ u) : minuteNumber t ≤ minuteNumber u := by
  unfold minuteNumber minute
  omega

/-! ## Windows -/

theorem windowMinutes_pos (window : Int) : 0 < windowMinutes window := by
  unfold windowMinutes minuteBucketCount
  dsimp only
  split
  · exact Nat.one_pos
  · split <;> omega

theorem windowMinutes_le (window : Int) : windowMinutes window ≤ minuteBucketCount := by
  unfold windowMinutes minuteBucketCount
  dsimp only
  split
  · omega
  · split <;> omega

theorem windowStart_whole (now window : Int) : windowStart now window % minute = 0 := by
  unfold windowStart truncateMinute minute
  omega

/-- The minute at an offset of the window. -/
def windowTime (now window : Int) (offset : Nat) : Int := windowStart now window + offset * minute

theorem windowTime_whole (now window : Int) (offset : Nat) :
    windowTime now window offset % minute = 0 := by
  have := windowStart_whole now window
  unfold windowTime minute at *
  omega

theorem minuteNumber_windowTime (now window : Int) (offset : Nat) :
    minuteNumber (windowTime now window offset) =
      minuteNumber now - (windowMinutes window - 1 : Nat) + offset := by
  have hcount := windowMinutes_le window
  unfold minuteBucketCount at hcount
  unfold windowTime windowStart minuteNumber truncateMinute minute
  omega

theorem mem_windowTimes {now window p : Int} :
    p ∈ windowTimes now window ↔
      ∃ offset < windowMinutes window, p = windowTime now window offset := by
  rw [windowTimes, List.mem_map]
  constructor
  · rintro ⟨offset, hoffset, rfl⟩
    exact ⟨offset, List.mem_range.1 hoffset, rfl⟩
  · rintro ⟨offset, hoffset, rfl⟩
    exact ⟨offset, List.mem_range.2 hoffset, rfl⟩

/-- The writes in the minute that begins there. -/
def inMinute (writes : List Write) (p : Int) : List Write :=
  writes.filter fun w => truncateMinute w.time = p

/-- The writes in the minutes of the window. -/
def inWindow (writes : List Write) (now window : Int) : List Write :=
  writes.filter fun w => truncateMinute w.time ∈ windowTimes now window

/-- A window begins with its first minute and goes on to the last. -/
theorem mem_windowTimes_iff {now window t : Int} (h : t ≤ now) :
    truncateMinute t ∈ windowTimes now window ↔ windowStart now window ≤ t := by
  have hpos := windowMinutes_pos window
  rw [mem_windowTimes]
  constructor
  · rintro ⟨offset, -, heq⟩
    unfold windowTime truncateMinute minute at heq
    omega
  · intro hle
    refine ⟨((truncateMinute t - windowStart now window) / minute).toNat, ?_, ?_⟩
    · unfold windowStart truncateMinute minute at *
      omega
    · have hwhole := windowStart_whole now window
      unfold windowTime truncateMinute minute at *
      omega

/-! ## Looking a minute up -/

theorem bucketIndex_eq (m : Int) : bucketIndex m = (m % 1440).toNat := by
  unfold bucketIndex minuteBucketCount
  dsimp only
  rw [Int.tmod_eq_emod]
  split <;> split <;> omega

variable {writes : List Write} {s : Store}

/-- A minute of the last day has its own bucket, if anything was written in it. -/
theorem Mirrors.bucket_eq (h : Mirrors s writes) (hmono : Monotone writes) (current : Int) {m : Int}
    (hbound : ∀ w ∈ writes, w.minute ≤ current) (hday : current - 1440 < m) :
    s.bucket m = if minuteWrites writes m = [] then none else some (bucketOf writes m) := by
  have hread : s.bucket m = if ((s.buckets (bucketIndex m)).valid &&
      decide ((s.buckets (bucketIndex m)).minute = m)) = true then some (s.buckets (bucketIndex m))
      else none := rfl
  by_cases hempty : minuteWrites writes m = []
  · rw [hread, if_pos hempty, if_neg]
    rw [Bool.and_eq_true, decide_eq_true_eq]
    rintro ⟨hvalid, hminute⟩
    by_cases hused : ∃ w ∈ writes, w.slot = bucketIndex m
    · obtain ⟨v, hv, hslot, hnewest⟩ := exists_newest hmono hused
      have hbucket := h.full v hv fun u hu heq => hnewest u hu (heq.trans hslot)
      rw [hslot] at hbucket
      rw [hbucket] at hminute
      exact minuteWrites_ne_nil.2 ⟨v, hv, hminute⟩ hempty
    · rw [h.empty _ fun w hw heq => hused ⟨w, hw, heq⟩] at hvalid
      cases hvalid
  · obtain ⟨v, hv, hminute⟩ := minuteWrites_ne_nil.1 hempty
    have hbucket := h.full v hv fun u hu hslot => by
      -- the place comes round again only a day later
      have hle := hbound u hu
      rw [Write.slot, Write.slot, bucketIndex_eq, bucketIndex_eq] at hslot
      omega
    rw [Write.slot, hminute] at hbucket
    rw [hread, if_neg hempty, hbucket, if_pos (by simp [bucketOf])]

/-! ## Adding up -/

theorem counted_append (a b : List Write) (kind : Call → Bool) :
    counted (a ++ b) kind = counted a kind + counted b kind := by
  rw [counted, counted, counted, List.countP_append]

theorem addCounters_counts (a b : List Write) :
    addCounters (counts a) (counts b) = counts (a ++ b) := by
  simp only [addCounters, counts, counted_append]

/-- What has been added up are the counts of the writes. -/
structure Summed (sums : Sums) (writes : List Write) : Prop where
  counters : sums.counters = counts writes
  recoveryMilliseconds : sums.recoveryMilliseconds = (writes.map fun w => w.call.recoveryTime).sum
  durationCounts : ∀ index, sums.durationCounts index = counted writes (Call.tookAs index)
  attemptCounts : ∀ index, sums.attemptCounts index = counted writes (Call.triedAs index)

/-- The minute of the store is the one that begins there. -/
theorem minuteWrites_eq (hdated : ∀ w ∈ writes, w.Dated) {p : Int} (hwhole : p % minute = 0) :
    minuteWrites writes (unixMinute p) = inMinute writes p := by
  refine List.filter_congr fun w hw => ?_
  rw [show unixMinute w.time = minuteNumber w.time from (hdated w hw).minute_eq,
    unixMinute_of_whole hwhole]
  exact decide_eq_decide.2 (minuteNumber_eq_iff hwhole)

/-- The point of a minute in which nothing was written. -/
theorem addPoint_of_nil {p : Int} (sums : Sums) (hbucket : s.bucket (unixMinute p) = none) :
    s.addPoint sums p =
      { sums with series := sums.series ++ [{ time := p, load := sums.load }] } := by
  rw [Store.addPoint, hbucket]

theorem addPoint_of_some {p : Int} (sums : Sums) {b : MinuteBucket}
    (hbucket : s.bucket (unixMinute p) = some b) :
    s.addPoint sums p =
      { load := b.load
        counters := addCounters sums.counters b.counters
        recoveryMilliseconds := sums.recoveryMilliseconds + b.recoveryMilliseconds
        durationCounts := fun index => sums.durationCounts index + b.durationBuckets index
        attemptCounts := fun index => sums.attemptCounts index + b.attemptBuckets index
        series := sums.series ++ [{ time := p, counters := b.counters, load := b.peak }] } := by
  rw [Store.addPoint, hbucket]

/-- What a store has to offer for the minutes of a window. -/
def Offers (s : Store) (writes : List Write) (p : Int) : Prop :=
  s.bucket (unixMinute p) =
    if inMinute writes p = [] then none else some (bucketOf writes (unixMinute p))

theorem Mirrors.offers (h : Mirrors s writes) (hmono : Monotone writes)
    (hdated : ∀ w ∈ writes, w.Dated) {now window : Int} (hnow : ∀ w ∈ writes, w.time ≤ now)
    {offset : Nat} (hoffset : offset < windowMinutes window) :
    Offers s writes (windowTime now window offset) := by
  have hwhole := windowTime_whole now window offset
  rw [Offers, ← minuteWrites_eq hdated hwhole]
  refine h.bucket_eq hmono (minuteNumber now) (fun w hw => ?_) ?_
  · rw [(hdated w hw).minute_eq]
    exact minuteNumber_mono (hnow w hw)
  · have hle := windowMinutes_le window
    unfold minuteBucketCount at hle
    rw [unixMinute_of_whole hwhole, minuteNumber_windowTime]
    omega

theorem tallies_of_whole (hdated : ∀ w ∈ writes, w.Dated) {p : Int} (hwhole : p % minute = 0) :
    Tallies (bucketOf writes (unixMinute p)) (inMinute writes p) := by
  rw [← minuteWrites_eq hdated hwhole]
  exact tallies_bucketOf writes (unixMinute p)

/-- The point of a minute, as far as it counts. -/
theorem Summed.addPoint {sums : Sums} {p : Int} {inside : List Write} (h : Summed sums inside)
    (hwhole : p % minute = 0) (hdated : ∀ w ∈ writes, w.Dated) (hoffers : Offers s writes p) :
    Summed (s.addPoint sums p) (inside ++ inMinute writes p) ∧
      ∃ load, (s.addPoint sums p).series =
        sums.series ++ [{ time := p, counters := counts (inMinute writes p), load := load }] := by
  rw [Offers] at hoffers
  split at hoffers
  · next hnil =>
      rw [addPoint_of_nil sums hoffers, hnil, List.append_nil]
      exact ⟨⟨h.counters, h.recoveryMilliseconds, h.durationCounts, h.attemptCounts⟩, _, rfl⟩
  · have htallies := tallies_of_whole hdated hwhole
    rw [addPoint_of_some sums hoffers]
    refine ⟨⟨?_, ?_, fun index => ?_, fun index => ?_⟩, (bucketOf writes (unixMinute p)).peak, ?_⟩
    · rw [h.counters, htallies.counters, addCounters_counts]
    · rw [h.recoveryMilliseconds, htallies.recoveryMilliseconds, List.map_append, List.sum_append]
    · rw [counted_append, ← h.durationCounts, ← htallies.durationBuckets]
    · rw [counted_append, ← h.attemptCounts, ← htallies.attemptBuckets]
    · rw [htallies.counters]

/-! ## The whole window -/

/-- The writes in the first minutes of the window. -/
def inFirst (writes : List Write) (now window : Int) (n : Nat) : List Write :=
  writes.filter fun w => windowStart now window ≤ w.time && w.time < windowTime now window n

/-- Elements before a bound come before the others. -/
theorem filter_append_filter {l : List Write} (h : Monotone l) (bound : Int) :
    l.filter (fun w => w.time < bound) ++ l.filter (fun w => bound ≤ w.time) = l := by
  induction l with
  | nil => rfl
  | cons w l ih =>
      obtain ⟨hfirst, hrest⟩ := List.pairwise_cons.1 h
      by_cases hlt : w.time < bound
      · rw [List.filter_cons_of_pos (by simpa using hlt),
          List.filter_cons_of_neg (by simpa using hlt), List.cons_append, ih hrest]
      · have hafter : ∀ v ∈ w :: l, bound ≤ v.time := by
          intro v hv
          rcases List.mem_cons.1 hv with rfl | hv
          · omega
          · have := hfirst v hv
            omega
        rw [List.filter_eq_nil_iff.2 fun v hv => by simpa using hafter v hv,
          List.filter_eq_self.2 fun v hv => by simpa using hafter v hv, List.nil_append]

theorem inFirst_succ (hmono : Monotone writes) (now window : Int) (n : Nat) :
    inFirst writes now window (n + 1) =
      inFirst writes now window n ++ inMinute writes (windowTime now window n) := by
  have hsplit := filter_append_filter (hmono.sublist (List.filter_sublist
    (p := fun w => windowStart now window ≤ w.time && w.time < windowTime now window (n + 1))))
    (windowTime now window n)
  rw [inFirst, ← hsplit, List.filter_filter, List.filter_filter]
  have hwhole := windowStart_whole now window
  congr 1
  · refine List.filter_congr fun w _ => ?_
    rw [Bool.eq_iff_iff]
    simp only [Bool.and_eq_true, decide_eq_true_eq]
    unfold windowTime minute
    omega
  · refine List.filter_congr fun w _ => ?_
    rw [Bool.eq_iff_iff]
    simp only [Bool.and_eq_true, decide_eq_true_eq]
    unfold windowTime truncateMinute minute at *
    omega

theorem inFirst_zero (now window : Int) : inFirst writes now window 0 = [] := by
  refine List.filter_eq_nil_iff.2 fun w _ => ?_
  simp only [Bool.and_eq_true, decide_eq_true_eq]
  unfold windowTime
  omega

/-- All the minutes of the window are the window. -/
theorem inFirst_windowMinutes {now window : Int} (hnow : ∀ w ∈ writes, w.time ≤ now) :
    inFirst writes now window (windowMinutes window) = inWindow writes now window := by
  have hpos := windowMinutes_pos window
  refine List.filter_congr fun w hw => ?_
  have hle := hnow w hw
  rw [Bool.eq_iff_iff, Bool.and_eq_true]
  simp only [decide_eq_true_eq]
  rw [mem_windowTimes_iff hle]
  unfold windowTime windowStart truncateMinute minute
  omega

/-- The loop of `Metrics` after some of the minutes. -/
def sumsUpTo (s : Store) (now window : Int) (n : Nat) : Sums :=
  ((List.range n).map (windowTime now window)).foldl s.addPoint
    { load := s.loadBefore (unixMinute (windowStart now window)) }

theorem sumsUpTo_succ (s : Store) (now window : Int) (n : Nat) :
    sumsUpTo s now window (n + 1) =
      s.addPoint (sumsUpTo s now window n) (windowTime now window n) := by
  rw [sumsUpTo, List.range_succ, List.map_append, List.foldl_append]
  rfl

theorem summed_upTo (h : Mirrors s writes) (hmono : Monotone writes)
    (hdated : ∀ w ∈ writes, w.Dated) {now window : Int}
    (hnow : ∀ w ∈ writes, w.time ≤ now) {n : Nat}
    (hn : n ≤ windowMinutes window) :
    Summed (sumsUpTo s now window n) (inFirst writes now window n) ∧
      (sumsUpTo s now window n).series.map Point.time = (List.range n).map (windowTime now window) ∧
      ∀ point ∈ (sumsUpTo s now window n).series,
        point.counters = counts (inMinute writes point.time) := by
  induction n with
  | zero =>
      rw [inFirst_zero]
      exact ⟨⟨rfl, rfl, fun _ => rfl, fun _ => rfl⟩, rfl, fun _ hp => absurd hp List.not_mem_nil⟩
  | succ n ih =>
      obtain ⟨hsummed, htimes, hpoints⟩ := ih (Nat.le_of_succ_le hn)
      obtain ⟨hnext, load, hseries⟩ := hsummed.addPoint (windowTime_whole now window n) hdated
        (h.offers hmono hdated hnow hn)
      rw [sumsUpTo_succ, inFirst_succ hmono, hseries, List.map_append, htimes, List.range_succ,
        List.map_append]
      refine ⟨hnext, rfl, fun point hpoint => ?_⟩
      rcases List.mem_append.1 hpoint with hold | hnew
      · exact hpoints point hold
      · rw [List.mem_singleton.1 hnew]

/-- The loop of `ErrorsFor` after some of the minutes. -/
theorem errors_upTo (h : Mirrors s writes) (hmono : Monotone writes)
    (hdated : ∀ w ∈ writes, w.Dated) {now window : Int}
    (hnow : ∀ w ∈ writes, w.time ≤ now) {n : Nat}
    (hn : n ≤ windowMinutes window) :
    ((List.range n).map (windowTime now window)).foldl s.addErrors (fun _ => 0) =
      fun index => counted (inFirst writes now window n) (Call.failsAs index) := by
  induction n with
  | zero =>
      rw [inFirst_zero]
      rfl
  | succ n ih =>
      have hoffers := h.offers hmono hdated hnow hn
      rw [List.range_succ, List.map_append, List.foldl_append, ih (Nat.le_of_succ_le hn),
        List.map_cons, List.map_nil, List.foldl_cons, List.foldl_nil, Store.addErrors,
        inFirst_succ hmono]
      rw [Offers] at hoffers
      rw [hoffers]
      by_cases hnil : inMinute writes (windowTime now window n) = []
      · rw [if_pos hnil, hnil, List.append_nil]
      · have htallies := tallies_of_whole hdated (windowTime_whole now window n)
        rw [if_neg hnil]
        funext index
        rw [counted_append, ← htallies.errors]

/-! ## Histograms -/

/-- The place of a recovery in the histogram of times. -/
def Call.tookIndex : Call → Fin 9
  | recovery elapsed _ => durationBucketIndex (Store.milliseconds elapsed)
  | _ => 0

/-- The place of a recovery in the histogram of attempts. -/
def Call.triedIndex : Call → Fin 7
  | recovery _ attempts => attemptBucketIndex attempts
  | _ => attemptBucketIndex 0

/-- Every recovery is in one place of each histogram. -/
theorem sum_counted {n : Nat} {kinds : Fin n → Call → Bool} (index : Call → Fin n)
    (h : ∀ i call, kinds i call = (call.isRecovery && decide (index call = i)))
    (writes : List Write) :
    (List.ofFn fun i => counted writes (kinds i)).sum = counted writes Call.isRecovery := by
  rw [List.sum_ofFn]
  induction writes using List.reverseRecOn with
  | nil => simp [counted]
  | append_singleton writes w ih =>
      simp only [counted_push, Finset.sum_add_distrib, ih, h]
      congr 1
      cases w.call.isRecovery with
      | false => simp
      | true => simp

theorem histogram_sum {n : Nat} {labels : List String} (hlabels : labels.length = n)
    (counts : Fin n → Nat) :
    ((histogram labels counts).map HistogramBucket.count).sum = (List.ofFn counts).sum := by
  have hcounts : (histogram labels counts).map HistogramBucket.count = List.ofFn counts := by
    rw [histogram, List.map_zipWith]
    refine List.ext_getElem (by simp [hlabels]) fun i hi hi' => ?_
    simp
  rw [hcounts]

/-! ## What is answered -/

/-- The store answers for the window with the counts of what was written in its
minutes. -/
structure Exact (s : Store) (writes : List Write) (now window : Int) : Prop where
  times : (s.metrics now window).series.map Point.time = windowTimes now window
  series : ∀ point ∈ (s.metrics now window).series,
    point.counters = counts (inMinute writes point.time)
  totals : (s.metrics now window).totals.counters = counts (inWindow writes now window)
  durations : (s.metrics now window).recovery.durationBuckets =
    histogram durationBucketLabels fun index =>
      counted (inWindow writes now window) (Call.tookAs index)
  attempts : (s.metrics now window).recovery.attemptBuckets =
    histogram attemptBucketLabels fun index =>
      counted (inWindow writes now window) (Call.triedAs index)
  durations_sum : ((s.metrics now window).recovery.durationBuckets.map HistogramBucket.count).sum =
    (s.metrics now window).totals.counters.recovered
  attempts_sum : ((s.metrics now window).recovery.attemptBuckets.map HistogramBucket.count).sum =
    (s.metrics now window).totals.counters.recovered
  errors : (s.errorsFor now window).categories =
    List.zipWith ErrorCategory.mk errorCodes (List.ofFn fun index =>
      counted (inWindow writes now window) (Call.failsAs index))

theorem Mirrors.exact (h : Mirrors s writes) (hmono : Monotone writes)
    (hdated : ∀ w ∈ writes, w.Dated) {now : Int} (hnow : ∀ w ∈ writes, w.time ≤ now)
    (window : Int) : Exact s writes now window := by
  obtain ⟨hsummed, htimes, hpoints⟩ := summed_upTo h hmono hdated hnow
    (Nat.le_refl (windowMinutes window))
  have herrors := errors_upTo h hmono hdated hnow (Nat.le_refl (windowMinutes window))
  have hsums : s.sums now window = sumsUpTo s now window (windowMinutes window) := rfl
  rw [inFirst_windowMinutes hnow] at hsummed herrors
  rw [← hsums] at hsummed htimes hpoints
  have hdurations : (s.metrics now window).recovery.durationBuckets =
      histogram durationBucketLabels fun index =>
        counted (inWindow writes now window) (Call.tookAs index) :=
    congrArg (histogram durationBucketLabels) (funext hsummed.durationCounts)
  have hattempts : (s.metrics now window).recovery.attemptBuckets =
      histogram attemptBucketLabels fun index =>
        counted (inWindow writes now window) (Call.triedAs index) :=
    congrArg (histogram attemptBucketLabels) (funext hsummed.attemptCounts)
  have htotals : (s.metrics now window).totals.counters = counts (inWindow writes now window) :=
    hsummed.counters
  refine ⟨htimes, hpoints, htotals, hdurations, hattempts, ?_, ?_, ?_⟩
  · rw [hdurations, histogram_sum (show durationBucketLabels.length = 9 from rfl), htotals]
    refine sum_counted Call.tookIndex (fun i call => ?_) _
    cases call <;> rfl
  · rw [hattempts, histogram_sum (show attemptBucketLabels.length = 7 from rfl), htotals]
    refine sum_counted Call.triedIndex (fun i call => ?_) _
    cases call <;> rfl
  · exact congrArg (fun counts => List.zipWith ErrorCategory.mk errorCodes (List.ofFn counts))
      herrors

/-- While the clock does not go back and reads 1970 or later, every window is
answered exactly, at any time. -/
theorem window_exact (startedAt : Int) {writes : List Write} (hmono : Monotone writes)
    (hdated : ∀ w ∈ writes, w.Dated) {now : Int} (hnow : ∀ w ∈ writes, w.time ≤ now)
    (window : Int) : Exact (.run startedAt writes) writes now window :=
  (mirrors_run startedAt hmono).exact hmono hdated hnow window

/-- The beginning of 1970. -/
def epoch : Int := 62135596800 * 1000000000

/-- A request, its failure and its recovery, two days apart. -/
def twoDays : List Write :=
  [⟨epoch, .received⟩, ⟨epoch + 48 * hour, .attemptFailure "auth"⟩,
    ⟨epoch + 48 * hour + minute, .recovery 2000000000 2⟩]

theorem window_exact_twoDays :
    Exact (.run epoch twoDays) twoDays (epoch + 49 * hour) (24 * hour) :=
  window_exact epoch (by decide) (by decide) (by decide) (24 * hour)

end RelayLifeline.Monitoring
