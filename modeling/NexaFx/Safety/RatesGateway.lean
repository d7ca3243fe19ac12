import NexaFx.Model.RatesGateway

/-!
# NexaFx — what a replay replays

The buffer is the end of all that was broadcast (`eventBuffer_run`), and a
client names the last event it received by its timestamp. A replay takes the
later timestamps, so it leaves out a later event with the same one.

Main result: `replay_complete_iff`.
-/

namespace NexaFx

namespace RatesGateway

/-! ## The buffer -/

theorem rtake_rtake_concat {α : Type} (n : ℕ) (l : List α) (x : α) :
    (l.rtake n ++ [x]).rtake n = (l ++ [x]).rtake n := by
  cases n with
  | zero => rw [List.rtake_zero, List.rtake_zero]
  | succ n =>
    rw [List.rtake_concat_succ, List.rtake_concat_succ, List.rtake, List.rtake, List.rtake,
      List.length_drop, List.drop_drop]
    congr 2
    omega

theorem eventBuffer_broadcast (g : Gateway) (now : Time) (currencyPair : String) (rate : ℚ) :
    (g.broadcastRateUpdate now currencyPair rate).1.eventBuffer =
      (g.eventBuffer ++ [(g.broadcastRateUpdate now currencyPair rate).2]).rtake maxBufferSize := by
  unfold Gateway.broadcastRateUpdate
  simp only
  split
  · rfl
  · rename_i hshort
    rw [List.rtake, Nat.sub_eq_zero_of_le (not_lt.mp hshort), List.drop_zero]

/-- The buffer holds the end of what was broadcast. -/
theorem eventBuffer_run_from (updates : List Update) {g : Gateway} {sent : List BufferedEvent}
    (h : g.eventBuffer = sent.rtake maxBufferSize) :
    (run g updates).1.eventBuffer = (sent ++ (run g updates).2).rtake maxBufferSize := by
  induction updates generalizing g sent with
  | nil => rw [run, List.append_nil, h]
  | cons update updates ih =>
    have hstep := eventBuffer_broadcast g update.now update.currencyPair update.rate
    rw [h, rtake_rtake_concat] at hstep
    have hrest := ih hstep
    rw [List.append_assoc, List.singleton_append] at hrest
    exact hrest

theorem eventBuffer_run (updates : List Update) :
    (run .create updates).1.eventBuffer = (run .create updates).2.rtake maxBufferSize := by
  have hstart : Gateway.create.eventBuffer = ([] : List BufferedEvent).rtake maxBufferSize := rfl
  have h := eventBuffer_run_from updates hstart
  rwa [List.nil_append] at h

/-- What was broadcast are the updates. -/
theorem events_run (g : Gateway) (updates : List Update) :
    (run g updates).2 = updates.map fun u => ⟨u.now, u.currencyPair, u.rate⟩ := by
  induction updates generalizing g with
  | nil => rfl
  | cons update updates ih =>
    rw [List.map_cons, ← ih]
    rfl

/-! ## Replays -/

/-- Younger than the replay window. -/
def Young (replayWindow : Option ℚ) (now : Time) (event : BufferedEvent) : Prop :=
  (now : ℚ) - replayWindow.getD DEFAULT_REPLAY_WINDOW_MS < event.timestamp

instance (replayWindow : Option ℚ) (now : Time) (event : BufferedEvent) :
    Decidable (Young replayWindow now event) := inferInstanceAs (Decidable (_ < _))

/-- The events after number `k` that are still in the buffer. -/
def later (events : List BufferedEvent) (k : ℕ) : List BufferedEvent :=
  events.drop (max (k + 1) (events.length - maxBufferSize))

theorem handleReplay_getD (g : Gateway) (replayWindow : Option ℚ) (now : Time) (last : ℚ) :
    (g.handleReplay replayWindow now (some last)).getD [] =
      g.eventBuffer.filter fun e => decide (Young replayWindow now e ∧ last < e.timestamp) := by
  have hfilter : (g.eventBuffer.filter fun e => decide
      (max ((now : ℚ) - replayWindow.getD DEFAULT_REPLAY_WINDOW_MS) last < e.timestamp)) =
      g.eventBuffer.filter fun e => decide (Young replayWindow now e ∧ last < e.timestamp) :=
    List.filter_congr fun e _ => decide_eq_decide.mpr max_lt_iff
  simp only [Gateway.handleReplay, Option.getD_some, hfilter]
  split
  · rfl
  · rename_i hnone
    exact (List.length_eq_zero_iff.mp (by omega)).symm

section Sorted

variable {events : List BufferedEvent}
  (hclock : (events.map BufferedEvent.timestamp).Pairwise (· ≤ ·))

include hclock

theorem timestamp_le_of_mem_take {k : ℕ} (hk : k < events.length) {e : BufferedEvent}
    (he : e ∈ events.take (k + 1)) : e.timestamp ≤ events[k].timestamp := by
  rw [List.pairwise_map] at hclock
  obtain ⟨i, hi, rfl⟩ := List.mem_take_iff_getElem.mp he
  rcases Nat.lt_or_eq_of_le (show i ≤ k by omega) with hik | rfl
  · exact List.pairwise_iff_getElem.mp hclock i k (by omega) hk hik
  · exact le_rfl

theorem le_timestamp_of_mem_later {k : ℕ} (hk : k < events.length) {e : BufferedEvent}
    (he : e ∈ later events k) : events[k].timestamp ≤ e.timestamp := by
  rw [List.pairwise_map] at hclock
  unfold later at he
  generalize events.length - maxBufferSize = m at he
  obtain ⟨i, hi, rfl⟩ := List.mem_drop_iff_getElem.mp he
  exact List.pairwise_iff_getElem.mp hclock k (max (k + 1) m + i) hk (by omega) (by omega)

/-- Up to number `k` no timestamp is later than that of `k`. -/
theorem filter_buffered {k : ℕ} (hk : k < events.length) (p : BufferedEvent → Bool)
    (hp : ∀ e, p e = true → events[k].timestamp < e.timestamp) :
    (events.rtake maxBufferSize).filter p = (later events k).filter p := by
  have hsplit : events.rtake maxBufferSize =
      (events.take (k + 1)).drop (events.length - maxBufferSize) ++ later events k := by
    unfold later
    generalize maxBufferSize = n
    rw [List.rtake]
    rcases Nat.le_total (k + 1) (events.length - n) with hle | hle
    · have hnone : (events.take (k + 1)).drop (events.length - n) = [] := by
        rw [List.drop_eq_nil_iff, List.length_take]
        omega
      rw [hnone, max_eq_right hle, List.nil_append]
    · have hlen : events.length - n ≤ (events.take (k + 1)).length := by
        rw [List.length_take]
        omega
      rw [max_eq_left hle, ← List.drop_append_of_le_length hlen, List.take_append_drop]
  have hearly : ((events.take (k + 1)).drop (events.length - maxBufferSize)).filter p = [] := by
    rw [List.filter_eq_nil_iff]
    intro e he hpe
    have hlt := hp e hpe
    exact absurd (timestamp_le_of_mem_take hclock hk (List.mem_of_mem_drop he)) (not_le.mpr hlt)
  rw [hsplit, List.filter_append, hearly, List.nil_append]

/-- A replay is all of the later events that are young enough when none of them
has the timestamp of number `k`, and only then. -/
theorem filter_later_iff {k : ℕ} (hk : k < events.length) (replayWindow : Option ℚ)
    (now : Time) :
    (events.rtake maxBufferSize).filter (fun e =>
        decide (Young replayWindow now e ∧ (events[k].timestamp : ℚ) < e.timestamp)) =
      (later events k).filter (fun e => decide (Young replayWindow now e)) ↔
    ∀ e ∈ later events k, Young replayWindow now e → e.timestamp ≠ events[k].timestamp := by
  have hboth : ((later events k).filter fun e =>
      decide (Young replayWindow now e ∧ (events[k].timestamp : ℚ) < e.timestamp)) =
      ((later events k).filter fun e => decide (Young replayWindow now e)).filter
        fun e => decide (events[k].timestamp < e.timestamp) := by
    rw [List.filter_filter]
    refine List.filter_congr fun e _ => ?_
    rw [Bool.decide_and, Bool.and_comm]
    simp only [Nat.cast_lt]
  rw [filter_buffered hclock hk _ fun e he => Nat.cast_lt.mp (of_decide_eq_true he).2, hboth,
    List.filter_eq_self]
  constructor
  · intro hfresh e he hyoung heq
    have hlt := of_decide_eq_true (hfresh e (List.mem_filter.mpr ⟨he, decide_eq_true hyoung⟩))
    exact absurd heq (Nat.ne_of_gt hlt)
  · intro hdistinct e he
    obtain ⟨hmem, hyoung⟩ := List.mem_filter.mp he
    have hne := hdistinct e hmem (of_decide_eq_true hyoung)
    have hle := le_timestamp_of_mem_later hclock hk hmem
    exact decide_eq_true (lt_of_le_of_ne hle hne.symm)

end Sorted

/-- **When a replay is complete.** The buffer holds the last events that were
broadcast. A client that names event number `k` by its timestamp gets all later
events that are still buffered and young enough, in order, exactly when none of
them has that same timestamp. -/
theorem replay_complete_iff (updates : List Update)
    (hclock : (updates.map Update.now).Pairwise (· ≤ ·)) (replayWindow : Option ℚ) (now : Time)
    (k : ℕ) (hk : k < (run .create updates).2.length) :
    let g := (run .create updates).1
    let events := (run .create updates).2
    (g.eventBuffer = events.rtake (min events.length maxBufferSize) ∧
      (g.handleReplay replayWindow now (some (events[k].timestamp : ℚ))).getD [] =
        (later events k).filter fun e => decide (Young replayWindow now e)) ↔
    ∀ e ∈ later events k, Young replayWindow now e → e.timestamp ≠ events[k].timestamp := by
  intro g events
  have hbuffer : g.eventBuffer = events.rtake maxBufferSize := eventBuffer_run updates
  have hall : events.rtake (min events.length maxBufferSize) = events.rtake maxBufferSize := by
    generalize maxBufferSize = n
    rw [List.rtake, List.rtake]
    congr 1
    omega
  have hsorted : (events.map BufferedEvent.timestamp).Pairwise (· ≤ ·) := by
    show (((run .create updates).2).map BufferedEvent.timestamp).Pairwise (· ≤ ·)
    rw [events_run, List.map_map]
    exact hclock
  rw [hall, handleReplay_getD, hbuffer, filter_later_iff hsorted hk replayWindow now]
  exact and_iff_right rfl

theorem replay_complete_iff_distinct :
    (∀ e ∈ later (run .create [⟨5, "EUR/USD", 1⟩, ⟨6, "EUR/USD", 2⟩]).2 0,
        Young none 10 e → e.timestamp ≠ 5) ∧
      ((run .create [⟨5, "EUR/USD", 1⟩, ⟨6, "EUR/USD", 2⟩]).1.handleReplay none 10
        (some ((5 : ℕ) : ℚ))).getD [] = [⟨6, "EUR/USD", 2⟩] :=
  have h : ∀ e ∈ later (run .create [⟨5, "EUR/USD", 1⟩, ⟨6, "EUR/USD", 2⟩]).2 0,
      Young none 10 e → e.timestamp ≠ 5 := by decide +kernel
  ⟨h, ((replay_complete_iff [⟨5, "EUR/USD", 1⟩, ⟨6, "EUR/USD", 2⟩] (by decide) none 10 0
    (by decide)).mpr h).2.trans (by decide +kernel)⟩

/-- Two updates in one millisecond: a client that received the first one asks
for what it missed, and gets nothing. -/
theorem replay_skips :
    ¬ ∀ (updates : List Update) (_ : (updates.map Update.now).Pairwise (· ≤ ·))
      (replayWindow : Option ℚ) (now : Time) (k : ℕ)
      (hk : k < (run .create updates).2.length),
      ((run .create updates).1.handleReplay replayWindow now
          (some (((run .create updates).2[k]).timestamp : ℚ))).getD [] =
        (later (run .create updates).2 k).filter fun e => decide (Young replayWindow now e) := by
  intro h
  have hreplay := h [⟨5, "EUR/USD", 1⟩, ⟨5, "EUR/USD", 2⟩] (by decide) none 10 0 (by decide)
  exact absurd hreplay (by decide +kernel)

end RatesGateway

end NexaFx
