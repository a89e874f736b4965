import Whale.Daemon.Journal
import Whale.Lib.Numbered

/-!
# Journals are windows of the log

`Log base log`: the events published on a stream, numbered from one. `Window limits log j`: the journal
holds the events of the log after its floor, its counter is the sum of their sizes, and the limits hold.
`retain` and `scrubRun` keep it (`Window.retain`, `Window.scrubRun`), and a page of the journal is then a
segment of the log (`Window.page_eq`).
-/

namespace Whale

open Check

namespace Journal

variable {ε : Type} [Envelope ε]

/-- The position of an event. -/
def pos (e : ε) : Nat := (Envelope.cursor e).seq

/-- The events of the stream of `base`, in order from the first one. -/
structure Log (base : Cursor) (log : List ε) : Prop where
  numbered : Numbered pos 0 log
  stream : ∀ e ∈ log, (Envelope.cursor e).sameStream base = true

/-- The journal is the part of the log after its floor. -/
structure Window (limits : EventJournalLimits) (base : Cursor) (log : List ε) (j : Journal ε) :
    Prop where
  floor_le : j.replayFloor.seq ≤ log.length
  floor_stream : j.replayFloor.sameStream base = true
  entries : j.entries.map (·.envelope) = log.drop j.replayFloor.seq
  bytes : j.bytes = ((j.entries.map (·.bytes)).sum : Nat)
  count : j.entries.length ≤ limits.maxEvents
  size : j.bytes ≤ limits.maxBytes

namespace Log

variable {base : Cursor} {log : List ε}

theorem nil : Log base ([] : List ε) := ⟨.nil, by simp⟩

theorem snoc (h : Log base log) {e : ε} (hp : pos e = log.length + 1)
    (hs : (Envelope.cursor e).sameStream base = true) : Log base (log ++ [e]) := by
  refine ⟨h.numbered.snoc (by omega), fun x hx => ?_⟩
  rcases List.mem_append.mp hx with hx | hx
  · exact h.stream x hx
  · rw [List.mem_singleton.mp hx]
    exact hs

/-- An event of the log is the one of its cursor. -/
theorem cursor_eq (h : Log base log) {e : ε} (he : e ∈ log) :
    Envelope.cursor e = { base with seq := pos e } := by
  apply Cursor.eq_of_sameStream
  · simpa [Cursor.sameStream] using h.stream e he
  · rfl

/-- The first event after a position. -/
theorem pos_of_drop (h : Log base log) {n : Nat} {e : ε} {rest : List ε}
    (hd : log.drop n = e :: rest) : n < log.length ∧ pos e = n + 1 ∧ rest = log.drop (n + 1) := by
  have hn : n < log.length := by
    by_contra hc
    rw [List.drop_eq_nil_of_le (by omega)] at hd
    cases hd
  have hnum := h.numbered.drop (n := n) (by omega)
  rw [hd] at hnum
  have hp := hnum.1
  refine ⟨hn, by omega, ?_⟩
  rw [← List.drop_drop, hd]
  rfl

end Log

namespace Window

variable {limits : EventJournalLimits} {base : Cursor} {log : List ε} {j : Journal ε}

omit [Envelope ε] in
/-- An empty journal at the start of the stream. -/
theorem initial {j : Journal ε} (he : j.entries = []) (hb : j.bytes = 0) (hf : j.replayFloor.seq = 0)
    (hs : j.replayFloor.sameStream base = true) : Window limits base ([] : List ε) j := by
  refine ⟨by simp [hf], hs, by simp [he], by simp [he, hb], by simp [he], ?_⟩
  rw [hb]
  exact Int.natCast_nonneg _

/-- The eviction loop drops events from the front until the limits hold. -/
theorem evict (hl : Log base log) : ∀ (es : List (JournalEntry ε)) (bytes : Int) (floor : Cursor),
    floor.seq ≤ log.length → floor.sameStream base = true →
    es.map (·.envelope) = log.drop floor.seq → bytes = ((es.map (·.bytes)).sum : Nat) →
    Window limits base log (Journal.evict limits es bytes floor)
  | [], bytes, floor, hf, hs, he, hb => by
    have h0 : bytes = 0 := by simpa using hb
    refine ⟨hf, hs, he, hb, by simp [Journal.evict], ?_⟩
    simp only [Journal.evict, h0]
    exact Int.natCast_nonneg _
  | e :: es, bytes, floor, hf, hs, he, hb => by
    unfold Journal.evict
    by_cases hover : limits.maxEvents < (e :: es).length ∨ (limits.maxBytes : Int) < bytes
    · rw [if_pos hover]
      obtain ⟨hlt, hp, hrest⟩ := hl.pos_of_drop (e := e.envelope) he.symm
      have hmem : e.envelope ∈ log := by
        apply List.mem_of_mem_drop (i := floor.seq)
        rw [← he]
        exact List.mem_cons_self
      apply evict hl es
      · show pos e.envelope ≤ _
        omega
      · exact hl.stream _ hmem
      · show es.map (·.envelope) = log.drop (pos e.envelope)
        rw [hp]
        exact hrest
      · rw [hb, List.map_cons, List.sum_cons]
        omega
    · rw [if_neg hover]
      rw [not_or, Nat.not_lt, Int.not_lt] at hover
      exact ⟨hf, hs, he, hb, hover.1, hover.2⟩

/-- Publishing the next event keeps the window. -/
theorem retain (h : Window limits base log j) (hl : Log base log) {e : ε} (bytes : Nat)
    (runId : Option String) (hp : pos e = log.length + 1)
    (hs : (Envelope.cursor e).sameStream base = true) :
    Window limits base (log ++ [e]) (j.retain limits e bytes runId) := by
  have hl' := hl.snoc hp hs
  unfold Journal.retain
  by_cases hover : limits.maxBytes < bytes
  · rw [if_pos hover]
    have hlen : (Envelope.cursor e).seq = (log ++ [e]).length := by
      rw [List.length_append, List.length_singleton]
      exact hp
    refine ⟨hlen.le, hs, ?_, rfl, Nat.zero_le _, Int.natCast_nonneg _⟩
    show [] = (log ++ [e]).drop (Envelope.cursor e).seq
    rw [hlen, List.drop_length]
  · rw [if_neg hover]
    apply evict hl'
    · have := h.floor_le
      rw [List.length_append]
      omega
    · exact h.floor_stream
    · rw [List.map_append, h.entries, List.drop_append_of_le_length h.floor_le]
      rfl
    · rw [h.bytes]
      simp

/-- The entries are numbered from the floor. -/
theorem numbered (h : Window limits base log j) (hl : Log base log) :
    Numbered (fun e : JournalEntry ε => pos e.envelope) j.replayFloor.seq j.entries := by
  have := hl.numbered.drop h.floor_le
  rw [← h.entries, Nat.zero_add] at this
  exact Numbered.map_iff.mp this

omit [Envelope ε] in
theorem length_entries (h : Window limits base log j) :
    j.entries.length = log.length - j.replayFloor.seq := by
  rw [← List.length_map (f := (·.envelope)), h.entries, List.length_drop]

/-- Forgetting a run keeps the window. -/
theorem scrubRun (h : Window limits base log j) (hl : Log base log) (turnId : String) :
    Window limits base log (j.scrubRun turnId) := by
  unfold Journal.scrubRun
  cases hlast : j.lastOf turnId with
  | none => exact h
  | some through =>
    -- the last event of the run is one of the journal, so it lies between the floor and the end
    have hmem := List.max?_mem hlast
    obtain ⟨e, he, rfl⟩ := List.mem_map.mp hmem
    have hb := (h.numbered hl).mem_bounds (List.mem_filter.mp he).1
    have hlen := h.length_entries
    have hle := h.floor_le
    have hpos : j.replayFloor.seq < seq e ∧ seq e ≤ log.length := by
      simp only [pos, Journal.seq] at hb ⊢
      omega
    have hdrop : (j.entries.dropWhile fun x => decide (seq x ≤ seq e)) =
        j.entries.drop (seq e - j.replayFloor.seq) := (h.numbered hl).dropWhile_le (seq e)
    have hsplit : (j.entries.map (·.bytes)).sum =
        ((j.entries.takeWhile fun x => decide (seq x ≤ seq e)).map (·.bytes)).sum +
        ((j.entries.dropWhile fun x => decide (seq x ≤ seq e)).map (·.bytes)).sum := by
      rw [← List.sum_append, ← List.map_append, List.takeWhile_append_dropWhile]
    have hbytes := h.bytes
    refine ⟨?_, ?_, ?_, ?_, ?_, ?_⟩
    · simp only
      omega
    · simpa [Cursor.sameStream] using h.floor_stream
    · simp only [hdrop]
      rw [List.map_drop, h.entries, List.drop_drop]
      congr 1
      omega
    · simp only
      omega
    · have := h.count
      simp only [hdrop, List.length_drop]
      omega
    · have := h.size
      simp only
      omega

/-- No entry of a forgotten run is left. -/
theorem scrubRun_runId (h : Window limits base log j) (hl : Log base log) {turnId : String}
    {e : JournalEntry ε} (he : e ∈ (j.scrubRun turnId).entries) : e.runId ≠ some turnId := by
  intro hrun
  unfold Journal.scrubRun at he
  cases hlast : j.lastOf turnId with
  | none =>
    rw [hlast] at he
    have hnil := List.map_eq_nil_iff.mp (List.max?_eq_none_iff.mp hlast)
    exact List.filter_eq_nil_iff.mp hnil e he (by simp [hrun])
  | some through =>
    rw [hlast] at he
    simp only at he
    have hmem : e ∈ j.entries := List.dropWhile_subset _ he
    have hle : seq e ≤ through := (List.max?_eq_some_iff.mp hlast).2 _
      (List.mem_map_of_mem (List.mem_filter.mpr ⟨hmem, by simp [hrun]⟩))
    -- what is left of the journal starts after the last event of the run
    have hfloor := (h.scrubRun hl turnId).numbered hl
    unfold Journal.scrubRun at hfloor
    rw [hlast] at hfloor
    have hlt := (hfloor.mem_bounds he).1
    simp only [pos, Journal.seq] at hlt hle
    omega

/-- A journal that retains the event of the next cursor, as a window at that cursor. -/
theorem publish (h : Window limits base log j) (hl : Log base log) (hc : base.seq = log.length)
    {e : ε} (he : Envelope.cursor e = { base with seq := base.seq + 1 }) (bytes : Nat)
    (runId : Option String) :
    Log (Envelope.cursor e) (log ++ [e]) ∧
      Window limits (Envelope.cursor e) (log ++ [e]) (j.retain limits e bytes runId) ∧
      (Envelope.cursor e).seq = (log ++ [e]).length := by
  have hpos : pos e = log.length + 1 := by
    unfold pos
    rw [he, hc]
  have hs : (Envelope.cursor e).sameStream base = true := by
    rw [he]
    simp [Cursor.sameStream]
  -- a log and a window depend on the stream of the cursor only
  have hmove : ∀ c : Cursor, c.sameStream base = true →
      c.sameStream (Envelope.cursor e) = true := by
    intro c hc
    rw [he]
    exact hc
  have hlog := hl.snoc hpos hs
  have hwin := h.retain hl bytes runId hpos hs
  refine ⟨⟨hlog.numbered, fun x hx => hmove _ (hlog.stream x hx)⟩,
    ⟨hwin.floor_le, hmove _ hwin.floor_stream, hwin.entries, hwin.bytes, hwin.count, hwin.size⟩, ?_⟩
  rw [List.length_append, List.length_singleton]
  exact hpos

/-- A page is a segment of the log. -/
theorem page_eq (h : Window limits base log j) (hl : Log base log) {after through limit : Nat}
    (ha : j.replayFloor.seq ≤ after) :
    j.page after through limit = (log.drop after).take (min limit (through - after)) := by
  have hf := (h.numbered hl).filter_range ha through
  have hdrop : (log.drop after) = (j.entries.drop (after - j.replayFloor.seq)).map (·.envelope) := by
    rw [List.map_drop, h.entries, List.drop_drop]
    congr 1
    omega
  unfold page
  rw [show (j.entries.filter fun e => decide (after < seq e) && decide (seq e ≤ through)) =
      (j.entries.drop (after - j.replayFloor.seq)).take (through - after) from hf,
    List.take_take, List.map_take, hdrop]

/-- The retained events after a position are the rest of the log. -/
theorem retained_eq (h : Window limits base log j) (hl : Log base log) {after : Nat}
    (ha : j.replayFloor.seq ≤ after) :
    (j.entries.filter fun e => decide (after < seq e)).map (·.envelope) = log.drop after := by
  have hf := (h.numbered hl).filter_range ha log.length
  have hlen := h.length_entries
  -- no event is past the end of the log
  have hall : (j.entries.filter fun e => decide (after < seq e)) =
      j.entries.filter fun e => decide (after < seq e) && decide (seq e ≤ log.length) := by
    apply List.filter_congr
    intro e he
    have hb := ((h.numbered hl).mem_bounds he).2
    have hle := h.floor_le
    have hend : seq e ≤ log.length := by
      simp only [pos, Journal.seq] at hb ⊢
      omega
    simp [hend]
  rw [hall, show (j.entries.filter fun e => decide (after < seq e) && decide (seq e ≤ log.length)) =
      (j.entries.drop (after - j.replayFloor.seq)).take (log.length - after) from hf,
    List.take_of_length_le (by rw [List.length_drop]; omega), List.map_drop, h.entries,
    List.drop_drop]
  congr 1
  omega

end Window

end Journal

end Whale
