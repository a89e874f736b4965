import Whale.Daemon.Proof.Journal
import Whale.Lib.Run
import Mathlib.Data.List.ReduceOption

/-!
# Subscriptions read the log

A `Feed` is a record with a journal, its publications and retirements, and its subscriptions.
`Feed.Exact` says what a subscriber may rely on: the journal is the end of the log, every answer passes
the client's own check, a cursor below the floor gives a retention gap, and pages that follow one
another (`Feed.Paging`) give every event once. `Lawful.exact` derives it from what one step keeps.
-/

namespace Whale

open Check

/-- A record with a journal, as its subscribers see it. A step carries the event it publishes. -/
structure Feed (σ ε : Type) where
  step : σ → Option ε → σ → Prop
  cursor : σ → Cursor
  limits : σ → EventJournalLimits
  journal : σ → Journal ε
  validateParams : SubscribeParams → Except String Unit
  replay : σ → SubscribeParams → Except String (SubscribeResult ε)
  validateFor : SubscribeResult ε → SubscribeParams → Except String Unit

namespace Feed

variable {σ ε : Type}

/-- Pages asked for one after another up to a fixed high watermark, with publications and retirements
between them that keep the floor at or below the position of the next page. -/
inductive Paging (f : Feed σ ε) (through : Cursor) (s : σ) (after : Cursor) :
    List ε → σ → Cursor → Bool → Prop
  | start : Paging f through s after [] s after (decide (after.seq < through.seq))
  | page {events : List ε} {s' s'' : σ} {pos : Cursor} {labels : List (Option ε)}
      {p : SubscribeParams} {r : SubscribeResult ε} (before : Paging f through s after events s' pos true)
      (later : Lts.Run f.step s' labels s'') (kept : (f.journal s'').replayFloor.seq ≤ pos.seq)
      (thread : p.threadId = (f.cursor s'').threadId) (position : p.after = pos)
      (watermark : p.through = some through ∨ p.through = none ∧ f.cursor s'' = through)
      (answered : f.replay s'' p = .ok r) :
      Paging f through s after (events ++ r.events) s'' r.resumeAfter r.hasMore

/-- What a subscriber may rely on in a state whose published events are `log`. -/
structure Exact [Envelope ε] (f : Feed σ ε) (s : σ) (log : List ε) : Prop where
  numbered : Numbered Journal.pos 0 log
  current : (f.cursor s).seq = log.length
  floor_le : (f.journal s).replayFloor.seq ≤ (f.cursor s).seq
  /-- The journal holds the events after the floor, up to the current one. -/
  entries : (f.journal s).entries.map (·.envelope) = log.drop (f.journal s).replayFloor.seq
  /-- The counter is exact, so no subtraction underflowed. -/
  bytes : (f.journal s).bytes = (((f.journal s).entries.map (·.bytes)).sum : Nat)
  count : (f.journal s).entries.length ≤ (f.limits s).maxEvents
  size : (f.journal s).bytes ≤ (f.limits s).maxBytes
  /-- Every answer passes the client's check. -/
  answers : ∀ p r, p.threadId = (f.cursor s).threadId → f.replay s p = .ok r →
    f.validateFor r p = .ok ()
  /-- A cursor below the floor gives a retention gap. -/
  retention : ∀ p, f.validateParams p = .ok () → p.after.sameStream (f.cursor s) = true →
    (∀ t, p.through = some t → t.seq ≤ (f.cursor s).seq) →
    p.after.seq < (f.journal s).replayFloor.seq →
    ∃ r g, f.replay s p = .ok r ∧ r.gap = some g ∧ g.reason = .retention
  /-- Pages give the events after `after` once each and in order. -/
  pages : ∀ {after through pos : Cursor} {events : List ε} {s' : σ} {more : Bool},
    after.sameStream (f.cursor s) = true → through.sameStream (f.cursor s) = true →
    (f.journal s).replayFloor.seq ≤ after.seq → after.seq ≤ through.seq →
    through.seq ≤ (f.cursor s).seq → Paging f through s after events s' pos more →
    events = (log.drop after.seq).take (pos.seq - after.seq) ∧ pos.seq ≤ through.seq ∧
      (more = true ↔ pos.seq < through.seq)
  /-- While there is more, the next page is answered, without a gap and with an event at least. -/
  progress : ∀ {after through pos : Cursor} {events : List ε} {s' s'' : σ} {labels : List (Option ε)}
    {p : SubscribeParams},
    after.sameStream (f.cursor s) = true → through.sameStream (f.cursor s) = true →
    (f.journal s).replayFloor.seq ≤ after.seq → after.seq ≤ through.seq →
    through.seq ≤ (f.cursor s).seq → Paging f through s after events s' pos true →
    Lts.Run f.step s' labels s'' → (f.journal s'').replayFloor.seq ≤ pos.seq →
    f.validateParams p = .ok () → p.threadId = (f.cursor s'').threadId → p.after = pos →
    (p.through = some through ∨ p.through = none ∧ f.cursor s'' = through) →
    ∃ r, f.replay s'' p = .ok r ∧ r.gap = none ∧ r.events ≠ []

end Feed

/-! ## Requests -/

/-- What a valid request satisfies, in either version. -/
structure SubscribeParams.Request (p : SubscribeParams) : Prop where
  thread : p.after.threadId = p.threadId
  through : ∀ t, p.through = some t → p.after.sameStream t = true ∧ p.after.seq ≤ t.seq
  limit : 0 < p.limit

/-- A fixed high watermark is on the stream of the request. -/
theorem SubscribeParams.Request.through_stream {p : SubscribeParams} (hp : p.Request) {stream : String}
    (hs : p.after.streamId = stream) : ¬ (p.through.any fun t => t.streamId != stream) = true := by
  cases hth : p.through with
  | none => simp
  | some t =>
    have := (Cursor.sameStream_iff.mp (hp.through t hth).1).2
    simp [← this, hs]

namespace Journal

variable {ε : Type} [Envelope ε]

/-- The high watermark of a request. -/
def watermark (head : Head) (p : SubscribeParams) : Cursor := p.through.getD head.cursor

/-- The three answers to a request: another stream, a gap, a page. -/
theorem replay_ok {texts : AheadTexts} {j : Journal ε} {head : Head} {p : SubscribeParams}
    {r : SubscribeResult ε} (hp : p.Request) (ht : p.threadId = head.cursor.threadId)
    (h : j.replay texts head p = .ok r) :
    (p.after.streamId ≠ head.cursor.streamId ∧ r = j.gap head p head.cursor .streamReset) ∨
      (p.after.sameStream head.cursor = true ∧ p.after.seq ≤ (watermark head p).seq ∧
        (watermark head p).seq ≤ head.cursor.seq ∧
        ((p.after.seq < j.replayFloor.seq ∧ r = j.gap head p (watermark head p) .retention) ∨
          (j.replayFloor.seq ≤ p.after.seq ∧ r = j.answer head p (watermark head p)))) := by
  unfold replay at h
  by_cases hs : p.after.streamId = head.cursor.streamId
  · right
    have hne : ¬ (p.after.streamId != head.cursor.streamId) = true := by simp [hs]
    simp only [if_neg hne] at h
    obtain ⟨ha, h⟩ := refuse_bind_ok h
    simp only [if_neg (hp.through_stream hs)] at h
    obtain ⟨hw, h⟩ := refuse_bind_ok h
    have hseq : p.after.seq ≤ (watermark head p).seq ∧ (watermark head p).seq ≤ head.cursor.seq := by
      unfold watermark
      cases hth : p.through with
      | none =>
        simp only [Option.getD_none]
        exact ⟨by simpa using ha, Nat.le_refl _⟩
      | some t =>
        rw [hth] at hw
        simp only [Option.getD_some]
        exact ⟨(hp.through t hth).2, by simpa using hw⟩
    refine ⟨Cursor.sameStream_iff.mpr ⟨hp.thread.trans ht, hs⟩, hseq.1, hseq.2, ?_⟩
    by_cases hf : p.after.seq < j.replayFloor.seq
    · rw [if_pos hf] at h
      cases h
      exact .inl ⟨hf, rfl⟩
    · rw [if_neg hf] at h
      cases h
      exact .inr ⟨by omega, rfl⟩
  · left
    have hne : (p.after.streamId != head.cursor.streamId) = true := by simp [hs]
    simp only [if_pos hne] at h
    cases h
    exact ⟨hs, rfl⟩

/-- A request on the stream that is not ahead is answered. -/
theorem replay_of_sameStream (texts : AheadTexts) (j : Journal ε) {head : Head} {p : SubscribeParams}
    (hp : p.Request) (hs : p.after.sameStream head.cursor = true)
    (ha : p.after.seq ≤ head.cursor.seq)
    (hw : ∀ t, p.through = some t → t.seq ≤ head.cursor.seq) :
    j.replay texts head p = .ok (if p.after.seq < j.replayFloor.seq then
      j.gap head p (watermark head p) .retention else j.answer head p (watermark head p)) := by
  have hstream := (Cursor.sameStream_iff.mp hs).2
  have h1 : ¬ (p.after.streamId != head.cursor.streamId) = true := by simp [hstream]
  have h3 : (p.through.any fun t => decide (head.cursor.seq < t.seq)) = false := by
    cases hth : p.through with
    | none => rfl
    | some t =>
      have := hw t hth
      simp only [Option.any_some, decide_eq_false_iff_not]
      omega
  unfold replay
  simp only [if_neg h1]
  rw [refuse_bind_ok_iff]
  refine ⟨by simpa using ha, ?_⟩
  simp only [if_neg (hp.through_stream hstream)]
  rw [refuse_bind_ok_iff]
  refine ⟨h3, ?_⟩
  split <;> rfl

/-- The events of a page and where it ends. -/
theorem answer_spec {limits : EventJournalLimits} {log : List ε} {j : Journal ε} {head : Head}
    (p : SubscribeParams) (through : Cursor) (h : j.Window limits head.cursor log)
    (hl : Log head.cursor log) (hs : p.after.sameStream head.cursor = true)
    (hf : j.replayFloor.seq ≤ p.after.seq) (ha : p.after.seq ≤ through.seq)
    (ht : through.seq ≤ log.length) :
    let n := min p.limit (through.seq - p.after.seq)
    (j.answer head p through).events = (log.drop p.after.seq).take n ∧
      (j.answer head p through).events.length = n ∧
      (j.answer head p through).resumeAfter = { head.cursor with seq := p.after.seq + n } := by
  intro n
  have hpage : (j.answer head p through).events = (log.drop p.after.seq).take n := h.page_eq hl hf
  have hlen : (j.answer head p through).events.length = n := by
    rw [hpage, List.length_take, List.length_drop]
    omega
  refine ⟨hpage, hlen, ?_⟩
  have hnum : Numbered pos p.after.seq (j.answer head p through).events := by
    rw [hpage]
    have := (hl.numbered.drop (n := p.after.seq) (by omega)).take n
    rwa [Nat.zero_add] at this
  show ((j.answer head p through).events.getLast?.map Envelope.cursor).getD p.after = _
  cases hlast : (j.answer head p through).events.getLast? with
  | none =>
    rw [List.getLast?_eq_none_iff] at hlast
    rw [hlast, List.length_nil] at hlen
    simp only [Option.map_none, Option.getD_none]
    apply Cursor.eq_of_sameStream
    · simpa [Cursor.sameStream] using hs
    · simp only
      omega
  | some e =>
    have hpos := hnum.getLast hlast
    have hmem : e ∈ log := by
      have := List.mem_of_getLast? hlast
      rw [hpage] at this
      exact List.mem_of_mem_drop (List.mem_of_mem_take this)
    simp only [Option.map_some, Option.getD_some]
    rw [hl.cursor_eq hmem, hpos, hlen]

/-- A numbered segment of valid events passes the contiguity loop. -/
theorem checkEvents_ok {validate : ε → Except String Unit} {next : Cursor → Except String Cursor}
    {through : Nat} {gap : String} {base : Cursor}
    (hnext : ∀ n, n < u64Max → next { base with seq := n } = .ok { base with seq := n + 1 }) :
    ∀ {events : List ε} {lo : Nat}, Numbered pos lo events →
      (∀ e ∈ events, (Envelope.cursor e).sameStream base = true) →
      (∀ e ∈ events, validate e = .ok ()) → lo + events.length ≤ through →
      lo + events.length ≤ u64Max →
      checkEvents validate next through gap { base with seq := lo } events =
        .ok { base with seq := lo + events.length }
  | [], lo, _, _, _, _, _ => rfl
  | e :: events, lo, hnum, hs, hv, ht, hm => by
    rw [List.length_cons] at ht hm
    have hcur : Envelope.cursor e = { base with seq := lo + 1 } := by
      apply Cursor.eq_of_sameStream
      · simpa [Cursor.sameStream] using hs e List.mem_cons_self
      · exact hnum.1
    unfold checkEvents
    rw [hv e List.mem_cons_self, ok_bind, hnext lo (by omega), ok_bind, refuse_bind_ok_iff]
    refine ⟨?_, ?_⟩
    · rw [hcur]
      simp only [ne_eq, not_true_eq_false, decide_false, Bool.false_or, decide_eq_false_iff_not]
      omega
    · rw [checkEvents_ok hnext hnum.2 (fun x hx => hs x (List.mem_cons_of_mem _ hx))
        (fun x hx => hv x (List.mem_cons_of_mem _ hx)) (by omega) (by omega), List.length_cons]
      congr 2
      omega

end Journal

/-! ## From one step to every run -/

namespace Feed

variable {σ ε : Type} [Envelope ε]

/-- A feed whose steps keep its journal a window of the log, and whose replay reads it. -/
structure Lawful (f : Feed σ ε) (Good : σ → List ε → Prop) : Prop where
  publish : ∀ {s s' : σ} {log : List ε} {e : ε}, Good s log → f.step s (some e) s' →
    Good s' (log ++ [e])
  retire : ∀ {s s' : σ} {log : List ε}, Good s log → f.step s none s' → Good s' log
  stream : ∀ {s s' : σ} {l : Option ε}, f.step s l s' →
    (f.cursor s').threadId = (f.cursor s).threadId ∧ (f.cursor s').streamId = (f.cursor s).streamId
  log : ∀ {s : σ} {log : List ε}, Good s log → Journal.Log (f.cursor s) log
  window : ∀ {s : σ} {log : List ε}, Good s log →
    (f.journal s).Window (f.limits s) (f.cursor s) log
  current : ∀ {s : σ} {log : List ε}, Good s log → (f.cursor s).seq = log.length
  request : ∀ {p : SubscribeParams}, f.validateParams p = .ok () → p.Request
  valid : ∀ {s : σ} {p : SubscribeParams} {r : SubscribeResult ε}, f.replay s p = .ok r →
    f.validateParams p = .ok ()
  replay : ∀ (s : σ), ∃ (texts : Journal.AheadTexts) (head : Journal.Head),
    head.cursor = f.cursor s ∧ ∀ {p : SubscribeParams}, f.validateParams p = .ok () →
      f.replay s p = (f.journal s).replay texts head p
  answers : ∀ {s : σ} {log : List ε} {p : SubscribeParams} {r : SubscribeResult ε}, Good s log →
    p.threadId = (f.cursor s).threadId → f.replay s p = .ok r → f.validateFor r p = .ok ()

namespace Lawful

variable {f : Feed σ ε} {Good : σ → List ε → Prop} (hf : f.Lawful Good)
include hf

/-- The log after a run. -/
theorem run {s s' : σ} {labels : List (Option ε)} (h : Lts.Run f.step s labels s') :
    ∀ {log : List ε}, Good s log → Good s' (log ++ labels.reduceOption) := by
  induction h with
  | nil s =>
    intro log hg
    simpa using hg
  | @cons s t u l labels hstep hrun ih =>
    intro log hg
    cases l with
    | none => simpa using ih (hf.retire hg hstep)
    | some e => simpa using ih (hf.publish hg hstep)

/-- A run stays on its stream. -/
theorem run_stream {s s' : σ} {labels : List (Option ε)} (h : Lts.Run f.step s labels s') :
    (f.cursor s').threadId = (f.cursor s).threadId ∧
      (f.cursor s').streamId = (f.cursor s).streamId := by
  induction h with
  | nil s => exact ⟨rfl, rfl⟩
  | cons hstep _ ih =>
    obtain ⟨h1, h2⟩ := hf.stream hstep
    exact ⟨ih.1.trans h1, ih.2.trans h2⟩

/-- One page, in a state that still has every event after its position. -/
theorem page {s : σ} {log : List ε} (hg : Good s log) {p : SubscribeParams} {through : Cursor}
    (hv : f.validateParams p = .ok ()) (hs : p.after.sameStream (f.cursor s) = true)
    (hk : (f.journal s).replayFloor.seq ≤ p.after.seq) (ha : p.after.seq ≤ through.seq)
    (ht : through.seq ≤ log.length)
    (hw : p.through = some through ∨ p.through = none ∧ f.cursor s = through) :
    ∃ r, f.replay s p = .ok r ∧ r.gap = none ∧
      r.events = (log.drop p.after.seq).take (min p.limit (through.seq - p.after.seq)) ∧
      r.resumeAfter =
        { f.cursor s with seq := p.after.seq + min p.limit (through.seq - p.after.seq) } ∧
      r.hasMore = decide (r.resumeAfter.seq < through.seq) := by
  obtain ⟨texts, head, hhead, hreplay⟩ := hf.replay s
  have hcur := hf.current hg
  have hmark : Journal.watermark head p = through := by
    unfold Journal.watermark
    rcases hw with hw | ⟨hw, hc⟩
    · rw [hw]
      rfl
    · rw [hw, hhead, hc]
      rfl
  have hfixed : ∀ t, p.through = some t → t.seq ≤ head.cursor.seq := by
    intro t hth
    rw [hhead, hcur]
    rcases hw with hw | ⟨hw, -⟩
    · rw [hw] at hth
      cases hth
      exact ht
    · rw [hw] at hth
      cases hth
  have hans := Journal.replay_of_sameStream texts (f.journal s) (hf.request hv)
    (by rw [hhead]; exact hs) (by rw [hhead]; omega) hfixed
  rw [if_neg (by omega), hmark] at hans
  have hspec := Journal.answer_spec p through (hhead ▸ hf.window hg)
    (hhead ▸ hf.log hg) (by rw [hhead]; exact hs) hk ha ht
  rw [hhead] at hspec
  refine ⟨_, (hreplay hv).trans hans, rfl, hspec.1, hspec.2.2, rfl⟩

/-- What a sequence of pages has read. -/
theorem paging {s : σ} {log : List ε} (hg : Good s log) {after through : Cursor}
    (hs : after.sameStream (f.cursor s) = true) (ha : after.seq ≤ through.seq)
    (ht : through.seq ≤ log.length) {events : List ε} {s' : σ} {pos : Cursor} {more : Bool}
    (h : Paging f through s after events s' pos more) :
    events = (log.drop after.seq).take (pos.seq - after.seq) ∧ after.seq ≤ pos.seq ∧
      pos.seq ≤ through.seq ∧ pos.sameStream (f.cursor s) = true ∧
      (more = true ↔ pos.seq < through.seq) ∧
      ∃ labels, Lts.Run f.step s labels s' := by
  induction h with
  | start => exact ⟨by simp, Nat.le_refl _, ha, hs, by simp, [], .nil s⟩
  | @page events s' s'' pos labels p r before later kept thread position watermark answered ih =>
    obtain ⟨he, h1, h2, h3, -, labels₀, hrun⟩ := ih
    have hrun' := hrun.append later
    have hg' := hf.run hrun' hg
    have hstream := hf.run_stream hrun'
    have hs' : p.after.sameStream (f.cursor s'') = true := by
      rw [position]
      rw [Cursor.sameStream_iff] at h3 ⊢
      exact ⟨h3.1.trans hstream.1.symm, h3.2.trans hstream.2.symm⟩
    obtain ⟨r', hr', -, hev, hres, hmore⟩ := hf.page hg' (hf.valid answered) hs'
      (by rw [position]; exact kept) (by rw [position]; exact h2)
      (by rw [List.length_append]; omega) watermark
    rw [answered] at hr'
    cases hr'
    subst position
    -- the log has only grown since, beyond the high watermark
    have hseg : r.events = (log.drop p.after.seq).take
        (min p.limit (through.seq - p.after.seq)) := by
      rw [hev, List.drop_append_of_le_length (by omega), List.take_append_of_le_length]
      rw [List.length_drop]
      omega
    have hseq : r.resumeAfter.seq = p.after.seq + min p.limit (through.seq - p.after.seq) := by
      rw [hres]
    refine ⟨?_, by omega, by omega, ?_, by rw [hmore, decide_eq_true_iff], _, hrun'⟩
    · have hsplit : r.resumeAfter.seq - after.seq =
          (p.after.seq - after.seq) + min p.limit (through.seq - p.after.seq) := by omega
      rw [he, hseg, hsplit, List.take_add, List.drop_drop]
      congr 3
      omega
    · rw [hres, Cursor.sameStream_iff]
      exact hstream

/-- What a subscriber may rely on after every run. -/
theorem exact {s₀ s : σ} {labels : List (Option ε)} (h₀ : Good s₀ [])
    (h : Lts.Run f.step s₀ labels s) : f.Exact s labels.reduceOption := by
  have hg : Good s labels.reduceOption := by simpa using hf.run h h₀
  have hw := hf.window hg
  have hcur := hf.current hg
  refine ⟨(hf.log hg).numbered, hcur, by rw [hcur]; exact hw.floor_le, hw.entries, hw.bytes, hw.count,
    hw.size, fun p r => hf.answers hg, ?_, ?_, ?_⟩
  · intro p hv hs hth hlt
    obtain ⟨texts, head, hhead, hreplay⟩ := hf.replay s
    have hfl := hw.floor_le
    have hans := Journal.replay_of_sameStream texts (f.journal s) (hf.request hv)
      (by rw [hhead]; exact hs) (by rw [hhead]; omega) (by rw [hhead]; exact hth)
    rw [if_pos hlt] at hans
    exact ⟨_, _, (hreplay hv).trans hans, rfl, rfl⟩
  · intro after through pos events s' more hs _ _ ha ht hp
    obtain ⟨he, -, hle, -, hm, -⟩ := hf.paging hg hs ha (by omega) hp
    exact ⟨he, hle, hm⟩
  · intro after through pos events s' s'' labels' p hs _ _ ha ht hp later kept hv _ position mark
    obtain ⟨-, h1, h2, h3, hm, labels₀, hrun⟩ := hf.paging hg hs ha (by omega) hp
    have hrun' := hrun.append later
    have hstream := hf.run_stream hrun'
    have hlt : pos.seq < through.seq := hm.mp rfl
    have hs' : p.after.sameStream (f.cursor s'') = true := by
      rw [position]
      rw [Cursor.sameStream_iff] at h3 ⊢
      exact ⟨h3.1.trans hstream.1.symm, h3.2.trans hstream.2.symm⟩
    obtain ⟨r, hr, hgap, hev, -⟩ := hf.page (hf.run hrun' hg) hv hs' (by rw [position]; exact kept)
      (by rw [position]; exact h2) (by rw [List.length_append]; omega) mark
    refine ⟨r, hr, hgap, fun hnil => ?_⟩
    have hlim := (hf.request hv).limit
    rw [hnil] at hev
    have hlen := congrArg List.length hev
    rw [List.length_take, List.length_drop, List.length_append, position, List.length_nil] at hlen
    omega

end Lawful

end Feed

end Whale
