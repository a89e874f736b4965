import Mathlib.Data.List.Induction
import Mathlib.Data.List.TakeWhile
import Whale.Daemon.Proof.Replay

/-!
# The lifecycle at a watermark

A replay reports the lifecycle at its high watermark. `lifecycle_at` recomputes it from the journal, starting
from `Open`: that is the lifecycle the snapshot had there as long as the journal has the last change up to the
watermark, or there was none (`replay_lifecycle_iff`).
-/

namespace Whale

open Check

/-- The lifecycle after an event. -/
def SessionEventEnvelopeV2.lifecycleAfter (lifecycle : SessionLifecycleState) (e : SessionEventEnvelopeV2) :
    SessionLifecycleState :=
  match e.payload with
  | .lifecycleChanged next => next
  | _ => lifecycle

/-- An event that changes the lifecycle. -/
def SessionEventEnvelopeV2.changesLifecycle (e : SessionEventEnvelopeV2) : Bool :=
  match e.payload with
  | .lifecycleChanged _ => true
  | _ => false

open SessionEventEnvelopeV2

/-- Without a change, events leave a lifecycle as it is. -/
theorem foldl_lifecycleAfter {events : List SessionEventEnvelopeV2} (h : ∀ e ∈ events, e.changesLifecycle = false)
    (lifecycle : SessionLifecycleState) : events.foldl lifecycleAfter lifecycle = lifecycle := by
  induction events with
  | nil => rfl
  | cons e events ih =>
    obtain ⟨he, hevents⟩ := List.forall_mem_cons.1 h
    have hsame : lifecycleAfter lifecycle e = lifecycle := by
      unfold lifecycleAfter
      unfold changesLifecycle at he
      split <;> simp_all
    rw [List.foldl_cons, hsame, ih hevents]

/-- Behind a change, events lead to the same lifecycle from everywhere. -/
theorem foldl_lifecycleAfter_eq {events : List SessionEventEnvelopeV2}
    (h : ∃ e ∈ events, e.changesLifecycle = true) (lifecycle lifecycle' : SessionLifecycleState) :
    events.foldl lifecycleAfter lifecycle = events.foldl lifecycleAfter lifecycle' := by
  induction events generalizing lifecycle lifecycle' with
  | nil => simp at h
  | cons e events ih =>
    rw [List.foldl_cons, List.foldl_cons]
    by_cases hrest : ∃ e ∈ events, e.changesLifecycle = true
    · exact ih hrest _ _
    · obtain ⟨x, hx, hchange⟩ := h
      have hxe : x = e := by
        rcases List.mem_cons.1 hx with hx | hx
        · exact hx
        · exact absurd ⟨x, hx, hchange⟩ hrest
      subst hxe
      have hsame : lifecycleAfter lifecycle x = lifecycleAfter lifecycle' x := by
        unfold changesLifecycle at hchange
        unfold lifecycleAfter
        split at hchange
        · rfl
        · cases hchange
      rw [hsame]

namespace ManagementProjection

theorem lastLifecycle_eq (es : List (JournalEntry SessionEventEnvelopeV2)) (lifecycle : SessionLifecycleState) :
    lastLifecycle es lifecycle = (es.map (·.envelope)).foldl lifecycleAfter lifecycle := by
  induction es generalizing lifecycle with
  | nil => rfl
  | cons e es ih =>
    have hstep : lastLifecycle (e :: es) lifecycle = lastLifecycle es (lifecycleAfter lifecycle e.envelope) := by
      rw [lastLifecycle, lifecycleAfter]
      cases e.envelope.payload <;> rfl
    rw [hstep, ih]
    rfl

end ManagementProjection

section
variable [External]

/-- The lifecycle of an applied event is that after it. -/
theorem SessionSnapshotV2.Applied.lifecycle_eq {s s' : SessionSnapshotV2} {e : SessionEventEnvelopeV2}
    (h : s.Applied e s') : s'.lifecycle = lifecycleAfter s.lifecycle e := by
  obtain ⟨next, hpayload, rfl⟩ := h.payload
  have hlegacy : ∀ {payload : SessionEventPayload}, s.applyV1Payload e payload = .ok next →
      next.lifecycle = s.lifecycle := fun hp => by
    obtain ⟨_, -, hp⟩ := bind_ok hp
    cases hp
    rfl
  show next.lifecycle = _
  unfold applyPayload at hpayload
  unfold lifecycleAfter
  cases hp : e.payload with
  | runChanged run =>
    rw [hp] at hpayload
    obtain ⟨_, -, hpayload⟩ := bind_ok hpayload
    exact hlegacy hpayload
  | runEvent event =>
    rw [hp] at hpayload
    exact hlegacy hpayload
  | metadataChanged metadata =>
    rw [hp] at hpayload
    obtain ⟨-, hpayload⟩ := refuse_bind_ok hpayload
    obtain ⟨_, -, hpayload⟩ := bind_ok hpayload
    cases hpayload
    rfl
  | lifecycleChanged lifecycle =>
    rw [hp] at hpayload
    simp only at hpayload ⊢
    unfold applyLifecycle at hpayload
    split at hpayload
    · cases hpayload
      rfl
    · obtain ⟨-, hpayload⟩ := refuse_bind_ok hpayload
      cases hpayload
      rfl
    · cases hpayload

variable [EventSerde]

namespace ManagementProjection

omit [External] [EventSerde] in
/-- The entries up to a position are a segment of the log. -/
theorem entries_upTo {p : ManagementProjection} {log : List SessionEventEnvelopeV2}
    (hw : p.journal.Window managementJournalLimits p.snapshot.cursor log)
    (hl : Journal.Log p.snapshot.cursor log) (through : Nat) :
    p.journal.entries.takeWhile (fun e => decide (Journal.seq e ≤ through)) =
      p.journal.entries.take (through - p.journal.replayFloor.seq) := by
  have hdrop : p.journal.entries.dropWhile (fun e => decide (Journal.seq e ≤ through)) =
      p.journal.entries.drop (through - p.journal.replayFloor.seq) := (hw.numbered hl).dropWhile_le through
  have hsplit := List.takeWhile_append_dropWhile (p := fun e => decide (Journal.seq e ≤ through))
    (l := p.journal.entries)
  rw [hdrop] at hsplit
  exact List.append_cancel_right (hsplit.trans (List.take_append_drop _ _).symm)

omit [External] [EventSerde] in
theorem mem_upTo {p : ManagementProjection} {log : List SessionEventEnvelopeV2}
    (hw : p.journal.Window managementJournalLimits p.snapshot.cursor log)
    (hl : Journal.Log p.snapshot.cursor log) {through : Nat} (hfloor : p.journal.replayFloor.seq ≤ through)
    {e : JournalEntry SessionEventEnvelopeV2} :
    e ∈ p.journal.entries.takeWhile (fun e => decide (Journal.seq e ≤ through)) ↔
      e ∈ p.journal.entries ∧ Journal.seq e ≤ through := by
  refine ⟨fun he => ⟨List.takeWhile_subset _ he, by simpa using List.mem_takeWhile_imp he⟩, ?_⟩
  rintro ⟨he, hle⟩
  rw [entries_upTo hw hl]
  rw [← List.take_append_drop (through - p.journal.replayFloor.seq) p.journal.entries] at he
  rcases List.mem_append.1 he with he | he
  · exact he
  · -- the entries that are dropped come after the position
    have hlen : through - p.journal.replayFloor.seq ≤ p.journal.entries.length := by
      by_contra hc
      rw [List.drop_eq_nil_of_le (by omega)] at he
      cases he
    have hpos : p.journal.replayFloor.seq + (through - p.journal.replayFloor.seq) < Journal.seq e :=
      (((hw.numbered hl).drop hlen).mem_bounds he).1
    omega

/-- What holds of a projection and the events published so far. -/
structure Traced (log : List SessionEventEnvelopeV2) (p : ManagementProjection) : Prop where
  good : p.Good log
  lifecycle : p.snapshot.lifecycle = log.foldl lifecycleAfter .opened

theorem Traced.step {labels : List (Option SessionEventEnvelopeV2)} {p p' : ManagementProjection}
    {label : Option SessionEventEnvelopeV2} (h : Traced labels.reduceOption p) (hs : Step p label p') :
    Traced (labels ++ [label]).reduceOption p' := by
  cases hs with
  | @publish _ e occurredAtMs payload runIdentity prepared =>
    rw [List.reduceOption_append, List.reduceOption_singleton]
    refine ⟨h.good.publish prepared, ?_⟩
    rw [(prepare_ok prepared).1.lifecycle_eq, h.lifecycle, Option.toList_some, List.foldl_append]
    rfl
  | retire turnId identity prepared =>
    rw [List.reduceOption_append, List.reduceOption_singleton, Option.toList_none, List.append_nil]
    rw [prepareRetireRun_some prepared]
    exact ⟨{ h.good with window := h.good.window.scrubRun h.good.logged turnId }, h.lifecycle⟩

/-- The projection had this lifecycle when its cursor was at a position, on the way from the first to the
last state of a run. -/
def LifecycleAt (p₀ : ManagementProjection) (labels : List (Option SessionEventEnvelopeV2))
    (p : ManagementProjection) (seq : Nat) (lifecycle : SessionLifecycleState) : Prop :=
  ∃ before s after, labels = before ++ after ∧ Lts.Run Step p₀ before s ∧ Lts.Run Step s after p ∧
    s.snapshot.cursor.seq = seq ∧ s.snapshot.lifecycle = lifecycle

/-- What was published on the way to a state is what was published up to its cursor. -/
theorem LifecycleAt.eq {p₀ p : ManagementProjection} {labels : List (Option SessionEventEnvelopeV2)}
    {seq : Nat} {lifecycle : SessionLifecycleState} (h₀ : Traced [] p₀)
    (h : LifecycleAt p₀ labels p seq lifecycle) :
    lifecycle = (labels.reduceOption.take seq).foldl lifecycleAfter .opened := by
  obtain ⟨before, s, after, rfl, hbefore, -, rfl, rfl⟩ := h
  have hs : Traced before.reduceOption s :=
    hbefore.traced (fun labels p => Traced labels.reduceOption p) (fun _ _ _ _ => Traced.step) h₀
  rw [List.reduceOption_append, hs.good.current, List.take_left, hs.lifecycle]

/-- A run passes through every position up to its last. -/
theorem lifecycleAt_exists {p₀ : ManagementProjection} (h₀ : Traced [] p₀) :
    ∀ {labels : List (Option SessionEventEnvelopeV2)} {p : ManagementProjection} {seq : Nat},
      Lts.Run Step p₀ labels p → seq ≤ p.snapshot.cursor.seq →
      ∃ lifecycle, LifecycleAt p₀ labels p seq lifecycle := by
  intro labels
  induction labels using List.reverseRecOn with
  | nil =>
    intro p seq h hseq
    cases h
    have hcurrent := h₀.good.current
    rw [List.length_nil] at hcurrent
    exact ⟨_, [], p₀, [], rfl, .nil _, .nil _, by omega, rfl⟩
  | append_singleton labels label ih =>
    intro p seq h hseq
    obtain ⟨q, hq, hs⟩ := h.unsnoc
    by_cases hlast : seq ≤ q.snapshot.cursor.seq
    · obtain ⟨lifecycle, before, s, after, rfl, hbefore, hafter, hpos, hlifecycle⟩ := ih hq hlast
      exact ⟨lifecycle, before, s, after ++ [label], List.append_assoc _ _ _, hbefore, hafter.snoc hs, hpos,
        hlifecycle⟩
    · -- the last step published the event of the position
      have hnext : p.snapshot.cursor.seq ≤ q.snapshot.cursor.seq + 1 := by
        cases hs with
        | publish _ _ _ prepared =>
          have ha := (prepare_ok prepared).1
          have hcursor := ha.cursor_eq.trans ha.cursor
          rw [hcursor]
        | retire _ _ prepared =>
          rw [prepareRetireRun_some prepared]
          exact Nat.le_succ _
      exact ⟨_, labels ++ [label], p, [], (List.append_nil _).symm, h, .nil _, by omega, rfl⟩

omit [EventSerde] in
/-- What is left of the journal leads to the lifecycle at a watermark if and only if it starts from `Open` or
has a change. -/
theorem lastLifecycle_iff {p : ManagementProjection} {log : List SessionEventEnvelopeV2} (hg : p.Good log)
    {through : Nat} (hfloor : p.journal.replayFloor.seq ≤ through) :
    lastLifecycle (p.journal.entries.takeWhile fun e => decide (Journal.seq e ≤ through)) .opened =
        (log.take through).foldl lifecycleAfter .opened ↔
      (log.take p.journal.replayFloor.seq).foldl lifecycleAfter .opened = .opened ∨
        ∃ e ∈ p.journal.entries, Journal.seq e ≤ through ∧ e.envelope.changesLifecycle = true := by
  let kept := p.journal.entries.takeWhile fun e => decide (Journal.seq e ≤ through)
  -- the log up to the watermark is the log up to the floor and the events the journal still has
  have hsplit : log.take through = log.take p.journal.replayFloor.seq ++ kept.map (·.envelope) := by
    have hkept : kept.map (·.envelope) =
        (log.drop p.journal.replayFloor.seq).take (through - p.journal.replayFloor.seq) := by
      rw [← hg.window.entries, ← List.map_take]
      exact congrArg _ (entries_upTo hg.window hg.logged through)
    rw [hkept, ← List.take_add, Nat.add_sub_cancel' hfloor]
  have hmem : ∀ {e}, e ∈ kept ↔ e ∈ p.journal.entries ∧ Journal.seq e ≤ through :=
    mem_upTo hg.window hg.logged hfloor
  rw [lastLifecycle_eq, hsplit, List.foldl_append]
  by_cases hchange : ∃ e ∈ kept.map (·.envelope), changesLifecycle e = true
  · refine ⟨fun _ => .inr ?_, fun _ => foldl_lifecycleAfter_eq hchange _ _⟩
    obtain ⟨_, hmapped, hchange⟩ := hchange
    obtain ⟨e, he, rfl⟩ := List.mem_map.1 hmapped
    exact ⟨e, (hmem.1 he).1, (hmem.1 he).2, hchange⟩
  · have hnone : ∀ e ∈ kept.map (·.envelope), changesLifecycle e = false := fun e he =>
      Bool.eq_false_iff.2 fun hc => hchange ⟨e, he, hc⟩
    rw [foldl_lifecycleAfter hnone, foldl_lifecycleAfter hnone]
    refine ⟨fun heq => .inl heq.symm, ?_⟩
    rintro (heq | ⟨e, he, hle, hc⟩)
    · exact heq.symm
    · exact absurd ⟨e.envelope, List.mem_map_of_mem (hmem.2 ⟨he, hle⟩), hc⟩ hchange

omit [External] [EventSerde] in
/-- An answer without a gap is a page from a position at or after the floor. -/
theorem replay_page {p : ManagementProjection} {params : SubscribeParams}
    {result : SubscribeResult SessionEventEnvelopeV2} (ht : params.threadId = p.snapshot.cursor.threadId)
    (h : p.replay params = .ok result) (hgap : result.gap = none) :
    p.journal.replayFloor.seq ≤ result.through.seq ∧ result.through.seq ≤ p.snapshot.cursor.seq ∧
      result.lifecycle = some (p.lifecycleAt result.through.seq) := by
  have hp : params.validateV2 = .ok () := by
    unfold replay at h
    obtain ⟨_, hp, -⟩ := bind_ok h
    exact hp
  rw [replay_eq hp] at h
  rcases Journal.replay_ok (SubscribeParams.validateV2_ok hp).1 ht h with
    ⟨-, rfl⟩ | ⟨-, hafter, hahead, ⟨-, rfl⟩ | ⟨hfloor, rfl⟩⟩
  · cases hgap
  · cases hgap
  · exact ⟨Nat.le_trans hfloor hafter, hahead, rfl⟩

end ManagementProjection

open ManagementProjection

/-- **Lifecycles at a watermark**: on every sequence of publications and run retirements, an answer without a
gap reports the lifecycle the session had when the event at the watermark was applied if and only if that is
the current position, the session was still `Open` at the replay floor, or the journal has a lifecycle event up
to the watermark. -/
theorem replay_lifecycle_iff (owner threadId : String) (agentName : Option String) (metadata : JsonMap)
    (history : List CanonicalItem) (createdAtMs : Nat) (persistence : SessionPersistence)
    (maxHistoryBytes : Option Nat) (streamId : String) (m : ManagementRecord) (p : ManagementProjection)
    (labels : List (Option SessionEventEnvelopeV2)) (caller : String) (params : SubscribeParams)
    (result : SubscribeResult SessionEventEnvelopeV2)
    (h₀ : ManagementRecord.insert owner threadId agentName metadata history createdAtMs persistence
      maxHistoryBytes streamId = .ok m)
    (hrun : Lts.Run Step m.projection labels p)
    (h : { m with projection := p }.subscribe caller params = .ok result) (hgap : result.gap = none) :
    (∃ l f, LifecycleAt m.projection labels p result.through.seq l ∧
      LifecycleAt m.projection labels p p.journal.replayFloor.seq f) ∧
    ∀ l f, LifecycleAt m.projection labels p result.through.seq l →
      LifecycleAt m.projection labels p p.journal.replayFloor.seq f →
      (result.lifecycle = some l ↔
        result.through.seq = p.snapshot.cursor.seq ∨ f = .opened ∨
          ∃ e ∈ p.journal.entries, Journal.seq e ≤ result.through.seq ∧ e.envelope.changesLifecycle = true) := by
  have htraced₀ : Traced [] m.projection := ⟨ManagementRecord.good_of_insert h₀, by
    unfold ManagementRecord.insert at h₀
    obtain ⟨_, -, h₀⟩ := bind_ok h₀
    obtain ⟨_, -, h₀⟩ := bind_ok h₀
    obtain ⟨_, -, h₀⟩ := bind_ok h₀
    cases h₀
    rfl⟩
  have htraced : Traced labels.reduceOption p :=
    hrun.traced (fun labels p => Traced labels.reduceOption p) (fun _ _ _ _ => Traced.step) htraced₀
  have hg := htraced.good
  obtain ⟨_, howned, h⟩ := bind_ok h
  rw [mapError_ok_iff] at h
  have hthread : params.threadId = p.snapshot.cursor.threadId := by
    have hsame := refuse_ok howned
    simp only [Bool.or_eq_false_iff, bne_eq_false_iff_eq] at hsame
    exact hsame.1.trans (SessionSnapshotV2.validate_iff.mp hg.snapshot).thread
  obtain ⟨hfloor, hahead, hreported⟩ := replay_page hthread h hgap
  refine ⟨?_, fun l f hl hf => ?_⟩
  · obtain ⟨l, hl⟩ := lifecycleAt_exists htraced₀ hrun hahead
    obtain ⟨f, hf⟩ := lifecycleAt_exists htraced₀ hrun (Nat.le_trans hfloor hahead)
    exact ⟨l, f, hl, hf⟩
  · rw [hreported, Option.some_inj, hl.eq htraced₀, hf.eq htraced₀]
    unfold ManagementProjection.lifecycleAt
    by_cases hcurrent : result.through.seq = p.snapshot.cursor.seq
    · have hall : labels.reduceOption.take result.through.seq = labels.reduceOption := by
        rw [hcurrent, hg.current, List.take_length]
      rw [if_pos (beq_iff_eq.2 hcurrent), hall]
      exact ⟨fun _ => .inl hcurrent, fun _ => htraced.lifecycle⟩
    · rw [if_neg (by simpa using hcurrent), lastLifecycle_iff hg hfloor]
      exact ⟨.inr, fun hor => hor.resolve_left hcurrent⟩

end

open ManagementProjection

/-- What a client of a session with a run in progress is told. -/
theorem replay_lifecycle_iff_after_begin :
    ∃ (p : ManagementProjection) (e : SessionEventEnvelopeV2) (result : SubscribeResult SessionEventEnvelopeV2),
      { Sample.managementRecord with projection := p }.subscribe "o"
          ⟨"t", Sample.origin, none, 16⟩ = .ok result ∧
      ∀ l f, @LifecycleAt Sample.host Sample.serde Sample.managementRecord.projection [some e] p
          result.through.seq l →
        @LifecycleAt Sample.host Sample.serde Sample.managementRecord.projection [some e] p
          p.journal.replayFloor.seq f →
        (result.lifecycle = some l ↔
          result.through.seq = p.snapshot.cursor.seq ∨ f = .opened ∨
            ∃ e ∈ p.journal.entries, Journal.seq e ≤ result.through.seq ∧
              e.envelope.changesLifecycle = true) := by
  have hs := @ManagementProjection.Step.publish Sample.host Sample.serde
    Sample.managementRecord.projection _ _ 7 (.runChanged (.new (Sample.started "r") 7))
    (some ("r", 1)) rfl
  exact ⟨_, _, _, rfl, (@replay_lifecycle_iff Sample.host Sample.serde "o" "t" none [] [] 0 .ephemeral none "s"
    Sample.managementRecord _ _ "o" ⟨"t", Sample.origin, none, 16⟩ _ rfl (.single hs) rfl rfl).2⟩

/-! ## A lifecycle change that is scrubbed -/

namespace Sample

/-- The end of a run that was cancelled. -/
def stopped (turnId : String) : RunEvent where
  threadId := "t"
  turnId := turnId
  seq := 1
  payload := .finished { started turnId with status := .cancelled, lastSeq := 1 }

/-- The run begins, the session is closing, the run ends. -/
def runBegun : ManagementProjection × SessionEventEnvelopeV2 :=
  publishedV2 managementRecord.projection (.runChanged (.new (started "r") 7)) (some ("r", 1))

def runClosing : ManagementProjection × SessionEventEnvelopeV2 :=
  publishedV2 runBegun.1 (.lifecycleChanged .closing) none

def runFinished : ManagementProjection × SessionEventEnvelopeV2 :=
  publishedV2 runClosing.1 (.runEvent (stopped "r")) none

/-- The journal without the run. -/
def scrubbed : ManagementProjection :=
  { runFinished.1 with
    journal := runFinished.1.journal.scrubRun "r"
    runIdentities := setKey runFinished.1.runIdentities "r" none }

def sessionClosed : ManagementProjection × SessionEventEnvelopeV2 :=
  publishedV2 scrubbed (.lifecycleChanged .closed) none

/-- Up to the last event of the run. -/
def upToRun : SubscribeParams := ⟨"t", ⟨"t", "s", 3⟩, some ⟨"t", "s", 3⟩, 16⟩

end Sample

/-- A session is closed while a run is active. With the run its journal loses everything up to the run's last
event, among it the change to `Closing`, and then the session is `Closed`: a page that ends where the journal
begins reports `Open`. -/
theorem replay_lifecycle_forgotten :
    ∃ (p : ManagementProjection) (labels : List (Option SessionEventEnvelopeV2))
      (result : SubscribeResult SessionEventEnvelopeV2),
      @ManagementRecord.insert Sample.host Sample.serde "o" "t" none [] [] 0 .ephemeral none "s" =
        .ok Sample.managementRecord ∧
      Lts.Run (@Step Sample.host Sample.serde) Sample.managementRecord.projection labels p ∧
      { Sample.managementRecord with projection := p }.subscribe "o" Sample.upToRun = .ok result ∧
      result.gap = none ∧
      @LifecycleAt Sample.host Sample.serde Sample.managementRecord.projection labels p result.through.seq
        .closing ∧
      result.lifecycle = some .opened := by
  have hfinished : Lts.Run (@Step Sample.host Sample.serde) Sample.managementRecord.projection
      [some Sample.runBegun.2, some Sample.runClosing.2, some Sample.runFinished.2] Sample.runFinished.1 :=
    .cons (Sample.publishedV2_step (by decide +kernel))
      (.cons (Sample.publishedV2_step (by decide +kernel))
        (.single (Sample.publishedV2_step (by decide +kernel))))
  have hretired : @Step Sample.host Sample.serde Sample.runFinished.1 none Sample.scrubbed :=
    @Step.retire Sample.host Sample.serde _ _ "r" 1 rfl
  have hclosed : Lts.Run (@Step Sample.host Sample.serde) Sample.runFinished.1
      [none, some Sample.sessionClosed.2] Sample.sessionClosed.1 :=
    .cons hretired (.single (Sample.publishedV2_step (by decide +kernel)))
  exact ⟨_, _, _, rfl, hfinished.append hclosed, rfl, rfl,
    ⟨_, _, _, rfl, hfinished, hclosed, rfl, rfl⟩, rfl⟩

end Whale
