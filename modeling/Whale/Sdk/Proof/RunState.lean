import Whale.Lib.Numbered
import Whale.Sdk.RunState

/-!
# The events and the outcome of a run

What `accept` makes of a sequence of events (`flag`): it accepts those of the run whose sequence number is above all
before. While the sender is there the stream has got, or can still read, all accepted events but the one at hand
(`Delivering`); it goes behind a gap, a full channel or the end of the run, and in the first two cases the lag flag is
set before. So the end of the stream, without an error and without a `fail`, stands behind a `Finished` event.
-/

namespace Whale

/-! ### The accepted events -/

/-- The highest sequence number of the run's events, and of `last`. -/
def highest (threadId turnId : String) (last : Nat) (events : List RunEvent) : Nat :=
  events.foldl (fun last e => if e.isOf threadId turnId then max last e.seq else last) last

/-- The events, with whether each is of the run and above all before. -/
def flag (threadId turnId : String) : Nat → List RunEvent → List (RunEvent × Bool)
  | _, [] => []
  | last, e :: es =>
    (e, e.isOf threadId turnId && decide (last < e.seq)) ::
      flag threadId turnId (if e.isOf threadId turnId then max last e.seq else last) es

/-- The events that are accepted. -/
def acceptedOf (threadId turnId : String) (events : List RunEvent) : List RunEvent :=
  ((flag threadId turnId 0 events).filter (·.2)).map (·.1)

/-- The answers of `accept`: whether an event is accepted and `Finished`. -/
def verdicts (threadId turnId : String) (events : List RunEvent) : List (RunEvent × Bool) :=
  (flag threadId turnId 0 events).map fun x => (x.1, x.2 && x.1.payload.isFinished)

/-- The list ends with its only `Finished` event. -/
def EndsFinished (events : List RunEvent) : Prop :=
  ∃ init last, events = init ++ [last] ∧ last.payload.isFinished = true ∧
    ∀ e ∈ init, e.payload.isFinished = false

theorem highest_snoc {threadId turnId : String} {last : Nat} {events : List RunEvent} {e : RunEvent} :
    highest threadId turnId last (events ++ [e]) =
      if e.isOf threadId turnId then max (highest threadId turnId last events) e.seq
      else highest threadId turnId last events := by
  unfold highest
  rw [List.foldl_append, List.foldl_cons, List.foldl_nil]

theorem flag_snoc {threadId turnId : String} {last : Nat} {events : List RunEvent} {e : RunEvent} :
    flag threadId turnId last (events ++ [e]) = flag threadId turnId last events ++
      [(e, e.isOf threadId turnId && decide (highest threadId turnId last events < e.seq))] := by
  induction events generalizing last with
  | nil => rfl
  | cons e' es ih =>
    rw [List.cons_append, flag, ih, flag]
    rfl

theorem acceptedOf_snoc {threadId turnId : String} {events : List RunEvent} {e : RunEvent} :
    acceptedOf threadId turnId (events ++ [e]) = acceptedOf threadId turnId events ++
      if e.isOf threadId turnId && decide (highest threadId turnId 0 events < e.seq) then [e] else [] := by
  unfold acceptedOf
  rw [flag_snoc, List.filter_append, List.map_append]
  congr 1
  cases he : e.isOf threadId turnId && decide (highest threadId turnId 0 events < e.seq) <;> simp

theorem verdicts_snoc {threadId turnId : String} {events : List RunEvent} {e : RunEvent} :
    verdicts threadId turnId (events ++ [e]) = verdicts threadId turnId events ++
      [(e, (e.isOf threadId turnId && decide (highest threadId turnId 0 events < e.seq)) &&
        e.payload.isFinished)] := by
  unfold verdicts
  rw [flag_snoc, List.map_append]
  rfl

/-! ### What the calls do -/

namespace RunState

theorem settle_eq {s : RunState} {outcome : Except String RunSnapshot} :
    s.settle outcome = { s with terminal := some (s.terminal.getD outcome) } := by
  unfold settle
  split
  · rename_i o heq
    rw [heq]
    cases s
    simp_all
  · rename_i heq
    rw [heq]
    rfl

/-- The snapshot is one of a terminal state of the run, with a result. -/
structure Fits (s : RunState) (snapshot : RunSnapshot) : Prop where
  threadId : snapshot.threadId = s.threadId
  turnId : snapshot.turnId = s.turnId
  terminal : snapshot.status.isTerminal = true
  result : snapshot.result.isSome

theorem complete_ok {s s' : RunState} {snapshot : RunSnapshot} (h : s.complete snapshot = .ok s') :
    s' = s ∨ s' = s.settle (.ok snapshot) ∧ s.Fits snapshot := by
  unfold complete at h
  split at h
  · cases h
  · rename_i hid
    simp only [Bool.or_eq_true, bne_iff_ne, not_or, not_not] at hid
    split at h
    · rename_i hterm
      split at h
      · cases h
      · rename_i hres
        cases h
        exact .inr ⟨rfl, hid.1, hid.2, hterm, by simpa [Option.isSome_iff_ne_none] using hres⟩
    · cases h
      exact .inl rfl

/-- What every call keeps: the identity, and the outcome once it is there. -/
structure Same (s s' : RunState) : Prop where
  threadId : s'.threadId = s.threadId
  turnId : s'.turnId = s.turnId
  terminal : ∀ outcome, s.terminal = some outcome → s'.terminal = some outcome

theorem Fits.of_same {s s' : RunState} (hsame : s.Same s') {snapshot : RunSnapshot} (h : s.Fits snapshot) :
    s'.Fits snapshot :=
  ⟨h.threadId.trans hsame.threadId.symm, h.turnId.trans hsame.turnId.symm, h.terminal, h.result⟩

theorem settle_terminal {s : RunState} {outcome outcome' : Except String RunSnapshot}
    (h : (s.settle outcome).terminal = some outcome') : s.terminal = some outcome' ∨ outcome' = outcome := by
  rw [settle_eq] at h
  cases hterm : s.terminal with
  | none =>
    rw [hterm] at h
    exact .inr (Option.some.inj h).symm
  | some o =>
    rw [hterm] at h
    exact .inl h

/-- What one advance of `accept` does. -/
inductive Advanced (s : RunState) : AcceptPoint → RunState → AcceptPoint → Prop
  | note {e : RunEvent} {previous : Nat} (query : Option QueryOwnership) :
      Advanced s (.fetched e previous) { s with query } (.noted e previous)
  | record {e : RunEvent} {previous : Nat} (legacyEvents : Option (List RunEvent)) :
      Advanced s (.noted e previous) { s with legacyEvents } (.recorded e previous)
  | gap {e : RunEvent} {previous : Nat} (skips : e.seq ≠ previous + 1) :
      Advanced s (.recorded e previous) { s with lagged := true } (.gap e)
  | next {e : RunEvent} {previous : Nat} (follows : e.seq = previous + 1) :
      Advanced s (.recorded e previous) s (.sending e)
  | lose {e : RunEvent} : Advanced s (.gap e) s.dropSender (.sending e)
  | skip {e : RunEvent} (dropped : s.sender = false) : Advanced s (.sending e) s (.sent e)
  | push {e : RunEvent} (present : s.sender = true) (room : s.channel.length < eventCapacity) :
      Advanced s (.sending e) { s with channel := s.channel ++ [e] } (.sent e)
  | full {e : RunEvent} : Advanced s (.sending e) s (.full e)
  | gone {e : RunEvent} (gone : s.receiver = false) : Advanced s (.sending e) s (.dropping e)
  | lag {e : RunEvent} : Advanced s (.full e) { s with lagged := true } (.dropping e)
  | drop {e : RunEvent} : Advanced s (.dropping e) s.dropSender (.sent e)
  | stream {e : RunEvent} (stream : e.payload.isFinished = false) :
      Advanced s (.sent e) s (.returning e false)
  | finished {e : RunEvent} {snapshot : RunSnapshot} (finished : e.payload = .finished snapshot) :
      Advanced s (.sent e) s.dropSender (.finishing e snapshot)
  | invalid {e : RunEvent} {snapshot : RunSnapshot} (message : String) :
      Advanced s (.finishing e snapshot) s (.failing e message true)
  | completed {e : RunEvent} {snapshot : RunSnapshot} {s' : RunState} (ok : s.complete snapshot = .ok s') :
      Advanced s (.finishing e snapshot) s' (.returning e true)
  | settle {e : RunEvent} {message : String} {ended : Bool} :
      Advanced s (.failing e message ended) (s.settle (.error message)) (.failed e ended)
  | fail {e : RunEvent} {ended : Bool} : Advanced s (.failed e ended) s.dropSender (.returning e ended)
  | stay {e : RunEvent} {ended : Bool} : Advanced s (.returning e ended) s (.returning e ended)

theorem advance_cases (s : RunState) (point : AcceptPoint) :
    s.Advanced point (s.advance point).1 (s.advance point).2 := by
  cases point with
  | fetched event previous => exact .note _
  | noted event previous => exact .record _
  | recorded event previous =>
    simp only [advance]
    split
    · rename_i hseq
      exact .gap (by simpa using hseq)
    · rename_i hseq
      exact .next (by simpa using hseq)
  | gap event => exact .lose
  | sending event =>
    simp only [advance]
    split
    · rename_i hdropped
      exact .skip (by simpa using hdropped)
    · rename_i hpresent
      split
      · rename_i hgone
        exact .gone (by simpa using hgone)
      · split
        · exact .push (by simpa using hpresent) ‹_›
        · exact .full
  | full event => exact .lag
  | dropping event => exact .drop
  | sent event =>
    simp only [advance]
    split
    · rename_i hpay
      exact .stream (by rw [hpay]; rfl)
    · exact .finished ‹_›
  | finishing event snapshot =>
    simp only [advance, finish]
    split
    · exact .invalid _
    · split
      · exact .completed ‹_›
      · exact .invalid _
  | failing event message ended => exact .settle
  | failed event ended => exact .fail
  | returning event ended => exact .stay

/-- What the calls but `accept` and the drop of the stream keep: also the sequence number, the receiver, and a
channel without a sender. -/
structure Frame (s s' : RunState) : Prop extends Same s s' where
  lastSeq : s'.lastSeq = s.lastSeq
  receiver : s'.receiver = s.receiver
  dropped : s.sender = false → s'.sender = false ∧ s'.channel = s.channel

theorem Frame.refl (s : RunState) : s.Frame s := ⟨⟨rfl, rfl, fun _ h => h⟩, rfl, rfl, fun h => ⟨h, rfl⟩⟩

theorem frame_aside (s : RunState) (legacyEvents : Option (List RunEvent)) (query : Option QueryOwnership) :
    s.Frame { s with legacyEvents, query } :=
  ⟨⟨rfl, rfl, fun _ h => h⟩, rfl, rfl, fun h => ⟨h, rfl⟩⟩

theorem frame_settle (s : RunState) (outcome : Except String RunSnapshot) : s.Frame (s.settle outcome) := by
  rw [settle_eq]
  refine ⟨⟨rfl, rfl, fun o h => ?_⟩, rfl, rfl, fun h => ⟨h, rfl⟩⟩
  change some (s.terminal.getD outcome) = some o
  rw [h, Option.getD_some]

theorem frame_dropSender (s : RunState) : s.Frame s.dropSender :=
  ⟨⟨rfl, rfl, fun _ h => h⟩, rfl, rfl, fun _ => ⟨rfl, rfl⟩⟩

theorem frame_complete {s s' : RunState} {snapshot : RunSnapshot} (h : s.complete snapshot = .ok s') :
    s.Frame s' := by
  rcases complete_ok h with rfl | ⟨rfl, -⟩
  · exact .refl _
  · exact frame_settle _ _

theorem Advanced.frame {s s' : RunState} {point point' : AcceptPoint} (h : s.Advanced point s' point') :
    s.Frame s' := by
  cases h with
  | completed ok => exact frame_complete ok
  | settle => exact frame_settle _ _
  | push present =>
    refine ⟨⟨rfl, rfl, fun _ h => h⟩, rfl, rfl, fun hdropped => ?_⟩
    exact absurd (hdropped.symm.trans present) (by decide)
  | _ => exact ⟨⟨rfl, rfl, fun _ h => h⟩, rfl, rfl, fun hdropped => by simp [dropSender, hdropped]⟩

end RunState

/-! ### Delivery -/

/-- The list has no `Finished` event. -/
def Streams (events : List RunEvent) : Prop := ∀ e ∈ events, e.payload.isFinished = false

/-- What holds while the sender is there, of the accepted events, those that went into the channel, and where
`accept` stands. -/
def AcceptPoint.Open (s : RunState) (sent accepted : List RunEvent) : Option (AcceptPoint) → Prop
  | some (.fetched e previous) | some (.noted e previous) | some (.recorded e previous) =>
    accepted = sent ++ [e] ∧ previous = sent.length ∧ s.lastSeq = e.seq ∧ Streams sent
  | some (.sending e) =>
    accepted = sent ++ [e] ∧ e.seq = sent.length + 1 ∧ s.lastSeq = e.seq ∧ Streams sent
  | some (.gap _) => s.lagged = true
  | some (.full _) => True
  | some (.dropping _) => s.lagged = true ∨ s.receiver = false
  | some (.sent e) =>
    accepted = sent ∧ s.lastSeq = sent.length ∧ ∃ init, sent = init ++ [e] ∧ Streams init
  | some (.finishing _ _) => False
  | some (.failing _ _ _) | some (.failed _ _) | some (.returning _ _) | none =>
    accepted = sent ∧ s.lastSeq = sent.length ∧ Streams sent

/-- The channel, with what went through it: consecutive accepted events. `cut` says that something other than a gap,
a full channel, the end of the run or of the stream may have dropped the sender. -/
structure Delivering (s : RunState) (point : Option (AcceptPoint)) (cut : Prop)
    (sent accepted : List RunEvent) : Prop where
  numbered : Numbered (·.seq) 0 sent
  isPrefix : sent <+: accepted
  present : s.sender = true → AcceptPoint.Open s sent accepted point
  dropped : s.sender = false → s.lagged = true ∨ s.receiver = false ∨ cut ∨ EndsFinished sent

/-- Dropping the sender for a known reason. -/
theorem Delivering.drop {s s' : RunState} {point point' : Option (AcceptPoint)} {cut : Prop}
    {sent accepted : List RunEvent} (h : Delivering s point cut sent accepted) (hsender : s'.sender = false)
    (hwhy : s'.lagged = true ∨ s'.receiver = false ∨ cut ∨ EndsFinished sent) :
    Delivering s' point' cut sent accepted := by
  refine ⟨h.numbered, h.isPrefix, fun hpresent => ?_, fun _ => hwhy⟩
  rw [hsender] at hpresent
  cases hpresent

theorem Delivering.mono {s : RunState} {point : Option (AcceptPoint)} {cut cut' : Prop}
    {sent accepted : List RunEvent} (h : Delivering s point cut sent accepted) (hcut : cut → cut') :
    Delivering s point cut' sent accepted :=
  ⟨h.numbered, h.isPrefix, h.present, fun hdropped =>
    (h.dropped hdropped).imp_right (Or.imp_right (Or.imp_left hcut))⟩

/-- It reads four fields of the state. -/
theorem Delivering.congr {s s' : RunState} {point : Option (AcceptPoint)} {cut cut' : Prop}
    {sent accepted : List RunEvent} (h : Delivering s point cut sent accepted) (hcut : cut → cut')
    (hsender : s'.sender = s.sender) (hlagged : s'.lagged = s.lagged) (hreceiver : s'.receiver = s.receiver)
    (hlast : s'.lastSeq = s.lastSeq) : Delivering s' point cut' sent accepted := by
  refine ⟨h.numbered, h.isPrefix, fun hpresent => ?_, fun hdropped => ?_⟩
  · have hopen := h.present (hsender ▸ hpresent)
    unfold AcceptPoint.Open at hopen ⊢
    rw [hlagged, hreceiver, hlast]
    exact hopen
  · rw [hlagged, hreceiver]
    exact (h.dropped (hsender ▸ hdropped)).imp_right (Or.imp_right (Or.imp_left hcut))

/-- Dropping the receiver. -/
theorem Delivering.gone {s : RunState} {point : Option (AcceptPoint)} {cut : Prop}
    {sent accepted : List RunEvent} (h : Delivering s point cut sent accepted) :
    Delivering { s with receiver := false } point cut sent accepted := by
  refine ⟨h.numbered, h.isPrefix, fun hpresent => ?_, fun _ => .inr (.inl rfl)⟩
  have hopen := h.present hpresent
  cases point with
  | none => exact hopen
  | some p =>
    cases p with
    | dropping e => exact .inr rfl
    | _ => exact hopen

/-- An advance of `accept` sends the event at hand or nothing. -/
theorem Delivering.advance {s s' : RunState} {point point' : AcceptPoint} {cut : Prop}
    {sent accepted : List RunEvent} (h : Delivering s (some point) cut sent accepted)
    (ha : s.Advanced point s' point') (hfailed : ∀ e ended, point = .failed e ended → cut) :
    ∃ pushed, s'.channel = s.channel ++ pushed ∧
      Delivering s' (some point') cut (sent ++ pushed) accepted := by
  have hkeep : s'.channel = s.channel → Delivering s' (some point') cut sent accepted →
      ∃ pushed, s'.channel = s.channel ++ pushed ∧ Delivering s' (some point') cut (sent ++ pushed) accepted := by
    intro hchannel hd
    exact ⟨[], by rw [hchannel, List.append_nil], by rw [List.append_nil]; exact hd⟩
  cases ha with
  | note query => exact hkeep rfl ⟨h.numbered, h.isPrefix, h.present, h.dropped⟩
  | record legacyEvents => exact hkeep rfl ⟨h.numbered, h.isPrefix, h.present, h.dropped⟩
  | gap skips => exact hkeep rfl ⟨h.numbered, h.isPrefix, fun _ => rfl, fun _ => .inl rfl⟩
  | next follows =>
    refine hkeep rfl ⟨h.numbered, h.isPrefix, fun hpresent => ?_, h.dropped⟩
    obtain ⟨hacc, hprev, hlast, hstreams⟩ := h.present hpresent
    exact ⟨hacc, hprev ▸ follows, hlast, hstreams⟩
  | lose =>
    refine hkeep rfl (h.drop rfl ?_)
    cases hsender : s.sender with
    | true => exact .inl (h.present hsender)
    | false => exact h.dropped hsender
  | skip dropped => exact hkeep rfl (h.drop dropped (h.dropped dropped))
  | @push e present room =>
    obtain ⟨hacc, hseq, hlast, hstreams⟩ := h.present present
    refine ⟨[e], rfl, h.numbered.snoc (by omega), hacc ▸ List.prefix_rfl, fun _ => ?_, fun hdropped => ?_⟩
    · refine ⟨hacc, ?_, sent, rfl, hstreams⟩
      rw [List.length_append, List.length_singleton]
      exact hlast.trans hseq
    · exact absurd (hdropped.symm.trans present) (by decide)
  | full => exact hkeep rfl ⟨h.numbered, h.isPrefix, fun _ => trivial, h.dropped⟩
  | gone gone => exact hkeep rfl ⟨h.numbered, h.isPrefix, fun _ => .inr gone, h.dropped⟩
  | lag => exact hkeep rfl ⟨h.numbered, h.isPrefix, fun _ => .inl rfl, fun _ => .inl rfl⟩
  | drop =>
    refine hkeep rfl (h.drop rfl ?_)
    cases hsender : s.sender with
    | true => exact (h.present hsender).imp_right .inl
    | false => exact h.dropped hsender
  | stream stream =>
    refine hkeep rfl ⟨h.numbered, h.isPrefix, fun hpresent => ?_, h.dropped⟩
    obtain ⟨hacc, hlast, init, rfl, hinit⟩ := h.present hpresent
    refine ⟨hacc, hlast, fun e he => ?_⟩
    rcases List.mem_append.mp he with he | he
    · exact hinit e he
    · cases List.mem_singleton.mp he
      exact stream
  | @finished e snapshot finished =>
    refine hkeep rfl (h.drop rfl ?_)
    cases hsender : s.sender with
    | true =>
      -- the event at hand is the last one sent, and it is the first `Finished` one
      obtain ⟨-, -, init, hsent, hinit⟩ := h.present hsender
      exact .inr (.inr (.inr ⟨init, e, hsent, by rw [finished]; rfl, hinit⟩))
    | false => exact h.dropped hsender
  | invalid message =>
    exact hkeep rfl ⟨h.numbered, h.isPrefix, fun hpresent => (h.present hpresent).elim, h.dropped⟩
  | completed ok =>
    rcases RunState.complete_ok ok with rfl | ⟨rfl, -⟩
    · exact hkeep rfl ⟨h.numbered, h.isPrefix, fun hpresent => (h.present hpresent).elim, h.dropped⟩
    · rw [RunState.settle_eq] at hkeep ⊢
      exact hkeep rfl ⟨h.numbered, h.isPrefix, fun hpresent => (h.present hpresent).elim, h.dropped⟩
  | settle =>
    rw [RunState.settle_eq] at hkeep ⊢
    exact hkeep rfl ⟨h.numbered, h.isPrefix, h.present, h.dropped⟩
  | fail => exact hkeep rfl (h.drop rfl (.inr (.inr (.inl (hfailed _ _ rfl)))))
  | stay => exact hkeep rfl ⟨h.numbered, h.isPrefix, h.present, h.dropped⟩

/-- A call of `accept` puts at most its event behind the accepted ones. -/
theorem Delivering.accept {s : RunState} {cut : Prop} {sent given : List RunEvent} {e : RunEvent}
    (h : Delivering s none cut sent (acceptedOf s.threadId s.turnId given))
    (hlast : s.lastSeq = highest s.threadId s.turnId 0 given) :
    Delivering (s.accept e).1 (some (s.accept e).2) cut sent (acceptedOf s.threadId s.turnId (given ++ [e])) := by
  rw [acceptedOf_snoc, ← hlast]
  unfold RunState.accept
  cases hown : e.isOf s.threadId s.turnId with
  | false =>
    simp only [Bool.not_false, if_true, Bool.false_and, Bool.false_eq_true, if_false, List.append_nil]
    exact ⟨h.numbered, h.isPrefix, h.present, h.dropped⟩
  | true =>
    by_cases hseq : e.seq ≤ s.lastSeq
    · have hmax : max s.lastSeq e.seq = s.lastSeq := Nat.max_eq_left hseq
      have hnot : ¬ s.lastSeq < e.seq := by omega
      simp only [Bool.not_true, Bool.false_eq_true, if_false, hseq, if_true, hmax, hnot, decide_false,
        Bool.and_false, List.append_nil]
      exact ⟨h.numbered, h.isPrefix, h.present, h.dropped⟩
    · have hlt : s.lastSeq < e.seq := by omega
      simp only [Bool.not_true, Bool.false_eq_true, if_false, hseq, hlt, decide_true, Bool.and_self, if_true]
      refine ⟨h.numbered, h.isPrefix.trans (List.prefix_append _ _), fun hpresent => ?_, h.dropped⟩
      obtain ⟨hacc, hlast', hstreams⟩ := h.present hpresent
      exact ⟨by rw [hacc], hlast', Nat.max_eq_right (Nat.le_of_lt hlt), hstreams⟩

/-! ### The answers of `accept` -/

/-- The event that a call of `accept` is about. -/
def AcceptPoint.event : AcceptPoint → RunEvent
  | fetched e _ | noted e _ | recorded e _ | gap e | sending e | full e | dropping e | sent e | finishing e _
  | failing e _ _ | failed e _ | returning e _ => e

/-- What a call of `accept` will return. -/
def AcceptPoint.ends : AcceptPoint → Bool
  | fetched e _ | noted e _ | recorded e _ | gap e | sending e | full e | dropping e | sent e =>
    e.payload.isFinished
  | finishing _ _ => true
  | failing _ _ ended | failed _ ended | returning _ ended => ended

theorem RunState.Advanced.answer {s s' : RunState} {point point' : AcceptPoint}
    (h : s.Advanced point s' point') : point'.event = point.event ∧ point'.ends = point.ends := by
  cases h with
  | stream stream => exact ⟨rfl, stream.symm⟩
  | finished finished =>
    refine ⟨rfl, ?_⟩
    simp only [AcceptPoint.ends, finished]
    rfl
  | _ => exact ⟨rfl, rfl⟩

theorem RunState.accept_spec (s : RunState) (e : RunEvent) :
    (s.accept e).1 = { s with lastSeq := if e.isOf s.threadId s.turnId then max s.lastSeq e.seq else s.lastSeq } ∧
    (s.accept e).2.event = e ∧
    (s.accept e).2.ends = ((e.isOf s.threadId s.turnId && decide (s.lastSeq < e.seq)) && e.payload.isFinished) ∧
    (∀ e' ended, (s.accept e).2 ≠ .failed e' ended) ∧ ∀ e' snapshot, (s.accept e).2 ≠ .finishing e' snapshot := by
  unfold RunState.accept
  cases hown : e.isOf s.threadId s.turnId with
  | false => exact ⟨rfl, rfl, rfl, fun _ _ h => (by cases h), fun _ _ h => by cases h⟩
  | true =>
    by_cases hseq : e.seq ≤ s.lastSeq
    · have hnot : ¬ s.lastSeq < e.seq := by omega
      simp [hseq, hnot, AcceptPoint.event, AcceptPoint.ends]
    · have hlt : s.lastSeq < e.seq := by omega
      simp [hseq, hlt, AcceptPoint.event, AcceptPoint.ends]

/-- The sequence number seen last, and the answers of `accept`, as the events given so far determine them. -/
structure RunCalls.Answered (c : RunCalls) : Prop where
  last : c.state.lastSeq = highest c.state.threadId c.state.turnId 0 c.given
  answers : c.answers ++ c.accepting.toList.map (fun point => (point.event, point.ends)) =
    verdicts c.state.threadId c.state.turnId c.given

theorem RunState.Advanced.failed {s s' : RunState} {point : AcceptPoint} {e : RunEvent} {ended : Bool}
    {point' : AcceptPoint} (h : s.Advanced point s' point') (hp : point' = .failed e ended) :
    point.isFailing = true := by
  cases h with
  | settle => rfl
  | _ => cases hp

/-- Who writes a successful outcome. -/
theorem RunState.Advanced.terminal {s s' : RunState} {point point' : AcceptPoint}
    (h : s.Advanced point s' point') {snapshot : RunSnapshot} (hterm : s'.terminal = some (.ok snapshot)) :
    s.terminal = some (.ok snapshot) ∨ s.Fits snapshot ∧ ∃ e, point = .finishing e snapshot := by
  cases h with
  | @completed e snapshot' _ ok =>
    rcases RunState.complete_ok ok with rfl | ⟨rfl, hfits⟩
    · exact .inl hterm
    · rcases RunState.settle_terminal hterm with hold | hnew
      · exact .inl hold
      · cases hnew
        exact .inr ⟨hfits, e, rfl⟩
  | settle =>
    rcases RunState.settle_terminal hterm with hold | hnew
    · exact .inl hold
    · cases hnew
  | _ => exact .inl hterm

theorem RunState.Advanced.finishes {s s' : RunState} {point : AcceptPoint} {e : RunEvent}
    {snapshot : RunSnapshot} {point' : AcceptPoint} (h : s.Advanced point s' point')
    (hp : point' = .finishing e snapshot) : e.payload = .finished snapshot := by
  cases h with
  | finished finished =>
    cases hp
    exact finished
  | _ => cases hp

/-! ### The outcome -/

/-- Where a successful outcome comes from. -/
structure RunCalls.Settled (c : RunCalls) : Prop where
  terminal : ∀ snapshot, c.state.terminal = some (.ok snapshot) → c.state.Fits snapshot ∧
    (snapshot ∈ c.queried ∨ ∃ e ∈ c.given, e.payload = .finished snapshot)
  given : ∀ point ∈ c.accepting, point.event ∈ c.given
  finishing : ∀ e snapshot, c.accepting = some (.finishing e snapshot) → e.payload = .finished snapshot

/-! ### What `recv` returns -/

/-- The events among the outcomes of `recv`. -/
def returned (outcomes : List (Except RunError (Option RunEvent))) : List RunEvent :=
  outcomes.filterMap fun
    | .ok event => event
    | .error _ => none

/-- The event that `recv` holds. -/
def Receiving.held : Receiving → List RunEvent
  | received event => event.toList
  | _ => []

namespace RunCalls

/-- Something other than the events may have dropped the sender. -/
def Cut (c : RunCalls) : Prop := c.hasFailed = true ∨ c.detached = true

def accepted (c : RunCalls) : List RunEvent := acceptedOf c.state.threadId c.state.turnId c.given

/-- What went into the channel, as long as `recv` has lost nothing of it. -/
def sent (c : RunCalls) : List RunEvent := returned c.received ++ c.receiving.held ++ c.state.channel

/-- The first outcome that is not an event. -/
def Last (c : RunCalls) (outcome : Except RunError (Option RunEvent)) : Prop :=
  outcome = .error .eventLagged ∨
  (∃ message, outcome = .error (.channelClosed message) ∧ c.state.terminal = some (.error message)) ∨
  outcome = .ok none ∧ (c.Cut ∨ EndsFinished (returned c.received))

structure Inv (c : RunCalls) : Prop where
  delivering : c.ended = false → Delivering c.state c.accepting c.Cut c.sent c.accepted
  failing : 0 < c.failing → c.hasFailed = true
  failed : ∀ e ended, c.accepting = some (.failed e ended) → c.hasFailed = true
  /-- A call of `recv` has the stream. -/
  receiver : c.receiving ≠ .idle → c.state.receiver = true
  drained : c.receiving = .received none → c.state.channel = [] ∧ c.state.sender = false
  numbered : Numbered (·.seq) 0 (returned c.received)
  isPrefix : returned c.received <+: c.accepted
  live : c.ended = false → c.receiving ≠ .closed ∧ c.received = (returned c.received).map fun e => .ok (some e)
  closed : c.receiving = .closed →
    c.received = ((returned c.received).map fun e => .ok (some e)) ∧ (c.Cut ∨ EndsFinished (returned c.received))
  atEnd : c.ended = true → c.receiving = .closed ∨ c.receiving = .idle ∧ ∃ first n, c.Last first ∧
    c.received = ((returned c.received).map fun e => .ok (some e)) ++ first :: List.replicate n (.ok none)

theorem returned_snoc {outcomes : List (Except RunError (Option RunEvent))} {event : Option RunEvent} :
    returned (outcomes ++ [.ok event]) = returned outcomes ++ event.toList := by
  unfold returned
  rw [List.filterMap_append]
  cases event <;> rfl

theorem returned_snoc_error {outcomes : List (Except RunError (Option RunEvent))} {error : RunError} :
    returned (outcomes ++ [.error error]) = returned outcomes := by
  unfold returned
  rw [List.filterMap_append]
  exact List.append_nil _

/-- A call that is not of `recv`. -/
theorem Inv.keep {c c' : RunCalls} (h : c.Inv) (hreceiving : c'.receiving = c.receiving)
    (hreceived : c'.received = c.received) (hended : c'.ended = c.ended) (hacc : c.accepted <+: c'.accepted)
    (hcut : c.Cut → c'.Cut) (hreceiver : c'.state.receiver = c.state.receiver)
    (hterm : ∀ outcome, c.state.terminal = some outcome → c'.state.terminal = some outcome)
    (hdropped : c.state.sender = false → c'.state.sender = false ∧ c'.state.channel = c.state.channel)
    (hfailing : 0 < c'.failing → c'.hasFailed = true)
    (hfailed : ∀ e ended, c'.accepting = some (.failed e ended) → c'.hasFailed = true)
    (hdel : Delivering c.state c.accepting c.Cut c.sent c.accepted →
      Delivering c'.state c'.accepting c'.Cut c'.sent c'.accepted) : c'.Inv where
  delivering hlive := hdel (h.delivering (hended ▸ hlive))
  failing := hfailing
  failed := hfailed
  receiver hbusy := hreceiver.trans (h.receiver (hreceiving ▸ hbusy))
  drained hnone := by
    obtain ⟨hempty, hsender⟩ := h.drained (hreceiving ▸ hnone)
    obtain ⟨hsender', hchannel⟩ := hdropped hsender
    exact ⟨hchannel.trans hempty, hsender'⟩
  numbered := hreceived ▸ h.numbered
  isPrefix := hreceived ▸ h.isPrefix.trans hacc
  live hlive := by
    rw [hreceiving, hreceived]
    exact h.live (hended ▸ hlive)
  closed hclosed := by
    rw [hreceived]
    exact (h.closed (hreceiving ▸ hclosed)).imp_right (Or.imp_left hcut)
  atEnd hover := by
    rw [hreceiving, hreceived]
    refine (h.atEnd (hended ▸ hover)).imp_right (And.imp_right ?_)
    rintro ⟨first, n, hlast, heq⟩
    refine ⟨first, n, ?_, heq⟩
    unfold Last at hlast ⊢
    rw [hreceived]
    rcases hlast with hlag | ⟨message, hfirst, hmessage⟩ | ⟨hfirst, hend⟩
    · exact .inl hlag
    · exact .inr (.inl ⟨message, hfirst, hterm _ hmessage⟩)
    · exact .inr (.inr ⟨hfirst, hend.imp_left hcut⟩)

theorem Inv.live_of {c : RunCalls} (h : c.Inv) (hclosed : c.receiving ≠ .closed) (hidle : c.receiving ≠ .idle) :
    c.ended = false := by
  by_contra hover
  rcases h.atEnd (by simpa using hover) with hc | ⟨hi, -⟩
  · exact hclosed hc
  · exact hidle hi

theorem Inv.recv {c : RunCalls} (h : c.Inv) (idle : c.receiving = .idle) (taken : c.state.receiver = true) :
    c.recv.Inv := by
  unfold RunCalls.recv
  cases hended : c.ended with
  | true =>
    have hret : returned (c.received ++ [.ok none]) = returned c.received := by
      rw [returned_snoc]
      exact List.append_nil _
    rw [if_pos rfl]
    refine { h with
      delivering := fun hlive => by cases hlive
      numbered := hret.symm ▸ h.numbered
      isPrefix := hret.symm ▸ h.isPrefix
      live := fun hlive => by cases hlive
      closed := fun hclosed => absurd (idle.symm.trans hclosed) (by rintro ⟨⟩)
      atEnd := fun _ => ?_ }
    rcases h.atEnd hended with hclosed | ⟨-, first, n, hlast, heq⟩
    · exact absurd (idle.symm.trans hclosed) (by rintro ⟨⟩)
    · refine .inr ⟨idle, first, n + 1, ?_, ?_⟩
      · unfold Last at hlast ⊢
        simp only [hret]
        exact hlast
      · simp only [hret]
        rw [List.replicate_succ', ← List.cons_append, ← List.append_assoc, ← heq]
  | false =>
    obtain ⟨-, heq⟩ := h.live hended
    rw [if_neg (by decide)]
    cases hlagged : c.state.lagged with
    | true =>
      have hret : returned (c.received ++ [.error .eventLagged]) = returned c.received := returned_snoc_error
      rw [if_pos rfl]
      exact { h with
        delivering := fun hlive => by cases hlive
        numbered := hret.symm ▸ h.numbered
        isPrefix := hret.symm ▸ h.isPrefix
        live := fun hlive => by cases hlive
        closed := fun hclosed => absurd (idle.symm.trans hclosed) (by rintro ⟨⟩)
        atEnd := fun _ => .inr ⟨idle, _, 0, .inl rfl, by simp only [hret]; rw [List.replicate_zero, ← heq]⟩ }
    | false =>
      rw [if_neg (by decide)]
      refine { h with
        delivering := fun _ => ?_
        receiver := fun _ => taken
        drained := fun hnone => ?_
        live := fun _ => ⟨by rintro ⟨⟩, heq⟩
        closed := fun hclosed => ?_
        atEnd := fun hover => by cases hover }
      · have hd := h.delivering hended
        unfold sent at hd ⊢
        rw [idle] at hd
        exact hd
      · cases hnone
      · cases hclosed

theorem Inv.check {c : RunCalls} (h : c.Inv) {event : Option RunEvent}
    (received : c.receiving = .received event) : (c.check event).Inv := by
  have hended := h.live_of (by rw [received]; rintro ⟨⟩) (by rw [received]; rintro ⟨⟩)
  obtain ⟨-, heq⟩ := h.live hended
  have hd := h.delivering hended
  unfold RunCalls.check
  cases hlagged : c.state.lagged with
  | true =>
    have hret : returned (c.received ++ [.error .eventLagged]) = returned c.received := returned_snoc_error
    rw [if_pos rfl]
    exact { h with
      delivering := fun hlive => by cases hlive
      receiver := fun hbusy => absurd rfl hbusy
      drained := fun hnone => by cases hnone
      numbered := hret.symm ▸ h.numbered
      isPrefix := hret.symm ▸ h.isPrefix
      live := fun hlive => by cases hlive
      closed := fun hclosed => by cases hclosed
      atEnd := fun _ => .inr ⟨rfl, _, 0, .inl rfl, by simp only [hret]; rw [List.replicate_zero, ← heq]⟩ }
  | false =>
    rw [if_neg (by decide)]
    cases event with
    | some event =>
      dsimp only
      have hret : returned (c.received ++ [.ok (some event)]) = returned c.received ++ [event] := returned_snoc
      have hsent : c.sent = returned (c.received ++ [.ok (some event)]) ++ c.state.channel := by
        unfold sent
        rw [received, hret]
        rfl
      refine { h with
        delivering := fun _ => ?_
        receiver := fun hbusy => absurd rfl hbusy
        drained := fun hnone => by cases hnone
        numbered := ?_
        isPrefix := ?_
        live := fun _ => ⟨by rintro ⟨⟩, ?_⟩
        closed := fun hclosed => by cases hclosed
        atEnd := fun hover => absurd (hover.symm.trans hended) (by decide) }
      · unfold sent
        simp only [Receiving.held, List.append_nil]
        exact hsent ▸ hd
      · have hnum := hd.numbered.take (returned (c.received ++ [.ok (some event)])).length
        rwa [hsent, List.take_left] at hnum
      · exact (List.prefix_append _ _).trans (hsent ▸ hd.isPrefix)
      · rw [hret, List.map_append, ← heq]
        rfl
    | none =>
      dsimp only
      obtain ⟨hempty, hsender⟩ := h.drained received
      have hsent : c.sent = returned c.received := by
        unfold sent
        rw [received, hempty]
        simp [Receiving.held]
      have hreceiver := h.receiver (by rw [received]; rintro ⟨⟩)
      refine { h with
        delivering := fun hlive => by cases hlive
        receiver := fun _ => hreceiver
        drained := fun hnone => by cases hnone
        live := fun hlive => by cases hlive
        closed := fun _ => ⟨heq, ?_⟩
        atEnd := fun _ => .inl rfl }
      -- the lag flag is set before the sender goes, so it went for another reason
      rcases hd.dropped hsender with hlag | hgone | hend
      · exact absurd (hlag.symm.trans hlagged) (by decide)
      · exact absurd (hgone.symm.trans hreceiver) (by decide)
      · exact hsent ▸ hend

theorem Inv.report {c : RunCalls} (h : c.Inv) (closed : c.receiving = .closed) : c.report.Inv := by
  obtain ⟨heq, hend⟩ := h.closed closed
  have hended : c.ended = true := by
    by_contra hlive
    exact (h.live (by simpa using hlive)).1 closed
  have hfirst : ∀ outcome, returned (c.received ++ [outcome]) = returned c.received → c.Last outcome →
      Inv { c with receiving := .idle, received := c.received ++ [outcome] } := by
    intro outcome hret hlast
    refine { h with
      delivering := fun hlive => absurd (hlive.symm.trans hended) (by decide)
      receiver := fun hbusy => absurd rfl hbusy
      drained := fun hnone => by cases hnone
      numbered := hret.symm ▸ h.numbered
      isPrefix := hret.symm ▸ h.isPrefix
      live := fun hlive => absurd (hlive.symm.trans hended) (by decide)
      closed := fun hclosed => by cases hclosed
      atEnd := fun _ => .inr ⟨rfl, outcome, 0, ?_, by simp only [hret]; rw [List.replicate_zero, ← heq]⟩ }
    unfold Last at hlast ⊢
    simp only [hret]
    exact hlast
  unfold RunCalls.report
  split
  · rename_i message hterm
    exact hfirst _ returned_snoc_error (.inr (.inl ⟨message, rfl, hterm⟩))
  · refine hfirst _ ?_ (.inr (.inr ⟨rfl, hend⟩))
    rw [returned_snoc]
    exact List.append_nil _

/-- A call that is neither of `recv` nor of `accept`. -/
theorem Inv.frame {c : RunCalls} (h : c.Inv) {state : RunState} (hframe : c.state.Frame state)
    (failing : Nat) (hasFailed detached : Bool) (queried : List RunSnapshot)
    (hcut : c.Cut → hasFailed = true ∨ detached = true)
    (hfailing : 0 < failing → hasFailed = true) (hfailed : c.hasFailed = true → hasFailed = true)
    (hchannel : state.channel = c.state.channel)
    (hdel : Delivering c.state c.accepting c.Cut c.sent c.accepted →
      Delivering state c.accepting (hasFailed = true ∨ detached = true) c.sent c.accepted) :
    Inv { c with state, failing, hasFailed, detached, queried } := by
  have hacc : c.accepted = accepted { c with state, failing, hasFailed, detached, queried } := by
    unfold accepted
    simp only [hframe.threadId, hframe.turnId]
  refine h.keep rfl rfl rfl (hacc ▸ List.prefix_rfl) hcut hframe.receiver hframe.terminal hframe.dropped hfailing
    (fun e ended hpoint => hfailed (h.failed e ended hpoint)) fun hd => ?_
  have hsent : sent { c with state, failing, hasFailed, detached, queried } = c.sent := by
    unfold sent
    rw [hchannel]
  rw [hsent, ← hacc]
  exact hdel hd

theorem Inv.fail {c : RunCalls} (h : c.Inv) (message : String) : (c.fail message).Inv := by
  refine h.frame (RunState.frame_settle _ _) _ true c.detached c.queried (fun _ => .inl rfl) (fun _ => rfl)
    (fun _ => rfl) ?_ fun hd => ?_
  · rw [RunState.settle_eq]
  · rw [RunState.settle_eq]
    exact hd.congr (fun _ => .inl rfl) rfl rfl rfl rfl

theorem Inv.complete {c : RunCalls} (h : c.Inv) (snapshot : RunSnapshot) : (c.complete snapshot).Inv := by
  unfold RunCalls.complete
  split
  · rename_i state hok
    have hsame : state.channel = c.state.channel ∧ state.sender = c.state.sender ∧ state.lagged = c.state.lagged := by
      rcases RunState.complete_ok hok with rfl | ⟨rfl, -⟩
      · exact ⟨rfl, rfl, rfl⟩
      · rw [RunState.settle_eq]
        exact ⟨rfl, rfl, rfl⟩
    have hframe := RunState.frame_complete hok
    exact h.frame hframe c.failing c.hasFailed c.detached _ id h.failing id hsame.1 fun hd =>
      hd.congr id hsame.2.1 hsame.2.2 hframe.receiver hframe.lastSeq
  · exact h.fail _

/-- Dropping the sender of a call that is cut. -/
theorem Inv.drop {c : RunCalls} (h : c.Inv) {state : RunState} (hframe : c.state.Frame state)
    (failing : Nat) (detached : Bool) (hle : failing ≤ c.failing) (hcut : c.hasFailed = true ∨ detached = true)
    (hchannel : state.channel = c.state.channel) (hsender : state.sender = false) :
    Inv { c with state, failing, detached } :=
  h.frame hframe failing c.hasFailed detached c.queried (fun _ => hcut)
    (fun hpos => h.failing (Nat.lt_of_lt_of_le hpos hle)) id hchannel fun hd =>
      (hd.mono fun _ => hcut).drop hsender (.inr (.inr (.inl hcut)))

/-- A call that changes neither the channel nor what `recv` reads. -/
theorem Inv.aside {c : RunCalls} (h : c.Inv) {state : RunState} (hframe : c.state.Frame state)
    (hchannel : state.channel = c.state.channel) (hsender : state.sender = c.state.sender)
    (hlagged : state.lagged = c.state.lagged) : Inv { c with state } :=
  h.frame hframe c.failing c.hasFailed c.detached c.queried id h.failing id hchannel fun hd =>
    hd.congr id hsender hlagged hframe.receiver hframe.lastSeq

theorem Inv.step {c c' : RunCalls} (h : c.Inv) (ha : c.Answered) (hs : Step c c') : c'.Inv := by
  cases hs with
  | accept event idle =>
    obtain ⟨hstate, -, -, hpoint, -⟩ := RunState.accept_spec c.state event
    have hids : (c.state.accept event).1.threadId = c.state.threadId ∧
        (c.state.accept event).1.turnId = c.state.turnId := by
      rw [hstate]
      exact ⟨rfl, rfl⟩
    refine h.keep rfl rfl rfl ?_ id ?_ ?_ ?_ h.failing (fun e ended hsome => ?_) fun hd => ?_
    · unfold accepted
      simp only [hids]
      rw [acceptedOf_snoc]
      exact List.prefix_append _ _
    · rw [hstate]
    · rw [hstate]
      exact fun _ hterm => hterm
    · rw [hstate]
      exact fun hdropped => ⟨hdropped, rfl⟩
    · exact absurd (Option.some.inj hsome) (hpoint e ended)
    · have hsent : sent { c with
          state := (c.state.accept event).1, accepting := some (c.state.accept event).2,
          given := c.given ++ [event] } = c.sent := by
        unfold sent
        rw [hstate]
      rw [hsent]
      unfold accepted
      simp only [hids]
      rw [idle] at hd
      exact hd.accept ha.last
  | @advance point accepting =>
    have hadv := RunState.advance_cases c.state point
    have hframe := hadv.frame
    have hcut : c.Cut → Cut { c with
        state := (c.state.advance point).1, accepting := some (c.state.advance point).2,
        hasFailed := c.hasFailed || point.isFailing } :=
      Or.imp_left fun hfailed => by rw [hfailed, Bool.true_or]
    have hacc : accepted { c with
        state := (c.state.advance point).1, accepting := some (c.state.advance point).2,
        hasFailed := c.hasFailed || point.isFailing } = c.accepted := by
      unfold accepted
      simp only [hframe.threadId, hframe.turnId]
    refine h.keep rfl rfl rfl (hacc ▸ List.prefix_rfl) hcut hframe.receiver hframe.terminal hframe.dropped
      (fun hpos => ?_) (fun e ended hpoint => ?_) fun hd => ?_
    · change (c.hasFailed || point.isFailing) = true
      rw [h.failing hpos, Bool.true_or]
    · change (c.hasFailed || point.isFailing) = true
      rw [hadv.failed (Option.some.inj hpoint), Bool.or_true]
    · rw [accepting] at hd
      obtain ⟨pushed, hchannel, hd'⟩ := hd.advance hadv fun e ended hp => .inl (h.failed e ended (hp ▸ accepting))
      have hsent : sent { c with
          state := (c.state.advance point).1, accepting := some (c.state.advance point).2,
          hasFailed := c.hasFailed || point.isFailing } = c.sent ++ pushed := by
        unfold sent
        rw [hchannel, ← List.append_assoc]
      rw [hsent, hacc]
      exact hd'.mono hcut
  | @answer event ended returning =>
    refine h.keep rfl rfl rfl List.prefix_rfl id rfl (fun _ hterm => hterm) (fun hdropped => ⟨hdropped, rfl⟩) h.failing
      (fun e ended hpoint => by cases hpoint) fun hd => ?_
    rw [returning] at hd
    exact ⟨hd.numbered, hd.isPrefix, hd.present, hd.dropped⟩
  | fail message => exact h.fail message
  | complete snapshot => exact h.complete snapshot
  | failed pending free =>
    exact h.drop (RunState.frame_dropSender _) _ c.detached (Nat.sub_le _ _) (.inl (h.failing pending)) rfl rfl
  | recv idle taken => exact h.recv idle taken
  | @take event rest waiting first =>
    have hended := h.live_of (by rw [waiting]; rintro ⟨⟩) (by rw [waiting]; rintro ⟨⟩)
    have hd := h.delivering hended
    have hsent : c.sent = returned c.received ++ [event] ++ rest := by
      unfold sent
      rw [waiting, first]
      simp [Receiving.held]
    rw [hsent] at hd
    exact { h with
      delivering := fun _ => hd.congr id rfl rfl rfl rfl
      receiver := fun _ => h.receiver (by rw [waiting]; rintro ⟨⟩)
      drained := fun hnone => by cases hnone
      live := fun _ => ⟨by rintro ⟨⟩, (h.live hended).2⟩
      closed := fun hclosed => by cases hclosed
      atEnd := fun hover => absurd (hover.symm.trans hended) (by decide) }
  | close waiting empty dropped =>
    have hended := h.live_of (by rw [waiting]; rintro ⟨⟩) (by rw [waiting]; rintro ⟨⟩)
    have hd := h.delivering hended
    unfold sent at hd
    rw [waiting] at hd
    exact { h with
      delivering := fun _ => hd
      receiver := fun _ => h.receiver (by rw [waiting]; rintro ⟨⟩)
      drained := fun _ => ⟨empty, dropped⟩
      live := fun _ => ⟨by rintro ⟨⟩, (h.live hended).2⟩
      closed := fun hclosed => by cases hclosed
      atEnd := fun hover => absurd (hover.symm.trans hended) (by decide) }
  | cancel waiting =>
    have hended := h.live_of (by rw [waiting]; rintro ⟨⟩) (by rw [waiting]; rintro ⟨⟩)
    have hd := h.delivering hended
    unfold sent at hd
    rw [waiting] at hd
    exact { h with
      delivering := fun _ => hd
      receiver := fun hbusy => absurd rfl hbusy
      drained := fun hnone => by cases hnone
      live := fun _ => ⟨by rintro ⟨⟩, (h.live hended).2⟩
      closed := fun hclosed => by cases hclosed
      atEnd := fun hover => absurd (hover.symm.trans hended) (by decide) }
  | check received => exact h.check received
  | report closed => exact h.report closed
  | dropStream idle =>
    exact { h with
      delivering := fun hlive => (h.delivering hlive).gone
      receiver := fun hbusy => absurd idle hbusy
      drained := fun hnone => absurd (idle.symm.trans hnone) (by rintro ⟨⟩) }
  | bufferLegacyEvents free =>
    have hframe : c.state.Frame { c.state.dropSender with legacyEvents := some [] } :=
      ⟨⟨rfl, rfl, fun _ hterm => hterm⟩, rfl, rfl, fun _ => ⟨rfl, rfl⟩⟩
    exact h.drop hframe c.failing true (Nat.le_refl _) (.inr rfl) rfl rfl
  | takeLegacyEvents => exact h.aside (RunState.frame_aside _ _ _) rfl rfl rfl
  | acquire query => exact h.aside (RunState.frame_aside _ _ _) rfl rfl rfl
  | observe query status => exact h.aside (RunState.frame_aside _ _ _) rfl rfl rfl
  | @release q query free =>
    unfold RunCalls.release
    dsimp only
    split
    · have hframe : c.state.Frame (RunState.dropSender { c.state with query := some q.release.1 }) :=
        ⟨⟨rfl, rfl, fun _ hterm => hterm⟩, rfl, rfl, fun _ => ⟨rfl, rfl⟩⟩
      exact h.drop hframe c.failing true (Nat.le_refl _) (.inr rfl) rfl rfl
    · exact h.aside (RunState.frame_aside _ _ _) rfl rfl rfl

/-! ### Every step -/

/-- What a step does apart from what it is there for. -/
theorem recv_same (c : RunCalls) :
    c.recv.state = c.state ∧ c.recv.given = c.given ∧ c.recv.answers = c.answers ∧
      c.recv.accepting = c.accepting ∧ c.recv.queried = c.queried := by
  unfold recv
  split
  · exact ⟨rfl, rfl, rfl, rfl, rfl⟩
  · split <;> exact ⟨rfl, rfl, rfl, rfl, rfl⟩

theorem check_same (c : RunCalls) (event : Option RunEvent) :
    (c.check event).state = c.state ∧ (c.check event).given = c.given ∧ (c.check event).answers = c.answers ∧
      (c.check event).accepting = c.accepting ∧ (c.check event).queried = c.queried := by
  unfold check
  split
  · exact ⟨rfl, rfl, rfl, rfl, rfl⟩
  · cases event <;> exact ⟨rfl, rfl, rfl, rfl, rfl⟩

theorem release_same (c : RunCalls) (q : QueryOwnership) :
    c.state.Frame (c.release q).state ∧ (c.release q).given = c.given ∧ (c.release q).answers = c.answers ∧
      (c.release q).accepting = c.accepting ∧ (c.release q).queried = c.queried ∧
      (c.release q).state.terminal = c.state.terminal := by
  unfold release
  dsimp only
  split
  · exact ⟨⟨⟨rfl, rfl, fun _ hterm => hterm⟩, rfl, rfl, fun _ => ⟨rfl, rfl⟩⟩, rfl, rfl, rfl, rfl, rfl⟩
  · exact ⟨RunState.frame_aside _ _ _, rfl, rfl, rfl, rfl, rfl⟩

theorem complete_same (c : RunCalls) (snapshot : RunSnapshot) :
    c.state.Frame (c.complete snapshot).state ∧ (c.complete snapshot).given = c.given ∧
      (c.complete snapshot).answers = c.answers ∧ (c.complete snapshot).accepting = c.accepting := by
  unfold complete
  split
  · exact ⟨RunState.frame_complete ‹_›, rfl, rfl, rfl⟩
  · exact ⟨RunState.frame_settle _ _, rfl, rfl, rfl⟩

theorem Step.same {c c' : RunCalls} (hs : Step c c') : c.state.Same c'.state := by
  cases hs with
  | accept event idle =>
    rw [(RunState.accept_spec c.state event).1]
    exact ⟨rfl, rfl, fun _ hterm => hterm⟩
  | @advance point accepting => exact (RunState.advance_cases c.state point).frame.toSame
  | fail message => exact (RunState.frame_settle _ _).toSame
  | complete snapshot => exact (c.complete_same snapshot).1.toSame
  | recv idle taken => rw [c.recv_same.1]; exact ⟨rfl, rfl, fun _ hterm => hterm⟩
  | @check event received => rw [(c.check_same event).1]; exact ⟨rfl, rfl, fun _ hterm => hterm⟩
  | @release q query free => exact (c.release_same q).1.toSame
  | _ => exact ⟨rfl, rfl, fun _ hterm => hterm⟩

/-- A call that is not of `accept`. -/
theorem Answered.frame {c c' : RunCalls} (h : c.Answered) (hframe : c.state.Frame c'.state)
    (hgiven : c'.given = c.given) (hanswers : c'.answers = c.answers) (haccepting : c'.accepting = c.accepting) :
    c'.Answered where
  last := by rw [hframe.lastSeq, hframe.threadId, hframe.turnId, hgiven]; exact h.last
  answers := by rw [hframe.threadId, hframe.turnId, hgiven, hanswers, haccepting]; exact h.answers

theorem Answered.step {c c' : RunCalls} (h : c.Answered) (hs : Step c c') : c'.Answered := by
  cases hs with
  | accept event idle =>
    obtain ⟨hstate, hevent, hends, -⟩ := RunState.accept_spec c.state event
    have hanswers := h.answers
    rw [idle, Option.toList_none, List.map_nil, List.append_nil] at hanswers
    refine ⟨?_, ?_⟩
    · simp only [hstate]
      rw [highest_snoc, ← h.last]
    · simp only [Option.toList_some, List.map_cons, List.map_nil, hevent, hends]
      rw [hstate, verdicts_snoc, hanswers, h.last]
  | @advance point accepting =>
    have hadv := RunState.advance_cases c.state point
    obtain ⟨hevent, hends⟩ := hadv.answer
    have hanswers := h.answers
    rw [accepting] at hanswers
    refine ⟨?_, ?_⟩
    · rw [hadv.frame.lastSeq, hadv.frame.threadId, hadv.frame.turnId]
      exact h.last
    · simp only [Option.toList_some, List.map_cons, List.map_nil, hevent, hends]
      rw [hadv.frame.threadId, hadv.frame.turnId]
      exact hanswers
  | @answer event ended returning =>
    have hanswers := h.answers
    rw [returning] at hanswers
    exact ⟨h.last, by rw [Option.toList_none, List.map_nil, List.append_nil]; exact hanswers⟩
  | fail message => exact h.frame (RunState.frame_settle _ _) rfl rfl rfl
  | complete snapshot =>
    obtain ⟨hframe, hgiven, hanswers, haccepting⟩ := c.complete_same snapshot
    exact h.frame hframe hgiven hanswers haccepting
  | recv idle taken =>
    obtain ⟨hstate, hgiven, hanswers, haccepting, -⟩ := c.recv_same
    exact h.frame (hstate ▸ .refl _) hgiven hanswers haccepting
  | @check event received =>
    obtain ⟨hstate, hgiven, hanswers, haccepting, -⟩ := c.check_same event
    exact h.frame (hstate ▸ .refl _) hgiven hanswers haccepting
  | @release q query free =>
    obtain ⟨hframe, hgiven, hanswers, haccepting, -⟩ := c.release_same q
    exact h.frame hframe hgiven hanswers haccepting
  | _ => exact ⟨h.last, h.answers⟩

/-- A call that writes no outcome. -/
theorem Settled.frame {c c' : RunCalls} (h : c.Settled) (hsame : c.state.Same c'.state)
    (hterm : c'.state.terminal = c.state.terminal) (hgiven : c'.given = c.given)
    (haccepting : c'.accepting = c.accepting) (hqueried : c'.queried = c.queried) : c'.Settled where
  terminal snapshot hsnapshot := by
    obtain ⟨hfits, hfrom⟩ := h.terminal snapshot (hterm ▸ hsnapshot)
    rw [hqueried, hgiven]
    exact ⟨hfits.of_same hsame, hfrom⟩
  given := by rw [hgiven, haccepting]; exact h.given
  finishing := by rw [haccepting]; exact h.finishing

theorem Settled.fail {c : RunCalls} (h : c.Settled) (message : String) : (c.fail message).Settled where
  terminal snapshot hsnapshot := by
    rcases RunState.settle_terminal hsnapshot with hold | hnew
    · obtain ⟨hfits, hfrom⟩ := h.terminal snapshot hold
      exact ⟨hfits.of_same (RunState.frame_settle _ _).toSame, hfrom⟩
    · cases hnew
  given := h.given
  finishing := h.finishing

theorem Settled.complete {c : RunCalls} (h : c.Settled) (snapshot : RunSnapshot) :
    (c.complete snapshot).Settled := by
  unfold RunCalls.complete
  split
  · rename_i state hok
    refine ⟨fun other hother => ?_, h.given, h.finishing⟩
    have hsame := (RunState.frame_complete hok).toSame
    have hold : c.state.terminal = some (.ok other) → state.Fits other ∧
        (other ∈ c.queried ++ [snapshot] ∨ ∃ e ∈ c.given, e.payload = .finished other) := by
      intro hold
      obtain ⟨hfits, hfrom⟩ := h.terminal other hold
      exact ⟨hfits.of_same hsame, hfrom.imp_left (List.mem_append_left _)⟩
    rcases RunState.complete_ok hok with rfl | ⟨rfl, hfits⟩
    · exact hold hother
    · rcases RunState.settle_terminal hother with hterm | hnew
      · exact hold hterm
      · cases hnew
        exact ⟨hfits.of_same hsame, .inl (List.mem_append_right _ List.mem_cons_self)⟩
  · exact h.fail _

theorem Settled.step {c c' : RunCalls} (h : c.Settled) (hs : Step c c') : c'.Settled := by
  cases hs with
  | accept event idle =>
    obtain ⟨hstate, hevent, -, -⟩ := RunState.accept_spec c.state event
    refine ⟨fun snapshot hsnapshot => ?_, fun point hpoint => ?_, fun e snapshot hpoint => ?_⟩
    · rw [hstate] at hsnapshot
      obtain ⟨hfits, hfrom⟩ := h.terminal snapshot hsnapshot
      refine ⟨hfits.of_same (by rw [hstate]; exact ⟨rfl, rfl, fun _ hterm => hterm⟩), hfrom.imp_right ?_⟩
      rintro ⟨e, he, hpay⟩
      exact ⟨e, List.mem_append_left _ he, hpay⟩
    · cases hpoint
      rw [hevent]
      exact List.mem_append_right _ List.mem_cons_self
    · exact absurd (Option.some.inj hpoint) ((c.state.accept_spec event).2.2.2.2 e snapshot)
  | @advance point accepting =>
    have hadv := RunState.advance_cases c.state point
    have hgiven := h.given point accepting
    refine ⟨fun snapshot hsnapshot => ?_, fun point' hpoint => ?_, fun e snapshot hpoint =>
      hadv.finishes (Option.some.inj hpoint)⟩
    · rcases hadv.terminal hsnapshot with hold | ⟨hfits, e, rfl⟩
      · obtain ⟨hfits, hfrom⟩ := h.terminal snapshot hold
        exact ⟨hfits.of_same hadv.frame.toSame, hfrom⟩
      · exact ⟨hfits.of_same hadv.frame.toSame, .inr ⟨e, hgiven, h.finishing e snapshot accepting⟩⟩
    · cases hpoint
      rw [hadv.answer.1]
      exact hgiven
  | answer returning =>
    exact ⟨h.terminal, fun point hpoint => (by cases hpoint), fun e snapshot hpoint => by cases hpoint⟩
  | fail message => exact h.fail message
  | complete snapshot => exact h.complete snapshot
  | recv idle taken =>
    obtain ⟨hstate, hgiven, -, haccepting, hqueried⟩ := c.recv_same
    exact h.frame (hstate ▸ ⟨rfl, rfl, fun _ hterm => hterm⟩) (by rw [hstate]) hgiven haccepting hqueried
  | @check event received =>
    obtain ⟨hstate, hgiven, -, haccepting, hqueried⟩ := c.check_same event
    exact h.frame (hstate ▸ ⟨rfl, rfl, fun _ hterm => hterm⟩) (by rw [hstate]) hgiven haccepting hqueried
  | @release q query free =>
    obtain ⟨hframe, hgiven, -, haccepting, hqueried, hterm⟩ := c.release_same q
    exact h.frame hframe.toSame hterm hgiven haccepting hqueried
  | _ => exact h.frame ⟨rfl, rfl, fun _ hterm => hterm⟩ rfl rfl rfl rfl

/-! ### Runs -/

theorem inv_start (threadId turnId : String) (query : Bool) :
    (start threadId turnId query : RunCalls).Inv where
  delivering _ := ⟨.nil, List.prefix_rfl, fun _ => ⟨rfl, rfl, fun _ he => by cases he⟩, fun hdropped => by cases hdropped⟩
  failing hpos := by cases hpos
  failed e ended hpoint := by cases hpoint
  receiver hbusy := absurd rfl hbusy
  drained hnone := by cases hnone
  numbered := .nil
  isPrefix := List.prefix_rfl
  live _ := ⟨by rintro ⟨⟩, rfl⟩
  closed hclosed := by cases hclosed
  atEnd hover := by cases hover

theorem settled_start (threadId turnId : String) (query : Bool) :
    (start threadId turnId query : RunCalls).Settled where
  terminal snapshot hterm := by cases hterm
  given point hpoint := by cases hpoint
  finishing e snapshot hpoint := by cases hpoint

theorem Run.kept {c c' : RunCalls} {labels : List Unit} (run : Run c labels c') :
    c.state.Same c'.state := by
  refine Lts.Run.rel (fun _ => True) (fun c c' => c.state.Same c'.state) (fun _ _ _ _ _ => trivial)
    (fun _ => ⟨rfl, rfl, fun _ hterm => hterm⟩) (fun s t u h h' => ?_) (fun _ _ _ _ hs => hs.same) run trivial
  exact ⟨h'.threadId.trans h.threadId, h'.turnId.trans h.turnId, fun o hterm => h'.terminal o (h.terminal o hterm)⟩

end RunCalls

/-- **The events and the outcome of a run.** For all calls of `accept`, `recv`, `complete` and `fail`, in any order:
`recv` returns consecutive events from 1 on, a prefix of the accepted ones, and then at most once a lag or the
terminal error, or else the end, which without a `fail` stands behind the only `Finished` event. The outcome stays
once it is there, and a successful one is the result of a terminal snapshot of this run that a query or an event
gave. And `accept` returns `true` of exactly the accepted events that are `Finished`. -/
theorem run_event_stream {threadId turnId : String} {query : Bool} {c : RunCalls} {labels : List Unit}
    (run : RunCalls.Run (.start threadId turnId query) labels c) :
    (∃ events rest, c.received = events.map (fun e => .ok (some e)) ++ rest ∧ Numbered (·.seq) 0 events ∧
      events <+: acceptedOf threadId turnId c.given ∧
      (rest = [] ∨ ∃ first n, rest = first :: List.replicate n (.ok none) ∧
        (first = .error .eventLagged ∨
          (∃ message, first = .error (.channelClosed message) ∧ c.state.terminal = some (.error message)) ∨
          first = .ok none ∧ (c.hasFailed = false → c.detached = false → EndsFinished events)))) ∧
    (∀ labels' c', RunCalls.Run c labels' c' → ∀ outcome, c.state.terminal = some outcome →
      c'.state.terminal = some outcome) ∧
    (∀ snapshot, c.state.terminal = some (.ok snapshot) →
      snapshot.threadId = threadId ∧ snapshot.turnId = turnId ∧ snapshot.status.isTerminal = true ∧
      (snapshot ∈ c.queried ∨ ∃ e ∈ c.given, e.payload = .finished snapshot) ∧
      ∃ result, snapshot.result = some result ∧ c.state.result = some (.ok result)) ∧
    c.answers <+: verdicts threadId turnId c.given := by
  have hsame := run.kept
  obtain ⟨hinv, hanswered⟩ := run.invariant (fun c => c.Inv ∧ c.Answered)
    (fun _ _ _ h hs => ⟨h.1.step h.2 hs, h.2.step hs⟩) ⟨RunCalls.inv_start _ _ _, rfl, rfl⟩
  have hsettled := run.invariant RunCalls.Settled (fun _ _ _ h hs => h.step hs) (RunCalls.settled_start _ _ _)
  have hthread : c.state.threadId = threadId := hsame.threadId
  have hturn : c.state.turnId = turnId := hsame.turnId
  have hprefix : returned c.received <+: acceptedOf threadId turnId c.given := by
    have h := hinv.isPrefix
    unfold RunCalls.accepted at h
    rwa [hthread, hturn] at h
  refine ⟨?_, fun labels' c' run' => run'.kept.terminal, fun snapshot hterm => ?_, ?_⟩
  · cases hended : c.ended with
    | false => exact ⟨_, [], by rw [List.append_nil]; exact (hinv.live hended).2, hinv.numbered, hprefix, .inl rfl⟩
    | true =>
      rcases hinv.atEnd hended with hclosed | ⟨-, first, n, hlast, heq⟩
      · exact ⟨_, [], by rw [List.append_nil]; exact (hinv.closed hclosed).1, hinv.numbered, hprefix, .inl rfl⟩
      · refine ⟨_, _, heq, hinv.numbered, hprefix, .inr ⟨first, n, rfl, ?_⟩⟩
        rcases hlast with hlag | hclosed | ⟨hnone, hwhy⟩
        · exact .inl hlag
        · exact .inr (.inl hclosed)
        · refine .inr (.inr ⟨hnone, fun hfailed hdetached => ?_⟩)
          rcases hwhy with (hf | hd) | hends
          · exact absurd (hf.symm.trans hfailed) (by decide)
          · exact absurd (hd.symm.trans hdetached) (by decide)
          · exact hends
  · obtain ⟨hfits, hfrom⟩ := hsettled.terminal snapshot hterm
    obtain ⟨result, hresult⟩ := Option.isSome_iff_exists.mp hfits.result
    refine ⟨hfits.threadId.trans hthread, hfits.turnId.trans hturn, hfits.terminal, hfrom, result, hresult, ?_⟩
    unfold RunState.result
    rw [hterm, Option.map_some]
    simp only [hresult]
  · have h := hanswered.answers
    rw [hthread, hturn] at h
    exact ⟨_, h⟩

namespace Sample

/-- A terminal snapshot of the run. -/
def finishedSnapshot (seq : Nat) : RunSnapshot :=
  { threadId := "thread", turnId := "turn", status := .cancelled, items := [], usage := {}, pendingApprovals := []
    lastSeq := seq, result := some ⟨"turn", "thread", .interrupted, [], {}⟩ }

def finishedEvent (seq : Nat) : RunEvent := ⟨"thread", "turn", seq, .finished (finishedSnapshot seq)⟩

/-- The first of two `Finished` events was accepted. -/
def onceFinished : RunCalls where
  state := {
    threadId := "thread", turnId := "turn", sender := false, channel := [finishedEvent 1]
    terminal := some (.ok (finishedSnapshot 1)), lastSeq := 1 }
  given := [finishedEvent 1]
  answers := [(finishedEvent 1, true)]

/-- The second one, too. -/
def twiceFinished : RunCalls :=
  { onceFinished with
    state := { onceFinished.state with lastSeq := 2 }
    given := [finishedEvent 1, finishedEvent 2]
    answers := [(finishedEvent 1, true), (finishedEvent 2, true)] }

/-- The stream is read to its end. -/
def readToEnd : RunCalls :=
  { twiceFinished with
    state := { twiceFinished.state with channel := [] }
    ended := true
    received := [.ok (some (finishedEvent 1)), .ok none] }

theorem onceFinished_run : RunCalls.Run (.start "thread" "turn" false) (List.replicate 8 ()) onceFinished :=
  .cons (.accept (finishedEvent 1) rfl) <| .cons (.advance rfl) <| .cons (.advance rfl) <|
  .cons (.advance rfl) <| .cons (.advance rfl) <| .cons (.advance rfl) <| .cons (.advance rfl) <|
  .single (.answer rfl)

theorem twiceFinished_run : RunCalls.Run onceFinished (List.replicate 8 ()) twiceFinished :=
  .cons (.accept (finishedEvent 2) rfl) <| .cons (.advance rfl) <| .cons (.advance rfl) <|
  .cons (.advance rfl) <| .cons (.advance rfl) <| .cons (.advance rfl) <| .cons (.advance rfl) <|
  .single (.answer rfl)

theorem readToEnd_run : RunCalls.Run twiceFinished (List.replicate 7 ()) readToEnd :=
  .cons (.recv rfl rfl) <| .cons (.take rfl rfl) <| .cons (.check rfl) <| .cons (.recv rfl rfl) <|
  .cons (.close rfl rfl rfl) <| .cons (.check rfl) <| .single (.report rfl)

end Sample

/-- The calls take events behind the end of the run: two `Finished` events in a row are both answered with `true`,
and the stream ends behind the first of them. -/
theorem run_event_stream_twice : ∃ labels, RunCalls.Run (.start "thread" "turn" false) labels Sample.readToEnd ∧
    Sample.readToEnd.hasFailed = false ∧ Sample.readToEnd.detached = false ∧
    Sample.readToEnd.answers = [(Sample.finishedEvent 1, true), (Sample.finishedEvent 2, true)] ∧
    acceptedOf "thread" "turn" Sample.readToEnd.given = [Sample.finishedEvent 1, Sample.finishedEvent 2] ∧
    Sample.readToEnd.received = [.ok (some (Sample.finishedEvent 1)), .ok none] :=
  ⟨_, Sample.onceFinished_run.append (Sample.twiceFinished_run.append Sample.readToEnd_run), rfl, rfl, rfl, rfl, rfl⟩

/-- The outcome of that run. -/
theorem run_event_stream_finished : Sample.readToEnd.state.result =
    some (.ok ⟨"turn", "thread", .interrupted, [], {}⟩) := by
  obtain ⟨-, -, hsettled, -⟩ := run_event_stream (Sample.onceFinished_run.append
    (Sample.twiceFinished_run.append Sample.readToEnd_run))
  obtain ⟨-, -, -, -, result, hresult, hget⟩ := hsettled (Sample.finishedSnapshot 1) rfl
  cases hresult
  exact hget

end Whale
