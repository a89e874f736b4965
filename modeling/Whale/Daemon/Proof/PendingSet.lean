import Whale.Daemon.Proof.FirstResponse
import Whale.Daemon.Proof.Journal

/-!
# The published pending set

`Recorded log r`: the snapshot is what the reducer makes of the log from the first snapshot on, and the
journal is a window of it. `PendingSet` adds that the snapshot has a request exactly when its entry waits,
or is resolved by a transaction that has neither published nor aborted. Every operation keeps both
(`PendingSet.step`), if no run is retired while one of its transactions is open.
-/

namespace Whale

open Check InteractionSnapshot

/-- `serde_json` serializes every event. -/
def InteractionHost.Total [InteractionHost] : Prop :=
  ∀ e, ∃ bytes, InteractionHost.eventBytes e = .ok bytes

namespace InteractionRecord

section
variable [External]

/-- The record has published a log. -/
structure Recorded (base : InteractionSnapshot) (log : List InteractionEventEnvelope)
    (r : InteractionRecord) : Prop where
  enabled : r.enabled = true
  valid : r.snapshot.validate = .ok ()
  reduces : base.Reduces log r.snapshot
  events : Journal.Log r.snapshot.cursor log
  window : Journal.Window r.limits r.snapshot.cursor log r.journal
  seq : r.snapshot.cursor.seq = log.length

variable {base : InteractionSnapshot} {log events : List InteractionEventEnvelope}
  {r r' : InteractionRecord} {key : InteractionKey}

/-- The entries, the runs and the generations are not in the log. -/
theorem Recorded.congr (h : Recorded base log r) (hs : r'.snapshot = r.snapshot)
    (hj : r'.journal = r.journal) (hl : r'.limits = r.limits) (he : r'.enabled = r.enabled) :
    Recorded base log r' := by
  refine ⟨he.trans h.enabled, ?_, ?_, ?_, ?_, ?_⟩
  · rw [hs]
    exact h.valid
  · rw [hs]
    exact h.reduces
  · rw [hs]
    exact h.events
  · rw [hs, hj, hl]
    exact h.window
  · rw [hs]
    exact h.seq

/-- Forgetting a run shortens the journal. -/
theorem Recorded.scrubRun (h : Recorded base log r) (turnId : String) :
    Recorded base log { r with journal := r.journal.scrubRun turnId } :=
  ⟨h.enabled, h.valid, h.reduces, h.events, h.window.scrubRun h.events turnId, h.seq⟩

/-- A new record has published nothing. -/
theorem recorded_new {threadId streamId : String} {limits : EventJournalLimits}
    (h : InteractionRecord.new threadId streamId true limits = .ok r) :
    Recorded r.snapshot [] r ∧ r.snapshot.pending = [] := by
  obtain ⟨_, hv, h⟩ := bind_ok h
  cases h
  refine ⟨⟨rfl, hv, .nil _, .nil, Journal.Window.initial rfl rfl rfl ?_, rfl⟩, rfl⟩
  simp [Cursor.sameStream]

variable [InteractionHost]

/-- What a commit publishes. -/
theorem Recorded.publish (h : Recorded base log r) {now : Nat} {payload : InteractionEventPayload}
    (hp : r.publish now payload = .ok (r', events)) :
    Recorded base (log ++ events) r' ∧ ∃ e, events = [e] ∧ e.payload = payload ∧
      r.snapshot.apply e = .ok (r'.snapshot, true) := by
  unfold InteractionRecord.publish at hp
  rw [if_pos h.enabled] at hp
  unfold commit at hp
  simp only [except_map_bind] at hp
  obtain ⟨cursor, hcursor, hp⟩ := bind_ok hp
  obtain ⟨_, -, hp⟩ := bind_ok hp
  obtain ⟨bytes, -, hp⟩ := bind_ok hp
  obtain ⟨⟨snapshot, new⟩, happ, hp⟩ := bind_ok hp
  cases hp
  obtain ⟨-, -, rfl⟩ := Cursor.next_ok hcursor
  have happ := mapError_ok_iff.mp happ
  obtain rfl := (apply_cursor happ).2 (Nat.lt_succ_self _)
  obtain ⟨hv, -, -, hsnap⟩ := of_apply happ
  obtain ⟨h1, h2, h3⟩ := h.window.publish h.events h.seq
    (e := ⟨r.snapshot.threadId, { r.snapshot.cursor with seq := r.snapshot.cursor.seq + 1 }, now, payload⟩)
    rfl bytes (some payload.key.1)
  have hc : snapshot.cursor = { r.snapshot.cursor with seq := r.snapshot.cursor.seq + 1 } := by
    rw [hsnap]
  refine ⟨⟨h.enabled, hv, Lts.Run.snoc h.reduces happ, ?_, ?_, ?_⟩, _, rfl, rfl, happ⟩
  · rw [hc]
    exact h1
  · rw [hc]
    exact h2
  · rw [hc]
    exact h3

/-- The removal of a pending request is published. -/
theorem Recorded.publish_removed (h : Recorded base log r) (hser : InteractionHost.Total)
    (hseq : r.snapshot.cursor.seq < u64Max) (hk : key ∈ r.snapshot.keys) (cause : InteractionRemoval)
    (now : Nat) : ∃ p, r.publish now (.removed key.2 key.1 cause.text) = .ok p := by
  obtain ⟨henv, happ⟩ := apply_removed h.valid hseq hk cause now
  obtain ⟨bytes, hbytes⟩ :=
    hser (r.snapshot.nextEnvelope now (.removed key.2 key.1 cause.text))
  have hcursor : r.snapshot.cursor.checkedNextInteraction =
      .ok { r.snapshot.cursor with seq := r.snapshot.cursor.seq + 1 } :=
    Cursor.next_of_lt (validate_iff.mp h.valid).2.1 hseq
  unfold nextEnvelope at henv happ hbytes
  unfold InteractionRecord.publish
  rw [if_pos h.enabled]
  unfold commit
  simp only [hcursor, ok_bind, henv, hbytes, Except.mapError, happ]
  exact ⟨_, rfl⟩

/-- A removal takes its request out of the pending set, and no other. -/
theorem Recorded.pending_removed (h : Recorded base log r) {now : Nat} {cause : String}
    (hp : r.publish now (.removed key.2 key.1 cause) = .ok (r', events)) (p : PendingInteraction) :
    p ∈ r'.snapshot.pending ↔ p ∈ r.snapshot.pending ∧ p.key ≠ key := by
  obtain ⟨-, e, -, he, happ⟩ := h.publish hp
  obtain ⟨q, hq, -⟩ | ⟨requestId, turnId, cause', hq, -, hpending⟩ := mem_keys_of_apply happ
  · rw [he] at hq
    cases hq
  · rw [he] at hq
    cases hq
    rw [hpending]
    exact mem_eraseP_key (nodup_keys h.valid)

end

/-! ## The entries that are pending -/

section

/-- A request whose entry is live, and is that of its generation. -/
def Live (awaits : ResponseState → Prop) (requests : Nat → Option (InteractionKey × InteractionRequest))
    (r : InteractionRecord) (p : PendingInteraction) : Prop :=
  ∃ state, r.entries.get? p.key = some state ∧ awaits state ∧
    requests state.generation = some (p.key, p.request)

/-- The pending set is that of the live entries. -/
def Exact (awaits : ResponseState → Prop) (requests : Nat → Option (InteractionKey × InteractionRequest))
    (r : InteractionRecord) : Prop :=
  ∀ p, p ∈ r.snapshot.pending ↔ r.Live awaits requests p

variable {awaits awaits' : ResponseState → Prop}
  {requests : Nat → Option (InteractionKey × InteractionRequest)} {r r' : InteractionRecord}
  {key : InteractionKey}

/-- Erasing an entry and its request. -/
theorem Exact.erase (h : Exact awaits requests r)
    (hp : ∀ p, p ∈ r'.snapshot.pending ↔ p ∈ r.snapshot.pending ∧ p.key ≠ key)
    (he : r'.entries = r.entries.erase key) : Exact awaits requests r' := by
  intro p
  rw [hp p, h p]
  unfold Live
  rw [he]
  constructor
  · rintro ⟨⟨state, hget, hrest⟩, hne⟩
    exact ⟨state, KeyMap.get?_erase.mpr ⟨hget, hne⟩, hrest⟩
  · rintro ⟨state, hget, hrest⟩
    obtain ⟨hget, hne⟩ := KeyMap.get?_erase.mp hget
    exact ⟨⟨state, hget, hrest⟩, hne⟩

/-- The entries wait for the same. -/
theorem Exact.awaits_congr (h : Exact awaits requests r)
    (ha : ∀ key state, r.entries.get? key = some state → (awaits' state ↔ awaits state)) :
    Exact awaits' requests r := by
  intro p
  rw [h p]
  constructor
  · rintro ⟨state, hget, hw, hr⟩
    exact ⟨state, hget, (ha _ _ hget).mpr hw, hr⟩
  · rintro ⟨state, hget, hw, hr⟩
    exact ⟨state, hget, (ha _ _ hget).mp hw, hr⟩

/-- The same entries, as far as they are live. -/
theorem Exact.congr (h : Exact awaits requests r) (hs : r'.snapshot.pending = r.snapshot.pending)
    (hl : ∀ p, r'.Live awaits' requests p ↔ r.Live awaits requests p) : Exact awaits' requests r' := by
  intro p
  rw [hs, hl p]
  exact h p

/-- A live entry is pending. -/
theorem Exact.mem_keys (h : Exact awaits requests r) {state : ResponseState} {request : InteractionRequest}
    (hget : r.entries.get? key = some state) (ha : awaits state)
    (hr : requests state.generation = some (key, request)) : key ∈ r.snapshot.keys := by
  refine List.mem_map.mpr ⟨⟨key.2, key.1, request⟩, (h _).mpr ?_, rfl⟩
  exact ⟨state, hget, ha, hr⟩

end

section
variable [External] [InteractionHost] {base : InteractionSnapshot}
  {log events : List InteractionEventEnvelope} {r r' : InteractionRecord} {key : InteractionKey}
  {awaits : ResponseState → Prop} {requests : Nat → Option (InteractionKey × InteractionRequest)}

/-- Publishing the removal of a live entry that is erased before or after it. -/
theorem Exact.removed (h : Exact awaits requests r) (hrec : Recorded base log r)
    (hser : InteractionHost.Total) (hseq : r.snapshot.cursor.seq < u64Max) (hk : key ∈ r.snapshot.keys)
    (cause : InteractionRemoval) (now : Nat) :
    ∃ next es, ({ r with entries := r.entries.erase key } : InteractionRecord).publish now
        (.removed key.2 key.1 cause.text) = .ok (next, es) ∧
      Recorded base (log ++ es) next ∧ Exact awaits requests next ∧
      next.entries = r.entries.erase key := by
  have herased : Recorded base log { r with entries := r.entries.erase key } :=
    hrec.congr rfl rfl rfl rfl
  obtain ⟨⟨next, es⟩, hpub⟩ := herased.publish_removed hser hseq hk cause now
  obtain ⟨snapshot, journal, rfl, -⟩ := publish_frame hpub
  refine ⟨_, es, hpub, (herased.publish hpub).1, ?_, rfl⟩
  exact h.erase (herased.pending_removed hpub) rfl

/-- The loop of `clear_run` over pending requests. -/
theorem Exact.clearKeys (hser : InteractionHost.Total) {cause : InteractionRemoval}
    (ha : ∀ entry, awaits (.pending entry)) : ∀ {keys : List (InteractionKey × Nat)}
    {r r' : InteractionRecord} {log events : List InteractionEventEnvelope} {generations : List Nat},
    Exact awaits requests r → Recorded base log r → (keys.map (·.1)).Nodup →
    (∀ k ∈ keys.map (·.1), ∃ entry request, r.entries.get? k = some (.pending entry) ∧
      requests entry.generation = some (k, request)) →
    clearKeys cause r keys = (generations, r', events) → r'.snapshot.cursor.seq < u64Max →
    Recorded base (log ++ events) r' ∧ Exact awaits requests r' ∧
      ∀ k ∈ keys.map (·.1), r'.entries.get? k = none
  | [], r, r', log, events, generations, hx, hrec, _, _, h, _ => by
    cases h
    rw [List.append_nil]
    exact ⟨hrec, hx, by simp⟩
  | (key, now) :: keys, r, r', log, events, generations, hx, hrec, hnodup, hpending, h, hseq => by
    obtain ⟨hnot, hnodup⟩ := List.nodup_cons.mp hnodup
    obtain ⟨entry, request, hget, hreq⟩ := hpending key (by simp)
    obtain ⟨entry', next, es, generations', rest, hget', hpub, hrest, rfl, rfl⟩ |
      ⟨digest, generation, typed, hget', -⟩ | ⟨hget', -⟩ := clearKeys_cons h
    · -- the cursor only grows, so there is room for this event
      have hle := (clearKeys_shrinks h).1.cursor
      obtain ⟨next', es', hpub', hrec', hx', hentries⟩ := hx.removed hrec hser (by omega)
        (hx.mem_keys hget (ha entry) hreq) cause now
      have heq : (next', es') = (next, es) := by
        rw [← hpub]
        unfold publishOr
        rw [hpub']
        rfl
      cases heq
      have hkeep : ∀ k ∈ keys.map (·.1), next.entries.get? k = r.entries.get? k := by
        intro k hk
        rw [hentries]
        exact KeyMap.get?_erase_ne fun he => hnot (he ▸ hk)
      obtain ⟨h1, h2, h3⟩ := Exact.clearKeys hser ha hx' hrec' hnodup (by
        intro k hk
        rw [hkeep k hk]
        exact hpending k (List.mem_cons_of_mem _ hk)) hrest hseq
      refine ⟨by rwa [← List.append_assoc], h2, fun k hk => ?_⟩
      rcases List.mem_cons.mp hk with hkey | hk
      · rw [hkey]
        cases hlast : r'.entries.get? key with
        | none => rfl
        | some state =>
          have := (clearKeys_shrinks hrest).1.entries key state hlast
          rw [hentries] at this
          exact absurd rfl (KeyMap.get?_erase.mp this).2
      · exact h3 k hk
    · rw [hget] at hget'
      cases hget'
    · rw [hget] at hget'
      cases hget'

end

end InteractionRecord

namespace Interactions

variable {ρ : Type} [External] [InteractionHost] {submit : ρ → ResponseSubmission}
  {w w' : Interactions ρ} {l : Label} {g : Nat} {t : ResponseCommit}
  {base : InteractionSnapshot} {log : List InteractionEventEnvelope}

/-- A transaction has neither published nor aborted. -/
def IsOpen (w : Interactions ρ) (g : Nat) : Prop :=
  ∃ t, w.transactions g = some t ∧ t.stage.isOpen = true

/-- A request that waits, or whose response is not published or aborted yet. -/
def Awaits (w : Interactions ρ) : ResponseState → Prop
  | .pending _ => True
  | .resolved _ generation _ => w.IsOpen generation

/-- No transaction of a run is open. -/
def Quiet (w : Interactions ρ) (turnId : String) : Prop :=
  ∀ g t, w.transactions g = some t → t.key.1 = turnId → t.stage.isOpen = false

/-- The published pending set is that of the entries, and the log is what was published. -/
structure PendingSet (base : InteractionSnapshot) (log : List InteractionEventEnvelope)
    (w : Interactions ρ) : Prop where
  recorded : w.record.Recorded base log
  exact : w.record.Exact w.Awaits w.requests
  registered : w.registered = true

variable [DecidableEq ρ]

/-- A step of an open session that retires a run only when none of its transactions is open. -/
structure CalmStep (submit : ρ → ResponseSubmission) (w : Interactions ρ) (l : Label)
    (w' : Interactions ρ) : Prop where
  step : Step submit w l w'
  alive : l ≠ .close
  calm : ∀ turnId, l = .retire turnId true → w.Quiet turnId

omit [DecidableEq ρ] [External] [InteractionHost] in
/-- Moving a transaction that stays open, or stays closed, changes no request. -/
theorem awaits_advance (txn : w.transactions g = some t) {stage : ResponseStage}
    (h : stage.isOpen = t.stage.isOpen) : (w.advance g t stage).Awaits = w.Awaits := by
  funext state
  cases state with
  | pending entry => rfl
  | resolved digest generation typed =>
    unfold Awaits IsOpen
    by_cases hg : generation = g
    · subst hg
      simp only [advance, Function.update_self, txn, Option.some.injEq, exists_eq_left', h]
    · simp only [advance, Function.update_of_ne hg]

omit [DecidableEq ρ] [InteractionHost] in
/-- A transaction that stays open, or stays closed. -/
theorem PendingSet.advance (h : PendingSet base log w) (txn : w.transactions g = some t)
    {stage : ResponseStage} (hs : stage.isOpen = t.stage.isOpen) :
    PendingSet base log (w.advance g t stage) := by
  refine ⟨h.recorded, ?_, h.registered⟩
  rw [awaits_advance txn hs]
  exact h.exact

omit [DecidableEq ρ] in
/-- A request that is removed without a response. -/
theorem PendingSet.removed (h : PendingSet base log w) (hs : Sound submit w) (hser : InteractionHost.Total)
    {key : InteractionKey} {entry : PendingEntry}
    (hget : w.record.entries.get? key = some (.pending entry))
    (hseq : w.record.snapshot.cursor.seq < u64Max) (cause : InteractionRemoval) (now : Nat) :
    ∃ next es, ({ w.record with entries := w.record.entries.erase key } : InteractionRecord).publish now
        (.removed key.2 key.1 cause.text) = .ok (next, es) ∧
      next.Recorded base (log ++ es) ∧ next.Exact w.Awaits w.requests := by
  obtain ⟨request, hreq, -⟩ := hs.entries _ _ hget
  obtain ⟨next, es, h1, h2, h3, -⟩ := h.exact.removed h.recorded hser hseq
    (h.exact.mem_keys hget trivial hreq) cause now
  exact ⟨next, es, h1, h2, h3⟩

/-! ## Operations -/

omit [DecidableEq ρ] in
theorem PendingSet.begin (h : PendingSet base log w) (hs : Sound submit w) {turnId requestId : String}
    {request : InteractionRequest} {origin : InteractionOrigin} {now : Nat} {r : InteractionRecord}
    {events : List InteractionEventEnvelope}
    (result : w.record.begin turnId requestId request origin now = (.ok g, r, events)) :
    PendingSet base (log ++ events) { w with
      record := r
      continuations := Function.update w.continuations g .waiting
      requests := Function.update w.requests g (some ((turnId, requestId), request)) } := by
  obtain ⟨next, hpub, rfl, hnone, rfl⟩ := InteractionRecord.begin_ok result
  have htaken : ({ w.record with nextGeneration := w.record.nextGeneration + 1 } :
      InteractionRecord).Recorded base log := h.recorded.congr rfl rfl rfl rfl
  obtain ⟨hrec, e, -, he, happ⟩ := htaken.publish hpub
  obtain ⟨snapshot, journal, rfl, -⟩ := InteractionRecord.publish_frame hpub
  obtain ⟨p₀, hp₀, -, hpending⟩ | ⟨_, _, _, hp₀, -⟩ := mem_keys_of_apply happ
  · rw [he] at hp₀
    cases hp₀
    refine ⟨hrec.congr rfl rfl rfl rfl, fun p => ?_, h.registered⟩
    have hfresh : w.requests w.record.nextGeneration = none := hs.fresh _ le_rfl
    have hne : ∀ {key state}, w.record.entries.get? key = some state →
        state.generation ≠ w.record.nextGeneration := by
      intro key state hget heq
      obtain ⟨q, hq, -⟩ := hs.entries key state hget
      rw [heq, hfresh] at hq
      cases hq
    show p ∈ snapshot.pending ↔ _
    rw [hpending, List.mem_append, List.mem_singleton]
    constructor
    · rintro (hp | rfl)
      · obtain ⟨state, hget, ha, hr⟩ := (h.exact p).mp hp
        refine ⟨state, KeyMap.get?_insert.mpr (.inr ⟨hget, fun hk => ?_⟩), ha, ?_⟩
        · rw [hk, hnone] at hget
          cases hget
        · simpa only [Function.update_of_ne (hne hget)] using hr
      · exact ⟨_, KeyMap.get?_insert_self, trivial, Function.update_self ..⟩
    · rintro ⟨state, hget, ha, hr⟩
      rcases KeyMap.get?_insert.mp hget with ⟨hk, rfl⟩ | ⟨hget, -⟩
      · right
        simp only [ResponseState.generation, Function.update_self, Option.some.injEq,
          Prod.mk.injEq] at hr
        obtain ⟨⟨hturn, hid⟩, hreq⟩ := hr
        cases p
        simp_all
      · left
        simp only [Function.update_of_ne (hne hget)] at hr
        exact (h.exact p).mpr ⟨state, hget, ha, hr⟩
  · rw [he] at hp₀
    cases hp₀

theorem PendingSet.lead (h : PendingSet base log w) (hs : Sound submit w) {i : ρ} {digest : BitVec 256}
    {entry : PendingEntry} (hget : w.record.entries.get? (submit i).key = some (.pending entry)) :
    PendingSet base log ({ w with
      record := w.record.resolve (submit i).key digest entry
      transactions := Function.update w.transactions entry.generation (some
        { key := (submit i).key, digest, response := (submit i).params.response
          typedApproval := entry.typedApproval }) }.withResponder i (.leading entry.generation)) := by
  refine ⟨h.recorded.congr rfl rfl rfl rfl, ?_, h.registered⟩
  refine h.exact.congr rfl fun p => ?_
  -- the other entries are of other generations
  have hother : ∀ {key state}, w.record.entries.get? key = some state → key ≠ (submit i).key →
      state.generation ≠ entry.generation := fun hk hne heq => hne (hs.key_unique hk hget heq)
  have hopen : ∀ {g}, g ≠ entry.generation → (IsOpen { w with
      record := w.record.resolve (submit i).key digest entry
      transactions := Function.update w.transactions entry.generation (some
        { key := (submit i).key, digest, response := (submit i).params.response
          typedApproval := entry.typedApproval }) } g ↔ w.IsOpen g) := by
    intro g hg
    unfold IsOpen
    simp only [Function.update_of_ne hg]
  constructor
  · rintro ⟨state, hk, ha, hr⟩
    rcases KeyMap.get?_insert.mp hk with ⟨hkey, rfl⟩ | ⟨hk, hne⟩
    · exact ⟨.pending entry, hkey ▸ hget, trivial, hr⟩
    · refine ⟨state, hk, ?_, hr⟩
      cases state with
      | pending => trivial
      | resolved digest' generation typed => exact (hopen (hother hk hne)).mp ha
  · rintro ⟨state, hk, ha, hr⟩
    by_cases hkey : p.key = (submit i).key
    · rw [hkey, hget] at hk
      cases hk
      exact ⟨_, KeyMap.get?_insert.mpr (.inl ⟨hkey, rfl⟩), ⟨_, Function.update_self .., rfl⟩, hr⟩
    · refine ⟨state, KeyMap.get?_insert.mpr (.inr ⟨hk, hkey⟩), ?_, hr⟩
      cases state with
      | pending => trivial
      | resolved digest' generation typed => exact (hopen (hother hk hkey)).mpr ha

omit [DecidableEq ρ] [External] [InteractionHost] in
/-- Closing a transaction leaves the entries of the others. -/
theorem awaits_closed {stage : ResponseStage} (hclosed : stage.isOpen = false) (state : ResponseState) :
    (w.advance g t stage).Awaits state ↔
      w.Awaits state ∧ (state.isPending = true ∨ state.generation ≠ g) := by
  cases state with
  | pending entry => simp [Awaits, ResponseState.isPending]
  | resolved digest generation typed =>
    unfold Awaits IsOpen
    by_cases hg : generation = g
    · subst hg
      simp [Interactions.advance, hclosed, ResponseState.isPending, ResponseState.generation]
    · simp [Interactions.advance, hg, ResponseState.isPending, ResponseState.generation]

omit [DecidableEq ρ] in
theorem PendingSet.publish (h : PendingSet base log w) (hs : Sound submit w) {now : Nat}
    {r : InteractionRecord} {events : List InteractionEventEnvelope}
    (result : w.record.publishResolvedExact t.key g t.digest now = .ok (r, events)) :
    PendingSet base (log ++ events) ({ w with record := r }.advance g t .published) := by
  obtain ⟨hmatch, hpub⟩ := InteractionRecord.publishResolvedExact_ok result
  obtain ⟨typed, hget⟩ := InteractionRecord.matchesResolved_iff.mp hmatch
  have hpending := h.recorded.pending_removed hpub
  obtain ⟨snapshot, journal, rfl, -⟩ := InteractionRecord.publish_frame hpub
  refine ⟨(h.recorded.publish hpub).1, fun p => ?_, h.registered⟩
  refine (hpending p).trans (((h.exact p).and Iff.rfl).trans ?_)
  -- the entry of the transaction is the only one of its generation
  constructor
  · rintro ⟨⟨state, hk, ha, hr⟩, hne⟩
    refine ⟨state, hk, (awaits_closed rfl state).mpr ⟨ha, .inr fun hg => hne ?_⟩, hr⟩
    exact hs.key_unique hk hget hg
  · rintro ⟨state, hk, ha, hr⟩
    obtain ⟨ha, hstate⟩ := (awaits_closed rfl state).mp ha
    refine ⟨⟨state, hk, ha, hr⟩, fun hkey => ?_⟩
    have hk : w.record.entries.get? p.key = some state := hk
    rw [hkey, hget] at hk
    cases hk
    rcases hstate with hstate | hstate
    · cases hstate
    · exact hstate rfl

omit [DecidableEq ρ] in
theorem PendingSet.abort (h : PendingSet base log w) (hs : Sound submit w) (hser : InteractionHost.Total)
    {now : Nat} {r : InteractionRecord} {events : List InteractionEventEnvelope}
    {cause : InteractionRemoval} {failure : InteractionFailure} (txn : w.transactions g = some t)
    (hstage : t.stage = .aborting cause failure)
    (result : w.record.abortResolvedExact t.key g t.digest cause now = (r, events))
    (hseq : r.snapshot.cursor.seq < u64Max) :
    PendingSet base (log ++ events) ({ w with record := r }.advance g t (.aborted failure)) := by
  obtain ⟨hmatch, rfl, rfl⟩ | ⟨next, hmatch, hpub, rfl⟩ | ⟨e, hmatch, hpub, rfl, rfl⟩ :=
    InteractionRecord.abortResolvedExact_cases result
  · -- nothing matches, so no entry is of this transaction
    rw [List.append_nil]
    refine ⟨h.recorded, h.exact.awaits_congr fun key state hget => ?_, h.registered⟩
    rw [awaits_closed rfl state]
    refine ⟨fun ha => ha.1, fun ha => ⟨ha, ?_⟩⟩
    cases state with
    | pending entry => exact .inl rfl
    | resolved digest generation typed =>
      refine .inr fun hg => ?_
      obtain ⟨q, -, t', ht', rfl, rfl⟩ := hs.entries _ _ hget
      have hg : generation = g := hg
      subst hg
      rw [show w.transactions generation = some t from txn] at ht'
      cases ht'
      rw [InteractionRecord.matchesResolved_iff.mpr ⟨typed, hget⟩] at hmatch
      cases hmatch
  · obtain ⟨typed, hget⟩ := InteractionRecord.matchesResolved_iff.mp hmatch
    have hpending := h.recorded.pending_removed hpub
    have hrec := (h.recorded.publish hpub).1
    obtain ⟨snapshot, journal, rfl, -⟩ := InteractionRecord.publish_frame hpub
    refine ⟨hrec.congr rfl rfl rfl rfl, ?_, h.registered⟩
    have herased : InteractionRecord.Exact w.Awaits w.requests
        { w.record with snapshot, journal, entries := w.record.entries.erase t.key } :=
      h.exact.erase hpending rfl
    refine herased.awaits_congr fun key state hk => ?_
    rw [awaits_closed rfl state]
    obtain ⟨hk, hne⟩ := KeyMap.get?_erase.mp hk
    exact ⟨fun ha => ha.1, fun ha => ⟨ha, .inr fun hg => hne (hs.key_unique hk hget hg)⟩⟩
  · -- the request is pending, so its removal could be published
    obtain ⟨typed, hget⟩ := InteractionRecord.matchesResolved_iff.mp hmatch
    obtain ⟨request, hreq, -⟩ := hs.entries _ _ hget
    obtain ⟨p, hp⟩ := h.recorded.publish_removed hser hseq
      (h.exact.mem_keys hget ⟨t, txn, by rw [hstage]; rfl⟩ hreq) cause now
    rw [hp] at hpub
    cases hpub

omit [DecidableEq ρ] in
theorem PendingSet.retire (h : PendingSet base log w) (hs : Sound submit w) {turnId : String}
    (identity : Nat) (hcalm : (w.record.retireRun turnId identity).1 = true → w.Quiet turnId) :
    PendingSet base log { w with record := (w.record.retireRun turnId identity).2 } := by
  obtain heq | ⟨hretired, hpending, heq⟩ := w.record.retireRun_cases turnId identity
  · rw [heq]
    exact h
  · have hquiet := hcalm hretired
    rw [heq]
    refine ⟨(h.recorded.scrubRun turnId).congr rfl rfl rfl rfl, h.exact.congr rfl fun p => ?_,
      h.registered⟩
    constructor
    · rintro ⟨state, hk, ha, hr⟩
      exact ⟨state, (KeyMap.get?_filter.mp hk).1, ha, hr⟩
    · rintro ⟨state, hk, ha, hr⟩
      -- no request of the run waits, and none of its transactions is open
      refine ⟨state, KeyMap.get?_filter.mpr ⟨hk, ?_⟩, ha, hr⟩
      rw [bne_iff_ne]
      rintro rfl
      cases state with
      | pending entry =>
        have hmem : (p.key, .pending entry) ∈ w.record.pendingOf p.key.1 :=
          InteractionRecord.mem_pendingOf.mpr ⟨hk, rfl, rfl⟩
        rw [hpending] at hmem
        cases hmem
      | resolved digest generation typed =>
        obtain ⟨t, ht, hopen⟩ := ha
        obtain ⟨q, -, t', ht', hkey, -⟩ := hs.entries _ _ hk
        rw [ht] at ht'
        cases ht'
        rw [hquiet _ t ht (by rw [hkey])] at hopen
        cases hopen

omit [DecidableEq ρ] in
theorem PendingSet.clearKeys (h : PendingSet base log w) (hs : Sound submit w)
    (hser : InteractionHost.Total) {turnId : String} {cause : InteractionRemoval}
    {keys : List (InteractionKey × Nat)} {generations : List Nat} {r : InteractionRecord}
    {events : List InteractionEventEnvelope}
    (collected : (keys.map (·.1)).Perm ((w.record.pendingOf turnId).map (·.1)))
    (result : w.record.clearKeys cause keys = (generations, r, events))
    (hseq : r.snapshot.cursor.seq < u64Max) :
    r.Recorded base (log ++ events) ∧ r.Exact w.Awaits w.requests ∧
      ∀ key entry, r.entries.get? key = some (.pending entry) → key.1 ≠ turnId := by
  have hnodup : ((w.record.pendingOf turnId).map (·.1)).Nodup :=
    (List.filter_sublist.map _).nodup w.record.entries.nodup
  obtain ⟨h1, h2, h3⟩ := InteractionRecord.Exact.clearKeys hser (fun _ => trivial) h.exact h.recorded
    (collected.nodup_iff.mpr hnodup) (by
      intro k hk
      obtain ⟨⟨key, state⟩, hmem, rfl⟩ := List.mem_map.mp (collected.mem_iff.mp hk)
      obtain ⟨hget, -, hstate⟩ := InteractionRecord.mem_pendingOf.mp hmem
      cases state with
      | resolved => cases hstate
      | pending entry =>
        obtain ⟨request, hreq, -⟩ := hs.entries _ _ hget
        exact ⟨entry, request, hget, hreq⟩) result hseq
  refine ⟨h1, h2, fun key entry hget hturn => ?_⟩
  -- a request of the run that is left was collected
  have hold := (InteractionRecord.clearKeys_shrinks result).1.entries _ _ hget
  have hmem : key ∈ keys.map (·.1) := collected.mem_iff.mpr
    (List.mem_map_of_mem (InteractionRecord.mem_pendingOf.mpr ⟨hold, hturn, rfl⟩))
  rw [h3 key hmem] at hget
  cases hget

omit [DecidableEq ρ] in
/-- A request that is removed because nobody waits for its response. -/
theorem PendingSet.removeClosed (h : PendingSet base log w) (hs : Sound submit w)
    (hser : InteractionHost.Total) {key : InteractionKey} {entry : PendingEntry} {now : Nat}
    {failure : InteractionFailure} {r : InteractionRecord} {events : List InteractionEventEnvelope}
    (hget : w.record.entries.get? key = some (.pending entry))
    (result : w.record.removeClosed key now = (failure, r, events))
    (hseq : r.snapshot.cursor.seq < u64Max) : PendingSet base (log ++ events) { w with record := r } := by
  have hle := (InteractionRecord.shrinks_removeClosed result).cursor
  obtain ⟨next, es, hpub, hrec, hx⟩ := h.removed hs hser hget (by omega) .originFinished now
  unfold InteractionRecord.removeClosed at result
  simp only at result hpub
  rw [hpub] at result
  cases result
  exact ⟨hrec, hx, h.registered⟩

omit [DecidableEq ρ] in
/-- A request that is removed with its origin or its ticket. -/
theorem PendingSet.clearExact (h : PendingSet base log w) (hs : Sound submit w)
    (hser : InteractionHost.Total) {key : InteractionKey} {generation now : Nat}
    {cause : InteractionRemoval} {sender : Option Nat} {r : InteractionRecord}
    {events : List InteractionEventEnvelope}
    (result : w.record.clearExact key generation cause now = (sender, r, events))
    (hseq : r.snapshot.cursor.seq < u64Max) : PendingSet base (log ++ events) { w with record := r } := by
  have hle := (InteractionRecord.shrinks_clearExact result).cursor
  obtain ⟨-, rfl, rfl⟩ | ⟨entry, -, hget, -, hor⟩ := InteractionRecord.clearExact_cases result
  · rwa [List.append_nil]
  · obtain ⟨next, es, hpub, hrec, hx⟩ := h.removed hs hser hget (by omega) cause now
    unfold InteractionRecord.publishOr at hor
    simp only at hor hpub
    rw [hpub] at hor
    cases hor
    exact ⟨hrec, hx, h.registered⟩

omit [DecidableEq ρ] [InteractionHost] in
/-- What is not in the log: responders, continuations and notices. -/
theorem PendingSet.congr (h : PendingSet base log w) (hr : w'.record = w.record)
    (ht : w'.transactions = w.transactions) (hq : w'.requests = w.requests)
    (hreg : w'.registered = w.registered) : PendingSet base log w' := by
  have ha : w'.Awaits = w.Awaits := by
    funext state
    cases state with
    | pending => rfl
    | resolved => simp only [Awaits, IsOpen, ht]
  refine ⟨?_, ?_, hreg.trans h.registered⟩
  · rw [hr]
    exact h.recorded
  · rw [hr, ha, hq]
    exact h.exact

/-! ## Steps and runs -/

/-- The cursor never goes back. -/
theorem Step.cursor_le (hs : Step submit w l w') :
    w.record.snapshot.cursor.seq ≤ w'.record.snapshot.cursor.seq := by
  cases hs with
  | begin turnId requestId request origin now result =>
    obtain ⟨next, hpub, -, -, rfl⟩ := InteractionRecord.begin_ok result
    obtain ⟨snapshot, journal, rfl, hle⟩ := InteractionRecord.publish_frame hpub
    exact hle
  | beginFailed turnId requestId request origin now result =>
    obtain ⟨-, rfl | rfl⟩ := InteractionRecord.begin_error result <;> exact le_rfl
  | register turnId identity result => exact (InteractionRecord.shrinks_registerRun result).cursor
  | unregister turnId identity =>
    exact (InteractionRecord.shrinks_unregisterRun turnId identity).cursor
  | retire turnId identity => exact (InteractionRecord.shrinks_retireRun turnId identity).cursor
  | clearRun turnId cause keys unresolved collected result =>
    exact (InteractionRecord.clearKeys_shrinks result).1.cursor
  | clearExact key generation cause now unresolved result =>
    exact (InteractionRecord.shrinks_clearExact result).cursor
  | removeClosed i now busy valid found closed result =>
    exact (InteractionRecord.shrinks_removeClosed result).cursor
  | publish g now txn stage result =>
    exact (InteractionRecord.shrinks_publishResolvedExact result).cursor
  | abort g now txn stage result => exact (InteractionRecord.shrinks_abortResolvedExact result).cursor
  | _ => exact le_rfl

theorem PendingSet.step (h : PendingSet base log w) (hs : Sound submit w) (hser : InteractionHost.Total)
    (hstep : CalmStep submit w l w') (hseq : w'.record.snapshot.cursor.seq < u64Max) :
    PendingSet base (log ++ l.events) w' := by
  obtain ⟨hstep, halive, hcalm⟩ := hstep
  -- an operation that publishes nothing
  have hsilent : ∀ {v : Interactions ρ}, PendingSet base log v → PendingSet base (log ++ []) v := by
    intro v hv
    rwa [List.append_nil]
  cases hstep with
  | begin turnId requestId request origin now result => exact h.begin hs result
  | beginFailed turnId requestId request origin now result =>
    obtain ⟨rfl, rfl | rfl⟩ := InteractionRecord.begin_error result
    · exact hsilent h
    · exact hsilent ⟨h.recorded.congr rfl rfl rfl rfl, h.exact, h.registered⟩
  | register turnId identity result =>
    unfold InteractionRecord.registerRun at result
    split at result
    · split at result
      · cases result
        exact hsilent h
      · cases result
    · cases result
      exact hsilent ⟨h.recorded.congr rfl rfl rfl rfl, h.exact, h.registered⟩
  | unregister turnId identity =>
    unfold InteractionRecord.unregisterRun
    split
    · exact hsilent ⟨h.recorded.congr rfl rfl rfl rfl, h.exact, h.registered⟩
    · exact hsilent h
  | retire turnId identity =>
    refine hsilent (h.retire hs identity fun hretired => hcalm turnId ?_)
    rw [hretired]
  | clearRun turnId cause keys unresolved collected result =>
    obtain ⟨h1, h2, -⟩ := h.clearKeys hs hser collected result hseq
    exact ⟨h1, h2, h.registered⟩
  | clearExact key generation cause now unresolved result =>
    exact (h.clearExact hs hser result hseq).congr rfl rfl rfl rfl
  | close => exact absurd rfl halive
  | discard closed unused => exact absurd rfl halive
  | notify g e queued => exact hsilent (h.congr rfl rfl rfl rfl)
  | dropTicket g => exact hsilent (h.congr rfl rfl rfl rfl)
  | poll g ready => exact hsilent (h.congr rfl rfl rfl rfl)
  | first i idle => exact hsilent (h.congr rfl rfl rfl rfl)
  | invalid i busy refused => exact hsilent (h.congr rfl rfl rfl rfl)
  | second i busy valid found => exact hsilent (h.congr rfl rfl rfl rfl)
  | removeClosed i now busy valid found closed result =>
    exact (h.removeClosed hs hser (InteractionRecord.find_open found) result hseq).congr rfl rfl rfl rfl
  | lead i busy valid found alive => exact hsilent (h.lead hs (InteractionRecord.find_open found))
  | stage g txn stage alive =>
    exact hsilent ((h.advance txn (by rw [stage]; rfl)).congr rfl rfl rfl rfl)
  | gone g txn stage closed =>
    refine hsilent (h.advance txn ?_)
    rcases stage with hstage | hstage <;> rw [hstage] <;> rfl
  | unprojected g error txn stage typed => exact hsilent (h.advance txn (by rw [stage]; rfl))
  | check g txn stage alive => exact hsilent (h.advance txn (by rw [stage]; rfl))
  | publish g now txn stage result => exact h.publish hs result
  | unpublished g now error txn stage result => exact hsilent (h.advance txn (by rw [stage]; rfl))
  | acknowledge g txn stage =>
    exact hsilent ((h.advance txn (by rw [stage]; rfl)).congr rfl rfl rfl rfl)
  | complete g txn stage => exact hsilent (h.advance txn (by rw [stage]; rfl))
  | @dropLeader t next i g leading txn stage answer =>
    have hdropped : PendingSet base log
        (w.advance g t (.aborting .publicationFailed abandoned)) := by
      refine h.advance txn ?_
      rcases ResponseStage.droppable_iff.mp stage with hstage | hstage <;> rw [hstage] <;> rfl
    exact hsilent (hdropped.congr rfl rfl rfl rfl)
  | dropDelegated g txn stage delegated =>
    refine hsilent (h.advance txn ?_)
    rcases ResponseStage.droppable_iff.mp stage with hstage | hstage <;> rw [hstage] <;> rfl
  | abort g now txn stage result => exact h.abort hs hser txn stage result hseq
  | abortMissing g txn stage closed =>
    rw [h.registered] at closed
    cases closed
  | inform g txn stage =>
    exact hsilent ((h.advance txn (by rw [stage]; rfl)).congr rfl rfl rfl rfl)
  | giveUp g txn stage => exact hsilent (h.advance txn (by rw [stage]; rfl))
  | @delegate t i g leading core txn stage typed =>
    refine hsilent ⟨h.recorded, ?_, h.registered⟩
    refine h.exact.awaits_congr fun key state hget => ?_
    cases state with
    | pending entry => rfl
    | resolved digest generation typed' =>
      unfold Awaits IsOpen
      by_cases hg : generation = g
      · subst hg
        simp [txn]
      · simp [hg]
  | release i g following core => exact hsilent (h.congr rfl rfl rfl rfl)
  | answer i g waits txn stage => exact hsilent (h.congr rfl rfl rfl rfl)
  | leave i g following => exact hsilent (h.congr rfl rfl rfl rfl)

/-- The events of a run. -/
def published (es : List Label) : List InteractionEventEnvelope := es.flatMap Label.events

theorem cursor_run {es : List Label} (hrun : Lts.Run (CalmStep submit) w es w') :
    w.record.snapshot.cursor.seq ≤ w'.record.snapshot.cursor.seq := by
  induction hrun with
  | nil => exact le_rfl
  | cons hstep _ ih => exact hstep.step.cursor_le.trans ih

/-- A run that retires nothing. -/
theorem calm_run {es : List Label} (hrun : Lts.Run (Step submit) w es w')
    (hes : ∀ l ∈ es, l ≠ .close ∧ ∀ turnId, l ≠ .retire turnId true) :
    Lts.Run (CalmStep submit) w es w' := by
  induction hrun with
  | nil => exact .nil _
  | cons hstep _ ih =>
    obtain ⟨halive, hcalm⟩ := hes _ List.mem_cons_self
    exact .cons ⟨hstep, halive, fun turnId hl => absurd hl (hcalm turnId)⟩
      (ih fun l hl => hes l (List.mem_cons_of_mem _ hl))

theorem PendingSet.run {es : List Label} (h : PendingSet base log w) (hs : Sound submit w)
    (hser : InteractionHost.Total) (hrun : Lts.Run (CalmStep submit) w es w')
    (hseq : w'.record.snapshot.cursor.seq < u64Max) : PendingSet base (log ++ published es) w' := by
  induction hrun generalizing log with
  | nil =>
    unfold published
    rwa [List.flatMap_nil, List.append_nil]
  | @cons w v w' l es hstep hrest ih =>
    have hle := cursor_run hrest
    have := ih (h.step hs hser hstep (by omega)) (hs.step hstep.step) hseq
    rwa [List.append_assoc] at this

omit [DecidableEq ρ] [InteractionHost] in
/-- A session that starts has published nothing, and nothing is pending. -/
theorem pendingSet_start {threadId streamId : String} {limits : EventJournalLimits}
    {record : InteractionRecord} (hnew : InteractionRecord.new threadId streamId true limits = .ok record) :
    PendingSet record.snapshot [] (start record : Interactions ρ) := by
  obtain ⟨hrec, hpending⟩ := InteractionRecord.recorded_new hnew
  refine ⟨hrec, fun p => ?_, rfl⟩
  constructor
  · intro hp
    rw [show (start record : Interactions ρ).record.snapshot.pending = [] from hpending] at hp
    cases hp
  · rintro ⟨state, hget, -⟩
    rw [show (start record : Interactions ρ).record.entries = .empty from new_entries hnew] at hget
    cases hget

/-! ## Finished runs -/

/-- No request of a run waits. -/
def Unasked (w : Interactions ρ) (turnId : String) : Prop :=
  ∀ key entry, w.record.entries.get? key = some (.pending entry) → key.1 ≠ turnId

/-- A request that waits was waiting before, or has just been asked. -/
theorem Step.pending_cases (hs : Step submit w l w') {key : InteractionKey} {entry : PendingEntry}
    (hget : w'.record.entries.get? key = some (.pending entry)) :
    w.record.entries.get? key = some (.pending entry) ∨ ∃ events, l = .begin key.1 events := by
  cases hs with
  | begin turnId requestId request origin now result =>
    obtain ⟨next, hpub, -, -, rfl⟩ := InteractionRecord.begin_ok result
    obtain ⟨snapshot, journal, rfl, -⟩ := InteractionRecord.publish_frame hpub
    rcases KeyMap.get?_insert.mp hget with ⟨rfl, -⟩ | ⟨hget, -⟩
    · exact .inr ⟨_, rfl⟩
    · exact .inl hget
  | beginFailed turnId requestId request origin now result =>
    obtain ⟨-, rfl | rfl⟩ := InteractionRecord.begin_error result <;> exact .inl hget
  | register turnId identity result =>
    exact .inl ((InteractionRecord.shrinks_registerRun result).entries _ _ hget)
  | unregister turnId identity =>
    exact .inl ((InteractionRecord.shrinks_unregisterRun turnId identity).entries _ _ hget)
  | retire turnId identity =>
    exact .inl ((InteractionRecord.shrinks_retireRun turnId identity).entries _ _ hget)
  | clearRun turnId cause keys unresolved collected result =>
    exact .inl ((InteractionRecord.clearKeys_shrinks result).1.entries _ _ hget)
  | clearExact key generation cause now unresolved result =>
    exact .inl ((InteractionRecord.shrinks_clearExact result).entries _ _ hget)
  | removeClosed i now busy valid found closed result =>
    exact .inl ((InteractionRecord.shrinks_removeClosed result).entries _ _ hget)
  | lead i busy valid found alive =>
    rcases KeyMap.get?_insert.mp hget with ⟨-, hk⟩ | ⟨hget, -⟩
    · cases hk
    · exact .inl hget
  | publish g now txn stage result =>
    exact .inl ((InteractionRecord.shrinks_publishResolvedExact result).entries _ _ hget)
  | abort g now txn stage result =>
    exact .inl ((InteractionRecord.shrinks_abortResolvedExact result).entries _ _ hget)
  | discard closed unused => cases hget
  | _ => exact .inl hget

/-- A run that asks nothing has no request that waits. -/
theorem unasked_run {es : List Label} {turnId : String} (h : w.Unasked turnId)
    (hrun : Lts.Run (CalmStep submit) w es w') (hes : ∀ events, .begin turnId events ∉ es) :
    w'.Unasked turnId := by
  induction hrun with
  | nil => exact h
  | cons hstep _ ih =>
    refine ih (fun key entry hget hturn => ?_) fun events hm => hes events (List.mem_cons_of_mem _ hm)
    obtain hget | ⟨events, rfl⟩ := hstep.step.pending_cases hget
    · exact h key entry hget hturn
    · exact hes events (by rw [hturn]; exact List.mem_cons_self)

/-- A run that is finished or retired has no request that waits. -/
theorem PendingSet.unasked (h : PendingSet base log w) (hs : Sound submit w)
    (hser : InteractionHost.Total) (hstep : CalmStep submit w l w')
    (hseq : w'.record.snapshot.cursor.seq < u64Max) {turnId : String}
    (hl : (∃ events, l = .clear turnId events) ∨ l = .retire turnId true) : w'.Unasked turnId := by
  obtain ⟨hstep, -, -⟩ := hstep
  rcases hl with ⟨events, rfl⟩ | rfl
  · cases hstep with
    | clearRun turnId cause keys unresolved collected result =>
      exact (h.clearKeys hs hser collected result hseq).2.2
  · generalize hlabel : Label.retire turnId true = label at hstep
    cases hstep with
    | retire turnId' identity =>
      injection hlabel with hturn hretired
      subst hturn
      exact fun key entry hget => InteractionRecord.retireRun_entries hretired.symm hget
    | _ => cases hlabel

omit [DecidableEq ρ] in
/-- A quiet run that has no request that waits has none that is pending. -/
theorem PendingSet.finished (h : PendingSet base log w) (hs : Sound submit w) {turnId : String}
    (hun : w.Unasked turnId) (hquiet : w.Quiet turnId) :
    ∀ p ∈ w.record.snapshot.pending, p.turnId ≠ turnId := by
  intro p hp hturn
  obtain ⟨state, hget, ha, -⟩ := (h.exact p).mp hp
  cases state with
  | pending entry => exact hun _ _ hget hturn
  | resolved digest generation typed =>
    obtain ⟨t, ht, hopen⟩ := ha
    obtain ⟨q, -, t', ht', hkey, -⟩ := hs.entries _ _ hget
    rw [ht] at ht'
    cases ht'
    rw [hquiet _ t ht (by rw [hkey]; exact hturn)] at hopen
    cases hopen

omit [DecidableEq ρ] [InteractionHost] in
/-- The retained events lead from the snapshot at a position to the current one. -/
theorem PendingSet.replayed (h : PendingSet base log w) {n : Nat}
    (hfloor : w.record.journal.replayFloor.seq ≤ n) (hn : n ≤ w.record.snapshot.cursor.seq) :
    ∃ s, base.Reduces (log.take n) s ∧ s.cursor.seq = n ∧
      s.Reduces ((w.record.journal.entries.filter fun e => decide (n < Journal.seq e)).map (·.envelope))
        w.record.snapshot := by
  rw [h.recorded.window.retained_eq h.recorded.events hfloor]
  have hall := h.recorded.reduces
  have hlog := h.recorded.seq
  have hbase := hall.cursor
  rw [← List.take_append_drop n log] at hall
  obtain ⟨s, h1, h2⟩ := Lts.Run.split hall
  refine ⟨s, h1, ?_, h2⟩
  rw [InteractionSnapshot.Reduces.cursor h1, List.length_take]
  omega

end Interactions

open Interactions

/-! ## The published pending set is the true one -/

section
variable {ρ : Type} [DecidableEq ρ] [External] [InteractionHost]

theorem published_pending_set_exact {submit : ρ → ResponseSubmission} {threadId streamId : String}
    {limits : EventJournalLimits} {record : InteractionRecord} (hser : InteractionHost.Total)
    (hnew : InteractionRecord.new threadId streamId true limits = .ok record) {es : List Label}
    {w : Interactions ρ} (hrun : Lts.Run (CalmStep submit) (start record) es w)
    (hseq : w.record.snapshot.cursor.seq < u64Max) :
    -- one for each request that waits, or whose response is not published or aborted yet
    (w.record.snapshot.keys.Nodup ∧
      ∀ p, p ∈ w.record.snapshot.pending ↔ w.record.Live w.Awaits w.requests p) ∧
    -- a request is removed once for each time it is asked
    (∀ es₁ es₂ es₃ e e' requestId turnId cause cause',
      published es = es₁ ++ e :: (es₂ ++ e' :: es₃) → e.payload = .removed requestId turnId cause →
      e'.payload = .removed requestId turnId cause' →
      ∃ f ∈ es₂, ∃ p, f.payload = .requested p ∧ p.key = (turnId, requestId)) ∧
    -- nothing is left of a run that is over
    (∀ es₁ l es₂ turnId, es = es₁ ++ l :: es₂ →
      ((∃ events, l = .clear turnId events) ∨ l = .retire turnId true) →
      (∀ events, .begin turnId events ∉ es₂) → w.Quiet turnId →
      ∀ p ∈ w.record.snapshot.pending, p.turnId ≠ turnId) ∧
    -- a replay of what is retained
    ∀ n, w.record.journal.replayFloor.seq ≤ n → n ≤ w.record.snapshot.cursor.seq →
      ∃ s, record.snapshot.Reduces ((published es).take n) s ∧ s.cursor.seq = n ∧
        s.Reduces ((w.record.journal.entries.filter fun e => decide (n < Journal.seq e)).map
          (·.envelope)) w.record.snapshot := by
  have hstart : Sound submit (start record : Interactions ρ) := sound_start (new_entries hnew)
  have hset := (pendingSet_start hnew).run hstart hser hrun hseq
  rw [List.nil_append] at hset
  refine ⟨⟨InteractionSnapshot.nodup_keys hset.recorded.valid, hset.exact⟩, ?_, ?_,
    fun n hfloor hn => hset.replayed hfloor hn⟩
  · intro es₁ es₂ es₃ e e' requestId turnId cause cause' hes he he'
    have hreduces := hset.recorded.reduces
    rw [hes] at hreduces
    have hvalid : record.snapshot.validate = .ok () := (InteractionRecord.recorded_new hnew).1.valid
    exact hreduces.requested_between hvalid he he'
  · rintro es₁ l es₂ turnId rfl hl hbegin hquiet
    obtain ⟨u, h1, h2⟩ := Lts.Run.split hrun
    cases h2 with
    | @cons _ v _ _ _ hstep h2 =>
      have hu := hstart.run (h1.mono CalmStep.step)
      have hv := cursor_run h2
      have hle := hstep.step.cursor_le
      have hset₁ := (pendingSet_start hnew).run hstart hser h1 (by omega)
      have hun := hset₁.unasked hu hser hstep (by omega) hl
      exact hset.finished (hstart.run (hrun.mono CalmStep.step)) (unasked_run hun h2 hbegin) hquiet

end

/-! ## Samples -/

namespace Sample

theorem tags_total : @InteractionHost.Total tags := fun _ => ⟨200, rfl⟩

/-- The run is retired while its response is with the continuation. -/
def retired : Interactions Bool := { staged with record := (staged.record.retireRun "r" 1).2 }

theorem retired_run : Lts.Run DeskStep (start desk)
    ([.locked [], .begin "r" asking, .silent, .locked [], .silent] ++ [.retire "r" true]) retired := by
  let := measure
  let := tags
  exact staged_run.snoc (.retire "r" 1)

/-- The request that the sample asks. -/
def question : PendingInteraction := ⟨"q", "r", approval⟩

end Sample

/-- The request of the sample is pending while its response is with the continuation. -/
theorem published_pending_set_sample : ∃ es w,
    Lts.Run (@CalmStep Bool Sample.measure Sample.tags _ Sample.approve) (start Sample.desk) es w ∧
      Sample.question ∈ w.record.snapshot.pending := by
  let := Sample.measure
  let := Sample.tags
  have hrun : Lts.Run (CalmStep Sample.approve) (start Sample.desk)
      [.locked [], .begin "r" Sample.asking, .silent, .locked [], .silent] Sample.staged :=
    calm_run Sample.staged_run (by simp)
  have hlt : Sample.staged.record.snapshot.cursor.seq < u64Max := by decide +kernel
  obtain ⟨⟨-, hexact⟩, -⟩ :=
    published_pending_set_exact Sample.tags_total Sample.desk_new hrun hlt
  refine ⟨_, _, hrun, (hexact _).mpr ⟨.resolved 7 1 true, ?_, ⟨_, rfl, rfl⟩, rfl⟩⟩
  decide +kernel

/-- A run that is retired before its response is published leaves its request in the pending set. -/
theorem retired_run_leaks : ¬ ∀ es w, Lts.Run Sample.DeskStep (start Sample.desk) es w →
    (∀ l ∈ es, l ≠ .close) → w.record.snapshot.cursor.seq < u64Max →
      ∀ p, p ∈ w.record.snapshot.pending ↔ w.record.Live w.Awaits w.requests p := by
  intro h
  have hlt : Sample.retired.record.snapshot.cursor.seq < u64Max := by decide +kernel
  have hpending : Sample.question ∈ Sample.retired.record.snapshot.pending := by decide +kernel
  obtain ⟨state, hget, -⟩ := (h _ _ Sample.retired_run (by simp) hlt Sample.question).mp hpending
  have hnone : Sample.retired.record.entries.get? ("r", "q") = none := by decide +kernel
  rw [show Sample.question.key = ("r", "q") from rfl, hnone] at hget
  cases hget

end Whale
