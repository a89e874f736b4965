import Whale.Core.Proof.Journaled

/-!
# Admission of runs

`begin` of a record and `check_run_admission` of a live session apply one rule: a repeated acceptance changes
nothing, and a new one needs room for the turn and for the history with its input.
-/

namespace Whale

open Check

section
variable [External]

/-! ## Acceptance of a record -/

/-- A repeated acceptance. -/
theorem begin_repeated {r : SessionRecord} {params : StartTurnParams} {snapshot : RunSnapshot}
    {options : Value} {old : StoredRun} (h : r.runs.get? params.turnId = some old) :
    r.begin params snapshot options =
      if old.params == params && old.effectiveOptions == options then .ok (false, r)
      else .error .conflict := by
  rw [SessionRecord.begin, h]

/-- The limits of a record have room for a run with some input. -/
structure Admits (limits : SessionLimits) (r : SessionRecord) (input : List CanonicalItem) : Prop where
  turns : ∀ max, limits.maxAcceptedTurns = some max → r.runs.entries.length < max
  history : ∀ max, limits.maxHistoryBytes = some max →
    ∃ bytes, historyBytes r.history input = .ok bytes ∧ bytes ≤ max

theorem checkAdmission_ok {r : SessionRecord} {input : List CanonicalItem}
    (h : r.checkAdmission input = .ok ()) {limits : SessionLimits}
    (hlimits : r.sessionLimits "Invalid session limits: " = .ok (some limits)) : Admits limits r input := by
  rw [SessionRecord.checkAdmission, hlimits, ok_bind] at h
  obtain ⟨hturns, h⟩ := refuse_bind_ok h
  exact ⟨fun max hmax => by simpa [hmax] using hturns, checkSize_ok_iff.1 h⟩

/-- A new acceptance is within the limits. -/
theorem begin_accepted {r r' : SessionRecord} {params : StartTurnParams} {snapshot : RunSnapshot}
    {options : Value} (h : r.begin params snapshot options = .ok (true, r')) {limits : SessionLimits}
    (hlimits : r.sessionLimits "Invalid session limits: " = .ok (some limits)) :
    Admits limits r params.inputItems := by
  cases hrun : r.runs.get? params.turnId with
  | some old =>
    rw [begin_repeated hrun] at h
    split at h <;> cases h
  | none =>
    rw [SessionRecord.begin, hrun] at h
    obtain ⟨-, h⟩ := refuse_bind_ok h
    obtain ⟨-, h⟩ := refuse_bind_ok h
    obtain ⟨-, h⟩ := refuse_bind_ok h
    obtain ⟨_, hadmission, -⟩ := bind_ok h
    exact checkAdmission_ok hadmission hlimits

omit [External] in
/-- A terminal run is finalized to what it is. -/
theorem finalize_repeated {r : SessionRecord} {turn : String} {run : StoredRun}
    (h : r.runs.get? turn = some run) (hterminal : run.snapshot.status.isTerminal = true)
    (candidate : RunSnapshot) : r.finalize turn candidate = .ok (⟨run.snapshot, r.history⟩, r) := by
  rw [SessionRecord.finalize, h, orElse_some, ok_bind, if_pos hterminal]

/-! ## The number of accepted runs -/

omit [External] in
theorem mem_runs_keys {m : OrdMap String StoredRun} {turn : String} :
    turn ∈ m.keys ↔ (m.get? turn).isSome := by
  rw [OrdMap.keys, List.mem_map, Option.isSome_iff_exists]
  constructor
  · rintro ⟨⟨_, run⟩, hmem, rfl⟩
    exact ⟨run, OrdMap.get?_eq_some_iff.2 hmem⟩
  · rintro ⟨run, hrun⟩
    exact ⟨⟨turn, run⟩, OrdMap.get?_eq_some_iff.1 hrun, rfl⟩

omit [External] in
/-- The runs that tile the history are those that are stored. -/
theorem Ledger.Tiled.count {l : Ledger} {order : List String} (h : l.Tiled order) :
    l.runs.entries.length = order.length := by
  have hkeys : l.runs.keys.Perm order := by
    refine (List.perm_ext_iff_of_nodup l.runs.nodup_keys h.distinct).2 fun turn => ?_
    rw [h.stored turn, mem_runs_keys]
  rw [← hkeys.length_eq, OrdMap.keys, List.length_map]

/-- A write that leaves the limits as they are, or a tombstone. -/
def LimitsKept (r : SessionRecord) (c : Committed) (r' : SessionRecord) : Prop :=
  Write r c r' ∧ (r'.forgotten = true ∨ r'.limitsValue = r.limitsValue)

omit [External] in
theorem sessionLimits_congr [External] {r r' : SessionRecord} (h : r'.limitsValue = r.limitsValue)
    (label : String) : r'.sessionLimits label = r.sessionLimits label := by
  rw [SessionRecord.sessionLimits, SessionRecord.sessionLimits, h]

/-- What holds of a record along a run that keeps its limits. -/
structure Limited (value : Option Value) (max : Nat) (r : SessionRecord) : Prop where
  valid : Valid r
  within : r.runs.entries.length ≤ max
  live : r.forgotten = false → r.limitsValue = value ∧ ∃ order, r.ledger.Tiled order

/-- An accepted turn was admitted. -/
theorem accepted_admitted {r r' : SessionRecord} {c : Committed} (h : Write r c r') {turn : String}
    (haccepted : c.accepted = some turn) {limits : SessionLimits}
    (hlimits : r.sessionLimits "Invalid session limits: " = .ok (some limits)) :
    ∃ input, Admits limits r input := by
  obtain ⟨w, response⟩ := c
  cases w with
  | journal lease inp action =>
    obtain ⟨-, -, response', r₁, next, happly, -, hs⟩ := journal_submit h.submitted
    cases hs
    cases action with
    | begin params snapshot options =>
      obtain ⟨⟨accepted, r₂⟩, hbegin, happly⟩ := bind_ok happly
      cases happly
      cases accepted with
      | true => exact ⟨_, begin_accepted hbegin hlimits⟩
      | false => cases haccepted
    | _ => cases haccepted
  | _ => cases haccepted

theorem Limited.write {r₀ r r' : SessionRecord} {c : Committed} {limits : SessionLimits} {max : Nat}
    (hlimits : r₀.sessionLimits "Invalid session limits: " = .ok (some limits))
    (hmax : limits.maxAcceptedTurns = some max) (h : Limited r₀.limitsValue max r) (hs : LimitsKept r c r') :
    Limited r₀.limitsValue max r' := by
  obtain ⟨hw, hkept⟩ := hs
  have hrep := hw.replaces
  cases hforgotten : r'.forgotten with
  | true =>
    refine ⟨hrep.valid, ?_, fun hlive => by rw [hforgotten] at hlive; cases hlive⟩
    rw [(hrep.valid.tombstone hforgotten).2.2.1]
    exact Nat.zero_le _
  | false =>
    have hbefore : r.forgotten = false := by
      cases hf : r.forgotten with
      | false => rfl
      | true =>
        have hstays := hrep.forgotten hf
        rw [hforgotten] at hstays
        cases hstays
    have hsame : r'.limitsValue = r.limitsValue := hkept.resolve_left (by simp [hforgotten])
    have hkeeps : c.1.keeps = true := by
      by_contra hk
      obtain ⟨-, -, -, now, reason, revision, -, hs⟩ :=
        retire_submit (Bool.eq_false_of_not_eq_true hk) hw.submitted
      obtain ⟨-, rfl, -⟩ := Submission.mk.inj hs
      cases hforgotten
    obtain ⟨hvalue, order, htiled⟩ := h.live hbefore
    obtain ⟨label, hchange, haccepted, -⟩ := Keep.change ⟨hw, hkeeps⟩
    have htiled' := hchange.tiled htiled
    refine ⟨hrep.valid, ?_, fun _ => ⟨hsame.trans hvalue, _, htiled'⟩⟩
    have hcount : r.runs.entries.length = order.length := htiled.count
    have hcount' : r'.runs.entries.length = (order ++ label.accepted.toList).length := htiled'.count
    have hwithin := h.within
    rw [hcount', List.length_append, ← hcount, haccepted]
    cases hturn : c.accepted with
    | none => simpa using hwithin
    | some turn =>
      obtain ⟨input, hadmits⟩ := accepted_admitted hw hturn ((sessionLimits_congr hvalue _).trans hlimits)
      exact hadmits.turns max hmax

theorem Limited.start {r : SessionRecord} (h : Created r) (max : Nat) : Limited r.limitsValue max r := by
  have hledger := h.ledger
  have hruns : r.runs = .empty := congrArg Ledger.runs hledger
  refine ⟨h.valid, ?_, fun _ => ⟨rfl, [], hledger ▸ .init⟩⟩
  rw [hruns]
  exact Nat.zero_le _

/-- Along a run that keeps the limits, there are at most as many runs as may be accepted. -/
theorem runs_within {r₀ r : SessionRecord} {cs : List Committed} {limits : SessionLimits} {max : Nat}
    (h₀ : Created r₀) (h : Lts.Run LimitsKept r₀ cs r)
    (hlimits : r₀.sessionLimits "Invalid session limits: " = .ok (some limits))
    (hmax : limits.maxAcceptedTurns = some max) : r.runs.entries.length ≤ max :=
  (h.invariant (Limited r₀.limitsValue max) (fun _ _ _ hl hs => hl.write hlimits hmax hs)
    (.start h₀ max)).within

/-! ## Admission of a live session -/

/-- The live session has the history, the limits and the number of accepted turns of the record. -/
structure ThreadSession.Mirrors (s : ThreadSession) (r : SessionRecord) : Prop where
  history : s.history = r.history
  limits : r.sessionLimits "Invalid session limits: " = .ok s.limits
  turns : s.acceptedTurns = r.runs.entries.length

/-- `begin` is given what `handle_start_turn` gives it: a run of the record's thread that has not ended. -/
def Acceptable (r : SessionRecord) (params : StartTurnParams) (snapshot : RunSnapshot) : Prop :=
  (r.threadId != some params.threadId || params.turnId.isEmpty || params.maxSteps == 0 ||
    params.timeoutMs == some 0 || snapshot.threadId != params.threadId ||
    snapshot.turnId != params.turnId || snapshot.status.isTerminal || snapshot.result.isSome) = false

/-- The size of the history is refused by both, or by neither. -/
theorem history_agrees (limits : SessionLimits) (history input : List CanonicalItem) :
    (∃ message, ThreadSession.checkHistoryWithInput (some limits) history input =
        .error (.limitExceeded message)) ↔
      ∃ field, SessionRecord.checkSize (historyBytes history input) limits.maxHistoryBytes
        "max_history_bytes" = .error (.limitExceeded field) := by
  unfold ThreadSession.checkHistoryWithInput SessionRecord.checkSize
  rw [Option.bind_some]
  cases limits.maxHistoryBytes with
  | none => simp
  | some max =>
    cases historyBytes history input with
    | error e => simp
    | ok bytes =>
      by_cases hsize : bytes > max
      · simp [hsize]
      · simp [hsize]

/-- Both checks refuse for a limit, or neither does. -/
theorem admission_agrees {s : ThreadSession} {r : SessionRecord} (h : s.Mirrors r)
    {input : List CanonicalItem} :
    (∃ message, s.checkRunAdmission input = .error (.limitExceeded message)) ↔
      ∃ field, r.checkAdmission input = .error (.limitExceeded field) := by
  rw [SessionRecord.checkAdmission, h.limits, ok_bind, ThreadSession.checkRunAdmission, h.history]
  cases hlimits : s.limits with
  | none => simp [ThreadSession.checkHistoryWithInput]
  | some limits =>
    rw [Option.bind_some, h.turns]
    cases hmax : limits.maxAcceptedTurns with
    | none => simpa [hmax] using history_agrees limits r.history input
    | some max =>
      by_cases hcount : r.runs.entries.length ≥ max
      · simp [hmax, hcount]
      · simpa [hmax, hcount] using history_agrees limits r.history input

/-- `begin` of a new turn where nothing is active or unresolved refuses for a limit when its admission
does. -/
theorem begin_refused {r : SessionRecord} {params : StartTurnParams} {snapshot : RunSnapshot}
    {options : Value} (hnew : r.runs.get? params.turnId = none) (hidle : r.active = false)
    (hresolved : r.unresolved = false) (hacceptable : Acceptable r params snapshot) :
    (∃ field, r.begin params snapshot options = .error (.limitExceeded field)) ↔
      ∃ field, r.checkAdmission params.inputItems = .error (.limitExceeded field) := by
  rw [SessionRecord.begin, hnew]
  dsimp only
  rw [hidle, refuse_false, ok_bind, hresolved, refuse_false, ok_bind, hacceptable, refuse_false, ok_bind]
  cases r.checkAdmission params.inputItems with
  | error e => simp
  | ok u =>
    cases repeats (r.history.map (·.id)) (params.inputItems.map (·.id)) <;> simp

/-- **Run admission.** A repeated `begin` with equal parameters and options is `false` and changes nothing,
with different ones it is a conflict; a new one was within the limits, so that along a run that keeps the
limits there are never more runs than may be accepted; a terminal run is finalized to what it is; and for a
live session that mirrors the record, `check_run_admission` refuses an input for a limit exactly if `begin` of a
new turn does, of the record's thread and not ended, where no run is active and no execution unresolved. -/
theorem run_admission :
    (∀ (r : SessionRecord) params snapshot options old, r.runs.get? params.turnId = some old →
      ((old.params == params && old.effectiveOptions == options) = true →
        r.begin params snapshot options = .ok (false, r)) ∧
      ((old.params == params && old.effectiveOptions == options) = false →
        r.begin params snapshot options = .error .conflict)) ∧
    (∀ (r r' : SessionRecord) params snapshot options limits,
      r.begin params snapshot options = .ok (true, r') →
      r.sessionLimits "Invalid session limits: " = .ok (some limits) → Admits limits r params.inputItems) ∧
    (∀ r₀ r cs limits max, Created r₀ → Lts.Run LimitsKept r₀ cs r →
      r₀.sessionLimits "Invalid session limits: " = .ok (some limits) →
      limits.maxAcceptedTurns = some max → r.runs.entries.length ≤ max) ∧
    (∀ (r : SessionRecord) turn run candidate, r.runs.get? turn = some run →
      run.snapshot.status.isTerminal = true →
      r.finalize turn candidate = .ok (⟨run.snapshot, r.history⟩, r)) ∧
    ∀ (s : ThreadSession) (r : SessionRecord) params snapshot options, s.Mirrors r →
      r.runs.get? params.turnId = none → r.active = false → r.unresolved = false →
      Acceptable r params snapshot →
      ((∃ message, s.checkRunAdmission params.inputItems = .error (.limitExceeded message)) ↔
        ∃ field, r.begin params snapshot options = .error (.limitExceeded field)) := by
  refine ⟨fun r params snapshot options old hold => ⟨fun hsame => ?_, fun hsame => ?_⟩,
    fun r r' params snapshot options limits hbegin hlimits => begin_accepted hbegin hlimits,
    fun r₀ r cs limits max h₀ h hlimits hmax => runs_within h₀ h hlimits hmax,
    fun r turn run candidate hrun hterminal => finalize_repeated hrun hterminal candidate,
    fun s r params snapshot options hmirrors hnew hidle hresolved hacceptable => ?_⟩
  · rw [begin_repeated hold, if_pos hsame]
  · rw [begin_repeated hold, if_neg (by simp [hsame])]
  · rw [admission_agrees hmirrors, begin_refused hnew hidle hresolved hacceptable]

end

namespace Sample

/-- A session whose history may not be longer than one byte. -/
def cramped : SessionRecord :=
  @createdRecord external key (.object [("session", .object [("limits",
    .object [("max_history_bytes", .number (.int 1))])])]) "owner" "thread" 7

theorem cramped_created : @Created external cramped :=
  ⟨key, .object [("session", .object [("limits", .object [("max_history_bytes", .number (.int 1))])])],
    "owner", "thread", 7, rfl, rfl⟩

/-- The live session of the record. -/
def crampedSession : ThreadSession :=
  { id := "thread", samplingOptions := { model := "model" }, limits := some { maxHistoryBytes := some 1 } }

theorem crampedSession_mirrors : @ThreadSession.Mirrors external crampedSession cramped :=
  @ThreadSession.Mirrors.mk external _ _ rfl rfl rfl

/-- A turn without input. -/
def silentTurn : StartTurnParams := { threadId := "thread", turnId := "turn", inputItems := [] }

end Sample

/-- A turn without room is refused by both sides. -/
theorem run_admission_sample :
    ∃ field, @SessionRecord.begin Sample.external Sample.cramped Sample.silentTurn
      { Sample.snapshot with turnId := "turn" } (.object []) = .error (.limitExceeded field) :=
  ((@run_admission Sample.external).2.2.2.2 Sample.crampedSession Sample.cramped Sample.silentTurn
    { Sample.snapshot with turnId := "turn" } (.object []) Sample.crampedSession_mirrors rfl rfl rfl rfl).1
    ⟨"max_history_bytes (1) exceeded", rfl⟩

/-- A turn of no steps is refused by the live session for its limits, and by the record as no acceptance. -/
theorem run_admission_unacceptable :
    ∃ (s : ThreadSession) (r : SessionRecord) (params : StartTurnParams) (snapshot : RunSnapshot),
      @Created Sample.external r ∧ @ThreadSession.Mirrors Sample.external s r ∧ r.runs.get? params.turnId = none ∧
      r.active = false ∧ r.unresolved = false ∧
      (∃ message, @ThreadSession.checkRunAdmission Sample.external s params.inputItems =
        .error (.limitExceeded message)) ∧
      @SessionRecord.begin Sample.external r params snapshot (.object []) =
        .error (.invalid "Invalid run acceptance") :=
  ⟨Sample.crampedSession, Sample.cramped, { Sample.silentTurn with maxSteps := 0 }, Sample.snapshot,
    Sample.cramped_created, Sample.crampedSession_mirrors, rfl, rfl, rfl, ⟨"max_history_bytes (1) exceeded", rfl⟩, rfl⟩

end Whale
