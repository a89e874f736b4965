import Whale.Daemon.Initialization
import Whale.Lib.Slots
import Whale.Protocol.Proof.Initialization

/-!
# The bootstrap of a connection is a handshake

`Bootstrap.negotiation`: although the daemon takes what it has besides the protocol out of the requirements, lets the
protocol negotiate the rest and puts it back, it accepts exactly the parameters that one check against all of its
capabilities accepts. `Bootstrap.Inv` is the invariant of the runs: who took the phase of a connection, and what that
says of its requests.
-/

namespace Whale.Bootstrap

open Check

/-! ## The negotiation -/

/-- All that a daemon has. -/
def offered (recovery retention : Bool) : List String :=
  protocolCapabilities ++ (if recovery then [capabilitySessionRecovery] else []) ++ extensions retention

theorem validate_server : server.validate = .ok () := by decide

theorem validate_offered (recovery retention : Bool) :
    validateCapabilities [] (offered recovery retention) = .ok () := by
  cases recovery <;> cases retention <;> decide

section
variable {params : InitializeParams} {recovery retention : Bool}

/-- The requirements that are left to the protocol. -/
def baseline (params : InitializeParams) (recovery retention : Bool) : List String :=
  let required := params.requiredCapabilities.filter fun cap => !(extensions retention).contains cap
  if recovery then required.filter (· != capabilitySessionRecovery) else required

theorem baseline_sublist : (baseline params recovery retention).Sublist params.requiredCapabilities := by
  unfold baseline
  cases recovery
  · exact List.filter_sublist
  · exact List.filter_sublist.trans List.filter_sublist

theorem baseline_subset (h : params.requiredCapabilities ⊆ offered recovery retention) :
    baseline params recovery retention ⊆ protocolCapabilities := by
  intro c hc
  have hoff := h (baseline_sublist.subset hc)
  unfold offered at hoff
  unfold baseline at hc
  cases recovery
  · have hext := (List.mem_filter.mp hc).2
    simp only [Bool.false_eq_true, if_false, List.append_nil, List.mem_append] at hoff
    simp only [Bool.not_eq_true', List.contains_eq_mem, decide_eq_false_iff_not] at hext
    exact hoff.resolve_right hext
  · obtain ⟨hc, hrec⟩ := List.mem_filter.mp hc
    have hext := (List.mem_filter.mp hc).2
    simp only [if_true, List.mem_append, List.mem_singleton] at hoff
    simp only [Bool.not_eq_true', List.contains_eq_mem, decide_eq_false_iff_not] at hext
    simp only [bne_iff_ne] at hrec
    exact (hoff.resolve_right hext).resolve_right hrec

variable [DebugText]

theorem negotiate_eq (hv : params.validate = .ok ()) : negotiate (.ok params) recovery retention =
    (do
      let result ← (InitializeResult.negotiate
        { params with requiredCapabilities := baseline params recovery retention } server).mapError .incompatible
      let result := { result with
        capabilities := (if recovery then result.capabilities ++ [capabilitySessionRecovery] else result.capabilities) ++
          extensions retention }
      (result.validateFor params).mapError .incompatible
      .ok result) := by
  unfold negotiate
  simp only [Except.mapError, hv, ok_bind]
  rfl

theorem negotiate_ok_iff {r : InitializeResult} : negotiate (.ok params) recovery retention = .ok r ↔
    params.validate = .ok () ∧ protocolVersion ∈ params.protocolVersions ∧
      params.requiredCapabilities ⊆ offered recovery retention ∧
        r = ⟨server, protocolVersion, offered recovery retention⟩ := by
  have hcaps : (if recovery then protocolCapabilities ++ [capabilitySessionRecovery] else protocolCapabilities) ++
      extensions retention = offered recovery retention := by
    cases recovery <;> rfl
  constructor
  · intro h
    have hv : params.validate = .ok () := by
      obtain ⟨p, hp, h⟩ := bind_ok h
      obtain rfl := Except.ok.inj hp
      obtain ⟨_, hv, -⟩ := bind_ok h
      exact mapError_ok_iff.mp hv
    rw [negotiate_eq hv] at h
    obtain ⟨result, hresult, h⟩ := bind_ok h
    obtain ⟨-, -, hoffered, -, rfl⟩ := InitializeResult.negotiate_ok_iff.mp (mapError_ok_iff.mp hresult)
    obtain ⟨_, hfor, h⟩ := bind_ok h
    obtain ⟨-, -, -, -, hreq⟩ := InitializeResult.validateFor_ok_iff.mp (mapError_ok_iff.mp hfor)
    simp only [hcaps] at hreq h
    exact ⟨hv, hoffered, hreq, (Except.ok.inj h).symm⟩
  · rintro ⟨hv, hoffered, hreq, rfl⟩
    have hnegotiated := InitializeResult.negotiate_ok_iff.mpr
      ⟨InitializeParams.validate_sublist hv baseline_sublist, validate_server, hoffered, baseline_subset hreq, rfl⟩
    have hfor : InitializeResult.validateFor ⟨server, protocolVersion, offered recovery retention⟩ params = .ok () :=
      InitializeResult.validateFor_ok_iff.mpr ⟨hv, validate_server, hoffered, validate_offered .., hreq⟩
    rw [negotiate_eq hv, mapError_ok_iff.mpr hnegotiated, ok_bind]
    simp only [hcaps, hfor, Except.mapError, ok_bind]

/-- What an answer says, and what its client makes of it. -/
theorem validateFor_of_negotiate {r : InitializeResult} (h : negotiate (.ok params) recovery retention = .ok r) :
    r.validateFor params = .ok () := by
  obtain ⟨hv, hoffered, hreq, rfl⟩ := negotiate_ok_iff.mp h
  exact InitializeResult.validateFor_ok_iff.mpr ⟨hv, validate_server, hoffered, validate_offered .., hreq⟩

theorem negotiate_error {e : JSONRPCError} (h : negotiate (.ok params) recovery retention = .error e) :
    if params.validate = .ok () then e.code = -32011 else e.code = -32602 := by
  split
  · next hv =>
    rw [negotiate_eq hv] at h
    cases hn : InitializeResult.negotiate
        { params with requiredCapabilities := baseline params recovery retention } server with
    | error m =>
      rw [hn] at h
      cases h
      rfl
    | ok result =>
      rw [hn] at h
      simp only [Except.mapError, ok_bind] at h
      split at h
      · cases h
        rfl
      · cases h
  · next hv =>
    unfold negotiate at h
    cases hp : params.validate with
    | ok u => exact absurd hp hv
    | error m =>
      simp only [Except.mapError, ok_bind, hp, error_bind] at h
      cases h
      rfl

/-- The daemon accepts the parameters that one check against all of its capabilities accepts, with the one version of
the protocol and all of its capabilities; its client accepts that answer, and what it refuses tells bad parameters
from ones that do not fit. A client of the SDK is never refused. -/
theorem negotiation (params : InitializeParams) (recovery retention : Bool) :
    (∀ r, negotiate (.ok params) recovery retention = .ok r ↔
      params.validate = .ok () ∧ protocolVersion ∈ params.protocolVersions ∧
        params.requiredCapabilities ⊆ offered recovery retention ∧
          r = ⟨server, protocolVersion, offered recovery retention⟩) ∧
    (∀ r, negotiate (.ok params) recovery retention = .ok r → r.validateFor params = .ok () ∧ r.capabilities.Nodup) ∧
    (∀ e, negotiate (.ok params) recovery retention = .error e →
      if params.validate = .ok () then e.code = -32011 else e.code = -32602) ∧
    (∀ name version, PeerInfo.validate ⟨name, version⟩ = .ok () →
      negotiate (.ok (.sdk name version)) recovery retention =
        .ok ⟨server, protocolVersion, offered recovery retention⟩) := by
  refine ⟨fun r => negotiate_ok_iff, fun r h => ⟨validateFor_of_negotiate h, ?_⟩, fun e => negotiate_error, ?_⟩
  · obtain ⟨-, -, -, rfl⟩ := negotiate_ok_iff.mp h
    exact (validateCapabilities_ok_iff.mp (validate_offered recovery retention)).2.1
  · intro name version hpeer
    have hversions : supportedProtocolVersions ≠ [] ∧ (∀ v ∈ supportedProtocolVersions, v ≠ 0) ∧
        supportedProtocolVersions.Nodup := by decide
    have hcaps : validateCapabilities [] protocolCapabilities = .ok () := by decide
    refine negotiate_ok_iff.mpr ⟨InitializeParams.validate_ok_iff.mpr ?_, List.mem_singleton_self _, ?_, rfl⟩
    · exact ⟨hpeer, hversions.1, hversions.2.1, hversions.2.2, hcaps⟩
    · intro c hc
      exact List.mem_append_left _ (List.mem_append_left _ hc)

end

/-! ## What a step can do -/

namespace Phase

/-- No phase is entered twice. -/
def rank : Phase → Nat
  | new => 0
  | initializing => 1
  | ready | failed => 2
  | closed => 3

/-- A phase is followed by another one in some steps. -/
def Before (a b : Phase) : Prop := a = b ∨ a.rank < b.rank

theorem Before.refl (a : Phase) : a.Before a := .inl rfl

theorem Before.trans {a b c : Phase} (h : a.Before b) (h' : b.Before c) : a.Before c := by
  obtain rfl | h := h
  · exact h'
  · obtain rfl | h' := h'
    · exact .inr h
    · exact .inr (h.trans h')

theorem Before.closed {b : Phase} (h : Phase.closed.Before b) : b = .closed := by
  cases b <;> simp_all [Before, rank]

theorem Before.failed {b : Phase} (h : Phase.failed.Before b) : b = .failed ∨ b = .closed := by
  cases b <;> simp_all [Before, rank]

theorem Before.new {a : Phase} (h : a.Before .new) : a = .new := by
  cases a <;> simp_all [Before, rank]

/-- The phase after `delivered`, or after the drop. -/
def settle (p next : Phase) : Phase := if p = .initializing then next else p

/-- The stage of the task that took the phase. -/
def fits : Phase → Stage → Bool
  | initializing, .accepted _ | initializing, .sent _ => true
  | ready, .delivered _ => true
  | failed, .abandoned .. => true
  | _, _ => false

theorem taken_of_fits {p : Phase} {stage : Stage} (h : p.fits stage = true) : stage.taken.isSome = true := by
  cases p <;> cases stage <;> simp_all [fits, Stage.taken]

end Phase

/-- The result of a negotiation, taken or not. -/
def Stage.result : Stage → Option InitializeResult
  | .negotiated r => some r
  | stage => stage.taken

theorem Stage.result_of_taken {stage : Stage} {r : InitializeResult} (h : stage.taken = some r) :
    stage.result = some r := by
  cases stage <;> simp_all [Stage.result, Stage.taken]

section
variable {s : Bootstrap}

theorem taken_of_answer {stage : Stage} {r : InitializeResult} (h : stage.answer = some (.ok r)) :
    stage.taken = some r := by
  cases stage <;> simp_all [Stage.answer, Stage.taken]
  split at h <;> simp_all

@[simp] theorem put_phase (i : Nat) (t : Task) (stage : Stage) : (s.put i t stage).phase = s.phase := rfl

theorem settlePhase_tasks (owner : String) (p : Phase) : (s.settlePhase owner p).tasks = s.tasks := by
  unfold settlePhase
  split <;> rfl

theorem settlePhase_clients (owner : String) (p : Phase) : (s.settlePhase owner p).clients = s.clients := by
  unfold settlePhase
  split <;> rfl

theorem settlePhase_self (owner : String) (p : Phase) :
    (s.settlePhase owner p).phase owner = (s.phase owner).settle p := by
  unfold settlePhase Phase.settle
  split <;> simp [setPhase]

theorem settlePhase_ne {owner o : String} (p : Phase) (h : o ≠ owner) :
    (s.settlePhase owner p).phase o = s.phase o := by
  unfold settlePhase
  split
  · exact Function.update_of_ne h ..
  · rfl

theorem gate_ok {p : Phase} (h : gate p = some (.ok ())) : p = .ready := by
  cases p <;> simp_all [gate]

end

section
variable [DebugText] (recovery retention : Bool)

/-- What the step of a task does to it, and to the phase of its connection. -/
inductive Moves : Line → Phase → Stage → Stage → Phase → Prop
  | begin {params : Except String InitializeParams} {r : InitializeResult}
      (negotiated : negotiate params recovery retention = .ok r) :
      Moves (.initialization params) .new .received (.negotiated r) .new
  | incompatible {params : Except String InitializeParams} {e : JSONRPCError}
      (negotiated : negotiate params recovery retention = .error e) :
      Moves (.initialization params) .new .received (.refused e) .new
  | again {params : Except String InitializeParams} {p : Phase} (phase : p ≠ .new) :
      Moves (.initialization params) p .received (.refused .alreadyInitialized) p
  | accept {line : Line} {r : InitializeResult} : Moves line .new (.negotiated r) (.accepted r) .initializing
  | overtaken {line : Line} {p : Phase} {r : InitializeResult} (phase : p ≠ .new) :
      Moves line p (.negotiated r) (.refused .alreadyInitialized) p
  | send {line : Line} {p : Phase} {r : InitializeResult} : Moves line p (.accepted r) (.sent r) p
  | deliver {line : Line} {p : Phase} {r : InitializeResult} :
      Moves line p (.sent r) (.delivered r) (p.settle .ready)
  | abandon {line : Line} {p : Phase} {stage : Stage} {r : InitializeResult} (taken : stage.taken = some r)
      (held : stage.holdsAck = true) : Moves line p stage (.abandoned r stage.written) (p.settle .failed)
  | pass : Moves .request .ready .received .admitted .ready
  | refuse {p : Phase} {e : JSONRPCError} (refused : gate p = some (.error e)) :
      Moves .request p .received (.refused e) p

/-- What a step does. -/
inductive Effect (sdk : String → Prop) (s : Bootstrap) : Option String → Bootstrap → Prop
  | joined {s' : Bootstrap} {owner : String} (own : sdk owner) (idle : s.clients owner = .idle)
      (tasks : s'.tasks = s.tasks ++ [⟨owner, .initialization (.ok sdkParams), .received⟩])
      (clients : s'.clients = Function.update s.clients owner (.waiting s.tasks.length))
      (phase : s'.phase = s.phase) : Effect sdk s none s'
  | spawned {s' : Bootstrap} {owner : String} {line : Line}
      (origin : sdk owner → line = .request ∧ ∃ r, s.clients owner = .ready r)
      (tasks : s'.tasks = s.tasks ++ [⟨owner, line, .received⟩]) (clients : s'.clients = s.clients)
      (phase : s'.phase = s.phase) : Effect sdk s none s'
  | moved {s' : Bootstrap} {l : Option String} (i : Nat) (t : Task) (stage : Stage) (task : s.tasks[i]? = some t)
      (moves : Moves recovery retention t.line (s.phase t.owner) t.stage stage (s'.phase t.owner))
      (tasks : s'.tasks = s.tasks.set i { t with stage }) (clients : s'.clients = s.clients)
      (others : ∀ o, o ≠ t.owner → s'.phase o = s.phase o)
      (label : ∀ o, l = some o → s.phase o = .ready) : Effect sdk s l s'
  | client {s' : Bootstrap} {owner : String} {c : Handshake} (tasks : s'.tasks = s.tasks)
      (clients : s'.clients = Function.update s.clients owner c) (phase : s'.phase = s.phase)
      (settled : c = .failed ∨ ∃ i t r, s.clients owner = .waiting i ∧ s.tasks[i]? = some t ∧
        t.stage.taken = some r ∧ c = .ready r) : Effect sdk s none s'
  | closed {s' : Bootstrap} (owner : String) (tasks : s'.tasks = s.tasks) (clients : s'.clients = s.clients)
      (phase : s'.phase = Function.update s.phase owner .closed) : Effect sdk s none s'

variable {recovery retention : Bool} {sdk : String → Prop} {s s' : Bootstrap} {l : Option String}

theorem settle_of_validateFor {r : InitializeResult} (h : r.validateFor sdkParams = .ok ()) :
    Handshake.settle (.ok r) = .ready r := by
  simp only [Handshake.settle, h]

theorem settle_ready (outcome : Except JSONRPCError InitializeResult) :
    Handshake.settle outcome = .failed ∨ ∃ r, outcome = .ok r ∧ Handshake.settle outcome = .ready r := by
  cases outcome with
  | error e => exact .inl rfl
  | ok r =>
    cases h : r.validateFor sdkParams with
    | error m => exact .inl (by simp only [Handshake.settle, h])
    | ok u => exact .inr ⟨r, rfl, settle_of_validateFor h⟩

theorem Step.effect (h : Step recovery retention sdk s l s') : Effect recovery retention sdk s l s' := by
  cases h with
  | join own idle => exact .joined own idle rfl rfl rfl
  | @answer owner i t outcome waiting task sent =>
    refine .client rfl rfl rfl ?_
    obtain hf | ⟨r, rfl, hr⟩ := settle_ready outcome
    · exact .inl hf
    · exact .inr ⟨i, t, r, waiting, task, taken_of_answer sent, hr⟩
  | giveUp owner => exact .client rfl rfl rfl (.inl rfl)
  | @request owner result ready => exact .spawned (fun _ => ⟨rfl, result, ready⟩) rfl rfl rfl
  | foreign line other => exact .spawned (fun hsdk => absurd hsdk other) rfl rfl rfl
  | begin task line stage phase negotiated =>
    refine .moved _ _ _ task ?_ rfl rfl (fun _ _ => rfl) nofun
    rw [put_phase, line, stage, phase]
    exact .begin negotiated
  | incompatible task line stage phase negotiated =>
    refine .moved _ _ _ task ?_ rfl rfl (fun _ _ => rfl) nofun
    rw [put_phase, line, stage, phase]
    exact .incompatible negotiated
  | again task line stage phase =>
    refine .moved _ _ _ task ?_ rfl rfl (fun _ _ => rfl) nofun
    rw [put_phase, line, stage]
    exact .again phase
  | @accept i t result task stage phase =>
    refine .moved i t (.accepted result) task ?_ rfl rfl (fun o ho => Function.update_of_ne ho ..) nofun
    rw [stage, phase]
    simp only [setPhase, Function.update_self]
    exact .accept
  | overtaken task stage phase =>
    refine .moved _ _ _ task ?_ rfl rfl (fun _ _ => rfl) nofun
    rw [put_phase, stage]
    exact .overtaken phase
  | send task stage =>
    refine .moved _ _ _ task ?_ rfl rfl (fun _ _ => rfl) nofun
    rw [put_phase, stage]
    exact .send
  | @deliver i t result task stage =>
    refine .moved i t (.delivered result) task ?_ (settlePhase_tasks ..) (settlePhase_clients ..)
      (fun o ho => settlePhase_ne _ ho) nofun
    rw [settlePhase_self, put_phase, stage]
    exact .deliver
  | @abandon i t result task taken held =>
    refine .moved i t (.abandoned result t.stage.written) task ?_ (settlePhase_tasks ..)
      (settlePhase_clients ..) (fun o ho => settlePhase_ne _ ho) nofun
    rw [settlePhase_self, put_phase]
    exact .abandon taken held
  | @pass i t task line stage passes =>
    refine .moved _ _ _ task ?_ rfl rfl (fun _ _ => rfl) fun o ho => Option.some.inj ho ▸ gate_ok passes
    rw [put_phase, line, stage, gate_ok passes]
    exact .pass
  | refuse task line stage refused =>
    refine .moved _ _ _ task ?_ rfl rfl (fun _ _ => rfl) nofun
    rw [put_phase, line, stage]
    exact .refuse refused
  | close owner => exact .closed owner rfl rfl rfl

/-! ## The phases are one-way -/

theorem Moves.before {line : Line} {p p' : Phase} {a b : Stage} (h : Moves recovery retention line p a b p') :
    p.Before p' := by
  cases h with
  | accept => exact .inr Nat.zero_lt_one
  | deliver | abandon =>
    unfold Phase.settle
    split
    · next h =>
      rw [h]
      exact .inr Nat.one_lt_two
    · exact .refl _
  | _ => exact .refl _

theorem Step.before (h : Step recovery retention sdk s l s') (o : String) : (s.phase o).Before (s'.phase o) := by
  cases h.effect with
  | joined _ _ _ _ phase | spawned _ _ _ phase | client _ _ phase => rw [phase]; exact .refl _
  | moved i t stage task moves tasks clients others label =>
    by_cases ho : o = t.owner
    · rw [ho]
      exact moves.before
    · rw [others o ho]
      exact .refl _
  | closed owner tasks clients phase =>
    rw [phase]
    by_cases ho : o = owner
    · rw [ho, Function.update_self]
      cases s.phase owner <;> simp [Phase.Before, Phase.rank]
    · rw [Function.update_of_ne ho]
      exact .refl _

theorem Step.label (h : Step recovery retention sdk s l s') {o : String} (hl : l = some o) : s.phase o = .ready := by
  cases h.effect with
  | moved _ _ _ _ _ _ _ _ label => exact label o hl
  | _ => cases hl

/-! ## The task that took a phase -/

/-- Who took the phase of a connection, and what that says of its requests. -/
structure Inv (recovery retention : Bool) (s : Bootstrap) : Prop where
  result : ∀ {i : Nat} {t : Task} {r : InitializeResult}, s.tasks[i]? = some t → t.stage.result = some r →
    ∃ params, t.line = .initialization params ∧ negotiate params recovery retention = .ok r
  took : ∀ {i : Nat} {t : Task}, s.tasks[i]? = some t → t.stage.taken.isSome = true → s.phase t.owner ≠ .new
  single : ∀ {i j : Nat} {t u : Task}, s.tasks[i]? = some t → s.tasks[j]? = some u → t.owner = u.owner →
    t.stage.taken.isSome = true → u.stage.taken.isSome = true → i = j
  holder : ∀ {o : String}, s.phase o ≠ .new → s.phase o ≠ .closed →
    ∃ (i : Nat) (t : Task), s.tasks[i]? = some t ∧ t.owner = o ∧ (s.phase o).fits t.stage = true
  admitted : ∀ {i : Nat} {t : Task}, s.tasks[i]? = some t → t.stage = .admitted →
    ∃ (j : Nat) (u : Task) (r : InitializeResult), s.tasks[j]? = some u ∧ u.owner = t.owner ∧ u.stage = .delivered r

theorem Moves.result {line : Line} {p p' : Phase} {a b : Stage} (h : Moves recovery retention line p a b p')
    {r : InitializeResult} (hr : b.result = some r) :
    a.result = some r ∨ ∃ params, line = .initialization params ∧ negotiate params recovery retention = .ok r := by
  cases h with
  | begin negotiated => exact .inr ⟨_, rfl, by rw [negotiated, Option.some.inj hr]⟩
  | accept | send | deliver => exact .inl hr
  | abandon taken => exact .inl ((Stage.result_of_taken taken).trans hr)
  | _ => cases hr

/-- A task that has the phase took it now, or before. -/
theorem Moves.taken {line : Line} {p p' : Phase} {a b : Stage} (h : Moves recovery retention line p a b p')
    (hb : b.taken.isSome = true) : a.taken.isSome = true ∨ p = .new ∧ p' ≠ .new := by
  cases h with
  | accept => exact .inr ⟨rfl, nofun⟩
  | send | deliver => exact .inl rfl
  | abandon taken => exact .inl (by rw [taken]; rfl)
  | _ => cases hb

/-- The phase is that of the task, or the task has nothing to do with it. -/
theorem Moves.fits {line : Line} {p p' : Phase} {a b : Stage} (h : Moves recovery retention line p a b p')
    (hnew : p' ≠ .new) (hclosed : p' ≠ .closed) : p'.fits b = true ∨ p' = p ∧ p.fits a = false := by
  cases h with
  | begin | incompatible => exact absurd rfl hnew
  | accept => exact .inl rfl
  | again | overtaken | refuse => exact .inr ⟨rfl, by cases p <;> rfl⟩
  | pass => exact .inr ⟨rfl, rfl⟩
  | send =>
    cases p
    case initializing => exact .inl rfl
    case new | ready | failed | closed => exact .inr ⟨rfl, rfl⟩
  | deliver =>
    cases p
    case initializing => exact .inl rfl
    case new | ready | failed | closed => exact .inr ⟨rfl, rfl⟩
  | abandon taken held =>
    cases p
    case initializing => exact .inl rfl
    case new | ready | failed | closed =>
      refine .inr ⟨rfl, ?_⟩
      cases a <;> simp_all [Stage.holdsAck, Phase.fits]

/-- A task does not move on from its last stage. -/
theorem Moves.last {line : Line} {p p' : Phase} {a b : Stage} (h : Moves recovery retention line p a b p') :
    a ≠ .admitted ∧ (∀ r, a ≠ .delivered r) ∧ ∀ e, a ≠ .refused e := by
  cases h with
  | abandon taken held => cases a <;> simp_all [Stage.holdsAck]
  | _ => exact ⟨nofun, nofun, nofun⟩

theorem Moves.admitted {line : Line} {p p' : Phase} {a b : Stage} (h : Moves recovery retention line p a b p')
    (hb : b = .admitted) : p = .ready := by
  cases h with
  | pass => rfl
  | _ => cases hb

namespace Inv

theorem spawned {v : Task} (h : Inv recovery retention s) (hstage : v.stage = .received)
    (htasks : s'.tasks = s.tasks ++ [v]) (hphase : s'.phase = s.phase) : Inv recovery retention s' where
  result hi hr := by
    rw [htasks] at hi
    obtain hi | ⟨-, rfl⟩ := Slots.get_concat_iff.mp hi
    · exact h.result hi hr
    · rw [hstage] at hr
      cases hr
  took hi ht := by
    rw [htasks] at hi
    rw [hphase]
    obtain hi | ⟨-, rfl⟩ := Slots.get_concat_iff.mp hi
    · exact h.took hi ht
    · rw [hstage] at ht
      cases ht
  single hi hj hown ht hu := by
    rw [htasks] at hi hj
    obtain hi | ⟨-, rfl⟩ := Slots.get_concat_iff.mp hi
    · obtain hj | ⟨-, rfl⟩ := Slots.get_concat_iff.mp hj
      · exact h.single hi hj hown ht hu
      · rw [hstage] at hu
        cases hu
    · rw [hstage] at ht
      cases ht
  holder hnew hclosed := by
    rw [hphase] at hnew hclosed ⊢
    obtain ⟨i, t, hi, hown, hfits⟩ := h.holder hnew hclosed
    exact ⟨i, t, htasks ▸ Slots.get_concat_iff.mpr (.inl hi), hown, hfits⟩
  admitted hi ht := by
    rw [htasks] at hi
    obtain hi | ⟨-, rfl⟩ := Slots.get_concat_iff.mp hi
    · obtain ⟨j, u, r, hj, hown, hu⟩ := h.admitted hi ht
      exact ⟨j, u, r, htasks ▸ Slots.get_concat_iff.mpr (.inl hj), hown, hu⟩
    · rw [hstage] at ht
      cases ht

variable {i : Nat} {t : Task} {stage : Stage}

theorem moved (h : Inv recovery retention s) (hi : s.tasks[i]? = some t)
    (hm : Moves recovery retention t.line (s.phase t.owner) t.stage stage (s'.phase t.owner))
    (htasks : s'.tasks = s.tasks.set i { t with stage }) (hothers : ∀ o, o ≠ t.owner → s'.phase o = s.phase o) :
    Inv recovery retention s' where
  result hj hr := by
    rw [htasks] at hj
    obtain ⟨-, rfl⟩ | ⟨-, hj⟩ := (Slots.get_set_iff hi).mp hj
    · obtain hold | hnew := hm.result hr
      · have hline := h.result hi hold
        exact hline
      · exact hnew
    · exact h.result hj hr
  took {j u} hj hu := by
    rw [htasks] at hj
    obtain ⟨-, rfl⟩ | ⟨-, hj⟩ := (Slots.get_set_iff hi).mp hj
    · obtain hold | hnew := hm.taken hu
      · exact fun hp => h.took hi hold (hp ▸ hm.before).new
      · exact hnew.2
    · by_cases hown : u.owner = t.owner
      · rw [hown]
        exact fun hp => h.took hj hu (hown ▸ (hp ▸ hm.before).new)
      · rw [hothers _ hown]
        exact h.took hj hu
  single {j k u v} hj hk hown hu hv := by
    rw [htasks] at hj hk
    obtain ⟨rfl, rfl⟩ | ⟨-, hj'⟩ := (Slots.get_set_iff hi).mp hj
    · obtain ⟨rfl, -⟩ | ⟨-, hk⟩ := (Slots.get_set_iff hi).mp hk
      · rfl
      · obtain hold | hnew := hm.taken hu
        · exact h.single hi hk hown hold hv
        · exact absurd (hown ▸ hnew.1) (h.took hk hv)
    · obtain ⟨rfl, rfl⟩ | ⟨-, hk'⟩ := (Slots.get_set_iff hi).mp hk
      · obtain hold | hnew := hm.taken hv
        · exact h.single hj' hi hown hu hold
        · exact absurd (hown ▸ hnew.1) (h.took hj' hu)
      · exact h.single hj' hk' hown hu hv
  holder {o} hnew hclosed := by
    by_cases ho : o = t.owner
    · subst ho
      obtain hfits | ⟨heq, hnot⟩ := hm.fits hnew hclosed
      · exact ⟨i, { t with stage }, htasks ▸ (Slots.get_set_iff hi).mpr (.inl ⟨rfl, rfl⟩), rfl, hfits⟩
      · rw [heq] at hnew hclosed ⊢
        obtain ⟨j, u, hj, hown, hfits⟩ := h.holder hnew hclosed
        have hne : j ≠ i := by
          rintro rfl
          obtain rfl := Option.some.inj (hi.symm.trans hj)
          exact Bool.noConfusion (hnot.symm.trans hfits)
        exact ⟨j, u, htasks ▸ (Slots.get_set_iff hi).mpr (.inr ⟨hne, hj⟩), hown, hfits⟩
    · rw [hothers o ho] at hnew hclosed ⊢
      obtain ⟨j, u, hj, hown, hfits⟩ := h.holder hnew hclosed
      have hne : j ≠ i := by
        rintro rfl
        obtain rfl := Option.some.inj (hi.symm.trans hj)
        exact ho hown.symm
      exact ⟨j, u, htasks ▸ (Slots.get_set_iff hi).mpr (.inr ⟨hne, hj⟩), hown, hfits⟩
  admitted {j u} hj hu := by
    -- the task with the delivered answer does not move
    have hkeep : ∀ {k : Nat} {w : Task} {r : InitializeResult}, s.tasks[k]? = some w → w.stage = .delivered r →
        s'.tasks[k]? = some w := by
      intro k w r hk hw
      rw [htasks]
      refine (Slots.get_set_iff hi).mpr (.inr ⟨?_, hk⟩)
      rintro rfl
      obtain rfl := Option.some.inj (hi.symm.trans hk)
      exact hm.last.2.1 r hw
    rw [htasks] at hj
    obtain ⟨-, rfl⟩ | ⟨-, hj⟩ := (Slots.get_set_iff hi).mp hj
    · have hready := hm.admitted hu
      obtain ⟨k, w, hk, hown, hfits⟩ := h.holder (o := t.owner) (by rw [hready]; nofun) (by rw [hready]; nofun)
      rw [hready] at hfits
      cases hw : w.stage with
      | delivered r => exact ⟨k, w, r, hkeep hk hw, hown, hw⟩
      | _ => rw [hw] at hfits; cases hfits
    · obtain ⟨k, w, r, hk, hown, hw⟩ := h.admitted hj hu
      exact ⟨k, w, r, hkeep hk hw, hown, hw⟩

theorem kept (h : Inv recovery retention s) (htasks : s'.tasks = s.tasks) (hphase : s'.phase = s.phase) :
    Inv recovery retention s' where
  result hi := h.result (htasks ▸ hi)
  took hi ht := hphase ▸ h.took (htasks ▸ hi) ht
  single hi hj := h.single (htasks ▸ hi) (htasks ▸ hj)
  holder hnew hclosed := by
    rw [hphase] at hnew hclosed ⊢
    rw [htasks]
    exact h.holder hnew hclosed
  admitted hi ht := htasks ▸ h.admitted (htasks ▸ hi) ht

theorem closed {owner : String} (h : Inv recovery retention s) (htasks : s'.tasks = s.tasks)
    (hphase : s'.phase = Function.update s.phase owner .closed) : Inv recovery retention s' where
  result hi := h.result (htasks ▸ hi)
  took {i t} hi ht := by
    rw [hphase]
    by_cases ho : t.owner = owner
    · rw [ho, Function.update_self]
      nofun
    · rw [Function.update_of_ne ho]
      exact h.took (htasks ▸ hi) ht
  single hi hj := h.single (htasks ▸ hi) (htasks ▸ hj)
  holder {o} hnew hclosed := by
    rw [hphase] at hnew hclosed ⊢
    by_cases ho : o = owner
    · rw [ho, Function.update_self] at hclosed
      exact absurd rfl hclosed
    · rw [Function.update_of_ne ho] at hnew hclosed ⊢
      rw [htasks]
      exact h.holder hnew hclosed
  admitted hi ht := htasks ▸ h.admitted (htasks ▸ hi) ht

theorem step (h : Inv recovery retention s) (hs : Step recovery retention sdk s l s') : Inv recovery retention s' := by
  cases hs.effect with
  | joined own idle tasks clients phase => exact h.spawned rfl tasks phase
  | spawned origin tasks clients phase => exact h.spawned rfl tasks phase
  | moved i t stage task moves tasks clients others label => exact h.moved task moves tasks others
  | client tasks clients phase settled => exact h.kept tasks phase
  | closed owner tasks clients phase => exact h.closed tasks phase

end Inv

/-! ## Clients of the SDK -/

/-- What the tasks of SDK clients are, and what such a client knows. -/
structure Known (sdk : String → Prop) (s : Bootstrap) : Prop where
  asked : ∀ {i : Nat} {t : Task} {p : Except String InitializeParams}, sdk t.owner → s.tasks[i]? = some t →
    t.line = .initialization p → p = .ok sdkParams ∧ s.clients t.owner ≠ .idle
  once : ∀ {i j : Nat} {t u : Task} {p q : Except String InitializeParams}, sdk t.owner → s.tasks[i]? = some t →
    s.tasks[j]? = some u → t.owner = u.owner → t.line = .initialization p → u.line = .initialization q → i = j
  ready : ∀ {o : String} {r : InitializeResult}, s.clients o = .ready r →
    ∃ (i : Nat) (t : Task), s.tasks[i]? = some t ∧ t.owner = o ∧ t.stage.taken = some r
  waiting : ∀ {o : String} {i : Nat}, s.clients o = .waiting i → ∃ t, s.tasks[i]? = some t ∧ t.owner = o
  requests : ∀ {i : Nat} {t : Task}, sdk t.owner → s.tasks[i]? = some t → t.line = .request → s.phase t.owner ≠ .new
  refused : ∀ {i : Nat} {t : Task} {e : JSONRPCError}, sdk t.owner → s.tasks[i]? = some t → t.stage = .refused e →
    s.phase t.owner = .closed ∨ s.phase t.owner = .failed ∧ e = .connectionClosed

/-- A task keeps what it took. -/
theorem Moves.keeps {line : Line} {p p' : Phase} {a b : Stage} (h : Moves recovery retention line p a b p')
    {r : InitializeResult} (ha : a.taken = some r) : b.taken = some r := by
  cases h with
  | send | deliver => exact ha
  | abandon taken => exact taken.symm.trans ha
  | _ => cases ha

/-- The daemon refuses no client of the SDK for its parameters. -/
theorem negotiate_sdkParams (e : JSONRPCError) : negotiate (.ok sdkParams) recovery retention ≠ .error e := by
  intro h
  have hok := (negotiation sdkParams recovery retention).2.2.2 "whale-rust" packageVersion (by decide)
  rw [show sdkParams = .sdk "whale-rust" packageVersion from rfl, hok] at h
  cases h

/-- Why a task is refused. -/
theorem Moves.refused {line : Line} {p p' : Phase} {a : Stage} {e : JSONRPCError}
    (h : Moves recovery retention line p a (.refused e) p') :
    (∃ params, line = .initialization params ∧ negotiate params recovery retention = .error e) ∨
      (a.taken = none ∧ line ≠ .request ∧ p ≠ .new ∧ p' = p) ∨ (∃ r, a = .negotiated r ∧ p ≠ .new ∧ p' = p) ∨
        line = .request ∧ gate p = some (.error e) ∧ p' = p := by
  cases h with
  | incompatible negotiated => exact .inl ⟨_, rfl, negotiated⟩
  | again phase => exact .inr (.inl ⟨rfl, nofun, phase, rfl⟩)
  | overtaken phase => exact .inr (.inr (.inl ⟨_, rfl, phase, rfl⟩))
  | refuse refused => exact .inr (.inr (.inr ⟨rfl, refused, rfl⟩))

namespace Known

omit [DebugText] in
theorem joined {owner : String} (h : Known sdk s) (hidle : s.clients owner = .idle)
    (htasks : s'.tasks = s.tasks ++ [⟨owner, .initialization (.ok sdkParams), .received⟩])
    (hclients : s'.clients = Function.update s.clients owner (.waiting s.tasks.length))
    (hphase : s'.phase = s.phase) : Known sdk s' where
  asked {i t p} hsdk hi hline := by
    rw [htasks] at hi
    rw [hclients]
    obtain hi | ⟨-, rfl⟩ := Slots.get_concat_iff.mp hi
    · obtain ⟨hp, hclient⟩ := h.asked hsdk hi hline
      refine ⟨hp, ?_⟩
      by_cases ho : t.owner = owner
      · rw [ho] at hclient
        exact absurd hidle hclient
      · rwa [Function.update_of_ne ho]
    · simp only [Function.update_self]
      exact ⟨(Line.initialization.inj hline).symm, nofun⟩
  once {i j t u p q} hsdk hi hj hown hp hq := by
    rw [htasks] at hi hj
    obtain hi | ⟨rfl, rfl⟩ := Slots.get_concat_iff.mp hi
    · obtain hj | ⟨rfl, rfl⟩ := Slots.get_concat_iff.mp hj
      · exact h.once hsdk hi hj hown hp hq
      · exact absurd (hown ▸ hidle) (h.asked hsdk hi hp).2
    · obtain hj | ⟨rfl, rfl⟩ := Slots.get_concat_iff.mp hj
      · have hclient := (h.asked (hown ▸ hsdk) hj hq).2
        rw [← hown] at hclient
        exact absurd hidle hclient
      · rfl
  ready {o r} hr := by
    rw [hclients] at hr
    by_cases ho : o = owner
    · rw [ho, Function.update_self] at hr
      cases hr
    · rw [Function.update_of_ne ho] at hr
      obtain ⟨i, t, hi, hown, ht⟩ := h.ready hr
      exact ⟨i, t, htasks ▸ Slots.get_concat_iff.mpr (.inl hi), hown, ht⟩
  waiting {o i} hw := by
    rw [hclients] at hw
    rw [htasks]
    by_cases ho : o = owner
    · rw [ho, Function.update_self] at hw
      obtain rfl := Handshake.waiting.inj hw
      exact ⟨_, Slots.get_concat_iff.mpr (.inr ⟨rfl, rfl⟩), ho.symm⟩
    · rw [Function.update_of_ne ho] at hw
      obtain ⟨t, ht, hown⟩ := h.waiting hw
      exact ⟨t, Slots.get_concat_iff.mpr (.inl ht), hown⟩
  requests {i t} hsdk hi hline := by
    rw [htasks] at hi
    rw [hphase]
    obtain hi | ⟨-, rfl⟩ := Slots.get_concat_iff.mp hi
    · exact h.requests hsdk hi hline
    · cases hline
  refused {i t e} hsdk hi he := by
    rw [htasks] at hi
    rw [hphase]
    obtain hi | ⟨-, rfl⟩ := Slots.get_concat_iff.mp hi
    · exact h.refused hsdk hi he
    · cases he

theorem spawned {owner : String} {line : Line} (h : Known sdk s) (hinv : Inv recovery retention s)
    (horigin : sdk owner → line = .request ∧ ∃ r, s.clients owner = .ready r)
    (htasks : s'.tasks = s.tasks ++ [⟨owner, line, .received⟩]) (hclients : s'.clients = s.clients)
    (hphase : s'.phase = s.phase) : Known sdk s' where
  asked {i t p} hsdk hi hline := by
    rw [htasks] at hi
    rw [hclients]
    obtain hi | ⟨-, rfl⟩ := Slots.get_concat_iff.mp hi
    · exact h.asked hsdk hi hline
    · exact Line.noConfusion ((horigin hsdk).1.symm.trans hline)
  once {i j t u p q} hsdk hi hj hown hp hq := by
    rw [htasks] at hi hj
    obtain hi | ⟨-, rfl⟩ := Slots.get_concat_iff.mp hi
    · obtain hj | ⟨-, rfl⟩ := Slots.get_concat_iff.mp hj
      · exact h.once hsdk hi hj hown hp hq
      · have hsdk' : sdk owner := by
          rw [show t.owner = owner from hown] at hsdk
          exact hsdk
        exact Line.noConfusion ((horigin hsdk').1.symm.trans hq)
    · exact Line.noConfusion ((horigin hsdk).1.symm.trans hp)
  ready {o r} hr := by
    obtain ⟨i, t, hi, hown, ht⟩ := h.ready (hclients ▸ hr)
    exact ⟨i, t, htasks ▸ Slots.get_concat_iff.mpr (.inl hi), hown, ht⟩
  waiting {o i} hw := by
    obtain ⟨t, ht, hown⟩ := h.waiting (hclients ▸ hw)
    exact ⟨t, htasks ▸ Slots.get_concat_iff.mpr (.inl ht), hown⟩
  requests {i t} hsdk hi hline := by
    rw [htasks] at hi
    rw [hphase]
    obtain hi | ⟨-, rfl⟩ := Slots.get_concat_iff.mp hi
    · exact h.requests hsdk hi hline
    · -- the client read an answer, so its connection is not new
      obtain ⟨-, r, hr⟩ := horigin hsdk
      obtain ⟨j, u, hj, hown, hu⟩ := h.ready hr
      have hp := hinv.took hj (by rw [hu]; rfl)
      rw [hown] at hp
      exact hp
  refused {i t e} hsdk hi he := by
    rw [htasks] at hi
    rw [hphase]
    obtain hi | ⟨-, rfl⟩ := Slots.get_concat_iff.mp hi
    · exact h.refused hsdk hi he
    · cases he

variable {i : Nat} {t : Task} {stage : Stage}

/-- A connection of the SDK whose phase is neither new nor closed was taken by its only handshake. -/
theorem holder (h : Known sdk s) (hinv : Inv recovery retention s) (hsdk : sdk t.owner) (hi : s.tasks[i]? = some t)
    {params : Except String InitializeParams} (hline : t.line = .initialization params)
    (hnew : s.phase t.owner ≠ .new) (hclosed : s.phase t.owner ≠ .closed) : t.stage.taken.isSome = true := by
  obtain ⟨j, u, hj, hown, hfits⟩ := hinv.holder hnew hclosed
  have htaken := Phase.taken_of_fits hfits
  obtain ⟨r, hr⟩ := Option.isSome_iff_exists.mp htaken
  obtain ⟨q, hq, -⟩ := hinv.result hj (Stage.result_of_taken hr)
  obtain rfl := h.once hsdk hi hj hown.symm hline hq
  obtain rfl := Option.some.inj (hi.symm.trans hj)
  exact htaken

theorem moved (h : Known sdk s) (hinv : Inv recovery retention s) (hi : s.tasks[i]? = some t)
    (hm : Moves recovery retention t.line (s.phase t.owner) t.stage stage (s'.phase t.owner))
    (htasks : s'.tasks = s.tasks.set i { t with stage }) (hclients : s'.clients = s.clients)
    (hbefore : ∀ o, (s.phase o).Before (s'.phase o)) : Known sdk s' := by
  -- the owner and the line of a task do not change
  have hold : ∀ {j : Nat} {u : Task}, s'.tasks[j]? = some u →
      ∃ v, s.tasks[j]? = some v ∧ v.owner = u.owner ∧ v.line = u.line ∧ (v = u ∨ j = i ∧ u.stage = stage) := by
    intro j u hj
    rw [htasks] at hj
    obtain ⟨rfl, rfl⟩ | ⟨-, hj⟩ := (Slots.get_set_iff hi).mp hj
    · exact ⟨t, hi, rfl, rfl, .inr ⟨rfl, rfl⟩⟩
    · exact ⟨u, hj, rfl, rfl, .inl rfl⟩
  have hnew : ∀ {j : Nat} {v : Task}, s.tasks[j]? = some v → ∃ u, s'.tasks[j]? = some u ∧ u.owner = v.owner ∧
      ∀ r, v.stage.taken = some r → u.stage.taken = some r := by
    intro j v hj
    rw [htasks]
    by_cases hji : j = i
    · obtain rfl := hji
      obtain rfl := Option.some.inj (hi.symm.trans hj)
      exact ⟨{ t with stage }, (Slots.get_set_iff hi).mpr (.inl ⟨rfl, rfl⟩), rfl, fun r hr => hm.keeps hr⟩
    · exact ⟨v, (Slots.get_set_iff hi).mpr (.inr ⟨hji, hj⟩), rfl, fun _ hr => hr⟩
  constructor
  case asked =>
    intro j u p hsdk hj hline
    obtain ⟨v, hv, hown, hvline, -⟩ := hold hj
    rw [hclients, ← hown]
    exact h.asked (hown ▸ hsdk) hv (hvline.trans hline)
  case once =>
    intro j k u w p q hsdk hj hk hown hp hq
    obtain ⟨v, hv, hvo, hvline, -⟩ := hold hj
    obtain ⟨x, hx, hxo, hxline, -⟩ := hold hk
    exact h.once (hvo ▸ hsdk) hv hx (hvo.trans (hown.trans hxo.symm)) (hvline.trans hp) (hxline.trans hq)
  case ready =>
    intro o r hr
    obtain ⟨j, v, hj, hown, hv⟩ := h.ready (hclients ▸ hr)
    obtain ⟨u, hu, huo, hkeep⟩ := hnew hj
    exact ⟨j, u, hu, huo.trans hown, hkeep r hv⟩
  case waiting =>
    intro o j hw
    obtain ⟨v, hj, hown⟩ := h.waiting (hclients ▸ hw)
    obtain ⟨u, hu, huo, -⟩ := hnew hj
    exact ⟨u, hu, huo.trans hown⟩
  case requests =>
    intro j u hsdk hj hline hp
    obtain ⟨v, hv, hown, hvline, -⟩ := hold hj
    rw [← hown] at hsdk hp
    exact h.requests hsdk hv (hvline.trans hline) ((hp ▸ hbefore v.owner).new)
  case refused =>
    intro j u e hsdk hj he
    obtain ⟨v, hv, hown, hvline, rfl | ⟨rfl, hstage⟩⟩ := hold hj
    · obtain hp | ⟨hp, rfl⟩ := h.refused hsdk hv he
      · exact .inl (hp ▸ hbefore v.owner).closed
      · exact ((hp ▸ hbefore v.owner).failed).elim (fun hf => .inr ⟨hf, rfl⟩) .inl
    · obtain rfl := Option.some.inj (hi.symm.trans hv)
      rw [← hown] at hsdk ⊢
      obtain rfl : stage = .refused e := hstage.symm.trans he
      obtain ⟨params, hline, hneg⟩ | ⟨hnone, hline, hp, hp'⟩ | ⟨r, hr, hp, hp'⟩ | ⟨hline, hgate, hp'⟩ := hm.refused
      · obtain ⟨rfl, -⟩ := h.asked hsdk hi hline
        exact absurd hneg (negotiate_sdkParams e)
      · rw [hp']
        refine .inl (by_contra fun hclosed => ?_)
        cases hl : t.line with
        | request => exact hline hl
        | initialization params =>
          have htaken := h.holder hinv hsdk hi hl hp hclosed
          rw [hnone] at htaken
          cases htaken
      · rw [hp']
        refine .inl (by_contra fun hclosed => ?_)
        obtain ⟨params, hl, -⟩ := hinv.result hi (by rw [hr]; rfl)
        have htaken := h.holder hinv hsdk hi hl hp hclosed
        rw [hr] at htaken
        cases htaken
      · rw [hp']
        have hp := h.requests hsdk hi hline
        cases hphase : s.phase t.owner with
        | new => exact absurd hphase hp
        | closed => exact .inl rfl
        | failed =>
          rw [hphase] at hgate
          exact .inr ⟨rfl, (Except.error.inj (Option.some.inj hgate)).symm⟩
        | initializing | ready =>
          rw [hphase] at hgate
          cases hgate

omit [DebugText] in
theorem client {owner : String} {c : Handshake} (h : Known sdk s) (htasks : s'.tasks = s.tasks)
    (hclients : s'.clients = Function.update s.clients owner c) (hphase : s'.phase = s.phase)
    (hsettled : c = .failed ∨ ∃ i t r, s.clients owner = .waiting i ∧ s.tasks[i]? = some t ∧
      t.stage.taken = some r ∧ c = .ready r) : Known sdk s' where
  asked {i t p} hsdk hi hline := by
    obtain ⟨hp, hclient⟩ := h.asked hsdk (htasks ▸ hi) hline
    refine ⟨hp, ?_⟩
    rw [hclients]
    by_cases ho : t.owner = owner
    · rw [ho, Function.update_self]
      obtain rfl | ⟨_, _, _, _, _, _, rfl⟩ := hsettled <;> nofun
    · rwa [Function.update_of_ne ho]
  once hsdk hi hj := h.once hsdk (htasks ▸ hi) (htasks ▸ hj)
  ready {o r} hr := by
    rw [hclients] at hr
    rw [htasks]
    by_cases ho : o = owner
    · rw [ho, Function.update_self] at hr
      obtain rfl | ⟨i, t, r', hw, hi, ht, rfl⟩ := hsettled
      · cases hr
      · obtain rfl := Handshake.ready.inj hr
        obtain ⟨u, hu, hown⟩ := h.waiting hw
        obtain rfl := Option.some.inj (hi.symm.trans hu)
        exact ⟨i, t, hi, hown.trans ho.symm, ht⟩
    · rw [Function.update_of_ne ho] at hr
      exact h.ready hr
  waiting {o i} hw := by
    rw [hclients] at hw
    rw [htasks]
    by_cases ho : o = owner
    · rw [ho, Function.update_self] at hw
      obtain rfl | ⟨_, _, _, _, _, _, rfl⟩ := hsettled
      · cases hw
      · cases hw
    · rw [Function.update_of_ne ho] at hw
      exact h.waiting hw
  requests hsdk hi hline := hphase ▸ h.requests hsdk (htasks ▸ hi) hline
  refused hsdk hi he := hphase ▸ h.refused hsdk (htasks ▸ hi) he

omit [DebugText] in
theorem closed (h : Known sdk s) (htasks : s'.tasks = s.tasks) (hclients : s'.clients = s.clients)
    (hbefore : ∀ o, (s.phase o).Before (s'.phase o)) : Known sdk s' where
  asked hsdk hi hline := hclients ▸ h.asked hsdk (htasks ▸ hi) hline
  once hsdk hi hj := h.once hsdk (htasks ▸ hi) (htasks ▸ hj)
  ready hr := htasks ▸ h.ready (hclients ▸ hr)
  waiting hw := htasks ▸ h.waiting (hclients ▸ hw)
  requests {i t} hsdk hi hline hp := h.requests hsdk (htasks ▸ hi) hline (hp ▸ hbefore t.owner).new
  refused {i t e} hsdk hi he := by
    obtain hp | ⟨hp, rfl⟩ := h.refused hsdk (htasks ▸ hi) he
    · exact .inl (hp ▸ hbefore t.owner).closed
    · exact ((hp ▸ hbefore t.owner).failed).elim (fun hf => .inr ⟨hf, rfl⟩) .inl

theorem step (h : Known sdk s) (hinv : Inv recovery retention s) (hs : Step recovery retention sdk s l s') :
    Known sdk s' := by
  cases hs.effect with
  | joined own idle tasks clients phase => exact h.joined idle tasks clients phase
  | spawned origin tasks clients phase => exact h.spawned hinv origin tasks clients phase
  | moved i t stage task moves tasks clients others label => exact h.moved hinv task moves tasks clients hs.before
  | client tasks clients phase settled => exact h.client tasks clients phase settled
  | closed owner tasks clients phase => exact h.closed tasks clients hs.before

end Known

/-! ## The handshake -/

/-- What holds of the connections in every state. -/
structure Meets (recovery retention : Bool) (sdk : String → Prop) (s : Bootstrap) : Prop where
  /-- A request passes only on a connection whose client asked for what it was told, and was told. -/
  admitted : ∀ t ∈ s.tasks, t.stage = .admitted → ∃ u ∈ s.tasks, u.owner = t.owner ∧ ∃ params r,
    u.line = .initialization (.ok params) ∧ u.stage = .delivered r ∧ r.validateFor params = .ok ()
  /-- One handshake at most takes the phase of a connection. -/
  single : ∀ {i j : Nat} {t u : Task}, s.tasks[i]? = some t → s.tasks[j]? = some u → t.owner = u.owner →
    t.stage.taken.isSome = true → u.stage.taken.isSome = true → i = j
  /-- Requests wait only for an answer that is on its way. -/
  waits : ∀ o, s.phase o = .initializing → ∃ t ∈ s.tasks, t.owner = o ∧ t.stage.holdsAck = true
  /-- Nothing of a client of the SDK is refused while its connection is up. -/
  refused : ∀ t ∈ s.tasks, sdk t.owner → ∀ e, t.stage = .refused e →
    s.phase t.owner = .closed ∨ s.phase t.owner = .failed ∧ e = .connectionClosed
  /-- A client that is ready holds what its daemon offers. -/
  agreed : ∀ o r, s.clients o = .ready r → r = ⟨server, protocolVersion, offered recovery retention⟩ ∧
    ∃ t ∈ s.tasks, t.owner = o ∧ t.stage.taken = some r

theorem Inv.params {s : Bootstrap} (h : Inv recovery retention s) {i : Nat} {t : Task} {r : InitializeResult}
    (hi : s.tasks[i]? = some t) (hr : t.stage.result = some r) :
    ∃ params, t.line = .initialization (.ok params) ∧ negotiate (.ok params) recovery retention = .ok r := by
  obtain ⟨params, hline, hneg⟩ := h.result hi hr
  cases params with
  | error m => cases hneg
  | ok params => exact ⟨params, hline, hneg⟩

theorem meets {s : Bootstrap} (h : Inv recovery retention s) (hk : Known sdk s) :
    s.Meets recovery retention sdk where
  admitted t ht hstage := by
    obtain ⟨i, hi⟩ := List.mem_iff_getElem?.mp ht
    obtain ⟨j, u, r, hj, hown, hu⟩ := h.admitted hi hstage
    obtain ⟨params, hline, hneg⟩ := h.params hj (by rw [hu]; rfl)
    exact ⟨u, List.mem_of_getElem? hj, hown, params, r, hline, hu, validateFor_of_negotiate hneg⟩
  single := h.single
  waits o ho := by
    obtain ⟨i, t, hi, hown, hfits⟩ := h.holder (o := o) (by rw [ho]; nofun) (by rw [ho]; nofun)
    refine ⟨t, List.mem_of_getElem? hi, hown, ?_⟩
    rw [ho] at hfits
    cases hs : t.stage with
    | accepted r | sent r => rfl
    | _ => rw [hs] at hfits; cases hfits
  refused t ht hsdk e he := by
    obtain ⟨i, hi⟩ := List.mem_iff_getElem?.mp ht
    exact hk.refused hsdk hi he
  agreed o r hr := by
    obtain ⟨i, t, hi, hown, ht⟩ := hk.ready hr
    obtain ⟨params, -, hneg⟩ := h.params hi (Stage.result_of_taken ht)
    exact ⟨(negotiate_ok_iff.mp hneg).2.2.2, t, List.mem_of_getElem? hi, hown, ht⟩

theorem inv_start : Inv recovery retention {} where
  result hi := by cases hi
  took hi := by cases hi
  single hi := by cases hi
  holder hnew := absurd rfl hnew
  admitted hi := by cases hi

omit [DebugText] in
theorem known_start : Known sdk {} where
  asked _ hi := by cases hi
  once _ hi := by cases hi
  ready hr := by cases hr
  waiting hw := by cases hw
  requests _ hi := by cases hi
  refused _ hi := by cases hi

/-- In every run, of any connections with clients of the SDK and others: every state meets `Meets`; and from it on, no
phase is entered twice, and a connection lets a request pass only as long as it is not failed or closed. -/
theorem bootstrap_handshake {es : List (Option String)} (run : Lts.Run (Step recovery retention sdk) {} es s) :
    s.Meets recovery retention sdk ∧
      ∀ {es' : List (Option String)} {s' : Bootstrap}, Lts.Run (Step recovery retention sdk) s es' s' → ∀ o,
        (s.phase o).Before (s'.phase o) ∧ (s.phase o = .failed ∨ s.phase o = .closed → some o ∉ es') := by
  have hinv := run.invariant (fun s => Inv recovery retention s ∧ Known sdk s)
    (fun _ _ _ h hs => ⟨h.1.step hs, h.2.step h.1 hs⟩) ⟨inv_start, known_start⟩
  refine ⟨meets hinv.1 hinv.2, ?_⟩
  clear hinv run
  intro es' s' run' o
  induction run' with
  | nil s => exact ⟨.refl _, fun _ => List.not_mem_nil⟩
  | @cons s t u l ls hs run' ih =>
    obtain ⟨hbefore, hlabels⟩ := ih
    refine ⟨(hs.before o).trans hbefore, fun hend hm => ?_⟩
    obtain rfl | hm := List.mem_cons.mp hm
    · rw [hs.label rfl] at hend
      obtain hend | hend := hend <;> cases hend
    · refine hlabels ?_ hm
      obtain hend | hend := hend
      · exact (hend ▸ hs.before o).failed
      · exact .inr (hend ▸ hs.before o).closed

end

/-- A text for a list of names. -/
abbrev plainText : DebugText := ⟨fun names => ", ".intercalate names⟩

/-- A client that bootstraps its connection and then sends a request, which passes. -/
theorem bootstrap_handshake_sample : ∃ es s, Lts.Run (@Step plainText false false fun _ => True) {} es s ∧
    some "c" ∈ es ∧ @Meets plainText false false (fun _ => True) s := by
  let _ : DebugText := plainText
  obtain ⟨r, hneg⟩ : ∃ r, negotiate (.ok sdkParams) false false = .ok r :=
    ⟨_, (negotiation sdkParams false false).2.2.2 "whale-rust" packageVersion (by decide)⟩
  have hread : Handshake.settle (.ok r) = .ready r := settle_of_validateFor (validateFor_of_negotiate hneg)
  have hjoin := @Step.join plainText false false (fun _ => True) {} "c" trivial rfl
  have haccepted := ((Lts.Run.single hjoin).snoc (@Step.begin _ _ _ _ _ 0 _ _ r rfl rfl rfl rfl hneg)).snoc
    (@Step.accept _ _ _ _ _ 0 _ r rfl rfl rfl)
  have hdelivered := (haccepted.snoc (@Step.send _ _ _ _ _ 0 _ r rfl rfl)).snoc
    (@Step.deliver _ _ _ _ _ 0 _ r rfl rfl)
  have hanswered := hdelivered.snoc (@Step.answer _ _ _ _ _ "c" 0 _ (.ok r) rfl rfl rfl)
  have hrun := (hanswered.snoc (@Step.request _ _ _ _ _ "c" r hread)).snoc
    (@Step.pass _ _ _ _ _ 1 _ rfl rfl rfl rfl)
  exact ⟨_, _, hrun, by simp, (bootstrap_handshake hrun).1⟩

end Whale.Bootstrap
