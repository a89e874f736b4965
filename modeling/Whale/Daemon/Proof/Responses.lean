import Whale.Daemon.Proof.Registry

/-!
# Response transactions

The invariant of a session of the registry (`Interactions.Sound`): an entry, a continuation, a transaction
and a responder of one generation agree on its request, its response and how far the response got. The
operations change one of them at a time (`Sound.shrink`, `Sound.move`, `Sound.put`,
`Sound.withResponder`), and a request or a transaction comes with `begin` and `lead`.
-/

namespace Whale

open Check

/-- What a continuation has seen of a response at a stage of its transaction; it may be dropped at any. -/
def ResponseStage.Agrees (stage : ResponseStage) (response : Value) (c : Continuation) : Prop :=
  c = .dropped ∨ match stage with
    | .committed => c = .waiting
    | .staged | .checked | .published => c = .delivered response
    | .acknowledged | .ended (.ok _) => c = .settled (.ok response) ∨ c = .resumed (.ok response)
    | .aborting .. | .aborted _ => c = .waiting ∨ c = .delivered response
    | .notified failure | .ended (.error failure) =>
      c = .settled (.error failure.intoCore) ∨ c = .resumed (.error failure.intoCore)

namespace ResponseStage.Agrees

variable {stage : ResponseStage} {response : Value} {c : Continuation}

theorem of_closed (h : c.isClosed = true) : stage.Agrees response c := by
  cases c with
  | dropped => exact .inl rfl
  | absent | waiting | delivered | settled | resumed => cases h

theorem drop (h : stage.Agrees response c) : stage.Agrees response c.drop := by
  cases c with
  | absent | resumed => exact h
  | waiting | delivered | settled | dropped => exact .inl rfl

/-- A result that was sent is the one a poll returns. -/
theorem poll {result : Except InteractionError Value} (h : stage.Agrees response (.settled result)) :
    stage.Agrees response (.resumed result) := by
  rcases h with h | h
  · cases h
  · refine .inr ?_
    cases stage with
    | committed | staged | checked | published => cases h
    | acknowledged =>
      rcases h with h | h <;> cases h
      exact .inr rfl
    | aborting | aborted => rcases h with h | h <;> cases h
    | notified failure =>
      rcases h with h | h <;> cases h
      exact .inr rfl
    | ended ended =>
      cases ended with
      | ok | error =>
        rcases h with h | h <;> cases h
        exact .inr rfl

/-- The continuation of a transaction that is aborted before it is acknowledged. -/
theorem abort (h : stage.Agrees response c) (hs : stage = .committed ∨ stage = .staged ∨ stage = .checked)
    (cause : InteractionRemoval) (failure : InteractionFailure) :
    (aborting cause failure).Agrees response c := by
  rcases h with h | h
  · exact .inl h
  · rcases hs with rfl | rfl | rfl
    · exact .inr (.inl h)
    · exact .inr (.inr h)
    · exact .inr (.inr h)

end ResponseStage.Agrees

theorem ResponseStage.droppable_iff {stage : ResponseStage} :
    stage.droppable = true ↔ stage = .committed ∨ stage = .staged := by
  cases stage <;> simp [droppable]

/-- What a continuation without a transaction can have seen. -/
def Continuation.Unanswered : Continuation → Prop
  | absent | waiting | dropped | settled (.error _) | resumed (.error _) => True
  | _ => False

namespace Continuation.Unanswered

variable {c : Continuation}

theorem fail (h : c.Unanswered) (e : InteractionError) : (c.fail e).Unanswered := by
  cases c with
  | waiting | delivered => trivial
  | absent | settled | resumed | dropped => exact h

theorem drop (h : c.Unanswered) : c.drop.Unanswered := by
  cases c with
  | absent | resumed => exact h
  | waiting | delivered | settled | dropped => trivial

theorem poll {result : Except InteractionError Value} (h : (settled result).Unanswered) :
    (resumed result).Unanswered := by
  cases result with
  | error e => trivial
  | ok value => exact h

end Continuation.Unanswered

namespace Interactions

variable {ρ : Type}

section
variable [External] [InteractionHost]

/-- An entry belongs to the request of its generation. -/
def Holds (w : Interactions ρ) (key : InteractionKey) (request : InteractionRequest) :
    ResponseState → Prop
  | .pending entry => entry.request = request ∧ w.transactions entry.generation = none ∧
      (w.continuations entry.generation = .waiting ∨ w.continuations entry.generation = .dropped)
  | .resolved digest generation _ =>
    ∃ t, w.transactions generation = some t ∧ t.key = key ∧ t.digest = digest

/-- The response that a responder submits is that of a transaction. -/
def Submitted (submit : ρ → ResponseSubmission) (w : Interactions ρ) (i : ρ) (g : Nat)
    (p : ResponseStage → Prop) : Prop :=
  ∃ t, w.transactions g = some t ∧ responseDigest (submit i).params.response = .ok t.digest ∧ p t.stage

/-- What a responder knows. -/
def Knows (submit : ρ → ResponseSubmission) (w : Interactions ρ) (i : ρ) : Responder → Prop
  | .idle | .gone => True
  | .validating g request digest => w.requests g = some ((submit i).key, request) ∧
      responseDigest (submit i).params.response = .ok digest
  | .leading g | .following g | .released g => Submitted submit w i g fun _ => True
  | .answered none result => ∃ failure, result = .error failure
  | .answered (some g) result => Submitted submit w i g (· = .ended result)

/-- A sender that a cleanup holds belongs to nothing else. -/
def Loose (w : Interactions ρ) (g : Nat) : Prop :=
  w.requests g ≠ none ∧ w.transactions g = none ∧
    ∀ key entry, w.record.entries.get? key = some (.pending entry) → entry.generation ≠ g

/-- A transaction has a valid response to its request, from one of the responders. -/
structure Backed (submit : ρ → ResponseSubmission) (w : Interactions ρ) (g : Nat) (t : ResponseCommit) : Prop where
  request : ∃ request, w.requests g = some (t.key, request) ∧
    validateInteractionResponse request t.response = .ok ()
  submitted : ∃ i, (submit i).key = t.key ∧ (submit i).params.response = t.response
  digest : responseDigest t.response = .ok t.digest
  agrees : t.stage.Agrees t.response (w.continuations g)

/-- The invariant. -/
structure Sound (submit : ρ → ResponseSubmission) (w : Interactions ρ) : Prop where
  entries : ∀ key state, w.record.entries.get? key = some state →
    ∃ request, w.requests state.generation = some (key, request) ∧ w.Holds key request state
  fresh : ∀ g, w.record.nextGeneration ≤ g → w.requests g = none
  unasked : ∀ g, w.requests g = none → w.transactions g = none ∧ w.continuations g = .absent
  backed : ∀ g t, w.transactions g = some t → Backed submit w g t
  unanswered : ∀ g, w.transactions g = none → (w.continuations g).Unanswered
  notices : ∀ n ∈ w.notices, w.Loose n.1
  responders : ∀ i, Knows submit w i (w.responders i)

variable {submit : ρ → ResponseSubmission} {w : Interactions ρ} {g : Nat} {t : ResponseCommit}

/-! ## Frames -/

omit [External] in
/-- A transaction goes on with its response, and stays ended. -/
theorem Submitted.mono {w' : Interactions ρ} {i : ρ} {p : ResponseStage → Prop}
    (ht : ∀ g t, w.transactions g = some t → ∃ t', w'.transactions g = some t' ∧
      t'.digest = t.digest ∧ (p t.stage → p t'.stage))
    (h : Submitted submit w i g p) : Submitted submit w' i g p := by
  obtain ⟨t, hg, hd, hp⟩ := h
  obtain ⟨t', hg', hd', hp'⟩ := ht g t hg
  exact ⟨t', hg', hd' ▸ hd, hp' hp⟩

omit [External] in
/-- What a responder knows outlives a change that keeps requests, digests and results. -/
theorem Knows.mono {w' : Interactions ρ} {i : ρ}
    (hr : ∀ g x, w.requests g = some x → w'.requests g = some x)
    (ht : ∀ g t, w.transactions g = some t → ∃ t', w'.transactions g = some t' ∧
      t'.digest = t.digest ∧ ∀ result, t.stage = .ended result → t'.stage = .ended result) :
    ∀ {x : Responder}, Knows submit w i x → Knows submit w' i x := by
  intro x h
  have hany : ∀ {g}, Submitted submit w i g (fun _ => True) → Submitted submit w' i g fun _ => True := by
    intro g
    apply Submitted.mono
    intro g t hg
    obtain ⟨t', h1, h2, -⟩ := ht g t hg
    exact ⟨t', h1, h2, id⟩
  cases x with
  | idle => trivial
  | gone => trivial
  | validating g request digest => exact ⟨hr _ _ h.1, h.2⟩
  | leading g => exact hany h
  | following g => exact hany h
  | released g => exact hany h
  | answered g result =>
    cases g with
    | none => exact h
    | some g =>
      have h' : Submitted submit w i g (· = .ended result) := h
      apply h'.mono
      intro g t hg
      obtain ⟨t', h1, h2, h3⟩ := ht g t hg
      exact ⟨t', h1, h2, h3 result⟩

/-- The entry of a request is found under its key. -/
theorem Sound.key_unique (h : Sound submit w) {key key' : InteractionKey} {state state' : ResponseState}
    (hk : w.record.entries.get? key = some state) (hk' : w.record.entries.get? key' = some state')
    (hg : state.generation = state'.generation) : key = key' := by
  obtain ⟨q, hq, -⟩ := h.entries key state hk
  obtain ⟨q', hq', -⟩ := h.entries key' state' hk'
  rw [hg, hq', Option.some.injEq, Prod.mk.injEq] at hq
  exact hq.1.symm

/-- Taking entries away, with senders that are left over. -/
theorem Sound.shrink (h : Sound submit w) {r : InteractionRecord} (hr : w.record.Shrinks r)
    (registered : Bool) {ns : List (Nat × InteractionError)}
    (hn : ∀ n ∈ ns, n ∈ w.notices ∨ ({ w with record := r } : Interactions ρ).Loose n.1) :
    Sound submit { w with record := r, notices := ns, registered := registered } where
  entries key state hk := h.entries key state (hr.entries key state hk)
  fresh g hg := h.fresh g (hr.generation.trans hg)
  unasked := h.unasked
  backed g t hg := by
    obtain ⟨h1, h2, h3, h4⟩ := h.backed g t hg
    exact ⟨h1, h2, h3, h4⟩
  unanswered := h.unanswered
  notices n hm := by
    rcases hn n hm with hold | hnew
    · obtain ⟨h1, h2, h3⟩ := h.notices n hold
      exact ⟨h1, h2, fun key entry hk => h3 key entry (hr.entries _ _ hk)⟩
    · exact hnew
  responders i := Knows.mono (fun _ _ h => h) (fun _ t h => ⟨t, h, rfl, fun _ h => h⟩) (h.responders i)

theorem Sound.withResponder [DecidableEq ρ] (h : Sound submit w) {i : ρ} {next : Responder}
    (hk : Knows submit w i next) : Sound submit (w.withResponder i next) where
  entries := h.entries
  fresh := h.fresh
  unasked := h.unasked
  backed g t hg := by
    obtain ⟨h1, h2, h3, h4⟩ := h.backed g t hg
    exact ⟨h1, h2, h3, h4⟩
  unanswered := h.unanswered
  notices := h.notices
  responders j := by
    apply Knows.mono (w := w) (fun _ _ h => h) (fun _ t h => ⟨t, h, rfl, fun _ h => h⟩)
    by_cases hj : j = i
    · subst hj
      simpa [Interactions.withResponder] using hk
    · simpa [Interactions.withResponder, hj] using h.responders j

/-- Moving a continuation. -/
theorem Sound.move (h : Sound submit w) {f : Continuation → Continuation}
    (hasked : w.requests g = none → f (w.continuations g) = .absent)
    (hpending : ∀ key entry, w.record.entries.get? key = some (.pending entry) → entry.generation = g →
      f (w.continuations g) = .waiting ∨ f (w.continuations g) = .dropped)
    (hbacked : ∀ t, w.transactions g = some t → t.stage.Agrees t.response (f (w.continuations g)))
    (hun : w.transactions g = none → (f (w.continuations g)).Unanswered) :
    Sound submit (w.move g f) where
  entries key state hk := by
    obtain ⟨q, hq, hs⟩ := h.entries key state hk
    refine ⟨q, hq, ?_⟩
    cases state with
    | resolved digest generation typed => exact hs
    | pending entry =>
      refine ⟨hs.1, hs.2.1, ?_⟩
      by_cases he : entry.generation = g
      · subst he
        simpa only [Interactions.move, Function.update_self] using hpending key entry hk rfl
      · simpa only [Interactions.move, Function.update_of_ne he] using hs.2.2
  fresh := h.fresh
  unasked g' hg := by
    obtain ⟨h1, h2⟩ := h.unasked g' hg
    refine ⟨h1, ?_⟩
    by_cases he : g' = g
    · subst he
      simpa only [Interactions.move, Function.update_self] using hasked hg
    · simpa only [Interactions.move, Function.update_of_ne he] using h2
  backed g' t hg := by
    obtain ⟨h1, h2, h3, h4⟩ := h.backed g' t hg
    refine ⟨h1, h2, h3, ?_⟩
    by_cases he : g' = g
    · subst he
      simpa only [Interactions.move, Function.update_self] using hbacked t hg
    · simpa only [Interactions.move, Function.update_of_ne he] using h4
  unanswered g' hg := by
    by_cases he : g' = g
    · subst he
      simpa only [Interactions.move, Function.update_self] using hun hg
    · simpa only [Interactions.move, Function.update_of_ne he] using h.unanswered g' hg
  notices := h.notices
  responders i := Knows.mono (fun _ _ h => h) (fun _ t h => ⟨t, h, rfl, fun _ h => h⟩) (h.responders i)

/-- A transaction goes on, with its continuation. -/
theorem Sound.put (h : Sound submit w) (txn : w.transactions g = some t) (t' : ResponseCommit)
    {c : Continuation} (hkey : t'.key = t.key) (hdigest : t'.digest = t.digest)
    (hresponse : t'.response = t.response)
    (hended : ∀ result, t.stage = .ended result → t'.stage = .ended result)
    (hagrees : t'.stage.Agrees t.response c) :
    Sound submit { w with
      transactions := Function.update w.transactions g (some t')
      continuations := Function.update w.continuations g c } where
  entries key state hk := by
    obtain ⟨q, hq, hs⟩ := h.entries key state hk
    refine ⟨q, hq, ?_⟩
    cases state with
    | resolved digest generation typed =>
      obtain ⟨u, h1, h2, h3⟩ := hs
      by_cases he : generation = g
      · subst he
        rw [txn] at h1
        cases h1
        exact ⟨t', by simp, by rw [hkey, h2], by rw [hdigest, h3]⟩
      · exact ⟨u, by simpa only [Function.update_of_ne he] using h1, h2, h3⟩
    | pending entry =>
      obtain ⟨h1, h2, h3⟩ := hs
      have he : entry.generation ≠ g := by
        rintro rfl
        rw [txn] at h2
        cases h2
      refine ⟨h1, ?_, ?_⟩
      · simpa only [Function.update_of_ne he] using h2
      · simpa only [Function.update_of_ne he] using h3
  fresh := h.fresh
  unasked g' hg := by
    have he : g' ≠ g := by
      rintro rfl
      rw [(h.unasked _ hg).1] at txn
      cases txn
    simpa only [Function.update_of_ne he] using h.unasked g' hg
  backed g' u hg := by
    by_cases he : g' = g
    · subst he
      simp only [Function.update_self, Option.some.injEq] at hg
      subst hg
      obtain ⟨h1, h2, h3, -⟩ := h.backed _ t txn
      refine ⟨hkey ▸ hresponse ▸ h1, hkey ▸ hresponse ▸ h2, by rw [hresponse, hdigest, h3], ?_⟩
      simpa only [Function.update_self, hresponse] using hagrees
    · simp only [Function.update_of_ne he] at hg
      obtain ⟨h1, h2, h3, h4⟩ := h.backed g' u hg
      exact ⟨h1, h2, h3, by simpa only [Function.update_of_ne he] using h4⟩
  unanswered g' hg := by
    by_cases he : g' = g
    · subst he
      simp at hg
    · simp only [Function.update_of_ne he] at hg ⊢
      exact h.unanswered g' hg
  notices n hm := by
    obtain ⟨h1, h2, h3⟩ := h.notices n hm
    have he : n.1 ≠ g := by
      rintro rfl
      rw [txn] at h2
      cases h2
    exact ⟨h1, by simpa only [Function.update_of_ne he] using h2, h3⟩
  responders i := by
    refine Knows.mono ?_ ?_ (h.responders i)
    · exact fun _ _ h => h
    intro g' u hg
    by_cases he : g' = g
    · subst he
      rw [txn] at hg
      cases hg
      exact ⟨t', by simp, hdigest, hended⟩
    · exact ⟨u, by simpa only [Function.update_of_ne he] using hg, rfl, fun _ h => h⟩

/-- A transaction in its next stage. -/
theorem Sound.advance (h : Sound submit w) (txn : w.transactions g = some t) {stage : ResponseStage}
    (hrunning : ∀ result, t.stage ≠ .ended result)
    (hagrees : stage.Agrees t.response (w.continuations g)) : Sound submit (w.advance g t stage) := by
  have := h.put txn { t with stage } rfl rfl rfl (fun result h => absurd h (hrunning result)) hagrees
  rwa [Function.update_eq_self] at this

/-- A transaction in its next stage, with its continuation moved. -/
theorem Sound.advance_move (h : Sound submit w) (txn : w.transactions g = some t) {stage : ResponseStage}
    {f : Continuation → Continuation} (hrunning : ∀ result, t.stage ≠ .ended result)
    (hagrees : stage.Agrees t.response (f (w.continuations g))) :
    Sound submit ((w.move g f).advance g t stage) :=
  h.put txn { t with stage } rfl rfl rfl (fun result h => absurd h (hrunning result)) hagrees

/-! ## Requests and transactions -/

/-- A new request. -/
theorem Sound.begin (h : Sound submit w) {turnId requestId : String} {request : InteractionRequest}
    {origin : InteractionOrigin} {now : Nat} {r : InteractionRecord}
    {events : List InteractionEventEnvelope}
    (result : w.record.begin turnId requestId request origin now = (.ok g, r, events)) :
    Sound submit { w with
      record := r
      continuations := Function.update w.continuations g .waiting
      requests := Function.update w.requests g (some ((turnId, requestId), request)) } := by
  obtain ⟨next, hpub, rfl, -, rfl⟩ := InteractionRecord.begin_ok result
  obtain ⟨snapshot, journal, rfl, -⟩ := InteractionRecord.publish_frame hpub
  have hfresh : w.requests w.record.nextGeneration = none := h.fresh _ le_rfl
  obtain ⟨htxn, -⟩ := h.unasked _ hfresh
  -- what has a request is of an earlier generation
  have hne : ∀ {g x}, w.requests g = some x → g ≠ w.record.nextGeneration := by
    rintro g x hx rfl
    rw [hfresh] at hx
    cases hx
  refine ⟨?_, ?_, ?_, ?_, ?_, ?_, ?_⟩
  · intro key state hk
    rcases KeyMap.get?_insert.mp hk with ⟨rfl, rfl⟩ | ⟨hk, -⟩
    · refine ⟨request, ?_, rfl, htxn, .inl ?_⟩
      · exact Function.update_self ..
      · exact Function.update_self ..
    · obtain ⟨q, hq, hs⟩ := h.entries key state hk
      refine ⟨q, by simpa only [Function.update_of_ne (hne hq)] using hq, ?_⟩
      cases state with
      | resolved digest generation typed => exact hs
      | pending entry =>
        have he : entry.generation ≠ w.record.nextGeneration := hne hq
        refine ⟨hs.1, hs.2.1, ?_⟩
        simpa only [Function.update_of_ne he] using hs.2.2
  · intro g hg
    have hg' : w.record.nextGeneration + 1 ≤ g := hg
    have hge : g ≠ w.record.nextGeneration := by omega
    simpa only [Function.update_of_ne hge] using h.fresh g (by omega)
  · intro g hg
    by_cases he : g = w.record.nextGeneration
    · subst he
      simp at hg
    · simp only [Function.update_of_ne he] at hg ⊢
      exact h.unasked g hg
  · intro g t hg
    obtain ⟨⟨q, hq, hv⟩, h2, h3, h4⟩ := h.backed g t hg
    refine ⟨⟨q, by simpa only [Function.update_of_ne (hne hq)] using hq, hv⟩, h2, h3, ?_⟩
    simpa only [Function.update_of_ne (hne hq)] using h4
  · intro g hg
    by_cases he : g = w.record.nextGeneration
    · subst he
      simp [Continuation.Unanswered]
    · simpa only [Function.update_of_ne he] using h.unanswered g hg
  · intro n hm
    obtain ⟨h1, h2, h3⟩ := h.notices n hm
    obtain ⟨x, hx⟩ := Option.ne_none_iff_exists'.mp h1
    refine ⟨by simpa only [Function.update_of_ne (hne hx)] using h1, h2, fun key entry hk => ?_⟩
    rcases KeyMap.get?_insert.mp hk with ⟨-, he⟩ | ⟨hk, -⟩
    · cases he
      exact (hne hx).symm
    · exact h3 key entry hk
  · intro i
    refine Knows.mono ?_ ?_ (h.responders i)
    · intro g x hx
      simpa only [Function.update_of_ne (hne hx)] using hx
    · exact fun _ t h => ⟨t, h, rfl, fun _ h => h⟩

/-- A response that is committed. -/
theorem Sound.lead [DecidableEq ρ] (h : Sound submit w) {request : InteractionRequest}
    {digest : BitVec 256} {entry : PendingEntry} {i : ρ}
    (busy : w.responders i = .validating entry.generation request digest)
    (valid : validateInteractionResponse request (submit i).params.response = .ok ())
    (hget : w.record.entries.get? (submit i).key = some (.pending entry))
    (alive : (w.continuations entry.generation).isClosed = false) :
    Sound submit ({ w with
      record := w.record.resolve (submit i).key digest entry
      transactions := Function.update w.transactions entry.generation (some
        { key := (submit i).key, digest, response := (submit i).params.response
          typedApproval := entry.typedApproval }) }.withResponder i (.leading entry.generation)) := by
  have hknows := h.responders i
  rw [busy] at hknows
  obtain ⟨hrequest, hdigest⟩ := hknows
  obtain ⟨q, hq, rfl, htxn, hcont⟩ := h.entries _ _ hget
  have hwaiting : w.continuations entry.generation = .waiting := by
    rcases hcont with hcont | hcont
    · exact hcont
    · rw [hcont] at alive
      cases alive
  have hne : ∀ {g t}, w.transactions g = some t → g ≠ entry.generation := by
    rintro g t ht rfl
    rw [htxn] at ht
    cases ht
  apply Sound.withResponder
  · refine ⟨?_, h.fresh, ?_, ?_, ?_, ?_, ?_⟩
    · intro key state hk
      rcases KeyMap.get?_insert.mp hk with ⟨rfl, rfl⟩ | ⟨hk, hkey⟩
      · exact ⟨entry.request, hq, _, Function.update_self .., rfl, rfl⟩
      · obtain ⟨q', hq', hs⟩ := h.entries key state hk
        have he : state.generation ≠ entry.generation := fun he => hkey (h.key_unique hk hget he)
        refine ⟨q', hq', ?_⟩
        cases state with
        | resolved digest' generation typed =>
          obtain ⟨t, h1, h2⟩ := hs
          exact ⟨t, by simpa only [Function.update_of_ne (hne h1)] using h1, h2⟩
        | pending entry' =>
          refine ⟨hs.1, ?_, hs.2.2⟩
          have he' : entry'.generation ≠ entry.generation := he
          simpa only [Function.update_of_ne he'] using hs.2.1
    · intro g hg
      have he : g ≠ entry.generation := by
        rintro rfl
        rw [show w.requests entry.generation = none from hg] at hrequest
        cases hrequest
      simpa only [Function.update_of_ne he] using h.unasked g hg
    · intro g t hg
      by_cases he : g = entry.generation
      · subst he
        simp only [Function.update_self, Option.some.injEq] at hg
        subst hg
        exact ⟨⟨request, hrequest, valid⟩, ⟨i, rfl, rfl⟩, hdigest, .inr hwaiting⟩
      · simp only [Function.update_of_ne he] at hg
        obtain ⟨h1, h2, h3, h4⟩ := h.backed g t hg
        exact ⟨h1, h2, h3, h4⟩
    · intro g hg
      by_cases he : g = entry.generation
      · subst he
        simp at hg
      · simp only [Function.update_of_ne he] at hg
        exact h.unanswered g hg
    · intro n hm
      obtain ⟨h1, h2, h3⟩ := h.notices n hm
      refine ⟨h1, ?_, fun key entry' hk => ?_⟩
      · simpa only [Function.update_of_ne (h3 _ _ hget).symm] using h2
      · rcases KeyMap.get?_insert.mp hk with ⟨-, he⟩ | ⟨hk, -⟩
        · cases he
        · exact h3 key entry' hk
    · intro j
      refine Knows.mono ?_ ?_ (h.responders j)
      · exact fun _ _ h => h
      · intro g t ht
        exact ⟨t, by simpa only [Function.update_of_ne (hne ht)] using ht, rfl, fun _ h => h⟩
  · exact ⟨_, Function.update_self .., hdigest, trivial⟩

/-! ## Steps -/

/-- What a responder finds under the lock. -/
theorem Sound.knows_first (h : Sound submit w) (i : ρ) :
    Knows submit w i (.first w.registered w.record (submit i)) := by
  unfold Responder.first
  cases hf : Responder.firstPhase w.registered w.record (submit i) with
  | error failure => exact ⟨failure, rfl⟩
  | ok found =>
    unfold Responder.firstPhase at hf
    obtain ⟨_, -, hf⟩ := bind_ok hf
    obtain ⟨digest, hdigest, hf⟩ := bind_ok hf
    obtain ⟨-, hf⟩ := refuse_bind_ok hf
    obtain ⟨found', hfound, hf⟩ := bind_ok hf
    cases hf
    have hdigest := mapError_ok_iff.mp hdigest
    cases found' with
    | same generation =>
      obtain ⟨typed, hget⟩ := InteractionRecord.find_same hfound
      obtain ⟨q, -, t, ht, -, hd⟩ := h.entries _ _ hget
      exact ⟨t, ht, hd ▸ hdigest, trivial⟩
    | «open» entry =>
      obtain ⟨q, hq, rfl, -⟩ := h.entries _ _ (InteractionRecord.find_open hfound)
      exact ⟨hq, hdigest⟩

theorem Sound.knows_second (h : Sound submit w) {i : ρ} {request : InteractionRequest}
    {digest : BitVec 256} {next : Responder} (busy : w.responders i = .validating g request digest)
    (found : Responder.second w.record (submit i) g digest = some next) : Knows submit w i next := by
  have hknows := h.responders i
  rw [busy] at hknows
  unfold Responder.second at found
  split at found
  · cases found
    exact ⟨_, rfl⟩
  · rename_i hfound
    cases found
    obtain ⟨typed, hget⟩ := InteractionRecord.find_same hfound
    obtain ⟨q, -, t, ht, -, hd⟩ := h.entries _ _ hget
    exact ⟨t, ht, hd ▸ hknows.2, trivial⟩
  · split at found
    · cases found
    · cases found
      exact ⟨_, rfl⟩

/-- The requests that a cleanup takes away leave their senders. -/
theorem Sound.loose (h : Sound submit w) {r : InteractionRecord} (hr : w.record.Shrinks r)
    {key : InteractionKey} {entry : PendingEntry}
    (hget : w.record.entries.get? key = some (.pending entry)) (hgone : r.entries.get? key = none) :
    ({ w with record := r } : Interactions ρ).Loose entry.generation := by
  obtain ⟨q, hq, -, htxn, -⟩ := h.entries _ _ hget
  refine ⟨?_, htxn, fun key' entry' hk he => ?_⟩
  · show w.requests entry.generation ≠ none
    rw [show w.requests entry.generation = _ from hq]
    simp
  · have hkey : key' = key := h.key_unique (hr.entries _ _ hk) hget he
    rw [hkey] at hk
    rw [show r.entries.get? key = none from hgone] at hk
    cases hk

variable [DecidableEq ρ] {w' : Interactions ρ} {l : Label}

/-- Every step keeps the invariant. -/
theorem Sound.step (h : Sound submit w) (hs : Step submit w l w') : Sound submit w' := by
  -- a transaction before its end, and the continuation that agrees with it
  have hagrees : ∀ {g t}, w.transactions g = some t → t.stage.Agrees t.response (w.continuations g) :=
    fun txn => (h.backed _ _ txn).agrees
  cases hs with
  | begin turnId requestId request origin now result => exact h.begin result
  | beginFailed turnId requestId request origin now result =>
    obtain ⟨-, rfl | rfl⟩ := InteractionRecord.begin_error result
    · exact h
    · have hshrink : w.record.Shrinks
          { w.record with nextGeneration := w.record.nextGeneration + 1 } :=
        ⟨fun _ _ h => h, Nat.le_succ _, rfl, le_rfl⟩
      exact h.shrink hshrink w.registered fun n hn => .inl hn
  | register turnId identity result =>
    exact h.shrink (InteractionRecord.shrinks_registerRun result) w.registered fun n hn => .inl hn
  | unregister turnId identity =>
    exact h.shrink (InteractionRecord.shrinks_unregisterRun turnId identity) w.registered fun n hn => .inl hn
  | retire turnId identity =>
    exact h.shrink (InteractionRecord.shrinks_retireRun turnId identity) w.registered fun n hn => .inl hn
  | clearRun turnId cause keys unresolved collected result =>
    obtain ⟨hshrink, hgone⟩ := InteractionRecord.clearKeys_shrinks result
    refine h.shrink hshrink w.registered fun n hn => ?_
    rcases List.mem_append.mp hn with hn | hn
    · exact .inl hn
    · obtain ⟨g, hg, rfl⟩ := List.mem_map.mp hn
      obtain ⟨key, entry, hget, rfl, hnone⟩ := hgone g hg
      exact .inr (h.loose hshrink hget hnone)
  | clearExact key generation cause now unresolved result =>
    obtain ⟨rfl, rfl, -⟩ | ⟨entry, rfl, hget, rfl, hpub⟩ := InteractionRecord.clearExact_cases result
    · refine h.shrink (.refl _) w.registered fun n hn => .inl ?_
      simpa [cancelledNotices] using hn
    · have herased := InteractionRecord.shrinks_publishOr hpub
      refine h.shrink herased.of_erase w.registered fun n hn => ?_
      rcases List.mem_append.mp hn with hn | hn
      · exact .inl hn
      · rw [List.mem_singleton.mp hn]
        refine .inr (h.loose herased.of_erase hget ?_)
        cases hk : (_ : InteractionRecord).entries.get? key with
        | none => rfl
        | some state => exact absurd rfl (KeyMap.get?_erase.mp (herased.entries key state hk)).2
  | close => exact h.shrink (.refl _) false fun n hn => .inl hn
  | discard closed unused =>
    have hempty : w.record.Shrinks { w.record with entries := .empty } :=
      ⟨fun _ _ hk => absurd hk (by simp), le_rfl, rfl, le_rfl⟩
    refine h.shrink hempty w.registered fun n hn => ?_
    rcases List.mem_append.mp hn with hn | hn
    · exact .inl hn
    · obtain ⟨⟨key, state⟩, hmem, hstate⟩ := List.mem_filterMap.mp hn
      cases state with
      | resolved digest generation typed => cases hstate
      | pending entry =>
        cases hstate
        exact .inr (h.loose hempty (KeyMap.get?_eq_some_iff.mpr hmem) rfl)
  | @notify before after g e queued =>
    obtain ⟨hasked, htxn, hfree⟩ := h.notices (g, e) (by rw [queued]; simp)
    have hless : Sound submit { w with notices := before ++ after } := by
      refine h.shrink (.refl _) w.registered fun n hn => .inl ?_
      rw [queued]
      simp only [List.mem_append, List.mem_cons] at hn ⊢
      tauto
    refine hless.move (fun hg => absurd hg hasked) ?_ ?_ fun ht => (h.unanswered g ht).fail e
    · exact fun key entry hget he => absurd he (hfree key entry hget)
    · intro t ht
      rw [show w.transactions g = none from htxn] at ht
      cases ht
  | dropTicket g =>
    refine h.move ?_ ?_ (fun t ht => (hagrees ht).drop) fun ht => (h.unanswered g ht).drop
    · intro hg
      rw [(h.unasked g hg).2]
      rfl
    · rintro key entry hget rfl
      obtain ⟨q, -, -, -, hc | hc⟩ := h.entries _ _ hget
      · exact .inr (by rw [hc]; rfl)
      · exact .inr (by rw [hc]; rfl)
  | poll g ready =>
    refine h.move ?_ ?_ ?_ ?_
    · intro hg
      rw [(h.unasked g hg).2] at ready
      cases ready
    · rintro key entry hget rfl
      obtain ⟨q, -, -, -, hc | hc⟩ := h.entries _ _ hget
      · rw [hc] at ready
        cases ready
      · rw [hc] at ready
        cases ready
    · intro t ht
      have := hagrees ht
      rw [ready] at this
      exact this.poll
    · intro ht
      have := h.unanswered g ht
      rw [ready] at this
      exact this.poll
  | first i idle => exact h.withResponder (h.knows_first i)
  | invalid i busy refused => exact h.withResponder ⟨_, rfl⟩
  | second i busy valid found => exact h.withResponder (h.knows_second busy found)
  | removeClosed i now busy valid found closed result =>
    have := h.shrink (InteractionRecord.shrinks_removeClosed result)
      w.registered fun n hn => .inl hn
    exact this.withResponder ⟨_, rfl⟩
  | lead i busy valid found alive => exact h.lead busy valid (InteractionRecord.find_open found) alive
  | stage g txn stage alive =>
    exact h.advance_move txn (by simp [stage]) (.inr rfl)
  | gone g txn stage closed =>
    exact h.advance txn (by rcases stage with hs | hs <;> simp [hs]) (.of_closed closed)
  | unprojected g error txn stage typed =>
    exact h.advance txn (by simp [stage]) ((hagrees txn).abort (by simp [stage]) _ _)
  | check g txn stage alive =>
    have := hagrees txn
    rw [stage] at this
    exact h.advance txn (by simp [stage]) this
  | publish g now txn stage result =>
    have := h.shrink (InteractionRecord.shrinks_publishResolvedExact result)
      w.registered fun n hn => .inl hn
    have hagree := hagrees txn
    rw [stage] at hagree
    exact this.advance txn (by simp [stage]) hagree
  | unpublished g now error txn stage result =>
    exact h.advance txn (by simp [stage]) ((hagrees txn).abort (by simp [stage]) _ _)
  | acknowledge g txn stage =>
    refine h.advance_move txn (by simp [stage]) ?_
    have := hagrees txn
    rw [stage] at this
    rcases this with hc | hc
    · exact .inl (by rw [hc]; rfl)
    · exact .inr (.inl (by rw [hc]; rfl))
  | complete g txn stage =>
    have := hagrees txn
    rw [stage] at this
    exact h.advance txn (by simp [stage]) this
  | @dropLeader t next i g leading txn stage answer =>
    have hdrop := ResponseStage.droppable_iff.mp stage
    have hnext : Knows submit w i next := by
      rcases answer with rfl | ⟨message, rfl⟩
      · trivial
      · exact ⟨_, rfl⟩
    refine (h.withResponder hnext).advance txn ?_ ((hagrees txn).abort (by tauto) _ _)
    rcases hdrop with hs | hs <;> simp [hs]
  | dropDelegated g txn stage delegated =>
    have hdrop := ResponseStage.droppable_iff.mp stage
    refine h.advance txn ?_ ((hagrees txn).abort (by tauto) _ _)
    rcases hdrop with hs | hs <;> simp [hs]
  | abort g now txn stage result =>
    have := h.shrink (InteractionRecord.shrinks_abortResolvedExact result)
      w.registered fun n hn => .inl hn
    have hagree := hagrees txn
    rw [stage] at hagree
    exact this.advance txn (by simp [stage]) hagree
  | abortMissing g txn stage closed =>
    have hagree := hagrees txn
    rw [stage] at hagree
    exact h.advance txn (by simp [stage]) hagree
  | inform g txn stage =>
    refine h.advance_move txn (by simp [stage]) ?_
    have := hagrees txn
    rw [stage] at this
    rcases this with hc | hc | hc
    · exact .inl (by rw [hc]; rfl)
    · exact .inr (.inl (by rw [hc]; rfl))
    · exact .inr (.inl (by rw [hc]; rfl))
  | giveUp g txn stage =>
    have hagree := hagrees txn
    rw [stage] at hagree
    exact h.advance txn (by simp [stage]) hagree
  | @delegate t i g leading core txn stage typed =>
    have hk := h.responders i
    rw [leading] at hk
    have hreleased : Sound submit (w.withResponder i (.released g)) := h.withResponder hk
    have hagree : t.stage.Agrees t.response (w.continuations g) := hagrees txn
    have hput := hreleased.put txn { t with delegated := true } rfl rfl rfl (fun _ h => h) hagree
    rwa [show Function.update (w.withResponder i (.released g)).continuations g (w.continuations g) =
      (w.withResponder i (.released g)).continuations from Function.update_eq_self ..] at hput
  | release i g following core =>
    have := h.responders i
    rw [following] at this
    exact h.withResponder this
  | answer i g waits txn stage =>
    have hk : Submitted submit w i g fun _ => True := by
      have := h.responders i
      rcases waits with hw | ⟨hw, -⟩
      · rw [hw] at this
        exact this
      · rw [hw] at this
        exact this
    obtain ⟨t', ht', hd, -⟩ := hk
    rw [txn] at ht'
    cases ht'
    exact h.withResponder ⟨_, txn, hd, stage⟩
  | leave i g following => exact h.withResponder trivial

/-! ## Runs -/

/-- The session of a new record. -/
def start (r : InteractionRecord) : Interactions ρ := { record := r }

omit [InteractionHost] [DecidableEq ρ] in
theorem new_entries {threadId streamId : String} {enabled : Bool} {limits : EventJournalLimits}
    {r : InteractionRecord} (h : InteractionRecord.new threadId streamId enabled limits = .ok r) :
    r.entries = .empty := by
  obtain ⟨_, -, h⟩ := bind_ok h
  cases h
  rfl

omit [DecidableEq ρ] in
theorem sound_start {r : InteractionRecord} (h : r.entries = .empty) :
    Sound submit (start r : Interactions ρ) where
  entries key state hk := by
    rw [show (start r : Interactions ρ).record.entries = .empty from h] at hk
    cases hk
  fresh _ _ := rfl
  unasked _ _ := ⟨rfl, rfl⟩
  backed _ _ h := by cases h
  unanswered _ _ := trivial
  notices _ h := by cases h
  responders _ := trivial

/-- The invariant holds wherever a session gets. -/
theorem Sound.run {es : List Label} (h : Sound submit w) (hrun : Lts.Run (Step submit) w es w') :
    Sound submit w' :=
  hrun.invariant (Sound submit) (fun _ _ _ h hs => h.step hs) h

end

end Interactions

end Whale
