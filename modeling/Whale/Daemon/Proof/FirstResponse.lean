import Whale.Daemon.Proof.Responses

/-!
# The first valid response wins

A transaction moves through its stages in one order (`ResponseStage.Next`, `Step.transaction_cases`), so
it publishes its resolution at most once, and never after it failed. A continuation that has resumed is
not touched again, and what it resumed with is what the stage of its transaction says.
-/

namespace Whale

open Check

namespace ResponseStage

/-- The stages after a stage. -/
def Next : ResponseStage → ResponseStage → Prop
  | committed, s => s = committed ∨ s = staged ∨ ∃ cause failure, cause ≠ .resolved ∧ s = aborting cause failure
  | staged, s => s = checked ∨ ∃ cause failure, cause ≠ .resolved ∧ s = aborting cause failure
  | checked, s => s = published ∨ ∃ cause failure, cause ≠ .resolved ∧ s = aborting cause failure
  | published, s => s = acknowledged
  | acknowledged, s => s = ended (.ok ())
  | aborting _ failure, s => s = aborted failure
  | aborted failure, s => s = notified failure
  | notified failure, s => s = ended (.error failure)
  | ended _, _ => False

/-- The resolution was published. -/
def isResolved : ResponseStage → Bool
  | published | acknowledged | ended (.ok _) => true
  | _ => false

/-- The transaction was aborted or dropped, or is going to be. -/
def isFailing : ResponseStage → Bool
  | aborting .. | aborted _ | notified _ | ended (.error _) => true
  | _ => false

/-- A failing transaction fails to its end. -/
theorem Next.isFailing {s s' : ResponseStage} (h : s.Next s') (hs : s.isFailing = true) :
    s'.isFailing = true := by
  cases s with
  | committed | staged | checked | published | acknowledged => cases hs
  | aborting cause failure | aborted failure | notified failure =>
    rw [show s' = _ from h]
    rfl
  | ended result => exact h.elim

/-- Only a publication resolves. -/
theorem Next.isResolved {s s' : ResponseStage} (h : s.Next s') :
    s'.isResolved = true ↔ s.isResolved = true ∨ (s = .checked ∧ s' = .published) := by
  cases s with
  | committed =>
    obtain rfl | rfl | ⟨cause, failure, -, rfl⟩ := h <;> simp [ResponseStage.isResolved]
  | staged => obtain rfl | ⟨cause, failure, -, rfl⟩ := h <;> simp [ResponseStage.isResolved]
  | checked => obtain rfl | ⟨cause, failure, -, rfl⟩ := h <;> simp [ResponseStage.isResolved]
  | published | acknowledged | aborting | aborted | notified =>
    rw [show s' = _ from h]
    simp [ResponseStage.isResolved]
  | ended result => exact h.elim

end ResponseStage

/-- A transaction after a step of its own. -/
structure ResponseCommit.Moves (t t' : ResponseCommit) : Prop where
  key : t'.key = t.key
  digest : t'.digest = t.digest
  response : t'.response = t.response
  stage : t.stage.Next t'.stage

namespace Interactions

variable {ρ : Type} [DecidableEq ρ] [External] [InteractionHost] {submit : ρ → ResponseSubmission}
  {w w' : Interactions ρ} {l : Label} {g : Nat}

omit [DecidableEq ρ] [External] [InteractionHost] in
theorem moves_advance {t : ResponseCommit} {stage : ResponseStage} (g' : Nat)
    (txn : w.transactions g = some t) (h : t.stage.Next stage) :
    (w.advance g t stage).transactions g' = w.transactions g' ∨
      ∃ t₁ t₂, w.transactions g' = some t₁ ∧ (w.advance g t stage).transactions g' = some t₂ ∧
        t₁.Moves t₂ ∧ g' = g ∧ t₂.stage = stage := by
  by_cases hg : g' = g
  · subst hg
    exact .inr ⟨t, { t with stage }, txn, Function.update_self .., ⟨rfl, rfl, rfl, h⟩, rfl, rfl⟩
  · exact .inl (Function.update_of_ne hg ..)

/-- What a step does to a transaction: nothing, its commit, or its next stage. -/
def Transacts (w : Interactions ρ) (l : Label) (w' : Interactions ρ) (g : Nat) : Prop :=
  (w'.transactions g = w.transactions g ∧ l.resolution ≠ some g) ∨
  (w.transactions g = none ∧ (∃ t, w'.transactions g = some t ∧ t.stage = .committed) ∧
    l.resolution ≠ some g) ∨
  ∃ t t', w.transactions g = some t ∧ w'.transactions g = some t' ∧ t.Moves t' ∧
    (l.resolution = some g ↔ t'.stage = .published)

omit [DecidableEq ρ] [External] [InteractionHost] in
/-- A transaction is moved, to a stage that is not published. -/
theorem transacts_advance {v : Interactions ρ} {t : ResponseCommit} {stage : ResponseStage}
    (hv : v.transactions = w.transactions) (txn : w.transactions g = some t)
    (hnext : t.stage.Next stage) (hne : stage ≠ .published) (hl : l.resolution = none) (g' : Nat) :
    Transacts w l (v.advance g t stage) g' := by
  rw [← hv] at txn
  obtain heq | ⟨t₁, t₂, h1, h2, h3, -, h5⟩ := moves_advance g' txn hnext
  · exact .inl ⟨heq.trans (by rw [hv]), by simp [hl]⟩
  · rw [hv] at h1
    exact .inr (.inr ⟨t₁, t₂, h1, h2, h3, by simp [hl, h5, hne]⟩)

theorem Step.transaction_cases (h : Sound submit w) (hs : Step submit w l w') (g : Nat) :
    Transacts w l w' g := by
  cases hs with
  | lead i busy valid found alive =>
    rename_i entry
    obtain ⟨q, -, -, hnone, -⟩ := h.entries _ _ (InteractionRecord.find_open found)
    by_cases hg : g = entry.generation
    · subst hg
      exact .inr (.inl ⟨hnone, ⟨_, Function.update_self .., rfl⟩, nofun⟩)
    · exact .inl ⟨Function.update_of_ne hg .., nofun⟩
  | stage g₁ txn stage alive =>
    exact transacts_advance rfl txn (by simp [stage, ResponseStage.Next]) (by simp) rfl g
  | gone g₁ txn stage closed =>
    refine transacts_advance rfl txn ?_ (by simp) rfl g
    rcases stage with hs | hs <;> simp [hs, ResponseStage.Next]
  | unprojected g₁ error txn stage typed =>
    exact transacts_advance rfl txn (by simp [stage, ResponseStage.Next]) (by simp) rfl g
  | check g₁ txn stage alive =>
    exact transacts_advance rfl txn (by simp [stage, ResponseStage.Next]) (by simp) rfl g
  | @publish t r events g₁ now txn stage result =>
    by_cases hg : g = g₁
    · subst hg
      refine .inr (.inr ⟨t, { t with stage := .published }, txn, Function.update_self .., ⟨rfl, rfl, rfl, ?_⟩,
        by simp [Label.resolution]⟩)
      simp [stage, ResponseStage.Next]
    · exact .inl ⟨Function.update_of_ne hg .., by simpa [Label.resolution] using Ne.symm hg⟩
  | unpublished g₁ now error txn stage result =>
    exact transacts_advance rfl txn (by simp [stage, ResponseStage.Next]) (by simp) rfl g
  | acknowledge g₁ txn stage =>
    exact transacts_advance rfl txn (by simp [stage, ResponseStage.Next]) (by simp) rfl g
  | complete g₁ txn stage =>
    exact transacts_advance rfl txn (by simp [stage, ResponseStage.Next]) (by simp) rfl g
  | dropLeader i g₁ leading txn stage answer =>
    refine transacts_advance rfl txn ?_ (by simp) rfl g
    rcases ResponseStage.droppable_iff.mp stage with hs | hs <;> simp [hs, ResponseStage.Next]
  | dropDelegated g₁ txn stage delegated =>
    refine transacts_advance rfl txn ?_ (by simp) rfl g
    rcases ResponseStage.droppable_iff.mp stage with hs | hs <;> simp [hs, ResponseStage.Next]
  | abort g₁ now txn stage result =>
    exact transacts_advance rfl txn (by simp [stage, ResponseStage.Next]) (by simp) rfl g
  | abortMissing g₁ txn stage closed =>
    exact transacts_advance rfl txn (by simp [stage, ResponseStage.Next]) (by simp) rfl g
  | inform g₁ txn stage =>
    exact transacts_advance rfl txn (by simp [stage, ResponseStage.Next]) (by simp) rfl g
  | giveUp g₁ txn stage =>
    exact transacts_advance rfl txn (by simp [stage, ResponseStage.Next]) (by simp) rfl g
  | @delegate t i g₁ leading core txn stage typed =>
    by_cases hg : g = g₁
    · subst hg
      refine .inr (.inr ⟨t, _, txn, Function.update_self .., ⟨rfl, rfl, rfl, ?_⟩, ?_⟩)
      · simp [stage, ResponseStage.Next]
      · simp [Label.resolution, stage]
    · exact .inl ⟨Function.update_of_ne hg .., nofun⟩
  | _ => exact .inl ⟨rfl, nofun⟩

/-! ## Resolutions -/

/-- The transactions that published their resolution in a run. -/
def resolutions (es : List Label) : List Nat := es.filterMap Label.resolution

/-- How often a transaction has published. -/
def resolutionCount (w : Interactions ρ) (g : Nat) : Nat :=
  match w.transactions g with
  | some t => if t.stage.isResolved then 1 else 0
  | none => 0

theorem Step.resolutionCount (h : Sound submit w) (hs : Step submit w l w') (g : Nat) :
    w'.resolutionCount g = w.resolutionCount g + if l.resolution = some g then 1 else 0 := by
  unfold Interactions.resolutionCount
  obtain ⟨heq, hl⟩ | ⟨hnone, ⟨t, ht, hstage⟩, hl⟩ | ⟨t, t', ht, ht', hmove, hl⟩ :=
    hs.transaction_cases h g
  · rw [heq, if_neg hl]
    rfl
  · rw [hnone, ht, if_neg hl]
    simp [hstage, ResponseStage.isResolved]
  · rw [ht, ht']
    simp only
    have hres := hmove.stage.isResolved
    by_cases hpub : t'.stage = .published
    · -- the only way to a publication is from the check
      have hchecked : t.stage = .checked := by
        have := hmove.stage
        rw [hpub] at this
        cases hstage : t.stage <;> simp_all [ResponseStage.Next]
      rw [if_pos (hl.mpr hpub), hpub, hchecked]
      rfl
    · rw [if_neg (mt hl.mp hpub)]
      have : t'.stage.isResolved = t.stage.isResolved := by
        rw [Bool.eq_iff_iff, hres]
        simp [hpub]
      rw [this]
      rfl

/-- A transaction publishes once if its stage says so, and otherwise never. -/
theorem count_resolutions {es : List Label} (h : Sound submit w)
    (hrun : Lts.Run (Step submit) w es w') (g : Nat) :
    w'.resolutionCount g = w.resolutionCount g + (resolutions es).count g := by
  induction hrun with
  | nil => rfl
  | @cons s t u e es hs _ ih =>
    rw [ih (h.step hs), hs.resolutionCount h g]
    unfold resolutions
    rw [List.filterMap_cons]
    cases he : e.resolution with
    | none => simp
    | some g' =>
      rw [List.count_cons]
      by_cases hg : g' = g
      · simp [hg]
        omega
      · simp [hg]

/-! ## Continuations that have resumed -/

theorem Step.resumed (h : Sound submit w) (hs : Step submit w l w')
    {result : Except InteractionError Value} (hr : w.continuations g = .resumed result) :
    w'.continuations g = .resumed result := by
  -- moving a continuation keeps one that has resumed
  have hmove : ∀ {v : Interactions ρ} {f : Continuation → Continuation} (g' : Nat),
      v.continuations = w.continuations →
      (w.continuations g' = .resumed result → f (.resumed result) = .resumed result) →
      (v.move g' f).continuations g = .resumed result := by
    intro v f g' hv hf
    by_cases hg : g = g'
    · subst hg
      simp only [Interactions.move, Function.update_self, hv, hr, hf hr]
    · simp only [Interactions.move, Function.update_of_ne hg, hv, hr]
  cases hs with
  | begin turnId requestId request origin now hbegin =>
    obtain ⟨next, -, rfl, -, -⟩ := InteractionRecord.begin_ok hbegin
    have hg : g ≠ w.record.nextGeneration := by
      rintro rfl
      rw [(h.unasked _ (h.fresh _ le_rfl)).2] at hr
      cases hr
    simpa only [Function.update_of_ne hg] using hr
  | notify g' e queued => exact hmove g' rfl fun _ => rfl
  | dropTicket g' => exact hmove g' rfl fun _ => rfl
  | poll g' ready =>
    refine hmove g' rfl fun hr => ?_
    rw [hr] at ready
    cases ready
  | @stage t g' txn stage alive =>
    refine hmove (f := fun _ => .delivered t.response) g' rfl fun hr => ?_
    have := (h.backed _ _ txn).agrees
    rw [stage, hr] at this
    rcases this with hc | hc <;> cases hc
  | acknowledge g' txn stage => exact hmove g' rfl fun _ => rfl
  | inform g' txn stage => exact hmove g' rfl fun _ => rfl
  | _ => exact hr

/-- A continuation resumes once. -/
theorem resumed_run {es : List Label} (h : Sound submit w) (hrun : Lts.Run (Step submit) w es w')
    {result : Except InteractionError Value} (hr : w.continuations g = .resumed result) :
    w'.continuations g = .resumed result := by
  induction hrun with
  | nil => exact hr
  | cons hs _ ih => exact ih (h.step hs) (hs.resumed h hr)

/-- A failing transaction fails to its end. -/
theorem failing_run {es : List Label} (h : Sound submit w) (hrun : Lts.Run (Step submit) w es w')
    {t : ResponseCommit} (ht : w.transactions g = some t) (hf : t.stage.isFailing = true) :
    ∃ t', w'.transactions g = some t' ∧ t'.stage.isFailing = true := by
  induction hrun generalizing t with
  | nil => exact ⟨t, ht, hf⟩
  | cons hs _ ih =>
    obtain ⟨heq, -⟩ | ⟨hnone, -⟩ | ⟨t₁, t₂, ht₁, ht₂, hmove, -⟩ := hs.transaction_cases h g
    · exact ih (h.step hs) (heq ▸ ht) hf
    · rw [hnone] at ht
      cases ht
    · rw [ht] at ht₁
      cases ht₁
      exact ih (h.step hs) ht₂ (hmove.stage.isFailing hf)

/-- A transaction keeps its request and its response. -/
theorem transaction_run {es : List Label} (h : Sound submit w) (hrun : Lts.Run (Step submit) w es w')
    {t : ResponseCommit} (ht : w.transactions g = some t) :
    ∃ t', w'.transactions g = some t' ∧ t'.key = t.key ∧ t'.response = t.response := by
  induction hrun generalizing t with
  | nil => exact ⟨t, ht, rfl, rfl⟩
  | cons hs _ ih =>
    obtain ⟨heq, -⟩ | ⟨hnone, -⟩ | ⟨t₁, t₂, ht₁, ht₂, hmove, -⟩ := hs.transaction_cases h g
    · exact ih (h.step hs) (heq ▸ ht)
    · rw [hnone] at ht
      cases ht
    · rw [ht] at ht₁
      cases ht₁
      obtain ⟨t', ht', hk, hr⟩ := ih (h.step hs) ht₂
      exact ⟨t', ht', hk.trans hmove.key, hr.trans hmove.response⟩

/-! ## The events of resolutions -/

theorem Step.enabled (hs : Step submit w l w') : w'.record.enabled = w.record.enabled := by
  cases hs with
  | begin turnId requestId request origin now result =>
    obtain ⟨next, hpub, -, -, rfl⟩ := InteractionRecord.begin_ok result
    obtain ⟨snapshot, journal, rfl, -⟩ := InteractionRecord.publish_frame hpub
    rfl
  | beginFailed turnId requestId request origin now result =>
    obtain ⟨-, rfl | rfl⟩ := InteractionRecord.begin_error result <;> rfl
  | register turnId identity result => exact (InteractionRecord.shrinks_registerRun result).enabled
  | unregister turnId identity =>
    exact (InteractionRecord.shrinks_unregisterRun turnId identity).enabled
  | retire turnId identity => exact (InteractionRecord.shrinks_retireRun turnId identity).enabled
  | clearRun turnId cause keys unresolved collected result =>
    exact (InteractionRecord.clearKeys_shrinks result).1.enabled
  | clearExact key generation cause now unresolved result =>
    exact (InteractionRecord.shrinks_clearExact result).enabled
  | removeClosed i now busy valid found closed result =>
    exact (InteractionRecord.shrinks_removeClosed result).enabled
  | publish g now txn stage result =>
    exact (InteractionRecord.shrinks_publishResolvedExact result).enabled
  | abort g now txn stage result => exact (InteractionRecord.shrinks_abortResolvedExact result).enabled
  | _ => rfl

/-- No abort gives `resolved` for its cause. -/
def Aborts (w : Interactions ρ) : Prop :=
  ∀ g t cause failure, w.transactions g = some t → t.stage = .aborting cause failure → cause ≠ .resolved

theorem Step.aborts (h : Sound submit w) (hs : Step submit w l w') (ha : w.Aborts) : w'.Aborts := by
  intro g t cause failure ht hstage
  obtain ⟨heq, -⟩ | ⟨-, ⟨t', ht', hcommitted⟩, -⟩ | ⟨t₁, t₂, -, ht₂, hmove, -⟩ :=
    hs.transaction_cases h g
  · exact ha g t cause failure (heq ▸ ht) hstage
  · rw [ht] at ht'
    cases ht'
    rw [hcommitted] at hstage
    cases hstage
  · rw [ht] at ht₂
    cases ht₂
    have hnext := hmove.stage
    rw [hstage] at hnext
    cases hs₁ : t₁.stage with
    | committed | staged | checked =>
      rw [hs₁] at hnext
      simp only [ResponseStage.Next, reduceCtorEq, false_or, ResponseStage.aborting.injEq] at hnext
      obtain ⟨_, _, hne, rfl, rfl⟩ := hnext
      exact hne
    | published | acknowledged | aborting | aborted | notified | ended =>
      rw [hs₁] at hnext
      cases hnext

/-- An event with the cause `resolved` is the publication of a transaction. -/
theorem Step.of_resolved_event (ha : w.Aborts) (hs : Step submit w l w')
    {e : InteractionEventEnvelope} (he : e ∈ l.events) {requestId turnId : String}
    (hp : e.payload = .removed requestId turnId InteractionRemoval.resolved.text) :
    ∃ g t, l = .resolved g [e] ∧ w.transactions g = some t ∧ t.key = (turnId, requestId) := by
  -- the other causes have other texts
  have hcause : ∀ {key : InteractionKey} {cause : InteractionRemoval}, cause ≠ .resolved →
      e.payload ≠ .removed key.2 key.1 cause.text := by
    intro key cause hne heq
    rw [hp, InteractionEventPayload.removed.injEq] at heq
    exact hne (InteractionRemoval.text_injective heq.2.2).symm
  cases hs with
  | begin t r q o n result =>
    obtain ⟨next, hpub, -⟩ := InteractionRecord.begin_ok result
    obtain ⟨-, e', rfl, he'⟩ | ⟨-, rfl⟩ := InteractionRecord.publish_events hpub
    · rw [List.mem_singleton.mp he, he'] at hp
      cases hp
    · cases he
  | beginFailed t r q o n result =>
    obtain ⟨rfl, -⟩ := InteractionRecord.begin_error result
    cases he
  | clearRun turnId cause keys unresolved collected result =>
    obtain ⟨key, hkey⟩ := InteractionRecord.clearKeys_events result e he
    exact absurd hkey (hcause unresolved)
  | clearExact key generation cause now unresolved result =>
    obtain ⟨-, -, rfl⟩ | ⟨entry, -, -, -, hpub⟩ := InteractionRecord.clearExact_cases result
    · cases he
    · exact absurd (InteractionRecord.publishOr_payload hpub he) (hcause unresolved)
  | removeClosed i now busy valid found closed result =>
    exact absurd (InteractionRecord.removeClosed_payload result he) (hcause nofun)
  | @publish t r events g now txn stage result =>
    obtain ⟨-, e', hevents, he'⟩ | ⟨-, rfl⟩ :=
      InteractionRecord.publish_events (InteractionRecord.publishResolvedExact_ok result).2
    · subst hevents
      rw [List.mem_singleton.mp he] at hp ⊢
      rw [he'] at hp
      cases hp
      exact ⟨g, t, rfl, txn, rfl⟩
    · cases he
  | abort g now txn stage result =>
    exact absurd (InteractionRecord.abortResolvedExact_payload result he)
      (hcause (ha _ _ _ _ txn stage))
  | _ => cases he

/-- The resolution of a transaction is its event. -/
theorem Step.resolved_event {events : List InteractionEventEnvelope}
    (hs : Step submit w (.resolved g events) w') (henabled : w.record.enabled = true) :
    ∃ e t, events = [e] ∧ w.transactions g = some t ∧
      e.payload = .removed t.key.2 t.key.1 InteractionRemoval.resolved.text := by
  cases hs with
  | @publish t r _ _ now txn stage result =>
    obtain ⟨-, e, rfl, he⟩ | ⟨hdisabled, -⟩ :=
      InteractionRecord.publish_events (InteractionRecord.publishResolvedExact_ok result).2
    · exact ⟨e, t, rfl, txn, he⟩
    · rw [henabled] at hdisabled
      cases hdisabled

/-! ## Responders -/

/-- `HMAC-SHA256` is collision free on what the responders submit. -/
def CollisionFree (submit : ρ → ResponseSubmission) : Prop :=
  ∀ i j digest, responseDigest (submit i).params.response = .ok digest →
    responseDigest (submit j).params.response = .ok digest →
    canonicalJson (submit i).params.response = canonicalJson (submit j).params.response

omit [DecidableEq ρ] in
/-- A responder with the digest of a transaction submitted its response. -/
theorem Sound.canonical (h : Sound submit w) (hfree : CollisionFree submit) {t : ResponseCommit} {i : ρ}
    (ht : w.transactions g = some t) (hd : responseDigest (submit i).params.response = .ok t.digest) :
    canonicalJson (submit i).params.response = canonicalJson t.response := by
  obtain ⟨-, ⟨j, -, hj⟩, hdigest, -⟩ := h.backed g t ht
  rw [← hj] at hdigest ⊢
  exact hfree i j t.digest hd hdigest

omit [DecidableEq ρ] in
/-- Another response than the committed one is a conflict, at either lock. -/
theorem Sound.conflict (h : Sound submit w) (hfree : CollisionFree submit) {t : ResponseCommit} {i : ρ}
    {digest digest' : BitVec 256} {typed : Bool} (ht : w.transactions g = some t)
    (hget : w.record.entries.get? (submit i).key = some (.resolved digest g typed))
    (hd : responseDigest (submit i).params.response = .ok digest')
    (hne : canonicalJson (submit i).params.response ≠ canonicalJson t.response)
    (henabled : (submit i).channel.requireEnabled = true → w.record.enabled = true) :
    w.record.find (submit i).channel.requireEnabled (submit i).key digest' = .error .conflict := by
  obtain ⟨q, -, t', ht', -, hdigest⟩ := h.entries _ _ hget
  rw [show w.transactions g = some t from ht] at ht'
  cases ht'
  have hdiff : digest ≠ digest' := by
    rintro rfl
    exact hne (h.canonical hfree ht (hdigest ▸ hd))
  have hopen : ((submit i).channel.requireEnabled && !w.record.enabled) = false := by
    cases hr : (submit i).channel.requireEnabled with
    | false => rfl
    | true => simp [henabled hr]
  unfold InteractionRecord.find
  rw [hopen, refuse_false, ok_bind, hget]
  simp only [if_neg hdiff]

/-- An invalid response is refused, and nothing else changes. -/
theorem Step.invalid_response (hs : Step submit w l w') {i : ρ} {request : InteractionRequest}
    {digest : BitVec 256} {e : InteractionError} (busy : w.responders i = .validating g request digest)
    (hinvalid : validateInteractionResponse request (submit i).params.response = .error e)
    (hmoved : w'.responders i ≠ w.responders i) :
    w' = w.withResponder i (.answered none (.error (.responseInvalid e.message))) := by
  -- a step of another responder leaves this one alone
  have hother : ∀ {v : Interactions ρ} {j : ρ} {next : Responder}, v.responders = w.responders →
      (v.withResponder j next).responders i ≠ w.responders i → j = i := by
    intro v j next hv hne
    by_contra hj
    exact hne (by rw [← hv]; exact Function.update_of_ne (Ne.symm hj) ..)
  cases hs with
  | first j idle =>
    obtain rfl := hother rfl hmoved
    rw [idle] at busy
    cases busy
  | invalid j busy' refused =>
    obtain rfl := hother rfl hmoved
    rw [busy] at busy'
    cases busy'
    rw [hinvalid] at refused
    cases refused
    rfl
  | second j busy' valid found =>
    obtain rfl := hother rfl hmoved
    rw [busy] at busy'
    cases busy'
    rw [hinvalid] at valid
    cases valid
  | removeClosed j now busy' valid found closed result =>
    obtain rfl := hother rfl hmoved
    rw [busy] at busy'
    cases busy'
    rw [hinvalid] at valid
    cases valid
  | lead j busy' valid found alive =>
    obtain rfl := hother rfl hmoved
    rw [busy] at busy'
    cases busy'
    rw [hinvalid] at valid
    cases valid
  | dropLeader j g' leading txn stage answer =>
    obtain rfl := hother rfl hmoved
    rw [leading] at busy
    cases busy
  | delegate j g' leading core txn stage typed =>
    obtain rfl := hother rfl hmoved
    rw [leading] at busy
    cases busy
  | release j g' following core =>
    obtain rfl := hother rfl hmoved
    rw [following] at busy
    cases busy
  | answer j g' waits txn stage =>
    obtain rfl := hother rfl hmoved
    rcases waits with hw | ⟨hw, -⟩
    · rw [hw] at busy
      cases busy
    · rw [hw] at busy
      cases busy
  | leave j g' following =>
    obtain rfl := hother rfl hmoved
    rw [following] at busy
    cases busy
  | _ => exact absurd rfl hmoved

omit [DecidableEq ρ] in
/-- A failing transaction tells no waiting responder success, and its continuation an error. -/
theorem Sound.failing (h : Sound submit w) {t : ResponseCommit} (ht : w.transactions g = some t)
    (hf : t.stage.isFailing = true) :
    (∀ i, w.responders i ≠ .answered (some g) (.ok ())) ∧
    (∀ v, w.continuations g ≠ .settled (.ok v) ∧ w.continuations g ≠ .resumed (.ok v)) ∧
    ∀ failure, t.stage = .ended (.error failure) →
      w.continuations g = .dropped ∨ w.continuations g = .settled (.error failure.intoCore) ∨
        w.continuations g = .resumed (.error failure.intoCore) := by
  have hagrees := (h.backed g t ht).agrees
  refine ⟨fun i hi => ?_, fun v => ?_, fun failure hstage => ?_⟩
  · have hknows := h.responders i
    rw [hi] at hknows
    obtain ⟨t', ht', -, hstage⟩ := hknows
    rw [ht] at ht'
    cases ht'
    rw [hstage] at hf
    cases hf
  · cases hstage : t.stage with
    | committed | staged | checked | published | acknowledged =>
      rw [hstage] at hf
      cases hf
    | aborting | aborted | notified =>
      rw [hstage] at hagrees
      obtain hc | hc | hc := hagrees <;> simp [hc]
    | ended result =>
      cases result with
      | ok =>
        rw [hstage] at hf
        cases hf
      | error failure =>
        rw [hstage] at hagrees
        obtain hc | hc | hc := hagrees <;> simp [hc]
  · rw [hstage] at hagrees
    exact hagrees

omit [DecidableEq ρ] in
/-- What a continuation resumed with is the response of its transaction. -/
theorem Sound.resumed_ok (h : Sound submit w) {v : Value} (hc : w.continuations g = .resumed (.ok v)) :
    ∃ t, w.transactions g = some t ∧ t.response = v ∧ t.stage.isResolved = true := by
  cases ht : w.transactions g with
  | none =>
    have := h.unanswered g ht
    rw [hc] at this
    exact this.elim
  | some t =>
    refine ⟨t, rfl, ?_⟩
    have hagrees := (h.backed g t ht).agrees
    rw [hc] at hagrees
    unfold ResponseStage.Agrees at hagrees
    cases hstage : t.stage with
    | committed | staged | checked | published | aborting | aborted | notified =>
      rw [hstage] at hagrees
      simp at hagrees
    | acknowledged =>
      rw [hstage] at hagrees
      simp only [reduceCtorEq, false_or, Continuation.resumed.injEq, Except.ok.injEq] at hagrees
      exact ⟨hagrees.symm, rfl⟩
    | ended result =>
      cases result with
      | ok =>
        rw [hstage] at hagrees
        simp only [reduceCtorEq, false_or, Continuation.resumed.injEq, Except.ok.injEq] at hagrees
        exact ⟨hagrees.symm, rfl⟩
      | error failure =>
        rw [hstage] at hagrees
        simp at hagrees

/-! ## Runs -/

theorem Step.aborts_run {es : List Label} (h : Sound submit w) (ha : w.Aborts)
    (hrun : Lts.Run (Step submit) w es w') : w'.Aborts := by
  induction hrun with
  | nil => exact ha
  | cons hs _ ih => exact ih (h.step hs) (hs.aborts h ha)

/-- The resolutions in a run are those of its transactions. -/
theorem resolved_events {es : List Label} (h : Sound submit w) (ha : w.Aborts)
    (hrun : Lts.Run (Step submit) w es w') {l : Label} (hl : l ∈ es) {e : InteractionEventEnvelope}
    (he : e ∈ l.events) {requestId turnId : String}
    (hp : e.payload = .removed requestId turnId InteractionRemoval.resolved.text) :
    ∃ g t, l = .resolved g [e] ∧ w'.transactions g = some t ∧ t.key = (turnId, requestId) := by
  obtain ⟨es₁, es₂, rfl⟩ := List.mem_iff_append.mp hl
  obtain ⟨s, h1, h2⟩ := hrun.split
  have hsound := h.run h1
  cases h2 with
  | cons hs h2 =>
    obtain ⟨g, t, rfl, ht, hkey⟩ := hs.of_resolved_event (Step.aborts_run h ha h1) he hp
    obtain ⟨t', ht', hkey', -⟩ := transaction_run hsound (.cons hs h2) ht
    exact ⟨g, t', rfl, ht', hkey'.trans hkey⟩

theorem Step.enabled_run {es : List Label} (hrun : Lts.Run (Step submit) w es w') :
    w'.record.enabled = w.record.enabled := by
  induction hrun with
  | nil => rfl
  | cons hs _ ih => exact ih.trans hs.enabled

/-- A resolution of an enabled session is one event. -/
theorem resolution_event {es : List Label} (h : Sound submit w) (hrun : Lts.Run (Step submit) w es w')
    (henabled : w.record.enabled = true) (hg : g ∈ resolutions es) :
    ∃ e t, .resolved g [e] ∈ es ∧ w'.transactions g = some t ∧
      e.payload = .removed t.key.2 t.key.1 InteractionRemoval.resolved.text := by
  obtain ⟨l, hl, hres⟩ := List.mem_filterMap.mp hg
  obtain ⟨es₁, es₂, rfl⟩ := List.mem_iff_append.mp hl
  obtain ⟨s, h1, h2⟩ := hrun.split
  cases h2 with
  | cons hs h2 =>
    cases l with
    | resolved g' events =>
      cases hres
      obtain ⟨e, t, rfl, ht, he⟩ := hs.resolved_event ((Step.enabled_run h1).trans henabled)
      obtain ⟨t', ht', hkey, -⟩ := transaction_run (h.run h1) (.cons hs h2) ht
      exact ⟨e, t', by simp, ht', by rw [he, hkey]⟩
    | _ => cases hres

/-- The first valid response wins, once. In every run of a session and for every generation `g`:

* its continuation resumes at most once, and with a value only when that is the response of its
  transaction, which is valid for the request and was published once;
* the events with the cause `resolved` are those of the transactions, at most one for each;
* a responder that was told success after it awaited the transaction submitted its response;
* while the entry stays in the registry another response is a conflict at either lock;
* an invalid response is refused and nothing else changes;
* once its transaction is aborted or dropped, no awaiting responder is told success, in no later state
  either, and the continuation gets an error or is gone. -/
theorem first_valid_response_wins (hfree : CollisionFree submit) {threadId streamId : String}
    {enabled : Bool} {limits : EventJournalLimits} {record : InteractionRecord}
    (hnew : InteractionRecord.new threadId streamId enabled limits = .ok record) {es : List Label}
    (hrun : Lts.Run (Step submit) (start record : Interactions ρ) es w) (g : Nat) :
    ((∀ fs w' result, Lts.Run (Step submit) w fs w' → w.continuations g = .resumed result →
        w'.continuations g = .resumed result) ∧
      ∀ v, w.continuations g = .resumed (.ok v) → ∃ t request, w.transactions g = some t ∧
        t.response = v ∧ w.requests g = some (t.key, request) ∧
        validateInteractionResponse request v = .ok () ∧ (resolutions es).count g = 1) ∧
    ((resolutions es).count g ≤ 1 ∧
      (∀ l ∈ es, ∀ e ∈ l.events, ∀ requestId turnId,
        e.payload = .removed requestId turnId InteractionRemoval.resolved.text →
        ∃ g t, l = .resolved g [e] ∧ w.transactions g = some t ∧ t.key = (turnId, requestId))) ∧
    (∀ i, w.responders i = .answered (some g) (.ok ()) → ∃ t, w.transactions g = some t ∧
      canonicalJson (submit i).params.response = canonicalJson t.response ∧
      (resolutions es).count g = 1 ∧ (enabled = true → ∃ e, .resolved g [e] ∈ es ∧
        e.payload = .removed t.key.2 t.key.1 InteractionRemoval.resolved.text)) ∧
    (∀ i t digest digest' typed, w.transactions g = some t →
      w.record.entries.get? (submit i).key = some (.resolved digest g typed) →
      responseDigest (submit i).params.response = .ok digest' →
      canonicalJson (submit i).params.response ≠ canonicalJson t.response →
      ((submit i).channel.requireEnabled = true → enabled = true) →
      (w.registered = true → (submit i).params.validate w.record.snapshot.threadId = .ok () →
        Responder.first w.registered w.record (submit i) = .answered none (.error .conflict)) ∧
      ∀ g', Responder.second w.record (submit i) g' digest' = some (.answered none (.error .conflict))) ∧
    (∀ i request digest e l w', w.responders i = .validating g request digest →
      validateInteractionResponse request (submit i).params.response = .error e →
      Step submit w l w' → w'.responders i ≠ w.responders i →
      w' = w.withResponder i (.answered none (.error (.responseInvalid e.message)))) ∧
    (∀ t, w.transactions g = some t → t.stage.isFailing = true → g ∉ resolutions es ∧
      ∀ fs w', Lts.Run (Step submit) w fs w' →
        (∀ i, w'.responders i ≠ .answered (some g) (.ok ())) ∧
        (∀ v, w'.continuations g ≠ .settled (.ok v) ∧ w'.continuations g ≠ .resumed (.ok v)) ∧
        ∀ t' failure, w'.transactions g = some t' → t'.stage = .ended (.error failure) →
          w'.continuations g = .dropped ∨ w'.continuations g = .settled (.error failure.intoCore) ∨
            w'.continuations g = .resumed (.error failure.intoCore)) := by
  have hstart : Sound submit (start record : Interactions ρ) := sound_start (new_entries hnew)
  have hsound : Sound submit w := hstart.run hrun
  have henabled : w.record.enabled = enabled := by
    rw [Step.enabled_run hrun]
    obtain ⟨_, -, hnew⟩ := bind_ok hnew
    cases hnew
    rfl
  have hcount : w.resolutionCount g = (resolutions es).count g := by
    rw [count_resolutions hstart hrun g]
    simp [resolutionCount, start]
  -- a transaction whose stage is resolved has published once
  have honce : ∀ t, w.transactions g = some t → t.stage.isResolved = true →
      (resolutions es).count g = 1 := by
    intro t ht hres
    rw [← hcount]
    simp [resolutionCount, ht, hres]
  refine ⟨⟨fun fs w' result hrun' hc => resumed_run hsound hrun' hc, fun v hc => ?_⟩, ⟨?_, ?_⟩, ?_, ?_,
    ?_, ?_⟩
  · obtain ⟨t, ht, rfl, hres⟩ := hsound.resumed_ok hc
    obtain ⟨request, hrequest, hvalid⟩ := (hsound.backed g t ht).request
    exact ⟨t, request, ht, rfl, hrequest, hvalid, honce t ht hres⟩
  · rw [← hcount, resolutionCount]
    split
    · split <;> omega
    · omega
  · intro l hl e he requestId turnId hp
    exact resolved_events hstart (fun _ _ _ _ ht => by cases ht) hrun hl he hp
  · intro i hi
    have hknows := hsound.responders i
    rw [hi] at hknows
    obtain ⟨t, ht, hd, hstage⟩ := hknows
    have hone := honce t ht (by rw [hstage]; rfl)
    refine ⟨t, ht, hsound.canonical hfree ht hd, hone, fun he => ?_⟩
    obtain ⟨e, t', hmem, ht', hp⟩ := resolution_event hstart hrun
      ((Step.enabled_run hrun).symm.trans (henabled.trans he)) (List.count_pos_iff.mp (by omega) : g ∈ _)
    rw [ht] at ht'
    cases ht'
    exact ⟨e, hmem, hp⟩
  · intro i t digest digest' typed ht hget hd hne hreq
    have hfind := hsound.conflict hfree ht hget hd hne (fun hr => henabled.trans (hreq hr))
    refine ⟨fun hreg hvalid => ?_, fun g' => ?_⟩
    · unfold Responder.first Responder.firstPhase
      rw [hvalid, hd]
      simp only [Except.mapError, ok_bind, hreg, Bool.not_true, refuse_false, hfind, error_bind]
    · unfold Responder.second
      rw [hfind]
  · intro i request digest e l w' busy hinvalid hs hmoved
    exact hs.invalid_response busy hinvalid hmoved
  · intro t ht hf
    constructor
    · intro hmem
      have hpos := List.count_pos_iff.mpr hmem
      rw [← hcount, resolutionCount, ht] at hpos
      cases hstage : t.stage with
      | ended result => cases result <;> simp_all [ResponseStage.isFailing, ResponseStage.isResolved]
      | _ => simp_all [ResponseStage.isFailing, ResponseStage.isResolved]
    · intro fs w' hrun'
      obtain ⟨t', ht', hf'⟩ := failing_run hsound hrun' ht hf
      obtain ⟨h1, h2, h3⟩ := (hsound.run hrun').failing ht' hf'
      refine ⟨h1, h2, fun u failure hu hstage => ?_⟩
      rw [ht'] at hu
      cases hu
      exact h3 failure hstage

end Interactions

open Interactions

/-! ## Samples -/

namespace Sample

/-- The crates on the values of the sample: `true` and an empty payload. -/
@[reducible] def measure : External where
  parseUuid _ := false
  sha256Hex s := s
  itemsBytes _ := .error "not a sample input"
  valueBytes v := if v = .bool true then .ok 4 else if v = .object [] then .ok 2 else
    .error "not a sample input"
  deserializeError _ := "invalid type"

@[reducible] def tags : InteractionHost where
  build _ := .error "not a sample input"
  accepts _ _ := false
  hmac v := if v = .bool true then .ok 7 else .error "not a sample input"
  eventBytes _ := .ok 200

/-- A session that allows Interactions, with one run. -/
def desk : InteractionRecord where
  enabled := true
  snapshot := { threadId := "t", cursor := ⟨"t", "s", 0⟩ }
  journal := { replayFloor := ⟨"t", "s", 0⟩ }
  limits := interactionJournalLimits

theorem desk_new : @InteractionRecord.new measure "t" "s" true interactionJournalLimits = .ok desk := by
  rfl

/-- The owner and `InteractionBridge::respond` submit the same approval. -/
def approve (owner : Bool) : ResponseSubmission :=
  ⟨⟨"r", "q", .bool true⟩, if owner then .owned true else .core⟩

def approval : InteractionRequest := ⟨kindToolApproval, "t", .object [], none⟩

def staffed : InteractionRecord :=
  { desk with runIdentities := fun turn => if turn == "r" then some 1 else none }

/-- The record after the request. -/
def asked : InteractionRecord :=
  (@InteractionRecord.begin measure tags staffed "r" "q" approval .core 0).2.1

def asking : List InteractionEventEnvelope :=
  (@InteractionRecord.begin measure tags staffed "r" "q" approval .core 0).2.2

/-- The session of the request. -/
def waiting : Interactions Bool where
  record := asked
  continuations := Function.update (fun _ => .absent) 1 .waiting
  requests := Function.update (fun _ => none) 1 (some (("r", "q"), approval))

/-- The steps of the sample. -/
abbrev DeskStep := @Step Bool _ measure tags approve

def entry : PendingEntry := ⟨approval, 1, .core, true⟩

/-- The owner has committed the response. -/
def led : Interactions Bool :=
  ({ waiting.withResponder true (.validating 1 approval 7) with
    record := asked.resolve ("r", "q") 7 entry
    transactions := Function.update (fun _ => none) 1 (some
      { key := ("r", "q"), digest := 7, response := .bool true, typedApproval := true }) } :
    Interactions Bool).withResponder true (.leading 1)

def commit (stage : ResponseStage) : ResponseCommit :=
  { key := ("r", "q"), digest := 7, response := .bool true, typedApproval := true, stage }

/-- The response is with the continuation. -/
def staged : Interactions Bool :=
  (led.move 1 fun _ => .delivered (commit .committed).response).advance 1 (commit .committed) .staged

/-- What the record does on the way of the response. -/
class DeskCalls : Prop where
  begun : (@InteractionRecord.begin measure tags staffed "r" "q" approval .core 0).1 = .ok 1
  first : letI := measure
    letI := tags
    Responder.first waiting.registered waiting.record (approve true) = .validating 1 approval 7
  found : asked.find true ("r", "q") 7 = .ok (.open entry)
  followed : letI := measure
    letI := tags
    Responder.first staged.registered staged.record (approve false) = .following 1
  published : letI := measure
    letI := tags
    (staged.record.publishResolvedExact ("r", "q") 1 7 0).isOk = true

instance desk_calls : DeskCalls where
  begun := by decide +kernel
  first := by decide +kernel
  found := by decide +kernel
  followed := by decide +kernel
  published := by decide +kernel

theorem begin_asked : @InteractionRecord.begin measure tags staffed "r" "q" approval .core 0 =
    (.ok 1, asked, asking) :=
  Prod.ext desk_calls.begun rfl

theorem waiting_run : Lts.Run DeskStep (start desk) [.locked [], .begin "r" asking] waiting := by
  let := measure
  let := tags
  exact .cons (.register "r" 1 rfl) (.single (.begin "r" "q" approval .core 0 begin_asked))

theorem staged_run : Lts.Run DeskStep (start desk)
    [.locked [], .begin "r" asking, .silent, .locked [], .silent] staged := by
  let := measure
  let := tags
  have hfirst : Responder.first waiting.registered waiting.record (approve true) =
      .validating 1 approval 7 := desk_calls.first
  have h1 : DeskStep waiting .silent (waiting.withResponder true (.validating 1 approval 7)) :=
    hfirst ▸ .first true rfl
  have h2 : DeskStep (waiting.withResponder true (.validating 1 approval 7)) (.locked []) led :=
    .lead true rfl (by decide +kernel) desk_calls.found rfl
  have h3 : DeskStep led .silent staged := .stage 1 rfl rfl rfl
  exact waiting_run.append (.cons h1 (.cons h2 (.single h3)))

/-- The bridge has answered the same response. -/
def released : Interactions Bool :=
  (staged.withResponder false (.following 1)).withResponder false (.released 1)

/-- The owner's handler is dropped. -/
def dropped : Interactions Bool :=
  (released.withResponder true .gone).advance 1 (commit .staged) (.aborting .publicationFailed abandoned)

theorem dropped_run : Lts.Run DeskStep staged [.silent, .silent, .silent] dropped := by
  let := measure
  let := tags
  have hfirst : Responder.first staged.registered staged.record (approve false) = .following 1 :=
    desk_calls.followed
  have h1 : DeskStep staged .silent (staged.withResponder false (.following 1)) :=
    hfirst ▸ .first false rfl
  have h2 : DeskStep (staged.withResponder false (.following 1)) .silent released :=
    .release false 1 rfl rfl
  have h3 : DeskStep released .silent dropped := .dropLeader true 1 rfl rfl rfl (.inl rfl)
  exact .cons h1 (.cons h2 (.single h3))

def checked : Interactions Bool := staged.advance 1 (commit .staged) .checked

/-- The resolution is in the record. -/
def resolved (r : InteractionRecord) : Interactions Bool :=
  ({ checked with record := r } : Interactions Bool).advance 1 (commit .checked) .published

def acknowledged (r : InteractionRecord) : Interactions Bool :=
  ((resolved r).move 1 .commit).advance 1 (commit .published) .acknowledged

def ended (r : InteractionRecord) : Interactions Bool :=
  (acknowledged r).advance 1 (commit .acknowledged) (.ended (.ok ()))

/-- The response is published, the continuation resumes with it and the owner is told. -/
theorem approved_run : ∃ es w, Lts.Run DeskStep staged es w ∧
    w.responders true = .answered (some 1) (.ok ()) ∧
    w.continuations 1 = .resumed (.ok (.bool true)) := by
  let := measure
  let := tags
  have hok : (staged.record.publishResolvedExact ("r", "q") 1 7 0).isOk = true :=
    desk_calls.published
  obtain ⟨⟨r, events⟩, hr⟩ : ∃ p, staged.record.publishResolvedExact ("r", "q") 1 7 0 = .ok p := by
    cases h : staged.record.publishResolvedExact ("r", "q") 1 7 0 with
    | ok p => exact ⟨p, rfl⟩
    | error e =>
      rw [h] at hok
      cases hok
  have h1 : DeskStep staged .silent checked := .check 1 rfl rfl rfl
  have h2 : DeskStep checked (.resolved 1 events) (resolved r) := .publish 1 0 rfl rfl hr
  have h3 : DeskStep (resolved r) .silent (acknowledged r) := .acknowledge 1 rfl rfl
  have h4 : DeskStep (acknowledged r) .silent (ended r) := .complete 1 rfl rfl
  have h5 : DeskStep (ended r) .silent ((ended r).move 1 fun _ => .resumed (.ok (.bool true))) :=
    .poll 1 rfl
  have h6 : DeskStep ((ended r).move 1 fun _ => .resumed (.ok (.bool true))) .silent
      (((ended r).move 1 fun _ => .resumed (.ok (.bool true))).withResponder true
        (.answered (some 1) (.ok ()))) := .answer true 1 (.inl rfl) rfl rfl
  exact ⟨_, _, .cons h1 (.cons h2 (.cons h3 (.cons h4 (.cons h5 (.single h6))))), rfl, rfl⟩

theorem approve_free : @CollisionFree _ tags approve := by
  rintro (_ | _) (_ | _) digest - - <;> rfl

end Sample

/-- The response of the sample is committed once, and the continuation has it. -/
theorem first_valid_response_sample : ∃ es w, Lts.Run Sample.DeskStep (start Sample.desk) es w ∧
    w.responders true = .answered (some 1) (.ok ()) ∧ (resolutions es).count 1 = 1 ∧
    ∃ t, w.transactions 1 = some t ∧ t.response = .bool true := by
  obtain ⟨es, w, hrun, howner, hresumed⟩ := Sample.approved_run
  have hall := Sample.staged_run.append hrun
  obtain ⟨⟨-, hvalue⟩, -⟩ := @first_valid_response_wins _ _ Sample.measure Sample.tags _ _
    Sample.approve_free _ _ _ _ _ Sample.desk_new _ hall 1
  obtain ⟨t, request, ht, hresponse, -, -, hcount⟩ := hvalue _ hresumed
  exact ⟨_, w, hall, howner, hcount, t, ht, hresponse⟩

/-- A responder was told success. -/
def Responder.toldSuccess : Responder → Bool
  | answered _ (.ok _) | released _ => true
  | _ => false

/-- An answer that the bridge gives at once outlives the transaction: the owner's handler is dropped, and
the bridge has already said `Ok`. -/
theorem released_of_dropped : ¬ ∀ es w, Lts.Run Sample.DeskStep (start Sample.desk) es w →
    ∀ g t i, w.transactions g = some t → t.stage.isFailing = true →
      (w.responders i).toldSuccess = false := by
  intro h
  have := h _ _ (Sample.staged_run.append Sample.dropped_run) 1 _ false rfl rfl
  cases this

end Whale
