import Whale.Daemon.Approvals
import Whale.Daemon.Proof.PendingSet
import Whale.Daemon.Runs

/-!
# Typed approvals

What the handler of a typed approval answers, and what an error leaves of the request it names. The
handler gets through to the registry when the parameters it makes pass their own validation
(`RunApprovalParams.Answerable`); from there its responder always reaches an answer
(`Interactions.exists_answer`). A request that waits is followed through a run until it is led by a
responder, withdrawn or still there (`Interactions.Followed`).
-/

namespace Whale

open Check

namespace Interactions

variable {ρ : Type} [DecidableEq ρ] [External] [InteractionHost] {submit : ρ → ResponseSubmission}
  {w w' : Interactions ρ} {l : Label} {g : Nat} {i : ρ}

/-! ## Requests through a step -/

theorem Step.requests (h : Sound submit w) (hs : Step submit w l w')
    {asked : InteractionKey × InteractionRequest} (hg : w.requests g = some asked) :
    w'.requests g = some asked := by
  cases hs with
  | begin turnId requestId request origin now result =>
    obtain ⟨next, -, rfl, -, -⟩ := InteractionRecord.begin_ok result
    have hne : g ≠ w.record.nextGeneration := by
      rintro rfl
      rw [h.fresh _ le_rfl] at hg
      cases hg
    simpa only [Function.update_of_ne hne] using hg
  | _ => exact hg

/-- An entry that waits for a generation that is known was waiting before. -/
theorem Step.pending_known (h : Sound submit w) (hs : Step submit w l w') {key : InteractionKey}
    {entry : PendingEntry} (hget : w'.record.entries.get? key = some (.pending entry))
    (hknown : w.requests entry.generation ≠ none) :
    w.record.entries.get? key = some (.pending entry) := by
  obtain hget' | ⟨events, rfl⟩ := hs.pending_cases hget
  · exact hget'
  · generalize hlabel : Label.begin key.1 events = label at hs
    cases hs with
    | begin turnId requestId request origin now result =>
      obtain ⟨next, hpub, rfl, -, rfl⟩ := InteractionRecord.begin_ok result
      obtain ⟨snapshot, journal, rfl, -⟩ := InteractionRecord.publish_frame hpub
      rcases KeyMap.get?_insert.mp hget with ⟨rfl, hentry⟩ | ⟨hget, -⟩
      · cases hentry
        exact absurd (h.fresh _ le_rfl) hknown
      · exact hget
    | _ => cases hlabel

omit [DecidableEq ρ] [External] [InteractionHost] in
theorem advance_none {g' : Nat} {t : ResponseCommit} {stage : ResponseStage}
    (txn : w.transactions g' = some t) (hnone : w.transactions g = none) :
    (w.advance g' t stage).transactions g = none := by
  have hne : g ≠ g' := by
    rintro rfl
    rw [hnone] at txn
    cases txn
  exact (Function.update_of_ne hne ..).trans hnone

/-- A transaction begins with a responder that leads a request that waited. -/
theorem Step.leads (hs : Step submit w l w') (hnone : w.transactions g = none) {t : ResponseCommit}
    (ht : w'.transactions g = some t) :
    t.stage = .committed ∧ ∃ j entry, w'.responders j = .leading g ∧ entry.generation = g ∧
      w.record.entries.get? (submit j).key = some (.pending entry) := by
  -- every other step keeps the generations without a transaction
  have hsame : w'.transactions g = none → t.stage = .committed ∧ ∃ j entry,
      w'.responders j = .leading g ∧ entry.generation = g ∧
        w.record.entries.get? (submit j).key = some (.pending entry) := by
    intro hnone'
    rw [hnone'] at ht
    cases ht
  cases hs with
  | @lead request digest entry j busy valid found alive =>
    by_cases hg : g = entry.generation
    · subst hg
      have hstage : t = _ := Option.some.inj (ht.symm.trans (Function.update_self ..))
      exact ⟨by rw [hstage], j, entry, Function.update_self .., rfl, InteractionRecord.find_open found⟩
    · exact hsame ((Function.update_of_ne hg ..).trans hnone)
  | stage g' txn | gone g' txn | unprojected g' error txn | check g' txn | publish g' now txn
  | unpublished g' now error txn | acknowledge g' txn | complete g' txn | dropLeader j g' leading txn
  | dropDelegated g' txn | abort g' now txn | abortMissing g' txn | inform g' txn | giveUp g' txn =>
    exact hsame (advance_none txn hnone)
  | @delegate t' j g' leading core txn stage typed =>
    have hne : g ≠ g' := by
      rintro rfl
      rw [hnone] at txn
      cases txn
    exact hsame ((Function.update_of_ne hne ..).trans hnone)
  | _ => exact hsame hnone

/-- A sender that a cleanup took stays with it. -/
theorem Step.loose (h : Sound submit w) (hs : Step submit w l w') (hl : w.Loose g) : w'.Loose g := by
  obtain ⟨hreq, htxn, hentries⟩ := hl
  obtain ⟨asked, hasked⟩ := Option.ne_none_iff_exists'.mp hreq
  refine ⟨by rw [hs.requests h hasked]; simp, ?_, fun key entry hget hg => ?_⟩
  · cases ht : w'.transactions g with
    | none => rfl
    | some t =>
      obtain ⟨-, j, entry, -, hg, hget⟩ := hs.leads htxn ht
      exact absurd hg (hentries _ _ hget)
  · subst hg
    exact hentries key entry (hs.pending_known h hget hreq) rfl

/-- What a step makes of a request that waits: it waits, a cleanup takes it, or a responder leads it. -/
theorem Step.pending_next (h : Sound submit w) (hs : Step submit w l w') {key : InteractionKey}
    {entry : PendingEntry} (hget : w.record.entries.get? key = some (.pending entry)) :
    w'.record.entries.get? key = some (.pending entry) ∨ w'.Loose entry.generation ∨
    ∃ j t, w'.responders j = .leading entry.generation ∧
      w'.transactions entry.generation = some t ∧ t.stage = .committed := by
  obtain ⟨request, hreq, -, htxn, -⟩ := h.entries _ _ hget
  have hreq : w.requests entry.generation = some (key, request) := hreq
  cases ht : w'.transactions entry.generation with
  | some t =>
    obtain ⟨hstage, j, -, hj, -⟩ := hs.leads htxn ht
    exact .inr (.inr ⟨j, t, hj, rfl, hstage⟩)
  | none =>
    by_cases hkept : w'.record.entries.get? key = some (.pending entry)
    · exact .inl hkept
    · refine .inr (.inl ⟨by rw [hs.requests h hreq]; simp, ht, fun key' entry' hget' hg => hkept ?_⟩)
      have hbefore := hs.pending_known h hget' (by rw [hg, hreq]; simp)
      have hkey : key' = key := h.key_unique hbefore hget hg
      subst hkey
      rw [hget] at hbefore
      cases hbefore
      exact hget'

/-- A continuation that is gone stays gone. -/
theorem Step.dropped (h : Sound submit w) (hs : Step submit w l w') (hd : w.continuations g = .dropped) :
    w'.continuations g = .dropped := by
  have hmove : ∀ {v : Interactions ρ} {f : Continuation → Continuation} (g' : Nat),
      v.continuations = w.continuations →
      (w.continuations g' = .dropped → f .dropped = .dropped) →
      (v.move g' f).continuations g = .dropped := by
    intro v f g' hv hf
    by_cases hg : g = g'
    · subst hg
      simp only [Interactions.move, Function.update_self, hv, hd, hf hd]
    · simp only [Interactions.move, Function.update_of_ne hg, hv, hd]
  cases hs with
  | begin turnId requestId request origin now hbegin =>
    obtain ⟨next, -, rfl, -, -⟩ := InteractionRecord.begin_ok hbegin
    have hg : g ≠ w.record.nextGeneration := by
      rintro rfl
      rw [(h.unasked _ (h.fresh _ le_rfl)).2] at hd
      cases hd
    simpa only [Function.update_of_ne hg] using hd
  | notify g' e queued => exact hmove g' rfl fun _ => rfl
  | dropTicket g' => exact hmove g' rfl fun _ => rfl
  | poll g' ready =>
    refine hmove g' rfl fun hd => ?_
    rw [hd] at ready
    cases ready
  | @stage t g' txn stage alive =>
    refine hmove (f := fun _ => .delivered t.response) g' rfl fun hd => ?_
    rw [hd] at alive
    cases alive
  | acknowledge g' txn stage => exact hmove g' rfl fun _ => rfl
  | inform g' txn stage => exact hmove g' rfl fun _ => rfl
  | _ => exact hd

theorem Step.unregistered (hs : Step submit w l w') (hr : w.registered = false) :
    w'.registered = false := by
  cases hs with
  | close => rfl
  | _ => exact hr

/-! ## The transaction of a responder -/

/-- A transaction fails because its continuation is gone, or because it is given up. -/
theorem Step.fails (hs : Step submit w l w') {t t' : ResponseCommit} (ht : w.transactions g = some t)
    (hopen : t.stage.isFailing = false) (ht' : w'.transactions g = some t')
    (hfails : t'.stage.isFailing = true) :
    w'.continuations g = .dropped ∨ ∃ failure, t'.stage = .aborting .publicationFailed failure := by
  have hmoved : w'.transactions g ≠ w.transactions g := by
    intro heq
    rw [heq, ht] at ht'
    cases ht'
    rw [hopen] at hfails
    cases hfails
  -- the transaction that moves is this one
  have hself : ∀ {v : Interactions ρ} {g' : Nat} {t₁ : ResponseCommit} {stage : ResponseStage},
      v.transactions = w.transactions → (v.advance g' t₁ stage).transactions g = some t' →
      (v.advance g' t₁ stage).transactions g ≠ w.transactions g → g' = g ∧ t'.stage = stage := by
    intro v g' t₁ stage hv hget hne
    by_cases hg : g = g'
    · subst hg
      cases hget.symm.trans (Function.update_self ..)
      exact ⟨rfl, rfl⟩
    · exact absurd ((Function.update_of_ne hg ..).trans (congrFun hv g)) hne
  -- a step to a stage that does not fail
  have hsound : ∀ {v : Interactions ρ} {g' : Nat} {t₁ : ResponseCommit} {stage : ResponseStage},
      v.transactions = w.transactions → (v.advance g' t₁ stage).transactions g = some t' →
      (v.advance g' t₁ stage).transactions g ≠ w.transactions g → stage.isFailing = false → False := by
    intro v g' t₁ stage hv hget hne hnot
    rw [(hself hv hget hne).2, hnot] at hfails
    cases hfails
  -- a step from a stage that fails
  have hfrom : ∀ {v : Interactions ρ} {g' : Nat} {t₁ : ResponseCommit} {stage : ResponseStage},
      v.transactions = w.transactions → (v.advance g' t₁ stage).transactions g = some t' →
      (v.advance g' t₁ stage).transactions g ≠ w.transactions g → w.transactions g' = some t₁ →
      t₁.stage.isFailing = true → False := by
    intro v g' t₁ stage hv hget hne htxn hfailing
    obtain ⟨rfl, -⟩ := hself hv hget hne
    rw [ht] at htxn
    cases htxn
    rw [hopen] at hfailing
    cases hfailing
  cases hs with
  | @lead request digest entry j busy valid found alive =>
    by_cases hg : g = entry.generation
    · subst hg
      cases ht'.symm.trans (Function.update_self ..)
      cases hfails
    · exact absurd (Function.update_of_ne hg ..) hmoved
  | gone g' txn stage closed =>
    obtain ⟨rfl, -⟩ := hself rfl ht' hmoved
    refine .inl ?_
    show w.continuations g' = _
    revert closed
    cases w.continuations g' <;> simp [Continuation.isClosed]
  | unprojected | unpublished | dropDelegated | dropLeader =>
    exact .inr ⟨_, (hself (by rfl) ht' hmoved).2⟩
  | stage | check | publish | acknowledge | complete => exact (hsound (by rfl) ht' hmoved rfl).elim
  | abort g' now txn stage | abortMissing g' txn stage | inform g' txn stage | giveUp g' txn stage =>
    exact (hfrom (by rfl) ht' hmoved txn (by rw [stage]; rfl)).elim
  | @delegate t₁ j g' leading core txn stage typed =>
    by_cases hg : g = g'
    · subst hg
      cases ht'.symm.trans (Function.update_self ..)
      rw [show t₁.stage = _ from stage] at hfails
      cases hfails
    · exact absurd (Function.update_of_ne hg ..) hmoved
  | _ => exact absurd rfl hmoved

/-- A responder of the owner that leads a transaction leads it on, is told its end or gives it up. -/
theorem Step.leading_next (hs : Step submit w l w') (howned : (submit i).channel ≠ .core)
    (hlead : w.responders i = .leading g) :
    w'.responders i = .leading g ∨
    (∃ result, w'.responders i = .answered (some g) result ∧ w'.transactions g = w.transactions g) ∨
    ∃ t failure, w'.transactions g = some t ∧ t.stage = .aborting .publicationFailed failure := by
  by_cases hmoved : w'.responders i = w.responders i
  · exact .inl (hmoved.trans hlead)
  -- a step of another responder leaves this one alone
  have hother : ∀ {v : Interactions ρ} {j : ρ} {next : Responder}, v.responders = w.responders →
      (v.withResponder j next).responders i ≠ w.responders i → j = i := by
    intro v j next hv hne
    by_contra hj
    exact hne (by rw [← hv]; exact Function.update_of_ne (Ne.symm hj) ..)
  cases hs with
  | first j idle =>
    obtain rfl := hother rfl hmoved
    rw [hlead] at idle
    cases idle
  | invalid j busy | second j busy | removeClosed j now busy | lead j busy =>
    obtain rfl := hother (by rfl) hmoved
    rw [hlead] at busy
    cases busy
  | dropLeader j g' leading txn stage answer =>
    obtain rfl := hother (v := w.advance g' _ _) rfl hmoved
    rw [hlead] at leading
    cases leading
    exact .inr (.inr ⟨_, _, Function.update_self .., rfl⟩)
  | delegate j g' leading core =>
    obtain rfl := hother (v := w) rfl hmoved
    exact absurd core howned
  | release j g' following | leave j g' following =>
    obtain rfl := hother rfl hmoved
    rw [hlead] at following
    cases following
  | answer j g' waits txn stage =>
    obtain rfl := hother rfl hmoved
    rcases waits with hw | ⟨hw, -⟩
    · rw [hlead] at hw
      cases hw
      exact .inr (.inl ⟨_, Function.update_self .., rfl⟩)
    · rw [hlead] at hw
      cases hw
  | _ => exact absurd rfl hmoved

/-- An answer is the last thing a responder does. -/
theorem Step.answered_next (hs : Step submit w l w') {of : Option Nat}
    {result : Except InteractionFailure Unit} (hdone : w.responders i = .answered of result) :
    w'.responders i = .answered of result := by
  have hother : ∀ {v : Interactions ρ} {j : ρ} {next : Responder}, v.responders = w.responders →
      w.responders j ≠ .answered of result → (v.withResponder j next).responders i = .answered of result := by
    intro v j next hv hne
    have hj : i ≠ j := by
      rintro rfl
      exact hne hdone
    exact (Function.update_of_ne hj ..).trans (by rw [hv, hdone])
  cases hs with
  | first j idle => exact hother rfl (by rw [idle]; simp)
  | invalid j busy | second j busy | removeClosed j now busy | lead j busy =>
    exact hother (by rfl) (by rw [busy]; simp)
  | dropLeader j g' leading | delegate j g' leading => exact hother (by rfl) (by rw [leading]; simp)
  | release j g' following | leave j g' following => exact hother rfl (by rw [following]; simp)
  | answer j g' waits =>
    refine hother rfl ?_
    rcases waits with hw | ⟨hw, -⟩ <;> simp [hw]
  | _ => exact hdone

/-! ## A request that a responder named -/

/-- A step in which a registered session does not give up what a responder leads. -/
structure PublishingStep (submit : ρ → ResponseSubmission) (i : ρ) (w : Interactions ρ) (l : Label)
    (w' : Interactions ρ) : Prop where
  step : Step submit w l w'
  published : ∀ g t failure, w.responders i = .leading g → w'.transactions g = some t →
    t.stage = .aborting .publicationFailed failure → w'.registered = false

/-- A responder leads a generation somewhere between two states. -/
def Led (submit : ρ → ResponseSubmission) (w₁ w₂ : Interactions ρ) (j : ρ) (g : Nat) : Prop :=
  ∃ es es' v, Lts.Run (Step submit) w₁ es v ∧ v.responders j = .leading g ∧
    Lts.Run (Step submit) v es' w₂

/-- Where a request that waited in the first state is in the second, without an answer of a responder. -/
inductive Spared (submit : ρ → ResponseSubmission) (i : ρ) (w₁ : Interactions ρ) (key : InteractionKey)
    (entry : PendingEntry) (w₂ : Interactions ρ) : Prop
  | waits (pending : w₂.record.entries.get? key = some (.pending entry))
      (unanswered : w₂.continuations entry.generation = .waiting ∨
        w₂.continuations entry.generation = .dropped)
  | other (j : ρ) (ne : j ≠ i) (led : Led submit w₁ w₂ j entry.generation)
  /-- A cleanup took it, without a response. -/
  | withdrawn (loose : w₂.Loose entry.generation)
  /-- The ticket was dropped, and with it the request. -/
  | gone (dropped : w₂.continuations entry.generation = .dropped)
  | closed (unregistered : w₂.registered = false)

/-- The request in every state up to the answer: it is spared, or the responder itself leads it. -/
inductive Followed (submit : ρ → ResponseSubmission) (i : ρ) (w₁ : Interactions ρ) (key : InteractionKey)
    (entry : PendingEntry) (w : Interactions ρ) : Prop
  | waits (pending : w.record.entries.get? key = some (.pending entry))
  | other (j : ρ) (ne : j ≠ i) (led : Led submit w₁ w j entry.generation)
  | withdrawn (loose : w.Loose entry.generation)
  | closed (unregistered : w.registered = false)
  | own (t : ResponseCommit) (txn : w.transactions entry.generation = some t)
      (known : w.responders i = .leading entry.generation ∨
        ∃ result, w.responders i = .answered (some entry.generation) result)
      (fails : t.stage.isFailing = true → w.continuations entry.generation = .dropped)

variable {w₁ : Interactions ρ} {key : InteractionKey} {entry : PendingEntry}

theorem Led.snoc {j : ρ} (h : Led submit w₁ w j g) (hs : Step submit w l w') : Led submit w₁ w' j g := by
  obtain ⟨es, es', v, h1, hj, h2⟩ := h
  exact ⟨es, es' ++ [l], v, h1, hj, h2.snoc hs⟩

/-- The transaction of a responder that is not given up fails only when its continuation is gone. -/
theorem Followed.own_step (h : Sound submit w) (howned : (submit i).channel ≠ .core)
    (hs : PublishingStep submit i w l w') {t : ResponseCommit}
    (txn : w.transactions entry.generation = some t)
    (known : w.responders i = .leading entry.generation ∨
      ∃ result, w.responders i = .answered (some entry.generation) result)
    (fails : t.stage.isFailing = true → w.continuations entry.generation = .dropped) :
    Followed submit i w₁ key entry w' := by
  obtain ⟨hstep, hpublished⟩ := hs
  rcases known with hlead | ⟨result, hdone⟩
  · rcases hstep.leading_next howned hlead with hlead' | ⟨result, hdone, hsame⟩ | ⟨t', failure, ht', hstage⟩
    · obtain ⟨t', ht'⟩ : ∃ t', w'.transactions entry.generation = some t' := by
        obtain ⟨heq, -⟩ | ⟨hnone, -⟩ | ⟨t₁, t₂, -, ht₂, -⟩ := hstep.transaction_cases h entry.generation
        · exact ⟨t, heq.trans txn⟩
        · rw [txn] at hnone
          cases hnone
        · exact ⟨t₂, ht₂⟩
      cases hfailing : t.stage.isFailing with
      | true => exact .own t' ht' (.inl hlead') fun _ => hstep.dropped h (fails hfailing)
      | false =>
        by_cases hfails : t'.stage.isFailing = true
        · rcases hstep.fails txn hfailing ht' hfails with hd | ⟨failure, hstage⟩
          · exact .own t' ht' (.inl hlead') fun _ => hd
          · exact .closed (hpublished _ _ _ hlead ht' hstage)
        · exact .own t' ht' (.inl hlead') fun hf => absurd hf hfails
    · exact .own t (hsame.trans txn) (.inr ⟨result, hdone⟩) fun hf => hstep.dropped h (fails hf)
    · exact .closed (hpublished _ _ _ hlead ht' hstage)
  · -- a transaction that has ended does not move
    have hknows := h.responders i
    rw [hdone] at hknows
    obtain ⟨t₀, ht₀, -, hended⟩ := hknows
    rw [txn] at ht₀
    cases ht₀
    refine .own t ?_ (.inr ⟨result, hstep.answered_next hdone⟩) fun hf => hstep.dropped h (fails hf)
    obtain ⟨heq, -⟩ | ⟨hnone, -⟩ | ⟨t₁, t₂, ht₁, -, hmove, -⟩ := hstep.transaction_cases h entry.generation
    · exact heq.trans txn
    · rw [txn] at hnone
      cases hnone
    · rw [txn] at ht₁
      cases ht₁
      have hnext := hmove.stage
      rw [hended] at hnext
      exact hnext.elim

theorem Followed.step (hf : Followed submit i w₁ key entry w) (h : Sound submit w)
    (howned : (submit i).channel ≠ .core) {es : List Label} (hrun : Lts.Run (Step submit) w₁ es w)
    (hs : PublishingStep submit i w l w') : Followed submit i w₁ key entry w' := by
  cases hf with
  | waits pending =>
    obtain hkept | hloose | ⟨j, t, hj, ht, hstage⟩ := hs.step.pending_next h pending
    · exact .waits hkept
    · exact .withdrawn hloose
    · by_cases hij : j = i
      · subst hij
        exact .own t ht (.inl hj) fun hfails => by rw [hstage] at hfails; cases hfails
      · exact .other j hij ⟨_, [], w', hrun.snoc hs.step, hj, .nil w'⟩
  | other j ne led => exact .other j ne (led.snoc hs.step)
  | withdrawn loose => exact .withdrawn (hs.step.loose h loose)
  | closed unregistered => exact .closed (hs.step.unregistered unregistered)
  | own t txn known fails => exact own_step h howned hs txn known fails

/-- An error leaves a request that waited where others left it. -/
theorem spared_of_error (h : Sound submit w₁) (howned : (submit i).channel ≠ .core) {es : List Label}
    (hrun : Lts.Run (PublishingStep submit i) w₁ es w)
    (hget : w₁.record.entries.get? key = some (.pending entry)) {of : Option Nat}
    {failure : InteractionFailure} (hdone : w.responders i = .answered of (.error failure)) :
    Spared submit i w₁ key entry w := by
  obtain ⟨hsound, -, -, hfollowed⟩ := hrun.invariant (fun w => Sound submit w ∧
      ∃ es, Lts.Run (Step submit) w₁ es w ∧ Followed submit i w₁ key entry w)
    (fun s l t ⟨hsound, es, hrun, hf⟩ hs =>
      ⟨hsound.step hs.step, es ++ [l], hrun.snoc hs.step, hf.step hsound howned hrun hs⟩)
    ⟨h, [], .nil w₁, .waits hget⟩
  cases hfollowed with
  | waits pending =>
    obtain ⟨request, -, -, -, hcont⟩ := hsound.entries _ _ pending
    exact .waits pending hcont
  | other j ne led => exact .other j ne led
  | withdrawn loose => exact .withdrawn loose
  | closed unregistered => exact .closed unregistered
  | own t txn known fails =>
    rcases known with hlead | ⟨result, hown⟩
    · rw [hdone] at hlead
      cases hlead
    · rw [hdone] at hown
      cases hown
      have hknows := hsound.responders i
      rw [hdone] at hknows
      obtain ⟨t₀, ht₀, -, hended⟩ := hknows
      rw [txn] at ht₀
      cases ht₀
      exact .gone (fails (by rw [hended]; rfl))

/-! ## Every responder is answered -/

end Interactions

/-- How many steps a transaction has to go. -/
def ResponseStage.rank : ResponseStage → Nat
  | committed => 8
  | staged => 7
  | checked => 6
  | published => 5
  | acknowledged => 4
  | aborting .. => 3
  | aborted _ => 2
  | notified _ => 1
  | ended _ => 0

namespace Interactions

variable {ρ : Type} [DecidableEq ρ] [External] [InteractionHost] {submit : ρ → ResponseSubmission}
  {w : Interactions ρ} {g : Nat} {i : ρ}

variable (submit) in
/-- A transaction that has not ended can go on by itself. -/
theorem exists_advance {t : ResponseCommit} (ht : w.transactions g = some t) :
    (∃ result, t.stage = .ended result) ∨ ∃ l w' t', Step submit w l w' ∧ w'.transactions g = some t' ∧
      t'.stage.rank < t.stage.rank ∧ w'.responders = w.responders := by
  -- the step to a later stage
  have hnext : ∀ {l : Label} {v : Interactions ρ} {stage : ResponseStage}, v.responders = w.responders →
      stage.rank < t.stage.rank → Step submit w l (v.advance g t stage) →
      ∃ l w' t', Step submit w l w' ∧ w'.transactions g = some t' ∧ t'.stage.rank < t.stage.rank ∧
        w'.responders = w.responders :=
    fun hv hrank hs => ⟨_, _, _, hs, Function.update_self .., hrank, hv⟩
  cases hstage : t.stage with
  | ended result => exact .inl ⟨result, rfl⟩
  | committed =>
    rw [hstage] at hnext
    cases halive : (w.continuations g).isClosed with
    | false => exact .inr (hnext (by rfl) (by decide) (.stage g ht hstage halive))
    | true => exact .inr (hnext rfl (by simp [ResponseStage.rank]) (.gone g ht (.inl hstage) halive))
  | staged =>
    rw [hstage] at hnext
    cases halive : (w.continuations g).isClosed with
    | false => exact .inr (hnext rfl (by decide) (.check g ht hstage halive))
    | true => exact .inr (hnext rfl (by simp [ResponseStage.rank]) (.gone g ht (.inr hstage) halive))
  | checked =>
    rw [hstage] at hnext
    cases hpublish : w.record.publishResolvedExact t.key g t.digest 0 with
    | ok published => exact .inr (hnext (by rfl) (by decide) (.publish g 0 ht hstage hpublish))
    | error e =>
      exact .inr (hnext rfl (by simp [ResponseStage.rank]) (.unpublished g 0 e ht hstage (.inl hpublish)))
  | published =>
    rw [hstage] at hnext
    exact .inr (hnext (by rfl) (by decide) (.acknowledge g ht hstage))
  | acknowledged =>
    rw [hstage] at hnext
    exact .inr (hnext rfl (by simp [ResponseStage.rank]) (.complete g ht hstage))
  | aborting cause failure =>
    rw [hstage] at hnext
    exact .inr (hnext (by rfl) (by simp [ResponseStage.rank]) (.abort g 0 ht hstage rfl))
  | aborted failure =>
    rw [hstage] at hnext
    exact .inr (hnext (by rfl) (by simp [ResponseStage.rank]) (.inform g ht hstage))
  | notified failure =>
    rw [hstage] at hnext
    exact .inr (hnext rfl (by simp [ResponseStage.rank]) (.giveUp g ht hstage))

variable (submit) in
/-- A transaction can be brought to its end, with every responder where it is. -/
theorem exists_ended {t : ResponseCommit} (ht : w.transactions g = some t) :
    ∃ es w' t' result, Lts.Run (Step submit) w es w' ∧ w'.transactions g = some t' ∧
      t'.stage = .ended result ∧ w'.responders = w.responders := by
  induction hn : t.stage.rank using Nat.strong_induction_on generalizing w t with
  | _ n ih =>
    obtain ⟨result, hended⟩ | ⟨l, w', t', hs, ht', hrank, hsame⟩ := exists_advance submit ht
    · exact ⟨[], w, t, result, .nil w, ht, hended, rfl⟩
    · obtain ⟨es, w'', t'', result, hrun, ht'', hended, hsame'⟩ := ih _ (hn ▸ hrank) ht' rfl
      exact ⟨l :: es, w'', t'', result, .cons hs hrun, ht'', hended, hsame'.trans hsame⟩

/-- The responder can be brought to its answer. -/
def BecomesAnswered (submit : ρ → ResponseSubmission) (w : Interactions ρ) (i : ρ) : Prop :=
  ∃ es w' of result, Lts.Run (Step submit) w es w' ∧ w'.responders i = .answered of result

theorem BecomesAnswered.cons {l : Label} {w' : Interactions ρ} (hs : Step submit w l w') (h : BecomesAnswered submit w' i) :
    BecomesAnswered submit w i := by
  obtain ⟨es, w'', of, result, hrun, hdone⟩ := h
  exact ⟨l :: es, w'', of, result, .cons hs hrun, hdone⟩

/-- A responder that awaits a transaction is told its end. -/
theorem answers_of_awaiting {t : ResponseCommit} (ht : w.transactions g = some t)
    (hwaits : w.responders i = .leading g ∨ w.responders i = .following g ∧ (submit i).channel ≠ .core) :
    BecomesAnswered submit w i := by
  obtain ⟨es, w', t', result, hrun, ht', hended, hsame⟩ := exists_ended submit ht
  rw [← hsame] at hwaits
  exact ⟨_, _, some g, result, hrun.snoc (.answer i g hwaits ht' hended), Function.update_self ..⟩

/-- A responder between the two locks gets past the second. -/
theorem answers_of_validating (h : Sound submit w) (howned : (submit i).channel ≠ .core)
    {request : InteractionRequest} {digest : BitVec 256}
    (busy : w.responders i = .validating g request digest) : BecomesAnswered submit w i := by
  have hanswered : ∀ {l : Label} {v : Interactions ρ} {of : Option Nat}
      {result : Except InteractionFailure Unit},
      Step submit w l (v.withResponder i (.answered of result)) → BecomesAnswered submit w i :=
    fun hs => .cons hs ⟨[], _, _, _, .nil _, Function.update_self ..⟩
  cases hvalid : validateInteractionResponse request (submit i).params.response with
  | error e => exact hanswered (.invalid i busy hvalid)
  | ok valid =>
    cases hfind : w.record.find (submit i).channel.requireEnabled (submit i).key digest with
    | error failure =>
      have hs : Step submit w .silent (w.withResponder i (.answered none (.error failure))) :=
        .second i busy hvalid (by simp [Responder.second, hfind])
      exact hanswered hs
    | ok found =>
      cases found with
      | same current =>
        have hs : Step submit w .silent (w.withResponder i (.following current)) :=
          .second i busy hvalid (by simp [Responder.second, hfind])
        have hknows := (h.step hs).responders i
        rw [show (w.withResponder i (.following current)).responders i = _ from
          Function.update_self ..] at hknows
        obtain ⟨t, ht, -⟩ := hknows
        exact .cons hs (answers_of_awaiting ht (.inr ⟨Function.update_self .., howned⟩))
      | «open» entry =>
        by_cases hg : entry.generation = g
        · subst hg
          cases hclosed : (w.continuations entry.generation).isClosed with
          | true => exact hanswered (.removeClosed i 0 busy hvalid hfind hclosed rfl)
          | false =>
            exact .cons (.lead i busy hvalid hfind hclosed)
              (answers_of_awaiting (Function.update_self ..) (.inl (Function.update_self ..)))
        · have hs : Step submit w .silent
              (w.withResponder i (.answered none (.error (.notFound "InteractionNotFound")))) :=
            .second i busy hvalid (by simp [Responder.second, hfind, hg])
          exact hanswered hs

/-- A handler that is not dropped can be brought to its answer. -/
theorem exists_answer (h : Sound submit w) (howned : (submit i).channel ≠ .core)
    (hgone : w.responders i ≠ .gone) (hreleased : ∀ g, w.responders i ≠ .released g) :
    BecomesAnswered submit w i := by
  have hknows := h.responders i
  cases hi : w.responders i with
  | gone => exact absurd hi hgone
  | released g => exact absurd hi (hreleased g)
  | answered of result => exact ⟨[], w, of, result, .nil w, hi⟩
  | leading g =>
    rw [hi] at hknows
    obtain ⟨t, ht, -⟩ := hknows
    exact answers_of_awaiting ht (.inl hi)
  | following g =>
    rw [hi] at hknows
    obtain ⟨t, ht, -⟩ := hknows
    exact answers_of_awaiting ht (.inr ⟨hi, howned⟩)
  | validating g request digest => exact answers_of_validating h howned hi
  | idle =>
    have hs : Step submit w .silent _ := .first i hi
    have hself : (w.withResponder i (.first w.registered w.record (submit i))).responders i =
        .first w.registered w.record (submit i) := Function.update_self ..
    have hsound := h.step hs
    have hknows' := hsound.responders i
    rw [hself] at hknows'
    refine .cons hs ?_
    cases hphase : Responder.firstPhase w.registered w.record (submit i) with
    | error failure =>
      have hfirst : Responder.first w.registered w.record (submit i) = .answered none (.error failure) := by
        simp only [Responder.first, hphase]
      exact ⟨[], _, _, _, .nil _, hself.trans hfirst⟩
    | ok found =>
      obtain ⟨digest, found⟩ := found
      cases found with
      | same g =>
        have hfirst : Responder.first w.registered w.record (submit i) = .following g := by
          simp only [Responder.first, hphase]
        rw [hfirst] at hknows'
        obtain ⟨t, ht, -⟩ := hknows'
        exact answers_of_awaiting ht (.inr ⟨hself.trans hfirst, howned⟩)
      | «open» entry =>
        have hfirst : Responder.first w.registered w.record (submit i) =
            .validating entry.generation entry.request digest := by
          simp only [Responder.first, hphase]
        exact answers_of_validating hsound howned (hself.trans hfirst)

/-- The handlers of the owner are never released. -/
theorem Step.unreleased {l : Label} {w' : Interactions ρ} (hs : Step submit w l w')
    (howned : (submit i).channel ≠ .core) (h : ∀ g, w.responders i ≠ .released g) (g : Nat) :
    w'.responders i ≠ .released g := by
  have hother : ∀ {v : Interactions ρ} {j : ρ} {next : Responder}, v.responders = w.responders →
      (j = i → next ≠ .released g) → (v.withResponder j next).responders i ≠ .released g := by
    intro v j next hv hne
    by_cases hj : i = j
    · subst hj
      rw [show (v.withResponder i next).responders i = next from Function.update_self ..]
      exact hne rfl
    · rw [show (v.withResponder j next).responders i = v.responders i from Function.update_of_ne hj ..,
        hv]
      exact h g
  cases hs with
  | first j idle =>
    refine hother rfl fun _ => ?_
    unfold Responder.first
    split <;> simp
  | second j busy valid found =>
    refine hother rfl fun _ => ?_
    unfold Responder.second at found
    split at found
    · cases found; simp
    · cases found; simp
    · split at found <;> cases found
      simp
  | invalid | removeClosed | lead | answer | leave => exact hother (by rfl) fun _ => by simp
  | dropLeader j g' leading txn stage answer =>
    refine hother (v := w.advance g' _ _) rfl fun _ => ?_
    rcases answer with rfl | ⟨message, rfl⟩ <;> simp
  | delegate j g' leading core =>
    exact hother (v := w) rfl fun hj => absurd (hj ▸ core) howned
  | release j g' following core => exact hother rfl fun hj => absurd (hj ▸ core) howned
  | _ => exact h g

end Interactions

/-! ## The handlers -/

section
variable [External]

/-- The handler gets its parameters through: those that it makes are valid, or the modified arguments are
missing. -/
def RunApprovalParams.Answerable (p : RunApprovalParams) : Prop :=
  ∀ response, p.response = some response → (p.submission response).params.validate p.threadId = .ok ()

/-- A call of `turn.approval` with the parameters, or of `approval.resolve` that is converted to them. -/
inductive Handles (sessions : List OwnedRecord) (runs : RunRegistry) (connection : String)
    (p : RunApprovalParams) : ApprovalHandling → Prop
  | run : Handles sessions runs connection p (handleRunApproval runs connection p)
  | resolve (a : ApprovalResolveParams) (threadId turnId : String)
      (target : a.target sessions runs connection = some (threadId, turnId))
      (converted : p = a.converted threadId turnId) :
      Handles sessions runs connection p (handleApprovalResolve sessions runs connection a)

variable {sessions : List OwnedRecord} {runs : RunRegistry} {connection : String} {p : RunApprovalParams}
  {h : ApprovalHandling}

/-- Both calls are the handler of a typed approval. -/
theorem Handles.eq (hcall : Handles sessions runs connection p h) :
    h = handleRunApproval runs connection p := by
  cases hcall with
  | run => rfl
  | resolve a threadId turnId target converted =>
    subst converted
    unfold handleApprovalResolve
    rw [target]

theorem handleRunApproval_panicked_iff {run : RunRecord}
    (hrun : runs.find p.threadId p.turnId connection = .ok run) :
    handleRunApproval runs connection p = .panicked ↔ ¬ p.Answerable := by
  unfold handleRunApproval RunApprovalParams.Answerable
  rw [hrun]
  cases hresponse : p.response with
  | none => simp
  | some response =>
    cases hvalid : (p.submission response).params.validate p.threadId with
    | error e => simp [hvalid]
    | ok => simp [hvalid]

/-- What is handed to the registry has been validated. -/
theorem handleRunApproval_submitted {q : RunApprovalParams} {s : ResponseSubmission}
    (hs : handleRunApproval runs connection p = .submitted q s) :
    q = p ∧ s.channel = .owned false ∧ s.key = (p.turnId, p.requestId) := by
  unfold handleRunApproval at hs
  split at hs
  · cases hs
  · split at hs
    · cases hs
    · split at hs <;> cases hs
      exact ⟨rfl, rfl, rfl⟩

/-- A request that names no run of the connection is answered before anything is unwrapped. -/
theorem handleApprovalResolve_panicked {a : ApprovalResolveParams}
    (ha : handleApprovalResolve sessions runs connection a = .panicked) :
    ∃ p run, Handles sessions runs connection p .panicked ∧
      runs.find p.threadId p.turnId connection = .ok run ∧ ¬ p.Answerable := by
  cases htarget : a.target sessions runs connection with
  | none =>
    unfold handleApprovalResolve at ha
    rw [htarget] at ha
    cases ha
  | some target =>
    obtain ⟨threadId, turnId⟩ := target
    have hcall := Handles.resolve (p := a.converted threadId turnId) a threadId turnId htarget rfl
    rw [ha] at hcall
    cases hrun : runs.find threadId turnId connection with
    | error e =>
      have hpanic := hcall.eq
      unfold handleRunApproval at hpanic
      rw [show runs.find (a.converted threadId turnId).threadId (a.converted threadId turnId).turnId
        connection = _ from hrun] at hpanic
      cases hpanic
    | ok run =>
      exact ⟨_, run, hcall, hrun, (handleRunApproval_panicked_iff hrun).mp hcall.eq.symm⟩

omit [External] in
theorem RunApprovalParams.reply_error {result : Except InteractionFailure Unit} {e : JSONRPCError}
    (h : p.reply result = .error e) : ∃ failure, result = .error failure := by
  cases result with
  | ok => cases h
  | error failure => exact ⟨failure, rfl⟩

end

section
variable {ρ : Type} [DecidableEq ρ] [External] [InteractionHost]

open Interactions

/-- A typed approval of a live run gets its answer exactly when the parameters that it is turned into are
valid, whichever method asks for it. From there on, in every session and whatever the others do:

* as long as its handler is not dropped, the answer can be reached;
* when the answer is an error, the request that it named and that waited is still there, with nothing sent
  to its continuation, unless another responder led it, a cleanup took it, or its continuation or its
  session was gone. -/
theorem typed_approval_answered_iff {sessions : List OwnedRecord} {runs : RunRegistry}
    {connection : String} {p : RunApprovalParams} {h : ApprovalHandling} {run : RunRecord}
    (hrun : runs.find p.threadId p.turnId connection = .ok run)
    (hcall : Handles sessions runs connection p h) :
    (h ≠ .panicked ↔ p.Answerable) ∧
    ∀ (submit : ρ → ResponseSubmission) (i : ρ) (q : RunApprovalParams), h = .submitted q (submit i) →
      ∀ (streamId : String) (enabled : Bool) (limits : EventJournalLimits) (record : InteractionRecord),
        InteractionRecord.new p.threadId streamId enabled limits = .ok record →
      ∀ (es : List Label) (w₁ : Interactions ρ), Lts.Run (Step submit) (start record) es w₁ →
        (w₁.responders i ≠ .gone → BecomesAnswered submit w₁ i) ∧
        ∀ (fs : List Label) (w₂ : Interactions ρ) (entry : PendingEntry) (of : Option Nat)
          (result : Except InteractionFailure Unit) (e : JSONRPCError),
          Lts.Run (PublishingStep submit i) w₁ fs w₂ →
          w₁.record.entries.get? (p.turnId, p.requestId) = some (.pending entry) →
          w₂.responders i = .answered of result → q.reply result = .error e →
          Spared submit i w₁ (p.turnId, p.requestId) entry w₂ := by
  refine ⟨?_, fun submit i q hs streamId enabled limits record hnew es w₁ hrun₁ => ?_⟩
  · rw [hcall.eq, ne_eq, handleRunApproval_panicked_iff hrun, not_not]
  · obtain ⟨-, hchannel, -⟩ := handleRunApproval_submitted (hcall.eq.symm.trans hs)
    have howned : (submit i).channel ≠ .core := by rw [hchannel]; simp
    have hstart : Sound submit (start record : Interactions ρ) := sound_start (new_entries hnew)
    have hsound := hstart.run hrun₁
    refine ⟨fun hgone => ?_, fun fs w₂ entry of result e hrun₂ hget hdone hreply => ?_⟩
    · refine exists_answer hsound howned hgone ?_
      exact hrun₁.invariant (fun w => ∀ g, w.responders i ≠ .released g)
        (fun _ _ _ hu hs => hs.unreleased howned hu) fun _ => by simp [start]
    · obtain ⟨failure, rfl⟩ := RunApprovalParams.reply_error hreply
      exact spared_of_error hsound howned hrun₂ hget hdone

end

/-! ## Samples -/

namespace Sample

/-- Small values, and responses that no schema accepts. -/
@[reducible] def gauge : External where
  parseUuid _ := false
  sha256Hex s := s
  itemsBytes _ := .error "not a sample input"
  valueBytes _ := .ok 40
  deserializeError _ := "invalid type"

@[reducible] def picky : InteractionHost where
  build _ := .ok ()
  accepts _ _ := false
  hmac _ := .ok 7
  eventBytes _ := .ok 200

/-- The registry of one run. -/
def liveRuns : RunRegistry where
  live := KeyMap.empty.insert ("t", "r") ⟨"c", LiveRun.initialSnapshot ⟨"t", "r", [], none, 10, none⟩⟩
  expired := .empty

def rejection : RunApprovalParams where
  threadId := "t"
  turnId := "r"
  requestId := "q"
  decision := .reject
  feedback := some "no"

/-- The rejection, with an id that is padded. -/
def paddedRejection : RunApprovalParams := { rejection with requestId := " q" }

def rejectionValue : Value := .object [("decision", .string "reject"), ("feedback", .string "no")]

def reject (_ : Unit) : ResponseSubmission := rejection.submission rejectionValue

/-- A request with a schema. -/
def strict : InteractionRequest := ⟨kindToolApproval, "t", .object [], some (.object [])⟩

def strictEntry : PendingEntry := ⟨strict, 1, .core, true⟩

/-- The session with the request. -/
def strictRecord : InteractionRecord := (@InteractionRecord.begin gauge picky staffed "r" "q" strict .core 0).2.1

def strictEvents : List InteractionEventEnvelope :=
  (@InteractionRecord.begin gauge picky staffed "r" "q" strict .core 0).2.2

def strictWaiting : Interactions Unit where
  record := strictRecord
  continuations := Function.update (fun _ => .absent) 1 .waiting
  requests := Function.update (fun _ => none) 1 (some (("r", "q"), strict))

/-- What the record does with the request and the rejection. -/
class StrictCalls : Prop where
  begun : (@InteractionRecord.begin gauge picky staffed "r" "q" strict .core 0).1 = .ok 1
  first : letI := gauge
    letI := picky
    Responder.first strictWaiting.registered strictWaiting.record (reject ()) = .validating 1 strict 7

instance strict_calls : StrictCalls where
  begun := by decide +kernel
  first := by decide +kernel

theorem begin_strict : @InteractionRecord.begin gauge picky staffed "r" "q" strict .core 0 =
    (.ok 1, strictRecord, strictEvents) :=
  Prod.ext strict_calls.begun rfl

theorem strictWaiting_run : Lts.Run (@Interactions.Step Unit _ gauge picky reject)
    (Interactions.start desk) [.locked [], .begin "r" strictEvents] strictWaiting := by
  let := gauge
  let := picky
  exact .cons (.register "r" 1 rfl) (.single (.begin "r" "q" strict .core 0 begin_strict))

theorem rejection_submitted : @handleRunApproval gauge liveRuns "c" rejection =
    .submitted rejection (reject ()) := by
  rfl

theorem rejection_answerable : @RunApprovalParams.Answerable gauge rejection := by
  let := gauge
  intro response hresponse
  cases hresponse
  decide +kernel

/-- The rejection does not match the schema. -/
theorem strict_refused : ∃ fs w, Lts.Run (@Interactions.PublishingStep Unit _ gauge picky reject ())
      strictWaiting fs w ∧
    w.responders () = .answered none
      (.error (.responseInvalid "Interaction response does not match response_schema")) := by
  let := gauge
  let := picky
  have hfirst : Responder.first strictWaiting.registered strictWaiting.record (reject ()) =
      .validating 1 strict 7 := strict_calls.first
  have h1 : Interactions.Step reject strictWaiting .silent
      (strictWaiting.withResponder () (.validating 1 strict 7)) := hfirst ▸ .first () rfl
  have h2 : Interactions.Step reject (strictWaiting.withResponder () (.validating 1 strict 7)) .silent
      _ := .invalid () rfl
        (e := .responseInvalid "Interaction response does not match response_schema") (by decide +kernel)
  refine ⟨_, _, .cons ⟨h1, fun g t failure hlead => ?_⟩ (.single ⟨h2, fun g t failure hlead => ?_⟩), rfl⟩
  · cases hlead
  · cases hlead

end Sample

/-- The request of the sample is still there after the error. -/
theorem typed_approval_sample :
    @handleRunApproval Sample.gauge Sample.liveRuns "c" Sample.rejection ≠ .panicked ∧
    ∃ w, @Interactions.Spared Unit _ Sample.gauge Sample.picky Sample.reject () Sample.strictWaiting
      ("r", "q") Sample.strictEntry w := by
  obtain ⟨hanswered, hruns⟩ := @typed_approval_answered_iff Unit _ Sample.gauge Sample.picky []
    Sample.liveRuns "c" Sample.rejection _ _ rfl (@Handles.run Sample.gauge ..)
  obtain ⟨fs, w, hrun, hdone⟩ := Sample.strict_refused
  obtain ⟨-, hspared⟩ := hruns Sample.reject () Sample.rejection Sample.rejection_submitted "s" true
    interactionJournalLimits Sample.desk rfl _ _ Sample.strictWaiting_run
  exact ⟨hanswered.mpr Sample.rejection_answerable, w,
    hspared fs w Sample.strictEntry none _ _ hrun (by decide +kernel) hdone rfl⟩

/-- The handler of a live run unwraps the refusal of a padded request id. -/
theorem padded_approval_panics : ¬ ∀ (runs : RunRegistry) (connection : String) (p : RunApprovalParams)
    (run : RunRecord), runs.find p.threadId p.turnId connection = .ok run →
      @handleRunApproval Sample.gauge runs connection p ≠ .panicked := by
  intro hanswered
  exact hanswered Sample.liveRuns "c" Sample.paddedRejection _ rfl rfl

end Whale
