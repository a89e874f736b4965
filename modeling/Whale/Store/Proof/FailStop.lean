import Whale.Store.Worker
import Whale.Store.Proof.Partition

/-!
# Poisoning is fail-stop

`serve_cases` says what one pass of the worker can do: answer a poisoned command, poison itself
without a write, refuse a command and stay as it was, answer it, or end in an exchange. From it
follow the three parts of `journal_fail_stop`: after the first failed call nothing is loaded or
written, a refused command changes nothing, and the stored record is the fold of the acknowledged
commands and at most one more.
-/

namespace Whale

open Check

section
variable [External]

theorem applied_of_submit {r : SessionRecord} {lease : Lease} {c : Command} {new : SessionRecord}
    {expected : Nat} {response : Response}
    (h : afterLoad lease c.inputs c.action (.ok (some r)) = .exchange expected new response) :
    new = c.applied r ∧ expected = r.revision := by
  have hs : (Writer.journal lease c.inputs c.action).submit r =
      some ⟨expected, new, some response⟩ := by
    show (afterLoad lease c.inputs c.action (.ok (some r))).submission = _
    rw [h]
    rfl
  obtain ⟨-, hrec, response', r₁, next, happ, hnext, he⟩ := journal_submit hs
  cases he
  refine ⟨?_, rfl⟩
  have hn : next = r.revision + 1 := (checkedSucc_some hnext).1
  unfold Command.applied
  cases ha : c.action with
  | record => exact absurd ha hrec
  | _ => rw [ha] at happ; simp only [happ, hn]

/-- What one pass of an unpoisoned worker does. -/
inductive Pass (l : Lease) (w : Worker) (c : Command) : Worker → Served → Prop
  | unloaded {cause : String} {e : StoreError} {result : Except StoreError (Option SessionRecord)}
      (failed : (BackendCall.load result).failed = true) :
      Pass l w c ⟨some cause, w.records⟩ ⟨.error e, [.load result]⟩
  | refused {r : SessionRecord} {e : StoreError} (stored : w.records.get? l.id = some r) :
      Pass l w c w ⟨.error e, [.load (.ok (some r))]⟩
  | read {r : SessionRecord} (stored : w.records.get? l.id = some r) (action : c.action = .record) :
      Pass l w c w ⟨.ok (.record r), [.load (.ok (some r))]⟩
  | written {r : SessionRecord} {response : Response} (stored : w.records.get? l.id = some r) :
      Pass l w c ⟨none, w.records.insert l.id (c.applied r)⟩
        ⟨.ok response, [.load (.ok (some r)), .exchange r.revision (c.applied r) (.ok ())]⟩
  | uncertain {r : SessionRecord} {cause : String} {e e' : StoreError} {records : Records}
      (stored : w.records.get? l.id = some r)
      (kept : records = w.records ∨ records = w.records.insert l.id (c.applied r)) :
      Pass l w c ⟨some cause, records⟩
        ⟨.error e, [.load (.ok (some r)), .exchange r.revision (c.applied r) (.error e')]⟩

theorem perform_cases (b : ExchangeBehaviour) (s : Records) (id : String) (expected : Nat)
    (new : SessionRecord) :
    (∃ s', s.compareExchange id expected new = .ok s' ∧ b.perform s id expected new = (.ok (), s')) ∨
    ∃ e s', b.perform s id expected new = (.error e, s') ∧ (s' = s ∨ s' = s.insert id new) := by
  unfold ExchangeBehaviour.perform
  cases hc : s.compareExchange id expected new with
  | error e' =>
    cases b with
    | honest => exact .inr ⟨e', s, rfl, .inl rfl⟩
    | failsBefore e => exact .inr ⟨e, s, rfl, .inl rfl⟩
    | failsAfter e => exact .inr ⟨e', s, rfl, .inl rfl⟩
  | ok s' =>
    obtain ⟨_, -, -, rfl⟩ := compareExchange_ok hc
    cases b with
    | honest => exact .inl ⟨_, rfl, rfl⟩
    | failsBefore e => exact .inr ⟨e, s, rfl, .inl rfl⟩
    | failsAfter e => exact .inr ⟨e, _, rfl, .inr rfl⟩

theorem afterLoad_unloaded (l : Lease) (inp : Inputs) (action : Action)
    {loaded : Except StoreError (Option SessionRecord)}
    (h : (BackendCall.load loaded).failed = true) :
    ∃ e cause, afterLoad l inp action loaded = .answer (.error e) (some cause) := by
  match loaded with
  | .error e => exact ⟨e, _, rfl⟩
  | .ok none => exact ⟨_, _, rfl⟩
  | .ok (some r) => cases h

/-- After a successful load the worker refuses, reads, or goes on to an exchange. -/
theorem afterLoad_loaded (l : Lease) (inp : Inputs) (action : Action) (r : SessionRecord) :
    (∃ e, afterLoad l inp action (.ok (some r)) = .answer (.error e) none) ∨
    (action = .record ∧ afterLoad l inp action (.ok (some r)) = .answer (.ok (.record r)) none) ∨
    ∃ expected new response,
      afterLoad l inp action (.ok (some r)) = .exchange expected new response := by
  cases hl : l.holds r with
  | false => exact .inl ⟨.staleLease, by simp [afterLoad, hl]⟩
  | true =>
    by_cases ha : action = .record
    · exact .inr (.inl ⟨ha, by simp [afterLoad, hl, ha]⟩)
    · rw [afterLoad_holds hl ha]
      cases happ : apply r inp action with
      | error e => exact .inl ⟨e, rfl⟩
      | ok p =>
        cases hn : checkedSucc r.revision with
        | none => exact .inl ⟨.conflict, rfl⟩
        | some next => exact .inr (.inr ⟨_, _, _, rfl⟩)

omit [External] in
/-- A load that does not fail finds the stored record. -/
theorem LoadBehaviour.result_some {b : LoadBehaviour} {stored : Option SessionRecord}
    (h : (BackendCall.load (b.result stored)).failed = false) :
    ∃ r, b.result stored = .ok (some r) ∧ stored = some r := by
  cases b with
  | honest =>
    cases stored with
    | none => cases h
    | some r => exact ⟨r, rfl, rfl⟩
  | missing => cases h
  | fails e => cases h

/-- One pass of an unpoisoned worker. -/
theorem serve_pass {l : Lease} {w : Worker} {c : Command} (b : Behaviour) (hw : w.poison = none) :
    Pass l w c (w.serve l c b).1 (w.serve l c b).2 := by
  obtain ⟨poison, records⟩ := w
  obtain rfl : poison = none := hw
  simp only [Worker.serve]
  cases hf : (BackendCall.load (b.load.result (records.get? l.id))).failed with
  | true =>
    obtain ⟨e, cause, ha⟩ := afterLoad_unloaded l c.inputs c.action hf
    rw [ha]
    exact .unloaded hf
  | false =>
    obtain ⟨r, hr, hstored⟩ := LoadBehaviour.result_some hf
    rw [hr]
    obtain ⟨e, ha⟩ | ⟨hrec, ha⟩ | ⟨expected, new, response, ha⟩ :=
      afterLoad_loaded l c.inputs c.action r
    · rw [ha]; exact .refused hstored
    · rw [ha]; exact .read hstored hrec
    · obtain ⟨rfl, rfl⟩ := applied_of_submit ha
      rw [ha]
      obtain ⟨s', hs, hp⟩ | ⟨e, s', hp, hs⟩ := 
        perform_cases b.exchange records l.id r.revision (c.applied r)
      · obtain ⟨_, -, -, rfl⟩ := compareExchange_ok hs
        simp only [hp]
        exact .written hstored
      · simp only [hp]
        exact .uncertain hstored hs

/-- A poisoned worker makes no call and answers `Poisoned`. -/
theorem run_poisoned (l : Lease) {cause : String} : ∀ (cs : List (Command × Behaviour)) {w : Worker},
    w.poison = some cause → (w.run l cs).1 = w ∧
      ∀ o ∈ (w.run l cs).2, o.calls = [] ∧ o.reply = .error (.poisoned cause)
  | [], w, _ => ⟨rfl, by simp [Worker.run]⟩
  | (c, b) :: cs, w, hw => by
    have hserve : w.serve l c b = (w, ⟨.error (.poisoned cause), []⟩) := by
      simp only [Worker.serve, hw]
    obtain ⟨h1, h2⟩ := run_poisoned l cs hw
    simp only [Worker.run, hserve, List.mem_cons]
    refine ⟨h1, fun o ho => ?_⟩
    rcases ho with rfl | ho
    · exact ⟨rfl, rfl⟩
    · exact h2 o ho

theorem run_length (l : Lease) : ∀ (cs : List (Command × Behaviour)) (w : Worker),
    (w.run l cs).2.length = cs.length
  | [], _ => rfl
  | (c, b) :: cs, w => by simp [Worker.run, run_length l cs]

/-- The exchange of the pass was reached and failed. -/
def Served.exchangeFailed (o : Served) : Prop :=
  (∃ e, o.reply = .error e) ∧ ∃ expected new e, BackendCall.exchange expected new (.error e) ∈ o.calls

/-- After a failed call the worker is poisoned, after any other pass it is not. -/
theorem Pass.poison_iff {l : Lease} {w w' : Worker} {c : Command} {o : Served}
    (h : Pass l w c w' o) (hw : w.poison = none) :
    (∃ call ∈ o.calls, call.failed = true) ↔ ∃ cause, w'.poison = some cause := by
  cases h with
  | unloaded failed => simp [failed]
  | refused stored => simp [hw, BackendCall.failed]
  | read stored action => simp [hw, BackendCall.failed]
  | written stored => simp [BackendCall.failed]
  | uncertain stored kept => simp [BackendCall.failed]

/-- Nothing is loaded or written after the first failed call. -/
theorem run_after_failure {l : Lease} : ∀ {cs : List (Command × Behaviour)} {w : Worker}
    {pre post : List Served} {o : Served}, w.poison = none → (w.run l cs).2 = pre ++ o :: post →
    (∃ call ∈ o.calls, call.failed = true) →
    ∀ p ∈ post, p.calls = [] ∧ ∃ cause, p.reply = .error (.poisoned cause)
  | [], w, pre, post, o, _, h, _ => by simp [Worker.run] at h
  | (c, b) :: cs, w, pre, post, o, hw, h, hf => by
    have hpass := serve_pass (l := l) (c := c) b hw
    simp only [Worker.run] at h
    cases hp : (w.serve l c b).1.poison with
    | some cause =>
      -- this pass or an earlier one: the rest is answered `Poisoned`
      obtain ⟨-, hrest⟩ := run_poisoned l cs hp
      intro p hm
      have hmem : p ∈ ((w.serve l c b).1.run l cs).2 := by
        cases pre with
        | nil =>
          rw [List.nil_append, List.cons.injEq] at h
          exact h.2 ▸ hm
        | cons x pre =>
          rw [List.cons_append, List.cons.injEq] at h
          rw [h.2]
          simp [hm]
      exact ⟨(hrest p hmem).1, cause, (hrest p hmem).2⟩
    | none =>
      cases pre with
      | nil =>
        rw [List.nil_append, List.cons.injEq] at h
        rw [← h.1, hpass.poison_iff hw, hp] at hf
        obtain ⟨_, hf⟩ := hf
        cases hf
      | cons x pre =>
        rw [List.cons_append, List.cons.injEq] at h
        exact run_after_failure hp h.2 hf

/-- After `cs` the stored record is the fold of the acknowledged commands over `r`, and at most one
more: the one whose exchange failed. The other records stay. -/
def Folded (l : Lease) (w : Worker) (cs : List (Command × Behaviour)) (r : SessionRecord) : Prop :=
  (∀ id, id ≠ l.id → (w.run l cs).1.records.get? id = w.records.get? id) ∧
  ∃ extra : Option Command, (w.run l cs).1.records.get? l.id =
      some ((acknowledged cs (w.run l cs).2 ++ extra.toList).foldl Command.applied r) ∧
    ∀ c, extra = some c → ∃ cs₁ b cs₂ o, cs = cs₁ ++ (c, b) :: cs₂ ∧
      (w.run l cs).2[cs₁.length]? = some o ∧ o.exchangeFailed

/-- A pass after which the worker goes on with the record `r'`. -/
theorem Folded.go {l : Lease} {w w' : Worker} {c : Command} {b : Behaviour} {o : Served}
    {cs : List (Command × Behaviour)} {r r' : SessionRecord} (hs : w.serve l c b = (w', o))
    (hother : ∀ id, id ≠ l.id → w'.records.get? id = w.records.get? id)
    (hr : r' = (if o.reply.isOk then [c] else []).foldl Command.applied r)
    (h : Folded l w' cs r') : Folded l w ((c, b) :: cs) r := by
  obtain ⟨h1, extra, h2, h3⟩ := h
  simp only [Folded, Worker.run, hs]
  refine ⟨fun id hid => (h1 id hid).trans (hother id hid), extra, ?_, fun x hx => ?_⟩
  · rw [h2, hr]
    cases ho : o.reply.isOk <;> simp [acknowledged, ho, List.foldl_append]
  · obtain ⟨cs₁, b', cs₂, o', rfl, hget, hf⟩ := h3 x hx
    exact ⟨(c, b) :: cs₁, b', cs₂, o', rfl, by simpa using hget, hf⟩

/-- A pass that poisons the worker. -/
theorem Folded.stop {l : Lease} {w w' : Worker} {c : Command} {b : Behaviour} {o : Served}
    {cs : List (Command × Behaviour)} {r : SessionRecord} {cause : String} (extra : Option Command)
    (hs : w.serve l c b = (w', o)) (hp : w'.poison = some cause) (hno : o.reply.isOk = false)
    (hother : ∀ id, id ≠ l.id → w'.records.get? id = w.records.get? id)
    (hr : w'.records.get? l.id = some (extra.toList.foldl Command.applied r))
    (hx : ∀ x, extra = some x → x = c ∧ o.exchangeFailed) : Folded l w ((c, b) :: cs) r := by
  obtain ⟨h1, h2⟩ := run_poisoned l cs hp
  have hack : acknowledged ((c, b) :: cs) (o :: (w'.run l cs).2) = [] := by
    rw [acknowledged, List.filterMap_eq_nil_iff]
    intro p hm
    rw [List.zip_cons_cons, List.mem_cons] at hm
    rcases hm with rfl | hm
    · simp [hno]
    · rw [(h2 p.2 (List.of_mem_zip hm).2).2]
      rfl
  simp only [Folded, Worker.run, hs, h1, hack]
  refine ⟨hother, extra, by rw [hr, List.nil_append], fun x he => ?_⟩
  obtain ⟨rfl, hf⟩ := hx x he
  exact ⟨[], b, cs, o, rfl, rfl, hf⟩

theorem run_folded {l : Lease} : ∀ {cs : List (Command × Behaviour)} {w : Worker}
    {r : SessionRecord}, w.poison = none → w.records.get? l.id = some r → Folded l w cs r
  | [], w, r, _, hr => ⟨fun _ _ => rfl, none, by simpa [Worker.run, acknowledged] using hr, by simp⟩
  | (c, b) :: cs, w, r, hw, hr => by
    have hpass := serve_pass (l := l) (c := c) b hw
    generalize hs : w.serve l c b = p at hpass
    obtain ⟨w', o⟩ := p
    dsimp only at hpass
    cases hpass with
    | unloaded failed =>
      exact .stop none hs rfl rfl (fun _ _ => rfl) hr (fun x h => (nomatch h))
    | refused stored => exact .go hs (fun _ _ => rfl) rfl (run_folded hw hr)
    | @read r' stored action =>
      refine .go hs (fun _ _ => rfl) ?_ (run_folded hw hr)
      show r = c.applied r
      rw [Command.applied, action]
    | @written r' response stored =>
      rw [hr] at stored
      cases stored
      exact .go hs (fun id hid => OrdMap.get?_insert_ne _ _ hid.symm) rfl
        (run_folded rfl (OrdMap.get?_insert_self _ _ _))
    | @uncertain r' cause e e' records stored kept =>
      rw [hr] at stored
      cases stored
      have hf : Served.exchangeFailed ⟨.error e, [.load (.ok (some r)),
          .exchange r.revision (c.applied r) (.error e')]⟩ :=
        ⟨⟨e, rfl⟩, r.revision, c.applied r, e', by simp⟩
      rcases kept with rfl | rfl
      · exact .stop none hs rfl rfl (fun _ _ => rfl) hr (fun x h => (nomatch h))
      · exact .stop (some c) hs rfl rfl
          (fun id hid => OrdMap.get?_insert_ne _ _ hid.symm) (OrdMap.get?_insert_self _ _ _)
          (fun x h => by cases h; exact ⟨rfl, hf⟩)

/-- A worker over any backend behaviour. After the first failed or empty load or failed exchange it
makes no backend call and answers every command `Poisoned`; a command refused by the lease check, by
`apply` or for lack of a next revision leaves the worker and the records as they were; and the stored
record is the fold of `apply` over the commands acknowledged as successful, plus at most the one whose
exchange failed. -/
theorem journal_fail_stop {l : Lease} {w : Worker} {r : SessionRecord}
    (cs : List (Command × Behaviour)) (hw : w.poison = none) (hr : w.records.get? l.id = some r) :
    (∀ pre o post, (w.run l cs).2 = pre ++ o :: post → (∃ call ∈ o.calls, call.failed = true) →
      ∀ p ∈ post, p.calls = [] ∧ ∃ cause, p.reply = .error (.poisoned cause)) ∧
    (∀ (w₁ : Worker) (c : Command) (b : Behaviour) (r₁ : SessionRecord), w₁.poison = none →
      b.load.result (w₁.records.get? l.id) = .ok (some r₁) →
      (l.holds r₁ = false ∨ (c.action ≠ .record ∧
        ((∃ e, apply r₁ c.inputs c.action = .error e) ∨ checkedSucc r₁.revision = none))) →
      (w₁.serve l c b).1 = w₁ ∧ ∃ e, (w₁.serve l c b).2.reply = .error e) ∧
    (∀ id, id ≠ l.id → (w.run l cs).1.records.get? id = w.records.get? id) ∧
    ∃ extra : Option Command, (w.run l cs).1.records.get? l.id =
        some ((acknowledged cs (w.run l cs).2 ++ extra.toList).foldl Command.applied r) ∧
      ∀ c, extra = some c → ∃ cs₁ b cs₂ o, cs = cs₁ ++ (c, b) :: cs₂ ∧
        (w.run l cs).2[cs₁.length]? = some o ∧ o.exchangeFailed := by
  refine ⟨fun pre o post h hf => run_after_failure hw h hf, fun w₁ c b r₁ hp hload hc => ?_,
    run_folded hw hr⟩
  obtain ⟨poison, records⟩ := w₁
  obtain rfl : poison = none := hp
  have hans : ∃ e, afterLoad l c.inputs c.action (.ok (some r₁)) = .answer (.error e) none := by
    cases hl : l.holds r₁ with
    | false => exact ⟨.staleLease, by simp [afterLoad, hl]⟩
    | true =>
      rcases hc with hc | ⟨ha, hc⟩
      · rw [hl] at hc; cases hc
      · rw [afterLoad_holds hl ha]
        cases happ : apply r₁ c.inputs c.action with
        | error e => exact ⟨e, rfl⟩
        | ok p =>
          rcases hc with ⟨e, he⟩ | hn
          · rw [he] at happ; cases happ
          · exact ⟨.conflict, by rw [hn]⟩
  obtain ⟨e, ha⟩ := hans
  have hload : b.load.result (records.get? l.id) = .ok (some r₁) := hload
  simp only [Worker.serve, hload, ha]
  exact ⟨trivial, e, rfl⟩

end

namespace Sample

/-- An unpoisoned worker over a store with the sample record. -/
def worker : Worker := ⟨none, OrdMap.empty.insert recoveryId record⟩

/-- The acknowledgement of the second command is lost. -/
def lostAcknowledgement : List (Command × Behaviour) :=
  [(⟨.begin params snapshot (.object []), inputs⟩, {}),
   (⟨.commit "turn" (.modelInput "step" 0 (.object [])), inputs⟩,
    { exchange := .failsAfter (.io "lost") }),
   (⟨.detach, inputs⟩, {})]

end Sample

theorem journal_fail_stop_sample : ∃ extra : Option Command,
    (@Worker.run Sample.external (Lease.of Sample.record) Sample.worker
      Sample.lostAcknowledgement).1.records.get? Sample.recoveryId =
    some ((acknowledged Sample.lostAcknowledgement (@Worker.run Sample.external
      (Lease.of Sample.record) Sample.worker Sample.lostAcknowledgement).2 ++ extra.toList).foldl
        (@Command.applied Sample.external) Sample.record) := by
  obtain ⟨-, -, -, extra, h, -⟩ := @journal_fail_stop Sample.external (Lease.of Sample.record)
    Sample.worker Sample.record Sample.lostAcknowledgement rfl (OrdMap.get?_insert_self _ _ _)
  exact ⟨extra, h⟩

end Whale
