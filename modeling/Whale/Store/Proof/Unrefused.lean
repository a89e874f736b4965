import Whale.Store.Proof.Recovery
import Whale.Store.Proof.FailStop

/-!
# No command is refused by the store's own checks

In every record that calls reach from a created one, what any further call submits is accepted, no
command poisons its journal, and the record can be opened (`submissions_accepted`), as long as no
accepted run carries a NaN temperature. Parameters with a NaN differ from themselves, so a record that
holds them refuses every replacement that keeps its runs (`nan_refuses`).
-/

namespace Whale

open Check

section
variable [External]

/-- A record with a NaN temperature accepts no replacement that keeps its runs. -/
theorem nan_refuses {r : SessionRecord} {turn : String} {run : StoredRun}
    (hrun : r.runs.get? turn = some run) (hnan : run.params.nanTemperature = true) {c : Committed}
    {r' : SessionRecord} : ¬ Keep r c r' := by
  intro h
  obtain ⟨label, hchange, -⟩ := h.change
  obtain ⟨new, hnew, hgrown⟩ := hchange.grows.runs turn run hrun
  have hlive : r'.forgotten = false := by
    -- a record with runs is no tombstone
    cases hf : r'.forgotten with
    | false => rfl
    | true =>
      have := OrdMap.get?_eq_some_iff.1 hnew
      rw [show r'.ledger.runs.entries = [] from (h.1.replaces.valid.tombstone hf).2.2.1] at this
      cases this
  obtain ⟨new', hnew', hkept⟩ := (h.1.replaces.live hlive).ledger.runs turn run hrun
  rw [hnew] at hnew'
  cases hnew'
  have := hkept.params
  rw [hgrown.params, StartTurnParams.beq_self, hnan] at this
  cases this

/-- The submission of a journal command as the worker computes it. -/
theorem journal_submission {l : Lease} {inp : Inputs} {action : Action} {r : SessionRecord}
    {expected : Nat} {new : SessionRecord} {response : Response}
    (h : afterLoad l inp action (.ok (some r)) = .exchange expected new response) :
    (Writer.journal l inp action).submit r = some ⟨expected, new, some response⟩ := by
  show (afterLoad l inp action (.ok (some r))).submission = _
  rw [h]
  rfl

/-- A command with good inputs on a sound record does not poison its journal. -/
theorem serve_sound {G : String → Prop} {r : SessionRecord} {records : Records} {l : Lease}
    {c : Command} (hs : Sound G r) (hid : l.id = r.recoveryId) (hr : records.get? l.id = some r)
    (hids : (Writer.journal l c.inputs c.action).IdsFresh G r)
    (hnan : (Writer.journal l c.inputs c.action).noNaN = true) :
    (Worker.serve l ⟨none, records⟩ c {}).1.poison = none ∧
    ∃ r', (Worker.serve l ⟨none, records⟩ c {}).1.records.get? l.id = some r' ∧
      (r' = r ∨ Submits G r (.journal l c.inputs c.action) r') := by
  simp only [Worker.serve, LoadBehaviour.result, hr]
  obtain ⟨e, ha⟩ | ⟨-, ha⟩ | ⟨expected, new, response, ha⟩ :=
    afterLoad_loaded l c.inputs c.action r
  · rw [ha]; exact ⟨rfl, r, hr, .inl rfl⟩
  · rw [ha]; exact ⟨rfl, r, hr, .inl rfl⟩
  · have hsub := journal_submission ha
    obtain ⟨hexp, hrep, -⟩ := submit_sound hs hids hnan hsub
    have hexp : expected = r.revision := hexp
    have hcas : records.compareExchange l.id expected new = .ok (records.insert l.id new) := by
      rw [Records.compareExchange, hr, orElse_some, ok_bind, hexp, hid,
        validateReplace_ok_iff.2 hrep]
      rfl
    rw [ha]
    simp only [ExchangeBehaviour.perform, hcas, afterExchange]
    exact ⟨trivial, new, OrdMap.get?_insert_self _ _ _,
      .inr ⟨hid, ⟨_, hexp ▸ hsub⟩, hids, hnan⟩⟩

/-- In every record that calls with fresh ids and without NaN temperatures reach from a created one:
whatever such a call submits next satisfies `validate` and `validate_replace`; a journal command over
an honest store leaves its journal unpoisoned, with the record or an accepted replacement stored; and
the record satisfies `validate` and can be opened. -/
theorem submissions_accepted {G : String → Prop} {r₀ r : SessionRecord} {ws : List Writer}
    (h₀ : Created r₀) (h : Lts.Run (Submits G) r₀ ws r) :
    r.schemaVersion = 2 ∧
    (∀ (w : Writer) (s : Submission), w.IdsFresh G r → w.noNaN = true → w.submit r = some s → s.expected = r.revision ∧
      s.new.validate = .ok () ∧ validateReplace r r.recoveryId r.revision s.new = .ok ()) ∧
    (∀ (l : Lease) (c : Command) (records : Records), l.id = r.recoveryId →
      records.get? l.id = some r → (Writer.journal l c.inputs c.action).IdsFresh G r →
      (Writer.journal l c.inputs c.action).noNaN = true →
      (Worker.serve l ⟨none, records⟩ c {}).1.poison = none ∧
      ∃ r', (Worker.serve l ⟨none, records⟩ c {}).1.records.get? l.id = some r' ∧
        (r' = r ∨ Submits G r (.journal l c.inputs c.action) r')) ∧
    r.validate = .ok () ∧
    (r.revision < u64Max → ∀ now, ∃ new, openReplacement now r = .ok new) := by
  have hs := reachable_sound h₀ h
  refine ⟨hs.schema, fun w s hids hnan hsub => ?_,
    fun l c records hid hr hids hnan => serve_sound hs hid hr hids hnan,
    validate_ok_iff.2 hs.valid, fun hrev now => ?_⟩
  · obtain ⟨he, hrep, -⟩ := submit_sound hs hids hnan hsub
    exact ⟨he, validate_ok_iff.2 hrep.valid, validateReplace_ok_iff.2 hrep⟩
  · obtain ⟨-, ho | ⟨new, ho, -⟩⟩ := (hs.recoverable hrev).opened now
    · exact ⟨none, ho⟩
    · exact ⟨some new, ho⟩

end

namespace Sample

/-- Parameters whose temperature is a quiet NaN. -/
def nanParams : StartTurnParams :=
  { params with options := some { temperature := some ⟨0x7FC00000#32⟩ } }

def nanBegin : Command := ⟨.begin nanParams snapshot (.object []), inputs⟩

def nextCommand : Command := ⟨.commit "turn" (.modelInput "step" 0 (.object [])), inputs⟩

end Sample

/-- A run with a NaN temperature is accepted, and the next command, which `apply` accepts, is refused
by the store and poisons the journal. -/
theorem nan_begin_poisons :
    let w₁ := @Worker.serve Sample.external (Lease.of Sample.record) Sample.worker Sample.nanBegin {}
    let w₂ := @Worker.serve Sample.external (Lease.of Sample.record) w₁.1 Sample.nextCommand {}
    w₁.1.poison = none ∧ w₁.2.reply.isOk = true ∧
    ((w₁.1.records.get? Sample.recoveryId).any fun r => (@apply Sample.external r Sample.inputs
      Sample.nextCommand.action).isOk) = true ∧
    w₂.1.poison = some "Invalid store operation: Committed run identity/result was changed" := by
  decide +kernel

theorem submissions_accepted_sample :
    ∃ s, @Writer.submit Sample.external
        (.journal (Lease.of Sample.record) Sample.inputs
          (.begin Sample.params Sample.snapshot (.object []))) Sample.record = some s ∧
      @validateReplace Sample.external Sample.record Sample.record.recoveryId
        Sample.record.revision s.new = .ok () := by
  obtain ⟨-, hacc, -⟩ := @submissions_accepted Sample.external (fun id => id = "result")
    Sample.record Sample.record [] Sample.record_created (.nil _)
  have hids : Writer.IdsFresh (fun id => id = "result") Sample.record
      (.journal (Lease.of Sample.record) Sample.inputs
        (.begin Sample.params Sample.snapshot (.object []))) := by
    intro i hi
    rw [List.mem_singleton.1 hi]
    decide
  obtain ⟨s, hs⟩ : ∃ s, @Writer.submit Sample.external
      (.journal (Lease.of Sample.record) Sample.inputs
        (.begin Sample.params Sample.snapshot (.object []))) Sample.record = some s := ⟨_, rfl⟩
  exact ⟨s, hs, (hacc _ s hids rfl hs).2.2⟩

end Whale
