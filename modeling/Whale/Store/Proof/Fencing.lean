import Whale.Store.Shared
import Whale.Store.Proof.Replacements
import Whale.Store.Proof.Partition

/-!
# Fencing and lost updates

The invariant of the shared store (`SharedStore.Inv`): what a call under way has read is the stored record
or an older one, every journal's epoch is at most the stored one, and no two journals of one record
have the same epoch. An exchange is accepted only at the revision it read, so it replaces the very
record it was computed from (`SharedStore.Inv.exchanged`), and the lease check it passed then holds of the
record it replaces. A lease that does not hold never holds again (`Lease.Follows.stale`).
-/

namespace Whale

open Check

section
variable [External]

/-! ## One replacement -/

/-- A call submits against the revision it read. -/
theorem submit_expected {w : Writer} {r : SessionRecord} {s : Submission}
    (h : w.submit r = some s) : s.expected = r.revision := by
  cases w with
  | journal lease inp action =>
    obtain ⟨-, -, response, r₁, next, -, -, rfl⟩ := journal_submit h
    rfl
  | attach key expected configuration owner thread now =>
    obtain ⟨-, -, -, -, -, -, parsed, epoch, revision, -, -, -, rfl⟩ := attach_submit h
    rfl
  | forget key expected now =>
    obtain ⟨-, -, -, now, reason, revision, -, rfl⟩ := retire_submit rfl h
    rfl
  | retire id expected now reason =>
    obtain ⟨-, -, -, now, reason, revision, -, rfl⟩ := retire_submit rfl h
    rfl
  | opened id now =>
    obtain ⟨new, -, rfl⟩ := submission_some h
    rfl

/-- The record that `r` has become, or `r` itself. -/
structure Later (r r' : SessionRecord) : Prop where
  revision : r.revision ≤ r'.revision
  same : r.revision = r'.revision → r = r'
  epoch : r.epoch ≤ r'.epoch

namespace Later

omit [External] in
theorem refl (r : SessionRecord) : Later r r := ⟨le_rfl, fun _ => rfl, le_rfl⟩

omit [External] in
theorem trans {a b c : SessionRecord} (h : Later a b) (h' : Later b c) : Later a c where
  revision := h.revision.trans h'.revision
  same := fun he => by
    have hab := h.revision
    have hbc := h'.revision
    rw [h.same (by omega), h'.same (by omega)]
  epoch := h.epoch.trans h'.epoch

theorem of_replaces {old new : SessionRecord} {id : String} {expected : Nat}
    (h : Replaces old id expected new) : Later old new := by
  obtain ⟨hrev, -⟩ := checkedSucc_some h.revision
  have hread := h.read
  exact ⟨by omega, fun he => by omega, h.epoch⟩

end Later

/-- The epoch of a journal is at most the record's, and at the same epoch an attached record carries
the journal's identity. -/
structure Lease.Follows (l : Lease) (r : SessionRecord) : Prop where
  epoch : l.epoch ≤ r.epoch
  current : l.epoch = r.epoch → r.owner.isSome → r.forgotten = false →
    r.owner = l.owner ∧ r.threadId = l.thread

namespace Lease.Follows

/-- What an attached replacement has in common with the record it replaces: its lease, or the epoch
is one further. -/
theorem attached_replacement {old new : SessionRecord} {id : String} {expected : Nat}
    (h : Replaces old id expected new) (hlive : new.forgotten = false) (ho : new.owner.isSome) :
    (new.owner = old.owner ∧ new.threadId = old.threadId ∧ new.epoch = old.epoch ∧
      old.forgotten = false) ∨ old.epoch < new.epoch := by
  have hl := (h.live hlive).lease
  have hold : old.forgotten = false := by
    cases hf : old.forgotten with
    | false => rfl
    | true => rw [h.forgotten hf] at hlive; cases hlive
  by_cases hsame : new.owner = old.owner ∧ new.threadId = old.threadId
  · exact .inl ⟨hsame.1, hsame.2, hl.same hsame.1 hsame.2, hold⟩
  · obtain ⟨-, hnext⟩ := hl.attach (by tauto) ho
    obtain ⟨hnext, -⟩ := checkedSucc_some hnext
    exact .inr (by omega)

theorem replaces {l : Lease} {old new : SessionRecord} {id : String} {expected : Nat}
    (hl : l.Follows old) (h : Replaces old id expected new) : l.Follows new where
  epoch := hl.epoch.trans h.epoch
  current := fun he ho hlive => by
    have hle := hl.epoch
    obtain ⟨h1, h2, h3, hold⟩ | hlt := attached_replacement h hlive ho
    · rw [h1, h2]
      exact hl.current (by omega) (h1 ▸ ho) hold
    · omega

/-- A lease that does not hold does not hold of a replacement either. -/
theorem stale {l : Lease} {old new : SessionRecord} {id : String} {expected : Nat}
    (hl : l.Follows old) (h : Replaces old id expected new) (hs : l.holds old = false) :
    l.holds new = false := by
  by_contra hn
  obtain ⟨he, hown, hthread, hsome, hlive⟩ := lease_holds_iff.1 (Bool.not_eq_false _ ▸ hn)
  have hle := hl.epoch
  obtain ⟨h1, h2, h3, hold⟩ | hlt := attached_replacement h hlive hsome
  · rw [lease_holds_iff.2 ⟨h3 ▸ he, h1 ▸ hown, h2 ▸ hthread, h1 ▸ hsome, hold⟩] at hs
    cases hs
  · omega

omit [External] in
theorem of_record (r : SessionRecord) : (Lease.of r).Follows r := ⟨le_rfl, fun _ _ _ => ⟨rfl, rfl⟩⟩

end Lease.Follows

/-- The call ends the lease of its record or gives it to a new journal: a detachment, an attachment, a
retirement or the recovery of `open`. -/
def Writer.releases : Writer → Bool
  | .journal _ _ .detach => true
  | .journal .. => false
  | _ => true

omit [External] in
theorem not_holds_of_detached {l : Lease} {r : SessionRecord} (h : r.owner = none) :
    l.holds r = false := by simp [Lease.holds, h]

omit [External] in
theorem not_holds_of_forgotten {l : Lease} {r : SessionRecord} (h : r.forgotten = true) :
    l.holds r = false := by simp [Lease.holds, h]

/-- No earlier journal's lease holds of what a releasing call submits. -/
theorem released {w : Writer} {r : SessionRecord} {s : Submission} {l : Lease}
    (hw : w.releases = true) (h : w.submit r = some s) (hl : l.Follows r) :
    l.holds s.new = false := by
  have hretired : w.keeps = false → l.holds s.new = false := fun hk => by
    obtain ⟨-, -, -, now, reason, revision, -, rfl⟩ := retire_submit hk h
    exact not_holds_of_forgotten rfl
  cases w with
  | journal lease inp action =>
    obtain ⟨hholds, haction, response, r₁, next, happ, -, rfl⟩ := journal_submit h
    obtain ⟨-, -, -, -, hlive⟩ := lease_holds_iff.1 hholds
    obtain ⟨label, happlied⟩ := apply_effect hlive haction happ
    cases happlied with
    | detach settles => exact not_holds_of_detached rfl
    | _ => cases hw
  | attach key expected configuration owner thread now =>
    obtain ⟨-, -, -, -, -, -, parsed, epoch, revision, -, he, -, rfl⟩ := attach_submit h
    obtain ⟨he, -⟩ := checkedSucc_some he
    have hle := hl.epoch
    have hne : (epoch == l.epoch) = false := by simp; omega
    simp [Lease.holds, attachedRecord, SessionRecord.withRevision, hne]
  | forget => exact hretired rfl
  | retire => exact hretired rfl
  | opened id now =>
    obtain ⟨new, hn, rfl⟩ := submission_some h
    cases hf : r.forgotten with
    | false =>
      obtain ⟨hv, parsed, ledger, next, -, -, -, rfl⟩ := opened_live hf hn
      exact not_holds_of_detached (openedRecord_frame hv hf _ now ledger).owner
    | true =>
      obtain ⟨-, -, next, -, rfl⟩ := opened_tombstone hf hn
      exact not_holds_of_forgotten ((migrateRetention_forgotten r now).trans hf)

/-! ## The invariant -/

namespace SharedStore

/-- The invariant of the shared store. -/
structure Inv (s : SharedStore) : Prop where
  keyed : ∀ id r, s.records.get? id = some r → r.recoveryId = id
  valid : ∀ id r, s.records.get? id = some r → Valid r
  pending : ∀ p ∈ s.pending, p.writer.submit p.base = some p.submission ∧
    ∃ r, s.records.get? p.writer.target = some r ∧ Later p.base r
  follows : ∀ l ∈ s.journals, ∃ r, s.records.get? l.id = some r ∧ l.Follows r
  distinct : s.journals.Pairwise fun l l' => l.id = l'.id → l.epoch ≠ l'.epoch

theorem Initial.inv {s : SharedStore} (h : Initial s) : Inv s where
  keyed := h.keyed
  valid := fun id r hr => validate_ok_iff.1 (h.valid id r hr)
  pending := by simp [h.pending]
  follows := by simp [h.journals]
  distinct := by simp [h.journals]

/-- What an accepted exchange did. -/
structure Exchanged (s : SharedStore) (p : Pending) (old : SessionRecord) (records : Records) : Prop where
  stored : s.records.get? p.writer.target = some old
  base : p.base = old
  submitted : p.writer.submit old = some p.submission
  replaces : Replaces old p.writer.target old.revision p.submission.new
  records : records = s.records.insert p.writer.target p.submission.new

/-- An accepted exchange replaces the record it was computed from. -/
theorem Inv.exchanged {s : SharedStore} (h : Inv s) {p : Pending} (hp : p ∈ s.pending)
    {records : Records} (hc : s.records.compareExchange p.writer.target p.submission.expected
      p.submission.new = .ok records) : ∃ old, Exchanged s p old records := by
  obtain ⟨old, hold, hrep, rfl⟩ := compareExchange_ok hc
  obtain ⟨hsub, r, hr, hlater⟩ := h.pending p hp
  rw [hold] at hr
  cases hr
  have hexp := submit_expected hsub
  have hbase : p.base = old := hlater.same (hexp.symm.trans hrep.read.symm)
  refine ⟨old, hold, hbase, hbase ▸ hsub, ?_, rfl⟩
  rw [hexp, hbase] at hrep
  exact hrep

/-- A journal's record after an exchange. -/
theorem Exchanged.later {s : SharedStore} {p : Pending} {old : SessionRecord} {records : Records}
    (h : Exchanged s p old records) {id : String} {r : SessionRecord}
    (hr : s.records.get? id = some r) :
    ∃ r', records.get? id = some r' ∧ (r' = r ∨ ∃ expected, Replaces r id expected r') := by
  rw [h.records, OrdMap.get?_insert]
  split
  · rename_i he
    subst he
    rw [h.stored] at hr
    cases hr
    exact ⟨_, rfl, .inr ⟨_, h.replaces⟩⟩
  · exact ⟨r, hr, .inl rfl⟩

/-- Across a step a stored record stays or is replaced. -/
theorem Inv.evolves {s s' : SharedStore} {e : Event} (h : Inv s) (hstep : Step s e s') {id : String}
    {r : SessionRecord} (hr : s.records.get? id = some r) :
    ∃ r', s'.records.get? id = some r' ∧ (r' = r ∨ ∃ expected, Replaces r id expected r') := by
  cases hstep with
  | create built stored =>
    obtain ⟨-, hnone, rfl⟩ := create_ok stored
    refine ⟨r, ?_, .inl rfl⟩
    rw [OrdMap.get?_insert_ne _ _ (fun he => by rw [he, hr] at hnone; cases hnone), hr]
  | load => exact ⟨r, hr, .inl rfl⟩
  | exchange under stored =>
    obtain ⟨old, hex⟩ := h.exchanged (by simp [under]) stored
    exact hex.later hr
  | abandon => exact ⟨r, hr, .inl rfl⟩

/-- What the calls under way and the journals need of the records survives every step. -/
theorem Inv.kept {s s' : SharedStore} {e : Event} (h : Inv s) (hstep : Step s e s') :
    (∀ p ∈ s.pending, p.writer.submit p.base = some p.submission ∧
      ∃ r, s'.records.get? p.writer.target = some r ∧ Later p.base r) ∧
    ∀ l ∈ s.journals, ∃ r, s'.records.get? l.id = some r ∧ l.Follows r := by
  refine ⟨fun p hp => ?_, fun l hl => ?_⟩
  · obtain ⟨hsub, r, hr, hlater⟩ := h.pending p hp
    obtain ⟨r', hr', rfl | ⟨expected, hrep⟩⟩ := h.evolves hstep hr
    · exact ⟨hsub, r', hr', hlater⟩
    · exact ⟨hsub, r', hr', hlater.trans (.of_replaces hrep)⟩
  · obtain ⟨r, hr, hfollows⟩ := h.follows l hl
    obtain ⟨r', hr', rfl | ⟨expected, hrep⟩⟩ := h.evolves hstep hr
    · exact ⟨r', hr', hfollows⟩
    · exact ⟨r', hr', hfollows.replaces hrep⟩

/-- The journal an exchange spawns has the record's new epoch, which no earlier journal has. -/
theorem Inv.spawned {s : SharedStore} (h : Inv s) {p : Pending} {old : SessionRecord} {records : Records}
    (hex : Exchanged s p old records) {l : Lease} (hl : l ∈ p.spawns) :
    p.spawns = [l] ∧ l.id = p.writer.target ∧ l.Follows p.submission.new ∧
      ∀ l' ∈ s.journals, l.id = l'.id → l.epoch ≠ l'.epoch := by
  have hid := hex.replaces.id
  have hsub := hex.submitted
  unfold Pending.spawns at hl ⊢
  split at hl
  · rename_i key expected configuration owner thread now hw
    obtain rfl : l = Lease.of p.submission.new := by simpa using hl
    refine ⟨rfl, hid, .of_record _, fun l' hl' he => ?_⟩
    rw [hw] at hsub
    obtain ⟨-, -, -, -, -, -, parsed, epoch, revision, -, hepoch, -, hs⟩ := attach_submit hsub
    obtain ⟨hepoch, -⟩ := checkedSucc_some hepoch
    obtain ⟨r, hr, hfollows⟩ := h.follows l' hl'
    have hold : s.records.get? l'.id = some old := by rw [← he, ← hex.stored, ← hid]; rfl
    rw [hold] at hr
    cases hr
    have hle := hfollows.epoch
    have hnew : (Lease.of p.submission.new).epoch = epoch := by rw [hs]; rfl
    omega
  · cases hl

theorem Inv.step {s s' : SharedStore} {e : Event} (h : Inv s) (hstep : Step s e s') : Inv s' := by
  obtain ⟨hpending, hfollows⟩ := h.kept hstep
  cases hstep with
  | @create _ _ _ _ _ r _ built stored =>
    obtain ⟨hv, hnone, rfl⟩ := create_ok stored
    refine ⟨fun id r' hr' => ?_, fun id r' hr' => ?_, hpending, ?_, ?_⟩
    · rw [OrdMap.get?_insert] at hr'
      split at hr'
      · rename_i he; cases hr'; exact he
      · exact h.keyed id r' hr'
    · rw [OrdMap.get?_insert] at hr'
      split at hr'
      · cases hr'; exact hv
      · exact h.valid id r' hr'
    · intro l hl
      rcases List.mem_cons.1 hl with rfl | hl
      · exact ⟨r, OrdMap.get?_insert_self _ _ _, .of_record r⟩
      · exact hfollows l hl
    · refine List.pairwise_cons.2 ⟨fun l hl he => ?_, h.distinct⟩
      -- no journal of an id without a record
      obtain ⟨r', hr', -⟩ := h.follows l hl
      rw [← he] at hr'
      exact absurd (hnone.symm.trans hr') (by simp)
  | load spawned loaded submitted =>
    refine ⟨h.keyed, h.valid, fun p hp => ?_, h.follows, h.distinct⟩
    rcases List.mem_cons.1 hp with rfl | hp
    · exact ⟨submitted, _, loaded, .refl _⟩
    · exact hpending p hp
  | @exchange p before after _ under stored =>
    obtain ⟨old, hex⟩ := h.exchanged (by simp [under]) stored
    have hsub : ∀ q ∈ before ++ after, q ∈ s.pending := fun q hq => by
      rw [under]
      simp only [List.mem_append, List.mem_cons] at hq ⊢
      tauto
    refine ⟨fun id r' hr' => ?_, fun id r' hr' => ?_, fun q hq => hpending q (hsub q hq), ?_, ?_⟩
    · rw [hex.records, OrdMap.get?_insert] at hr'
      split at hr'
      · rename_i he; cases hr'; exact hex.replaces.id.trans he
      · exact h.keyed id r' hr'
    · rw [hex.records, OrdMap.get?_insert] at hr'
      split at hr'
      · cases hr'; exact hex.replaces.valid
      · exact h.valid id r' hr'
    · intro l hl
      rcases List.mem_append.1 hl with hl | hl
      · obtain ⟨-, hid, hf, -⟩ := h.spawned hex hl
        exact ⟨_, by rw [hid, hex.records]; exact OrdMap.get?_insert_self _ _ _, hf⟩
      · exact hfollows l hl
    · refine List.pairwise_append.2 ⟨?_, h.distinct, fun l hl => (h.spawned hex hl).2.2.2⟩
      unfold Pending.spawns
      split <;> simp
  | @abandon p before after under =>
    refine ⟨h.keyed, h.valid, fun q hq => hpending q ?_, h.follows, h.distinct⟩
    rw [under]
    simp only [List.mem_append, List.mem_cons] at hq ⊢
    tauto

theorem Inv.run {s t : SharedStore} {es : List Event} (h : Inv s) (hrun : Lts.Run Step s es t) :
    Inv t := hrun.invariant Inv (fun _ _ _ => Inv.step) h

theorem Initial.run {s₀ s : SharedStore} {es : List Event} (h₀ : Initial s₀)
    (h : Lts.Run Step s₀ es s) : Inv s := h₀.inv.run h

/-! ## Whole runs -/

/-- Over a run, a stored record becomes a later one. -/
theorem Inv.later {s t : SharedStore} {es : List Event} (h : Inv s) (hrun : Lts.Run Step s es t)
    {id : String} {r : SessionRecord} (hr : s.records.get? id = some r) :
    ∃ r', t.records.get? id = some r' ∧ Later r r' := by
  refine (hrun.invariant (fun u => Inv u ∧ ∃ r', u.records.get? id = some r' ∧ Later r r')
    ?_ ⟨h, r, hr, .refl r⟩).2
  rintro u e v ⟨hu, r', hr', hlater⟩ hstep
  obtain ⟨r'', hr'', rfl | ⟨expected, hrep⟩⟩ := hu.evolves hstep hr'
  · exact ⟨hu.step hstep, r'', hr'', hlater⟩
  · exact ⟨hu.step hstep, r'', hr'', hlater.trans (.of_replaces hrep)⟩

/-- The journal's lease does not hold of the stored record. -/
def Stale (l : Lease) (s : SharedStore) : Prop :=
  ∃ r, s.records.get? l.id = some r ∧ l.Follows r ∧ l.holds r = false

theorem Inv.stale {s t : SharedStore} {es : List Event} {l : Lease} (h : Inv s)
    (hrun : Lts.Run Step s es t) (hl : Stale l s) : Stale l t := by
  refine (hrun.invariant (fun u => Inv u ∧ Stale l u) ?_ ⟨h, hl⟩).2
  rintro u e v ⟨hu, r, hr, hfollows, hs⟩ hstep
  refine ⟨hu.step hstep, ?_⟩
  obtain ⟨r', hr', rfl | ⟨expected, hrep⟩⟩ := hu.evolves hstep hr
  · exact ⟨r', hr', hfollows, hs⟩
  · exact ⟨r', hr', hfollows.replaces hrep, hfollows.stale hrep hs⟩

/-- No exchange of a stale journal is accepted. -/
theorem Inv.no_stale_write {s s' : SharedStore} (h : Inv s) {p : Pending} {l : Lease} {inp : Inputs}
    {action : Action} (hl : Stale l s) (hstep : Step s (.exchange p) s')
    (hw : p.writer = .journal l inp action) : False := by
  cases hstep with
  | exchange under stored =>
    obtain ⟨old, hex⟩ := h.exchanged (by simp [under]) stored
    obtain ⟨r, hr, -, hs⟩ := hl
    have hsub := hex.submitted
    have hold := hex.stored
    rw [hw] at hsub hold
    rw [show (Writer.journal l inp action).target = l.id from rfl, hr] at hold
    cases hold
    rw [(journal_submit hsub).1] at hs
    cases hs

omit [External] in
/-- Of elements no two of which satisfy `q`, at most one does. -/
theorem length_filter_le_one {α : Type} {q : α → Bool} : ∀ {xs : List α},
    xs.Pairwise (fun a b => ¬ (q a = true ∧ q b = true)) → (xs.filter q).length ≤ 1
  | [], _ => by simp
  | x :: xs, h => by
    obtain ⟨hx, hxs⟩ := List.pairwise_cons.1 h
    by_cases hq : q x = true
    · have hnone : xs.filter q = [] :=
        List.filter_eq_nil_iff.2 fun y hy hqy => hx y hy ⟨hq, hqy⟩
      simp [hq, hnone]
    · simpa [hq] using length_filter_le_one hxs

end SharedStore

open SharedStore

/-- In every state that interleaved calls reach. An accepted exchange replaces the record it was
computed from and is one revision further; a journal's exchange replaces a record with exactly its
epoch, owner and thread that is not forgotten; and after a detachment, an attachment, a retirement or
a recovery no earlier journal's lease holds. No other step changes a stored record. Epochs and
revisions never decrease. At most one journal has the current epoch. A journal whose lease does not
hold never writes again. -/
theorem lease_fencing {s₀ s : SharedStore} {es : List Event} (h₀ : Initial s₀)
    (h : Lts.Run Step s₀ es s) :
    (∀ (p : Pending) (s' : SharedStore), Step s (.exchange p) s' →
      ∃ old, s.records.get? p.writer.target = some old ∧ p.base = old ∧
        p.writer.submit old = some p.submission ∧
        s'.records = s.records.insert p.writer.target p.submission.new ∧
        p.submission.new.revision = old.revision + 1 ∧
        (∀ (l : Lease) (inp : Inputs) (action : Action), p.writer = .journal l inp action →
          old.epoch = l.epoch ∧ old.owner = l.owner ∧ old.threadId = l.thread ∧
          old.forgotten = false) ∧
        (p.writer.releases = true → ∀ l ∈ s.journals, l.id = p.writer.target →
          l.holds p.submission.new = false)) ∧
    (∀ (e : Event) (s' : SharedStore), Step s e s' → (∀ p, e ≠ .exchange p) →
      ∀ id r, s.records.get? id = some r → s'.records.get? id = some r) ∧
    (∀ (fs : List Event) (t : SharedStore), Lts.Run Step s fs t → ∀ id r,
      s.records.get? id = some r → ∃ r', t.records.get? id = some r' ∧ r.epoch ≤ r'.epoch ∧
        r.revision ≤ r'.revision) ∧
    (∀ id r, s.records.get? id = some r →
      (s.journals.filter fun l => l.id == id && l.epoch == r.epoch).length ≤ 1) ∧
    (∀ l ∈ s.journals, ∀ r, s.records.get? l.id = some r → l.holds r = false →
      ∀ (fs : List Event) (t t' : SharedStore) (p : Pending), Lts.Run Step s fs t →
        Step t (.exchange p) t' → ∀ inp action, p.writer ≠ .journal l inp action) := by
  have hinv := h₀.run h
  refine ⟨fun p s' hstep => ?_, fun e s' hstep hne id r hr => ?_, fun fs t hrun id r hr => ?_,
    fun id r hr => ?_, fun l hl r hr hs fs t t' p hrun hstep inp action hw => ?_⟩
  · cases hstep with
    | exchange under stored =>
      obtain ⟨old, hex⟩ := hinv.exchanged (by simp [under]) stored
      refine ⟨old, hex.stored, hex.base, hex.submitted, hex.records,
        (checkedSucc_some hex.replaces.revision).1, fun l inp action hw => ?_,
        fun hrel l hl hid => ?_⟩
      · have hsub := hex.submitted
        rw [hw] at hsub
        obtain ⟨he, ho, ht, -, hf⟩ := lease_holds_iff.1 (journal_submit hsub).1
        exact ⟨he, ho, ht, hf⟩
      · obtain ⟨r, hr, hfollows⟩ := hinv.follows l hl
        rw [hid, hex.stored] at hr
        cases hr
        exact released hrel hex.submitted hfollows
  · cases hstep with
    | create built stored =>
      obtain ⟨-, hnone, rfl⟩ := create_ok stored
      rw [OrdMap.get?_insert_ne _ _ (fun he => by rw [he, hr] at hnone; cases hnone), hr]
    | load => exact hr
    | exchange => exact absurd rfl (hne _)
    | abandon => exact hr
  · obtain ⟨r', hr', hlater⟩ := hinv.later hrun hr
    exact ⟨r', hr', hlater.epoch, hlater.revision⟩
  · refine length_filter_le_one (hinv.distinct.imp fun {l l'} hd hboth => ?_)
    simp only [Bool.and_eq_true, beq_iff_eq] at hboth
    obtain ⟨⟨h1, h2⟩, h3, h4⟩ := hboth
    exact hd (h1.trans h3.symm) (h2.trans h4.symm)
  · obtain ⟨r', hr', hfollows⟩ := hinv.follows l hl
    rw [hr] at hr'
    cases hr'
    have hstale : Stale l s := ⟨r, hr, hfollows, hs⟩
    exact (hinv.run hrun).no_stale_write
      (hinv.stale hrun hstale) hstep hw

end

namespace Sample

/-- The sample session's store, with its journal's first command between load and exchange. -/
def beginning : Pending :=
  let w := Writer.journal (Lease.of record) inputs (.begin params snapshot (.object []))
  ⟨w, record, (@Writer.submit external w record).getD ⟨0, record, none⟩⟩

def shared : SharedStore :=
  ⟨OrdMap.empty.insert recoveryId record, [Lease.of record], [beginning]⟩

theorem shared_run : @Lts.Run _ _ (@SharedStore.Step external) ⟨.empty, [], []⟩
    [.create record, .load beginning] shared := by
  have hcreate : @SharedStore.Step external ⟨.empty, [], []⟩ (.create record)
      ⟨OrdMap.empty.insert recoveryId record, [Lease.of record], []⟩ :=
    @SharedStore.Step.create external _ key (.object []) "owner" "thread" 7 _ _ rfl rfl
  have hload : @SharedStore.Step external
      ⟨OrdMap.empty.insert recoveryId record, [Lease.of record], []⟩ (.load beginning) shared :=
    @SharedStore.Step.load external _ _ _ _ (List.mem_singleton_self _)
      (OrdMap.get?_insert_self _ _ _) rfl
  exact .cons hcreate (.single hload)

end Sample

theorem lease_fencing_sample : ∃ s', @SharedStore.Step Sample.external Sample.shared
      (.exchange Sample.beginning) s' ∧ ∃ old, Sample.beginning.base = old ∧
    Sample.beginning.submission.new.revision = old.revision + 1 ∧
    old.epoch = (Lease.of Sample.record).epoch := by
  have hstep : @SharedStore.Step Sample.external Sample.shared (.exchange Sample.beginning)
      ⟨_, _, _⟩ := @SharedStore.Step.exchange Sample.external Sample.shared Sample.beginning [] []
    (Sample.shared.records.insert Sample.recoveryId Sample.beginning.submission.new) rfl rfl
  have h₀ : @SharedStore.Initial Sample.external ⟨.empty, [], []⟩ :=
    @SharedStore.Initial.mk Sample.external _ (fun _ _ h => (nomatch h)) (fun _ _ h => (nomatch h))
      rfl rfl
  obtain ⟨old, -, hbase, -, -, hrev, hjournal, -⟩ :=
    (@lease_fencing Sample.external _ _ _ h₀ Sample.shared_run).1 _ _ hstep
  exact ⟨_, hstep, old, hbase, hrev, (hjournal _ _ _ rfl).1⟩

end Whale
