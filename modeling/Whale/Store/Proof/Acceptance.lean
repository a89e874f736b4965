import Whale.Store.Proof.Replacements
import Whale.Store.Proof.Partition

/-!
# Sound records

The invariant of the records that calls reach from a created one (`Sound`): whatever a journal
command, an attachment, a recovery or a retirement submits for a sound record is accepted by
`validate_replace` and sound again (`submit_sound`), whatever the callers supply and whatever the
clock shows, as long as the generated ids are new and no accepted run carries a NaN temperature.
-/

namespace Whale

open Check

/-- The record invariant: valid, of schema 2, with a configuration that parses and a sound ledger. -/
structure Sound [External] (G : String → Prop) (r : SessionRecord) : Prop where
  valid : Valid r
  schema : r.schemaVersion = 2
  parses : Parses r.configuration
  ledger : r.ledger.Sound G

namespace Writer

/-- The ids of a call's inputs: the callers' item ids are outside `G`; the ids the store generates for
a new tool call are in `G` and not used in `r`. -/
def IdsFresh (G : String → Prop) (r : SessionRecord) : Writer → Prop
  | journal _ _ (.begin params _ _) => ∀ i ∈ params.inputItems, ¬ G i.id
  | journal _ inp (.commit _ (.modelItem _ item)) =>
    ¬ G item.id ∧ G inp.fresh.resultItemId ∧
      inp.fresh.resultItemId ∉ r.ledger.calls.map (·.resultItemId) ∧
      inp.fresh.executionId ∉ r.ledger.calls.map (·.executionId)
  | _ => True

/-- The call starts no run with a NaN temperature. -/
def noNaN : Writer → Bool
  | journal _ _ (.begin params _ _) => !params.nanTemperature
  | _ => true

end Writer

section
variable [External]

/-! ## Journal commands -/

theorem edited_sound {G : String → Prop} {r : SessionRecord} {l : Ledger} {configuration : Value}
    {now next : Nat} (hs : Sound G r) (hlive : r.forgotten = false) (howner : r.owner.isSome)
    (hgrows : r.ledger.Grows l) (hok : l.Ok r.revision) (hl : l.Sound G)
    (hobj : configuration.isObject = true) (hparses : Parses configuration)
    (hnext : checkedSucc r.revision = some next) :
    Replaces r r.recoveryId r.revision
      ((((r.withLedger l).withConfiguration configuration).touch now).withRevision next) ∧
    Sound G ((((r.withLedger l).withConfiguration configuration).touch now).withRevision next) := by
  have h := edited_replaces now hs.valid hlive howner hok
    (hgrows.extends hok hs.ledger.self_eq) hobj hnext
  exact ⟨h, h.valid, hs.schema, hparses, hl⟩

/-- A step of the ledger with good inputs gives an accepted, sound record. -/
theorem change_sound {G : String → Prop} {r : SessionRecord} {l : Ledger} {e : Ledger.Label}
    {now next : Nat} (hs : Sound G r) (hlive : r.forgotten = false) (howner : r.owner.isSome)
    (hc : Ledger.Change r.revision r.ledger e l) (hgood : r.ledger.Good G e)
    (hnext : checkedSucc r.revision = some next) :
    Replaces r r.recoveryId r.revision (((r.withLedger l).touch now).withRevision next) ∧
    Sound G (((r.withLedger l).touch now).withRevision next) := by
  have hok := hc.ok hs.valid.ledger hs.ledger.early (hs.ledger.resultsFresh hs.valid.ledger)
    hgood.fresh
  exact edited_sound hs hlive howner hc.grows hok (hc.sound hs.valid.ledger hs.ledger hgood)
    hs.valid.configuration hs.parses hnext

theorem configured_sound {G : String → Prop} {r : SessionRecord} {configuration : Value}
    {now next : Nat} (hs : Sound G r) (hlive : r.forgotten = false) (howner : r.owner.isSome)
    (hobj : configuration.isObject = true) (hparses : Parses configuration)
    (hnext : checkedSucc r.revision = some next) :
    Replaces r r.recoveryId r.revision
      (((r.withConfiguration configuration).touch now).withRevision next) ∧
    Sound G (((r.withConfiguration configuration).touch now).withRevision next) :=
  edited_sound hs hlive howner (.refl r.ledger) hs.valid.ledger hs.ledger hobj hparses hnext

theorem journal_sound {G : String → Prop} {lease : Lease} {inp : Inputs} {action : Action}
    {r : SessionRecord} {s : Submission} (hs : Sound G r)
    (hids : (Writer.journal lease inp action).IdsFresh G r)
    (hnan : (Writer.journal lease inp action).noNaN = true)
    (h : (Writer.journal lease inp action).submit r = some s) :
    s.expected = r.revision ∧ Replaces r r.recoveryId r.revision s.new ∧ Sound G s.new := by
  obtain ⟨hholds, haction, response, r₁, next, happly, hnext, rfl⟩ := journal_submit h
  obtain ⟨-, -, -, howner, hlive⟩ := lease_holds_iff.1 hholds
  obtain ⟨label, happlied⟩ := apply_effect hlive haction happly
  refine ⟨rfl, ?_⟩
  show Replaces r r.recoveryId r.revision (written r₁ inp next) ∧ Sound G (written r₁ inp next)
  cases happlied with
  | accepted thread change =>
    exact change_sound hs hlive howner change ⟨by simpa [Writer.noNaN] using hnan, hids⟩ hnext
  | repeated found => exact change_sound hs hlive howner (.keep _ _) trivial hnext
  | @commit turn op item l change =>
    refine change_sound hs hlive howner change ?_ hnext
    cases op with
    | modelItem step item =>
      obtain ⟨h1, h2, h3, h4⟩ := hids
      refine ⟨h1, h2, ?_⟩
      cases item with
      | toolCall => exact ⟨h3, h4⟩
      | userMessage => trivial
      | assistantMessage => trivial
      | reasoning => trivial
      | toolResult => trivial
    | modelInput => trivial
    | modelStepFinished => trivial
    | dispatchIntent => trivial
    | toolOutcome => trivial
    | toolBatch => trivial
  | finalize change => exact change_sound hs hlive howner change trivial hnext
  | replace object normal =>
    obtain ⟨hp, ho⟩ := normalizeReplacement_ok normal
    exact configured_sound hs hlive howner (ho object) hp hnext
  | @replaceMetadata metadata old new migrated parsed replaced =>
    have hwf : new.WellFormed := by
      have hold := PersistedConfiguration.parseAndMigrate_wellFormed parsed
      obtain ⟨_, -, hr⟩ := bind_ok replaced
      cases hr
      exact ⟨hold.defaults, hold.identity, hold.metadata⟩
    exact configured_sound hs hlive howner rfl ⟨_, parseVersioned_intoValue hwf⟩ hnext
  | acknowledge change => exact change_sound hs hlive howner change trivial hnext
  | @detach l settles =>
    obtain ⟨hok, hl⟩ := Ledger.settles_sound settles hs.valid.ledger hs.ledger
    have hrep := detached_replaces inp.detachNow inp.touchNow hs.valid hlive hok
      ((Ledger.settles_grow settles).extends hok hs.ledger.self_eq) (active_settled settles) hnext
    exact ⟨hrep, hrep.valid, hs.schema, hs.parses, hl⟩

/-! ## Every writer -/

/-- What any call submits for a sound record is accepted and sound. -/
theorem submit_sound {G : String → Prop} {w : Writer} {r : SessionRecord} {s : Submission}
    (hs : Sound G r) (hids : w.IdsFresh G r) (hnan : w.noNaN = true) (h : w.submit r = some s) :
    s.expected = r.revision ∧ Replaces r r.recoveryId r.revision s.new ∧ Sound G s.new := by
  have hretired : w.keeps = false → s.expected = r.revision ∧
      Replaces r r.recoveryId r.revision s.new ∧ Sound G s.new := by
    intro hk
    obtain ⟨-, hlive, howner, now, reason, next, hnext, rfl⟩ := retire_submit hk h
    have hrep := retired_replaces now reason hs.valid hlive howner hnext
    exact ⟨rfl, hrep, hrep.valid, hs.schema, ⟨none, rfl⟩, .init G⟩
  cases w with
  | journal lease inp action => exact journal_sound hs hids hnan h
  | forget => exact hretired rfl
  | retire => exact hretired rfl
  | attach key expected configuration owner thread now =>
    obtain ⟨-, hlive, howner, ho, ht, hfresh, parsed, epoch, next, hp, hepoch, hnext, rfl⟩ :=
      attach_submit h
    have hrep := attached_replaces now hs.valid hlive howner hs.ledger.self_eq
      (migratedConfiguration_isObject parsed hs.valid.configuration) ho ht hfresh hepoch hnext
    exact ⟨rfl, hrep, hrep.valid, hs.schema, ⟨_, migratedConfiguration_parses hp⟩, hs.ledger⟩
  | opened id now =>
    obtain ⟨new, hn, rfl⟩ := submission_some h
    cases hf : r.forgotten with
    | true =>
      obtain ⟨-, hschema, -⟩ := opened_tombstone hf hn
      rw [hs.schema] at hschema
      cases hschema
    | false =>
      obtain ⟨-, parsed, l, next, hp, settles, hnext, rfl⟩ := opened_live hf hn
      obtain ⟨hok, hl⟩ := Ledger.settles_sound settles hs.valid.ledger hs.ledger
      have hobj : (migratedConfiguration r.configuration parsed).isObject = true :=
        migratedConfiguration_isObject parsed hs.valid.configuration
      have hrep := opened_replaces now hs.valid hf hok
        ((Ledger.settles_grow settles).extends hok hs.ledger.self_eq) (active_settled settles) hobj
        hnext
      have hframe := openedRecord_frame hs.valid hf (migratedConfiguration r.configuration parsed)
        now l
      refine ⟨rfl, hrep, hrep.valid, hframe.schema, ?_, ?_⟩
      · show Parses (openedRecord r _ now l).configuration
        rw [hframe.configuration]
        exact ⟨_, migratedConfiguration_parses hp⟩
      · show (openedRecord r _ now l).ledger.Sound G
        rw [hframe.ledger]
        exact hl

theorem Created.sound {r : SessionRecord} (h : Created r) (G : String → Prop) : Sound G r := by
  refine ⟨h.valid, ?_, ?_, h.ledger ▸ .init G⟩ <;> obtain ⟨_, _, _, _, _, h, -⟩ := h <;>
    obtain ⟨_, -, h⟩ := bind_ok h <;> obtain ⟨_, -, h⟩ := bind_ok h <;>
    obtain ⟨_, hc, h⟩ := bind_ok h <;> cases h
  · rfl
  · exact (normalizeNew_ok hc).1

/-- The call computes the replacement `r'` of `r`, from inputs with fresh ids and without a NaN
temperature. Nothing is said about the store's answer. -/
structure Submits (G : String → Prop) (r : SessionRecord) (w : Writer) (r' : SessionRecord) :
    Prop where
  target : w.target = r.recoveryId
  submitted : ∃ response, w.submit r = some ⟨r.revision, r', response⟩
  ids : w.IdsFresh G r
  noNaN : w.noNaN = true

/-- Every record that such calls reach from a created one is sound. -/
theorem reachable_sound {G : String → Prop} {r₀ r : SessionRecord} {ws : List Writer}
    (h₀ : Created r₀) (h : Lts.Run (Submits G) r₀ ws r) : Sound G r := by
  refine h.invariant (Sound G) (fun r w r' hs hstep => ?_) (h₀.sound G)
  obtain ⟨response, hsub⟩ := hstep.submitted
  exact (submit_sound hs hstep.ids hstep.noNaN hsub).2.2

end

end Whale
