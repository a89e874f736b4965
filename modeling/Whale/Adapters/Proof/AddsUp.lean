import Mathlib.Data.List.Induction
import Whale.Adapters.Stream

/-!
# Streams whose deltas add up

What a stream of events promises about its items (`DeltasAddUp`), as a condition on every event and those
before it (`AddsTo`, `deltasAddUp_iff`). `Tally` is what a parser has to know of the items it has open.
-/

namespace Whale

open Streaming

/-! ## What an event says of an item -/

namespace AgentStreamEvent

/-- The item that an event starts. -/
def started : AgentStreamEvent → Option String
  | itemStarted _ itemId _ _ => some itemId
  | _ => none

/-- The item that an event completes. -/
def completed : AgentStreamEvent → Option CanonicalItem
  | itemCompleted _ item => some item
  | _ => none

/-- The item and the text of a delta. -/
def delta : AgentStreamEvent → Option (String × String)
  | textDelta _ itemId delta | reasoningDelta _ itemId delta | toolCallDelta _ itemId _ delta =>
    some (itemId, delta)
  | _ => none

/-- The item that an event shows to be one of text or of reasoning. -/
def prose : AgentStreamEvent → Option String
  | textDelta _ itemId _ | reasoningDelta _ itemId _ => some itemId
  | itemCompleted _ (.assistantMessage id _ _) | itemCompleted _ (.reasoning id _ _ _) => some id
  | _ => none

def isTurnCompleted : AgentStreamEvent → Bool
  | turnCompleted .. => true
  | _ => false

/-- `TurnCompleted` or `TurnFailed`. -/
def isTerminal : AgentStreamEvent → Bool
  | turnCompleted .. | turnFailed .. => true
  | _ => false

end AgentStreamEvent

/-- What the deltas of an item add up to: its text, its thinking or its raw arguments. -/
def CanonicalItem.streamed : CanonicalItem → String
  | assistantMessage _ content _ => String.join (content.filterMap fun c => match c with
      | .text text => some text
      | _ => none)
  | reasoning _ thinking _ _ => thinking
  | toolCall _ _ _ _ _ rawArguments => rawArguments
  | userMessage .. | toolResult .. => ""

/-- What a delta is not. -/
theorem AgentStreamEvent.of_delta {e : AgentStreamEvent} {d : String × String} (hd : e.delta = some d) :
    e.started = none ∧ e.completed = none ∧ e.isTurnCompleted = false ∧ e.isTerminal = false ∧
      ∀ id, e.prose = some id → id = d.1 := by
  cases e <;> cases hd <;> simp [started, completed, isTurnCompleted, isTerminal, prose]

theorem CanonicalItem.of_prose {item : CanonicalItem} {turnId id : String}
    (h : (AgentStreamEvent.itemCompleted turnId item).prose = some id) : item.id = id := by
  cases item <;> first | exact Option.some.inj h | cases h

def startedIds (es : List AgentStreamEvent) : List String := es.filterMap (·.started)

def completedIds (es : List AgentStreamEvent) : List String := (es.filterMap (·.completed)).map (·.id)

def deltaIds (es : List AgentStreamEvent) : List String := (es.filterMap (·.delta)).map (·.1)

/-- The deltas of an item, in their order. -/
def deltaText (id : String) (es : List AgentStreamEvent) : String :=
  String.join ((es.filterMap (·.delta)).filterMap fun d => if d.1 = id then some d.2 else none)

/-- The deltas of a stream add up to the items that it completes. -/
structure DeltasAddUp (es : List AgentStreamEvent) : Prop where
  startedOnce : (startedIds es).Nodup
  completedOnce : (completedIds es).Nodup
  /-- No item is started after a delta of it, and a text or reasoning item with a delta is started. -/
  startedFirst : Fits (fun pre e => (∀ id, e.started = some id → id ∉ deltaIds pre) ∧
    ∀ id, e.prose = some id → id ∈ deltaIds (pre ++ [e]) → id ∈ startedIds pre) es
  /-- A completed item is what the deltas with its id add up to. -/
  addsUp : Fits (fun pre e => ∀ item, e.completed = some item → item.streamed = deltaText item.id pre) es
  /-- No delta follows the completion of its item. -/
  nothingLater : Fits (fun pre e => ∀ d, e.delta = some d → d.1 ∉ completedIds pre) es
  /-- At `TurnCompleted`, every item with a delta has been completed. -/
  settled : Fits (fun pre e => e.isTurnCompleted = true →
    ∀ id ∈ deltaIds pre, id ∈ completedIds pre) es
  /-- Nothing follows `TurnCompleted` or `TurnFailed`. -/
  last : Fits (fun pre _ => ∀ x ∈ pre, x.isTerminal = false) es

/-- The conditions on an event after some others. -/
structure AddsTo (pre : List AgentStreamEvent) (e : AgentStreamEvent) : Prop where
  starts : ∀ id, e.started = some id → id ∉ startedIds pre ∧ id ∉ deltaIds pre
  completes : ∀ item, e.completed = some item →
    item.id ∉ completedIds pre ∧ item.streamed = deltaText item.id pre
  prose : ∀ id, e.prose = some id → id ∈ deltaIds (pre ++ [e]) → id ∈ startedIds pre
  deltas : ∀ d, e.delta = some d → d.1 ∉ completedIds pre
  settles : e.isTurnCompleted = true → ∀ id ∈ deltaIds pre, id ∈ completedIds pre
  last : ∀ x ∈ pre, x.isTerminal = false

theorem startedIds_append (a b : List AgentStreamEvent) :
    startedIds (a ++ b) = startedIds a ++ startedIds b := List.filterMap_append

theorem completedIds_append (a b : List AgentStreamEvent) :
    completedIds (a ++ b) = completedIds a ++ completedIds b := by
  simp [completedIds, List.filterMap_append]

theorem deltaIds_append (a b : List AgentStreamEvent) :
    deltaIds (a ++ b) = deltaIds a ++ deltaIds b := by
  simp [deltaIds, List.filterMap_append]

theorem deltaText_append (id : String) (a b : List AgentStreamEvent) :
    deltaText id (a ++ b) = deltaText id a ++ deltaText id b := by
  simp [deltaText, List.filterMap_append]

section
variable {es : List AgentStreamEvent} {e : AgentStreamEvent}

theorem startedIds_snoc (h : e.started = none) : startedIds (es ++ [e]) = startedIds es := by
  simp [startedIds, h]

theorem completedIds_snoc (h : e.completed = none) : completedIds (es ++ [e]) = completedIds es := by
  simp [completedIds, h]

theorem deltaIds_snoc (h : e.delta = none) : deltaIds (es ++ [e]) = deltaIds es := by
  simp [deltaIds, h]

theorem deltaText_snoc (h : e.delta = none) (id : String) :
    deltaText id (es ++ [e]) = deltaText id es := by
  simp [deltaText, h]

end

theorem deltaText_of_not_mem {id : String} {es : List AgentStreamEvent} (h : id ∉ deltaIds es) :
    deltaText id es = "" := by
  have hnone : ((es.filterMap (·.delta)).filterMap fun d => if d.1 = id then some d.2 else none) = [] := by
    refine List.filterMap_eq_nil_iff.mpr fun d hd => if_neg fun heq => h ?_
    exact heq ▸ List.mem_map_of_mem hd
  rw [deltaText, hnone]
  rfl

/-- A stream keeps its promise event by event. -/
theorem deltasAddUp_iff {es : List AgentStreamEvent} : DeltasAddUp es ↔ Fits AddsTo es := by
  induction es using List.reverseRecOn with
  | nil => exact iff_of_true ⟨.nil, .nil, fits_nil, fits_nil, fits_nil, fits_nil, fits_nil⟩ fits_nil
  | append_singleton es e ih =>
    rw [fits_snoc, ← ih]
    constructor
    · rintro ⟨h1, h2, h3, h4, h5, h6, h7⟩
      rw [startedIds_append, List.nodup_append] at h1
      rw [completedIds_append, List.nodup_append] at h2
      rw [fits_snoc] at h3 h4 h5 h6 h7
      refine ⟨⟨h1.1, h2.1, h3.1, h4.1, h5.1, h6.1, h7.1⟩, ?_, ?_, h3.2.2, h5.2, h6.2, h7.2⟩
      · intro id hid
        exact ⟨fun hmem => h1.2.2 id hmem id (by simp [startedIds, hid]) rfl, h3.2.1 id hid⟩
      · intro item hitem
        refine ⟨fun hmem => ?_, h4.2 item hitem⟩
        exact h2.2.2 item.id hmem item.id (by simp [completedIds, hitem]) rfl
    · rintro ⟨⟨h1, h2, h3, h4, h5, h6, h7⟩, hstarts, hcompletes, hprose, hdeltas, hsettles, hlast⟩
      refine ⟨?_, ?_, fits_snoc.mpr ⟨h3, fun id hid => (hstarts id hid).2, hprose⟩,
        fits_snoc.mpr ⟨h4, fun item hi => (hcompletes item hi).2⟩,
        fits_snoc.mpr ⟨h5, hdeltas⟩, fits_snoc.mpr ⟨h6, hsettles⟩, fits_snoc.mpr ⟨h7, hlast⟩⟩
      · rw [startedIds_append, List.nodup_append]
        refine ⟨h1, ?_, fun a ha b hb heq => ?_⟩
        · cases hs : e.started <;> simp [startedIds, hs]
        · have hb : e.started = some b := by simpa [startedIds] using hb
          exact (hstarts b hb).1 (heq ▸ ha)
      · rw [completedIds_append, List.nodup_append]
        refine ⟨h2, ?_, fun a ha b hb heq => ?_⟩
        · cases hs : e.completed <;> simp [completedIds, hs]
        · obtain ⟨item, hitem, rfl⟩ : ∃ item, e.completed = some item ∧ item.id = b := by
            cases hs : e.completed with
            | none => simp [completedIds, hs] at hb
            | some item => exact ⟨item, rfl, by simpa [completedIds, hs, eq_comm] using hb⟩
          exact (hcompletes item hitem).1 (heq ▸ ha)

/-- The promise of a stream after its first event. -/
theorem deltasAddUp_cons {turnId threadId : String} {es : List AgentStreamEvent} :
    DeltasAddUp (.turnStarted turnId threadId :: es) ↔
      FitsAfter AddsTo [.turnStarted turnId threadId] es := by
  rw [deltasAddUp_iff, ← List.singleton_append, fits_append]
  refine and_iff_right ?_
  rw [← List.nil_append [_], fits_snoc]
  refine ⟨fits_nil, ?_, ?_, ?_, ?_, ?_, ?_⟩ <;>
    simp [AgentStreamEvent.started, AgentStreamEvent.completed, AgentStreamEvent.delta,
      AgentStreamEvent.prose, AgentStreamEvent.isTurnCompleted]

theorem quiet_snoc {es : List AgentStreamEvent} {e : AgentStreamEvent}
    (h : ∀ x ∈ es, x.isTerminal = false) (he : e.isTerminal = false) :
    ∀ x ∈ es ++ [e], x.isTerminal = false := by
  intro x hx
  rcases List.mem_append.mp hx with hx | hx
  · exact h x hx
  · rwa [List.mem_singleton.mp hx]

/-! ## The items that are open -/

/-- The items that a parser has open, with what their deltas add up to so far. Their ids, and all ids of
the stream, are among those drawn. -/
structure Tally (ids : StreamIds) (drawn : Nat) (opened : List (String × String))
    (es : List AgentStreamEvent) : Prop where
  quiet : ∀ x ∈ es, x.isTerminal = false
  known : ∀ id, id ∈ startedIds es ∨ id ∈ completedIds es ∨ id ∈ deltaIds es ∨ id ∈ opened.map (·.1) →
    ∃ n < drawn, ids.item n = id
  nodup : (opened.map (·.1)).Nodup
  text : ∀ o ∈ opened, o.1 ∉ completedIds es ∧ deltaText o.1 es = o.2
  settled : ∀ id ∈ deltaIds es, id ∈ completedIds es ∨ id ∈ opened.map (·.1)

namespace Tally

variable {ids : StreamIds} {drawn : Nat} {opened opened' : List (String × String)}
  {es : List AgentStreamEvent} {e : AgentStreamEvent} {id text : String}

theorem perm (h : Tally ids drawn opened es) (hp : opened.Perm opened') : Tally ids drawn opened' es where
  quiet := h.quiet
  known id hid := h.known id (by rwa [(hp.map (·.1)).mem_iff])
  nodup := (hp.map (·.1)).nodup_iff.mp h.nodup
  text o ho := h.text o (hp.mem_iff.mpr ho)
  settled id hid := (h.settled id hid).imp_right (hp.map (·.1)).mem_iff.mp

/-- An id that was not drawn yet is on no event. -/
theorem fresh (h : Tally ids drawn opened es) (hinj : Function.Injective ids.item) :
    ids.item drawn ∉ startedIds es ∧ ids.item drawn ∉ completedIds es ∧ ids.item drawn ∉ deltaIds es ∧
      ids.item drawn ∉ opened.map (·.1) := by
  have hnot : ∀ n < drawn, ids.item n ≠ ids.item drawn := fun n hn heq => hn.ne (hinj heq)
  refine ⟨fun hm => ?_, fun hm => ?_, fun hm => ?_, fun hm => ?_⟩
  · obtain ⟨n, hn, heq⟩ := h.known _ (.inl hm)
    exact hnot n hn heq
  · obtain ⟨n, hn, heq⟩ := h.known _ (.inr (.inl hm))
    exact hnot n hn heq
  · obtain ⟨n, hn, heq⟩ := h.known _ (.inr (.inr (.inl hm)))
    exact hnot n hn heq
  · obtain ⟨n, hn, heq⟩ := h.known _ (.inr (.inr (.inr hm)))
    exact hnot n hn heq

/-- An item is opened. -/
theorem draw (h : Tally ids drawn opened es) (hinj : Function.Injective ids.item) :
    Tally ids (drawn + 1) ((ids.item drawn, "") :: opened) es := by
  obtain ⟨-, hcompleted, hdelta, hopened⟩ := h.fresh hinj
  refine ⟨h.quiet, fun id hid => ?_, ?_, fun o ho => ?_, fun id hid => ?_⟩
  · by_cases heq : id = ids.item drawn
    · exact ⟨drawn, Nat.lt_succ_self _, heq.symm⟩
    · simp only [List.map_cons, List.mem_cons, heq, false_or] at hid
      obtain ⟨n, hn, hid⟩ := h.known id hid
      exact ⟨n, Nat.lt_succ_of_lt hn, hid⟩
  · exact List.nodup_cons.mpr ⟨hopened, h.nodup⟩
  · rcases List.mem_cons.mp ho with rfl | ho
    · exact ⟨hcompleted, deltaText_of_not_mem hdelta⟩
    · exact h.text o ho
  · exact (h.settled id hid).imp_right (List.mem_cons_of_mem _)

/-- An open item that is not started is. -/
theorem start (h : Tally ids drawn opened es) (hid : id ∈ opened.map (·.1)) (hs : id ∉ startedIds es)
    (hdelta : id ∉ deltaIds es) (turnId itemType : String) (phase : Option MessagePhase) :
    AddsTo es (.itemStarted turnId id itemType phase) ∧
    Tally ids drawn opened (es ++ [.itemStarted turnId id itemType phase]) := by
  refine ⟨⟨?_, nofun, nofun, nofun, nofun, h.quiet⟩, ?_, fun id' h' => ?_, h.nodup, fun o ho => ?_,
    fun id' h' => ?_⟩
  · intro id' h'
    cases h'
    exact ⟨hs, hdelta⟩
  · exact quiet_snoc h.quiet rfl
  · refine h.known id' ?_
    rw [startedIds_append, completedIds_snoc (by rfl), deltaIds_snoc (by rfl), List.mem_append] at h'
    rcases h' with (h' | h') | h'
    · exact .inl h'
    · obtain rfl : id = id' := by simpa [startedIds, AgentStreamEvent.started, eq_comm] using h'
      exact .inr (.inr (.inr hid))
    · exact .inr h'
  · rw [completedIds_snoc (by rfl), deltaText_snoc (by rfl)]
    exact h.text o ho
  · rw [deltaIds_snoc (by rfl)] at h'
    rw [completedIds_snoc (by rfl)]
    exact h.settled id' h'

/-- A delta of an open item. -/
theorem delta (h : Tally ids drawn ((id, text) :: opened) es) {d : String} (hd : e.delta = some (id, d))
    (hprose : e.prose ≠ none → id ∈ startedIds es) :
    AddsTo es e ∧ Tally ids drawn ((id, text ++ d) :: opened) (es ++ [e]) := by
  obtain ⟨hstarted, hcompleted, hturn, hterminal, hkind⟩ := e.of_delta hd
  have hnew := h.text _ List.mem_cons_self
  have hne : ∀ o ∈ opened, id ≠ o.1 := by
    rintro o ho heq
    have hnodup : id ∉ opened.map (·.1) := (List.nodup_cons.mp h.nodup).1
    exact hnodup (heq ▸ List.mem_map_of_mem ho)
  have hsame : completedIds (es ++ [e]) = completedIds es := completedIds_snoc hcompleted
  refine ⟨⟨by simp [hstarted], by simp [hcompleted], fun id' hp _ => ?_, fun d' hd' => ?_,
    by simp [hturn], h.quiet⟩, ?_, fun id' h' => ?_, h.nodup, fun o ho => ?_, fun id' h' => ?_⟩
  · rw [hkind id' hp]
    exact hprose (by simp [hp])
  · rw [hd] at hd'
    cases hd'
    exact hnew.1
  · exact quiet_snoc h.quiet hterminal
  · refine h.known id' ?_
    rw [startedIds_snoc hstarted, hsame, deltaIds_append, List.mem_append] at h'
    rcases h' with h' | h' | (h' | h') | h'
    · exact .inl h'
    · exact .inr (.inl h')
    · exact .inr (.inr (.inl h'))
    · obtain rfl : id' = id := by simpa [deltaIds, hd] using h'
      exact .inr (.inr (.inr (by simp)))
    · exact .inr (.inr (.inr h'))
  · rw [hsame, deltaText_append]
    rcases List.mem_cons.mp ho with rfl | ho
    · refine ⟨hnew.1, ?_⟩
      rw [show deltaText id es = text from hnew.2]
      simp [deltaText, hd]
    · obtain ⟨h1, h2⟩ := h.text o (List.mem_cons_of_mem _ ho)
      refine ⟨h1, ?_⟩
      rw [h2]
      simp [deltaText, hd, hne o ho]
  · rw [hsame]
    rw [deltaIds_append, List.mem_append] at h'
    rcases h' with h' | h'
    · exact h.settled id' h'
    · obtain rfl : id' = id := by simpa [deltaIds, hd] using h'
      exact .inr (by simp)

/-- An open item is completed with its deltas. -/
theorem complete (h : Tally ids drawn ((id, text) :: opened) es) {item : CanonicalItem} (hid : item.id = id)
    (htext : item.streamed = text) (turnId : String)
    (hprose : (AgentStreamEvent.itemCompleted turnId item).prose ≠ none → id ∈ startedIds es) :
    AddsTo es (.itemCompleted turnId item) ∧
    Tally ids drawn opened (es ++ [.itemCompleted turnId item]) := by
  obtain ⟨hnot, hnodup⟩ := List.nodup_cons.mp h.nodup
  have hopen := h.text _ List.mem_cons_self
  have hids : completedIds (es ++ [.itemCompleted turnId item]) = completedIds es ++ [id] := by
    rw [completedIds_append, ← hid]
    rfl
  refine ⟨⟨nofun, ?_, fun id' hp _ => ?_, nofun, nofun, h.quiet⟩, ?_, fun id' h' => ?_, hnodup,
    fun o ho => ?_, fun id' h' => ?_⟩
  · intro item' h'
    cases h'
    rw [hid, htext]
    exact ⟨hopen.1, hopen.2.symm⟩
  · rw [← item.of_prose hp, hid]
    exact hprose (by simp [hp])
  · exact quiet_snoc h.quiet rfl
  · refine h.known id' ?_
    rw [startedIds_snoc (by rfl), hids, deltaIds_snoc (by rfl), List.mem_append] at h'
    rcases h' with h' | (h' | h') | h' | h'
    · exact .inl h'
    · exact .inr (.inl h')
    · exact .inr (.inr (.inr (by simpa using Or.inl (List.mem_singleton.mp h'))))
    · exact .inr (.inr (.inl h'))
    · exact .inr (.inr (.inr (List.mem_cons_of_mem _ h')))
  · obtain ⟨h1, h2⟩ := h.text o (List.mem_cons_of_mem _ ho)
    refine ⟨?_, ?_⟩
    · rw [hids, List.mem_append, List.mem_singleton, not_or]
      have hmem : o.1 ∈ opened.map (·.1) := List.mem_map_of_mem ho
      refine ⟨h1, fun heq => ?_⟩
      rw [heq] at hmem
      exact hnot hmem
    · rw [deltaText_snoc (by rfl), h2]
  · rw [hids, List.mem_append, List.mem_singleton]
    rw [deltaIds_snoc (by rfl)] at h'
    have := h.settled id' h'
    rcases this with this | this
    · exact .inl (.inl this)
    · rcases List.mem_cons.mp this with rfl | this
      · exact .inl (.inr rfl)
      · exact .inr this

/-- Open items are completed one after the other. -/
theorem completeAll (turnId : String) : ∀ {items : List CanonicalItem} {es : List AgentStreamEvent},
    Tally ids drawn (items.map (fun i => (i.id, i.streamed)) ++ opened) es →
    (∀ i ∈ items, (AgentStreamEvent.itemCompleted turnId i).prose ≠ none → i.id ∈ startedIds es) →
    FitsAfter AddsTo es (items.map (.itemCompleted turnId)) ∧
      Tally ids drawn opened (es ++ items.map (.itemCompleted turnId))
  | [], es, h, _ => ⟨trivial, by simpa using h⟩
  | item :: items, es, h, hprose => by
    obtain ⟨hadds, h⟩ := h.complete rfl rfl turnId (hprose item List.mem_cons_self)
    obtain ⟨hfits, h⟩ := completeAll turnId h fun i hi hp => by
      rw [startedIds_snoc (by rfl)]
      exact hprose i (List.mem_cons_of_mem _ hi) hp
    refine ⟨⟨hadds, hfits⟩, ?_⟩
    rwa [List.append_assoc] at h

end Tally

end Whale
