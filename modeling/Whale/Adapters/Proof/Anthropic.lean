import Whale.Adapters.Anthropic
import Whale.Adapters.Proof.AddsUp

/-!
# The deltas of an Anthropic message

The parser checks that no block starts inside another and that the message does not stop inside one. What
it takes from the provider unchecked is in `Tidy`: where a delta or a stop may stand, and which deltas a
block may have. `Track` follows the current block, and `Inv` ties it to the events.
-/

namespace Whale.Anthropic

open Streaming

/-- The current block, as far as the variables of the parser do not say it. -/
structure Track where
  /-- The block was announced with a type that starts an item. -/
  started : Bool := false
  /-- The block was stopped, and its item completed. -/
  completed : Bool := false
  /-- A delta arrived. -/
  touched : Bool := false
  /-- An earlier block had a delta and completed no item. -/
  lost : Bool := false

/-- The type that a block is announced with starts an item. -/
def startsItem (parsed : Value) : Bool :=
  match parsed.get "content_block" with
  | some block => (announced (typeOf block)).isSome
  | none => false

/-- What the deltas of another kind than that of the block add up to. -/
def State.foreign (s : State) : String :=
  match s.blockType with
  | "text" => s.thinkingBuf ++ s.toolArgBuf
  | "thinking" => s.textBuf ++ s.toolArgBuf
  | _ => s.textBuf ++ s.thinkingBuf

/-- The track after an event. -/
def Track.event (t : Track) (s : State) (parsed : Value) : Track :=
  match eventOf parsed with
  | .blockStart =>
    { started := startsItem parsed, lost := t.lost || t.touched && !t.completed }
  | .blockDelta =>
    match deltaOf parsed with
    | some (.text _) | some (.thinking _) | some (.json _) => { t with touched := true }
    | _ => t
  | .blockStop => { t with completed := t.completed || (announced s.blockType).isSome }
  | _ => t

/-- What the parser takes unchecked: a delta of text or thinking comes in a block that was announced, no
delta and no second stop comes after the stop of one, a block is stopped without a delta of another kind,
and no delta was lost when the message stops. -/
def Track.TidyEvent (t : Track) (s : State) (parsed : Value) : Prop :=
  match eventOf parsed with
  | .blockDelta =>
    match deltaOf parsed with
    | some (.text _) | some (.thinking _) => t.started = true ∧ t.completed = false
    | some (.json _) => t.completed = false
    | _ => True
  | .blockStop => (announced s.blockType).isSome = true → t.completed = false ∧ s.foreign = "" ∧
      (s.blockType ≠ "tool_use" → t.touched = true → t.started = true)
  | .messageStop => s.blockOpen = false → t.lost = false ∧ (t.touched = true → t.completed = true)
  | _ => True

section
variable [ToolJson]

/-- The track after an input. -/
def Track.next (t : Track) (s : State) (input : Sse) : Track :=
  match readSse input with
  | .ok (some parsed) => t.event s parsed
  | _ => t

/-- An input that is taken unchecked. -/
def Track.TidyInput (t : Track) (s : State) (input : Sse) : Prop :=
  match readSse input with
  | .ok (some parsed) => t.TidyEvent s parsed
  | _ => True

end

variable {ids : StreamIds} {es : List AgentStreamEvent} {t : Track} {s : State}

/-- What the deltas of a block add up to (`all`), as far as its three buffers tell: they lost the order
between deltas of different kinds. -/
structure SumsTo (text thinking json all : String) : Prop where
  length : all.length = text.length + thinking.length + json.length
  onlyText : thinking = "" → json = "" → all = text
  onlyThinking : text = "" → json = "" → all = thinking
  onlyJson : text = "" → thinking = "" → all = json

namespace SumsTo

variable {text thinking json all : String}

theorem empty : SumsTo "" "" "" "" := ⟨rfl, fun _ _ => rfl, fun _ _ => rfl, fun _ _ => rfl⟩

theorem append_text (h : SumsTo text thinking json all) (d : String) :
    SumsTo (text ++ d) thinking json (all ++ d) where
  length := by rw [String.length_append, String.length_append, h.length]; omega
  onlyText hthinking hjson := by rw [h.onlyText hthinking hjson]
  onlyThinking hd hjson := by
    obtain ⟨htext, rfl⟩ := String.append_eq_empty_iff.mp hd
    rw [String.append_empty, h.onlyThinking htext hjson]
  onlyJson hd hthinking := by
    obtain ⟨htext, rfl⟩ := String.append_eq_empty_iff.mp hd
    rw [String.append_empty, h.onlyJson htext hthinking]

theorem append_thinking (h : SumsTo text thinking json all) (d : String) :
    SumsTo text (thinking ++ d) json (all ++ d) where
  length := by rw [String.length_append, String.length_append, h.length]; omega
  onlyText hd hjson := by
    obtain ⟨hthinking, rfl⟩ := String.append_eq_empty_iff.mp hd
    rw [String.append_empty, h.onlyText hthinking hjson]
  onlyThinking htext hjson := by rw [h.onlyThinking htext hjson]
  onlyJson htext hd := by
    obtain ⟨hthinking, rfl⟩ := String.append_eq_empty_iff.mp hd
    rw [String.append_empty, h.onlyJson htext hthinking]

theorem append_json (h : SumsTo text thinking json all) (d : String) :
    SumsTo text thinking (json ++ d) (all ++ d) where
  length := by rw [String.length_append, String.length_append, h.length]; omega
  onlyText hthinking hd := by
    obtain ⟨hjson, rfl⟩ := String.append_eq_empty_iff.mp hd
    rw [String.append_empty, h.onlyText hthinking hjson]
  onlyThinking htext hd := by
    obtain ⟨hjson, rfl⟩ := String.append_eq_empty_iff.mp hd
    rw [String.append_empty, h.onlyThinking htext hjson]
  onlyJson htext hthinking := by rw [h.onlyJson htext hthinking]

/-- A buffer holds all the deltas exactly when the others are empty. -/
theorem eq_text_iff (h : SumsTo text thinking json all) : text = all ↔ thinking = "" ∧ json = "" := by
  refine ⟨fun heq => ?_, fun ⟨hthinking, hjson⟩ => (h.onlyText hthinking hjson).symm⟩
  have hlen := h.length
  rw [← heq] at hlen
  exact ⟨String.length_eq_zero_iff.mp (by omega), String.length_eq_zero_iff.mp (by omega)⟩

theorem eq_thinking_iff (h : SumsTo text thinking json all) :
    thinking = all ↔ text = "" ∧ json = "" := by
  refine ⟨fun heq => ?_, fun ⟨htext, hjson⟩ => (h.onlyThinking htext hjson).symm⟩
  have hlen := h.length
  rw [← heq] at hlen
  exact ⟨String.length_eq_zero_iff.mp (by omega), String.length_eq_zero_iff.mp (by omega)⟩

theorem eq_json_iff (h : SumsTo text thinking json all) : json = all ↔ text = "" ∧ thinking = "" := by
  refine ⟨fun heq => ?_, fun ⟨htext, hthinking⟩ => (h.onlyJson htext hthinking).symm⟩
  have hlen := h.length
  rw [← heq] at hlen
  exact ⟨String.length_eq_zero_iff.mp (by omega), String.length_eq_zero_iff.mp (by omega)⟩

end SumsTo

/-- The current block and the events. -/
structure Inv (ids : StreamIds) (es : List AgentStreamEvent) (t : Track) (s : State) : Prop where
  quiet : ∀ x ∈ es, x.isTerminal = false
  known : ∀ id, id ∈ startedIds es ∨ id ∈ completedIds es ∨ id ∈ deltaIds es →
    ∃ n < s.drawn, ids.item n = id
  current : ∃ n < s.drawn, ids.item n = s.itemId
  started : t.started = true ↔ s.itemId ∈ startedIds es
  completed : t.completed = true ↔ s.itemId ∈ completedIds es
  touched : t.touched = true ↔ s.itemId ∈ deltaIds es
  lost : t.lost = true ↔ ∃ id ∈ deltaIds es, id ≠ s.itemId ∧ id ∉ completedIds es
  sums : SumsTo s.textBuf s.thinkingBuf s.toolArgBuf (deltaText s.itemId es)

/-! ## Steps -/

/-- What the invariant does not see may change. -/
theorem Inv.same (h : Inv ids es t s) {s' : State} (hdrawn : s'.drawn = s.drawn)
    (hitem : s'.itemId = s.itemId) (htext : s'.textBuf = s.textBuf)
    (hthinking : s'.thinkingBuf = s.thinkingBuf) (hjson : s'.toolArgBuf = s.toolArgBuf) :
    Inv ids es t s' := by
  refine ⟨h.quiet, ?_, ?_, ?_, ?_, ?_, ?_, ?_⟩
  · rw [hdrawn]; exact h.known
  · rw [hdrawn, hitem]; exact h.current
  · rw [hitem]; exact h.started
  · rw [hitem]; exact h.completed
  · rw [hitem]; exact h.touched
  · rw [hitem]; exact h.lost
  · rw [hitem, htext, hthinking, hjson]; exact h.sums

/-- An event about no item. -/
theorem Inv.silent (h : Inv ids es t s) {e : AgentStreamEvent} (hs : e.started = none)
    (hc : e.completed = none) (hd : e.delta = none) (hterminal : e.isTerminal = false) :
    Inv ids (es ++ [e]) t s := by
  have hstarted : startedIds (es ++ [e]) = startedIds es := startedIds_snoc hs
  have hcompleted : completedIds (es ++ [e]) = completedIds es := completedIds_snoc hc
  have hdelta : deltaIds (es ++ [e]) = deltaIds es := deltaIds_snoc hd
  have htext : ∀ id, deltaText id (es ++ [e]) = deltaText id es := deltaText_snoc hd
  refine ⟨quiet_snoc h.quiet hterminal, ?_, h.current, ?_, ?_, ?_, ?_, ?_⟩
  · rw [hstarted, hcompleted, hdelta]; exact h.known
  · rw [hstarted]; exact h.started
  · rw [hcompleted]; exact h.completed
  · rw [hdelta]; exact h.touched
  · rw [hcompleted, hdelta]; exact h.lost
  · rw [htext]; exact h.sums

/-- A delta of the current block. -/
theorem Inv.delta (h : Inv ids es t s) {e : AgentStreamEvent} {d : String}
    (hd : e.delta = some (s.itemId, d)) {s' : State} (hdrawn : s'.drawn = s.drawn)
    (hitem : s'.itemId = s.itemId)
    (hsums : SumsTo s'.textBuf s'.thinkingBuf s'.toolArgBuf (deltaText s.itemId es ++ d)) :
    Inv ids (es ++ [e]) { t with touched := true } s' := by
  obtain ⟨hs, hc, -, hterminal, -⟩ := e.of_delta hd
  have hstarted : startedIds (es ++ [e]) = startedIds es := startedIds_snoc hs
  have hcompleted : completedIds (es ++ [e]) = completedIds es := completedIds_snoc hc
  have hdelta : deltaIds (es ++ [e]) = deltaIds es ++ [s.itemId] := by
    simp [deltaIds, hd]
  have htext : deltaText s.itemId (es ++ [e]) = deltaText s.itemId es ++ d := by
    rw [deltaText_append]
    simp [deltaText, hd]
  refine ⟨quiet_snoc h.quiet hterminal, fun id hid => ?_, ?_, ?_, ?_, ?_, ?_, ?_⟩
  · rw [hdrawn]
    rw [hstarted, hcompleted, hdelta, List.mem_append, List.mem_singleton] at hid
    rcases hid with hid | hid | hid | rfl
    · exact h.known id (.inl hid)
    · exact h.known id (.inr (.inl hid))
    · exact h.known id (.inr (.inr hid))
    · exact h.current
  · rw [hdrawn, hitem]; exact h.current
  · rw [hitem, hstarted]; exact h.started
  · rw [hitem, hcompleted]; exact h.completed
  · rw [hitem, hdelta]; simp
  · rw [hitem, hcompleted, hdelta]
    refine h.lost.trans (Iff.intro ?_ ?_)
    · rintro ⟨id, hid, hne, hnot⟩
      exact ⟨id, List.mem_append_left _ hid, hne, hnot⟩
    · rintro ⟨id, hid, hne, hnot⟩
      rw [List.mem_append, List.mem_singleton] at hid
      exact ⟨id, hid.resolve_right hne, hne, hnot⟩
  · rw [hitem, htext]; exact hsums

/-- When a delta fits. -/
theorem Inv.adds_delta (h : Inv ids es t s) {e : AgentStreamEvent} {d : String}
    (hd : e.delta = some (s.itemId, d)) :
    AddsTo es e ↔ (e.prose ≠ none → t.started = true) ∧ t.completed = false := by
  obtain ⟨hs, hc, hturn, -, hkind⟩ := e.of_delta hd
  rw [← Bool.not_eq_true, h.completed, h.started]
  constructor
  · intro hadds
    refine ⟨fun hp => ?_, hadds.deltas _ hd⟩
    obtain ⟨id, hp⟩ := Option.ne_none_iff_exists'.mp hp
    have hmem := hadds.prose id hp
    rw [hkind id hp, deltaIds_append] at hmem
    exact hmem (List.mem_append_right _ (by simp [deltaIds, hd]))
  · rintro ⟨hprose, hnot⟩
    refine ⟨by simp [hs], by simp [hc], fun id hp _ => ?_, fun d' hd' => ?_, by simp [hturn], h.quiet⟩
    · rw [hkind id hp]
      exact hprose (by simp [hp])
    · rw [hd] at hd'
      cases hd'
      exact hnot

/-- A block starts with an id that is on no event. -/
theorem Inv.start (h : Inv ids es t s) (hinj : Function.Injective ids.item) :
    ids.item s.drawn ∉ startedIds es ∧
    Inv ids es { lost := t.lost || t.touched && !t.completed } (s.cleared ids) := by
  have hfresh : ∀ id, id ∈ startedIds es ∨ id ∈ completedIds es ∨ id ∈ deltaIds es →
      id ≠ ids.item s.drawn := by
    rintro id hid rfl
    obtain ⟨n, hn, heq⟩ := h.known _ hid
    exact hn.ne (hinj heq)
  have hcurrent : s.itemId ≠ ids.item s.drawn := by
    obtain ⟨n, hn, heq⟩ := h.current
    rw [← heq]
    exact fun heq' => hn.ne (hinj heq')
  have hempty : deltaText (ids.item s.drawn) es = "" :=
    deltaText_of_not_mem fun hm => hfresh _ (.inr (.inr hm)) rfl
  refine ⟨fun hm => hfresh _ (.inl hm) rfl, ⟨h.quiet, fun id hid => ?_, ⟨s.drawn, Nat.lt_succ_self _, rfl⟩,
    ?_, ?_, ?_, ?_, ?_⟩⟩
  · obtain ⟨n, hn, heq⟩ := h.known id hid
    exact ⟨n, Nat.lt_succ_of_lt hn, heq⟩
  · exact iff_of_false nofun fun hm => hfresh _ (.inl hm) rfl
  · exact iff_of_false nofun fun hm => hfresh _ (.inr (.inl hm)) rfl
  · exact iff_of_false nofun fun hm => hfresh _ (.inr (.inr hm)) rfl
  · rw [Bool.or_eq_true, Bool.and_eq_true, h.lost, h.touched, Bool.not_eq_true', ← Bool.not_eq_true,
      h.completed]
    constructor
    · rintro (⟨id, hid, -, hnot⟩ | ⟨hid, hnot⟩)
      · exact ⟨id, hid, hfresh _ (.inr (.inr hid)), hnot⟩
      · exact ⟨s.itemId, hid, hcurrent, hnot⟩
    · rintro ⟨id, hid, -, hnot⟩
      by_cases heq : id = s.itemId
      · exact .inr ⟨heq ▸ hid, heq ▸ hnot⟩
      · exact .inl ⟨id, hid, heq, hnot⟩
  · show SumsTo "" "" "" (deltaText (ids.item s.drawn) es)
    rw [hempty]
    exact .empty

/-- The new block is announced. -/
theorem Inv.announce (h : Inv ids es t s) (hnot : t.started = false) (htouched : t.touched = false) (turnId itemType : String)
    (phase : Option MessagePhase) :
    AddsTo es (.itemStarted turnId s.itemId itemType phase) ∧
    Inv ids (es ++ [.itemStarted turnId s.itemId itemType phase]) { t with started := true } s := by
  have hids : startedIds (es ++ [.itemStarted turnId s.itemId itemType phase]) =
      startedIds es ++ [s.itemId] := startedIds_append _ _
  have hcompleted : completedIds (es ++ [.itemStarted turnId s.itemId itemType phase]) =
      completedIds es := completedIds_snoc rfl
  have hdelta : deltaIds (es ++ [.itemStarted turnId s.itemId itemType phase]) = deltaIds es :=
    deltaIds_snoc rfl
  have htext : ∀ id, deltaText id (es ++ [.itemStarted turnId s.itemId itemType phase]) =
      deltaText id es :=
    deltaText_snoc rfl
  refine ⟨⟨?_, nofun, nofun, nofun, nofun, h.quiet⟩, ⟨quiet_snoc h.quiet rfl, fun id hid => ?_, h.current, ?_,
    ?_, ?_, ?_, ?_⟩⟩
  · intro id hid
    cases hid
    rw [← h.started, ← h.touched, hnot, htouched]
    simp
  · rw [hids, hcompleted, hdelta, List.mem_append, List.mem_singleton] at hid
    rcases hid with (hid | rfl) | hid
    · exact h.known id (.inl hid)
    · exact h.current
    · exact h.known id (.inr hid)
  · rw [hids]; simp
  · rw [hcompleted]; exact h.completed
  · rw [hdelta]; exact h.touched
  · rw [hcompleted, hdelta]; exact h.lost
  · rw [htext]; exact h.sums

/-- The item of the current block is completed. -/
theorem Inv.complete (h : Inv ids es t s) {item : CanonicalItem} (hitem : item.id = s.itemId)
    (turnId : String) :
    (AddsTo es (.itemCompleted turnId item) ↔
      t.completed = false ∧ item.streamed = deltaText s.itemId es ∧
        ((AgentStreamEvent.itemCompleted turnId item).prose ≠ none → t.touched = true →
          t.started = true)) ∧
    Inv ids (es ++ [.itemCompleted turnId item]) { t with completed := true } s := by
  have hids : completedIds (es ++ [.itemCompleted turnId item]) = completedIds es ++ [s.itemId] := by
    rw [completedIds_append, ← hitem]
    rfl
  have hstarted : startedIds (es ++ [.itemCompleted turnId item]) = startedIds es :=
    startedIds_snoc rfl
  have hdelta : deltaIds (es ++ [.itemCompleted turnId item]) = deltaIds es :=
    deltaIds_snoc rfl
  have htext : ∀ id, deltaText id (es ++ [.itemCompleted turnId item]) = deltaText id es :=
    deltaText_snoc rfl
  refine ⟨?_, ⟨quiet_snoc h.quiet rfl, fun id hid => ?_, h.current, ?_, ?_, ?_, ?_, ?_⟩⟩
  · rw [← Bool.not_eq_true, h.completed, h.touched, h.started, ← hitem]
    constructor
    · intro hadds
      obtain ⟨hc, htext⟩ := hadds.completes item rfl
      refine ⟨hc, htext, fun hp hm => ?_⟩
      obtain ⟨id, hp⟩ := Option.ne_none_iff_exists'.mp hp
      have hmem := hadds.prose id hp
      rw [hdelta, ← item.of_prose hp] at hmem
      exact hmem hm
    · rintro ⟨hc, htext, hprose⟩
      refine ⟨nofun, fun item' h' => ?_, fun id hp hm => ?_, nofun, nofun, h.quiet⟩
      · cases h'
        exact ⟨hc, htext⟩
      · rw [hdelta, ← item.of_prose hp] at hm
        rw [← item.of_prose hp]
        exact hprose (by simp [hp]) hm
  · rw [hids, hstarted, hdelta, List.mem_append, List.mem_singleton] at hid
    rcases hid with hid | (hid | rfl) | hid
    · exact h.known id (.inl hid)
    · exact h.known id (.inr (.inl hid))
    · exact h.current
    · exact h.known id (.inr (.inr hid))
  · rw [hstarted]; exact h.started
  · rw [hids]; simp
  · rw [hdelta]; exact h.touched
  · rw [hids, hdelta]
    refine h.lost.trans ⟨fun ⟨id, hid, hne, hnot⟩ => ⟨id, hid, hne, ?_⟩, fun ⟨id, hid, hne, hnot⟩ =>
      ⟨id, hid, hne, fun hm => hnot (List.mem_append_left _ hm)⟩⟩
    simpa [hne] using hnot
  · rw [htext]; exact h.sums

/-- `TurnCompleted` fits when no delta was lost. -/
theorem Inv.adds_turnCompleted (h : Inv ids es t s) (turnId threadId : String) (usage : UsageMetrics) :
    AddsTo es (.turnCompleted turnId threadId usage) ↔
      t.lost = false ∧ (t.touched = true → t.completed = true) := by
  rw [← Bool.not_eq_true, h.lost, h.touched, h.completed]
  constructor
  · intro hadds
    have hall := hadds.settles rfl
    exact ⟨fun ⟨id, hid, _, hnot⟩ => hnot (hall id hid), fun hid => hall _ hid⟩
  · rintro ⟨hlost, hcurrent⟩
    refine ⟨nofun, nofun, nofun, nofun, fun _ id hid => ?_, h.quiet⟩
    by_cases heq : id = s.itemId
    · subst heq
      exact hcurrent hid
    · by_contra hnot
      exact hlost ⟨id, hid, heq, hnot⟩

theorem Inv.adds_turnFailed (h : Inv ids es t s) (turnId threadId code message : String) :
    AddsTo es (.turnFailed turnId threadId code message) :=
  ⟨nofun, nofun, nofun, nofun, nofun, h.quiet⟩

/-! ## Events -/

/-- An emission fits, and the invariant holds after it. -/
def Keeps (ids : StreamIds) (es : List AgentStreamEvent) (t : Track) (p : Emission State) : Prop :=
  ∀ s', p.2 = .go s' → Inv ids (es ++ p.1) t s'

theorem Inv.onStart (h : Inv ids es t s) (hinj : Function.Injective ids.item) (parsed : Value) :
    FitsAfter AddsTo es (s.start ids parsed).1 ∧
    Keeps ids es { started := startsItem parsed, lost := t.lost || t.touched && !t.completed }
      (s.start ids parsed) := by
  obtain ⟨-, hcleared⟩ := h.start hinj
  unfold State.start startsItem
  cases s.blockOpen with
  | true => exact ⟨trivial, nofun⟩
  | false =>
    rw [if_neg (by simp)]
    cases parsed.get "content_block" with
    | none =>
      refine ⟨trivial, fun s' hs => ?_⟩
      cases hs
      simpa using hcleared
    | some block =>
      dsimp only
      cases hblock : announced (typeOf block) with
      | none =>
        refine ⟨trivial, fun s' hs => ?_⟩
        cases hs
        rw [Option.toList_none, List.map_nil, List.append_nil]
        exact hcleared.same rfl rfl rfl rfl rfl
      | some a =>
        obtain ⟨hadds, hstarted⟩ := hcleared.announce rfl rfl ids.turnId a.1 a.2
        refine ⟨⟨hadds, trivial⟩, fun s' hs => ?_⟩
        cases hs
        exact hstarted.same rfl rfl rfl rfl rfl

theorem Inv.onDelta (h : Inv ids es t s) {parsed : Value} (hevent : eventOf parsed = .blockDelta) :
    (t.TidyEvent s parsed ↔ FitsAfter AddsTo es (s.delta ids parsed).1) ∧
    Keeps ids es (t.event s parsed) (s.delta ids parsed) := by
  unfold Track.TidyEvent Track.event State.delta
  rw [hevent]
  dsimp only
  cases deltaOf parsed with
  | none =>
    refine ⟨iff_of_true trivial trivial, fun s' hs => ?_⟩
    cases hs
    simpa using h
  | some delta =>
    cases delta with
    | signature sig =>
      refine ⟨iff_of_true trivial ⟨⟨nofun, nofun, nofun, nofun, nofun, h.quiet⟩, trivial⟩, fun s' hs => ?_⟩
      cases hs
      exact (h.silent (e := .reasoningSignature ids.turnId s.itemId sig) rfl rfl rfl rfl).same
        rfl rfl rfl rfl rfl
    | text d =>
      have hadds := h.adds_delta (e := .textDelta ids.turnId s.itemId d) rfl
      simp only [AgentStreamEvent.prose, ne_eq, reduceCtorEq, not_false_eq_true, true_implies] at hadds
      refine ⟨by simp only [FitsAfter, and_true, hadds], fun s' hs => ?_⟩
      cases hs
      exact h.delta rfl rfl rfl (h.sums.append_text d)
    | thinking d =>
      have hadds := h.adds_delta (e := .reasoningDelta ids.turnId s.itemId d) rfl
      simp only [AgentStreamEvent.prose, ne_eq, reduceCtorEq, not_false_eq_true, true_implies] at hadds
      refine ⟨by simp only [FitsAfter, and_true, hadds], fun s' hs => ?_⟩
      cases hs
      exact h.delta rfl rfl rfl (h.sums.append_thinking d)
    | json d =>
      have hadds := h.adds_delta (e := .toolCallDelta ids.turnId s.itemId s.toolId d) rfl
      simp only [AgentStreamEvent.prose, ne_eq, not_true_eq_false, false_implies, true_and] at hadds
      refine ⟨by simp only [FitsAfter, and_true, hadds], fun s' hs => ?_⟩
      cases hs
      exact h.delta rfl rfl rfl (h.sums.append_json d)

section
variable [ToolJson]

/-- The item of the current block, and when its deltas add up to it. -/
theorem item_cases (h : Inv ids es t s) :
    (s.item = none ∧ announced s.blockType = none) ∨
    ∃ item, s.item = some item ∧ (announced s.blockType).isSome = true ∧ item.id = s.itemId ∧
      (item.streamed = deltaText s.itemId es ↔ s.foreign = "") ∧
      ((AgentStreamEvent.itemCompleted ids.turnId item).prose ≠ none ↔ s.blockType ≠ "tool_use") := by
  unfold State.item State.foreign announced
  split
  · rename_i hblock
    rw [hblock]
    refine .inr ⟨_, rfl, rfl, rfl, ?_, by simp [AgentStreamEvent.prose]⟩
    show _ ↔ _ ++ _ = ""
    rw [String.append_eq_empty_iff, ← h.sums.eq_text_iff]
    simp [CanonicalItem.streamed]
  · rename_i hblock
    rw [hblock]
    refine .inr ⟨_, rfl, rfl, rfl, ?_, by simp [AgentStreamEvent.prose]⟩
    show _ ↔ _ ++ _ = ""
    rw [String.append_eq_empty_iff, ← h.sums.eq_thinking_iff]
    rfl
  · rename_i hblock
    rw [hblock]
    refine .inr ⟨_, rfl, rfl, rfl, ?_, by simp [AgentStreamEvent.prose]⟩
    show _ ↔ _ ++ _ = ""
    rw [String.append_eq_empty_iff, ← h.sums.eq_json_iff]
    rfl
  · exact .inl ⟨rfl, rfl⟩

theorem Inv.onStop (h : Inv ids es t s) {parsed : Value} (hevent : eventOf parsed = .blockStop) :
    (t.TidyEvent s parsed ↔ FitsAfter AddsTo es (s.stop ids).1) ∧
    Keeps ids es (t.event s parsed) (s.stop ids) := by
  unfold Track.TidyEvent Track.event State.stop
  rw [hevent]
  dsimp only
  rcases item_cases h with ⟨hitem, hblock⟩ | ⟨item, hitem, hblock, hid, hstreamed, hprose⟩
  · rw [hitem, hblock]
    refine ⟨iff_of_true nofun trivial, fun s' hs => ?_⟩
    cases hs
    rw [Option.isSome_none, Bool.or_false, Option.toList_none, List.map_nil, List.append_nil]
    exact h.same rfl rfl rfl rfl rfl
  · obtain ⟨hadds, hdone⟩ := h.complete hid ids.turnId
    rw [hitem, hblock]
    refine ⟨?_, fun s' hs => ?_⟩
    · rw [imp_iff_right rfl, ← hstreamed, ← hprose, ← hadds]
      exact (and_iff_left trivial).symm
    · cases hs
      rw [Bool.or_true]
      exact hdone.same rfl rfl rfl rfl rfl

theorem Inv.onEvent (h : Inv ids es t s) (hinj : Function.Injective ids.item) (parsed : Value) :
    (t.TidyEvent s parsed ↔ FitsAfter AddsTo es (s.event ids parsed).1) ∧
    Keeps ids es (t.event s parsed) (s.event ids parsed) := by
  have hsame : Inv ids (es ++ []) t (s.messageUsage parsed) := by
    rw [List.append_nil]
    exact h.same rfl rfl rfl rfl rfl
  unfold State.event
  cases hevent : eventOf parsed with
  | blockStart =>
    obtain ⟨hfits, hkeeps⟩ := h.onStart hinj parsed
    unfold Track.TidyEvent Track.event
    rw [hevent]
    exact ⟨iff_of_true trivial hfits, hkeeps⟩
  | blockDelta => exact h.onDelta hevent
  | blockStop => exact h.onStop hevent
  | messageStart =>
    unfold Track.TidyEvent Track.event
    rw [hevent]
    refine ⟨iff_of_true trivial trivial, fun s' hs => ?_⟩
    cases hs
    rw [List.append_nil]
    exact h.same rfl rfl rfl rfl rfl
  | messageDelta =>
    unfold Track.TidyEvent Track.event State.messageDelta
    rw [hevent]
    dsimp only
    split
    · split
      · refine ⟨iff_of_true trivial trivial, fun s' hs => ?_⟩
        cases hs
        exact hsame
      · exact ⟨iff_of_true trivial ⟨h.adds_turnFailed .., trivial⟩, nofun⟩
    · refine ⟨iff_of_true trivial trivial, fun s' hs => ?_⟩
      cases hs
      exact hsame
  | messageStop =>
    unfold Track.TidyEvent Track.event State.messageStop
    rw [hevent]
    cases s.blockOpen with
    | true => exact ⟨iff_of_true nofun trivial, nofun⟩
    | false =>
      refine ⟨?_, nofun⟩
      dsimp only
      rw [imp_iff_right rfl, ← h.adds_turnCompleted ids.turnId ids.threadId s.usage]
      exact (and_iff_left trivial).symm
  | error =>
    unfold Track.TidyEvent Track.event
    rw [hevent]
    exact ⟨iff_of_true trivial ⟨h.adds_turnFailed .., trivial⟩, nofun⟩
  | other =>
    unfold Track.TidyEvent Track.event
    rw [hevent]
    refine ⟨iff_of_true trivial trivial, fun s' hs => ?_⟩
    cases hs
    rw [List.append_nil]
    exact h

theorem Inv.onInput (h : Inv ids es t s) (hinj : Function.Injective ids.item) (input : Sse) :
    (t.TidyInput s input ↔ FitsAfter AddsTo es (s.feed ids input).1) ∧
    Keeps ids es (t.next s input) (s.feed ids input) := by
  unfold Track.TidyInput Track.next State.feed
  cases readSse input with
  | error e => exact ⟨iff_of_true trivial trivial, nofun⟩
  | ok parsed =>
    cases parsed with
    | none =>
      refine ⟨iff_of_true trivial trivial, fun s' hs => ?_⟩
      cases hs
      rw [List.append_nil]
      exact h
    | some parsed => exact h.onEvent hinj parsed

/-- Every input that is read is taken rightly. -/
def Tidy (ids : StreamIds) (inputs : List Sse) : Prop :=
  (parser ids).Guarded Track.TidyInput Track.next {} { itemId := ids.item 0 } inputs

/-- The deltas of a message add up exactly when its blocks are tidy. -/
theorem deltasAddUp_iff_tidy (hinj : Function.Injective ids.item) (inputs : List Sse) :
    DeltasAddUp (parseStream ids inputs).1 ↔ Tidy ids inputs := by
  have hstart : Inv ids [.turnStarted ids.turnId ids.threadId] {} { itemId := ids.item 0 } := by
    refine ⟨?_, ?_, ⟨0, Nat.one_pos, rfl⟩, ?_, ?_, ?_, ?_, .empty⟩ <;>
      simp [startedIds, completedIds, deltaIds, AgentStreamEvent.started, AgentStreamEvent.completed,
        AgentStreamEvent.delta, AgentStreamEvent.isTerminal]
  unfold parseStream
  rw [deltasAddUp_cons]
  refine StreamParser.fits_iff_guarded (Inv ids) (fun es t s i h => (h.onInput hinj i).1)
    (fun es t s i out s' h _ hf => ?_) (fun es _ _ _ => show FitsAfter AddsTo es [] from trivial) hstart inputs
  have hkeeps := (h.onInput hinj i).2
  have hfeed : s.feed ids i = (out, .go s') := hf
  rw [hfeed] at hkeeps
  exact hkeeps s' rfl

end

end Whale.Anthropic
