import Whale.Adapters.Chat
import Whale.Adapters.Proof.AddsUp

/-!
# The deltas of a chat completion

The parser has at most one reasoning item, one message and the indexed tool calls open; `Inv` ties them to
the events emitted. The buffer of the reasoning is not emptied when its item is completed, so reasoning
that comes back after text (`State.Resumes`) is the one thing that breaks the promise of the stream.
-/

namespace Whale.Chat

open Streaming

variable {ids : StreamIds} {es : List AgentStreamEvent} {s : State}

/-- The items that are open, with their fragments. -/
def State.opened (s : State) : List (String × String) :=
  s.reasoningId.toList.map (·, s.reasoningBuf) ++ (s.textId.toList.map (·, s.textBuf) ++
    s.tools.values.map fun f => (f.itemId, f.arguments))

/-- The open items and the events. -/
structure Inv (ids : StreamIds) (es : List AgentStreamEvent) (s : State) : Prop where
  tally : Tally ids s.drawn s.opened es
  reasoning : ∀ id, s.reasoningId = some id → id ∈ startedIds es ∧ s.reasoningBuf ≠ ""
  text : ∀ id, s.textId = some id → id ∈ startedIds es ∧ s.textBuf ≠ ""
  silent : s.textId = none → s.finished = false → s.textBuf = ""
  finished : s.finished = true → s.opened = []

/-- Events that fit, and the state after them. -/
def Keeps (ids : StreamIds) (es : List AgentStreamEvent) (p : List AgentStreamEvent × State) : Prop :=
  FitsAfter AddsTo es p.1 ∧ Inv ids (es ++ p.1) p.2 ∧ p.2.finished = false

theorem Keeps.trans {p : List AgentStreamEvent × State} {q : List AgentStreamEvent × State}
    (hp : Keeps ids es p) (hq : Keeps ids (es ++ p.1) q) : Keeps ids es (p.1 ++ q.1, q.2) :=
  ⟨fitsAfter_append.mpr ⟨hp.1, hq.1⟩, by simpa only [List.append_assoc] using hq.2.1, hq.2.2⟩

theorem mem_startedIds_snoc {id : String} {e : AgentStreamEvent} (h : id ∈ startedIds es) :
    id ∈ startedIds (es ++ [e]) := by
  rw [startedIds_append]
  exact List.mem_append_left _ h

theorem started_snoc (turnId id itemType : String) (phase : Option MessagePhase) :
    id ∈ startedIds (es ++ [.itemStarted turnId id itemType phase]) := by
  rw [startedIds_append]
  exact List.mem_append_right _ List.mem_cons_self

/-! ## Fragments -/

theorem Inv.closeReasoning (h : Inv ids es s) (hopen : s.finished = false) :
    Keeps ids es (s.closeReasoning ids) ∧ (s.closeReasoning ids).2.reasoningId = none := by
  unfold State.closeReasoning
  cases hr : s.reasoningId with
  | none => exact ⟨⟨trivial, by simpa using h, hopen⟩, hr⟩
  | some id =>
    have ht := h.tally
    unfold State.opened at ht
    rw [hr] at ht
    have hitem : (CanonicalItem.reasoning id s.reasoningBuf none none).id = id := rfl
    obtain ⟨hadds, ht⟩ := ht.complete hitem rfl ids.turnId fun _ => (h.reasoning id hr).1
    refine ⟨⟨⟨hadds, trivial⟩, ⟨ht, nofun, fun id hid => ?_, h.silent, fun hf => ?_⟩, hopen⟩, rfl⟩
    · exact ⟨mem_startedIds_snoc (h.text id hid).1, (h.text id hid).2⟩
    · rw [hopen] at hf
      cases hf

/-- Reasoning goes on, or begins. -/
theorem Inv.reason (h : Inv ids es s) (hinj : Function.Injective ids.item) (hopen : s.finished = false)
    {r : String} (hfresh : r ≠ "" → s.reasoningId = none → s.reasoningBuf = "") :
    Keeps ids es (s.reason ids r) := by
  unfold State.reason
  by_cases hr : r = ""
  · rw [if_pos hr]
    exact ⟨trivial, by simpa using h, hopen⟩
  rw [if_neg hr]
  have hne : ∀ buf : String, buf ++ r ≠ "" := fun buf heq => hr (String.append_eq_empty_iff.mp heq).2
  have ht := h.tally
  cases hid : s.reasoningId with
  | some id =>
    unfold State.opened at ht
    rw [hid] at ht
    obtain ⟨hstarted, hbuf⟩ := h.reasoning id hid
    obtain ⟨hadds, ht⟩ := ht.delta (e := .reasoningDelta ids.turnId id r) rfl fun _ => hstarted
    simp only [Option.getD_some, Option.isSome_some, if_true, if_neg hbuf, List.nil_append]
    refine ⟨⟨hadds, trivial⟩, ⟨ht, fun id' h' => ?_, fun id' h' => ?_, h.silent, fun hf => ?_⟩, hopen⟩
    · cases h'
      exact ⟨mem_startedIds_snoc hstarted, hne _⟩
    · exact ⟨mem_startedIds_snoc (h.text id' h').1, (h.text id' h').2⟩
    · exact absurd (hopen.symm.trans hf) nofun
  | none =>
    have hbuf := hfresh hr hid
    have hopened : s.opened = s.textId.toList.map (·, s.textBuf) ++
        s.tools.values.map fun f => (f.itemId, f.arguments) := by
      unfold State.opened
      rw [hid]
      rfl
    rw [hopened] at ht
    obtain ⟨hstart, ht⟩ := (ht.draw hinj).start (by simp) (h.tally.fresh hinj).1 (h.tally.fresh hinj).2.2.1
      ids.turnId "reasoning" (some .commentary)
    obtain ⟨hadds, ht⟩ := ht.delta (e := .reasoningDelta ids.turnId (ids.item s.drawn) r) rfl
      fun _ => started_snoc ..
    simp only [Option.getD_none, Option.isSome_none, Bool.false_eq_true, if_false, if_pos hbuf]
    refine ⟨⟨hstart, hadds, trivial⟩, ⟨?_, fun id' h' => ?_, fun id' h' => ?_, h.silent, fun hf => ?_⟩, hopen⟩
    · rw [List.append_assoc, ← hbuf] at ht
      exact ht
    · cases h'
      refine ⟨?_, hne _⟩
      rw [startedIds_append]
      exact List.mem_append_right _ List.mem_cons_self
    · rw [startedIds_append]
      exact ⟨List.mem_append_left _ (h.text id' h').1, (h.text id' h').2⟩
    · exact absurd (hopen.symm.trans hf) nofun

/-- Text goes on, or begins. -/
theorem Inv.speak (h : Inv ids es s) (hinj : Function.Injective ids.item) (hopen : s.finished = false)
    (hr : s.reasoningId = none) {content : String} (hc : content ≠ "") :
    Keeps ids es (s.speak ids content) := by
  have hne : ∀ buf : String, buf ++ content ≠ "" :=
    fun buf heq => hc (String.append_eq_empty_iff.mp heq).2
  have ht := h.tally
  unfold State.opened at ht
  rw [hr] at ht
  unfold State.speak
  cases hid : s.textId with
  | some id =>
    rw [hid] at ht
    obtain ⟨hstarted, hbuf⟩ := h.text id hid
    obtain ⟨hadds, ht⟩ := ht.delta (e := .textDelta ids.turnId id content) rfl fun _ => hstarted
    simp only [Option.getD_some, Option.isSome_some, if_true, if_neg hbuf, List.nil_append]
    refine ⟨⟨hadds, trivial⟩, ⟨?_, fun id' h' => ?_, fun id' h' => ?_, nofun,
      fun hf => absurd (hopen.symm.trans hf) nofun⟩, hopen⟩
    · unfold State.opened
      rw [hr]
      exact ht
    · exact absurd (hr.symm.trans h') nofun
    · cases h'
      exact ⟨mem_startedIds_snoc hstarted, hne _⟩
  | none =>
    have hbuf := h.silent hid hopen
    rw [hid] at ht
    obtain ⟨hstart, ht⟩ := (ht.draw hinj).start (by simp) (h.tally.fresh hinj).1 (h.tally.fresh hinj).2.2.1
      ids.turnId "assistant_message" (some .finalAnswer)
    obtain ⟨hadds, ht⟩ := ht.delta (e := .textDelta ids.turnId (ids.item s.drawn) content) rfl
      fun _ => started_snoc ..
    simp only [Option.getD_none, Option.isSome_none, Bool.false_eq_true, if_false, if_pos hbuf]
    refine ⟨⟨hstart, hadds, trivial⟩, ⟨?_, fun id' h' => ?_, fun id' h' => ?_, nofun,
      fun hf => absurd (hopen.symm.trans hf) nofun⟩, hopen⟩
    · unfold State.opened
      rw [hr, hbuf]
      rw [List.append_assoc] at ht
      exact ht
    · exact absurd (hr.symm.trans h') nofun
    · cases h'
      refine ⟨?_, hne _⟩
      rw [← List.append_assoc]
      exact mem_startedIds_snoc (started_snoc ..)

theorem Inv.say (h : Inv ids es s) (hinj : Function.Injective ids.item) (hopen : s.finished = false)
    (content : String) : Keeps ids es (s.say ids content) := by
  unfold State.say
  by_cases hc : content = ""
  · rw [if_pos hc]
    exact ⟨trivial, by simpa using h, hopen⟩
  · rw [if_neg hc]
    obtain ⟨hclose, hr⟩ := h.closeReasoning hopen
    exact hclose.trans (hclose.2.1.speak hinj hclose.2.2 hr hc)

/-! ## Tool calls -/

/-- The tool call of an index is open, or is opened, and everything else stays. -/
theorem Inv.entry (h : Inv ids es s) (hinj : Function.Injective ids.item) (index : Nat) :
    ∃ rest, Tally ids (if (s.tools.get? index).isSome then s.drawn else s.drawn + 1)
        ((((s.tools.get? index).getD { itemId := ids.item s.drawn }).itemId,
          ((s.tools.get? index).getD { itemId := ids.item s.drawn }).arguments) :: rest) es ∧
      ∀ (f : ToolFragment) (drawn : Nat), ((f.itemId, f.arguments) :: rest).Perm
        ({ s with drawn, tools := s.tools.insert index f } : State).opened := by
  have hopened : ∀ (drawn : Nat) (tools : OrdMap Nat ToolFragment),
      ({ s with drawn, tools } : State).opened =
        (s.reasoningId.toList.map (·, s.reasoningBuf) ++ s.textId.toList.map (·, s.textBuf)) ++
          tools.entries.map fun e => (e.2.itemId, e.2.arguments) := by
    intro drawn tools
    unfold State.opened OrdMap.values
    rw [List.map_map, List.append_assoc]
    rfl
  have hself : s.opened = _ := hopened s.drawn s.tools
  cases hg : s.tools.get? index with
  | none =>
    obtain ⟨a, b, h1, -, -, h2⟩ := OrdMap.split_of_none hg
    refine ⟨s.opened, h.tally.draw hinj, fun f drawn => ?_⟩
    rw [hopened drawn (s.tools.insert index f), h2, hself, h1]
    simp only [List.map_append, List.map_cons, ← List.append_assoc]
    exact List.perm_middle.symm
  | some g =>
    obtain ⟨a, b, h1, -, -, h2⟩ := OrdMap.split_of_get? hg
    have hperm : s.opened.Perm ((g.itemId, g.arguments) ::
        ((s.reasoningId.toList.map (·, s.reasoningBuf) ++ s.textId.toList.map (·, s.textBuf)) ++
          (a.map fun e => (e.2.itemId, e.2.arguments)) ++
            b.map fun e => (e.2.itemId, e.2.arguments))) := by
      rw [hself, h1]
      simp only [List.map_append, List.map_cons, ← List.append_assoc]
      exact List.perm_middle
    refine ⟨_, h.tally.perm hperm, fun f drawn => ?_⟩
    rw [hopened drawn (s.tools.insert index f), h2]
    simp only [List.map_append, List.map_cons, ← List.append_assoc]
    exact List.perm_middle.symm

theorem Inv.call (h : Inv ids es s) (hinj : Function.Injective ids.item) (hopen : s.finished = false)
    (tc : Value) : Keeps ids es (s.call ids tc) := by
  obtain ⟨rest, ht, hperm⟩ := h.entry hinj ((tc.u64At "index").getD 0)
  -- nothing but the tool calls changes
  have hinv : ∀ {out : List AgentStreamEvent} {drawn : Nat} {f : ToolFragment},
      (∀ id, id ∈ startedIds es → id ∈ startedIds (es ++ out)) →
      Tally ids drawn ((f.itemId, f.arguments) :: rest) (es ++ out) →
      Inv ids (es ++ out)
        { s with drawn, tools := s.tools.insert ((tc.u64At "index").getD 0) f } := by
    intro out drawn f hstarted ht
    exact ⟨ht.perm (hperm f drawn), fun id hid => ⟨hstarted id (h.reasoning id hid).1, (h.reasoning id hid).2⟩,
      fun id hid => ⟨hstarted id (h.text id hid).1, (h.text id hid).2⟩, h.silent,
      fun hf => absurd (hopen.symm.trans hf) nofun⟩
  have hquiet : ∀ {drawn : Nat} {f : ToolFragment}, Tally ids drawn ((f.itemId, f.arguments) :: rest) es →
      Keeps ids es
        ([], { s with drawn, tools := s.tools.insert ((tc.u64At "index").getD 0) f }) :=
    fun ht => ⟨trivial, hinv (by simp) (by simpa using ht), hopen⟩
  unfold State.call
  dsimp only
  cases tc.get "function" with
  | none => exact hquiet ht
  | some func =>
    dsimp only
    by_cases hchunk : (func.strAt "arguments").getD "" = ""
    · rw [if_pos hchunk]
      exact hquiet ht
    · rw [if_neg hchunk]
      obtain ⟨hadds, ht⟩ := ht.delta (e := .toolCallDelta ids.turnId _ _ _) rfl (absurd rfl ·)
      exact ⟨⟨hadds, trivial⟩, hinv (fun id hid => mem_startedIds_snoc hid) ht, hopen⟩

theorem Inv.calls (hinj : Function.Injective ids.item) : ∀ {tcs : List Value} {es : List AgentStreamEvent}
    {s : State}, Inv ids es s → s.finished = false → Keeps ids es (s.calls ids tcs)
  | [], es, s, h, hopen => ⟨trivial, by simpa [State.calls] using h, hopen⟩
  | tc :: tcs, es, s, h, hopen => by
    have hcall := h.call hinj hopen tc
    exact hcall.trans (Inv.calls hinj hcall.2.1 hcall.2.2)

/-- The delta of a choice keeps the promise unless reasoning comes back. -/
theorem Inv.delta (h : Inv ids es s) (hinj : Function.Injective ids.item) (hopen : s.finished = false)
    {d : Value} (hfresh : (d.strAt "reasoning_content").getD "" ≠ "" → s.reasoningId = none →
      s.reasoningBuf = "") : Keeps ids es (s.delta ids d) := by
  have hreason := h.reason hinj hopen hfresh
  have hsay := hreason.2.1.say hinj hreason.2.2 ((d.strAt "content").getD "")
  exact (hreason.trans hsay).trans
    (Inv.calls hinj (hreason.trans hsay).2.1 (hreason.trans hsay).2.2)

/-- Reasoning that comes back is streamed for an item that was not started. -/
theorem not_fits_of_resumed (h : Inv ids es s) (hinj : Function.Injective ids.item) {d : Value}
    (hr : (d.strAt "reasoning_content").getD "" ≠ "") (hid : s.reasoningId = none)
    (hbuf : s.reasoningBuf ≠ "") (out : List AgentStreamEvent) :
    ¬ FitsAfter AddsTo es ((s.delta ids d).1 ++ out) := by
  have hout : ∃ rest, (s.delta ids d).1 ++ out =
      .reasoningDelta ids.turnId (ids.item s.drawn) ((d.strAt "reasoning_content").getD "") :: rest := by
    simp only [State.delta, State.reason, if_neg hr, if_neg hbuf, hid]
    exact ⟨_, rfl⟩
  obtain ⟨rest, heq⟩ := hout
  rw [heq]
  rintro ⟨hadds, -⟩
  refine (h.tally.fresh hinj).1 (hadds.prose _ rfl ?_)
  rw [deltaIds_append]
  exact List.mem_append_right _ List.mem_cons_self

/-! ## Chunks -/

section
variable [ToolJson]

/-- A finish reason completes the items that are open. -/
theorem complete_items (s : State) : ∃ items : List CanonicalItem,
    (s.complete ids).1 = items.map (.itemCompleted ids.turnId) ∧
    items.map (fun i => (i.id, i.streamed)) = s.opened ∧
    ∀ i ∈ items, (AgentStreamEvent.itemCompleted ids.turnId i).prose ≠ none →
      s.reasoningId = some i.id ∨ s.textId = some i.id := by
  refine ⟨s.reasoningId.toList.map (.reasoning · s.reasoningBuf none none) ++
    (s.textId.toList.map (.assistantMessage · [.text s.textBuf] .finalAnswer) ++
      s.tools.values.map (·.item)), ?_, ?_, ?_⟩
  · unfold State.complete State.closeReasoning
    cases s.reasoningId <;> cases s.textId <;> simp
  · unfold State.opened
    simp only [List.map_append, List.map_map]
    refine congrArg₂ (· ++ ·) (List.map_congr_left fun id _ => rfl)
      (congrArg₂ (· ++ ·) (List.map_congr_left fun id _ => ?_) (List.map_congr_left fun f _ => rfl))
    simp [CanonicalItem.id, CanonicalItem.streamed, String.join]
  · intro i hi hp
    rw [List.mem_append, List.mem_append, List.mem_map, List.mem_map, List.mem_map] at hi
    rcases hi with ⟨id, hid, rfl⟩ | ⟨id, hid, rfl⟩ | ⟨f, -, rfl⟩
    · exact .inl (Option.mem_toList.mp hid)
    · exact .inr (Option.mem_toList.mp hid)
    · exact absurd rfl hp

theorem complete_state (s : State) : (s.complete ids).2 =
    { s with finished := true, reasoningId := none, textId := none, tools := .empty } := by
  unfold State.complete State.closeReasoning
  cases hr : s.reasoningId with
  | none => rfl
  | some id => rfl

theorem Inv.complete (h : Inv ids es s) :
    FitsAfter AddsTo es (s.complete ids).1 ∧ Inv ids (es ++ (s.complete ids).1) (s.complete ids).2 := by
  obtain ⟨items, hout, hopened, hprose⟩ := @complete_items ids _ s
  have ht := h.tally
  rw [← hopened, ← List.append_nil (items.map _)] at ht
  obtain ⟨hfits, ht⟩ := ht.completeAll ids.turnId fun i hi hp =>
    (hprose i hi hp).elim (fun hid => (h.reasoning _ hid).1) fun hid => (h.text _ hid).1
  rw [hout, complete_state]
  exact ⟨hfits, ⟨ht, nofun, nofun, nofun, fun _ => rfl⟩⟩

/-- What the parser reads of an input: its JSON. -/
def chunkOf : Sse → Option Value
  | .error _ => none
  | .ok data =>
    if trim data = "" ∨ trim data = "[DONE]" then none else (decodeSse (trim data)).toOption

/-- Reasoning comes back after the text that ended it. -/
def State.Resumes (s : State) (input : Sse) : Prop :=
  ∃ chunk choice d, chunkOf input = some chunk ∧ chunk.get "error" = none ∧
    choiceOf chunk = some choice ∧ s.finished = false ∧ choice.get "delta" = some d ∧
    (d.strAt "reasoning_content").getD "" ≠ "" ∧ s.reasoningId = none ∧ s.reasoningBuf ≠ ""

omit [ToolJson] in
theorem adds_terminal (h : Inv ids es s) {e : AgentStreamEvent} (hs : e.started = none)
    (hc : e.completed = none) (hd : e.delta = none) (hp : e.prose = none)
    (hturn : e.isTurnCompleted = true → s.finished = true) : AddsTo es e := by
  refine ⟨by simp [hs], by simp [hc], by simp [hp], by simp [hd], fun ht id hid => ?_, h.tally.quiet⟩
  have := h.tally.settled id hid
  rw [h.finished (hturn ht)] at this
  exact this.resolve_right List.not_mem_nil

/-- A finish reason after fragments that fit. -/
theorem Keeps.conclude {p : List AgentStreamEvent × State} (hp : Keeps ids es p) (reason : Option String) :
    FitsAfter AddsTo es (State.conclude ids p reason).1 ∧
    ∀ s', (State.conclude ids p reason).2 = .go s' →
      Inv ids (es ++ (State.conclude ids p reason).1) s' := by
  unfold State.conclude
  cases reason with
  | none =>
    refine ⟨hp.1, fun s' hs => ?_⟩
    cases hs
    exact hp.2.1
  | some reason =>
    dsimp only
    split
    · obtain ⟨hfits, hinv⟩ := hp.2.1.complete
      refine ⟨fitsAfter_append.mpr ⟨hp.1, hfits⟩, fun s' hs => ?_⟩
      cases hs
      rwa [← List.append_assoc]
    · refine ⟨fitsAfter_append.mpr ⟨hp.1, adds_terminal hp.2.1 rfl rfl rfl rfl nofun, trivial⟩, ?_⟩
      nofun

/-- The reasoning of a choice comes back. -/
def State.ResumesIn (s : State) (choice : Value) : Prop :=
  s.finished = false ∧ ∃ d, choice.get "delta" = some d ∧
    (d.strAt "reasoning_content").getD "" ≠ "" ∧ s.reasoningId = none ∧ s.reasoningBuf ≠ ""

theorem Inv.choose (h : Inv ids es s) (hinj : Function.Injective ids.item) (choice : Value) :
    (¬ s.ResumesIn choice → FitsAfter AddsTo es (s.choose ids choice).1 ∧
      ∀ s', (s.choose ids choice).2 = .go s' → Inv ids (es ++ (s.choose ids choice).1) s') ∧
    (s.ResumesIn choice → ¬ FitsAfter AddsTo es (s.choose ids choice).1) := by
  unfold State.choose State.ResumesIn
  cases hopen : s.finished with
  | true => exact ⟨fun _ => ⟨trivial, nofun⟩, nofun⟩
  | false =>
    rw [if_neg (by simp)]
    refine ⟨fun hnot => ?_, ?_⟩
    · refine Keeps.conclude ?_ _
      unfold State.fragments
      cases hd : choice.get "delta" with
      | none => exact ⟨trivial, by simpa using h, hopen⟩
      | some d =>
        refine h.delta hinj hopen fun hr hid => ?_
        by_contra hbuf
        exact hnot ⟨rfl, d, hd, hr, hid, hbuf⟩
    · rintro ⟨-, d, hd, hr, hid, hbuf⟩
      have hnot := not_fits_of_resumed h hinj hr hid hbuf
      unfold State.fragments State.conclude
      rw [hd]
      split
      · simpa using hnot []
      · split
        · exact hnot _
        · exact hnot _

omit [ToolJson] in
/-- The usage of a chunk changes nothing else. -/
theorem Inv.metered (h : Inv ids es s) (chunk : Value) : Inv ids es (s.metered chunk) :=
  ⟨h.tally, h.reasoning, h.text, h.silent, h.finished⟩

theorem Inv.chunk (h : Inv ids es s) (hinj : Function.Injective ids.item) (chunk : Value) :
    (¬ (chunk.get "error" = none ∧ ∃ choice, choiceOf chunk = some choice ∧ s.ResumesIn choice) →
      FitsAfter AddsTo es (s.chunk ids chunk).1 ∧
      ∀ s', (s.chunk ids chunk).2 = .go s' → Inv ids (es ++ (s.chunk ids chunk).1) s') ∧
    ((chunk.get "error" = none ∧ ∃ choice, choiceOf chunk = some choice ∧ s.ResumesIn choice) →
      ¬ FitsAfter AddsTo es (s.chunk ids chunk).1) := by
  unfold State.chunk
  cases herr : chunk.get "error" with
  | some err => exact ⟨fun _ => ⟨⟨adds_terminal h rfl rfl rfl rfl nofun, trivial⟩, nofun⟩, nofun⟩
  | none =>
    simp only [true_and]
    cases hc : choiceOf chunk with
    | none =>
      refine ⟨fun _ => ⟨trivial, fun s' hs => ?_⟩, by rintro ⟨choice, hchoice, -⟩; cases hchoice⟩
      cases hs
      simpa using h.metered chunk
    | some choice =>
      obtain ⟨hgood, hbad⟩ := (h.metered chunk).choose hinj choice
      refine ⟨fun hnot => hgood fun hres => hnot ⟨choice, rfl, hres⟩, ?_⟩
      rintro ⟨choice', hchoice, hres⟩
      cases hchoice
      exact hbad hres

theorem resumes_iff {chunk : Value} {input : Sse} (hchunk : chunkOf input = some chunk) :
    s.Resumes input ↔ chunk.get "error" = none ∧ ∃ choice, choiceOf chunk = some choice ∧
      s.ResumesIn choice := by
  constructor
  · rintro ⟨chunk', choice, d, hc, herr, hchoice, hopen, hd, hr, hid, hbuf⟩
    rw [hchunk] at hc
    cases hc
    exact ⟨herr, choice, hchoice, hopen, d, hd, hr, hid, hbuf⟩
  · rintro ⟨herr, choice, hchoice, hopen, d, hd, hr, hid, hbuf⟩
    exact ⟨chunk, choice, d, hchunk, herr, hchoice, hopen, hd, hr, hid, hbuf⟩

omit [ToolJson] in
theorem Inv.finish (h : Inv ids es s) : FitsAfter AddsTo es (s.finish ids).1 := by
  unfold State.finish
  cases hf : s.finished with
  | true => exact ⟨adds_terminal h rfl rfl rfl rfl fun _ => hf, trivial⟩
  | false => trivial

/-- What an input is to the parser. -/
theorem feed_cases (s : State) (input : Sse) :
    (∃ chunk, chunkOf input = some chunk ∧ s.feed ids input = s.chunk ids chunk) ∨
    chunkOf input = none ∧
      ((∃ data, input = .ok data ∧ trim data = "" ∧ s.feed ids input = ([], .go s)) ∨
        (∃ data, input = .ok data ∧ trim data = "[DONE]" ∧ s.feed ids input = s.done ids) ∨
          ∃ e, s.feed ids input = ([], .fail e)) := by
  unfold chunkOf State.feed
  cases input with
  | error e => exact .inr ⟨rfl, .inr (.inr ⟨_, rfl⟩)⟩
  | ok data =>
    dsimp only
    by_cases hblank : trim data = ""
    · rw [if_pos (.inl hblank), if_pos hblank]
      exact .inr ⟨rfl, .inl ⟨data, rfl, hblank, rfl⟩⟩
    · rw [if_neg hblank]
      by_cases hdone : trim data = "[DONE]"
      · rw [if_pos (.inr hdone), if_pos hdone]
        exact .inr ⟨rfl, .inr (.inl ⟨data, rfl, hdone, rfl⟩)⟩
      · rw [if_neg (not_or.mpr ⟨hblank, hdone⟩), if_neg hdone]
        cases decodeSse (trim data) with
        | error e => exact .inr ⟨rfl, .inr (.inr ⟨e, rfl⟩)⟩
        | ok chunk => exact .inl ⟨chunk, rfl, rfl⟩

theorem Inv.feed (h : Inv ids es s) (hinj : Function.Injective ids.item) (input : Sse) :
    (¬ s.Resumes input → FitsAfter AddsTo es (s.feed ids input).1 ∧
      ∀ s', (s.feed ids input).2 = .go s' → Inv ids (es ++ (s.feed ids input).1) s') ∧
    (s.Resumes input → ¬ FitsAfter AddsTo es (s.feed ids input).1) := by
  rcases @feed_cases ids _ s input with ⟨chunk, hchunk, hfeed⟩ | ⟨hchunk, hfeed⟩
  · rw [resumes_iff hchunk, hfeed]
    exact h.chunk hinj chunk
  · have hnot : ¬ s.Resumes input := by
      rintro ⟨chunk, choice, d, hc, -⟩
      rw [hchunk] at hc
      cases hc
    refine ⟨fun _ => ?_, fun hres => absurd hres hnot⟩
    rcases hfeed with ⟨data, -, -, hfeed⟩ | ⟨data, -, -, hfeed⟩ | ⟨e, hfeed⟩
    · rw [hfeed]
      refine ⟨trivial, fun s' hs => ?_⟩
      cases hs
      simpa using h
    · have hfinish := h.finish
      rw [hfeed]
      unfold State.done
      cases hf : s.finish ids with
      | mk out e =>
        rw [hf] at hfinish
        cases e with
        | none => exact ⟨hfinish, nofun⟩
        | some e => exact ⟨hfinish, nofun⟩
    · rw [hfeed]
      exact ⟨trivial, nofun⟩

/-- No reasoning comes back while the parser reads. -/
def Continuous (ids : StreamIds) (inputs : List Sse) : Prop :=
  (parser ids).Guarded (fun (_ : Unit) s input => ¬ s.Resumes input) (fun _ _ _ => ()) () {} inputs

/-- The deltas of a chat completion add up exactly when no reasoning comes back. -/
theorem deltasAddUp_iff_continuous (hinj : Function.Injective ids.item) (inputs : List Sse) :
    DeltasAddUp (parseStream ids inputs).1 ↔ Continuous ids inputs := by
  have hstart : Inv ids [.turnStarted ids.turnId ids.threadId] ({} : State) := by
    refine ⟨⟨?_, ?_, .nil, nofun, ?_⟩, nofun, nofun, fun _ _ => rfl, nofun⟩
    · simp [AgentStreamEvent.isTerminal]
    · simp [startedIds, completedIds, deltaIds, AgentStreamEvent.started, AgentStreamEvent.completed,
        AgentStreamEvent.delta, State.opened]
    · simp [deltaIds, AgentStreamEvent.delta]
  unfold parseStream
  rw [deltasAddUp_cons]
  refine StreamParser.fits_iff_guarded (fun es _ s => Inv ids es s) (fun es _ s i h => ?_)
    (fun es _ s i out s' h hq hf => ?_) (fun es _ s h => h.finish) hstart inputs
  · obtain ⟨hgood, hbad⟩ := h.feed hinj i
    exact ⟨fun hq => (hgood hq).1, fun hfits hres => hbad hres hfits⟩
  · have hfeed : s.feed ids i = (out, .go s') := hf
    have hinv := ((h.feed hinj i).1 hq).2
    rw [hfeed] at hinv
    exact hinv s' rfl

end

end Whale.Chat
