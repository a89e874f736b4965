import Whale.Store.Proof.Effect

/-!
# Runs partition the history

The runs of a record, in the order in which they were accepted, tile its history: each run's items
start where the items of the runs before it end (`Ledger.Tiled`). Only the last accepted run can be
active, so what a step appends belongs to the last tile. `runs_partition_history` states this of
every record that journal commands, attachments and recoveries reach from a created one.
-/

namespace Whale

open Check

namespace Ledger

/-- The items of a run. -/
def itemsOf (l : Ledger) (turn : String) : List CanonicalItem :=
  match l.runs.get? turn with
  | some run => run.snapshot.items
  | none => []

theorem itemsOf_eq {l : Ledger} {turn : String} {run : StoredRun}
    (h : l.runs.get? turn = some run) : l.itemsOf turn = run.snapshot.items := by
  simp [itemsOf, h]

theorem flatMap_itemsOf_congr {l l' : Ledger} {turns : List String}
    (h : ∀ t ∈ turns, l'.runs.get? t = l.runs.get? t) :
    turns.flatMap l'.itemsOf = turns.flatMap l.itemsOf := by
  refine List.flatMap_congr fun t ht => ?_
  simp only [itemsOf, h t ht]

/-- The runs accepted in the order `order` tile the history. -/
structure Tiled (order : List String) (l : Ledger) : Prop where
  distinct : order.Nodup
  stored : ∀ turn, turn ∈ order ↔ (l.runs.get? turn).isSome
  history : l.history = order.flatMap l.itemsOf
  start : ∀ pre turn post run, order = pre ++ turn :: post → l.runs.get? turn = some run →
    run.historyStart = (pre.flatMap l.itemsOf).length
  active : ∀ turn run, l.runs.get? turn = some run → run.snapshot.status.isTerminal = false →
    ∃ pre, order = pre ++ [turn]

theorem Tiled.init : Tiled [] ⟨[], .empty, []⟩ where
  distinct := .nil
  stored := by simp
  history := rfl
  start := by simp
  active := by simp

/-- Replacing the active run by one with its start, whose items reach to the end of a longer history,
keeps the tiling. -/
theorem Tiled.extend {order : List String} {l : Ledger} {turn : String} {run run' : StoredRun}
    {history : List CanonicalItem} {unknown : List UnknownExecution} (h : Tiled order l)
    (found : l.runs.get? turn = some run) (active : run.snapshot.status.isTerminal = false)
    (hpre : l.history <+: history) (hstart : run'.historyStart = run.historyStart)
    (hitems : run'.snapshot.items = history.drop run.historyStart) :
    Tiled order ⟨history, l.runs.insert turn run', unknown⟩ := by
  obtain ⟨pre, rfl⟩ := h.active turn run found active
  have hself : (l.runs.insert turn run').get? turn = some run' := OrdMap.get?_insert_self _ _ _
  have hother : ∀ t, turn ≠ t → (l.runs.insert turn run').get? t = l.runs.get? t :=
    fun t ht => OrdMap.get?_insert_ne _ _ ht
  have hnot : turn ∉ pre := by
    have := h.distinct
    rw [List.nodup_append_comm, List.singleton_append, List.nodup_cons] at this
    exact this.1
  have hprefix : pre.flatMap (itemsOf ⟨history, l.runs.insert turn run', unknown⟩) =
      pre.flatMap l.itemsOf :=
    flatMap_itemsOf_congr fun t ht => hother t fun he => hnot (he ▸ ht)
  refine
    { distinct := h.distinct
      stored := fun t => ?_
      history := ?_
      start := fun p t q run₁ he hr => ?_
      active := fun t run₁ hr hact => ?_ }
  · rw [h.stored t]
    by_cases he : turn = t
    · subst he; simp [hself, found]
    · rw [hother t he]
  · -- the last tile is the rest of the history
    obtain ⟨ext, rfl⟩ := hpre
    have hlen := h.start pre turn [] run rfl found
    rw [List.flatMap_append, hprefix, List.flatMap_singleton, itemsOf_eq hself, hitems, hlen,
      h.history, List.flatMap_append, List.append_assoc, List.drop_left]
  · rcases List.eq_nil_or_concat q with rfl | ⟨q', x, rfl⟩
    · obtain ⟨rfl, hx⟩ := List.append_inj' he rfl
      obtain rfl : turn = t := by simpa using hx
      rw [hself] at hr
      cases hr
      rw [hstart, hprefix]
      exact h.start pre turn [] run rfl found
    · -- an earlier tile
      have he' : pre ++ [turn] = (p ++ t :: q') ++ [x] := by rw [he]; simp
      obtain ⟨rfl, -⟩ := List.append_inj' he' rfl
      have hne : turn ≠ t := fun h => hnot (by simp [h])
      rw [flatMap_itemsOf_congr (l := l) fun s hs => hother s fun h => hnot (by simp [h, hs])]
      exact h.start p t (q' ++ [turn]) run₁ (by simp) ((hother t hne).symm.trans hr)
  · by_cases hne : turn = t
    · exact ⟨pre, hne ▸ rfl⟩
    · exact h.active t run₁ ((hother t hne).symm.trans hr) hact

theorem Settle.tiled {order : List String} {l l' : Ledger} {turn : String} (h : Settle l turn l')
    (ht : Tiled order l) : Tiled order l' := by
  cases h with
  | mk found active thread same terminal fits =>
    exact ht.extend found active (List.prefix_append _ _) rfl rfl

theorem accept_tiled {order : List String} {l : Ledger} {turn : String} {run : StoredRun}
    {items : List CanonicalItem} (h : Tiled order l) (absent : l.runs.get? turn = none)
    (idle : l.Idle) (hstart : run.historyStart = l.history.length)
    (hitems : run.snapshot.items = items) :
    Tiled (order ++ [turn]) { l with history := l.history ++ items, runs := l.runs.insert turn run } := by
  have hnot : turn ∉ order := fun hm => by simpa [absent] using (h.stored turn).1 hm
  have hself : (l.runs.insert turn run).get? turn = some run := OrdMap.get?_insert_self _ _ _
  have hother : ∀ t, turn ≠ t → (l.runs.insert turn run).get? t = l.runs.get? t :=
    fun t ht => OrdMap.get?_insert_ne _ _ ht
  have hsame : ∀ ts : List String, (∀ t ∈ ts, t ∈ order) → ts.flatMap (itemsOf
      { l with history := l.history ++ items, runs := l.runs.insert turn run }) =
      ts.flatMap l.itemsOf :=
    fun ts hts => flatMap_itemsOf_congr fun t ht => hother t fun he => hnot (he ▸ hts t ht)
  refine
    { distinct := ?_
      stored := fun t => ?_
      history := ?_
      start := fun p t q run₁ he hr => ?_
      active := fun t run₁ hr hact => ⟨order, ?_⟩ }
  · rw [List.nodup_append_comm, List.singleton_append, List.nodup_cons]
    exact ⟨hnot, h.distinct⟩
  · by_cases he : turn = t
    · subst he; simp [hself]
    · rw [hother t he, ← h.stored t]
      simp [show t ≠ turn from fun h => he h.symm]
  · rw [List.flatMap_append, hsame order fun _ h => h, ← h.history, List.flatMap_singleton,
      itemsOf_eq hself, hitems]
  · rcases List.eq_nil_or_concat q with rfl | ⟨q', x, rfl⟩
    · obtain ⟨rfl, hx⟩ := List.append_inj' he rfl
      obtain rfl : turn = t := by simpa using hx
      rw [hself] at hr
      cases hr
      rw [hstart, hsame _ fun _ h => h, h.history]
    · have he' : order ++ [turn] = (p ++ t :: q') ++ [x] := by rw [he]; simp
      obtain ⟨rfl, -⟩ := List.append_inj' he' rfl
      have hne : turn ≠ t := fun h => hnot (by simp [h])
      rw [hsame p fun s hs => by simp [hs]]
      exact h.start p t q' run₁ rfl ((hother t hne).symm.trans hr)
  · by_cases hne : turn = t
    · rw [hne]
    · -- every other run is terminal
      rw [hother t hne] at hr
      rw [idle run₁ (OrdMap.mem_values hr)] at hact
      cases hact

/-- A step keeps the tiling; the run it accepts is the new last tile. -/
theorem Change.tiled {revision : Nat} {order : List String} {l l' : Ledger} {e : Label}
    (h : Change revision l e l') (ht : Tiled order l) : Tiled (order ++ e.accepted.toList) l' := by
  cases h with
  | accept absent idle resolved thread turn active result distinct =>
    exact accept_tiled ht absent idle rfl rfl
  | @update turn fresh op run run' history found active edit =>
    simp only [Label.accepted, Option.toList_none, List.append_nil]
    have hf := edit.frame
    refine ht.extend found active hf.history hf.start ?_
    show history.drop run'.historyStart = _
    rw [hf.start]
  | settle settles =>
    simp only [Label.accepted, Option.toList_none, List.append_nil]
    exact settles.invariant (Tiled order) (fun _ _ _ h hs => hs.tiled h) ht
  | acknowledge =>
    simp only [Label.accepted, Option.toList_none, List.append_nil]
    exact ⟨ht.distinct, ht.stored, ht.history, ht.start, ht.active⟩

end Ledger

/-! ## Reachable records -/

section
variable [External]

theorem Created.valid {r : SessionRecord} (h : Created r) : Valid r := by
  obtain ⟨_, _, _, _, _, -, h⟩ := h
  obtain ⟨_, hv, -⟩ := bind_ok h
  exact validate_ok_iff.1 hv

theorem Created.ledger {r : SessionRecord} (h : Created r) : r.ledger = ⟨[], .empty, []⟩ := by
  obtain ⟨_, _, _, _, _, h, -⟩ := h
  obtain ⟨_, -, h⟩ := bind_ok h
  obtain ⟨_, -, h⟩ := bind_ok h
  obtain ⟨_, -, h⟩ := bind_ok h
  cases h
  rfl

theorem Write.replaces {r r' : SessionRecord} {c : Committed} (h : Write r c r') :
    Replaces r r.recoveryId r.revision r' := validateReplace_ok_iff.1 h.accepted

theorem run_valid {r r' : SessionRecord} {cs : List Committed} (h : Lts.Run Keep r cs r')
    (hv : Valid r) : Valid r' :=
  h.invariant Valid (fun _ _ _ _ hs => hs.1.replaces.valid) hv

theorem run_grows {r r' : SessionRecord} {cs : List Committed} (h : Lts.Run Keep r cs r') :
    r.ledger.Grows r'.ledger :=
  h.rel (fun _ => True) (fun r r' => r.ledger.Grows r'.ledger) (fun _ _ _ _ _ => trivial)
    (fun r => .refl r.ledger) (fun _ _ _ => .trans)
    (fun _ _ _ _ hs => by obtain ⟨_, hc, -⟩ := hs.change; exact hc.grows) trivial

/-- The turns a sequence of calls accepted, in order. -/
def acceptedTurns (cs : List Committed) : List String := cs.filterMap Committed.accepted

theorem run_tiled {r r' : SessionRecord} {cs : List Committed} (h : Lts.Run Keep r cs r') :
    ∀ (order : List String), r.ledger.Tiled order → r'.ledger.Tiled (order ++ acceptedTurns cs) := by
  induction h with
  | nil r => intro order ht; simpa [acceptedTurns] using ht
  | @cons r r₁ r₂ c cs hs _ ih =>
    intro order ht
    obtain ⟨label, hc, he, -⟩ := hs.change
    have := ih _ (hc.tiled ht)
    rw [he, List.append_assoc] at this
    convert this using 2
    rw [acceptedTurns, List.filterMap_cons]
    cases c.accepted <;> rfl

/-- Where the run accepted after the `i`-th starts; the end of the history for the last. -/
def nextStart (r : SessionRecord) (order : List String) (i : Nat) : Nat :=
  ((order[i + 1]?.bind r.runs.get?).map (·.historyStart)).getD r.history.length

omit [External] in
/-- A tile is the slice of the history between two starts. -/
theorem tile_slice {order : List String} {r : SessionRecord} (h : r.ledger.Tiled order) {i : Nat}
    {turn : String} {run : StoredRun} (hi : order[i]? = some turn)
    (hrun : r.runs.get? turn = some run) :
    run.snapshot.items = (r.history.take (nextStart r order i)).drop run.historyStart := by
  obtain ⟨hlt, hget⟩ := List.getElem?_eq_some_iff.1 hi
  have hsplit : order = order.take i ++ turn :: order.drop (i + 1) := by
    rw [← hget, List.getElem_cons_drop, List.take_append_drop]
  have hstart := h.start _ _ _ run hsplit hrun
  have hitems : r.ledger.itemsOf turn = run.snapshot.items := Ledger.itemsOf_eq hrun
  have hhist : r.history = (order.take i).flatMap r.ledger.itemsOf ++
      (run.snapshot.items ++ (order.drop (i + 1)).flatMap r.ledger.itemsOf) := by
    have := h.history
    rw [hsplit, List.flatMap_append, List.flatMap_cons, hitems] at this
    exact this
  have hnext : nextStart r order i = run.historyStart + run.snapshot.items.length := by
    rw [nextStart]
    cases hd : order.drop (i + 1) with
    | nil =>
      have hnone : order[i + 1]? = none := List.getElem?_eq_none (List.drop_eq_nil_iff.1 hd)
      rw [hnone, hhist, hstart, hd]
      simp
    | cons turn' rest =>
      have hsome : order[i + 1]? = some turn' := by
        rw [← List.head?_drop, hd]; rfl
      have hmem : turn' ∈ order := List.mem_of_getElem? hsome
      obtain ⟨run', hrun'⟩ := Option.isSome_iff_exists.1 ((h.stored turn').1 hmem)
      have hrun'' : r.runs.get? turn' = some run' := hrun'
      have hs := h.start (order.take i ++ [turn]) turn' rest run'
        (by rw [List.append_assoc, List.singleton_append, ← hd]; exact hsplit) hrun'
      rw [hsome, Option.bind_some, hrun'', Option.map_some, Option.getD_some, hs, hstart,
        List.flatMap_append, List.length_append, List.flatMap_singleton, hitems]
  rw [hnext, hhist, hstart, List.take_length_add_append, List.drop_left, List.take_left]

/-- In every record that journal commands, attachments and recoveries reach from a created one, at
most one run is active; the history is the concatenation of the runs' items in the order of their
acceptance, which is also the order of their starts, each run's items being the slice up to the next
start; and a terminal run repeats its items and usage in its result and never changes again. -/
theorem runs_partition_history {r₀ r : SessionRecord} {cs : List Committed} (h₀ : Created r₀)
    (h : Lts.Run Keep r₀ cs r) :
    (∀ t t' run run', r.runs.get? t = some run → r.runs.get? t' = some run' →
      run.snapshot.status.isTerminal = false → run'.snapshot.status.isTerminal = false → t = t') ∧
    (acceptedTurns cs).Nodup ∧
    (∀ turn, turn ∈ acceptedTurns cs ↔ (r.runs.get? turn).isSome) ∧
    r.history = (acceptedTurns cs).flatMap r.ledger.itemsOf ∧
    (∀ (i j : Nat) t t' run run', i ≤ j → (acceptedTurns cs)[i]? = some t → (acceptedTurns cs)[j]? = some t' →
      r.runs.get? t = some run → r.runs.get? t' = some run' →
      run.historyStart ≤ run'.historyStart) ∧
    (∀ (i : Nat) turn run, (acceptedTurns cs)[i]? = some turn → r.runs.get? turn = some run →
      run.snapshot.items =
        (r.history.take (nextStart r (acceptedTurns cs) i)).drop run.historyStart) ∧
    (∀ turn run, r.runs.get? turn = some run → run.snapshot.status.isTerminal = true →
      (∃ result, run.snapshot.result = some result ∧ result.items = run.snapshot.items ∧
        result.usage = run.snapshot.usage) ∧
      ∀ cs' r', Lts.Run Keep r cs' r' → ∃ run', r'.runs.get? turn = some run' ∧
        run'.snapshot = run.snapshot) := by
  have htiled : r.ledger.Tiled (acceptedTurns cs) := by
    have := run_tiled h [] (h₀.ledger ▸ .init)
    simpa using this
  have hv := run_valid h h₀.valid
  refine ⟨fun t t' run run' ht ht' ha ha' => ?_, htiled.distinct, htiled.stored, htiled.history,
    fun i j t t' run run' hij hi hj ht ht' => ?_, fun i turn run => tile_slice htiled,
    fun turn run hrun hterm => ⟨?_, fun cs' r' h' => ?_⟩⟩
  · -- an active run is the last accepted one
    obtain ⟨pre, hp⟩ := htiled.active t run ht ha
    obtain ⟨pre', hp'⟩ := htiled.active t' run' ht' ha'
    have := (List.append_inj' (hp.symm.trans hp') rfl).2
    simpa using this
  · have hs : ∀ {k : Nat} {turn : String} {run : StoredRun}, (acceptedTurns cs)[k]? = some turn →
        r.runs.get? turn = some run → run.historyStart =
          (((acceptedTurns cs).take k).flatMap r.ledger.itemsOf).length := by
      intro k turn run hk hrun
      obtain ⟨hlt, hget⟩ := List.getElem?_eq_some_iff.1 hk
      exact htiled.start _ turn ((acceptedTurns cs).drop (k + 1)) run
        (by rw [← hget, List.getElem_cons_drop, List.take_append_drop]) hrun
    rw [hs hi ht, hs hj ht']
    obtain ⟨rest, hrest⟩ : (acceptedTurns cs).take i <+: (acceptedTurns cs).take j :=
      List.take_prefix_take_left hij
    rw [← hrest, List.flatMap_append, List.length_append]
    omega
  · obtain ⟨result, hresult⟩ := Option.isSome_iff_exists.1 ((hv.ledger.runs _ _ hrun).result hterm)
    have hok := hv.ledger.results run (OrdMap.mem_values hrun) result hresult
    exact ⟨result, hresult, hok.items, hok.usage⟩
  · obtain ⟨run', hrun', hg⟩ := (run_grows h').runs turn run hrun
    exact ⟨run', hrun', by rw [hg.frozen hterm]⟩

end

/-! ## A sample session -/

namespace Sample

def recoveryId : String := "00000000-0000-4000-8000-000000000001"

def secret : String := "0000000000000000000000000000000000000000000000000000000000000000"

/-- The SHA-256 digest of `secret`. -/
def secretDigest : String := "60e05bd1b195af2f94112fa7197a5c88289058840ce7c6df9693756bc6250f55"

/-- The external functions on the sample's own inputs. -/
@[reducible] def external : External where
  parseUuid s := s == recoveryId
  sha256Hex s := if s = secret then secretDigest else ""
  itemsBytes items := if items = [] then .ok 2 else .error "not a sample input"
  valueBytes v := if v = .object [] then .ok 2 else .error "not a sample input"
  deserializeError _ := "invalid type"

def key : RecoveryKey := ⟨recoveryId, secret⟩

/-- A session as `create` stores it. -/
def record : SessionRecord := @createdRecord external key (.object []) "owner" "thread" 7

theorem record_created : @Created external record :=
  ⟨key, .object [], "owner", "thread", 7, rfl, rfl⟩

def params : StartTurnParams :=
  { threadId := "thread", turnId := "turn", inputItems := [.userMessage "question" []] }

def snapshot : RunSnapshot :=
  { threadId := "thread", turnId := "turn", status := .running, items := [], usage := {},
    pendingApprovals := [], lastSeq := 0 }

def inputs : Inputs := ⟨8, 8, ⟨"result", "execution"⟩⟩

/-- The commands of the sample's journal as writers. -/
def commands (actions : List Action) : List Writer :=
  actions.map (.journal (Lease.of record) inputs)

/-- A run that dispatches a tool and is detached before its result. -/
def actions : List Action :=
  [.begin params snapshot (.object []),
   .commit "turn" (.modelInput "step" 0 (.object [])),
   .commit "turn" (.modelItem "step" (.toolCall "item" "call" none "tool" none "\x7b\x7d")),
   .commit "turn" (.modelStepFinished "step" {}),
   .commit "turn" (.dispatchIntent "call" ⟨"call", .object [], .object []⟩),
   .detach]

/-- What the sample's actions commit, and the record they leave. -/
def outcome : List Committed × SessionRecord :=
  (@replay external record (commands actions)).getD ([], record)

theorem outcome_run : @Lts.Run _ _ (@Keep external) record outcome.1 outcome.2 := by
  have h : (@replay external record (commands actions)).isSome = true := by decide +kernel
  obtain ⟨p, hp⟩ := Option.isSome_iff_exists.1 h
  refine @replay_run external (commands actions) record outcome.2 outcome.1 ?_
  rw [outcome, hp, Option.getD_some]

end Sample

theorem runs_partition_history_sample :
    acceptedTurns Sample.outcome.1 = ["turn"] ∧
      Sample.outcome.2.history =
        (acceptedTurns Sample.outcome.1).flatMap Sample.outcome.2.ledger.itemsOf :=
  ⟨by decide +kernel, (@runs_partition_history Sample.external _ _ _ Sample.record_created
    Sample.outcome_run).2.2.2.1⟩

end Whale
