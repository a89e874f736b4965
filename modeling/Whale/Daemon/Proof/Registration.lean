import Whale.Daemon.Registration
import Whale.Store.Proof.Fencing
import Whale.Store.Proof.Migration
import Whale.Core.Proof.Dispatch

/-!
# The durable tool configuration is canonical

`finalDefinitions tools` is the last definition of each name, without its binding. `configuration` and
`registerTools` both leave the tools of a session as these definitions in the order of their names
(`configuration_ok_iff`, `registerTools_stored`): the one sorts the list it is given, the other filters, appends
and sorts again, and two lists with the same members and no name twice sort alike (`sortTools_values`).

Over a run, `Registrar.Inv` says that the stored configuration is the canonical one and that what a registration
has read differs from it in the metadata at most, as long as its lease holds; `registered_stored` follows. A
caller's configuration matches the stored one exactly when its final definitions are the same
(`registered_attach`).
-/

namespace Whale

open Check

/-! ## Definitions by name -/

/-- The last definition of each name, without its binding. -/
def finalDefinitions (tools : List RegisterToolDefinition) : OrdMap String RegisterToolDefinition :=
  tools.foldl (fun m d => m.insert d.name d.unbound) .empty

theorem finalDefinitions_snoc (tools : List RegisterToolDefinition) (d : RegisterToolDefinition) :
    finalDefinitions (tools ++ [d]) = (finalDefinitions tools).insert d.name d.unbound := by
  rw [finalDefinitions, List.foldl_append]
  rfl

/-- A definition is found under its name, unbound. -/
theorem finalDefinitions_get? {tools : List RegisterToolDefinition} {k : String} {d : RegisterToolDefinition}
    (h : (finalDefinitions tools).get? k = some d) : d.name = k ∧ d.unbound = d ∧ ∃ e ∈ tools, e.name = k := by
  induction tools using List.reverseRecOn with
  | nil => cases h
  | append_singleton tools e ih =>
    rw [finalDefinitions_snoc, OrdMap.get?_insert] at h
    split at h
    · cases h
      exact ⟨‹_›, rfl, e, by simp, ‹_›⟩
    · obtain ⟨hname, hunbound, e', he', hk⟩ := ih h
      exact ⟨hname, hunbound, e', List.mem_append_left _ he', hk⟩

theorem finalDefinitions_isSome {tools : List RegisterToolDefinition} {e : RegisterToolDefinition}
    (he : e ∈ tools) : ((finalDefinitions tools).get? e.name).isSome := by
  induction tools using List.reverseRecOn with
  | nil => cases he
  | append_singleton tools d ih =>
    rw [finalDefinitions_snoc, OrdMap.get?_insert]
    split
    · rfl
    · rename_i hne
      rcases List.mem_append.mp he with he | he
      · exact ih he
      · exact absurd (congrArg _ (List.mem_singleton.mp he)).symm hne

/-- With no name twice, the final definitions are all of them. -/
theorem values_finalDefinitions {tools : List RegisterToolDefinition} (h : (tools.map (·.name)).Nodup) :
    (finalDefinitions tools).values.Perm (tools.map (·.unbound)) := by
  induction tools using List.reverseRecOn with
  | nil => exact .nil
  | append_singleton tools d ih =>
    rw [List.map_append, List.nodup_append] at h
    have hfresh : (finalDefinitions tools).get? d.name = none := by
      cases hg : (finalDefinitions tools).get? d.name with
      | none => rfl
      | some e =>
        obtain ⟨-, -, e', he', hk⟩ := finalDefinitions_get? hg
        exact absurd hk (h.2.2 _ (List.mem_map_of_mem he') _ (by simp))
    rw [finalDefinitions_snoc, List.map_append]
    exact (OrdMap.values_insert_of_none hfresh _).trans
      (((ih h.1).cons _).trans (List.perm_append_singleton _ _).symm)

/-- The names of the final definitions, in order. -/
theorem names_values (tools : List RegisterToolDefinition) :
    (finalDefinitions tools).values.Pairwise fun a b => a.name < b.name := by
  refine List.pairwise_map.mpr ((finalDefinitions tools).sorted.imp_of_mem fun {a b} ha hb hlt => ?_)
  obtain ⟨hna, -⟩ := finalDefinitions_get? (OrdMap.get?_eq_some_iff.mpr ha)
  obtain ⟨hnb, -⟩ := finalDefinitions_get? (OrdMap.get?_eq_some_iff.mpr hb)
  rwa [hna, hnb]

/-- The final definitions are given by their values. -/
theorem entries_finalDefinitions (tools : List RegisterToolDefinition) :
    (finalDefinitions tools).entries = (finalDefinitions tools).values.map fun d => (d.name, d) := by
  rw [OrdMap.values, List.map_map]
  refine (List.map_id _).symm.trans (List.map_congr_left fun e he => ?_)
  obtain ⟨hname, -⟩ := finalDefinitions_get? (OrdMap.get?_eq_some_iff.mpr he)
  rw [Function.comp_apply, hname, id_eq]

theorem mem_values_finalDefinitions {tools : List RegisterToolDefinition} {d : RegisterToolDefinition} :
    d ∈ (finalDefinitions tools).values ↔ (finalDefinitions tools).get? d.name = some d := by
  refine ⟨fun h => ?_, OrdMap.mem_values⟩
  obtain ⟨k, hk⟩ := OrdMap.mem_values_iff.mp h
  rwa [(finalDefinitions_get? hk).1]

theorem finalDefinitions_ext {tools tools' : List RegisterToolDefinition}
    (h : (finalDefinitions tools).values = (finalDefinitions tools').values) :
    finalDefinitions tools = finalDefinitions tools' :=
  OrdMap.ext_entries (by rw [entries_finalDefinitions, entries_finalDefinitions, h])

/-- The final definitions, defined once each, are their own final definitions. -/
theorem finalDefinitions_values (tools : List RegisterToolDefinition) :
    finalDefinitions (finalDefinitions tools).values = finalDefinitions tools := by
  have hnames := names_values tools
  have hunbound : (finalDefinitions tools).values.map (·.unbound) = (finalDefinitions tools).values := by
    refine (List.map_congr_left fun d hd => ?_).trans (List.map_id _)
    exact (finalDefinitions_get? (mem_values_finalDefinitions.mp hd)).2.1
  have hperm := values_finalDefinitions (List.pairwise_map.mpr (hnames.imp fun h => h.ne))
  rw [hunbound] at hperm
  exact finalDefinitions_ext (hperm.eq_of_pairwise (fun _ _ _ _ h1 h2 => absurd (h1.trans h2) (lt_irrefl _))
    (names_values _) hnames)

/-! ## Tools as values -/

theorem index_name (d : RegisterToolDefinition) : d.toValue.index "name" = .string d.name := by
  obtain ⟨_ | b, name, description, parameters, parallel, approval, host⟩ := d <;> rfl

theorem toolName_toValue (d : RegisterToolDefinition) : toolName d.toValue = some d.name := by
  rw [toolName, index_name]
  rfl

theorem withoutBinding_toValue (d : RegisterToolDefinition) :
    withoutBinding d.toValue = d.unbound.toValue := by
  obtain ⟨_ | b, name, description, parameters, parallel, approval, host⟩ := d <;> rfl

theorem toValue_inj {d e : RegisterToolDefinition} (h : d.toValue = e.toValue) : d = e := by
  obtain ⟨b, name, description, parameters, parallel, approval, host⟩ := d
  obtain ⟨b', name', description', parameters', parallel', approval', host'⟩ := e
  cases b <;> cases b' <;>
    simp_all [RegisterToolDefinition.toValue, member]

/-- The tools of a canonical configuration. -/
def toolValues (tools : List RegisterToolDefinition) : List Value :=
  (finalDefinitions tools).values.map (·.toValue)

/-- Equal tools are equal definitions. -/
theorem toolValues_inj {tools tools' : List RegisterToolDefinition}
    (h : toolValues tools = toolValues tools') : finalDefinitions tools = finalDefinitions tools' :=
  finalDefinitions_ext ((List.map_inj_right fun _ _ => toValue_inj).mp h)

/-! ## Sorting -/

theorem nameLe_trans {a b c : Option String} (h : nameLe a b = true) (h' : nameLe b c = true) :
    nameLe a c = true := by
  cases a with
  | none => rfl
  | some a =>
    cases b with
    | none => cases h
    | some b =>
      cases c with
      | none => cases h'
      | some c => exact decide_eq_true ((of_decide_eq_true h).trans (of_decide_eq_true h'))

theorem nameLe_total (a b : Option String) : (nameLe a b || nameLe b a) = true := by
  cases a with
  | none => rfl
  | some a =>
    cases b with
    | none => rfl
    | some b =>
      rcases le_total a b with h | h
      · simp [nameLe, h]
      · simp [nameLe, h]

/-- Whatever the order of its tools, a list of the final definitions sorts to them. -/
theorem sortTools_values {tools : List RegisterToolDefinition} {definitions : List Value}
    (h : definitions.Perm (toolValues tools)) : sortTools definitions = toolValues tools := by
  have hnames := names_values tools
  have hsorted : (sortTools definitions).Pairwise fun a b => nameLe (toolName a) (toolName b) = true :=
    @List.pairwise_mergeSort _ (fun a b => nameLe (toolName a) (toolName b)) (fun _ _ _ => nameLe_trans)
      (fun _ _ => nameLe_total _ _) definitions
  have hvalues : (toolValues tools).Pairwise fun a b => nameLe (toolName a) (toolName b) = true :=
    List.pairwise_map.mpr (hnames.imp fun h => by
      rw [toolName_toValue, toolName_toValue]
      exact decide_eq_true h.le)
  have hperm : (sortTools definitions).Perm (toolValues tools) := (List.mergeSort_perm _ _).trans h
  refine hperm.eq_of_pairwise (fun a b ha hb hab hba => ?_) hsorted hvalues
  obtain ⟨d, hd, rfl⟩ := List.mem_map.mp (hperm.mem_iff.mp ha)
  obtain ⟨e, he, rfl⟩ := List.mem_map.mp hb
  rw [toolName_toValue, toolName_toValue] at hab hba
  have hname : d.name = e.name := le_antisymm (of_decide_eq_true hab) (of_decide_eq_true hba)
  rw [mem_values_finalDefinitions] at hd he
  rw [hname, he] at hd
  rw [Option.some.inj hd]

/-! ## Both ways to the tools -/

/-- One registration of a definition. -/
theorem registerDefinition_perm {tools : List RegisterToolDefinition} {definitions : List Value}
    (h : definitions.Perm (toolValues tools)) (d : RegisterToolDefinition) :
    (registerDefinition definitions d).Perm (toolValues (tools ++ [d])) := by
  -- the filter takes the old definition of the name out
  have herase : ((finalDefinitions tools).erase d.name).values.map (·.toValue) =
      (toolValues tools).filter fun old => old.index "name" != (withoutBinding d.toValue).index "name" := by
    rw [withoutBinding_toValue, index_name, toolValues, OrdMap.values, OrdMap.values, List.map_map, List.map_map,
      List.filter_map, OrdMap.erase]
    refine congrArg _ (List.filter_congr fun e he => ?_)
    obtain ⟨hname, -⟩ := finalDefinitions_get? (OrdMap.get?_eq_some_iff.mpr he)
    rw [Function.comp_apply, Function.comp_apply, index_name, hname]
    by_cases hne : e.1 = d.name
    · simp [hne, RegisterToolDefinition.unbound]
    · simp [hne, RegisterToolDefinition.unbound]
  unfold registerDefinition
  rw [toolValues, finalDefinitions_snoc]
  refine List.Perm.trans ?_ ((OrdMap.values_insert _ _ _).map _).symm
  rw [List.map_cons, herase, ← withoutBinding_toValue]
  exact ((h.filter _).append_right _).trans (List.perm_append_singleton _ _)

/-- The loop of a registration. -/
theorem foldl_registerDefinition {added : List RegisterToolDefinition} :
    ∀ {tools : List RegisterToolDefinition} {definitions : List Value}, definitions.Perm (toolValues tools) →
      (added.foldl registerDefinition definitions).Perm (toolValues (tools ++ added)) := by
  induction added with
  | nil =>
    intro tools definitions h
    rwa [List.append_nil]
  | cons d added ih =>
    intro tools definitions h
    rw [List.foldl_cons, List.append_cons]
    exact ih (registerDefinition_perm h d)

/-- The loop of `configuration` over serialized definitions. -/
theorem stripTools_ok_iff : ∀ {tools : List RegisterToolDefinition} {names : List String} {stripped : List Value},
    stripTools names (tools.map (·.toValue)) = .ok stripped ↔
      (∀ d ∈ tools, blank d.name = false ∧ d.name ∉ names) ∧ (tools.map (·.name)).Nodup ∧
      stripped = tools.map fun d => d.unbound.toValue
  | [], names, stripped => by
    rw [List.map_nil, stripTools, Except.ok.injEq]
    exact ⟨fun h => ⟨nofun, .nil, h.symm⟩, fun h => h.2.2.symm⟩
  | d :: tools, names, stripped => by
    have hname : orElse (toolName (withoutBinding d.toValue)) "Missing tool name" = .ok d.name := by
      rw [withoutBinding_toValue, toolName_toValue]
      rfl
    rw [List.map_cons, stripTools, hname, ok_bind, refuse_bind_ok_iff]
    have ih := @stripTools_ok_iff tools (d.name :: names)
    constructor
    · rintro ⟨hrefuse, h⟩
      obtain ⟨rest, hrest, h⟩ := bind_ok h
      cases h
      obtain ⟨hall, hnodup, rfl⟩ := ih.mp hrest
      simp only [Bool.or_eq_false_iff, decide_eq_false_iff_not] at hrefuse
      refine ⟨List.forall_mem_cons.mpr ⟨hrefuse, fun e he => ?_⟩, ?_, ?_⟩
      · exact ⟨(hall e he).1, fun hin => (hall e he).2 (List.mem_cons_of_mem _ hin)⟩
      · refine List.nodup_cons.mpr ⟨fun hin => ?_, hnodup⟩
        obtain ⟨e, he, hsame⟩ := List.mem_map.mp hin
        exact (hall e he).2 (List.mem_cons.mpr (.inl hsame))
      · rw [withoutBinding_toValue, List.map_cons]
    · rintro ⟨hall, hnodup, rfl⟩
      obtain ⟨⟨hblank, hnew⟩, hall⟩ := List.forall_mem_cons.mp hall
      obtain ⟨hfirst, hnodup⟩ := List.nodup_cons.mp hnodup
      refine ⟨by simp [hblank, hnew], ?_⟩
      rw [ih.mpr ⟨fun e he => ⟨(hall e he).1, fun hin => ?_⟩, hnodup, rfl⟩, ok_bind, withoutBinding_toValue]
      · rfl
      · rcases List.mem_cons.mp hin with hsame | hin
        · exact hfirst (List.mem_map.mpr ⟨e, he, hsame⟩)
        · exact (hall e he).2 hin

/-! ## The members of a session -/

theorem remove_append (l r : JsonMap) (key : String) :
    JsonMap.remove (l ++ r) key = JsonMap.remove l key ++ JsonMap.remove r key := List.filter_append ..

theorem remove_member (key key' : String) (v : Option Value) :
    JsonMap.remove (member key v) key' = if key = key' then [] else member key v := by
  cases v with
  | none => simp [member, JsonMap.remove]
  | some v =>
    by_cases h : key = key'
    · simp [member, JsonMap.remove, h]
    · simp [member, JsonMap.remove, h]

/-- The members of a session that are neither its identity nor its metadata nor its tools. -/
def StartThreadParams.rest (p : StartThreadParams) : JsonMap :=
  member "agent_name" (p.agentName.map .string) ++ member "context_policy" p.contextPolicy ++
  member "limits" p.limits ++ [("model", .string p.model)] ++ member "options" p.options ++
  member "provider" (p.provider.map .string) ++ member "provider_config" p.providerConfig ++
  member "provider_ref" (p.providerRef.map .string) ++ member "system_prompt" (p.systemPrompt.map .string)

theorem mem_member {key : String} {v : Option Value} {e : String × Value} (h : e ∈ member key v) : e.1 = key := by
  cases v with
  | none => cases h
  | some v => rw [List.mem_singleton.mp h]

theorem mem_rest {p : StartThreadParams} {e : String × Value} (h : e ∈ p.rest) :
    e.1 < "tools" ∧ e.1 ≠ "session_id" ∧ e.1 ≠ "metadata" := by
  have hkeys : e.1 ∈ ["agent_name", "context_policy", "limits", "model", "options", "provider",
      "provider_config", "provider_ref", "system_prompt"] := by
    simp only [StartThreadParams.rest, List.mem_append, List.mem_singleton] at h
    rcases h with (((((((h | h) | h) | rfl) | h) | h) | h) | h) | h
    case inl.inl.inl.inl.inl.inr => simp
    all_goals simp [mem_member h]
  have hall : ∀ key ∈ ["agent_name", "context_policy", "limits", "model", "options", "provider",
      "provider_config", "provider_ref", "system_prompt"],
      key < "tools" ∧ key ≠ "session_id" ∧ key ≠ "metadata" := by decide
  exact hall _ hkeys

/-- A session with these tools. -/
def StartThreadParams.withTools (p : StartThreadParams) (tools : List Value) : JsonMap :=
  p.rest ++ [("tools", .array tools)]

theorem insert_tools (p : StartThreadParams) (tools : List Value) :
    JsonMap.insert p.rest "tools" (.array tools) = p.withTools tools := by
  have h := OrdMap.insertEntry_append (v := Value.array tools) (r := []) fun e he => (mem_rest (p := p) he).1
  rwa [List.append_nil] at h

theorem insert_withTools (p : StartThreadParams) (tools tools' : List Value) :
    JsonMap.insert (p.withTools tools) "tools" (.array tools') = p.withTools tools' := by
  rw [← insert_tools, ← insert_tools]
  exact OrdMap.insertEntry_twice _ _ _ _

theorem get_withTools (p : StartThreadParams) (tools : List Value) :
    JsonMap.get (p.withTools tools) "tools" = some (.array tools) := by
  rw [← insert_tools, JsonMap.get_insert_self]

theorem withTools_inj {p : StartThreadParams} {tools tools' : List Value}
    (h : p.withTools tools = p.withTools tools') : tools = tools' := by
  have hget := get_withTools p tools
  rw [h, get_withTools] at hget
  cases hget
  rfl

theorem orInsertTools_toMap (p : StartThreadParams) :
    orInsertTools (JsonMap.remove (JsonMap.remove p.toMap "session_id") "metadata") =
      p.withTools (p.tools.map (·.toValue)) := by
  have hremoved : JsonMap.remove (JsonMap.remove p.toMap "session_id") "metadata" = p.rest ++
      member "tools" (if p.tools.isEmpty then none else some (.array (p.tools.map (·.toValue)))) := by
    have hmodel : ∀ key ≠ "model", JsonMap.remove [("model", .string p.model)] key =
        [("model", .string p.model)] := fun key hkey => by simp [JsonMap.remove, Ne.symm hkey]
    simp only [StartThreadParams.toMap, StartThreadParams.rest, remove_append, remove_member,
      hmodel "session_id" (by decide), hmodel "metadata" (by decide), String.reduceEq, if_true, if_false,
      List.append_assoc, List.nil_append]
  have hnone : JsonMap.containsKey p.rest "tools" = false := by
    simp only [JsonMap.containsKey, List.any_eq_false, beq_iff_eq]
    exact fun e he => (mem_rest he).1.ne
  rw [hremoved]
  unfold orInsertTools
  cases htools : p.tools with
  | nil =>
    simp only [List.isEmpty_nil, if_true, member, List.append_nil, hnone, List.map_nil]
    exact insert_tools p []
  | cons d tools =>
    have hsome : JsonMap.containsKey (p.withTools ((d :: tools).map (·.toValue))) "tools" = true := by
      simp [JsonMap.containsKey, StartThreadParams.withTools]
    exact if_pos hsome

theorem canonicalTools_withTools (p : StartThreadParams) (tools : List Value) :
    canonicalTools (p.withTools tools) =
      (stripTools [] tools).map fun tools => p.withTools (sortTools tools) := by
  unfold canonicalTools
  rw [get_withTools]
  exact congrArg (Except.map · _) (funext fun _ => insert_withTools _ _ _)

/-! ## The configuration of parameters -/

section
variable [External]

/-- The configuration of a session with the final definitions of these tools. -/
def canonical (p : StartThreadParams) (tools : List RegisterToolDefinition) (defaults : SessionRunDefaults)
    (interactionsEnabled : Bool) (metadata : JsonMap) : PersistedConfiguration :=
  ⟨p.withTools (toolValues tools), defaults.toValue, metadata, interactionsEnabled⟩

theorem canonical_wellFormed {p : StartThreadParams} {defaults : SessionRunDefaults}
    (hdefaults : validateRunDefaults defaults.toValue = .ok ()) (tools : List RegisterToolDefinition)
    (interactionsEnabled : Bool) (metadata : JsonMap) :
    (canonical p tools defaults interactionsEnabled metadata).WellFormed := by
  have habsent : ∀ key ≠ "tools", (∀ e ∈ p.rest, e.1 ≠ key) →
      JsonMap.containsKey (p.withTools (toolValues tools)) key = false := fun key hkey hrest => by
    simp only [JsonMap.containsKey, StartThreadParams.withTools, List.any_append, Bool.or_eq_false_iff,
      List.any_eq_false, beq_iff_eq, List.mem_singleton]
    exact ⟨hrest, fun e he => he ▸ hkey.symm⟩
  refine ⟨hdefaults, ?_, habsent "metadata" (by decide) fun e he => (mem_rest he).2.2⟩
  show validateSessionIdentity (p.withTools (toolValues tools)) = .ok ()
  unfold validateSessionIdentity
  rw [habsent "session_id" (by decide) fun e he => (mem_rest he).2.1, refuse_false, ok_bind, get_withTools]
  refine forAll_ok_iff.mpr fun tool htool => ?_
  obtain ⟨d, hd, rfl⟩ := List.mem_map.mp htool
  obtain ⟨-, hunbound, -⟩ := finalDefinitions_get? (mem_values_finalDefinitions.mp hd)
  rw [← hunbound]
  rfl

/-- The value of a configuration, once it has passed the parser. -/
def parsed (c : PersistedConfiguration) : Except String Value :=
  match PersistedConfiguration.parseAndMigrate c.intoValue with
  | .ok (c, _) => .ok c.intoValue
  | .error e => .error e.toText

theorem parsed_ok_iff {c : PersistedConfiguration} {value : Value} :
    parsed c = .ok value ↔ c.WellFormed ∧ value = c.intoValue := by
  unfold parsed
  constructor
  · intro h
    split at h
    · rename_i c' m hparse
      have hwell := PersistedConfiguration.wellFormed_of_parse_intoValue hparse
      rw [PersistedConfiguration.parse_intoValue hwell] at hparse
      cases hparse
      cases h
      exact ⟨hwell, rfl⟩
    · cases h
  · rintro ⟨hwell, rfl⟩
    rw [PersistedConfiguration.parse_intoValue hwell]

theorem configuration_eq (p : StartThreadParams) (defaults : SessionRunDefaults) (interactionsEnabled : Bool) :
    configuration p defaults interactionsEnabled = stripTools [] (p.tools.map (·.toValue)) >>= fun tools =>
      parsed ⟨p.withTools (sortTools tools), defaults.toValue, p.metadata, interactionsEnabled⟩ := by
  have hmembers := canonicalTools_withTools p (p.tools.map (·.toValue))
  rw [← orInsertTools_toMap] at hmembers
  unfold configuration
  dsimp only
  rw [hmembers]
  cases stripTools [] (p.tools.map (·.toValue)) with
  | error e => rfl
  | ok tools => rfl

/-- `configuration` accepts tools with names that are nonempty and unique, and makes them canonical. -/
theorem configuration_ok_iff {p : StartThreadParams} {defaults : SessionRunDefaults} {interactionsEnabled : Bool}
    {value : Value} : configuration p defaults interactionsEnabled = .ok value ↔
      (∀ d ∈ p.tools, blank d.name = false) ∧ (p.tools.map (·.name)).Nodup ∧
      validateRunDefaults defaults.toValue = .ok () ∧
      value = (canonical p p.tools defaults interactionsEnabled p.metadata).intoValue := by
  have hsorted : ∀ stripped, stripTools [] (p.tools.map (·.toValue)) = .ok stripped →
      sortTools stripped = toolValues p.tools := fun stripped h => by
    obtain ⟨-, hnodup, rfl⟩ := stripTools_ok_iff.mp h
    refine sortTools_values ?_
    rw [show (fun d : RegisterToolDefinition => d.unbound.toValue) = (·.toValue) ∘ (·.unbound) from rfl,
      ← List.map_map]
    exact ((values_finalDefinitions hnodup).map _).symm
  rw [configuration_eq]
  constructor
  · intro h
    obtain ⟨stripped, hstripped, h⟩ := bind_ok h
    obtain ⟨hall, hnodup, -⟩ := stripTools_ok_iff.mp hstripped
    rw [hsorted stripped hstripped] at h
    obtain ⟨hwell, rfl⟩ := parsed_ok_iff.mp h
    exact ⟨fun d hd => (hall d hd).1, hnodup, hwell.defaults, rfl⟩
  · rintro ⟨hall, hnodup, hdefaults, rfl⟩
    have hstripped : stripTools [] (p.tools.map (·.toValue)) = .ok (p.tools.map fun d => d.unbound.toValue) :=
      stripTools_ok_iff.mpr ⟨fun d hd => ⟨hall d hd, List.not_mem_nil⟩, hnodup, rfl⟩
    rw [hstripped, ok_bind, hsorted _ hstripped]
    exact parsed_ok_iff.mpr ⟨canonical_wellFormed hdefaults p.tools interactionsEnabled p.metadata, rfl⟩

omit [External] in
/-- The session in the value of a configuration, and another in its place. -/
theorem get_session (c : PersistedConfiguration) (session : JsonMap) :
    ∃ root, c.intoValue = .object root ∧ JsonMap.get root "session" = some (.object c.session) ∧
      .object (JsonMap.insert root "session" (.object session)) =
        PersistedConfiguration.intoValue { c with session } := by
  obtain ⟨old, runDefaults, metadata, enabled⟩ := c
  refine ⟨_, rfl, rfl, congrArg Value.object ?_⟩
  have hmetadata : ¬ "session" < "metadata" ∧ "metadata" < "session" := by decide
  have hdefaults : ¬ "session" < "run_defaults" ∧ "run_defaults" < "session" := by decide
  have hfeatures : ¬ "session" < "runtime_features" ∧ "runtime_features" < "session" := by decide
  have hsession : ¬ "session" < "session" := by decide
  rw [JsonMap.insert, OrdMap.insertEntry, if_neg hmetadata.1, if_pos hmetadata.2, OrdMap.insertEntry,
    if_neg hdefaults.1, if_pos hdefaults.2, OrdMap.insertEntry, if_neg hfeatures.1, if_pos hfeatures.2,
    OrdMap.insertEntry, if_neg hsession, if_neg hsession]

omit [External] in
/-- `handle_register_tools` leaves the final definitions of a canonical configuration with the new ones. -/
theorem registerTools_canonical (p : StartThreadParams) (tools added : List RegisterToolDefinition)
    (defaults : SessionRunDefaults) (interactionsEnabled : Bool) (metadata : JsonMap) :
    registerTools added (canonical p tools defaults interactionsEnabled metadata).intoValue =
      some (canonical p (tools ++ added) defaults interactionsEnabled metadata).intoValue := by
  have hsorted : sortTools (added.foldl registerDefinition (toolValues tools)) = toolValues (tools ++ added) :=
    sortTools_values (foldl_registerDefinition (List.Perm.refl _))
  obtain ⟨root, hroot, hget, hinsert⟩ := get_session
    (canonical p tools defaults interactionsEnabled metadata) (p.withTools (toolValues (tools ++ added)))
  have htools : JsonMap.get (canonical p tools defaults interactionsEnabled metadata).session "tools" =
      some (.array (toolValues tools)) := get_withTools _ _
  have hedit : JsonMap.insert (canonical p tools defaults interactionsEnabled metadata).session "tools"
      (.array (toolValues (tools ++ added))) = p.withTools (toolValues (tools ++ added)) := insert_withTools _ _ _
  rw [hroot, registerTools]
  dsimp only
  rw [hget]
  dsimp only
  rw [htools]
  dsimp only
  rw [hsorted, hedit, hinsert]
  rfl

/-! ## Runs -/

/-- What a write that is no replacement does to a canonical configuration: to its metadata at most. -/
theorem Keep.canonical {r r' : SessionRecord} {c : Committed} {p : StartThreadParams}
    {tools : List RegisterToolDefinition} {defaults : SessionRunDefaults} {interactionsEnabled : Bool}
    {metadata : JsonMap} (h : Keep r c r') (hother : c.1.replaces = false)
    (hdefaults : validateRunDefaults defaults.toValue = .ok ())
    (hr : r.configuration = (canonical p tools defaults interactionsEnabled metadata).intoValue) :
    ∃ metadata', r'.configuration = (canonical p tools defaults interactionsEnabled metadata').intoValue := by
  have hwell := canonical_wellFormed (p := p) hdefaults tools interactionsEnabled metadata
  -- neither `attach` nor `open` has anything to migrate
  have hmigrated : ∀ {parsed}, parseVersionedConfiguration r.configuration = .ok parsed →
      migratedConfiguration r.configuration parsed = r.configuration := fun hparsed => by
    rw [hr, parseVersioned_intoValue hwell] at hparsed
    cases hparsed
    rfl
  obtain ⟨⟨-, hsub, -⟩, hkeep⟩ := h
  obtain ⟨w, response⟩ := c
  cases w with
  | journal lease inp action =>
    obtain ⟨hholds, haction, response', r₁, next, happly, -, hs⟩ := journal_submit hsub
    cases hs
    obtain ⟨-, -, -, -, hlive⟩ := lease_holds_iff.1 hholds
    obtain ⟨label, happlied⟩ := apply_effect hlive haction happly
    cases happlied with
    | accepted thread change => exact ⟨metadata, hr⟩
    | repeated found => exact ⟨metadata, hr⟩
    | commit change => exact ⟨metadata, hr⟩
    | finalize change => exact ⟨metadata, hr⟩
    | replace object normal => cases hother
    | replaceMetadata parsed replaced =>
      rw [hr, PersistedConfiguration.parse_intoValue hwell] at parsed
      cases parsed
      obtain ⟨_, -, replaced⟩ := bind_ok replaced
      cases replaced
      exact ⟨_, rfl⟩
    | acknowledge change => exact ⟨metadata, hr⟩
    | detach settles => exact ⟨metadata, hr⟩
  | attach key expected configuration owner thread now =>
    obtain ⟨-, -, -, -, -, -, parsed, epoch, revision, hparsed, -, -, hs⟩ := attach_submit hsub
    cases hs
    exact ⟨metadata, (hmigrated hparsed).trans hr⟩
  | forget => cases hkeep
  | retire => cases hkeep
  | opened id now =>
    obtain ⟨new, hn, hs⟩ := submission_some hsub
    cases hs
    cases hf : r.forgotten with
    | false =>
      obtain ⟨-, parsed, l, next, hparsed, -, -, rfl⟩ := opened_live hf hn
      have hkept : (openedRecord r (migratedConfiguration r.configuration parsed) now l).configuration =
          migratedConfiguration r.configuration parsed := by
        unfold openedRecord migrated SessionRecord.migrateRetention
        dsimp only
        split <;> split <;> rfl
      exact ⟨metadata, hkept.trans ((hmigrated hparsed).trans hr)⟩
    | true =>
      obtain ⟨-, -, next, -, rfl⟩ := opened_tombstone hf hn
      have hkept : (r.migrateRetention now).2.configuration = r.configuration := by
        unfold SessionRecord.migrateRetention
        split <;> rfl
      exact ⟨metadata, hkept.trans hr⟩

/-- The stored configuration is canonical, and so is what a registration has read while its lease holds. -/
structure Registrar.Inv (p : StartThreadParams) (defaults : SessionRunDefaults) (interactionsEnabled : Bool)
    (tools : List RegisterToolDefinition) (s : Registrar) : Prop where
  runDefaults : validateRunDefaults defaults.toValue = .ok ()
  names : ∀ d ∈ tools, blank d.name = false
  stored : ∃ metadata,
    s.record.configuration = (canonical p tools defaults interactionsEnabled metadata).intoValue
  reads : ∀ lease value, s.reading lease = some value → lease.id = s.record.recoveryId ∧
    lease.Follows s.record ∧ (lease.holds s.record = true → ∃ metadata,
      value = (canonical p tools defaults interactionsEnabled metadata).intoValue)

/-- A lease that holds of a replacement held of what was replaced. -/
theorem holds_before {l : Lease} {r r' : SessionRecord} {c : Committed} (h : Keep r c r') (hl : l.Follows r)
    (hholds : l.holds r' = true) : l.holds r = true := by
  by_contra hn
  have hstale := hl.stale h.1.replaces (by simpa using hn)
  rw [hholds] at hstale
  cases hstale

omit [External] in
/-- What a registration has read, after one registration has read or ended. -/
theorem read_update {reading : Lease → Option Value} {lease other : Lease} {x : Option Value} {value : Value}
    (h : Function.update reading lease x other = some value) :
    other = lease ∧ x = some value ∨ other ≠ lease ∧ reading other = some value := by
  by_cases hother : other = lease
  · subst hother
    exact .inl ⟨rfl, by rwa [Function.update_self] at h⟩
  · exact .inr ⟨hother, by rwa [Function.update_of_ne hother] at h⟩

variable [ToolJson]

omit [External] in
theorem checkDefinitions_names : ∀ {tools : List RegisterToolDefinition} {names : List String},
    checkDefinitions names tools = .ok () → ∀ d ∈ tools, blank d.name = false
  | [], _, _ => nofun
  | d :: tools, names, h => by
    obtain ⟨hname, h⟩ := refuse_bind_ok h
    obtain ⟨-, h⟩ := refuse_bind_ok h
    obtain ⟨_, -, h⟩ := bind_ok h
    exact List.forall_mem_cons.mpr ⟨(Bool.or_eq_false_iff.mp hname).1, checkDefinitions_names h⟩

theorem Registrar.Inv.step {p : StartThreadParams} {defaults : SessionRunDefaults} {interactionsEnabled : Bool}
    {tools : List RegisterToolDefinition} {s s' : Registrar} {label : Option (List RegisterToolDefinition)}
    (h : s.Inv p defaults interactionsEnabled tools) (hs : Registrar.Step s label s') :
    s'.Inv p defaults interactionsEnabled (tools ++ label.getD []) := by
  obtain ⟨metadata, hstored⟩ := h.stored
  cases hs with
  | write kept other =>
    rw [Option.getD_none, List.append_nil]
    refine ⟨h.runDefaults, h.names, kept.canonical other h.runDefaults hstored, fun lease value hread => ?_⟩
    obtain ⟨hid, hfollows, hvalue⟩ := h.reads lease value hread
    exact ⟨hid.trans kept.1.replaces.id.symm, hfollows.replaces kept.1.replaces,
      fun hholds => hvalue (holds_before kept hfollows hholds)⟩
  | @read lease target holds free =>
    rw [Option.getD_none, List.append_nil]
    refine ⟨h.runDefaults, h.names, h.stored, fun other value hread => ?_⟩
    rcases read_update hread with ⟨rfl, he⟩ | ⟨-, hread⟩
    · cases he
      obtain ⟨hepoch, howner, hthread, -, -⟩ := lease_holds_iff.1 holds
      exact ⟨target, ⟨hepoch.ge, fun _ _ _ => ⟨howner, hthread⟩⟩, fun _ => ⟨metadata, hstored⟩⟩
    · exact h.reads other value hread
  | @register lease inp added stored edited response r' checked read edit kept =>
    rw [Option.getD_some]
    obtain ⟨hholds, -, response', r₁, next, happly, -, hsubmitted⟩ := journal_submit kept.1.submitted
    cases hsubmitted
    obtain ⟨hid, -, hvalue⟩ := h.reads lease stored read
    obtain ⟨old, rfl⟩ := hvalue hholds
    rw [registerTools_canonical] at edit
    cases edit
    have hwell := canonical_wellFormed (p := p) h.runDefaults (tools ++ added) interactionsEnabled old
    have hcurrent := parseVersioned_intoValue (canonical_wellFormed (p := p) h.runDefaults tools
      interactionsEnabled metadata)
    rw [← hstored] at hcurrent
    obtain ⟨c, rfl, -, -, hnormal⟩ := apply_replace_metadata happly hcurrent
    unfold normalizeNewConfiguration at hnormal
    rw [parseVersioned_intoValue hwell] at hnormal
    refine ⟨h.runDefaults, fun d hd => ?_, ⟨old, (Except.ok.inj hnormal).symm⟩, fun other value hread => ?_⟩
    · rcases List.mem_append.mp hd with hd | hd
      · exact h.names d hd
      · exact checkDefinitions_names checked d hd
    · rcases read_update hread with ⟨-, he⟩ | ⟨hother, hread⟩
      · cases he
      · obtain ⟨hid', hfollows, -⟩ := h.reads other value hread
        refine ⟨hid'.trans kept.1.replaces.id.symm, hfollows.replaces kept.1.replaces, fun hafter => ?_⟩
        -- a lease that holds is the one of this registration
        obtain ⟨he, ho, ht, -, -⟩ := lease_holds_iff.1 (holds_before kept hfollows hafter)
        obtain ⟨he', ho', ht', -, -⟩ := lease_holds_iff.1 hholds
        refine absurd ?_ hother
        obtain ⟨id, epoch, owner, thread⟩ := other
        obtain ⟨id', epoch', owner', thread'⟩ := lease
        simp only at hid hid' he he' ho ho' ht ht'
        rw [hid', hid, ← he, he', ← ho, ho', ← ht, ht']
  | @abandon lease =>
    rw [Option.getD_none, List.append_nil]
    refine ⟨h.runDefaults, h.names, h.stored, fun other value hread => ?_⟩
    rcases read_update hread with ⟨-, he⟩ | ⟨-, hread⟩
    · cases he
    · exact h.reads other value hread

/-- After any run, for the definitions of the creation and of every registration. -/
theorem Registered.inv {params : StartThreadParams} {defaults : SessionRunDefaults} {interactionsEnabled : Bool}
    {tools : List RegisterToolDefinition} {r : SessionRecord}
    (h : Registered defaults interactionsEnabled params tools r) :
    validateRunDefaults defaults.toValue = .ok () ∧ (∀ d ∈ tools, blank d.name = false) ∧ ∃ metadata,
      r.configuration = (canonical params tools defaults interactionsEnabled metadata).intoValue := by
  obtain ⟨configured, new, stored, run⟩ := h
  rename_i key value owner thread now r₀ labels s
  obtain ⟨hnames, -, hdefaults, rfl⟩ := configuration_ok_iff.mp configured
  have hwell := canonical_wellFormed (p := params) hdefaults params.tools interactionsEnabled params.metadata
  obtain ⟨_, -, new⟩ := bind_ok new
  obtain ⟨_, -, new⟩ := bind_ok new
  obtain ⟨configuration, hnormal, new⟩ := bind_ok new
  cases new
  unfold normalizeNewConfiguration at hnormal
  rw [parseVersioned_intoValue hwell] at hnormal
  cases hnormal
  have hinv := run.traced (fun labels s => s.Inv params defaults interactionsEnabled
    (params.tools ++ registered labels)) (fun labels s label s' hinv hs => by
      have hnext := hinv.step hs
      rwa [List.append_assoc, show registered labels ++ label.getD [] = registered (labels ++ [label]) by
        simp [registered]] at hnext)
    ⟨hdefaults, by rwa [show registered [] = [] from rfl, List.append_nil],
      ⟨params.metadata, by rw [show registered [] = [] from rfl, List.append_nil]; rfl⟩, nofun⟩
  exact ⟨hinv.runDefaults, hinv.names, hinv.stored⟩

/-! ## The claim -/

omit [External] [ToolJson] in
/-- Parameters that differ in their tools, metadata and session id at most. -/
def StartThreadParams.Alike (p q : StartThreadParams) : Prop :=
  q = { p with tools := q.tools, metadata := q.metadata, sessionId := q.sessionId }

/-- A configuration up to its metadata. -/
def withoutMetadata : Value → Value
  | .object root => .object (JsonMap.remove root "metadata")
  | value => value

omit [External] [ToolJson] in
theorem canonical_alike {p q : StartThreadParams} (h : p.Alike q) {tools tools' : List RegisterToolDefinition}
    (htools : finalDefinitions tools' = finalDefinitions tools) (defaults : SessionRunDefaults)
    (interactionsEnabled : Bool) (metadata : JsonMap) :
    canonical q tools' defaults interactionsEnabled metadata =
      canonical p tools defaults interactionsEnabled metadata := by
  rw [StartThreadParams.Alike] at h
  rw [h]
  unfold canonical toolValues
  rw [htools]
  rfl

/-- Everything `attach` asks for besides the configuration, at the revision it reads. -/
structure FreshAttach (key : RecoveryKey) (owner thread : String) (r : SessionRecord) : Prop where
  authentic : authenticated key (some r) = .ok r
  live : r.forgotten = false
  detached : r.owner = none
  named : blank owner = false ∧ blank thread = false
  fresh : r.historicalThreadIds.contains thread = false
  epoch : (checkedSucc r.epoch).isSome
  revision : (checkedSucc r.revision).isSome

omit [ToolJson] in
/-- `attach` goes on exactly with a configuration that matches the stored one. -/
theorem FreshAttach.attach_iff {key : RecoveryKey} {owner thread : String} {r : SessionRecord}
    (h : FreshAttach key owner thread r) (now : Nat) {stored caller : PersistedConfiguration}
    (hstored : r.configuration = stored.intoValue) (hs : stored.WellFormed) (hc : caller.WellFormed) :
    (∃ r', attachReplacement key r.revision caller.intoValue owner thread now (some r) = .ok r') ↔
      stored.attachmentIdentity = caller.attachmentIdentity ∧
      stored.interactionsEnabled = caller.interactionsEnabled := by
  obtain ⟨epoch, hepoch⟩ := Option.isSome_iff_exists.mp h.epoch
  obtain ⟨revision, hrevision⟩ := Option.isSome_iff_exists.mp h.revision
  have hidentity : identity owner thread caller.intoValue = .ok () := by
    unfold identity
    rw [h.named.1, h.named.2]
    rfl
  unfold attachReplacement
  rw [hidentity, h.authentic, ok_bind, ok_bind, h.live, h.detached, hstored, parseVersioned_intoValue hs,
    parseVersioned_intoValue hc, h.fresh, hepoch, hrevision]
  simp only [Option.isSome_none, refuse_false, ok_bind, bne_self_eq_false, configurationMatches, Bool.or_false,
    orElse_some]
  constructor
  · rintro ⟨r', hr'⟩
    obtain ⟨hmatches, -⟩ := refuse_bind_ok hr'
    simpa using hmatches
  · rintro ⟨hsame, henabled⟩
    rw [hsame, henabled, beq_self_eq_true, beq_self_eq_true]
    exact ⟨_, rfl⟩

/-- **The durable tool configuration is canonical.** However the tools of a persistent session were registered,
its stored configuration is `configuration` of its parameters with the final definition of each name, up to the
metadata; sessions with the same final definitions store the same, up to the metadata; and where nothing else
stands against it, `attach` accepts exactly the callers whose tools are these definitions, each name once. -/
theorem durable_tools_canonical {params : StartThreadParams} {defaults : SessionRunDefaults}
    {interactionsEnabled : Bool} {tools : List RegisterToolDefinition} {r : SessionRecord}
    (h : Registered defaults interactionsEnabled params tools r) :
    (∃ metadata, configuration { params with tools := (finalDefinitions tools).values, metadata } defaults
      interactionsEnabled = .ok r.configuration) ∧
    (∀ params' tools' r', params.Alike params' → Registered defaults interactionsEnabled params' tools' r' →
      finalDefinitions tools' = finalDefinitions tools →
      withoutMetadata r'.configuration = withoutMetadata r.configuration) ∧
    ∀ client key owner thread now, params.Alike client → FreshAttach key owner thread r →
      ((∃ value r', configuration client defaults interactionsEnabled = .ok value ∧
        attachReplacement key r.revision value owner thread now (some r) = .ok r') ↔
      (client.tools.map (·.name)).Nodup ∧ finalDefinitions client.tools = finalDefinitions tools) := by
  obtain ⟨hdefaults, hnames, metadata, hstored⟩ := h.inv
  have hwell := canonical_wellFormed (p := params) hdefaults tools interactionsEnabled metadata
  -- the names of the final definitions are names of definitions
  have hfinal : ∀ d ∈ (finalDefinitions tools).values, blank d.name = false := fun d hd => by
    obtain ⟨-, -, e, he, hsame⟩ := finalDefinitions_get? (mem_values_finalDefinitions.mp hd)
    exact hsame ▸ hnames e he
  refine ⟨⟨metadata, configuration_ok_iff.mpr ⟨hfinal, ?_, hdefaults, ?_⟩⟩,
    fun params' tools' r' halike h' hsame => ?_, fun client key owner thread now halike hfresh => ?_⟩
  · exact List.pairwise_map.mpr ((names_values tools).imp fun hlt => hlt.ne)
  · rw [hstored]
    have halike : params.Alike { params with tools := (finalDefinitions tools).values, metadata } := rfl
    exact congrArg PersistedConfiguration.intoValue
      (canonical_alike halike (finalDefinitions_values tools) _ _ _).symm
  · obtain ⟨-, -, metadata', hstored'⟩ := h'.inv
    rw [hstored, hstored', canonical_alike halike hsame]
    rfl
  · constructor
    · rintro ⟨value, r', hvalue, hattach⟩
      obtain ⟨-, hnodup, -, rfl⟩ := configuration_ok_iff.mp hvalue
      obtain ⟨hidentity, -⟩ := (hfresh.attach_iff now hstored hwell
        (canonical_wellFormed hdefaults client.tools interactionsEnabled client.metadata)).mp ⟨r', hattach⟩
      have hsession : params.withTools (toolValues tools) = client.withTools (toolValues client.tools) :=
        congrArg Prod.fst hidentity
      rw [StartThreadParams.Alike] at halike
      rw [show client.withTools (toolValues client.tools) = params.withTools (toolValues client.tools) by
        rw [halike]; rfl] at hsession
      exact ⟨hnodup, (toolValues_inj (withTools_inj hsession)).symm⟩
    · rintro ⟨hnodup, hsame⟩
      have hclient : ∀ d ∈ client.tools, blank d.name = false := fun d hd => by
        obtain ⟨e, he⟩ := Option.isSome_iff_exists.mp (finalDefinitions_isSome hd)
        rw [hsame] at he
        rw [← (finalDefinitions_get? he).1]
        exact hfinal e (OrdMap.mem_values he)
      obtain ⟨r', hattach⟩ := (hfresh.attach_iff now hstored hwell
        (canonical_wellFormed hdefaults client.tools interactionsEnabled client.metadata)).mpr ⟨by
          rw [canonical_alike halike hsame]
          rfl, rfl⟩
      exact ⟨_, r', configuration_ok_iff.mpr ⟨hclient, hnodup, hdefaults, rfl⟩, hattach⟩

end

namespace Sample

/-- Two tools, one of them bound by its host, and a later definition of the first. -/
def finder : RegisterToolDefinition :=
  { name := "finder", description := "finds", parameters := .object [("type", .string "object")] }

def reader : RegisterToolDefinition :=
  { bindingId := some "host", name := "reader", description := "reads",
    parameters := .object [("type", .string "object")] }

def betterFinder : RegisterToolDefinition := { finder with bindingId := some "other", description := "finds more" }

/-- A session created with the tools out of order. -/
def toolParams : StartThreadParams :=
  { model := "large", tools := [reader, finder], metadata := [("label", .string "mine")] }

/-- A caller with the later definition, in another order and unbound. -/
def toolClient : StartThreadParams := { toolParams with tools := [betterFinder, reader.unbound], metadata := [] }

theorem toolParams_configured : @configuration external toolParams {} false =
    .ok (canonical toolParams toolParams.tools {} false toolParams.metadata).intoValue :=
  (@configuration_ok_iff external _ _ _ _).mpr ⟨by decide, by decide, rfl, rfl⟩

/-- The record of the session, with these definitions, metadata and revision. -/
def toolRecord (tools : List RegisterToolDefinition) (metadata : JsonMap) (revision : Nat) : SessionRecord :=
  { @createdRecord external key (canonical toolParams tools {} false metadata).intoValue "owner" "thread" 7 with
    updatedAtMs := some (if revision = 1 then 7 else 8)
    revision }

/-- The last of them, detached. -/
def toolDetached : SessionRecord :=
  { toolRecord (toolParams.tools ++ [betterFinder]) [] 4 with
    owner := none, threadId := none, detachedSinceMs := some 8 }

/-- A call alone. -/
theorem kept_of_replay {r r' : SessionRecord} {w : Writer} {response : Option Response}
    (h : @replay external r [w] = some ([(w, response)], r')) : @Keep external r (w, response) r' := by
  cases @replay_run external _ _ _ _ h with
  | cons hs hnil =>
    cases hnil
    exact hs

/-- What the registration has read. -/
def toolReading : Lease → Option Value := Function.update (fun _ => none) (Lease.of record)
  (some (canonical toolParams toolParams.tools {} false []).intoValue)

theorem toolReading_self : toolReading (Lease.of record) =
    some (canonical toolParams toolParams.tools {} false []).intoValue := Function.update_self ..

/-- The metadata is replaced, the definition is registered, and the session is detached. -/
theorem toolRecord_run : @Lts.Run _ _ (@Registrar.Step external toolJson)
    ⟨toolRecord toolParams.tools toolParams.metadata 1, fun _ => none⟩ [none, none, some [betterFinder], none]
    ⟨toolDetached, Function.update toolReading (Lease.of record) none⟩ := by
  have hmetadata : @Registrar.Step external toolJson
      ⟨toolRecord toolParams.tools toolParams.metadata 1, fun _ => none⟩ none
      ⟨toolRecord toolParams.tools [] 2, fun _ => none⟩ :=
    @Registrar.Step.write external toolJson _ (.journal (Lease.of record) inputs (.replaceMetadata []),
      some (.metadata [])) (toolRecord toolParams.tools [] 2) (kept_of_replay rfl) rfl
  have hread : @Registrar.Step external toolJson ⟨toolRecord toolParams.tools [] 2, fun _ => none⟩ none
      ⟨toolRecord toolParams.tools [] 2, toolReading⟩ :=
    @Registrar.Step.read external toolJson _ (Lease.of record) rfl rfl rfl
  have hreplaced : @Keep external (toolRecord toolParams.tools [] 2) (.journal (Lease.of record) inputs
      (.replace (canonical toolParams (toolParams.tools ++ [betterFinder]) {} false []).intoValue), some .unit)
      (toolRecord (toolParams.tools ++ [betterFinder]) [] 3) := kept_of_replay rfl
  have hregistered : @Registrar.Step external toolJson ⟨toolRecord toolParams.tools [] 2, toolReading⟩
      (some [betterFinder]) ⟨toolRecord (toolParams.tools ++ [betterFinder]) [] 3,
        Function.update toolReading (Lease.of record) none⟩ :=
    @Registrar.Step.register external toolJson ⟨toolRecord toolParams.tools [] 2, toolReading⟩ (Lease.of record)
      inputs [betterFinder] _ _ (some .unit) _ rfl toolReading_self (registerTools_canonical ..) hreplaced
  have hdetached : @Registrar.Step external toolJson ⟨toolRecord (toolParams.tools ++ [betterFinder]) [] 3,
      Function.update toolReading (Lease.of record) none⟩ none
      ⟨toolDetached, Function.update toolReading (Lease.of record) none⟩ :=
    @Registrar.Step.write external toolJson _ (.journal (Lease.of record) inputs .detach, some .unit) toolDetached
      (kept_of_replay rfl) rfl
  exact .cons hmetadata (.cons hread (.cons hregistered (.single hdetached)))

end Sample

/-- The session stores the later definition, and a caller who presents it attaches. -/
theorem durable_tools_canonical_redefined :
    (∃ metadata, @configuration Sample.external
      { Sample.toolParams with
        tools := (finalDefinitions [Sample.reader, Sample.finder, Sample.betterFinder]).values, metadata } {} false =
      .ok Sample.toolDetached.configuration) ∧
    ∃ value r', @configuration Sample.external Sample.toolClient {} false = .ok value ∧
      @attachReplacement Sample.external Sample.key 4 value "owner" "fresh" 9 (some Sample.toolDetached) =
        .ok r' := by
  obtain ⟨hstored, -, hattach⟩ := @durable_tools_canonical Sample.external Sample.toolJson _ _ _ _ _
    (@Registered.created Sample.external Sample.toolJson {} false Sample.toolParams Sample.key _ "owner" "thread" 7
      (Sample.toolRecord Sample.toolParams.tools Sample.toolParams.metadata 1) _ _ Sample.toolParams_configured
      rfl rfl Sample.toolRecord_run)
  have hfresh : @FreshAttach Sample.external Sample.key "owner" "fresh" Sample.toolDetached :=
    @FreshAttach.mk Sample.external _ _ _ _ rfl rfl rfl ⟨rfl, rfl⟩ rfl rfl rfl
  exact ⟨hstored, (hattach Sample.toolClient Sample.key "owner" "fresh" 9 rfl hfresh).mpr
    ⟨by decide, by decide⟩⟩

end Whale
