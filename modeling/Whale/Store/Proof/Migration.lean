import Whale.Lib.Assoc
import Whale.Store.Proof.Partition

/-!
# Migration preserves the meaning of a configuration

`Means` says what a stored root of each wire shape stands for, and the parser finds just that
(`parse_means`). What it returns is parsed back from its version-3 value, so that `attach` compares the
same two configurations whichever side was migrated before.
-/

namespace Whale

open Check

namespace JsonMap

theorem get_remove (m : JsonMap) (key other : String) :
    get (remove m key) other = if other = key then none else get m other :=
  Assoc.lookup_filter m key other

theorem get_remove_self (m : JsonMap) (key : String) : get (remove m key) key = none := by
  rw [get_remove, if_pos rfl]

theorem get_remove_of_ne (m : JsonMap) {key other : String} (h : other ≠ key) :
    get (remove m key) other = get m other := by
  rw [get_remove, if_neg h]

end JsonMap

namespace PersistedConfiguration

/-- `c` has the metadata of the session object and its other fields. -/
structure TakenFrom (session : JsonMap) (c : PersistedConfiguration) : Prop where
  fields : ∀ key, key ≠ "metadata" → JsonMap.get c.session key = JsonMap.get session key
  without : JsonMap.get c.session "metadata" = none
  metadata : JsonMap.get session "metadata" = some (.object c.metadata) ∨
    JsonMap.get session "metadata" = none ∧ c.metadata = []

/-- What the root of a configuration of some version stands for. -/
inductive Means (root : JsonMap) : Nat → PersistedConfiguration → Prop
  | compact {c : PersistedConfiguration} (bare : JsonMap.get root "session" = none)
      (taken : TakenFrom (JsonMap.remove (JsonMap.remove root "version") "run_defaults") c)
      (defaults : c.runDefaults = (JsonMap.get root "run_defaults").getD (.object []))
      (interactions : c.interactionsEnabled = false) : Means root 1 c
  | nested {c : PersistedConfiguration} {session : JsonMap}
      (inner : JsonMap.get root "session" = some (.object session)) (taken : TakenFrom session c)
      (defaults : c.runDefaults = (JsonMap.get root "run_defaults").getD (.object []))
      (interactions : c.interactionsEnabled = false) : Means root 1 c
  | v2 {c : PersistedConfiguration} (session : JsonMap.get root "session" = some (.object c.session))
      (defaults : JsonMap.get root "run_defaults" = some c.runDefaults)
      (metadata : JsonMap.get root "metadata" = some (.object c.metadata))
      (interactions : c.interactionsEnabled = false) : Means root 2 c
  | v3 {c : PersistedConfiguration} {features : JsonMap}
      (session : JsonMap.get root "session" = some (.object c.session))
      (defaults : JsonMap.get root "run_defaults" = some c.runDefaults)
      (metadata : JsonMap.get root "metadata" = some (.object c.metadata))
      (runtime : JsonMap.get root "runtime_features" = some (.object features))
      (interactions : JsonMap.get features "interactions_enabled" = some (.bool c.interactionsEnabled)) :
      Means root 3 c

section
variable [External]

omit [External] in
theorem takeMetadata_ok {session metadata rest : JsonMap}
    (h : takeMetadata session = .ok (metadata, rest)) (runDefaults : Value) (enabled : Bool) :
    TakenFrom session ⟨rest, runDefaults, metadata, enabled⟩ := by
  unfold takeMetadata at h
  split at h
  · rename_i inner hm
    cases h
    exact ⟨fun key hk => JsonMap.get_remove_of_ne session hk, JsonMap.get_remove_self _ _, .inl hm⟩
  · cases h
  · rename_i hm
    cases h
    exact ⟨fun key hk => JsonMap.get_remove_of_ne session hk, JsonMap.get_remove_self _ _,
      .inr ⟨hm, rfl⟩⟩

theorem migrateV1_means {root : JsonMap} {c : PersistedConfiguration}
    (h : migrateV1 (JsonMap.remove root "version") = .ok c) : Means root 1 c := by
  have hget : ∀ key, key ≠ "version" →
      JsonMap.get (JsonMap.remove root "version") key = JsonMap.get root key :=
    fun key hk => JsonMap.get_remove_of_ne root hk
  have hsession := hget "session" (by decide)
  have hdefaults := hget "run_defaults" (by decide)
  obtain ⟨⟨session, runDefaults⟩, hm, h⟩ := bind_ok h
  obtain ⟨⟨metadata, rest⟩, htake, h⟩ := bind_ok h
  obtain ⟨_, -, h⟩ := bind_ok h
  obtain ⟨_, -, h⟩ := bind_ok h
  cases h
  unfold v1Members at hm
  split at hm
  · rename_i inner hinner
    obtain ⟨-, hm⟩ := refuse_bind_ok hm
    cases hm
    rw [hsession] at hinner
    rw [JsonMap.get_remove_of_ne _ (by decide : "run_defaults" ≠ "session"), hdefaults] at *
    exact .nested hinner (takeMetadata_ok htake _ _) rfl rfl
  · cases hm
  · rename_i hbare
    cases hm
    rw [hsession] at hbare
    exact .compact hbare (takeMetadata_ok htake _ _) (by rw [hdefaults]) rfl

omit [External] in
theorem objectMember_ok {root m : JsonMap} {key : String} {e : StoreError}
    (h : objectMember root key e = .ok m) : JsonMap.get root key = some (.object m) := by
  unfold objectMember at h
  split at h
  · cases h
    assumption
  · cases h

omit [External] in
/-- The members that versions 2 and 3 share, and the others. -/
theorem sharedMembers_ok {v : String} {root session metadata rest : JsonMap} {runDefaults : Value}
    (h : sharedMembers v root = .ok (session, runDefaults, metadata, rest)) :
    JsonMap.get root "session" = some (.object session) ∧
    JsonMap.get root "run_defaults" = some runDefaults ∧
    JsonMap.get root "metadata" = some (.object metadata) ∧
    ∀ key, key ∉ ["session", "run_defaults", "metadata"] →
      JsonMap.get rest key = JsonMap.get root key := by
  obtain ⟨session', hs, h⟩ := bind_ok h
  obtain ⟨defaults', hd, h⟩ := orElse_bind_ok h
  obtain ⟨metadata', hm, h⟩ := bind_ok h
  cases h
  have hmetadata := objectMember_ok hm
  rw [JsonMap.get_remove_of_ne _ (by decide : "run_defaults" ≠ "session")] at hd
  rw [JsonMap.get_remove_of_ne _ (by decide : "metadata" ≠ "run_defaults"),
    JsonMap.get_remove_of_ne _ (by decide : "metadata" ≠ "session")] at hmetadata
  refine ⟨objectMember_ok hs, hd, hmetadata, fun key hk => ?_⟩
  simp only [List.mem_cons, List.not_mem_nil, or_false, not_or] at hk
  rw [JsonMap.get_remove_of_ne _ hk.2.2, JsonMap.get_remove_of_ne _ hk.2.1,
    JsonMap.get_remove_of_ne _ hk.1]

theorem parseV2_means {root : JsonMap} {c : PersistedConfiguration}
    (h : parseV2 (JsonMap.remove root "version") = .ok c) : Means root 2 c := by
  obtain ⟨⟨session, runDefaults, metadata, rest⟩, hshared, h⟩ := bind_ok h
  obtain ⟨_, -, h⟩ := bind_ok h
  cases h
  obtain ⟨hs, hd, hm, -⟩ := sharedMembers_ok hshared
  rw [JsonMap.get_remove_of_ne _ (by decide)] at hs hd hm
  exact .v2 hs hd hm rfl

theorem parseV3_means {root : JsonMap} {c : PersistedConfiguration}
    (h : parseV3 (JsonMap.remove root "version") = .ok c) : Means root 3 c := by
  obtain ⟨⟨session, runDefaults, metadata, rest⟩, hshared, h⟩ := bind_ok h
  obtain ⟨features, hf, h⟩ := bind_ok h
  obtain ⟨enabled, he, h⟩ := orElse_bind_ok h
  obtain ⟨-, h⟩ := refuse_bind_ok h
  obtain ⟨_, -, h⟩ := bind_ok h
  cases h
  obtain ⟨hs, hd, hm, hrest⟩ := sharedMembers_ok hshared
  have hfeatures := objectMember_ok hf
  rw [hrest _ (by decide), JsonMap.get_remove_of_ne _ (by decide)] at hfeatures
  rw [JsonMap.get_remove_of_ne _ (by decide)] at hs hd hm
  obtain ⟨v, hv, hbool⟩ := Option.bind_eq_some_iff.1 he
  have hv' : v = .bool enabled := by
    cases v with
    | bool b =>
      cases hbool
      rfl
    | _ => cases hbool
  exact .v3 hs hd hm hfeatures (hv' ▸ hv)

/-- The parser accepts the versions 1 to 3, finds what the root stands for, and calls the first two
migrated. -/
theorem parse_means {root : JsonMap} {c : PersistedConfiguration} {migrated : Bool}
    (h : parseAndMigrate (.object root) = .ok (c, migrated)) :
    ∃ version, (JsonMap.get root "version").bind (·.asU64) = some version ∧ Means root version c ∧
      migrated = (version != 3) := by
  obtain ⟨version, hv, h⟩ := orElse_bind_ok h
  refine ⟨version, hv, ?_⟩
  dsimp only at h
  split at h
  · obtain ⟨c', hc, he⟩ := map_ok h
    cases he
    exact ⟨migrateV1_means hc, rfl⟩
  · obtain ⟨c', hc, he⟩ := map_ok h
    cases he
    exact ⟨parseV2_means hc, rfl⟩
  · obtain ⟨c', hc, he⟩ := map_ok h
    cases he
    exact ⟨parseV3_means hc, rfl⟩
  · cases h

end

end PersistedConfiguration

/-! ## The comparison of `attach` -/

section
variable [External]

/-- The configuration comparison of `attach`: both sides are parsed, then compared. -/
def attachMatches (stored caller : Value) : Except StoreError Bool := do
  let storedParsed ← parseVersionedConfiguration stored
  let callerParsed ← parseVersionedConfiguration caller
  .ok (configurationMatches stored caller storedParsed callerParsed)

/-- A migrated value is parsed to what it was migrated from; an opaque one is left as it is. -/
theorem normalizeNew_cases {v v' : Value} (h : normalizeNewConfiguration v = .ok v') :
    (∃ c m, parseVersionedConfiguration v = .ok (some (c, m)) ∧
      parseVersionedConfiguration v' = .ok (some (c, false)) ∧ v' = c.intoValue) ∨
    parseVersionedConfiguration v = .ok none ∧ v' = v := by
  obtain ⟨p, hp, h⟩ := bind_ok h
  cases p with
  | none =>
    cases h
    exact .inr ⟨hp, rfl⟩
  | some p =>
    obtain ⟨c, m⟩ := p
    cases h
    exact .inl ⟨c, m, hp, parseVersioned_intoValue (parseVersioned_some hp), rfl⟩

theorem isObject_normalizeNew {v v' : Value} (h : normalizeNewConfiguration v = .ok v') :
    v'.isObject = v.isObject := by
  rcases normalizeNew_cases h with ⟨c, m, hp, -, rfl⟩ | ⟨-, rfl⟩
  · cases v with
    | object root => rfl
    | _ => cases hp
  · rfl

omit [External] in
theorem configurationMatches_stored {c : PersistedConfiguration} {m m' : Bool} {v v' caller : Value}
    (q : Option (PersistedConfiguration × Bool)) :
    configurationMatches v' caller (some (c, m')) q = configurationMatches v caller (some (c, m)) q := by
  cases q <;> rfl

omit [External] in
theorem configurationMatches_caller {c : PersistedConfiguration} {m m' : Bool} {v v' stored : Value}
    (p : Option (PersistedConfiguration × Bool)) :
    configurationMatches stored v' p (some (c, m')) = configurationMatches stored v p (some (c, m)) := by
  cases p <;> rfl

theorem attachMatches_stored {stored stored' : Value} (h : normalizeNewConfiguration stored = .ok stored')
    (caller : Value) : attachMatches stored' caller = attachMatches stored caller := by
  rcases normalizeNew_cases h with ⟨c, m, hp, hp', -⟩ | ⟨-, rfl⟩
  · unfold attachMatches
    rw [hp, hp', ok_bind, ok_bind]
    refine congrArg (parseVersionedConfiguration caller >>= ·) (funext fun q => ?_)
    rw [configurationMatches_stored]
  · rfl

theorem attachMatches_caller {caller caller' : Value} (h : normalizeNewConfiguration caller = .ok caller')
    (stored : Value) : attachMatches stored caller' = attachMatches stored caller := by
  rcases normalizeNew_cases h with ⟨c, m, hp, hp', -⟩ | ⟨-, rfl⟩
  · unfold attachMatches
    refine congrArg (parseVersionedConfiguration stored >>= ·) (funext fun p => ?_)
    rw [hp, hp', ok_bind, ok_bind, configurationMatches_caller]
  · rfl

/-- `attach` does the same for a caller who migrated the configuration before. -/
theorem attachReplacement_caller {caller caller' : Value}
    (h : normalizeNewConfiguration caller = .ok caller') (key : RecoveryKey) (expected : Nat)
    (owner thread : String) (now : Nat) (stored : Option SessionRecord) :
    attachReplacement key expected caller' owner thread now stored =
      attachReplacement key expected caller owner thread now stored := by
  have hidentity : identity owner thread caller' = identity owner thread caller := by
    unfold identity
    rw [isObject_normalizeNew h]
  rcases normalizeNew_cases h with ⟨c, m, hp, hp', -⟩ | ⟨-, rfl⟩
  · simp only [attachReplacement, hidentity, hp, hp', ok_bind,
      configurationMatches_caller (v := caller) (m := m)]
  · rfl

theorem validate_withConfiguration {r : SessionRecord} {v : Value}
    (h : v.isObject = r.configuration.isObject) : (r.withConfiguration v).validate = r.validate := by
  simp only [SessionRecord.validate, SessionRecord.withConfiguration, h]
  rfl

theorem authenticated_withConfiguration {r : SessionRecord} {v : Value}
    (h : v.isObject = r.configuration.isObject) (key : RecoveryKey) :
    authenticated key (some (r.withConfiguration v)) =
      (authenticated key (some r)).map (·.withConfiguration v) := by
  unfold authenticated
  rw [orElse_some, orElse_some, ok_bind, ok_bind, validate_withConfiguration h,
    show checkKey (r.withConfiguration v) key = checkKey r key from rfl]
  cases validateKey key with
  | error e => rfl
  | ok _ =>
    cases checkKey r key with
    | error e => rfl
    | ok _ =>
      cases r.validate with
      | error e => rfl
      | ok _ => rfl

/-- And for a stored configuration that was migrated before, up to the migration. -/
theorem attachReplacement_stored {r : SessionRecord} {stored' : Value}
    (h : normalizeNewConfiguration r.configuration = .ok stored') (key : RecoveryKey) (expected : Nat)
    (caller : Value) (owner thread : String) (now : Nat) :
    (attachReplacement key expected caller owner thread now (some (r.withConfiguration stored'))).map
        (·.withConfiguration stored') =
      (attachReplacement key expected caller owner thread now (some r)).map
        (·.withConfiguration stored') := by
  unfold attachReplacement
  rw [authenticated_withConfiguration (isObject_normalizeNew h)]
  cases identity owner thread caller with
  | error e => rfl
  | ok _ =>
    cases hauth : authenticated key (some r) with
    | error e => rfl
    | ok r' =>
      obtain rfl : r = r' := Option.some.inj (authenticated_ok hauth).1
      rcases normalizeNew_cases h with ⟨c, m, hp, hp', hc⟩ | ⟨hp, rfl⟩
      · have hconfiguration : (r.withConfiguration stored').configuration = stored' := rfl
        rw [show Except.map (·.withConfiguration stored') (.ok r) = .ok (r.withConfiguration stored')
            from rfl, ok_bind, ok_bind, ok_bind, ok_bind, hconfiguration, hp, hp', ok_bind, ok_bind]
        -- the two differ in the comparison and in the configuration of the result
        refine map_bind_congr fun _ => map_bind_congr fun _ => map_bind_congr fun _ =>
          map_bind_congr fun q => ?_
        rw [configurationMatches_stored]
        exact map_bind_congr fun _ => map_bind_congr fun _ => map_bind_congr fun _ => rfl
      · rfl

/-! ## Replacements -/

/-- A replacement of a versioned configuration is versioned and has the same metadata. -/
theorem apply_replace_metadata {r r' : SessionRecord} {inp : Inputs} {v : Value} {response : Response}
    {c : PersistedConfiguration} {m : Bool} (h : apply r inp (.replace v) = .ok (response, r'))
    (hc : parseVersionedConfiguration r.configuration = .ok (some (c, m))) :
    ∃ c' : PersistedConfiguration, r' = r.withConfiguration c'.intoValue ∧ c'.WellFormed ∧
      c'.metadata = c.metadata ∧ normalizeNewConfiguration v = .ok c'.intoValue := by
  obtain ⟨-, h⟩ := refuse_bind_ok h
  obtain ⟨-, h⟩ := refuse_bind_ok h
  obtain ⟨v', hnormal, h⟩ := bind_ok h
  cases h
  obtain ⟨w, hw, hparsed⟩ := bind_ok hnormal
  rw [hc, ok_bind] at hparsed
  rcases normalizeNew_cases hw with ⟨c', m', -, hp', rfl⟩ | ⟨hp, rfl⟩
  · rw [hp', ok_bind] at hparsed
    obtain ⟨hmetadata, hparsed⟩ := refuse_bind_ok hparsed
    cases hparsed
    exact ⟨c', rfl, parseVersioned_some hp', (bne_eq_false_iff_eq.mp hmetadata).symm, hw⟩
  · rw [hp, ok_bind] at hparsed
    cases hparsed

/-- A replacement of the metadata keeps everything else. -/
theorem apply_replaceMetadata_keeps {r r' : SessionRecord} {inp : Inputs} {metadata : JsonMap}
    {response : Response} (h : apply r inp (.replaceMetadata metadata) = .ok (response, r')) :
    ∃ (c : PersistedConfiguration) (m : Bool),
      PersistedConfiguration.parseAndMigrate r.configuration = .ok (c, m) ∧
      r' = r.withConfiguration { c with metadata }.intoValue ∧ response = .metadata metadata := by
  obtain ⟨⟨c, m⟩, hc, h⟩ := bind_ok h
  obtain ⟨c', hc', h⟩ := bind_ok h
  obtain ⟨_, -, hc'⟩ := bind_ok hc'
  cases hc'
  cases h
  exact ⟨c, m, hc, rfl, rfl⟩

/-- **Migration preserves meaning.** What the parser accepts parses back from its version-3 value, and is
what the root stands for in its own version. `attach` compares alike, and does alike, whichever side was
migrated before. A replaced configuration keeps the metadata, and replaced metadata the configuration. -/
theorem configuration_migration :
    (∀ v c m, PersistedConfiguration.parseAndMigrate v = .ok (c, m) →
      PersistedConfiguration.parseAndMigrate c.intoValue = .ok (c, false)) ∧
    (∀ v c m, PersistedConfiguration.parseAndMigrate v = .ok (c, m) →
      ∃ root version, v = .object root ∧
        (JsonMap.get root "version").bind (·.asU64) = some version ∧
        PersistedConfiguration.Means root version c ∧ m = (version != 3)) ∧
    (∀ stored stored', normalizeNewConfiguration stored = .ok stored' → ∀ other,
      attachMatches stored' other = attachMatches stored other ∧
      attachMatches other stored' = attachMatches other stored) ∧
    (∀ key expected owner thread now r stored' caller caller',
      normalizeNewConfiguration r.configuration = .ok stored' →
      normalizeNewConfiguration caller = .ok caller' →
      attachReplacement key expected caller' owner thread now (some r) =
        attachReplacement key expected caller owner thread now (some r) ∧
      (attachReplacement key expected caller' owner thread now
        (some (r.withConfiguration stored'))).map (·.withConfiguration stored') =
      (attachReplacement key expected caller owner thread now (some r)).map
        (·.withConfiguration stored')) ∧
    (∀ r r' inp v response c m, apply r inp (.replace v) = .ok (response, r') →
      PersistedConfiguration.parseAndMigrate r.configuration = .ok (c, m) →
      ∃ c', r' = r.withConfiguration c'.intoValue ∧
        PersistedConfiguration.parseAndMigrate c'.intoValue = .ok (c', false) ∧
        c'.metadata = c.metadata) ∧
    ∀ r r' inp metadata response, apply r inp (.replaceMetadata metadata) = .ok (response, r') →
      ∃ (c : PersistedConfiguration) (m : Bool),
        PersistedConfiguration.parseAndMigrate r.configuration = .ok (c, m) ∧
        r' = r.withConfiguration { c with metadata }.intoValue ∧
        PersistedConfiguration.parseAndMigrate { c with metadata }.intoValue =
          .ok ({ c with metadata }, false) := by
  refine ⟨fun v c m h => ?_, fun v c m h => ?_, fun stored stored' h other => ?_,
    fun key expected owner thread now r stored' caller caller' hs hc => ?_,
    fun r r' inp v response c m h hc => ?_, fun r r' inp metadata response h => ?_⟩
  · exact PersistedConfiguration.parse_intoValue (PersistedConfiguration.parseAndMigrate_wellFormed h)
  · cases v with
    | object root =>
      obtain ⟨version, hv, hmeans, hm⟩ := PersistedConfiguration.parse_means h
      exact ⟨root, version, rfl, hv, hmeans, hm⟩
    | _ => cases h
  · exact ⟨attachMatches_stored h other, attachMatches_caller h other⟩
  · rw [attachReplacement_caller hc, attachReplacement_caller hc]
    exact ⟨rfl, attachReplacement_stored hs key expected caller owner thread now⟩
  · obtain ⟨c', hr, hwell, hmetadata, -⟩ := apply_replace_metadata h (parseVersioned_of_parse hc)
    exact ⟨c', hr, PersistedConfiguration.parse_intoValue hwell, hmetadata⟩
  · obtain ⟨c, m, hc, hr, -⟩ := apply_replaceMetadata_keeps h
    have hwell := PersistedConfiguration.parseAndMigrate_wellFormed hc
    exact ⟨c, m, hc, hr, PersistedConfiguration.parse_intoValue
      ⟨hwell.defaults, hwell.identity, hwell.metadata⟩⟩

end

namespace Sample

/-- A compact version-1 configuration. -/
def compact : JsonMap :=
  [("metadata", .object [("label", .string "mine")]), ("model", .string "large"),
   ("version", .number (.int 1))]

/-- What it stands for. -/
def compacted : PersistedConfiguration :=
  ⟨[("model", .string "large")], .object [], [("label", .string "mine")], false⟩

theorem compact_parsed :
    @PersistedConfiguration.parseAndMigrate external (.object compact) = .ok (compacted, true) := rfl

theorem compact_normalized :
    @normalizeNewConfiguration external (.object compact) = .ok compacted.intoValue := rfl

/-- The sample session with that configuration, detached. -/
def configured : SessionRecord :=
  { record with
    owner := none, threadId := none, detachedSinceMs := some 7, configuration := .object compact }

end Sample

/-- The compact configuration parses back, means what it says, matches itself once migrated, and keeps
its metadata when it is replaced and the rest when its metadata is. -/
theorem configuration_migration_sample :
    @PersistedConfiguration.parseAndMigrate Sample.external Sample.compacted.intoValue =
      .ok (Sample.compacted, false) ∧
    (∃ version, PersistedConfiguration.Means Sample.compact version Sample.compacted) ∧
    @attachMatches Sample.external Sample.compacted.intoValue (.object Sample.compact) = .ok true ∧
    (∃ new, @attachReplacement Sample.external Sample.key 1 Sample.compacted.intoValue "owner" "fresh" 9
      (some Sample.configured) = .ok new) ∧
    (∃ (r' : SessionRecord) (c' : PersistedConfiguration), @apply Sample.external Sample.configured Sample.inputs
      (.replace (.object Sample.compact)) = .ok (.unit, r') ∧
      r' = Sample.configured.withConfiguration c'.intoValue ∧
      c'.metadata = Sample.compacted.metadata) ∧
    ∃ r', @apply Sample.external Sample.configured Sample.inputs (.replaceMetadata []) =
        .ok (.metadata [], r') ∧
      r' = Sample.configured.withConfiguration { Sample.compacted with metadata := [] }.intoValue := by
  obtain ⟨hback, hmeans, hmatches, hattach, hreplace, hmetadata⟩ :=
    @configuration_migration Sample.external
  have hreplaced : @apply Sample.external Sample.configured Sample.inputs
      (.replace (.object Sample.compact)) = .ok (.unit, _) := rfl
  have hrelabelled : @apply Sample.external Sample.configured Sample.inputs (.replaceMetadata []) =
      .ok (.metadata [], _) := rfl
  refine ⟨hback _ _ _ Sample.compact_parsed, ?_, ?_, ?_, ?_, ?_⟩
  · obtain ⟨root, version, hroot, -, hmean, -⟩ := hmeans _ _ _ Sample.compact_parsed
    cases hroot
    exact ⟨version, hmean⟩
  · exact ((hmatches _ _ Sample.compact_normalized _).1).trans rfl
  · exact ⟨_, ((hattach Sample.key 1 "owner" "fresh" 9 Sample.configured _ _ _
      Sample.compact_normalized Sample.compact_normalized).1).trans rfl⟩
  · obtain ⟨c', hr, -, hkept⟩ := hreplace _ _ _ _ _ _ _ hreplaced Sample.compact_parsed
    exact ⟨_, c', hreplaced, hr, hkept⟩
  · obtain ⟨c, m, hc, hr, -⟩ := hmetadata _ _ _ _ _ hrelabelled
    rw [show Sample.configured.configuration = .object Sample.compact from rfl,
      Sample.compact_parsed] at hc
    cases hc
    exact ⟨_, hrelabelled, hr⟩

end Whale
