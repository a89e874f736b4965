import Whale.Store.Configuration

/-!
# Stored configurations keep parsing

A parsed configuration is well formed (`WellFormed`), and its version-3 value parses back to it
(`parse_intoValue`). Hence every configuration the runtime stores parses again (`Parses`), as a
version-3 one when it is versioned.
-/

namespace Whale

open Check

namespace PersistedConfiguration

section
variable [External]

/-- What every parser checks of the configuration it returns. -/
structure WellFormed (c : PersistedConfiguration) : Prop where
  defaults : validateRunDefaults c.runDefaults = .ok ()
  identity : validateSessionIdentity c.session = .ok ()
  metadata : JsonMap.containsKey c.session "metadata" = false

omit [External] in
theorem containsKey_remove (m : JsonMap) (key : String) :
    JsonMap.containsKey (JsonMap.remove m key) key = false := by
  simp [JsonMap.containsKey, JsonMap.remove]

omit [External] in
theorem takeMetadata_absent {session metadata session' : JsonMap}
    (h : takeMetadata session = .ok (metadata, session')) :
    JsonMap.containsKey session' "metadata" = false := by
  unfold takeMetadata at h
  split at h
  · cases h; exact containsKey_remove _ _
  · cases h
  · cases h; exact containsKey_remove _ _

theorem checkMembers_ok {v : String} {session root : JsonMap} {runDefaults : Value}
    (h : checkMembers v session runDefaults root = .ok ()) (metadata : JsonMap) (enabled : Bool) :
    WellFormed ⟨session, runDefaults, metadata, enabled⟩ := by
  obtain ⟨-, h⟩ := refuse_bind_ok h
  obtain ⟨_, hd, h⟩ := bind_ok h
  obtain ⟨_, hi, h⟩ := bind_ok h
  exact ⟨hd, hi, refuse_ok h⟩

theorem migrateV1_wellFormed {root : JsonMap} {c : PersistedConfiguration}
    (h : migrateV1 root = .ok c) : WellFormed c := by
  obtain ⟨⟨session, runDefaults⟩, -, h⟩ := bind_ok h
  obtain ⟨⟨metadata, session'⟩, hm, h⟩ := bind_ok h
  obtain ⟨_, hd, h⟩ := bind_ok h
  obtain ⟨_, hi, h⟩ := bind_ok h
  cases h
  exact ⟨hd, hi, takeMetadata_absent hm⟩

theorem parseV2_wellFormed {root : JsonMap} {c : PersistedConfiguration}
    (h : parseV2 root = .ok c) : WellFormed c := by
  obtain ⟨⟨session, runDefaults, metadata, rest⟩, -, h⟩ := bind_ok h
  obtain ⟨_, hc, h⟩ := bind_ok h
  cases h
  exact checkMembers_ok hc _ _

theorem parseV3_wellFormed {root : JsonMap} {c : PersistedConfiguration}
    (h : parseV3 root = .ok c) : WellFormed c := by
  obtain ⟨⟨session, runDefaults, metadata, rest⟩, -, h⟩ := bind_ok h
  obtain ⟨features, -, h⟩ := bind_ok h
  obtain ⟨enabled, -, h⟩ := orElse_bind_ok h
  obtain ⟨-, h⟩ := refuse_bind_ok h
  obtain ⟨_, hc, h⟩ := bind_ok h
  cases h
  exact checkMembers_ok hc _ _

omit [External] in
theorem map_ok {ε α β : Type} {x : Except ε α} {f : α → β} {b : β} (h : x.map f = .ok b) :
    ∃ a, x = .ok a ∧ b = f a := by
  cases x with
  | error e => cases h
  | ok a => cases h; exact ⟨a, rfl, rfl⟩

theorem parseAndMigrate_wellFormed {v : Value} {c : PersistedConfiguration} {m : Bool}
    (h : parseAndMigrate v = .ok (c, m)) : WellFormed c := by
  unfold parseAndMigrate at h
  split at h
  · obtain ⟨version, -, h⟩ := orElse_bind_ok h
    dsimp only at h
    split at h
    · obtain ⟨c', hc, he⟩ := map_ok h; cases he; exact migrateV1_wellFormed hc
    · obtain ⟨c', hc, he⟩ := map_ok h; cases he; exact parseV2_wellFormed hc
    · obtain ⟨c', hc, he⟩ := map_ok h; cases he; exact parseV3_wellFormed hc
    · cases h
  · cases h

/-- The stored value of a well-formed configuration parses back to it. -/
theorem parse_intoValue {c : PersistedConfiguration} (h : WellFormed c) :
    parseAndMigrate c.intoValue = .ok (c, false) := by
  have hc : checkMembers "V3" c.session c.runDefaults [] = .ok () := by
    simp [checkMembers, h.defaults, h.identity, h.metadata]
  obtain ⟨session, runDefaults, metadata, enabled⟩ := c
  have hv : parseV3 [("metadata", .object metadata), ("run_defaults", runDefaults),
      ("runtime_features", .object [("interactions_enabled", .bool enabled)]),
      ("session", .object session)] = .ok ⟨session, runDefaults, metadata, enabled⟩ := by
    show (checkMembers "V3" session runDefaults [] >>= fun _ => _) = _
    rw [hc]
    rfl
  exact congrArg (Except.map (·, false)) hv

/-- Only well-formed configurations have a value that parses. -/
theorem wellFormed_of_parse_intoValue {c c' : PersistedConfiguration} {m : Bool}
    (h : parseAndMigrate c.intoValue = .ok (c', m)) : c.WellFormed := by
  obtain ⟨session, runDefaults, metadata, enabled⟩ := c
  have h : ((checkMembers "V3" session runDefaults [] >>= fun _ =>
      .ok (⟨session, runDefaults, metadata, enabled⟩ : PersistedConfiguration)).map (·, false)) =
      .ok (c', m) := h
  obtain ⟨_, hparse, -⟩ := map_ok h
  obtain ⟨_, hc, -⟩ := bind_ok hparse
  exact checkMembers_ok hc _ _

end

end PersistedConfiguration

section
variable [External]

/-- A configuration is opaque or parses. -/
def Parses (configuration : Value) : Prop := ∃ c, parseVersionedConfiguration configuration = .ok c

theorem parseVersioned_some {v : Value} {c : PersistedConfiguration} {m : Bool}
    (h : parseVersionedConfiguration v = .ok (some (c, m))) : c.WellFormed := by
  unfold parseVersionedConfiguration at h
  split at h
  · cases h
  · obtain ⟨p, hp, he⟩ := PersistedConfiguration.map_ok h
    cases he
    exact PersistedConfiguration.parseAndMigrate_wellFormed hp

/-- A value that is accepted is versioned. -/
theorem parseVersioned_of_parse {v : Value} {c : PersistedConfiguration} {m : Bool}
    (h : PersistedConfiguration.parseAndMigrate v = .ok (c, m)) :
    parseVersionedConfiguration v = .ok (some (c, m)) := by
  unfold parseVersionedConfiguration
  cases hv : v.get "version" with
  | some version => rw [h]; rfl
  | none =>
    cases v with
    | object root =>
      have hv : JsonMap.get root "version" = none := hv
      simp [PersistedConfiguration.parseAndMigrate, hv] at h
    | _ => cases h

/-- A stored version-3 configuration needs no migration. -/
theorem parseVersioned_intoValue {c : PersistedConfiguration} (h : c.WellFormed) :
    parseVersionedConfiguration c.intoValue = .ok (some (c, false)) := by
  show (PersistedConfiguration.parseAndMigrate c.intoValue).map some = _
  rw [PersistedConfiguration.parse_intoValue h]
  rfl

theorem normalizeNew_ok {v v' : Value} (h : normalizeNewConfiguration v = .ok v') :
    Parses v' ∧ (v.isObject = true → v'.isObject = true) := by
  obtain ⟨p, hp, h⟩ := bind_ok h
  cases p with
  | none => cases h; exact ⟨⟨none, hp⟩, fun ho => ho⟩
  | some p =>
    obtain ⟨c, m⟩ := p
    cases h
    exact ⟨⟨_, parseVersioned_intoValue (parseVersioned_some hp)⟩, fun _ => rfl⟩

theorem normalizeReplacement_ok {current v v' : Value}
    (h : normalizeConfigurationReplacement current v = .ok v') :
    Parses v' ∧ (v.isObject = true → v'.isObject = true) := by
  obtain ⟨w, hw, h⟩ := bind_ok h
  obtain ⟨p, -, h⟩ := bind_ok h
  obtain ⟨q, -, h⟩ := bind_ok h
  suffices hwv : w = v' from hwv ▸ normalizeNew_ok hw
  split at h
  · obtain ⟨-, h⟩ := refuse_bind_ok h
    cases h; rfl
  · cases h
  · cases h; rfl

end

end Whale
