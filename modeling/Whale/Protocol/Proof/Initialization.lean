import Whale.Protocol.Initialization

/-!
# What the checks of a bootstrap accept

`InitializeParams.validate_ok_iff` and `InitializeResult.validateFor_ok_iff` say it without the order of the checks,
and `InitializeResult.negotiate_ok_iff` is the answer of the protocol without the extensions of a daemon.
-/

namespace Whale

open Check

theorem validateCapabilities_ok_iff : ∀ {capabilities seen : List String},
    validateCapabilities seen capabilities = .ok () ↔
      (∀ c ∈ capabilities, validateName c "Capability name" = .ok ()) ∧ capabilities.Nodup ∧
        ∀ c ∈ capabilities, c ∉ seen
  | [], seen => by simp [validateCapabilities]
  | c :: cs, seen => by
    have ih := @validateCapabilities_ok_iff cs (c :: seen)
    simp only [validateCapabilities, List.mem_cons, forall_eq_or_imp, List.nodup_cons]
    constructor
    · intro h
      obtain ⟨_, hc, h⟩ := bind_ok h
      obtain ⟨hseen, h⟩ := refuse_bind_ok h
      obtain ⟨h1, h2, h3⟩ := ih.mp h
      refine ⟨⟨hc, h1⟩, ⟨fun hm => h3 c hm List.mem_cons_self, h2⟩, of_decide_eq_false hseen, fun d hd hm => ?_⟩
      exact h3 d hd (List.mem_cons_of_mem _ hm)
    · rintro ⟨⟨hc, h1⟩, ⟨hn, h2⟩, hseen, h3⟩
      rw [hc, ok_bind, refuse_bind_ok_iff]
      refine ⟨decide_eq_false hseen, ih.mpr ⟨h1, h2, fun d hd hm => ?_⟩⟩
      obtain rfl | hm := List.mem_cons.mp hm
      · exact hn hd
      · exact h3 d hd hm

/-- Any part of accepted names is accepted. -/
theorem validateCapabilities_sublist {cs ds : List String} (hs : ds.Sublist cs)
    (h : validateCapabilities [] cs = .ok ()) : validateCapabilities [] ds = .ok () := by
  obtain ⟨h1, h2, -⟩ := validateCapabilities_ok_iff.mp h
  exact validateCapabilities_ok_iff.mpr ⟨fun c hc => h1 c (hs.subset hc), h2.sublist hs, fun _ _ => List.not_mem_nil⟩

namespace InitializeParams

theorem validate_ok_iff {p : InitializeParams} : p.validate = .ok () ↔
    p.client.validate = .ok () ∧ p.protocolVersions ≠ [] ∧ (∀ v ∈ p.protocolVersions, v ≠ 0) ∧
      p.protocolVersions.Nodup ∧ validateCapabilities [] p.requiredCapabilities = .ok () := by
  unfold validate
  constructor
  · intro h
    obtain ⟨_, h1, h⟩ := bind_ok h
    obtain ⟨h2, h⟩ := refuse_bind_ok h
    obtain ⟨_, h3, h4⟩ := bind_ok h
    obtain ⟨h3, h5, -⟩ := distinct_ok_iff.mp h3
    refine ⟨h1, by simpa using h2, fun v hv => ?_, by simpa using h5, h4⟩
    simpa [refuse_ok_iff] using h3 v hv
  · rintro ⟨h1, h2, h3, h5, h4⟩
    have hv : validateVersions [] p.protocolVersions = .ok () :=
      distinct_ok_iff.mpr ⟨fun v hv => refuse_ok_iff.mpr (by simpa using h3 v hv), by simpa using h5,
        fun _ _ => List.not_mem_nil⟩
    rw [h1, ok_bind, refuse_bind_ok_iff]
    refine ⟨by simpa using h2, ?_⟩
    rw [hv, ok_bind, h4]

/-- Parameters that require less are valid too. -/
theorem validate_sublist {p : InitializeParams} {required : List String} (h : p.validate = .ok ())
    (hs : required.Sublist p.requiredCapabilities) :
    { p with requiredCapabilities := required }.validate = .ok () := by
  obtain ⟨h1, h2, h3, h4, h5⟩ := validate_ok_iff.mp h
  exact validate_ok_iff.mpr ⟨h1, h2, h3, h4, validateCapabilities_sublist hs h5⟩

end InitializeParams

namespace InitializeResult

/-- The only version of the protocol is chosen when it is offered. -/
theorem max_supported {versions : List Nat} {v : Nat} :
    (versions.filter supportedProtocolVersions.contains).max? = some v ↔
      v = Whale.protocolVersion ∧ Whale.protocolVersion ∈ versions := by
  have hsub : ∀ w ∈ versions.filter supportedProtocolVersions.contains, w = Whale.protocolVersion := by
    intro w hw
    simpa [supportedProtocolVersions] using (List.mem_filter.mp hw).2
  rw [List.max?_eq_some_iff]
  constructor
  · rintro ⟨hv, -⟩
    obtain rfl := hsub v hv
    exact ⟨rfl, (List.mem_filter.mp hv).1⟩
  · rintro ⟨rfl, hv⟩
    exact ⟨List.mem_filter.mpr ⟨hv, by simp [supportedProtocolVersions]⟩, fun w hw => (hsub w hw).le⟩

section
variable [DebugText]

theorem validateFor_ok_iff {r : InitializeResult} {p : InitializeParams} : r.validateFor p = .ok () ↔
    p.validate = .ok () ∧ r.server.validate = .ok () ∧ r.protocolVersion ∈ p.protocolVersions ∧
      validateCapabilities [] r.capabilities = .ok () ∧ p.requiredCapabilities ⊆ r.capabilities := by
  unfold validateFor
  constructor
  · intro h
    obtain ⟨_, h1, h⟩ := bind_ok h
    obtain ⟨_, h2, h⟩ := bind_ok h
    obtain ⟨h3, h⟩ := refuse_bind_ok h
    obtain ⟨_, h4, h5⟩ := bind_ok h
    refine ⟨h1, h2, ?_, h4, fun c hc => ?_⟩
    · simp only [Bool.or_eq_false_iff, Bool.not_eq_false'] at h3
      simpa using h3.2
    · have h5 := refuse_ok_iff.mp h5
      simp only [Bool.not_eq_false', List.isEmpty_iff, List.filter_eq_nil_iff] at h5
      simpa using h5 c hc
  · rintro ⟨h1, h2, h3, h4, h5⟩
    -- a version that a client offers is not 0
    have h0 := (InitializeParams.validate_ok_iff.mp h1).2.2.1 _ h3
    rw [h1, ok_bind, h2, ok_bind, refuse_bind_ok_iff]
    refine ⟨by simp [h0, h3], ?_⟩
    rw [h4, ok_bind, refuse_ok_iff, Bool.not_eq_false', List.isEmpty_iff, List.filter_eq_nil_iff]
    intro c hc
    simpa using h5 hc

theorem negotiate_ok_iff {p : InitializeParams} {server : PeerInfo} {r : InitializeResult} :
    negotiate p server = .ok r ↔ p.validate = .ok () ∧ server.validate = .ok () ∧
      Whale.protocolVersion ∈ p.protocolVersions ∧ p.requiredCapabilities ⊆ protocolCapabilities ∧
        r = ⟨server, Whale.protocolVersion, protocolCapabilities⟩ := by
  have hcaps : validateCapabilities [] protocolCapabilities = .ok () := by decide
  unfold negotiate
  constructor
  · intro h
    obtain ⟨_, h1, h⟩ := bind_ok h
    obtain ⟨_, h2, h⟩ := bind_ok h
    obtain ⟨v, hv, h⟩ := orElse_bind_ok h
    obtain ⟨rfl, hoffered⟩ := max_supported.mp hv
    obtain ⟨_, h3, h⟩ := bind_ok h
    exact ⟨h1, h2, hoffered, (validateFor_ok_iff.mp h3).2.2.2.2, (Except.ok.inj h).symm⟩
  · rintro ⟨h1, h2, h3, h4, rfl⟩
    have hfor : validateFor ⟨server, Whale.protocolVersion, protocolCapabilities⟩ p = .ok () :=
      validateFor_ok_iff.mpr ⟨h1, h2, h3, hcaps, h4⟩
    rw [h1, ok_bind, h2, ok_bind, max_supported.mpr ⟨rfl, h3⟩, orElse_some, ok_bind]
    simp only [hfor, ok_bind]

end

end InitializeResult

end Whale
