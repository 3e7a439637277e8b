import Bitchat.IdentityService

/-!
# Verification and trust

That a fingerprint is verified is kept in a list and, once there is an identity for it, in
the trust level of that identity. `setVerified` writes both. An identity that is made after
the verification starts as unknown, and a pending trust level goes to the identity only.
-/

namespace Bitchat.IdentityService

def TrustAgrees (service : IdentityService) : Prop :=
  ∀ fingerprint identity, service.getSocialIdentity fingerprint = some identity →
    (service.isVerified fingerprint = true ↔ identity.trustLevel = .verified)

/-- The calls that write one of the two places and leave the other behind. -/
def SplitsTrust (service : IdentityService) : IdentityCall → Prop
  | .updateSocialIdentity identity =>
      ¬ (service.isVerified identity.fingerprint = true ↔ identity.trustLevel = .verified)
  | .setFavorite fingerprint _ =>
      service.getSocialIdentity fingerprint = none ∧ service.isVerified fingerprint = true
  | .setBlocked fingerprint _ =>
      service.getSocialIdentity fingerprint = none ∧ service.isVerified fingerprint = true
  | .applyPendingActions peerID fingerprint =>
      ∃ actions, service.pendingActions.lookup peerID = some actions ∧
        if actions.setTrustLevel = .unknown then
          service.getSocialIdentity fingerprint = none ∧ service.isVerified fingerprint = true
        else ¬ (service.isVerified fingerprint = true ↔ actions.setTrustLevel = .verified)
  | _ => False

theorem mem_updateVerified {fingerprints : List Bytes} {fingerprint other : Bytes}
    {verified : Bool} : other ∈ updateVerified fingerprints fingerprint verified ↔
      if other = fingerprint then verified = true else other ∈ fingerprints := by
  rw [updateVerified]
  by_cases hother : other = fingerprint
  · rw [if_pos hother, hother]
    cases verified with
    | false => simp
    | true =>
        rw [if_pos rfl]
        split_ifs with hmem
        · exact iff_of_true hmem rfl
        · simp
  · rw [if_neg hother]
    cases verified with
    | false => simp [hother]
    | true =>
        rw [if_pos rfl]
        split_ifs with hmem
        · exact Iff.rfl
        · simp [hother]

variable {service service' : IdentityService}

theorem isVerified_congr
    (hverified : service'.cache.verifiedFingerprints = service.cache.verifiedFingerprints)
    (fingerprint : Bytes) : service'.isVerified fingerprint = service.isVerified fingerprint := by
  rw [isVerified, hverified, isVerified]

theorem trustAgrees_store_iff (hagrees : service.TrustAgrees) {fingerprint : Bytes}
    {identity : SocialIdentity}
    (hverified : service'.cache.verifiedFingerprints = service.cache.verifiedFingerprints)
    (hstored : service'.cache.socialIdentities =
      service.cache.socialIdentities.insert fingerprint identity) :
    service'.TrustAgrees ↔
      (service.isVerified fingerprint = true ↔ identity.trustLevel = .verified) := by
  have hown : service'.getSocialIdentity fingerprint = some identity := by
    rw [getSocialIdentity, hstored, AList.lookup_insert]
  constructor
  · intro h
    rw [← isVerified_congr hverified]
    exact h fingerprint identity hown
  · intro h other found hfound
    rw [isVerified_congr hverified]
    by_cases hother : other = fingerprint
    · rw [hother, hown] at hfound
      obtain rfl := Option.some.inj hfound
      rw [hother]
      exact h
    · rw [getSocialIdentity, hstored, AList.lookup_insert_ne hother] at hfound
      exact hagrees other found hfound

theorem trustAgrees_of_stored_iff (hagrees : service.TrustAgrees) {call : IdentityCall}
    (hclear : call ≠ .clearAllIdentityData)
    (hverify : ∀ fingerprint verified, call ≠ .setVerified fingerprint verified) :
    (service.perform call).TrustAgrees ↔ ∀ entry ∈ service.stored call,
      (service.isVerified entry.1 = true ↔ entry.2.trustLevel = .verified) := by
  have hstored := (service.tables_perform hclear).1
  have hverified := service.verifiedFingerprints_perform hclear hverify
  cases hentry : service.stored call with
  | none =>
      rw [hentry] at hstored
      refine iff_of_true (fun fingerprint identity hidentity => ?_) (by simp)
      rw [getSocialIdentity, hstored] at hidentity
      rw [isVerified_congr hverified]
      exact hagrees fingerprint identity hidentity
  | some entry =>
      rw [hentry] at hstored
      rw [trustAgrees_store_iff hagrees hverified hstored]
      simp

theorem trustAgrees_setVerified (hagrees : service.TrustAgrees) (fingerprint : Bytes)
    (verified : Bool) : (service.setVerified fingerprint verified).TrustAgrees := by
  intro other found hfound
  cases hidentity : service.getSocialIdentity fingerprint with
  | none =>
      rw [setVerified_of_none service fingerprint hidentity] at hfound ⊢
      have hother : other ≠ fingerprint := by
        rintro rfl
        exact Option.some_ne_none _ (hfound.symm.trans hidentity)
      rw [isVerified, decide_eq_true_iff, mem_updateVerified, if_neg hother]
      rw [← hagrees other found hfound, isVerified, decide_eq_true_iff]
  | some identity =>
      rw [setVerified_of_some service fingerprint hidentity] at hfound ⊢
      rw [isVerified, decide_eq_true_iff, mem_updateVerified]
      by_cases hother : other = fingerprint
      · subst hother
        rw [getSocialIdentity, storeSocialIdentity, AList.lookup_insert] at hfound
        obtain rfl := Option.some.inj hfound
        rw [if_pos rfl]
        cases verified with
        | false => simp
        | true => simp
      · rw [getSocialIdentity, storeSocialIdentity, AList.lookup_insert_ne hother] at hfound
        rw [if_neg hother, ← hagrees other found hfound, isVerified, decide_eq_true_iff]

/-- A flag of a known identity can be set, one of an unknown identity if it is not verified. -/
theorem socialIdentity_agrees_iff (hagrees : service.TrustAgrees) (fingerprint : Bytes) :
    (service.isVerified fingerprint = true ↔
        (service.socialIdentity fingerprint).trustLevel = .verified) ↔
      ¬ (service.getSocialIdentity fingerprint = none ∧
        service.isVerified fingerprint = true) := by
  rw [socialIdentity]
  cases hidentity : service.getSocialIdentity fingerprint with
  | none => simp [newIdentity]
  | some identity => simpa using hagrees fingerprint identity hidentity

theorem splitsTrust_iff (hagrees : service.TrustAgrees) (call : IdentityCall)
    (hverify : ∀ fingerprint verified, call ≠ .setVerified fingerprint verified) :
    (∀ entry ∈ service.stored call,
        (service.isVerified entry.1 = true ↔ entry.2.trustLevel = .verified)) ↔
      ¬ service.SplitsTrust call := by
  cases call with
  | updateSocialIdentity identity => simp [SplitsTrust, stored]
  | setFavorite fingerprint isFavorite =>
      rw [SplitsTrust, ← socialIdentity_agrees_iff hagrees]
      simp [stored]
  | setBlocked fingerprint isBlocked =>
      rw [SplitsTrust, ← socialIdentity_agrees_iff hagrees]
      simp [stored]
  | registerEphemeralSession peerID handshakeState now => simp [SplitsTrust, stored]
  | updateHandshakeState peerID state fingerprint failureReason now =>
      simp [SplitsTrust, stored]
  | setPendingAction peerID action => simp [SplitsTrust, stored]
  | applyPendingActions peerID fingerprint =>
      rw [SplitsTrust, stored]
      cases hactions : service.pendingActions.lookup peerID with
      | none => simp
      | some actions =>
          by_cases htrust : actions.setTrustLevel = .unknown
          · have hown := socialIdentity_agrees_iff hagrees fingerprint
            simpa [PendingActions.apply_eq, htrust] using hown
          · simp [PendingActions.apply_eq, htrust]
  | setVerified fingerprint verified => exact (hverify _ _ rfl).elim
  | removeEphemeralSession peerID => simp [SplitsTrust, stored]
  | clearAllIdentityData => simp [SplitsTrust, stored]

theorem trustAgrees_perform_iff (hagrees : service.TrustAgrees) (call : IdentityCall) :
    (service.perform call).TrustAgrees ↔ ¬ service.SplitsTrust call := by
  cases call with
  | setVerified fingerprint verified =>
      exact iff_of_true (trustAgrees_setVerified hagrees fingerprint verified) id
  | clearAllIdentityData =>
      refine iff_of_true (fun fingerprint identity hidentity => ?_) id
      exact (Option.some_ne_none _ hidentity.symm).elim
  | _ =>
      rw [trustAgrees_of_stored_iff hagrees (by simp) (by simp)]
      exact splitsTrust_iff hagrees _ (by simp)

/-- From the empty state on, list and trust levels agree exactly as long as no call writes
one of them only. -/
theorem trust_agrees_iff (actions : List IdentityCall) :
    calls.AllStates TrustAgrees {} actions ↔
      calls.AllSteps (fun service call => ¬ service.SplitsTrust call) {} actions := by
  have hstart : TrustAgrees {} := by
    intro fingerprint identity hidentity
    exact (Option.some_ne_none _ hidentity.symm).elim
  refine TransitionSystem.allStates_iff_allSteps (fun _ => id) ?_ ?_ (execution_calls _ actions)
    hstart
  · intro service call _ h hcall
    exact (trustAgrees_perform_iff h call).mpr hcall
  · intro service call _ h hcall hagrees
    exact (trustAgrees_perform_iff h call).mp hagrees hcall

/-- A verified user becomes a favorite and is stored as unknown. -/
theorem verified_unknown :
    ¬ calls.AllStates TrustAgrees {} [.setVerified [1] true, .setFavorite [1] true] := by
  intro h
  have hstored := h.run [1] _ rfl
  revert hstored
  decide +kernel

end Bitchat.IdentityService
