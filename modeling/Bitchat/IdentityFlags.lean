import Bitchat.IdentityService

/-!
# Favorites and blocked users

Blocking a user ends its being a favorite. The other calls that set the two flags do not
look at the one they leave alone.
-/

namespace Bitchat.IdentityService

def FlagsExclusive (service : IdentityService) : Prop :=
  ∀ fingerprint, ¬ (service.isFavorite fingerprint = true ∧ service.isBlocked fingerprint = true)

/-- The calls that make a favorite of a blocked user, at once or as a pending action, or save
an identity that is both. -/
def SetsBothFlags (service : IdentityService) : IdentityCall → Prop
  | .updateSocialIdentity identity => identity.isFavorite = true ∧ identity.isBlocked = true
  | .setFavorite fingerprint isFavorite =>
      isFavorite = true ∧ service.isBlocked fingerprint = true
  | .applyPendingActions peerID fingerprint =>
      (∃ actions, service.pendingActions.lookup peerID = some actions ∧
        actions.toggleFavorite = some true) ∧ service.isBlocked fingerprint = true
  | _ => False

variable {service service' : IdentityService}

theorem flagsExclusive_store_iff (hexclusive : service.FlagsExclusive) {fingerprint : Bytes}
    {identity : SocialIdentity}
    (hstored : service'.cache.socialIdentities =
      service.cache.socialIdentities.insert fingerprint identity) :
    service'.FlagsExclusive ↔ ¬ (identity.isFavorite = true ∧ identity.isBlocked = true) := by
  have hown : service'.getSocialIdentity fingerprint = some identity := by
    rw [getSocialIdentity, hstored, AList.lookup_insert]
  constructor
  · intro h hboth
    refine h fingerprint ?_
    rw [isFavorite, isBlocked, hown]
    exact hboth
  · intro h other
    rw [isFavorite, isBlocked]
    by_cases hother : other = fingerprint
    · rw [hother, hown]
      exact h
    · have hsame : service'.getSocialIdentity other = service.getSocialIdentity other := by
        rw [getSocialIdentity, hstored, AList.lookup_insert_ne hother, getSocialIdentity]
      rw [hsame]
      exact hexclusive other

theorem flagsExclusive_of_stored_iff (hexclusive : service.FlagsExclusive) (call : IdentityCall) :
    (service.perform call).FlagsExclusive ↔
      ∀ entry ∈ service.stored call, ¬ (entry.2.isFavorite = true ∧ entry.2.isBlocked = true) := by
  by_cases hclear : call = .clearAllIdentityData
  · subst hclear
    exact iff_of_true (fun _ h => Bool.false_ne_true h.1) (by simp [stored])
  · have hstored := (service.tables_perform hclear).1
    cases hentry : service.stored call with
    | none =>
        rw [hentry] at hstored
        refine iff_of_true (fun fingerprint => ?_) (by simp)
        rw [isFavorite, isBlocked, getSocialIdentity, hstored]
        exact hexclusive fingerprint
    | some entry =>
        rw [hentry] at hstored
        rw [flagsExclusive_store_iff hexclusive hstored]
        simp

theorem setsBothFlags_iff (hexclusive : service.FlagsExclusive) (call : IdentityCall) :
    service.SetsBothFlags call ↔
      ∃ entry ∈ service.stored call, entry.2.isFavorite = true ∧ entry.2.isBlocked = true := by
  cases call with
  | updateSocialIdentity identity => simp [SetsBothFlags, stored]
  | setFavorite fingerprint isFavorite => simp [SetsBothFlags, stored, isBlocked_eq]
  | setBlocked fingerprint isBlocked =>
      cases isBlocked with
      | false => simp [SetsBothFlags, stored]
      | true => simp [SetsBothFlags, stored]
  | registerEphemeralSession peerID handshakeState now => simp [SetsBothFlags, stored]
  | updateHandshakeState peerID state fingerprint failureReason now =>
      simp [SetsBothFlags, stored]
  | setPendingAction peerID action => simp [SetsBothFlags, stored]
  | applyPendingActions peerID fingerprint =>
      have hown := hexclusive fingerprint
      rw [isFavorite_eq, isBlocked_eq] at hown
      rw [SetsBothFlags, stored, isBlocked_eq]
      cases hactions : service.pendingActions.lookup peerID with
      | none => simp
      | some actions =>
          cases htoggle : actions.toggleFavorite with
          | none => simpa [PendingActions.apply_eq, htoggle] using hown
          | some isFavorite => simp [PendingActions.apply_eq, htoggle]
  | setVerified fingerprint verified =>
      have hown := hexclusive fingerprint
      rw [isFavorite, isBlocked] at hown
      cases hidentity : service.getSocialIdentity fingerprint with
      | none => simp [SetsBothFlags, stored, hidentity]
      | some identity =>
          rw [hidentity] at hown
          simpa [SetsBothFlags, stored, hidentity] using hown
  | removeEphemeralSession peerID => simp [SetsBothFlags, stored]
  | clearAllIdentityData => simp [SetsBothFlags, stored]

theorem flagsExclusive_perform_iff (hexclusive : service.FlagsExclusive) (call : IdentityCall) :
    (service.perform call).FlagsExclusive ↔ ¬ service.SetsBothFlags call := by
  rw [flagsExclusive_of_stored_iff hexclusive, setsBothFlags_iff hexclusive]
  push Not
  rfl

/-- From the empty state on, nobody is both exactly as long as no call makes somebody so. -/
theorem flags_exclusive_iff (actions : List IdentityCall) :
    calls.AllStates FlagsExclusive {} actions ↔
      calls.AllSteps (fun service call => ¬ service.SetsBothFlags call) {} actions := by
  have hstart : FlagsExclusive {} := fun _ h => Bool.false_ne_true h.1
  refine TransitionSystem.allStates_iff_allSteps (fun _ => id) ?_ ?_ (execution_calls _ actions)
    hstart
  · intro service call _ h hcall
    exact (flagsExclusive_perform_iff h call).mpr hcall
  · intro service call _ h hcall hexclusive
    exact (flagsExclusive_perform_iff h call).mp hexclusive hcall

/-- A blocked user is made a favorite. -/
theorem blocked_favorite :
    ¬ calls.AllStates FlagsExclusive {} [.setBlocked [1] true, .setFavorite [1] true] := by
  intro h
  refine h.run [1] ?_
  decide +kernel

end Bitchat.IdentityService
