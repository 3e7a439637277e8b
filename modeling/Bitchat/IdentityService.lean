import Bitchat.StringHelper
import Bitchat.TransitionSystem
import Mathlib.Data.List.AList

/-!
# The identity service

`IdentityService` keeps what is known about other users: the social identities by
fingerprint, an index of their nicknames, the verified fingerprints, and the sessions and
pending actions by peer. All of it is in memory; loading and saving are not implemented.
`now` is a reading of the system clock.
-/

namespace Bitchat

open StringHelper

inductive TrustLevel where
  | unknown
  | casual
  | trusted
  | verified
  deriving DecidableEq, Repr

inductive HandshakeState where
  | none
  | initiated
  | inProgress
  | completed
  | failed
  deriving DecidableEq, Repr

structure EphemeralIdentity where
  peerID : Bytes
  sessionStart : ℕ
  handshakeState : HandshakeState
  fingerprint : Bytes := []
  failureReason : Bytes := []
  deriving DecidableEq, Repr

structure SocialIdentity where
  fingerprint : Bytes
  localPetname : Bytes
  claimedNickname : Bytes
  trustLevel : TrustLevel
  isFavorite : Bool
  isBlocked : Bool
  notes : Bytes
  deriving DecidableEq, Repr

structure IdentityCache where
  socialIdentities : AList (fun _ : Bytes => SocialIdentity) := ∅
  nicknameIndex : AList (fun _ : Bytes => List Bytes) := ∅
  verifiedFingerprints : List Bytes := []
  lastInteractions : AList (fun _ : Bytes => ℕ) := ∅

inductive IdentityHint where
  | unknown
  | likelyKnown
  | ambiguous
  | verified
  deriving DecidableEq, Repr

structure PendingActions where
  toggleFavorite : Option Bool := none
  setTrustLevel : TrustLevel := .unknown
  setPetname : Bytes := []
  deriving DecidableEq, Repr

/-- An unset action leaves the identity as it is. -/
def PendingActions.apply (actions : PendingActions) (identity : SocialIdentity) :
    SocialIdentity :=
  let identity := match actions.toggleFavorite with
    | some isFavorite => { identity with isFavorite }
    | none => identity
  let identity := if actions.setTrustLevel ≠ .unknown then
      { identity with trustLevel := actions.setTrustLevel }
    else identity
  if !actions.setPetname.isEmpty then { identity with localPetname := actions.setPetname }
  else identity

theorem PendingActions.apply_eq (actions : PendingActions) (identity : SocialIdentity) :
    actions.apply identity = { identity with
      isFavorite := actions.toggleFavorite.getD identity.isFavorite
      trustLevel := if actions.setTrustLevel ≠ .unknown then actions.setTrustLevel
        else identity.trustLevel
      localPetname := if !actions.setPetname.isEmpty then actions.setPetname
        else identity.localPetname } := by
  obtain ⟨toggleFavorite, setTrustLevel, setPetname⟩ := actions
  rw [PendingActions.apply]
  cases toggleFavorite with
  | none => split_ifs <;> rfl
  | some isFavorite => split_ifs <;> rfl

structure IdentityService where
  ephemeralSessions : AList (fun _ : Bytes => EphemeralIdentity) := ∅
  cache : IdentityCache := {}
  pendingActions : AList (fun _ : Bytes => PendingActions) := ∅

namespace IdentityService

/-- The peer ID is not looked at. -/
def resolveIdentity (service : IdentityService) (_peerID claimedNickname : Bytes) :
    IdentityHint :=
  match service.cache.nicknameIndex.lookup claimedNickname with
  | some fingerprints => if fingerprints.length = 1 then .likelyKnown else .ambiguous
  | none => .unknown

def getSocialIdentity (service : IdentityService) (fingerprint : Bytes) : Option SocialIdentity :=
  service.cache.socialIdentities.lookup fingerprint

def storeSocialIdentity (service : IdentityService) (fingerprint : Bytes)
    (identity : SocialIdentity) : IdentityService :=
  { service with
    cache.socialIdentities := service.cache.socialIdentities.insert fingerprint identity }

def removeFromIndex (index : AList fun _ : Bytes => List Bytes) (nickname fingerprint : Bytes) :
    AList fun _ : Bytes => List Bytes :=
  match index.lookup nickname with
  | none => index
  | some fingerprints =>
      let fingerprints := fingerprints.filter fun f => f ≠ fingerprint
      if fingerprints.isEmpty then index.erase nickname else index.insert nickname fingerprints

def addToIndex (index : AList fun _ : Bytes => List Bytes) (nickname fingerprint : Bytes) :
    AList fun _ : Bytes => List Bytes :=
  index.insert nickname ((index.lookup nickname).getD [] ++ [fingerprint])

/-- The old nickname is looked up when the identity has been stored already. -/
def updateSocialIdentity (service : IdentityService) (identity : SocialIdentity) :
    IdentityService :=
  let service := service.storeSocialIdentity identity.fingerprint identity
  let index := match service.cache.socialIdentities.lookup identity.fingerprint with
    | none => service.cache.nicknameIndex
    | some existing =>
        let oldNickname := existing.claimedNickname
        if oldNickname ≠ identity.claimedNickname then
          removeFromIndex service.cache.nicknameIndex oldNickname identity.fingerprint
        else service.cache.nicknameIndex
  { service with
    cache.nicknameIndex := addToIndex index identity.claimedNickname identity.fingerprint }

/-- The identity that is made for a fingerprint nothing is known about. -/
def newIdentity (fingerprint : Bytes) : SocialIdentity where
  fingerprint
  localPetname := []
  claimedNickname := ascii "Unknown"
  trustLevel := .unknown
  isFavorite := false
  isBlocked := false
  notes := []

def setFavorite (service : IdentityService) (fingerprint : Bytes) (isFavorite : Bool) :
    IdentityService :=
  match service.getSocialIdentity fingerprint with
  | some identity => service.storeSocialIdentity fingerprint { identity with isFavorite }
  | none => service.storeSocialIdentity fingerprint { newIdentity fingerprint with isFavorite }

def isFavorite (service : IdentityService) (fingerprint : Bytes) : Bool :=
  match service.getSocialIdentity fingerprint with
  | some identity => identity.isFavorite
  | none => false

def isBlocked (service : IdentityService) (fingerprint : Bytes) : Bool :=
  match service.getSocialIdentity fingerprint with
  | some identity => identity.isBlocked
  | none => false

def setBlocked (service : IdentityService) (fingerprint : Bytes) (isBlocked : Bool) :
    IdentityService :=
  match service.getSocialIdentity fingerprint with
  | some identity =>
      let identity := { identity with isBlocked }
      let identity := if isBlocked then { identity with isFavorite := false } else identity
      service.storeSocialIdentity fingerprint identity
  | none => service.storeSocialIdentity fingerprint { newIdentity fingerprint with isBlocked }

def registerEphemeralSession (service : IdentityService) (peerID : Bytes)
    (handshakeState : HandshakeState) (now : ℕ) : IdentityService :=
  let identity := { peerID, sessionStart := now, handshakeState }
  { service with ephemeralSessions := service.ephemeralSessions.insert peerID identity }

def updateHandshakeState (service : IdentityService) (peerID : Bytes) (state : HandshakeState)
    (fingerprint failureReason : Bytes) (now : ℕ) : IdentityService :=
  match service.ephemeralSessions.lookup peerID with
  | none => service
  | some session =>
      let session := { session with handshakeState := state }
      if state = .completed then
        let session := { session with fingerprint }
        { service with
          ephemeralSessions := service.ephemeralSessions.insert peerID session
          cache.lastInteractions := service.cache.lastInteractions.insert fingerprint now }
      else if state = .failed then
        let session := { session with failureReason }
        { service with ephemeralSessions := service.ephemeralSessions.insert peerID session }
      else { service with ephemeralSessions := service.ephemeralSessions.insert peerID session }

def removeEphemeralSession (service : IdentityService) (peerID : Bytes) : IdentityService :=
  { service with
    ephemeralSessions := service.ephemeralSessions.erase peerID
    pendingActions := service.pendingActions.erase peerID }

def setPendingAction (service : IdentityService) (peerID : Bytes) (action : PendingActions) :
    IdentityService :=
  { service with pendingActions := service.pendingActions.insert peerID action }

def applyPendingActions (service : IdentityService) (peerID fingerprint : Bytes) :
    IdentityService :=
  match service.pendingActions.lookup peerID with
  | none => service
  | some actions =>
      let identity := (service.getSocialIdentity fingerprint).getD (newIdentity fingerprint)
      let service := service.storeSocialIdentity fingerprint (actions.apply identity)
      { service with pendingActions := service.pendingActions.erase peerID }

def updateVerified (fingerprints : List Bytes) (fingerprint : Bytes) (verified : Bool) :
    List Bytes :=
  if verified then
    if fingerprint ∈ fingerprints then fingerprints else fingerprints ++ [fingerprint]
  else fingerprints.filter fun f => f ≠ fingerprint

def setVerified (service : IdentityService) (fingerprint : Bytes) (verified : Bool) :
    IdentityService :=
  let fingerprints := updateVerified service.cache.verifiedFingerprints fingerprint verified
  let service := { service with cache.verifiedFingerprints := fingerprints }
  match service.getSocialIdentity fingerprint with
  | some identity =>
      let trustLevel := if verified then TrustLevel.verified else .casual
      service.storeSocialIdentity fingerprint { identity with trustLevel }
  | none => service

def isVerified (service : IdentityService) (fingerprint : Bytes) : Bool :=
  decide (fingerprint ∈ service.cache.verifiedFingerprints)

def clearAllIdentityData (_service : IdentityService) : IdentityService := {}

variable (service : IdentityService) (fingerprint : Bytes)

/-- What is known about a fingerprint, or what is made up for it. -/
def socialIdentity : SocialIdentity :=
  (service.getSocialIdentity fingerprint).getD (newIdentity fingerprint)

theorem isFavorite_eq :
    service.isFavorite fingerprint = (service.socialIdentity fingerprint).isFavorite := by
  rw [isFavorite, socialIdentity]
  cases service.getSocialIdentity fingerprint with
  | none => rfl
  | some identity => rfl

theorem isBlocked_eq :
    service.isBlocked fingerprint = (service.socialIdentity fingerprint).isBlocked := by
  rw [isBlocked, socialIdentity]
  cases service.getSocialIdentity fingerprint with
  | none => rfl
  | some identity => rfl

/-- Nothing is taken out of the index: the nickname that is looked up is the new one. -/
theorem updateSocialIdentity_eq (identity : SocialIdentity) :
    service.updateSocialIdentity identity =
      { service.storeSocialIdentity identity.fingerprint identity with
        cache.nicknameIndex := addToIndex service.cache.nicknameIndex identity.claimedNickname
          identity.fingerprint } := by
  rw [updateSocialIdentity, storeSocialIdentity]
  dsimp only
  rw [AList.lookup_insert]
  dsimp only
  rw [if_neg (not_not_intro rfl)]

theorem setFavorite_eq (isFavorite : Bool) : service.setFavorite fingerprint isFavorite =
    service.storeSocialIdentity fingerprint
      { service.socialIdentity fingerprint with isFavorite } := by
  rw [setFavorite, socialIdentity]
  cases service.getSocialIdentity fingerprint with
  | none => rfl
  | some identity => rfl

theorem setBlocked_eq (isBlocked : Bool) : service.setBlocked fingerprint isBlocked =
    service.storeSocialIdentity fingerprint
      { service.socialIdentity fingerprint with
        isBlocked
        isFavorite := !isBlocked && (service.socialIdentity fingerprint).isFavorite } := by
  rw [setBlocked, socialIdentity]
  cases service.getSocialIdentity fingerprint with
  | none =>
      cases isBlocked with
      | false => rfl
      | true => rfl
  | some identity =>
      cases isBlocked with
      | false => rfl
      | true => rfl

theorem applyPendingActions_eq {peerID : Bytes} {actions : PendingActions}
    (h : service.pendingActions.lookup peerID = some actions) :
    service.applyPendingActions peerID fingerprint =
      { service.storeSocialIdentity fingerprint
          (actions.apply (service.socialIdentity fingerprint)) with
        pendingActions := service.pendingActions.erase peerID } := by
  rw [applyPendingActions, h]
  rfl

theorem setVerified_of_some {identity : SocialIdentity}
    (h : service.getSocialIdentity fingerprint = some identity) (verified : Bool) :
    service.setVerified fingerprint verified =
      { service.storeSocialIdentity fingerprint
          { identity with trustLevel := if verified then .verified else .casual } with
        cache.verifiedFingerprints :=
          updateVerified service.cache.verifiedFingerprints fingerprint verified } := by
  rw [getSocialIdentity] at h
  rw [setVerified, getSocialIdentity]
  dsimp only
  rw [h]
  rfl

theorem setVerified_of_none (h : service.getSocialIdentity fingerprint = none) (verified : Bool) :
    service.setVerified fingerprint verified =
      { service with cache.verifiedFingerprints :=
          updateVerified service.cache.verifiedFingerprints fingerprint verified } := by
  rw [getSocialIdentity] at h
  rw [setVerified, getSocialIdentity]
  dsimp only
  rw [h]

theorem exists_updateHandshakeState_eq (peerID : Bytes) (state : HandshakeState)
    (failureReason : Bytes) (now : ℕ) : ∃ ephemeralSessions lastInteractions,
      service.updateHandshakeState peerID state fingerprint failureReason now =
        { service with ephemeralSessions, cache.lastInteractions := lastInteractions } := by
  rw [updateHandshakeState]
  cases service.ephemeralSessions.lookup peerID with
  | none => exact ⟨_, _, rfl⟩
  | some session =>
      dsimp only
      split_ifs
      · exact ⟨_, _, rfl⟩
      · exact ⟨_, _, rfl⟩
      · exact ⟨_, _, rfl⟩

end IdentityService

inductive IdentityCall where
  | updateSocialIdentity (identity : SocialIdentity)
  | setFavorite (fingerprint : Bytes) (isFavorite : Bool)
  | setBlocked (fingerprint : Bytes) (isBlocked : Bool)
  | registerEphemeralSession (peerID : Bytes) (handshakeState : HandshakeState) (now : ℕ)
  | updateHandshakeState (peerID : Bytes) (state : HandshakeState)
      (fingerprint failureReason : Bytes) (now : ℕ)
  | setPendingAction (peerID : Bytes) (action : PendingActions)
  | applyPendingActions (peerID fingerprint : Bytes)
  | setVerified (fingerprint : Bytes) (verified : Bool)
  | removeEphemeralSession (peerID : Bytes)
  | clearAllIdentityData

namespace IdentityService

def perform (service : IdentityService) : IdentityCall → IdentityService
  | .updateSocialIdentity identity => service.updateSocialIdentity identity
  | .setFavorite fingerprint isFavorite => service.setFavorite fingerprint isFavorite
  | .setBlocked fingerprint isBlocked => service.setBlocked fingerprint isBlocked
  | .registerEphemeralSession peerID handshakeState now =>
      service.registerEphemeralSession peerID handshakeState now
  | .updateHandshakeState peerID state fingerprint failureReason now =>
      service.updateHandshakeState peerID state fingerprint failureReason now
  | .setPendingAction peerID action => service.setPendingAction peerID action
  | .applyPendingActions peerID fingerprint => service.applyPendingActions peerID fingerprint
  | .setVerified fingerprint verified => service.setVerified fingerprint verified
  | .removeEphemeralSession peerID => service.removeEphemeralSession peerID
  | .clearAllIdentityData => service.clearAllIdentityData

/-- The service accepts every call in every state. -/
def calls : TransitionSystem IdentityService IdentityCall where
  Enabled _ _ := True
  next := perform

theorem execution_calls (service : IdentityService) (actions : List IdentityCall) :
    calls.Execution service actions :=
  TransitionSystem.execution_of_enabled (fun _ _ => trivial) service actions

/-- The identity that a call stores, under its fingerprint. -/
def stored (service : IdentityService) : IdentityCall → Option (Bytes × SocialIdentity)
  | .updateSocialIdentity identity => some (identity.fingerprint, identity)
  | .setFavorite fingerprint isFavorite =>
      some (fingerprint, { service.socialIdentity fingerprint with isFavorite })
  | .setBlocked fingerprint isBlocked =>
      let identity := service.socialIdentity fingerprint
      some (fingerprint,
        { identity with isBlocked, isFavorite := !isBlocked && identity.isFavorite })
  | .applyPendingActions peerID fingerprint =>
      (service.pendingActions.lookup peerID).map fun actions =>
        (fingerprint, actions.apply (service.socialIdentity fingerprint))
  | .setVerified fingerprint verified =>
      (service.getSocialIdentity fingerprint).map fun identity =>
        (fingerprint, { identity with trustLevel := if verified then .verified else .casual })
  | _ => none

/-- What a call other than clearing does to the tables: it stores one identity or none, only
saved identities enter the index, only `setVerified` changes who is verified, and three kinds
of calls change sessions. -/
theorem tables_perform (service : IdentityService) {call : IdentityCall}
    (hclear : call ≠ .clearAllIdentityData) :
    ((service.perform call).cache.socialIdentities = match service.stored call with
      | some (fingerprint, identity) =>
          service.cache.socialIdentities.insert fingerprint identity
      | none => service.cache.socialIdentities) ∧
    ((service.perform call).cache.nicknameIndex = match call with
      | .updateSocialIdentity identity => addToIndex service.cache.nicknameIndex
          identity.claimedNickname identity.fingerprint
      | _ => service.cache.nicknameIndex) ∧
    ((service.perform call).cache.verifiedFingerprints = match call with
      | .setVerified fingerprint verified =>
          updateVerified service.cache.verifiedFingerprints fingerprint verified
      | _ => service.cache.verifiedFingerprints) ∧
    (service.perform call).ephemeralSessions = match call with
      | .registerEphemeralSession peerID handshakeState now =>
          service.ephemeralSessions.insert peerID { peerID, sessionStart := now, handshakeState }
      | .updateHandshakeState peerID state fingerprint failureReason now =>
          (service.updateHandshakeState peerID state fingerprint failureReason now
            ).ephemeralSessions
      | .removeEphemeralSession peerID => service.ephemeralSessions.erase peerID
      | _ => service.ephemeralSessions := by
  cases call with
  | updateSocialIdentity identity =>
      rw [perform, updateSocialIdentity_eq]
      exact ⟨rfl, rfl, rfl, rfl⟩
  | setFavorite fingerprint isFavorite =>
      rw [perform, setFavorite_eq]
      exact ⟨rfl, rfl, rfl, rfl⟩
  | setBlocked fingerprint isBlocked =>
      rw [perform, setBlocked_eq]
      exact ⟨rfl, rfl, rfl, rfl⟩
  | registerEphemeralSession peerID handshakeState now => exact ⟨rfl, rfl, rfl, rfl⟩
  | updateHandshakeState peerID state fingerprint failureReason now =>
      obtain ⟨ephemeralSessions, lastInteractions, heq⟩ :=
        service.exists_updateHandshakeState_eq fingerprint peerID state failureReason now
      rw [perform]
      dsimp only
      rw [heq]
      exact ⟨rfl, rfl, rfl, rfl⟩
  | setPendingAction peerID action => exact ⟨rfl, rfl, rfl, rfl⟩
  | applyPendingActions peerID fingerprint =>
      rw [perform, stored]
      cases hactions : service.pendingActions.lookup peerID with
      | none =>
          rw [applyPendingActions, hactions]
          exact ⟨rfl, rfl, rfl, rfl⟩
      | some actions =>
          rw [applyPendingActions_eq service fingerprint hactions]
          exact ⟨rfl, rfl, rfl, rfl⟩
  | setVerified fingerprint verified =>
      rw [perform, stored]
      cases hidentity : service.getSocialIdentity fingerprint with
      | none =>
          rw [setVerified_of_none service fingerprint hidentity]
          exact ⟨rfl, rfl, rfl, rfl⟩
      | some identity =>
          rw [setVerified_of_some service fingerprint hidentity]
          exact ⟨rfl, rfl, rfl, rfl⟩
  | removeEphemeralSession peerID => exact ⟨rfl, rfl, rfl, rfl⟩
  | clearAllIdentityData => exact (hclear rfl).elim

theorem nicknameIndex_perform (service : IdentityService) {call : IdentityCall}
    (hclear : call ≠ .clearAllIdentityData)
    (hupdate : ∀ identity, call ≠ .updateSocialIdentity identity) :
    (service.perform call).cache.nicknameIndex = service.cache.nicknameIndex := by
  rw [(service.tables_perform hclear).2.1]
  cases call with
  | updateSocialIdentity identity => exact (hupdate identity rfl).elim
  | _ => rfl

theorem verifiedFingerprints_perform (service : IdentityService) {call : IdentityCall}
    (hclear : call ≠ .clearAllIdentityData)
    (hverify : ∀ fingerprint verified, call ≠ .setVerified fingerprint verified) :
    (service.perform call).cache.verifiedFingerprints = service.cache.verifiedFingerprints := by
  rw [(service.tables_perform hclear).2.2.1]
  cases call with
  | setVerified fingerprint verified => exact (hverify _ _ rfl).elim
  | _ => rfl

end IdentityService

end Bitchat
