import Bitchat.NoiseService

/-!
# Rekeying

Only established sessions are reported for a new handshake, `initiateRekey` insists on an
established session, and `startHandshake` refuses one. So the function fails on every peer
it is meant for.
-/

namespace Bitchat.NoiseService

open Effect

inductive NoiseCall where
  | createSession (peerID : Bytes) (role : NoiseRole)
  | removeSession (peerID : Bytes)
  | initiateHandshake (peerID : Bytes)
  | handleIncomingHandshake (peerID message localPeerID : Bytes)
  | encrypt (plaintext peerID : Bytes)
  | decrypt (ciphertext peerID : Bytes)
  | initiateRekey (peerID : Bytes)

/-- The table behind a call at the clock reading `now`, whether the call throws or not. -/
def NoiseCall.perform (now : ℕ) (service : NoiseService) : NoiseCall → NoiseService
  | .createSession peerID role => (NoiseService.createSession peerID role now).exec service
  | .removeSession peerID => service.removeSession peerID
  | .initiateHandshake peerID => (NoiseService.initiateHandshake peerID).exec service
  | .handleIncomingHandshake peerID message localPeerID =>
      (NoiseService.handleIncomingHandshake peerID message localPeerID now).exec service
  | .encrypt plaintext peerID => (NoiseService.encrypt plaintext peerID now).exec service
  | .decrypt ciphertext peerID => (NoiseService.decrypt ciphertext peerID now).exec service
  | .initiateRekey peerID => (NoiseService.initiateRekey peerID).exec service

/-- The table of a service after some calls, each at its own clock reading. -/
def performAll (calls : List (ℕ × NoiseCall)) (service : NoiseService) : NoiseService :=
  calls.foldl (fun service call => call.2.perform call.1 service) service

theorem exists_session_of_mem {service : NoiseService} {now : ℕ} {entry : Bytes × Bool}
    (h : entry ∈ service.getSessionsNeedingRekey now) :
    ∃ session, service.getSession entry.1 = some session ∧ session.sessionEstablished = true := by
  obtain ⟨⟨peerID, session⟩, hentry, rfl⟩ := List.mem_map.mp h
  obtain ⟨hmem, hneeds⟩ := List.mem_filter.mp hentry
  exact ⟨session, AList.mem_lookup_iff.mpr hmem, (Bool.and_eq_true_iff.mp hneeds).1⟩

theorem outcome_initiateRekey_of_established {service : NoiseService} {peerID : Bytes}
    {session : NoiseSessionDefault} (hsession : service.getSession peerID = some session)
    (h : session.sessionEstablished = true) :
    (initiateRekey peerID).outcome service = (.error alreadyEstablished, service) := by
  have hstart : (withSession peerID session NoiseSessionDefault.startHandshake).outcome service =
      (.error alreadyEstablished, service) := by
    rw [withSession, outcome_zoom, NoiseSessionDefault.startHandshake,
      outcome_completeHandshake_of_established h, putSession_self hsession]
  rw [initiateRekey, outcome_bind_ok (outcome_get service), hsession]
  dsimp only
  rw [if_neg (by simp [NoiseSessionDefault.isSessionEstablished, h]), outcome_bind_error hstart]

/-- Whatever has been called before, a peer that is reported for rekeying is refused, and
its session stays as it was. -/
theorem rekey_never_starts (service : NoiseService) (calls : List (ℕ × NoiseCall)) (now : ℕ)
    (entry : Bytes × Bool)
    (h : entry ∈ (performAll calls service).getSessionsNeedingRekey now) :
    (initiateRekey entry.1).outcome (performAll calls service) =
      (.error alreadyEstablished, performAll calls service) := by
  obtain ⟨session, hsession, hestablished⟩ := exists_session_of_mem h
  exact outcome_initiateRekey_of_established hsession hestablished

def dayOldCalls : List (ℕ × NoiseCall) :=
  [(0, .createSession (ascii "0807060504030201") .initiator),
    (0, .initiateHandshake (ascii "0807060504030201"))]

def freshService : NoiseService := { localStaticKey := Vector.replicate 32 7 }

/-- More than a day later it is reported, and rekeying throws. -/
theorem dayOld_not_rekeyed :
    ∃ entry ∈ (performAll dayOldCalls freshService).getSessionsNeedingRekey 86400000000001,
      (initiateRekey entry.1).result (performAll dayOldCalls freshService) ≠ .ok ⟨⟩ :=
  ⟨(ascii "0807060504030201", true), by decide +kernel, by decide +kernel⟩

theorem rekey_never_starts_dayOld :
    (initiateRekey (ascii "0807060504030201")).outcome (performAll dayOldCalls freshService) =
      (.error alreadyEstablished, performAll dayOldCalls freshService) :=
  rekey_never_starts freshService dayOldCalls 86400000000001
    (ascii "0807060504030201", true) (by decide +kernel)

end Bitchat.NoiseService
