import Bitchat.IdentityService

/-!
# Session records

A session has a fingerprint only once its handshake is completed and a reason only once it
has failed. A handshake may go from any state to any other, and what was written on the way
stays in the record.
-/

namespace Bitchat

structure EphemeralIdentity.FieldsMatch (session : EphemeralIdentity) : Prop where
  fingerprint : session.fingerprint ≠ [] → session.handshakeState = .completed
  failureReason : session.failureReason ≠ [] → session.handshakeState = .failed

namespace IdentityService

def SessionsMatch (service : IdentityService) : Prop :=
  ∀ peerID session, service.ephemeralSessions.lookup peerID = some session → session.FieldsMatch

/-- A completed handshake with a fingerprint, or a failed one with a reason, goes to another
state. -/
def LeavesFields (service : IdentityService) : IdentityCall → Prop
  | .updateHandshakeState peerID state _ _ _ =>
      ∃ session, service.ephemeralSessions.lookup peerID = some session ∧
        (session.fingerprint ≠ [] ∧ state ≠ .completed ∨
          session.failureReason ≠ [] ∧ state ≠ .failed)
  | _ => False

def updatedSession (session : EphemeralIdentity) (state : HandshakeState)
    (fingerprint failureReason : Bytes) : EphemeralIdentity :=
  { session with
    handshakeState := state
    fingerprint := if state = .completed then fingerprint else session.fingerprint
    failureReason := if state = .failed then failureReason else session.failureReason }

theorem fieldsMatch_updatedSession_iff (session : EphemeralIdentity) (state : HandshakeState)
    (fingerprint failureReason : Bytes) :
    (updatedSession session state fingerprint failureReason).FieldsMatch ↔
      ¬ (session.fingerprint ≠ [] ∧ state ≠ .completed ∨
        session.failureReason ≠ [] ∧ state ≠ .failed) := by
  rw [updatedSession]
  constructor
  · rintro ⟨hfingerprint, hfailureReason⟩ hleft
    dsimp only at hfingerprint hfailureReason
    rcases hleft with ⟨hold, hstate⟩ | ⟨hold, hstate⟩
    · rw [if_neg hstate] at hfingerprint
      exact hstate (hfingerprint hold)
    · rw [if_neg hstate] at hfailureReason
      exact hstate (hfailureReason hold)
  · intro hkept
    push Not at hkept
    obtain ⟨hfingerprint, hfailureReason⟩ := hkept
    constructor
    · dsimp only
      split_ifs with hstate
      · exact fun _ => hstate
      · exact hfingerprint
    · dsimp only
      split_ifs with hstate
      · exact fun _ => hstate
      · exact hfailureReason

variable {service service' : IdentityService}

theorem ephemeralSessions_updateHandshakeState {peerID : Bytes} {session : EphemeralIdentity}
    (hsession : service.ephemeralSessions.lookup peerID = some session) (state : HandshakeState)
    (fingerprint failureReason : Bytes) (now : ℕ) :
    (service.updateHandshakeState peerID state fingerprint failureReason now).ephemeralSessions =
      service.ephemeralSessions.insert peerID
        (updatedSession session state fingerprint failureReason) := by
  rw [updateHandshakeState, hsession]
  cases state with
  | _ => rfl

theorem sessionsMatch_insert_iff (hmatch : service.SessionsMatch) {peerID : Bytes}
    {session : EphemeralIdentity}
    (hstored : service'.ephemeralSessions = service.ephemeralSessions.insert peerID session) :
    service'.SessionsMatch ↔ session.FieldsMatch := by
  constructor
  · intro h
    apply h peerID session
    rw [hstored, AList.lookup_insert]
  · intro h other found hfound
    rw [hstored] at hfound
    by_cases hother : other = peerID
    · rw [hother, AList.lookup_insert] at hfound
      obtain rfl := Option.some.inj hfound
      exact h
    · rw [AList.lookup_insert_ne hother] at hfound
      exact hmatch other found hfound

theorem sessionsMatch_updateHandshakeState_iff (hmatch : service.SessionsMatch)
    (peerID : Bytes) (state : HandshakeState) (fingerprint failureReason : Bytes) (now : ℕ) :
    (service.updateHandshakeState peerID state fingerprint failureReason now).SessionsMatch ↔
      ¬ service.LeavesFields
        (.updateHandshakeState peerID state fingerprint failureReason now) := by
  rw [LeavesFields]
  cases hsession : service.ephemeralSessions.lookup peerID with
  | none =>
      have hsame : service.updateHandshakeState peerID state fingerprint failureReason now =
          service := by
        rw [updateHandshakeState, hsession]
      rw [hsame]
      exact iff_of_true hmatch (by simp)
  | some session =>
      have hstored := ephemeralSessions_updateHandshakeState hsession state fingerprint
        failureReason now
      rw [sessionsMatch_insert_iff hmatch hstored, fieldsMatch_updatedSession_iff]
      simp

theorem sessionsMatch_perform_iff (hmatch : service.SessionsMatch) (call : IdentityCall) :
    (service.perform call).SessionsMatch ↔ ¬ service.LeavesFields call := by
  cases call with
  | registerEphemeralSession peerID handshakeState now =>
      rw [sessionsMatch_insert_iff hmatch rfl]
      exact iff_of_true ⟨fun h => (h rfl).elim, fun h => (h rfl).elim⟩ id
  | updateHandshakeState peerID state fingerprint failureReason now =>
      exact sessionsMatch_updateHandshakeState_iff hmatch peerID state fingerprint failureReason
        now
  | removeEphemeralSession peerID =>
      refine iff_of_true (fun other session hsession => ?_) id
      change (service.ephemeralSessions.erase peerID).lookup other = some session at hsession
      by_cases hother : other = peerID
      · rw [hother, AList.lookup_erase] at hsession
        exact (Option.some_ne_none _ hsession.symm).elim
      · rw [AList.lookup_erase_ne hother] at hsession
        exact hmatch other session hsession
  | clearAllIdentityData =>
      refine iff_of_true (fun peerID session hsession => ?_) id
      exact (Option.some_ne_none _ hsession.symm).elim
  | _ =>
      refine iff_of_true (fun peerID session hsession => ?_) id
      rw [(service.tables_perform (by simp)).2.2.2] at hsession
      exact hmatch peerID session hsession

/-- From the empty state on, the records match exactly as long as no handshake leaves the
state that its record was filled in. -/
theorem sessions_match_iff (actions : List IdentityCall) :
    calls.AllStates SessionsMatch {} actions ↔
      calls.AllSteps (fun service call => ¬ service.LeavesFields call) {} actions := by
  have hstart : SessionsMatch {} := by
    intro peerID session hsession
    exact (Option.some_ne_none _ hsession.symm).elim
  refine TransitionSystem.allStates_iff_allSteps (fun _ => id) ?_ ?_ (execution_calls _ actions)
    hstart
  · intro service call _ h hcall
    exact (sessionsMatch_perform_iff h call).mpr hcall
  · intro service call _ h hcall hmatch
    exact (sessionsMatch_perform_iff h call).mp hmatch hcall

/-- A completed handshake is started again. -/
theorem restarted_keeps_fingerprint :
    ¬ calls.AllStates SessionsMatch {}
      [.registerEphemeralSession [1] .initiated 0, .updateHandshakeState [1] .completed [7] [] 1,
        .updateHandshakeState [1] .initiated [] [] 2] := by
  intro h
  have hsession := (h.run [1] _ rfl).fingerprint
  revert hsession
  decide +kernel

end IdentityService

end Bitchat
